import DispatchTable.Header.Outline
import DispatchTable.Proofs.Declaration
import Mathlib.Data.List.Forall2

/-!
# Printed headers

How signatures are written down in a header. The relations of this module leave open what a writer
may choose: where a declaration is wrapped, whether a pointer mark stands next to the name, in which
order declarations and layout blocks stand, and all lines between them that open neither.
-/

namespace DispatchTable

/-- Whether a text can be printed as a type among others. -/
structure IsType (type : Text) : Prop where
  ne_nil : type ≠ []
  trim_eq : type.trim = type
  no_mark : ∀ c ∈ type, c ≠ ',' ∧ c ≠ ';' ∧ c ≠ '\n'

/-- Whether a text can be printed as the name of an argument. -/
structure IsArgumentName (name : Text) : Prop where
  ne_nil : name ≠ []
  no_mark : ∀ c ∈ name, isBlank c = false ∧ c ≠ ',' ∧ c ≠ ';'
  no_star : name.head? ≠ some '*'

/-- How one argument is printed. An extended argument is a type. -/
inductive PrintedArgument : Dialect → Argument → Text → Prop where
  /-- A type, a space and a name. -/
  | spaced {type name : Text} (htype : IsType type) (hname : IsArgumentName name) :
    PrintedArgument .plain ⟨name, type⟩ (type ++ ' ' :: name)
  /-- A type that ends in pointer marks behind a blank, and a name next to them. -/
  | joined {words stars name : Text} {blank : Char} (htype : IsType (words ++ blank :: stars))
    (hblank : isBlank blank = true) (hne : stars ≠ []) (hstars : ∀ c ∈ stars, c = '*')
    (hname : IsArgumentName name) :
    PrintedArgument .plain ⟨name, words ++ blank :: stars⟩ (words ++ blank :: stars ++ name)
  /-- A type without a name. -/
  | type {type : Text} (htype : IsType type) : PrintedArgument .extended ⟨[], type⟩ type

/-- How the arguments of a declaration are printed. An extended declaration has at least one. -/
inductive PrintedArguments : Dialect → List Argument → Text → Prop where
  /-- A plain declaration without arguments. -/
  | void : PrintedArguments .plain [] "void".toList
  /-- Arguments with commas between them. -/
  | items {d : Dialect} {args : List Argument} {items : List Text} (hne : items ≠ [])
    (h : List.Forall₂ (PrintedArgument d) args items) :
    PrintedArguments d args (List.intercalate ", ".toList items)

/-- A declaration on one line. -/
def Dialect.declare : Dialect → (name arguments : Text) → Text
  | plain, name, arguments =>
    plain.statementLead ++ " (C_".toList ++ name ++ ", (".toList ++ arguments ++ "));".toList
  | extended, name, arguments =>
    extended.statementLead ++ name ++ ") (".toList ++ arguments ++ ");".toList

/-- How a text is wrapped: after a comma, a space may become a newline with blanks around it. -/
inductive Wrapped : Text → Text → Prop where
  | nil : Wrapped [] []
  | keep (c : Char) {s t : Text} (h : Wrapped s t) : Wrapped (c :: s) (c :: t)
  | wrap {s t before after : Text} (hbefore : ∀ c ∈ before, isBlank c = true ∧ c ≠ '\n')
    (hafter : ∀ c ∈ after, isBlank c = true ∧ c ≠ '\n') (h : Wrapped s t) :
    Wrapped (',' :: ' ' :: s) (',' :: before ++ '\n' :: (after ++ t))

/-- A text may be left on one line. -/
theorem Wrapped.refl (s : Text) : Wrapped s s := by
  induction s with
  | nil => exact .nil
  | cons c s ih => exact .keep c ih

/-- A text may be wrapped behind a front that is left on one line. -/
theorem Wrapped.append_left {s t : Text} (front : Text) (h : Wrapped s t) :
    Wrapped (front ++ s) (front ++ t) := by
  induction front with
  | nil => exact h
  | cons c front ih => exact .keep c ih

/-- How the lines of a layout block are printed, with the names of its slots. -/
inductive PrintedMembers (d : Dialect) : List Text → Text → Prop where
  | nil : PrintedMembers d [] []
  /-- A member, with anything up to a semicolon after its type. -/
  | member {name rest text : Text} {names : List Text} (hname : IsName name) (hline : '\n' ∉ rest)
    (hmark : ';' ∈ rest) (h : PrintedMembers d names text) :
    PrintedMembers d (name :: names)
      ("  ".toList ++ d.memberLead ++ name ++ ' ' :: rest ++ '\n' :: text)
  /-- A line that neither closes the block nor is a member. -/
  | other {line text : Text} {names : List Text} (hline : '\n' ∉ line)
    (hclose : line.trimStart.startsWith ['\x7d'] = false)
    (hmember : line.trimStart.startsWith d.memberLead = false) (h : PrintedMembers d names text) :
    PrintedMembers d names (line ++ '\n' :: text)

/-- Whether a line opens neither a declaration nor a layout block. -/
structure Dialect.IsNoise (d : Dialect) (line : Text) : Prop where
  newline_not_mem : '\n' ∉ line
  no_statement : line.startsWith d.statementLead = false
  no_block : line.startsWith d.blockLead = true → line.trimEnd.endsWith ';' = true

/-- How signatures and slots are printed as a header. -/
inductive PrintedHeader (d : Dialect) : List Signature → List Text → Text → Prop where
  | nil : PrintedHeader d [] [] []
  /-- Declarations and layout blocks may have any other lines between them. -/
  | noise {fs : List Signature} {slots : List Text} {line text : Text} (hline : d.IsNoise line)
    (h : PrintedHeader d fs slots text) : PrintedHeader d fs slots (line ++ '\n' :: text)
  | declaration {f : Signature} {fs : List Signature} {slots : List Text}
    {arguments statement text : Text} (hname : IsName f.name)
    (hargs : PrintedArguments d f.args arguments)
    (hwrapped : Wrapped (d.declare f.name arguments) statement)
    (h : PrintedHeader d fs slots text) :
    PrintedHeader d (f :: fs) slots (statement ++ '\n' :: text)
  | block {fs : List Signature} {names slots : List Text} {members text : Text}
    (hmembers : PrintedMembers d names members) (h : PrintedHeader d fs slots text) :
    PrintedHeader d fs (names ++ slots)
      (d.blockLead ++ " \x7b\n".toList ++ members ++ "\x7d;\n".toList ++ text)

end DispatchTable
