import DispatchTable.Yaml.Char

/-!
# Cursors

A cursor stands at a place in a document. It knows what is left to read, and how far it is from the
beginning of the document and of the line, in characters.
-/

namespace DispatchTable.Yaml

/-- A place in a document. -/
structure Cursor where
  /-- What is left to read. -/
  rest : Text
  /-- The characters before this place. -/
  index : Nat
  /-- The line ends before this place. -/
  line : Nat
  /-- The characters between the beginning of the line and this place. -/
  column : Nat
  deriving DecidableEq, Repr

/-- A document whose lines all end in a single character: a newline, also in place of a carriage
return and of a next-line character, or one of the two separators. -/
def unifyBreaks : Text → Text
  | [] => []
  | '\r' :: '\n' :: s => '\n' :: unifyBreaks s
  | c :: s => (if c = '\r' || c.toNat = 0x85 then '\n' else c) :: unifyBreaks s

namespace Cursor

/-- The beginning of a document. -/
def start (document : Text) : Cursor := ⟨unifyBreaks document, 0, 0, 0⟩

/-- The place after the next character. -/
def next (k : Cursor) : Cursor :=
  match k.rest with
  | [] => k
  | c :: rest =>
    if isBreak c then ⟨rest, k.index + 1, k.line + 1, 0⟩
    else ⟨rest, k.index + 1, k.line, k.column + 1⟩

/-- The place after some characters. -/
def skip (k : Cursor) : Nat → Cursor
  | 0 => k
  | n + 1 => k.next.skip n

/-- The characters up to the first that is not in a class, and the place of that one. -/
def span (k : Cursor) (chars : Char → Bool) : Text × Cursor :=
  let run := k.rest.takeWhile chars
  (run, k.skip run.length)

/-- The place of the first character that is not in a class. -/
def skipWhile (k : Cursor) (chars : Char → Bool) : Cursor := (k.span chars).2

/-- The next character. -/
def head? (k : Cursor) : Option Char := k.rest.head?

/-- Whether the next character is `c`. -/
def sees (k : Cursor) (c : Char) : Bool := k.head? == some c

/-- Whether a line begins here with the mark that opens or closes a document. -/
def atMark (k : Cursor) : Bool :=
  k.column == 0 &&
    ((k.rest.startsWith "---".toList || k.rest.startsWith "...".toList) && atSpace (k.rest.drop 3))

/-- The place of the end of the line, if nothing but spaces and a comment is left on it. -/
def endLine? (k : Cursor) : Option Cursor :=
  let k := k.skipWhile isGap
  let k := if k.sees '#' then k.skipWhile (!isBreak ·) else k
  match k.head? with
  | none => some k
  | some c => if isBreak c then some k.next else none

end Cursor

end DispatchTable.Yaml
