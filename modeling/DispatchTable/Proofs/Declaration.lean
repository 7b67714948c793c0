import DispatchTable.Header.Declaration
import DispatchTable.Proofs.Pattern
import DispatchTable.Proofs.Text

/-!
# What a read declaration is made of

The name of a signature is a word, and its arguments are parts of one line: no newline stands in
their names or types. So whatever was read can be printed.
-/

namespace DispatchTable

/-- Whether a text can be the name of a function. -/
def IsName (name : Text) : Prop := name ≠ [] ∧ ∀ c ∈ name, isWord c = true

/-- Only word characters stand in a name. -/
theorem IsName.not_mem {name : Text} (h : IsName name) {c : Char} (hc : isWord c = false) :
    c ∉ name := by
  intro hmem
  rw [h.2 c hmem] at hc
  exact absurd hc nofun

/-- Whether a signature can be printed: its name is a word, and each of its arguments stands on one
line. -/
structure Signature.Printable (f : Signature) : Prop where
  isName : IsName f.name
  newline_not_mem : ∀ arg ∈ f.args, '\n' ∉ arg.name ∧ '\n' ∉ arg.type

namespace Dialect

open Pattern

/-- What the pieces of a plain declaration take. -/
theorem exists_of_fits_plain {m : Match} (h : Fits plain.declarationPattern m) :
    ∃ blanks name text, m = [plain.statementLead, blanks, "(C_".toList, name, ", (".toList, text,
        "));".toList] ∧
      (∀ c ∈ blanks, isBlank c = true) ∧ IsName name ∧ ∀ c ∈ text, inLine c = true := by
  cases h with | exact h =>
  cases h with | star hblanks h =>
  cases h with | exact h =>
  cases h with | plus hne hname h =>
  cases h with | exact h =>
  cases h with | star htext h =>
  cases h with | exact h =>
  cases h with | nil =>
  exact ⟨_, _, _, rfl, hblanks, ⟨hne, hname⟩, htext⟩

/-- What the pieces of an extended declaration take. -/
theorem exists_of_fits_extended {m : Match} (h : Fits extended.declarationPattern m) :
    ∃ name blanks text, m = [extended.statementLead, name, [')'], blanks, ['('], text,
        ");".toList] ∧
      (∀ c ∈ blanks, isBlank c = true) ∧ IsName name ∧ ∀ c ∈ text, inLine c = true := by
  cases h with | exact h =>
  cases h with | plus hne hname h =>
  cases h with | exact h =>
  cases h with | star hblanks h =>
  cases h with | exact h =>
  cases h with | star htext h =>
  cases h with | exact h =>
  cases h with | nil =>
  exact ⟨_, _, _, rfl, hblanks, ⟨hne, hname⟩, htext⟩

/-- The name in a statement is a word and the text of its arguments a part of one line. -/
theorem isName_of_declaration? {d : Dialect} {statement name text : Text}
    (h : d.declaration? statement = some (name, text)) :
    IsName name ∧ ∀ c ∈ text, inLine c = true := by
  unfold declaration? at h
  split at h
  · next hm =>
    obtain ⟨rfl, rfl⟩ := Prod.mk.inj (Option.some.inj h)
    rw [match?_eq] at hm
    obtain ⟨_, _, _, hpieces, _, hname, htext⟩ := exists_of_fits_plain (fits_of_backtrack? hm).1
    simp only [List.cons.injEq] at hpieces
    obtain ⟨_, _, _, rfl, _, rfl, _⟩ := hpieces
    exact ⟨hname, htext⟩
  · next hm =>
    obtain ⟨rfl, rfl⟩ := Prod.mk.inj (Option.some.inj h)
    rw [match?_eq] at hm
    obtain ⟨_, _, _, hpieces, _, hname, htext⟩ :=
      exists_of_fits_extended (fits_of_backtrack? hm).1
    simp only [List.cons.injEq] at hpieces
    obtain ⟨_, rfl, _, _, _, rfl, _⟩ := hpieces
    exact ⟨hname, htext⟩
  · exact absurd h nofun

/-- The name and the type of an argument are made of the characters that it was read from. -/
theorem mem_of_argument? {d : Dialect} {m : Match} {arg : Argument}
    (h : d.argument? m = some arg) {c : Char} (hc : c ∈ arg.name ∨ c ∈ arg.type) :
    c ∈ m.flatten := by
  unfold argument? at h
  split at h
  · next first words blanks stars name =>
    obtain rfl := Option.some.inj h
    rcases hc with hc | hc
    · simp [show c ∈ name from hc]
    · have hc' := (Text.trim_isInfix _).subset hc
      simp only [List.mem_append] at hc'
      simp only [List.flatten_cons, List.mem_append]
      tauto
  · next first type =>
    obtain rfl := Option.some.inj h
    rcases hc with hc | hc
    · exact absurd hc List.not_mem_nil
    · have hc' := (Text.trim_isInfix _).subset hc
      simp [hc']
  · exact absurd h nofun

/-- The names and types of arguments are made of the characters that they were read from. -/
theorem mem_of_mem_arguments {d : Dialect} {text : Text} {arg : Argument}
    (h : arg ∈ d.arguments text) {c : Char} (hc : c ∈ arg.name ∨ c ∈ arg.type) : c ∈ text := by
  obtain ⟨m, hm, harg⟩ := List.mem_filterMap.mp h
  exact (fits_of_mem_findAll hm).2.subset (mem_of_argument? harg hc)

/-- A statement is read as a signature exactly when it has the form of a declaration. -/
theorem signature_eq_ok_iff {d : Dialect} {statement : Text} {f : Signature} :
    d.signature statement = .ok f ↔
      ∃ text, d.declaration? statement = some (f.name, text) ∧ f.args = d.arguments text := by
  cases f with
  | mk name args =>
    rw [signature]
    cases h : d.declaration? statement with
    | none => simp
    | some found =>
      simp only [Except.ok.injEq, Option.some.injEq, Prod.ext_iff, Signature.mk.injEq]
      constructor
      · rintro ⟨rfl, rfl⟩
        exact ⟨found.2, ⟨rfl, rfl⟩, rfl⟩
      · rintro ⟨text, ⟨rfl, rfl⟩, rfl⟩
        exact ⟨rfl, rfl⟩

/-- A signature that was read can be printed. -/
theorem printable_of_signature {d : Dialect} {statement : Text} {f : Signature}
    (h : d.signature statement = .ok f) : f.Printable := by
  obtain ⟨text, hdecl, hargs⟩ := signature_eq_ok_iff.mp h
  obtain ⟨hname, hline⟩ := isName_of_declaration? hdecl
  refine ⟨hname, fun arg harg => ?_⟩
  have hnone : ∀ c, c ∈ arg.name ∨ c ∈ arg.type → c ≠ '\n' := by
    intro c hc
    simpa [inLine] using hline c (mem_of_mem_arguments (hargs ▸ harg) hc)
  exact ⟨fun hc => hnone _ (.inl hc) rfl, fun hc => hnone _ (.inr hc) rfl⟩

end Dialect

end DispatchTable
