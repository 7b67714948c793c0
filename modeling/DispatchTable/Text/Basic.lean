/-!
# Texts

A text is a list of characters. This module has the one operation on texts that the rest of the
library reads input with: taking a known lead off the front.
-/

namespace DispatchTable

/-- A text is the list of its characters. -/
abbrev Text := List Char

namespace Text

/-- What follows `lead` in a text that begins with it. -/
def after? : (s lead : Text) → Option Text
  | s, [] => some s
  | [], _ :: _ => none
  | c :: s, a :: lead => if c = a then after? s lead else none

/-- A text has a rest after `lead` exactly when it is `lead` and that rest. -/
theorem after?_eq_some_iff {s lead r : Text} : s.after? lead = some r ↔ s = lead ++ r := by
  induction lead generalizing s with
  | nil => simp [after?]
  | cons a lead ih =>
    cases s with
    | nil => simp [after?]
    | cons c s => by_cases h : c = a <;> simp [after?, h, ih]

/-- Whether a text begins with `lead`. -/
def startsWith (s lead : Text) : Bool := (s.after? lead).isSome

/-- A text begins with `lead` exactly when something follows `lead` in it. -/
theorem startsWith_iff {s lead : Text} : s.startsWith lead = true ↔ ∃ r, s = lead ++ r := by
  simp [startsWith, Option.isSome_iff_exists, after?_eq_some_iff]

/-- Whether the last character of a text is `c`. -/
def endsWith (s : Text) (c : Char) : Bool := s.getLast? == some c

/-- A text ends with `c` exactly when it is some text and then `c`. -/
theorem endsWith_iff {s : Text} {c : Char} : s.endsWith c = true ↔ ∃ t, s = t ++ [c] := by
  simp [endsWith, List.getLast?_eq_some_iff]

/-- The decimal spelling of a count. -/
def ofNat (n : Nat) : Text := Nat.toDigits 10 n

/-- The number of bytes that a text takes in UTF-8. -/
def utf8Size (s : Text) : Nat := s.foldr (fun c size => c.utf8Size + size) 0

end Text

end DispatchTable
