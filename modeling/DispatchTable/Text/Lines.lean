import DispatchTable.Text.Basic

/-!
# Lines and segments

A line ends at a newline, and one carriage return right before the newline belongs to the line end.
Whatever follows the last newline is a line too, unless it is empty; such a line keeps all of its
characters. Segments are what stands between separators, with nothing left out.
-/

namespace DispatchTable.Text

/-- A line, read backwards, without the carriage return that belongs to its end. -/
def closeLine : (begun : Text) → Text
  | '\r' :: line => line.reverse
  | line => line.reverse

/-- The lines of a text whose first line has already begun with `begun`, read backwards. -/
def linesAfter (begun : Text) : Text → List Text
  | [] => if begun = [] then [] else [begun.reverse]
  | '\n' :: s => closeLine begun :: linesAfter [] s
  | c :: s => linesAfter (c :: begun) s

/-- The lines of a text, without their ends. -/
def lines (s : Text) : List Text := linesAfter [] s

/-- The lines of a sequence, each with its newline, whose first line has already begun with `begun`,
read backwards. -/
def wholeLinesAfter {α : Type} [DecidableEq α] (newline : α) (begun : List α) :
    List α → List (List α)
  | [] => if begun = [] then [] else [begun.reverse]
  | c :: s =>
    if c = newline then (c :: begun).reverse :: wholeLinesAfter newline [] s
    else wholeLinesAfter newline (c :: begun) s

/-- The lines of a sequence, each with its newline; only the last one may lack it. -/
def wholeLines {α : Type} [DecidableEq α] (newline : α) (s : List α) : List (List α) :=
  wholeLinesAfter newline [] s

/-- A line without its end. -/
def dropEnd (line : Text) : Text :=
  match line.reverse with
  | '\n' :: begun => closeLine begun
  | _ => line

/-- A line grows until a newline. -/
theorem linesAfter_append {line : Text} (h : '\n' ∉ line) (begun s : Text) :
    linesAfter begun (line ++ s) = linesAfter (line.reverse ++ begun) s := by
  induction line generalizing begun with
  | nil => rfl
  | cons c line ih =>
    have hc : c ≠ '\n' := fun e => h (e ▸ List.mem_cons_self)
    have hline : '\n' ∉ line := fun m => h (List.mem_cons_of_mem _ m)
    rw [List.cons_append, linesAfter, ih hline, List.reverse_cons, List.append_assoc]
    · rfl
    · exact hc

/-- A text that begins with a whole line has this line first and then the lines of the rest. -/
theorem lines_append_newline {line : Text} (h : '\n' ∉ line) (s : Text) :
    lines (line ++ '\n' :: s) = closeLine line.reverse :: lines s := by
  rw [lines, linesAfter_append h, linesAfter, List.append_nil]
  rfl

/-- The pieces of a text between the characters `sep`, empty ones included. -/
def segments (sep : Char) : Text → List Text
  | [] => [[]]
  | c :: s =>
    if c = sep then [] :: segments sep s
    else
      match segments sep s with
      | [] => [[c]]
      | piece :: pieces => (c :: piece) :: pieces

/-- There is always at least one segment. -/
theorem segments_ne_nil (sep : Char) (s : Text) : segments sep s ≠ [] := by
  cases s with
  | nil => simp [segments]
  | cons c s =>
    unfold segments
    split
    · simp
    · split <;> simp

/-- The segments, joined by the separator, are the text again. -/
theorem intercalate_segments (sep : Char) (s : Text) :
    List.intercalate [sep] (segments sep s) = s := by
  induction s with
  | nil => rfl
  | cons c s ih =>
    obtain ⟨piece, pieces, h⟩ := List.exists_cons_of_ne_nil (segments_ne_nil sep s)
    unfold segments
    rw [h] at ih ⊢
    split
    · next hc =>
      subst hc
      rw [← ih]
      simp [List.intercalate]
    · rw [← ih]
      cases pieces <;> simp [List.intercalate]

end DispatchTable.Text
