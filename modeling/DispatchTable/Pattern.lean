import DispatchTable.Text.Basic

/-!
# Patterns

A pattern is a sequence of pieces, each an exact text or a run of characters of one class. A run is
as long as possible, and shorter only as far as the pieces after it need characters to match, so a
pattern matches at a place of a text in one way at most; `backtrack?` says which. The matches at all
places of a text are found together, from its end to its front, each in one step from the matches at
later places; `places_eq` says that these are the same.
-/

namespace DispatchTable

/-- One piece of a pattern. -/
inductive Piece where
  /-- Exactly this text. -/
  | exact (text : Text)
  /-- Zero or more characters of a class. -/
  | star (chars : Char → Bool)
  /-- One or more characters of a class. -/
  | plus (chars : Char → Bool)

/-- A pattern is the sequence of its pieces. -/
abbrev Pattern := List Piece

/-- A match of a pattern: what each of its pieces takes. -/
abbrev Match := List Text

namespace Match

/-- A match whose first piece takes one more character. -/
def extend (c : Char) : Match → Match
  | [] => [[c]]
  | run :: taken => (c :: run) :: taken

/-- The number of characters that a match takes. -/
def size (m : Match) : Nat := m.flatten.length

end Match

namespace Pattern

/-- The longest run of a class at the front of a text after which the rest matches. -/
def longest (chars : Char → Bool) (next : Text → Option Match) : Text → Option Match
  | [] => (next []).map ([] :: ·)
  | c :: s =>
    (if chars c then (longest chars next s).map (Match.extend c) else none).or
      ((next (c :: s)).map ([] :: ·))

/-- The match of a pattern at the front of a text, searched piece by piece. -/
def backtrack? : Pattern → Text → Option Match
  | [], _ => some []
  | .exact text :: pieces, s =>
    (s.after? text).bind fun rest => (backtrack? pieces rest).map (text :: ·)
  | .star chars :: pieces, s => longest chars (backtrack? pieces) s
  | .plus _ :: _, [] => none
  | .plus chars :: pieces, c :: s =>
    if chars c then (longest chars (backtrack? pieces) s).map (Match.extend c) else none

/-- What follows each place of a text, from its front to its end. -/
def suffixes : Text → List Text
  | [] => [[]]
  | c :: s => (c :: s) :: suffixes s

/-- The matches that begin with an exact text, where `next` are those of the rest of the pattern. -/
def exactPlaces (text s : Text) (next : List (Option Match)) : List (Option Match) :=
  List.zipWith (fun rest m? => if Text.startsWith rest text then m?.map (text :: ·) else none)
    (suffixes s) (next.drop text.length ++ List.replicate text.length none)

/-- The matches that begin with a run of a class, where `next` are those of the rest of the
pattern. -/
def starPlaces (chars : Char → Bool) : Text → List (Option Match) → List (Option Match)
  | c :: s, m? :: next =>
    let later := starPlaces chars s next
    ((if chars c then later.head?.join.map (Match.extend c) else none).or (m?.map ([] :: ·))) ::
      later
  | _, next => next.map fun m? => m?.map ([] :: ·)

/-- The matches that begin with at least one character of a class, from those that begin with any
run of it. -/
def plusPlaces (chars : Char → Bool) : Text → List (Option Match) → List (Option Match)
  | c :: s, _ :: later =>
    (if chars c then later.head?.join.map (Match.extend c) else none) :: plusPlaces chars s later
  | _, _ => [none]

/-- The matches of a pattern at all places of a text, from its front to its end. -/
def places : Pattern → Text → List (Option Match)
  | [], s => (suffixes s).map fun _ => some []
  | .exact text :: pieces, s => exactPlaces text s (places pieces s)
  | .star chars :: pieces, s => starPlaces chars s (places pieces s)
  | .plus chars :: pieces, s => plusPlaces chars s (starPlaces chars s (places pieces s))

/-- The match of a pattern at the front of a text. -/
def match? (pattern : Pattern) (s : Text) : Option Match := (pattern.places s).head?.join

/-- Of the matches at all places, those that take something, from left to right and none beginning
before `skip` more places or inside of another. -/
def pick : (skip : Nat) → List (Option Match) → List Match
  | _, [] => []
  | skip + 1, _ :: later => pick skip later
  | 0, none :: later => pick 0 later
  | 0, some m :: later => if m.size = 0 then pick 0 later else m :: pick (m.size - 1) later

/-- The matches of a pattern in a text that take something, from left to right, each searched from
where the match before it ended. -/
def findAll (pattern : Pattern) (s : Text) : List Match := pick 0 (pattern.places s)

/-- The first place of a text is followed by the whole text. -/
theorem head?_map_suffixes {α : Type} (f : Text → α) (s : Text) :
    ((suffixes s).map f).head? = some (f s) := by
  cases s <;> rfl

/-- A text has one place more than characters. -/
theorem length_suffixes (s : Text) : (suffixes s).length = s.length + 1 := by
  induction s with
  | nil => rfl
  | cons c s ih => simp [suffixes, ih]

/-- The place of a number is followed by all but that many characters. -/
theorem getElem?_suffixes (s : Text) (i : Nat) :
    (suffixes s)[i]? = if i ≤ s.length then some (s.drop i) else none := by
  induction s generalizing i with
  | nil => cases i <;> simp [suffixes]
  | cons c s ih => cases i <;> simp [suffixes, ih]

/-- At each place, a match that begins with an exact text is this text and then a match after it. -/
theorem exactPlaces_map (text s : Text) (f : Text → Option Match) :
    exactPlaces text s ((suffixes s).map f) =
      (suffixes s).map fun s => (s.after? text).bind fun rest => (f rest).map (text :: ·) := by
  apply List.ext_getElem?
  intro i
  rw [exactPlaces, List.getElem?_zipWith', List.getElem?_map, getElem?_suffixes]
  by_cases hi : i ≤ s.length
  · by_cases hl : i + text.length ≤ s.length
    · have hd : ((((suffixes s).map f).drop text.length) ++ List.replicate text.length none)[i]? =
          some (f (s.drop (text.length + i))) := by
        rw [List.getElem?_append_left (by simp [length_suffixes]; omega), List.getElem?_drop,
          List.getElem?_map, getElem?_suffixes, if_pos (by omega)]
        rfl
      rw [hd]
      simp only [hi, if_true, Option.map_some, Option.bind_some]
      cases h : Text.after? (s.drop i) text with
      | none => simp [Text.startsWith, h]
      | some rest =>
        have hr : rest = s.drop (text.length + i) := by
          rw [Nat.add_comm, ← List.drop_drop, Text.after?_eq_some_iff.mp h, List.drop_left]
        simp [Text.startsWith, h, hr]
    · have hn : Text.after? (s.drop i) text = none := by
        cases h : Text.after? (s.drop i) text with
        | none => rfl
        | some rest =>
          have := congrArg List.length (Text.after?_eq_some_iff.mp h)
          simp at this
          omega
      simp only [hi, hn, Text.startsWith, length_suffixes, List.getElem?_append, if_true,
        List.length_drop, List.length_map, Option.isSome_none, Option.map_some, Option.bind_none]
      rw [if_neg (by omega), List.getElem?_replicate, if_pos (by omega)]
      simp
  · simp [hi]

/-- At each place, a match that begins with a run of a class takes the longest run that it can. -/
theorem starPlaces_map (chars : Char → Bool) (s : Text) (f : Text → Option Match) :
    starPlaces chars s ((suffixes s).map f) = (suffixes s).map (longest chars f) := by
  induction s with
  | nil => rfl
  | cons c s ih =>
    simp only [suffixes, List.map_cons, starPlaces, ih, head?_map_suffixes, Option.join_some,
      longest]

/-- At each place, a match that begins with at least one character of a class takes this character
and then the longest run that it can. -/
theorem plusPlaces_map (chars : Char → Bool) (s : Text) (f : Text → Option Match) :
    plusPlaces chars s ((suffixes s).map (longest chars f)) =
      (suffixes s).map fun
        | [] => none
        | c :: s => if chars c then (longest chars f s).map (Match.extend c) else none := by
  induction s with
  | nil => rfl
  | cons c s ih =>
    simp only [suffixes, List.map_cons, plusPlaces, ih, head?_map_suffixes, Option.join_some]

/-- The matches at all places are those that a search from each place meets first. -/
theorem places_eq (pattern : Pattern) (s : Text) :
    pattern.places s = (suffixes s).map pattern.backtrack? := by
  induction pattern with
  | nil => simp [places, backtrack?]
  | cons piece pieces ih =>
    cases piece with
    | exact text => rw [places, ih, exactPlaces_map]; rfl
    | star chars => rw [places, ih, starPlaces_map]; rfl
    | plus chars =>
      rw [places, ih, starPlaces_map, plusPlaces_map]
      congr 1
      funext s
      cases s <;> rfl

/-- The match at the front is the one that a search meets first. -/
theorem match?_eq (pattern : Pattern) (s : Text) : pattern.match? s = pattern.backtrack? s := by
  rw [match?, places_eq, head?_map_suffixes, Option.join_some]

end Pattern

end DispatchTable
