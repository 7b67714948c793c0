import DispatchTable.Proofs.Declaration
import DispatchTable.Proofs.Sequence

/-!
# Reading arguments between commas

No piece of an argument takes a comma, so the text between the parentheses of a declaration is read
segment by segment, and each segment gives one argument at most. An extended argument is a whole
segment, unless that is empty. A plain segment is divided behind its last blank that another
character than a space follows: the name begins there, after the pointer marks, and goes on to the
next space or to the end of the segment.
-/

namespace DispatchTable

namespace Text

/-- No segment has the separator. -/
theorem not_mem_of_mem_segments {sep : Char} {s piece : Text} (h : piece ∈ segments sep s) :
    sep ∉ piece := by
  induction s generalizing piece with
  | nil =>
    rw [List.mem_singleton.mp h]
    exact List.not_mem_nil
  | cons c s ih =>
    obtain ⟨first, others, hs⟩ := List.exists_cons_of_ne_nil (segments_ne_nil sep s)
    simp only [segments, hs] at h ih
    split at h
    · rcases List.mem_cons.mp h with rfl | h
      · exact List.not_mem_nil
      · exact ih h
    · next hc =>
      rcases List.mem_cons.mp h with rfl | h
      · rw [List.mem_cons, not_or]
        exact ⟨Ne.symm hc, ih List.mem_cons_self⟩
      · exact ih (List.mem_cons_of_mem first h)

/-- A known lead ends before a separator that it does not have. -/
theorem after?_append_separator {sep : Char} {lead : Text} (h : sep ∉ lead) (s t : Text) :
    (s ++ sep :: t).after? lead = (s.after? lead).map (· ++ sep :: t) := by
  induction lead generalizing s with
  | nil => simp [after?]
  | cons a lead ih =>
    obtain ⟨ha, hlead⟩ := not_or.mp (List.mem_cons.not.mp h)
    cases s with
    | nil => simp [after?, ha]
    | cons c s =>
      rw [List.cons_append, after?, after?]
      split
      · exact ih hlead s
      · rfl

end Text

/-- Whether a piece never takes a character. -/
def Piece.Avoids (sep : Char) : Piece → Prop
  | .exact text => sep ∉ text
  | .star chars => chars sep = false
  | .plus chars => chars sep = false

namespace Pattern

variable {pattern : Pattern} {sep : Char}

/-- Whether no piece of a pattern ever takes a character. -/
def Avoids (sep : Char) (pattern : Pattern) : Prop := ∀ piece ∈ pattern, piece.Avoids sep

private theorem longest_append_separator {chars : Char → Bool} {next : Text → Option Match}
    {t : Text} (hchars : chars sep = false) (hnext : ∀ s, next (s ++ sep :: t) = next s)
    (s : Text) : longest chars next (s ++ sep :: t) = longest chars next s := by
  have hnil := hnext []
  rw [List.nil_append] at hnil
  induction s with
  | nil => simp only [List.nil_append, longest, hchars, hnil, Bool.false_eq_true, if_false,
      Option.none_or]
  | cons c s ih => rw [List.cons_append, longest, ih, ← List.cons_append, hnext, longest]

/-- What follows a separator changes nothing about the match before it. -/
theorem Avoids.backtrack?_append (h : pattern.Avoids sep) (s t : Text) :
    pattern.backtrack? (s ++ sep :: t) = pattern.backtrack? s := by
  induction pattern generalizing s with
  | nil => rfl
  | cons piece pieces ih =>
    obtain ⟨hpiece, hpieces⟩ := List.forall_mem_cons.mp h
    have hlongest : ∀ {chars : Char → Bool}, chars sep = false → ∀ s,
        longest chars (backtrack? pieces) (s ++ sep :: t) = longest chars (backtrack? pieces) s :=
      fun hchars => longest_append_separator hchars (ih hpieces)
    cases piece with
    | exact text =>
      rw [backtrack?, Text.after?_append_separator hpiece, Option.bind_map, backtrack?]
      simp only [Function.comp_def, ih hpieces]
    | star chars => exact hlongest hpiece s
    | plus chars =>
      cases s with
      | nil =>
        have hsep : chars sep = false := hpiece
        simp [backtrack?, hsep]
      | cons c s => rw [List.cons_append, backtrack?, hlongest hpiece, backtrack?]

/-- An empty text has no match that takes something. -/
theorem findAll_nil (pattern : Pattern) : pattern.findAll [] = [] := by
  rw [findAll_eq, suffixes, List.map_singleton]
  cases h : pattern.backtrack? [] with
  | none => rfl
  | some m =>
    obtain ⟨_, rest, hrest⟩ := fits_of_backtrack? h
    have hsize : m.size = 0 := by
      rw [Match.size, (List.append_eq_nil_iff.mp hrest.symm).1, List.length_nil]
    rw [pick, if_pos hsize, pick]

private theorem findAll_cons_of_empty {c : Char} {s : Text} {m : Match}
    (h : pattern.backtrack? (c :: s) = some m) (hm : m.flatten = []) :
    pattern.findAll (c :: s) = pattern.findAll s := by
  have hsize : m.size = 0 := by rw [Match.size, hm, List.length_nil]
  rw [findAll_eq, findAll_eq, suffixes, List.map_cons, h, pick, if_pos hsize]

/-- The matches in a text are those before a separator and then those after it. -/
theorem Avoids.findAll_append (h : pattern.Avoids sep) (s t : Text) :
    pattern.findAll (s ++ sep :: t) = pattern.findAll s ++ pattern.findAll t := by
  induction hlen : s.length using Nat.strong_induction_on generalizing s with
  | _ n ih =>
    subst hlen
    have hmatch := h.backtrack?_append s t
    cases s with
    | nil =>
      rw [findAll_nil, List.nil_append, List.nil_append]
      cases hm : pattern.backtrack? [] with
      | none => exact findAll_cons_of_none (hmatch.trans hm)
      | some m =>
        obtain ⟨_, rest, hrest⟩ := fits_of_backtrack? hm
        exact findAll_cons_of_empty (hmatch.trans hm) (List.append_eq_nil_iff.mp hrest.symm).1
    | cons c s =>
      have hrest := ih s.length (Nat.lt_succ_self _) s rfl
      cases hm : pattern.backtrack? (c :: s) with
      | none =>
        have hm' : pattern.backtrack? (c :: (s ++ sep :: t)) = none := hmatch.trans hm
        rw [findAll_cons_of_none hm, List.cons_append, findAll_cons_of_none hm', hrest]
      | some m =>
        have hm' : pattern.backtrack? (c :: (s ++ sep :: t)) = some m := hmatch.trans hm
        by_cases hempty : m.flatten = []
        · rw [findAll_cons_of_empty hm hempty, List.cons_append,
            findAll_cons_of_empty hm' hempty, hrest]
        · obtain ⟨_, rest, hs⟩ := fits_of_backtrack? hm
          rw [hs, List.append_assoc] at hmatch
          have hshort : rest.length < (c :: s).length := by
            rw [hs, List.length_append]
            exact Nat.lt_add_of_pos_left (List.length_pos_of_ne_nil hempty)
          rw [hs] at hm
          rw [hs, List.append_assoc, Pattern.findAll_append hempty hm,
            Pattern.findAll_append hempty (hmatch.trans hm), ih rest.length hshort rest rfl,
            List.cons_append]

/-- The matches in a text are those in its segments. -/
theorem Avoids.findAll_eq (h : pattern.Avoids sep) (s : Text) :
    pattern.findAll s = (Text.segments sep s).flatMap pattern.findAll := by
  have hjoined : ∀ pieces : List Text,
      pattern.findAll (List.intercalate [sep] pieces) = pieces.flatMap pattern.findAll := by
    intro pieces
    induction pieces with
    | nil => exact findAll_nil pattern
    | cons piece pieces ih =>
      cases pieces with
      | nil => rw [List.intercalate_singleton, List.flatMap_singleton]
      | cons piece' pieces =>
        rw [List.intercalate_cons_cons, List.append_assoc, List.singleton_append, h.findAll_append,
          ih]
        exact List.flatMap_cons.symm
  rw [← hjoined, Text.intercalate_segments]

end Pattern

namespace Dialect

open Pattern

variable {s : Text} {m : Match} {arg : Argument}

/-- The argument in a segment, if there is one. -/
def segment? (d : Dialect) (s : Text) : Option Argument :=
  (d.argumentPattern.backtrack? s).bind d.argument?

private theorem exists_of_backtrack?_extended (hs : ',' ∉ s)
    (h : extended.argumentPattern.backtrack? s = some m) :
    ∃ lead type, m = [lead, type] ∧ s = lead ++ type ∧ (∀ c ∈ lead, isBlank c = true) ∧
      type ≠ [] := by
  obtain ⟨lead, s, _, rfl, hlead, hmatch, rfl, _⟩ := exists_of_longest_eq_some h
  obtain ⟨type, rest, _, rfl, htype, _, hend, rfl, hmax⟩ := exists_of_backtrack?_plus hmatch
  obtain rfl := Option.some.inj hend
  cases rest with
  | nil => exact ⟨lead, type, rfl, by rw [List.append_nil], hlead, htype⟩
  | cons c rest =>
    have hc : c ≠ ',' := by
      rintro rfl
      simp at hs
    exact absurd (hmax [c] rest rfl (List.cons_ne_nil c []) (by simpa using hc)) nofun

/-- An extended segment is a type as a whole, unless it is empty. -/
theorem segment?_extended (hs : ',' ∉ s) :
    extended.segment? s = if s = [] then none else some ⟨[], s.trim⟩ := by
  split
  · next hnil =>
    rw [hnil]
    rfl
  · next hne =>
    have hfits : Fits extended.argumentPattern [[], s] := by
      refine .star (by simp) (.plus hne (fun c hc => ?_) .nil)
      have hcomma : c ≠ ',' := fun he => hs (he ▸ hc)
      simpa using hcomma
    obtain ⟨m, hm⟩ := hfits.exists_backtrack? []
    rw [List.flatten_cons, List.flatten_singleton, List.nil_append, List.append_nil] at hm
    obtain ⟨lead, type, rfl, rfl, hlead, _⟩ := exists_of_backtrack?_extended hs hm
    rw [segment?, hm, Option.bind_some, argument?, Text.trim, Text.trim,
      Text.trimStart_append hlead]

/-- Whether a blank in a segment, though not its first character, stands before another character
than a space. -/
def HasName (s : Text) : Prop :=
  ∃ front blank c after, s = front ++ blank :: c :: after ∧ front ≠ [] ∧ isBlank blank = true ∧
    c ≠ ' '

/-- The parts of a segment that is read as a plain argument: the name stands behind the last such
blank and behind the pointer marks there, and goes on to the next space. -/
structure Divides (s front : Text) (blank : Char) (stars name rest : Text) : Prop where
  eq_append : s = front ++ blank :: (stars ++ (name ++ rest))
  front_ne_nil : front ≠ []
  isBlank_blank : isBlank blank = true
  /-- Behind a later blank there is a space, or nothing. -/
  last : ∀ before b c after, stars ++ (name ++ rest) = before ++ b :: c :: after →
    isBlank b = true → c = ' '
  stars_eq : ∀ c ∈ stars, c = '*'
  name_ne_nil : name ≠ []
  space_not_mem : ' ' ∉ name
  rest_head : ∀ c ∈ rest.head?, c = ' '
  /-- A pointer mark is a name only where nothing else is left for it. -/
  name_of_star : name.head? = some '*' → name = ['*']

private theorem exists_of_fits_plainArgument (h : Fits plain.argumentPattern m) :
    ∃ lead words blanks stars name, m = [lead, words, blanks, stars, name] ∧ words ≠ [] ∧
      blanks ≠ [] ∧ (∀ c ∈ blanks, isBlank c = true) ∧ (∀ c ∈ stars, c = '*') ∧ name ≠ [] ∧
      ' ' ∉ name := by
  cases h with | star _ h =>
  cases h with | plus hwords _ h =>
  cases h with | plus hblanks hblank h =>
  cases h with | star hstars h =>
  cases h with | plus hname hnames h =>
  cases h with | nil =>
  refine ⟨_, _, _, _, _, rfl, hwords, hblanks, hblank, by simpa using hstars, hname, ?_⟩
  intro hspace
  simpa using hnames _ hspace

/-- Pointer marks and a name begin with another character than a space. -/
theorem exists_head_of_name {stars name : Text} (hstars : ∀ c ∈ stars, c = '*')
    (hname : name ≠ []) (hspace : ' ' ∉ name) (rest : Text) :
    ∃ c after, stars ++ (name ++ rest) = c :: after ∧ c ≠ ' ' := by
  cases stars with
  | cons c stars =>
    refine ⟨c, stars ++ (name ++ rest), rfl, ?_⟩
    rw [hstars c List.mem_cons_self]
    decide
  | nil =>
    obtain ⟨c, name, rfl⟩ := List.exists_cons_of_ne_nil hname
    exact ⟨c, name ++ rest, rfl, fun he => hspace (he ▸ List.mem_cons_self)⟩

private theorem hasName_of_fits (h : Fits plain.argumentPattern m) (hs : m.flatten <:+: s) :
    HasName s := by
  obtain ⟨lead, words, blanks, stars, name, rfl, hwords, hblanks, hblank, hstars, hname, hspace⟩ :=
    exists_of_fits_plainArgument h
  obtain ⟨before, after, rfl⟩ := hs
  obtain ⟨blanks, b, rfl⟩ := (List.eq_nil_or_concat blanks).resolve_left hblanks
  obtain ⟨c, rest, hrest, hc⟩ := exists_head_of_name hstars hname hspace after
  refine ⟨before ++ lead ++ words ++ blanks, b, c, rest, ?_, by simp [hwords],
    hblank b (by simp), hc⟩
  rw [← hrest]
  simp

private theorem HasName.exists_backtrack? (h : HasName s) (hs : ',' ∉ s) :
    ∃ m, plain.argumentPattern.backtrack? s = some m := by
  obtain ⟨front, b, c, after, rfl, hfront, hb, hc⟩ := h
  have hcomma : ∀ a ∈ front ++ b :: c :: after, a ≠ ',' := fun a ha he => hs (he ▸ ha)
  have hfits : Fits plain.argumentPattern [[], front, [b], [], [c]] := by
    refine .star (by simp) (.plus hfront (fun a ha => ?_) (.plus (List.cons_ne_nil b []) ?_
      (.star (by simp) (.plus (List.cons_ne_nil c []) ?_ .nil))))
    · simpa using hcomma a (by simp [ha])
    · simpa using hb
    · simpa using ⟨hcomma c (by simp), hc⟩
  obtain ⟨m, hm⟩ := hfits.exists_backtrack? after
  exact ⟨m, by simpa using hm⟩

private theorem divides_of_backtrack? (hs : ',' ∉ s)
    (h : plain.argumentPattern.backtrack? s = some m) :
    ∃ lead words blank stars name rest, m = [lead, words, [blank], stars, name] ∧
      (∀ c ∈ lead, isBlank c = true) ∧ Divides s (lead ++ words) blank stars name rest := by
  obtain ⟨lead, s, _, rfl, hlead, h₁, rfl, _⟩ := exists_of_longest_eq_some h
  obtain ⟨words, s, _, rfl, hwords, _, h₂, rfl, hlonger⟩ := exists_of_backtrack?_plus h₁
  obtain ⟨blanks, s, _, rfl, hblanks, hblank, h₃, rfl, _⟩ := exists_of_backtrack?_plus h₂
  obtain ⟨stars, s, _, rfl, hstars, h₄, rfl, hstar⟩ := exists_of_longest_eq_some h₃
  obtain ⟨name, rest, _, rfl, hname, hnames, h₅, rfl, hmax⟩ := exists_of_backtrack?_plus h₄
  obtain rfl := Option.some.inj h₅
  have hcomma : ∀ c ∈ lead ++ (words ++ (blanks ++ (stars ++ (name ++ rest)))), c ≠ ',' :=
    fun c hc he => hs (he ▸ hc)
  have hstars' : ∀ c ∈ stars, c = '*' := by simpa using hstars
  have hspace : ' ' ∉ name := fun hmem => by simpa using hnames _ hmem
  have hlast : ∀ before b c after, blanks ++ (stars ++ (name ++ rest)) = before ++ b :: c :: after →
      before ≠ [] → isBlank b = true → c = ' ' := by
    intro before b c after he hbefore hb
    by_contra hc
    have hbefore' : ∀ a ∈ before, (a != ',') = true := by
      intro a ha
      simpa using hcomma a (by simp [he, ha])
    have hfits : Fits [.plus isBlank, .star (· == '*'), .plus fun c => c != ',' && c != ' ']
        [[b], [], [c]] := by
      refine .plus (List.cons_ne_nil b []) (by simpa using hb) (.star (by simp)
        (.plus (List.cons_ne_nil c []) ?_ .nil))
      simpa using ⟨hcomma c (by simp [he]), hc⟩
    obtain ⟨m, hm⟩ := hfits.exists_backtrack? after
    have hnone := hlonger before (b :: c :: after) he hbefore hbefore'
    rw [show b :: c :: after = List.flatten [[b], [], [c]] ++ after from rfl, hm] at hnone
    exact absurd hnone nofun
  obtain ⟨blanks, blank, rfl⟩ := (List.eq_nil_or_concat blanks).resolve_left hblanks
  obtain ⟨c, after, hc, hcspace⟩ := exists_head_of_name hstars' hname hspace rest
  obtain rfl : blanks = [] := by
    by_contra hne
    exact hcspace (hlast blanks blank c after (by simp [hc]) hne (hblank blank (by simp)))
  refine ⟨lead, words, blank, stars, name, rest, rfl, hlead, ?_, by simp [hwords],
    hblank blank (by simp), ?_, hstars', hname, hspace, ?_, ?_⟩
  · simp
  · intro before b c after he hb
    exact hlast (blank :: before) b c after (by simp [he]) (List.cons_ne_nil _ _) hb
  · intro c hc
    obtain ⟨rest, rfl⟩ := List.head?_eq_some_iff.mp hc
    by_contra hne
    refine absurd (hmax [c] rest rfl (List.cons_ne_nil c []) ?_) nofun
    simpa using ⟨hcomma c (by simp), hne⟩
  · intro hhead
    obtain ⟨name, rfl⟩ := List.head?_eq_some_iff.mp hhead
    by_contra hne
    have hname' : name ≠ [] := by simpa using hne
    have hfits : Fits [.plus fun c => c != ',' && c != ' '] [name] :=
      .plus hname' (fun c hc => hnames c (List.mem_cons_of_mem _ hc)) .nil
    obtain ⟨m, hm⟩ := hfits.exists_backtrack? rest
    have hnone := hstar ['*'] (name ++ rest) rfl (List.cons_ne_nil _ _) (by simp)
    rw [List.flatten_singleton, hnone] at hm
    exact absurd hm nofun

namespace Divides

variable {front front' stars stars' name name' rest rest' : Text} {blank blank' : Char}

/-- A divided segment has a name. -/
theorem hasName (h : Divides s front blank stars name rest) : HasName s := by
  obtain ⟨c, after, hc, hspace⟩ := exists_head_of_name h.stars_eq h.name_ne_nil h.space_not_mem rest
  exact ⟨front, blank, c, after, by rw [← hc, h.eq_append], h.front_ne_nil, h.isBlank_blank, hspace⟩

/-- In the rest behind a name there are only spaces. -/
theorem rest_eq (h : Divides s front blank stars name rest) : ∀ c ∈ rest, c = ' ' := by
  have hspaces : ∀ before after : Text, rest = before ++ after → (∀ c ∈ before, c = ' ') →
      ∀ c ∈ after, c = ' ' := by
    intro before after
    induction after generalizing before with
    | nil => simp
    | cons c after ih =>
      intro hrest hbefore
      have hc : c = ' ' := by
        cases List.eq_nil_or_concat before with
        | inl hnil => exact h.rest_head c (by rw [hrest, hnil]; rfl)
        | inr hconcat =>
          obtain ⟨before, b, rfl⟩ := hconcat
          refine h.last (stars ++ (name ++ before)) b c after (by simp [hrest]) ?_
          rw [hbefore b (by simp)]
          decide
      rw [List.forall_mem_cons]
      refine ⟨hc, ih (before ++ [c]) (by simp [hrest]) fun a ha => ?_⟩
      rcases List.mem_append.mp ha with ha | ha
      · exact hbefore a ha
      · rw [List.mem_singleton.mp ha, hc]
  exact hspaces [] rest rfl (by simp)

private theorem length_front_le (h : Divides s front blank stars name rest)
    (h' : Divides s front' blank' stars' name' rest') : front'.length ≤ front.length := by
  rcases length_le_or_exists_of_append_eq (h.eq_append.symm.trans h'.eq_append) with
    hle | ⟨b, piece, _, hpiece⟩
  · exact hle
  · obtain ⟨c, after, hc, hspace⟩ :=
      exists_head_of_name h'.stars_eq h'.name_ne_nil h'.space_not_mem rest'
    rw [List.cons.injEq, hc] at hpiece
    exact absurd (h.last piece blank' c after hpiece.2 h'.isBlank_blank) hspace

private theorem length_stars_le (h : Divides s front blank stars name rest)
    (h' : Divides s front' blank' stars' name' rest')
    (he : stars ++ (name ++ rest) = stars' ++ (name' ++ rest')) :
    stars'.length ≤ stars.length := by
  rcases length_le_or_exists_of_append_eq he with hle | ⟨c, piece, hstars, hpiece⟩
  · exact hle
  · obtain rfl : c = '*' := h'.stars_eq c (by simp [hstars])
    obtain ⟨a, name, rfl⟩ := List.exists_cons_of_ne_nil h.name_ne_nil
    simp only [List.cons_append, List.cons.injEq] at hpiece
    obtain ⟨rfl, hrest⟩ := hpiece
    obtain rfl : name = [] := (List.cons.inj (h.name_of_star rfl)).2
    have hpiece : ∀ c ∈ piece, c = '*' := fun c hc => h'.stars_eq c (by simp [hstars, hc])
    obtain ⟨c, after, hc, hspace⟩ :=
      exists_head_of_name hpiece h'.name_ne_nil h'.space_not_mem rest'
    exact absurd (h.rest_head c (by rw [← List.nil_append rest, hrest, hc]; rfl)) hspace

private theorem length_name_le (h : Divides s front blank stars name rest)
    (h' : Divides s front' blank' stars' name' rest') (he : name ++ rest = name' ++ rest') :
    name'.length ≤ name.length := by
  rcases length_le_or_exists_of_append_eq he with hle | ⟨c, piece, hname, hpiece⟩
  · exact hle
  · have hc := h.rest_head c (by rw [hpiece]; rfl)
    exact absurd (by simp [hname, hc]) h'.space_not_mem

/-- A segment is divided in one way at most. -/
theorem unique (h : Divides s front blank stars name rest)
    (h' : Divides s front' blank' stars' name' rest') :
    front = front' ∧ blank = blank' ∧ stars = stars' ∧ name = name' := by
  obtain ⟨rfl, hbehind⟩ := List.append_inj (h.eq_append.symm.trans h'.eq_append)
    (Nat.le_antisymm (length_front_le h' h) (length_front_le h h'))
  obtain ⟨rfl, hstars⟩ := List.cons.inj hbehind
  obtain ⟨rfl, hnames⟩ := List.append_inj hstars
    (Nat.le_antisymm (length_stars_le h' h hstars.symm) (length_stars_le h h' hstars))
  obtain ⟨rfl, _⟩ := List.append_inj hnames
    (Nat.le_antisymm (length_name_le h' h hnames.symm) (length_name_le h h' hnames))
  exact ⟨rfl, rfl, rfl, rfl⟩

end Divides

/-- A plain segment is read as its parts say: the type is all that stands before the name. -/
theorem segment?_plain_eq_some_iff (hs : ',' ∉ s) :
    plain.segment? s = some arg ↔ ∃ front blank stars name rest,
      Divides s front blank stars name rest ∧ arg = ⟨name, (front ++ blank :: stars).trim⟩ := by
  have hread : ∀ {m}, plain.argumentPattern.backtrack? s = some m →
      ∃ front blank stars name rest, Divides s front blank stars name rest ∧
        plain.segment? s = some ⟨name, (front ++ blank :: stars).trim⟩ := by
    intro m hm
    obtain ⟨lead, words, blank, stars, name, rest, rfl, hlead, h⟩ := divides_of_backtrack? hs hm
    refine ⟨_, _, _, _, _, h, ?_⟩
    rw [segment?, hm, Option.bind_some, argument?, List.append_assoc, List.append_assoc, Text.trim,
      Text.trim, Text.trimStart_append hlead, List.singleton_append]
  constructor
  · intro harg
    obtain ⟨m, hm, _⟩ := Option.bind_eq_some_iff.mp harg
    obtain ⟨front, blank, stars, name, rest, h, hread⟩ := hread hm
    exact ⟨_, _, _, _, _, h, Option.some.inj (harg.symm.trans hread)⟩
  · rintro ⟨front, blank, stars, name, rest, h, rfl⟩
    obtain ⟨m, hm⟩ := h.hasName.exists_backtrack? hs
    obtain ⟨_, _, _, _, _, h', hread⟩ := hread hm
    obtain ⟨rfl, rfl, rfl, rfl⟩ := h.unique h'
    exact hread

/-- A plain segment gives an argument exactly when there is a name in it. -/
theorem exists_segment?_plain_iff (hs : ',' ∉ s) :
    (∃ arg, plain.segment? s = some arg) ↔ HasName s := by
  constructor
  · rintro ⟨arg, harg⟩
    obtain ⟨_, _, _, _, _, h, _⟩ := (segment?_plain_eq_some_iff hs).mp harg
    exact h.hasName
  · intro h
    obtain ⟨m, hm⟩ := h.exists_backtrack? hs
    obtain ⟨_, _, _, _, _, _, _, _, h'⟩ := divides_of_backtrack? hs hm
    exact ⟨_, (segment?_plain_eq_some_iff hs).mpr ⟨_, _, _, _, _, h', rfl⟩⟩

private theorem avoids_comma (d : Dialect) : d.argumentPattern.Avoids ',' := by
  cases d with
  | plain => simp [Avoids, argumentPattern, Piece.Avoids, isBlank]
  | extended => simp [Avoids, argumentPattern, Piece.Avoids, isBlank]

private theorem findAll_segment (d : Dialect) (hs : ',' ∉ s) :
    d.argumentPattern.findAll s = (d.argumentPattern.backtrack? s).toList := by
  cases d with
  | plain =>
    cases hm : plain.argumentPattern.backtrack? s with
    | none =>
      refine List.eq_nil_iff_forall_not_mem.mpr fun m hmem => ?_
      obtain ⟨hfits, hinfix⟩ := fits_of_mem_findAll hmem
      obtain ⟨m', hm'⟩ := (hasName_of_fits hfits hinfix).exists_backtrack? hs
      rw [hm] at hm'
      exact absurd hm' nofun
    | some m =>
      obtain ⟨lead, words, blank, stars, name, rest, rfl, _, h⟩ := divides_of_backtrack? hs hm
      have hflatten : s = List.flatten [lead, words, [blank], stars, name] ++ rest := by
        simpa using h.eq_append
      have hrest : plain.argumentPattern.findAll rest = [] := by
        refine List.eq_nil_iff_forall_not_mem.mpr fun m hmem => ?_
        obtain ⟨hfits, hinfix⟩ := fits_of_mem_findAll hmem
        obtain ⟨front, b, c, after, hname, _, _, hc⟩ := hasName_of_fits hfits hinfix
        exact hc (h.rest_eq c (by simp [hname]))
      rw [hflatten] at hm ⊢
      rw [findAll_append (by simp) hm, hrest]
      rfl
  | extended =>
    cases hm : extended.argumentPattern.backtrack? s with
    | none =>
      have hnil : s = [] := by
        by_contra hne
        have hread := segment?_extended hs
        rw [if_neg hne, segment?, hm] at hread
        exact absurd hread nofun
      rw [hnil, findAll_nil]
      rfl
    | some m =>
      obtain ⟨lead, type, rfl, rfl, _, htype⟩ := exists_of_backtrack?_extended hs hm
      have hflatten : lead ++ type = List.flatten [lead, type] ++ [] := by simp
      rw [hflatten] at hm ⊢
      rw [findAll_append (by simp [htype]) hm, findAll_nil]
      rfl

/-- The arguments of a declaration are those of its segments. -/
theorem arguments_eq (d : Dialect) (text : Text) :
    d.arguments text = (Text.segments ',' text).filterMap d.segment? := by
  have hsegment : ∀ s ∈ Text.segments ',' text,
      d.argumentPattern.findAll s = (d.argumentPattern.backtrack? s).toList :=
    fun s hs => findAll_segment d (Text.not_mem_of_mem_segments hs)
  rw [arguments, (avoids_comma d).findAll_eq, List.flatMap_congr hsegment,
    ← List.filterMap_eq_flatMap_toList, List.filterMap_filterMap]
  rfl

/-- The arguments of an extended declaration are the types in its segments, empty ones left out. -/
theorem arguments_extended (text : Text) :
    extended.arguments text =
      ((Text.segments ',' text).filter (· ≠ [])).map fun s => ⟨[], Text.trim s⟩ := by
  have hpieces : ∀ pieces : List Text, (∀ s ∈ pieces, ',' ∉ s) →
      pieces.filterMap extended.segment? =
        (pieces.filter (· ≠ [])).map fun s => ⟨[], Text.trim s⟩ := by
    intro pieces h
    induction pieces with
    | nil => rfl
    | cons s pieces ih =>
      obtain ⟨hs, hpieces⟩ := List.forall_mem_cons.mp h
      rw [List.filterMap_cons, segment?_extended hs, ih hpieces]
      by_cases hnil : s = [] <;> simp [hnil]
  rw [arguments_eq]
  exact hpieces _ fun s hs => Text.not_mem_of_mem_segments hs

/-- Every argument of a plain declaration has a name. -/
theorem name_ne_nil_of_mem_arguments {text : Text} (h : arg ∈ plain.arguments text) :
    arg.name ≠ [] := by
  rw [arguments_eq] at h
  obtain ⟨s, hs, harg⟩ := List.mem_filterMap.mp h
  obtain ⟨_, _, _, _, _, hdivides, rfl⟩ :=
    (segment?_plain_eq_some_iff (Text.not_mem_of_mem_segments hs)).mp harg
  exact hdivides.name_ne_nil

/-- No argument of an extended declaration has a name. -/
theorem name_eq_nil_of_mem_arguments {text : Text} (h : arg ∈ extended.arguments text) :
    arg.name = [] := by
  rw [arguments_extended] at h
  obtain ⟨s, _, rfl⟩ := List.mem_map.mp h
  rfl

end Dialect

end DispatchTable
