import DispatchTable.Text.Blank
import DispatchTable.Text.Lines
import DispatchTable.Text.Word
import Mathlib.Data.List.Basic
import Mathlib.Data.List.TakeWhile

/-!
# Trimming and joining texts

Trimming takes blanks off the ends and nothing else, so a text with no blank at its ends is its own
trim. Word characters are no blanks.
-/

namespace DispatchTable

/-- The code points of the blanks. -/
private def blankCodes : List Nat :=
  [9, 10, 11, 12, 13, 0x20, 0x85, 0xA0, 0x1680, 0x2000, 0x2001, 0x2002, 0x2003, 0x2004, 0x2005,
    0x2006, 0x2007, 0x2008, 0x2009, 0x200A, 0x2028, 0x2029, 0x202F, 0x205F, 0x3000]

private theorem isWord_of_blankCodes : ∀ n ∈ blankCodes, isWord (Char.ofNat n) = false := by
  decide +kernel

/-- No word character is a blank. -/
theorem isBlank_of_isWord {c : Char} (h : isWord c = true) : isBlank c = false := by
  by_contra hb
  have hcode : c.toNat ∈ blankCodes := by
    simp only [isBlank, Bool.not_eq_false, Bool.or_eq_true, Bool.and_eq_true, decide_eq_true_eq,
      beq_iff_eq] at hb
    simp only [blankCodes, List.mem_cons, List.not_mem_nil, or_false]
    omega
  have hword := isWord_of_blankCodes c.toNat hcode
  rw [Char.ofNat_toNat, h] at hword
  exact absurd hword nofun

namespace Text

variable {s blanks : Text} {c : Char}

/-- Leading blanks are trimmed. -/
theorem trimStart_append (h : ∀ c ∈ blanks, isBlank c = true) :
    (blanks ++ s).trimStart = s.trimStart := by
  rw [trimStart, List.dropWhile_append_of_pos h, trimStart]

/-- Nothing is trimmed before a character that is no blank. -/
theorem trimStart_cons (h : isBlank c = false) : trimStart (c :: s) = c :: s := by
  rw [trimStart, List.dropWhile_cons_of_neg (by simp [h])]

/-- Trailing blanks are trimmed. -/
theorem trimEnd_append (h : ∀ c ∈ blanks, isBlank c = true) :
    (s ++ blanks).trimEnd = s.trimEnd := by
  rw [trimEnd, trimEnd, List.reverse_append, List.dropWhile_append_of_pos (by simpa using h)]

/-- Blanks at the end do not change a trim. -/
theorem trim_append (h : ∀ c ∈ blanks, isBlank c = true) : (s ++ blanks).trim = s.trim := by
  rw [trim, trim, trimStart, List.dropWhile_append, trimStart]
  split
  · next hnil =>
    rw [List.isEmpty_iff.mp hnil, List.dropWhile_eq_nil_iff.mpr h]
  · exact trimEnd_append h

/-- Nothing is trimmed after a character that is no blank. -/
theorem trimEnd_concat (h : isBlank c = false) : trimEnd (s ++ [c]) = s ++ [c] := by
  rw [trimEnd, List.reverse_append, List.reverse_singleton, List.singleton_append,
    List.dropWhile_cons_of_neg (by simp [h]), List.reverse_cons, List.reverse_reverse]

/-- A character that is no blank stops a trim. -/
theorem trimStart_append_cons {t : Text} (hc : isBlank c = false) :
    (s ++ c :: t).trimStart = s.trimStart ++ c :: t := by
  rw [trimStart, trimStart, List.dropWhile_append]
  split
  · next hnil =>
    rw [List.isEmpty_iff.mp hnil, List.nil_append, List.dropWhile_cons_of_neg (by simp [hc])]
  · rfl

/-- A character that is no blank stops a trim at the end. -/
theorem trimEnd_append_cons {t : Text} (hc : isBlank c = false) :
    (s ++ c :: t).trimEnd = s ++ c :: t.trimEnd := by
  have hreverse : (s ++ c :: t).reverse = t.reverse ++ c :: s.reverse := by simp
  have hstop := trimStart_append_cons (s := t.reverse) (t := s.reverse) hc
  rw [← hreverse, trimStart, trimStart] at hstop
  rw [trimEnd, hstop, trimEnd]
  simp

/-- Where something is left of a front by a trim, the rest of the text is not trimmed. -/
theorem trimStart_append_of_ne_nil (h : s.trimStart ≠ []) (t : Text) :
    (s ++ t).trimStart = s.trimStart ++ t := by
  rw [trimStart, List.dropWhile_append, if_neg (by simpa [trimStart] using h), trimStart]

/-- Where something is left of an end by a trim, the text before it is not trimmed. -/
theorem trimEnd_append_of_ne_nil (s : Text) {t : Text} (h : t.trimEnd ≠ []) :
    (s ++ t).trimEnd = s ++ t.trimEnd := by
  rw [trimEnd, List.reverse_append, List.dropWhile_append, if_neg (by simpa [trimEnd] using h),
    List.reverse_append, List.reverse_reverse, trimEnd]

/-- Trimming at the end leaves a front of the text. -/
theorem trimEnd_isPrefix (s : Text) : s.trimEnd <+: s := by
  rw [trimEnd, ← List.reverse_suffix, List.reverse_reverse]
  exact List.dropWhile_suffix isBlank

/-- A trim is a part of the text. -/
theorem trim_isInfix (s : Text) : s.trim <:+: s :=
  (trimEnd_isPrefix s.trimStart).isInfix.trans (List.dropWhile_suffix isBlank).isInfix

/-- A text is its trim at the end with blanks behind it. -/
theorem exists_eq_trimEnd (s : Text) :
    ∃ trail, s = s.trimEnd ++ trail ∧ ∀ c ∈ trail, isBlank c = true := by
  refine ⟨(s.reverse.takeWhile isBlank).reverse, ?_, ?_⟩
  · rw [trimEnd, ← List.reverse_append, List.takeWhile_append_dropWhile, List.reverse_reverse]
  · exact fun c hc => List.mem_takeWhile_imp (List.mem_reverse.mp hc)

/-- A text is its trim with blanks at both ends. -/
theorem exists_eq_trim (s : Text) : ∃ lead trail, s = lead ++ s.trim ++ trail ∧
    (∀ c ∈ lead, isBlank c = true) ∧ ∀ c ∈ trail, isBlank c = true := by
  obtain ⟨trail, htrail, hblank⟩ := exists_eq_trimEnd s.trimStart
  refine ⟨s.takeWhile isBlank, trail, ?_, fun c hc => List.mem_takeWhile_imp hc, hblank⟩
  rw [List.append_assoc, trim, ← htrail, trimStart, List.takeWhile_append_dropWhile]

/-- A trim has all characters of the text that are no blanks. -/
theorem mem_trim_iff (h : isBlank c = false) : c ∈ s.trim ↔ c ∈ s := by
  refine ⟨fun hc => (trim_isInfix s).subset hc, fun hc => ?_⟩
  obtain ⟨lead, trail, hs, hlead, htrail⟩ := exists_eq_trim s
  have hne : isBlank c ≠ true := by simp [h]
  rw [hs, List.mem_append, List.mem_append] at hc
  exact (hc.resolve_right fun hmem => hne (htrail c hmem)).resolve_left
    fun hmem => hne (hlead c hmem)

/-- A text that was trimmed at the end has no blanks there. -/
theorem trimEnd_trimEnd (s : Text) : s.trimEnd.trimEnd = s.trimEnd := by
  obtain ⟨trail, htrail, hblank⟩ := exists_eq_trimEnd s
  calc s.trimEnd.trimEnd = (s.trimEnd ++ trail).trimEnd := (trimEnd_append hblank).symm
    _ = s.trimEnd := by rw [← htrail]

/-- A text that was trimmed at the end has the same trim. -/
theorem trim_trimEnd (s : Text) : s.trimEnd.trim = s.trim := by
  obtain ⟨trail, htrail, hblank⟩ := exists_eq_trimEnd s
  calc s.trimEnd.trim = (s.trimEnd ++ trail).trim := (trim_append hblank).symm
    _ = s.trim := by rw [← htrail]

/-- A text without blanks is its own trim. -/
theorem trim_eq_self (h : ∀ c ∈ s, isBlank c = false) : s.trim = s := by
  cases s with
  | nil => rfl
  | cons a s =>
    rw [trim, trimStart_cons (h a List.mem_cons_self)]
    obtain ⟨s', b, hs⟩ := List.eq_nil_or_concat (a :: s) |>.resolve_left (List.cons_ne_nil a s)
    rw [hs, List.concat_eq_append, trimEnd_concat (h b (by simp [hs]))]

/-- Nothing is left of a text by a trim at the end exactly when it has only blanks. -/
theorem trimEnd_eq_nil_iff : s.trimEnd = [] ↔ ∀ c ∈ s, isBlank c = true := by
  rw [trimEnd, List.reverse_eq_nil_iff, List.dropWhile_eq_nil_iff]
  simp only [List.mem_reverse]

/-- Something is left of a text by a trim at the end exactly when it has more than blanks. -/
theorem trimEnd_ne_nil_iff : s.trimEnd ≠ [] ↔ ∃ c ∈ s, isBlank c = false := by
  rw [Ne, trimEnd_eq_nil_iff]
  simp

/-- Nothing is left of a text by a trim exactly when it has only blanks. -/
theorem trim_eq_nil_iff : s.trim = [] ↔ ∀ c ∈ s, isBlank c = true := by
  rw [trim, trimEnd_eq_nil_iff, trimStart]
  constructor
  · intro h c hc
    rw [← List.takeWhile_append_dropWhile (p := isBlank) (l := s), List.mem_append] at hc
    exact hc.elim List.mem_takeWhile_imp (h c)
  · exact fun h c hc => h c ((List.dropWhile_suffix isBlank).subset hc)

/-- Something is left of a text by a trim exactly when it has more than blanks. -/
theorem trim_ne_nil_iff : s.trim ≠ [] ↔ ∃ c ∈ s, isBlank c = false := by
  rw [Ne, trim_eq_nil_iff]
  simp

private theorem not_isBlank_head_dropWhile {t : Text} (hc : c ∈ (t.dropWhile isBlank).head?) :
    isBlank c = false := by
  have h := List.head?_dropWhile_not isBlank t
  rw [Option.mem_def.mp hc] at h
  exact h

/-- A trim begins with a character that is no blank. -/
theorem not_isBlank_head_trim (hc : c ∈ s.trim.head?) : isBlank c = false := by
  obtain ⟨rest, hrest⟩ : s.trim <+: s.trimStart := trimEnd_isPrefix s.trimStart
  refine not_isBlank_head_dropWhile (t := s) ?_
  rw [← trimStart, ← hrest]
  exact List.mem_head?_append_of_mem_head? hc

/-- A trim has no blanks in front. -/
theorem trimStart_trim (s : Text) : s.trim.trimStart = s.trim := by
  cases h : s.trim with
  | nil => rfl
  | cons c t => exact trimStart_cons (not_isBlank_head_trim (s := s) (by simp [h]))

/-- A trim is its own trim. -/
theorem trim_trim (s : Text) : s.trim.trim = s.trim := by
  rw [trim, trimStart_trim, trim, trimEnd_trimEnd]

/-- A longer text begins with what its front begins with. -/
theorem startsWith_append {t lead : Text} (h : s.startsWith lead = true) :
    (s ++ t).startsWith lead = true := by
  obtain ⟨rest, rfl⟩ := startsWith_iff.mp h
  exact startsWith_iff.mpr ⟨rest ++ t, List.append_assoc ..⟩

/-- A lead that does not end in a blank is not trimmed off the end. -/
theorem startsWith_trimEnd {lead : Text} (hlead : ∀ c ∈ lead.getLast?, isBlank c = false) :
    s.trimEnd.startsWith lead = s.startsWith lead := by
  rw [Bool.eq_iff_iff]
  constructor
  · intro h
    obtain ⟨trail, htrail, _⟩ := exists_eq_trimEnd s
    rw [htrail]
    exact startsWith_append h
  · intro h
    obtain ⟨rest, rfl⟩ := startsWith_iff.mp h
    rcases List.eq_nil_or_concat lead with rfl | ⟨front, c, rfl⟩
    · exact startsWith_iff.mpr ⟨_, rfl⟩
    · rw [List.concat_eq_append] at hlead ⊢
      have hc : isBlank c = false := hlead c (by simp)
      rw [List.append_assoc, List.singleton_append, trimEnd_append_cons hc]
      exact startsWith_iff.mpr ⟨rest.trimEnd, by simp⟩

/-- A closed line lacks at most blanks at its end. -/
theorem closeLine_reverse_append (line : Text) :
    ∃ ending, closeLine line.reverse ++ ending = line ∧ ∀ c ∈ ending, isBlank c = true := by
  unfold closeLine
  split
  · next begun h =>
    refine ⟨['\r'], ?_, List.forall_mem_singleton.mpr rfl⟩
    rw [← List.reverse_cons, ← h, List.reverse_reverse]
  · exact ⟨[], by rw [List.reverse_reverse, List.append_nil], by simp⟩

/-- Whether a text ends where a line ends. -/
def EndsLine (s : Text) : Prop := s = [] ∨ s.endsWith '\n' = true

instance (s : Text) : Decidable s.EndsLine :=
  inferInstanceAs (Decidable (s = [] ∨ s.endsWith '\n' = true))

/-- Nothing but a newline is last in a text that ends where a line ends. -/
theorem EndsLine.eq_newline (h : s.EndsLine) : ∀ c ∈ s.getLast?, c = '\n' := by
  rcases h with rfl | h
  · simp
  · obtain ⟨front, rfl⟩ := endsWith_iff.mp h
    simp [eq_comm]

/-- What follows a character of a text ends where the text does. -/
theorem EndsLine.tail (h : EndsLine (c :: s)) : s.EndsLine := by
  obtain ⟨front, hfront⟩ := endsWith_iff.mp (h.resolve_left (List.cons_ne_nil c s))
  rcases List.cons_eq_append_iff.mp hfront with ⟨_, h⟩ | ⟨front, _, h⟩
  · exact .inl (List.cons.inj h).2.symm
  · exact .inr (endsWith_iff.mpr ⟨front, h⟩)

/-- Texts that end where lines end are joined to one that does. -/
theorem EndsLine.append {t : Text} (hs : s.EndsLine) (ht : t.EndsLine) :
    EndsLine (s ++ t) := by
  rcases ht with rfl | ht
  · rwa [List.append_nil]
  · obtain ⟨front, rfl⟩ := endsWith_iff.mp ht
    exact .inr (endsWith_iff.mpr ⟨s ++ front, (List.append_assoc ..).symm⟩)

private theorem linesAfter_append_newline (begun s t : Text) :
    linesAfter begun (s ++ '\n' :: t) = linesAfter begun (s ++ ['\n']) ++ lines t := by
  induction s generalizing begun with
  | nil => rfl
  | cons c s ih =>
    rw [List.cons_append, List.cons_append]
    by_cases hc : c = '\n'
    · subst hc
      rw [linesAfter, linesAfter, ih, List.cons_append]
    · rw [linesAfter.eq_3 _ _ _ hc, linesAfter.eq_3 _ _ _ hc, ih]

/-- Behind the end of a line the lines are those of the text that follows. -/
theorem EndsLine.lines_append (h : s.EndsLine) (t : Text) :
    lines (s ++ t) = s.lines ++ t.lines := by
  rcases h with rfl | h
  · rfl
  · obtain ⟨front, rfl⟩ := endsWith_iff.mp h
    rw [List.append_assoc, List.singleton_append]
    exact linesAfter_append_newline [] front t

/-- Joined texts are the first one and the others behind separators. -/
theorem intercalate_eq_flatMap (sep item : Text) (items : List Text) :
    List.intercalate sep (item :: items) = item ++ items.flatMap (sep ++ ·) := by
  induction items generalizing item with
  | nil => rw [List.intercalate_singleton, List.flatMap_nil, List.append_nil]
  | cons item' items ih =>
    rw [List.intercalate_cons_cons, ih, List.flatMap_cons, List.append_assoc, List.append_assoc]

/-- Leading blanks of joined texts are those of the first one. -/
theorem trimStart_intercalate {sep : Text} {items : List Text}
    (h : ∀ item ∈ items, trimStart item ≠ []) :
    trimStart (List.intercalate sep items) =
      List.intercalate sep (items.mapIdx fun k item => if k = 0 then trimStart item else item) := by
  cases items with
  | nil => rfl
  | cons item items =>
    have hothers :
        (items.mapIdx fun k item => if k + 1 = 0 then trimStart item else item) = items :=
      List.ext_getElem? fun k => by simp
    rw [intercalate_eq_flatMap, trimStart_append_of_ne_nil (h item List.mem_cons_self),
      ← intercalate_eq_flatMap, List.mapIdx_cons, if_pos rfl, hothers]

/-- Trailing blanks of joined texts are those of the last one. -/
theorem trimEnd_intercalate {sep : Text} {items : List Text}
    (h : ∀ item ∈ items, trimEnd item ≠ []) :
    trimEnd (List.intercalate sep items) = List.intercalate sep
      (items.mapIdx fun k item => if k + 1 = items.length then trimEnd item else item) := by
  induction items with
  | nil => rfl
  | cons item items ih =>
    cases items with
    | nil => simp
    | cons item' items =>
      obtain ⟨_, hitems⟩ := List.forall_mem_cons.mp h
      have hrest : trimEnd (List.intercalate sep (item' :: items)) ≠ [] := by
        obtain ⟨c, hc, hsolid⟩ := trimEnd_ne_nil_iff.mp (hitems item' List.mem_cons_self)
        refine trimEnd_ne_nil_iff.mpr ⟨c, ?_, hsolid⟩
        rw [intercalate_eq_flatMap]
        exact List.mem_append_left _ hc
      have hothers : ((item :: item' :: items).mapIdx fun k x =>
            if k + 1 = (item :: item' :: items).length then trimEnd x else x) =
          item :: (item' :: items).mapIdx fun k x =>
            if k + 1 = (item' :: items).length then trimEnd x else x := by
        rw [List.mapIdx_cons, if_neg (by simp)]
        simp
      rw [List.intercalate_cons_cons, trimEnd_append_of_ne_nil _ hrest, ih hitems, hothers,
        List.mapIdx_cons, List.intercalate_cons_cons]

/-- A character that stands in no item and not between them stands not in the joined text. -/
theorem not_mem_intercalate {c : Char} {sep : Text} {items : List Text} (hsep : c ∉ sep)
    (h : ∀ item ∈ items, c ∉ item) : c ∉ List.intercalate sep items := by
  induction items with
  | nil => exact List.not_mem_nil
  | cons item items ih =>
    have hitem := h item List.mem_cons_self
    cases items with
    | nil => rwa [List.intercalate_singleton]
    | cons item' items =>
      have hrest := ih fun x hx => h x (List.mem_cons_of_mem item hx)
      rw [List.intercalate_cons_cons, List.mem_append, List.mem_append]
      exact fun hmem => hmem.elim (·.elim hitem hsep) hrest

end Text

end DispatchTable
