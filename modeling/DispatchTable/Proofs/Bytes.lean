import DispatchTable.Interface
import DispatchTable.Proofs.Sequence

/-!
# Reading line by line

The byte of a newline stands in the bytes of no other character. So the lines of some bytes spell
the lines of their text, and all of them are UTF-8 exactly when the bytes are UTF-8 as a whole.
-/

namespace DispatchTable

namespace Text

section WholeLines

variable {α : Type} [DecidableEq α] {newline : α}

/-- A whole line grows until a newline. -/
theorem wholeLinesAfter_append {line : List α} (h : newline ∉ line) (begun s : List α) :
    wholeLinesAfter newline begun (line ++ s) =
      wholeLinesAfter newline (line.reverse ++ begun) s := by
  induction line generalizing begun with
  | nil => rfl
  | cons c line ih =>
    have hc : c ≠ newline := fun e => h (e ▸ List.mem_cons_self)
    have hline : newline ∉ line := fun m => h (List.mem_cons_of_mem _ m)
    rw [List.cons_append, wholeLinesAfter, if_neg hc, ih hline, List.reverse_cons,
      List.append_assoc]
    rfl

/-- Nothing is lost between whole lines. -/
theorem flatten_wholeLinesAfter (begun s : List α) :
    (wholeLinesAfter newline begun s).flatten = begun.reverse ++ s := by
  induction s generalizing begun with
  | nil =>
    rw [wholeLinesAfter]
    split
    · next h => rw [h]; rfl
    · simp
  | cons c s ih =>
    rw [wholeLinesAfter]
    split
    · rw [List.flatten_cons, ih]
      simp
    · rw [ih]
      simp

/-- The whole lines of a sequence, one after the other, are the sequence. -/
theorem flatten_wholeLines (s : List α) : (wholeLines newline s).flatten = s :=
  flatten_wholeLinesAfter [] s

end WholeLines

private theorem dropEnd_reverse {begun : Text} (h : '\n' ∉ begun) :
    dropEnd begun.reverse = begun.reverse := by
  rw [dropEnd, List.reverse_reverse]
  split
  · exact absurd List.mem_cons_self h
  · rfl

private theorem map_dropEnd_wholeLinesAfter {begun : Text} (h : '\n' ∉ begun) (s : Text) :
    (wholeLinesAfter '\n' begun s).map dropEnd = linesAfter begun s := by
  induction s generalizing begun with
  | nil =>
    rw [wholeLinesAfter, linesAfter]
    split
    · rfl
    · rw [List.map_singleton, dropEnd_reverse h]
  | cons c s ih =>
    rw [wholeLinesAfter]
    split
    · next hc =>
      subst hc
      have hend : dropEnd ('\n' :: begun).reverse = closeLine begun := by
        rw [dropEnd, List.reverse_reverse]
        rfl
      rw [List.map_cons, hend, ih List.not_mem_nil, linesAfter]
    · next hc =>
      rw [ih (by simpa [hc, eq_comm] using h), linesAfter]
      exact hc

/-- The lines of a text are its whole lines without their ends. -/
theorem map_dropEnd_wholeLines (s : Text) : (wholeLines '\n' s).map dropEnd = lines s :=
  map_dropEnd_wholeLinesAfter List.not_mem_nil s

private theorem newline_not_mem_utf8EncodeChar {c : Char} (h : c ≠ '\n') :
    10 ∉ String.utf8EncodeChar c := by
  have hcode : c.val.toNat ≠ 10 := fun e => h (Char.toNat_inj.mp e)
  have hne : ∀ n, n % 256 ≠ 10 → (10 : UInt8) ≠ UInt8.ofNat n := by
    intro n hn e
    have htoNat := congrArg UInt8.toNat e
    rw [UInt8.toNat_ofNat'] at htoNat
    exact hn htoNat.symm
  rw [String.utf8EncodeChar.eq_1]
  split
  · rw [List.mem_singleton]
    exact hne _ (by omega)
  · split
    · simp only [List.mem_cons, List.not_mem_nil, or_false, not_or]
      exact ⟨hne _ (by omega), hne _ (by omega)⟩
    · split
      · simp only [List.mem_cons, List.not_mem_nil, or_false, not_or]
        exact ⟨hne _ (by omega), hne _ (by omega), hne _ (by omega)⟩
      · simp only [List.mem_cons, List.not_mem_nil, or_false, not_or]
        exact ⟨hne _ (by omega), hne _ (by omega), hne _ (by omega), hne _ (by omega)⟩

private theorem wholeLinesAfter_flatMap (begun s : Text) :
    wholeLinesAfter 10 (begun.reverse.flatMap String.utf8EncodeChar).reverse
        (s.flatMap String.utf8EncodeChar) =
      (wholeLinesAfter '\n' begun s).map (·.flatMap String.utf8EncodeChar) := by
  induction s generalizing begun with
  | nil =>
    cases begun with
    | nil => rfl
    | cons c begun =>
      have hne : ((c :: begun).reverse.flatMap String.utf8EncodeChar).reverse ≠ [] := by
        simp [String.utf8EncodeChar_ne_nil]
      rw [List.flatMap_nil, wholeLinesAfter, if_neg hne, wholeLinesAfter,
        if_neg (List.cons_ne_nil c begun), List.reverse_reverse, List.map_singleton]
  | cons c s ih =>
    by_cases hc : c = '\n'
    · subst hc
      have hnewline : String.utf8EncodeChar '\n' = [10] := by decide
      have hnil := ih []
      rw [List.reverse_nil, List.flatMap_nil, List.reverse_nil] at hnil
      rw [List.flatMap_cons, hnewline, List.singleton_append, wholeLinesAfter, if_pos rfl, hnil,
        wholeLinesAfter, if_pos rfl, List.map_cons, List.reverse_cons, List.reverse_reverse,
        List.reverse_cons, List.flatMap_append, List.flatMap_singleton, hnewline]
    · rw [List.flatMap_cons, wholeLinesAfter_append (newline_not_mem_utf8EncodeChar hc),
        ← List.reverse_append, wholeLinesAfter, if_neg hc, ← ih, List.reverse_cons,
        List.flatMap_append, List.flatMap_singleton]

end Text

open Text

/-- The text of some bytes is the one that has these bytes. -/
theorem Content.text_eq_ok_iff {bytes : ByteArray} {t : Text} :
    Content.text (.ok bytes) = .ok t ↔ bytes = t.bytes := by
  by_cases h : bytes.IsValidUTF8
  · simp only [Content.text, String.fromUTF8?, dif_pos h, Except.ok.injEq, Text.bytes]
    constructor
    · rintro rfl
      rw [String.ofList_toList]
      rfl
    · rintro rfl
      exact String.toList_ofList
  · have hne : ∀ t : Text, bytes ≠ t.bytes := by
      rintro t rfl
      exact h (String.ofList t).isValidUTF8
    simp [Content.text, String.fromUTF8?, h, hne]

/-- Different texts have different bytes. -/
theorem Text.bytes_inj {s t : Text} : s.bytes = t.bytes ↔ s = t := by
  rw [← Content.text_eq_ok_iff, Content.text_eq_ok_iff.mpr rfl, Except.ok.injEq]

/-- Bytes are UTF-8 exactly when they are those of a text. -/
theorem isValidUTF8_iff {bytes : ByteArray} : bytes.IsValidUTF8 ↔ ∃ t : Text, bytes = t.bytes := by
  constructor
  · rintro ⟨t, ht⟩
    exact ⟨t, ht.trans String.toByteArray_ofList.symm⟩
  · rintro ⟨t, rfl⟩
    exact (String.ofList t).isValidUTF8

/-- Bytes that are no UTF-8 have no text. -/
theorem Content.text_eq_error_iff {bytes : ByteArray} {cause : FileError} :
    Content.text (.ok bytes) = .error cause ↔ ¬bytes.IsValidUTF8 ∧ cause = .notUtf8 := by
  by_cases h : bytes.IsValidUTF8
  · simp [Content.text, String.fromUTF8?, h]
  · simp [Content.text, String.fromUTF8?, h, eq_comm]

private theorem bytes_eq (t : Text) : t.bytes = (t.flatMap String.utf8EncodeChar).toByteArray := by
  rw [Text.bytes, String.toUTF8_eq_toByteArray, String.toByteArray_ofList, List.utf8Encode]

/-- The lines of a text are read from its bytes. -/
theorem Content.lines_bytes (t : Text) : Content.lines (.ok t.bytes) = .ok t.lines := by
  have hlines := wholeLinesAfter_flatMap [] t
  rw [List.reverse_nil, List.flatMap_nil, List.reverse_nil] at hlines
  simp only [Content.lines]
  rw [bytes_eq, List.toList_data_toByteArray, wholeLines, hlines, mapM_eq_ok_iff,
    ← map_dropEnd_wholeLines, wholeLines, List.forall₂_map_left_iff, List.forall₂_map_right_iff,
    List.forall₂_same]
  intro line _
  rw [← bytes_eq, Content.text_eq_ok_iff.mpr rfl]
  rfl

private theorem isValidUTF8_of_wholeLines {bytes : ByteArray}
    (h : ∀ line ∈ wholeLines 10 bytes.data.toList, line.toByteArray.IsValidUTF8) :
    bytes.IsValidUTF8 := by
  have hflatten : ∀ lines : List (List UInt8),
      (∀ line ∈ lines, line.toByteArray.IsValidUTF8) →
      lines.flatten.toByteArray.IsValidUTF8 := by
    intro lines hlines
    induction lines with
    | nil => exact ByteArray.isValidUTF8_empty
    | cons line lines ih =>
      obtain ⟨hline, hlines⟩ := List.forall_mem_cons.mp hlines
      rw [List.flatten_cons, List.toByteArray_append]
      exact hline.append (ih hlines)
  have hbytes : bytes = bytes.data.toList.toByteArray :=
    ByteArray.ext (by rw [List.data_toByteArray, Array.toArray_toList])
  have hwhole := hflatten _ h
  rwa [flatten_wholeLines, ← hbytes] at hwhole

private theorem line_eq_error_iff {line : List UInt8} {cause : FileError} :
    (Content.text (.ok line.toByteArray)).map dropEnd = .error cause ↔
      ¬line.toByteArray.IsValidUTF8 ∧ cause = .notUtf8 := by
  rw [← Content.text_eq_error_iff]
  cases Content.text (.ok line.toByteArray) with
  | ok t => simp [Except.map]
  | error cause' => simp [Except.map]

private theorem lines_of_not_isValidUTF8 {bytes : ByteArray} (h : ¬bytes.IsValidUTF8) :
    Content.lines (.ok bytes) = .error .notUtf8 := by
  cases hlines : Content.lines (.ok bytes) with
  | error cause =>
    obtain ⟨line, _, hline⟩ := mapM_eq_error_iff.mp hlines
    rw [(line_eq_error_iff.mp hline).2]
  | ok lines =>
    refine absurd (isValidUTF8_of_wholeLines fun line hline => ?_) h
    obtain ⟨t, _, ht⟩ := exists_of_mem_mapM hlines line hline
    by_contra hinvalid
    rw [line_eq_error_iff.mpr ⟨hinvalid, rfl⟩] at ht
    exact absurd ht nofun

/-- The lines of a content are those of its text, although each is decoded by itself. -/
theorem Content.lines_eq (content : Content) : content.lines = content.text.map Text.lines := by
  cases content with
  | error cause => rfl
  | ok bytes =>
    by_cases h : bytes.IsValidUTF8
    · obtain ⟨t, rfl⟩ := isValidUTF8_iff.mp h
      rw [Content.lines_bytes, Content.text_eq_ok_iff.mpr rfl]
      rfl
    · rw [lines_of_not_isValidUTF8 h, Content.text_eq_error_iff.mpr ⟨h, rfl⟩]
      rfl

end DispatchTable
