import DispatchTable.Proofs.Interface
import DispatchTable.Proofs.Items
import DispatchTable.Proofs.Members

/-!
# Blanks that do not count

Blanks at the end of a line say nothing, and blanks in front of a line say something only outside of
declarations and layout blocks, where a lead must stand at the margin. So a line may be trimmed at
its end anywhere, and in front inside of an item, without changing what is read. A carriage return
before a newline is a blank at the end of a line, if it is not part of the line end already.
-/

namespace DispatchTable

namespace Text

/-- A text with a carriage return before every newline. -/
def withReturns (s : Text) : Text := s.flatMap fun c => if c = '\n' then ['\r', '\n'] else [c]

private theorem forall₂_linesAfter_withReturns (begun s : Text) :
    List.Forall₂ (fun line line' => line'.trimEnd = line.trimEnd)
      (linesAfter begun s) (linesAfter begun s.withReturns) := by
  induction s generalizing begun with
  | nil => exact List.forall₂_same.mpr fun _ _ => rfl
  | cons c s ih =>
    by_cases hc : c = '\n'
    · subst hc
      have hreturns : withReturns ('\n' :: s) = '\r' :: '\n' :: withReturns s := rfl
      obtain ⟨ending, hline, hblank⟩ := closeLine_reverse_append begun.reverse
      rw [List.reverse_reverse] at hline
      have htrim : trimEnd begun.reverse = (closeLine begun).trimEnd := by
        rw [← hline, trimEnd_append hblank]
      rw [hreturns, linesAfter, linesAfter, linesAfter]
      · exact .cons htrim (ih [])
      · decide
    · have hreturns : withReturns (c :: s) = c :: withReturns s := by simp [withReturns, hc]
      rw [hreturns, linesAfter, linesAfter]
      · exact ih (c :: begun)
      · exact hc
      · exact hc

/-- With carriage returns before the newlines, a text has the same lines apart from blanks at their
ends. -/
theorem forall₂_lines_withReturns (s : Text) :
    List.Forall₂ (fun line line' => line'.trimEnd = line.trimEnd) s.lines s.withReturns.lines :=
  forall₂_linesAfter_withReturns [] s

end Text

namespace Dialect

open Text

variable {d : Dialect} {lines lines' : List Text}

private theorem not_isBlank_leads (d : Dialect) :
    (∀ c ∈ d.statementLead.getLast?, isBlank c = false) ∧
      ∀ c ∈ d.blockLead.getLast?, isBlank c = false := by
  constructor <;> intro c hc <;> cases d <;> rw [← Option.some.inj hc] <;> rfl

/-- Inside of a declaration or a layout block, blanks at both ends of a line do not count. -/
theorem read_trim (d : Dialect) {place : Place} (hplace : place ≠ .outside) (line : Text) :
    d.read place line.trim = d.read place line := by
  cases place with
  | outside => exact absurd rfl hplace
  | statement text => rw [read, trim_trim, read]
  | block =>
    have hbrace : ∀ c ∈ List.getLast? ['\x7d'], isBlank c = false := by
      intro c hc
      rw [← Option.some.inj hc]
      rfl
    have hcloses : line.trim.startsWith ['\x7d'] = line.trimStart.startsWith ['\x7d'] :=
      startsWith_trimEnd hbrace
    simp only [read, trimStart_trim, hcloses, memberName?_trim]

/-- Blanks at the end of a line do not count. -/
theorem read_trimEnd (d : Dialect) (place : Place) (line : Text) :
    d.read place line.trimEnd = d.read place line := by
  by_cases hplace : place = .outside
  · obtain ⟨hstatement, hblock⟩ := d.not_isBlank_leads
    simp only [hplace, read, startsWith_trimEnd hstatement, startsWith_trimEnd hblock,
      trim_trimEnd, trimEnd_trimEnd]
  · rw [← d.read_trim hplace, trim_trimEnd, d.read_trim hplace]

/-- Whether lines differ from others only in blanks at the ends of lines and in blanks in front of
lines that stand inside of a declaration or of a layout block. -/
inductive Reblanked (d : Dialect) : List Text → List Text → Prop where
  | nil : Reblanked d [] []
  | trailing {lines lines' : List Text} {line line' : Text} (h : Reblanked d lines lines')
    (hline : line'.trimEnd = line.trimEnd) : Reblanked d (lines ++ [line]) (lines' ++ [line'])
  | leading {lines lines' : List Text} {line line' : Text} (h : Reblanked d lines lines')
    (hinside : d.InDeclaration lines ∨ d.InBlock lines) (hline : line'.trim = line.trim) :
    Reblanked d (lines ++ [line]) (lines' ++ [line'])

/-- More lines may follow that differ in blanks at their ends only. -/
theorem Reblanked.append (h : d.Reblanked lines lines') {more more' : List Text}
    (hmore : List.Forall₂ (fun line line' => line'.trimEnd = line.trimEnd) more more') :
    d.Reblanked (lines ++ more) (lines' ++ more') := by
  induction hmore generalizing lines lines' with
  | nil => rwa [List.append_nil, List.append_nil]
  | cons hline _ ih =>
    rw [List.append_cons, List.append_cons lines']
    exact ih (h.trailing hline)

/-- What is read of lines does not change with blanks that do not count: neither where they end nor
what they complete. -/
theorem Reblanked.readAll_eq (h : d.Reblanked lines lines') :
    d.readAll .outside lines' = d.readAll .outside lines := by
  induction h with
  | nil => rfl
  | @trailing lines lines' line line' _ hline ih =>
    have hread : ∀ place, d.read place line' = d.read place line := by
      intro place
      rw [← d.read_trimEnd, hline, d.read_trimEnd]
    simp only [readAll_concat, ih, hread]
  | @leading lines lines' line line' _ hinside hline ih =>
    have hplace : (d.readAll .outside lines).1 ≠ .outside := by
      rw [inDeclaration_iff, inBlock_iff] at hinside
      rcases hinside with ⟨text, hplace⟩ | hplace <;> rw [hplace] <;> exact nofun
    have hread : d.read (d.readAll .outside lines).1 line' =
        d.read (d.readAll .outside lines).1 line := by
      rw [← d.read_trim hplace, hline, d.read_trim hplace]
    simp only [readAll_concat, ih, hread]

end Dialect

/-- Headers whose lines differ only in blanks that do not count have the same outline. -/
theorem Outline.ofContent_reblanked {d : Dialect} {header header' : Text}
    (h : d.Reblanked header.lines header'.lines) :
    ofContent d (.ok header'.bytes) = ofContent d (.ok header.bytes) := by
  simp only [ofContent, Content.lines_bytes, h.readAll_eq]

/-- With carriage returns before its newlines, a header has the same outline. -/
theorem Outline.ofContent_withReturns (d : Dialect) (header : Text) :
    ofContent d (.ok header.withReturns.bytes) = ofContent d (.ok header.bytes) :=
  ofContent_reblanked (Dialect.Reblanked.nil.append (Text.forall₂_lines_withReturns header))

namespace Interface

/-- Blanks at the ends of lines, and those in front of lines inside of declarations and layout
blocks, change nothing that is read: no statement, no slot, and not where the lines end. So the
outline of a header is the same with carriage returns before its newlines, whether it has others or
not, and two headers have the same interface, or the same failure, with and without them. -/
theorem ofHeaders_reblanked :
    (∀ (d : Dialect) (lines lines' : List Text), d.Reblanked lines lines' →
      d.readAll .outside lines' = d.readAll .outside lines ∧
      Outline.ofEntries (d.readAll .outside lines').2 =
        Outline.ofEntries (d.readAll .outside lines).2) ∧
    (∀ (d : Dialect) (header header' : Text), d.Reblanked header.lines header'.lines →
      Outline.ofContent d (.ok header'.bytes) = Outline.ofContent d (.ok header.bytes)) ∧
    (∀ (d : Dialect) (header : Text),
      Outline.ofContent d (.ok header.withReturns.bytes) =
        Outline.ofContent d (.ok header.bytes)) ∧
    ∀ plain extended : Text,
      ofHeaders (.ok plain.withReturns.bytes) (.ok extended.withReturns.bytes) =
        ofHeaders (.ok plain.bytes) (.ok extended.bytes) := by
  refine ⟨fun d lines lines' h => ?_, fun d header header' => Outline.ofContent_reblanked,
    Outline.ofContent_withReturns, fun plain extended => ?_⟩
  · exact ⟨h.readAll_eq, by rw [h.readAll_eq]⟩
  · simp only [ofHeaders, Outline.ofContent_withReturns]

/-- A declaration on two lines and a layout block. -/
def tidyLines : List Text :=
  ["typedef CK_RV (* CK_X_A) (S *,".toList, "T);".toList,
    "struct _CK_X_FUNCTION_LIST \x7b".toList, " CK_X_A A;".toList, "\x7d;".toList]

/-- The same lines with other blanks. -/
def untidyLines : List Text :=
  ["typedef CK_RV (* CK_X_A) (S *, \t".toList, "\t T); ".toList,
    "struct _CK_X_FUNCTION_LIST \x7b\t".toList, "CK_X_A A;  ".toList, "   \x7d;".toList]

private theorem reblanked_tidyLines : Dialect.extended.Reblanked tidyLines untidyLines := by
  have hdeclaration : Dialect.extended.InDeclaration (tidyLines.take 1) :=
    Dialect.inDeclaration_iff.mpr ⟨"typedef CK_RV (* CK_X_A) (S *,".toList, by decide +kernel⟩
  have hmembers : Dialect.extended.InBlock (tidyLines.take 3) :=
    Dialect.inBlock_iff.mpr (by decide +kernel)
  have hclosing : Dialect.extended.InBlock (tidyLines.take 4) :=
    Dialect.inBlock_iff.mpr (by decide +kernel)
  exact ((((Dialect.Reblanked.nil.trailing (by decide +kernel)).leading (.inl hdeclaration)
    (by decide +kernel)).trailing (by decide +kernel)).leading (.inr hmembers)
    (by decide +kernel)).leading (.inr hclosing) (by decide +kernel)

/-- Both are read as one declaration and one slot. -/
theorem ofHeaders_reblanked_untidyLines :
    Dialect.extended.Reblanked tidyLines untidyLines ∧
      Dialect.extended.readAll .outside untidyLines =
        (.outside, [.statement "typedef CK_RV (* CK_X_A) (S *, T);".toList, .member ['A']]) := by
  refine ⟨reblanked_tidyLines, ?_⟩
  rw [(ofHeaders_reblanked.1 .extended _ _ reblanked_tidyLines).1]
  decide +kernel

end Interface

end DispatchTable
