import DispatchTable.Header.Outline
import DispatchTable.Proofs.Pattern
import DispatchTable.Proofs.Text

/-!
# Members of layout blocks

A member is the lead of its type behind any blanks, the name of its slot up to the next blank, and
anything up to a semicolon. The search tries shorter and shorter runs for the name and for the
blanks behind it, but the name must end where a blank follows, so these lines and no others have a
name, and only one.
-/

namespace DispatchTable

namespace Text

variable {begun line s : Text}

private theorem newline_not_mem_of_mem_linesAfter (hbegun : '\n' ∉ begun)
    (h : line ∈ linesAfter begun s) : '\n' ∉ line := by
  have hclose : ∀ begun : Text, '\n' ∉ begun → '\n' ∉ closeLine begun := by
    intro begun hbegun
    unfold closeLine
    split <;> simp_all
  induction s generalizing begun with
  | nil =>
    rw [linesAfter] at h
    split at h
    · simp at h
    · rwa [List.mem_singleton.mp h, List.mem_reverse]
  | cons c s ih =>
    by_cases hc : c = '\n'
    · rw [hc, linesAfter] at h
      rcases List.mem_cons.mp h with rfl | h
      · exact hclose begun hbegun
      · exact ih List.not_mem_nil h
    · rw [linesAfter.eq_3 _ _ _ hc] at h
      exact ih (fun hmem => (List.mem_cons.mp hmem).elim (fun he => hc he.symm) hbegun) h

/-- No line of a text has a newline. -/
theorem newline_not_mem_of_mem_lines (h : line ∈ s.lines) : '\n' ∉ line :=
  newline_not_mem_of_mem_linesAfter List.not_mem_nil h

end Text

namespace Dialect

open Pattern

variable {d : Dialect} {line name : Text}

/-- Whether a line is a member of a layout block, and the name of its slot. -/
inductive IsMember (d : Dialect) : Text → Text → Prop where
  | intro {blanks name rest : Text} {blank : Char} (hblanks : ∀ c ∈ blanks, isBlank c = true)
    (hne : name ≠ []) (hname : ∀ c ∈ name, isBlank c = false) (hblank : isBlank blank = true)
    (hmark : ';' ∈ rest) : IsMember d (blanks ++ d.memberLead ++ name ++ blank :: rest) name

private theorem exists_match_of_gap {gap value : Text} (hne : gap ≠ [])
    (hgap : ∀ c ∈ gap, isBlank c = true) (hvalue : ∀ c ∈ value, inLine c = true) (rest : Text) :
    ∃ blanks value' mark, backtrack? [.plus isBlank, .star inLine, .exact [';']]
      (gap ++ (value ++ ';' :: rest)) = some [blanks, value', mark] := by
  have hfits : Fits [.plus isBlank, .star inLine, .exact [';']] [gap, value, [';']] :=
    .plus hne hgap (.star hvalue (.exact .nil))
  obtain ⟨m, hm⟩ := hfits.exists_backtrack? rest
  have hflatten : [gap, value, [';']].flatten ++ rest = gap ++ (value ++ ';' :: rest) := by simp
  rw [hflatten] at hm
  obtain ⟨hfits', _⟩ := fits_of_backtrack? hm
  cases hfits' with | plus _ _ hfits' =>
  cases hfits' with | star _ hfits' =>
  cases hfits' with | exact hfits' =>
  cases hfits' with | nil =>
  exact ⟨_, _, _, hm⟩

/-- A line has the name that stands in any way to take it apart as a member. -/
theorem memberName?_eq_some_iff_fits : d.memberName? line = some name ↔
    ∃ blanks gap value rest, Fits d.memberPattern [blanks, d.memberLead, name, gap, value, [';']] ∧
      line = blanks ++ (d.memberLead ++ (name ++ (gap ++ (value ++ ';' :: rest)))) := by
  constructor
  · intro h
    unfold memberName? at h
    split at h
    · next blanks lead name' gap value mark hm =>
      obtain rfl := Option.some.inj h
      rw [match?_eq] at hm
      obtain ⟨hfits, rest, rfl⟩ := fits_of_backtrack? hm
      obtain ⟨rfl, rfl⟩ : lead = d.memberLead ∧ mark = [';'] := by
        cases hfits with | star _ hfits =>
        cases hfits with | exact hfits =>
        cases hfits with | plus _ _ hfits =>
        cases hfits with | plus _ _ hfits =>
        cases hfits with | star _ hfits =>
        cases hfits with | exact _ =>
        exact ⟨rfl, rfl⟩
      exact ⟨blanks, gap, value, rest, hfits, by simp⟩
    · simp at h
  · rintro ⟨blanks, gap, value, rest, hfits, rfl⟩
    cases hfits with | star hblanks hfits =>
    cases hfits with | exact hfits =>
    cases hfits with | plus hne hname hfits =>
    cases hfits with | plus hgap hgaps hfits =>
    cases hfits with | star hvalue _ =>
    obtain ⟨gap', value', mark, hm⟩ := exists_match_of_gap hgap hgaps hvalue rest
    have hlead : ∀ rest : Text, ∀ c ∈ (d.memberLead ++ rest).head?, isBlank c = false := by
      intro rest c hc
      cases d <;> rw [← Option.some.inj hc] <;> rfl
    have hstop : ∀ c ∈ (gap ++ (value ++ ';' :: rest)).head?, (!isBlank c) = false := by
      obtain ⟨blank, gap, rfl⟩ := List.exists_cons_of_ne_nil hgap
      intro c hc
      rw [← Option.some.inj hc, hgaps blank List.mem_cons_self, Bool.not_true]
    have hmatch := backtrack?_star hblanks (hlead _)
      (backtrack?_exact _ (backtrack?_plus hne hname hstop hm))
    rw [← memberPattern, ← match?_eq] at hmatch
    simp only [memberName?, hmatch]

/-- A line is a member with the name that is read. -/
theorem isMember_of_memberName? (h : d.memberName? line = some name) : d.IsMember line name := by
  obtain ⟨blanks, gap, value, rest, hfits, rfl⟩ := memberName?_eq_some_iff_fits.mp h
  cases hfits with | star hblanks hfits =>
  cases hfits with | exact hfits =>
  cases hfits with | plus hne hname hfits =>
  cases hfits with | plus hgap hgaps _ =>
  obtain ⟨blank, gap, rfl⟩ := List.exists_cons_of_ne_nil hgap
  have hmember : d.IsMember
      (blanks ++ d.memberLead ++ name ++ blank :: (gap ++ (value ++ ';' :: rest))) name :=
    .intro hblanks hne (by simpa using hname) (hgaps blank List.mem_cons_self) (by simp)
  simpa using hmember

/-- The name of a member is read. -/
theorem IsMember.memberName?_eq (h : d.IsMember line name) (hline : '\n' ∉ line) :
    d.memberName? line = some name := by
  cases h with | @intro blanks name rest blank hblanks hne hname hblank hmark =>
  obtain ⟨value, more, rfl⟩ := List.append_of_mem hmark
  have hvalue : ∀ c ∈ value, inLine c = true := by
    intro c hc
    have hne : c ≠ '\n' := by
      rintro rfl
      exact hline (by simp [hc])
    simpa [inLine] using hne
  have hsolid : ∀ c ∈ name, (!isBlank c) = true := fun c hc => by rw [hname c hc, Bool.not_false]
  exact memberName?_eq_some_iff_fits.mpr ⟨blanks, [blank], value, more,
    .star hblanks (.exact (.plus hne hsolid (.plus (List.cons_ne_nil _ _)
      (List.forall_mem_singleton.mpr hblank) (.star hvalue (.exact .nil))))), by simp⟩

/-- Of a line the name is read that it has as a member. -/
theorem memberName?_eq_some_iff (hline : '\n' ∉ line) :
    d.memberName? line = some name ↔ d.IsMember line name :=
  ⟨isMember_of_memberName?, fun h => h.memberName?_eq hline⟩

private theorem trimStart_memberLead_append (d : Dialect) (rest : Text) :
    Text.trimStart (d.memberLead ++ rest) = d.memberLead ++ rest := by
  cases d <;> exact Text.trimStart_cons rfl

/-- No name is read from a line that does not begin with the type of a member. -/
theorem memberName?_other (h : line.trimStart.startsWith d.memberLead = false) :
    d.memberName? line = none := by
  rw [← Option.not_isSome_iff_eq_none, Option.isSome_iff_exists]
  rintro ⟨name, hname⟩
  cases isMember_of_memberName? hname with | @intro blanks _ rest blank hblanks _ _ _ _ =>
  rw [List.append_assoc, List.append_assoc, Text.trimStart_append hblanks,
    trimStart_memberLead_append, ← Bool.not_eq_true] at h
  exact h (Text.startsWith_iff.mpr ⟨_, rfl⟩)

/-- Blanks at the ends of a line do not change the name that is read. -/
theorem memberName?_trim (d : Dialect) (line : Text) :
    d.memberName? line.trim = d.memberName? line := by
  apply Option.ext
  intro name
  rw [memberName?_eq_some_iff_fits, memberName?_eq_some_iff_fits]
  constructor
  · rintro ⟨blanks, gap, value, rest, hfits, htrim⟩
    obtain ⟨lead, trail, hline, hlead, _⟩ := Text.exists_eq_trim line
    cases hfits with | star hblanks hfits =>
    refine ⟨lead ++ blanks, gap, value, rest ++ trail,
      .star (List.forall_mem_append.mpr ⟨hlead, hblanks⟩) hfits, ?_⟩
    rw [hline, htrim]
    simp
  · rintro ⟨blanks, gap, value, rest, hfits, rfl⟩
    cases hfits with | star hblanks hfits =>
    refine ⟨[], gap, value, Text.trimEnd rest, .star (by simp) hfits, ?_⟩
    have hmark := Text.trimEnd_append_cons (s := d.memberLead ++ (name ++ (gap ++ value)))
      (t := rest) (c := ';') rfl
    simp only [List.append_assoc] at hmark
    rw [Text.trim, Text.trimStart_append hblanks, trimStart_memberLead_append, hmark,
      List.nil_append]

end Dialect

end DispatchTable
