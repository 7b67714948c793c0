import DispatchTable.Proofs.Table

/-!
# Reading printed code back as a whole

Whatever two headers declare, the printed code gives back which functions it was printed for. The
marks of the table and the first line of a wrapper are looked for in the whole code, where names and
types of any form stand. They are found only where they were printed: the heading and the mark of
the version end a line, as no line with a name or a type in it does, and behind the closing brace
there is nothing more.
-/

namespace DispatchTable

namespace Text

/-- What stands between the first place of one mark and the last place of another. -/
def between? (first last s : Text) : Option Text := do
  let rest ← afterFirst? first s
  let front ← beforeLast? last s
  if s.length - rest.length ≤ front.length then return front.drop (s.length - rest.length) else none

/-- What stands between two marks is cut out where each of them is found. -/
theorem between?_of_found {first last before body after : Text}
    (hfirst : afterFirst? first (before ++ body ++ after) = some (body ++ after))
    (hlast : beforeLast? last (before ++ body ++ after) = some (before ++ body)) :
    between? first last (before ++ body ++ after) = some body := by
  have hcut : (before ++ body ++ after).length - (body ++ after).length = before.length := by
    simp only [List.length_append]
    omega
  have hle : before.length ≤ (before ++ body).length := by simp
  simp only [between?, hfirst, hlast, Option.bind_eq_bind, Option.bind_some, hcut, if_pos hle,
    List.drop_left]
  rfl

/-- In how many places a mark stands in a text. -/
def occurrences (mark : Text) : Text → Nat
  | [] => 0
  | c :: s => (if startsWith (c :: s) mark then 1 else 0) + occurrences mark s

section Occurrences

variable {mark s t : Text}

/-- A mark that is no part of a text stands nowhere in it. -/
theorem occurrences_of_not_isInfix (h : ¬ mark <:+: s) : occurrences mark s = 0 := by
  induction s with
  | nil => rfl
  | cons c s ih =>
    have hstart : ¬ startsWith (c :: s) mark = true := by
      intro hstart
      obtain ⟨rest, hrest⟩ := startsWith_iff.mp hstart
      exact h (List.IsPrefix.isInfix ⟨rest, hrest.symm⟩)
    rw [occurrences, if_neg hstart, ih fun hs => h (hs.trans (List.suffix_cons c s).isInfix)]

/-- A line that a longer text begins with already stands in a front of whole lines. -/
theorem startsWith_append_of_endsLine {line : Text} (hline : '\n' ∉ line) (hne : s ≠ [])
    (hs : s.EndsLine) : startsWith (s ++ t) (line ++ ['\n']) = startsWith s (line ++ ['\n']) := by
  rw [Bool.eq_iff_iff]
  refine ⟨fun h => ?_, startsWith_append⟩
  obtain ⟨rest, hrest⟩ := startsWith_iff.mp h
  have hmark : line ++ ['\n'] <+: s ++ t := ⟨rest, hrest.symm⟩
  rcases List.prefix_or_prefix_of_prefix hmark (List.prefix_append s t) with h | h
  · obtain ⟨rest, rfl⟩ := h
    exact startsWith_iff.mpr ⟨rest, rfl⟩
  · rcases List.prefix_concat_iff.mp h with rfl | h
    · exact startsWith_iff.mpr ⟨[], (List.append_nil _).symm⟩
    · obtain ⟨front, rfl⟩ := endsWith_iff.mp (hs.resolve_left hne)
      exact absurd (h.subset (List.mem_append_right front List.mem_cons_self)) hline

/-- A line stands in whole lines and in what follows them as often as in both together. -/
theorem occurrences_append {line : Text} (hline : '\n' ∉ line) (hs : s.EndsLine) (t : Text) :
    occurrences (line ++ ['\n']) (s ++ t) =
      occurrences (line ++ ['\n']) s + occurrences (line ++ ['\n']) t := by
  induction s with
  | nil => exact (Nat.zero_add _).symm
  | cons c s ih =>
    have hstart := startsWith_append_of_endsLine (t := t) hline (List.cons_ne_nil c s) hs
    rw [List.cons_append] at hstart ⊢
    rw [occurrences, occurrences, hstart, ih hs.tail, Nat.add_assoc]

end Occurrences

end Text

open Text

private theorem headingMark_eq : headingMark = "static CK_RV".toList ++ ['\n'] := by decide

private theorem occurrences_headingMark_append {s : Text} (hs : s.EndsLine) (t : Text) :
    occurrences headingMark (s ++ t) = occurrences headingMark s + occurrences headingMark t := by
  rw [headingMark_eq]
  exact occurrences_append (by decide) hs t

/-- A heading stands nowhere in a text in which no newline follows its last letter. -/
theorem Text.NewlinesFollow.occurrences_headingMark {marks s : Text} (h : NewlinesFollow marks s)
    (hmarks : 'V' ∉ marks) : occurrences headingMark s = 0 := by
  refine occurrences_of_not_isInfix fun hs => hmarks ?_
  have hend : ['V', '\n'] <:+: headingMark := ⟨"static CK_R".toList, [], by decide⟩
  have hfollow := List.IsChain.infix h (hend.trans hs)
  exact List.isChain_pair.mp hfollow rfl

/-- A printed wrapper has one heading. -/
theorem occurrences_wrapper (t : Template) {f : Signature} (h : f.Printable) :
    occurrences headingMark (t.wrapper f) = 1 ∧ (t.wrapper f).EndsLine := by
  obtain ⟨body, hwrapper, hbody, hend⟩ := exists_wrapper_eq_heading t h
  have hheading : headingMark.EndsLine := by decide
  have hone : occurrences headingMark headingMark = 1 := by decide
  rw [hwrapper, occurrences_headingMark_append hheading, hone,
    hbody.1.occurrences_headingMark (by decide)]
  exact ⟨rfl, hheading.append hend⟩

private theorem occurrences_intercalate {texts : List Text}
    (h : ∀ t ∈ texts, occurrences headingMark t = 1 ∧ t.EndsLine) :
    occurrences headingMark (List.intercalate ['\n'] texts) = texts.length := by
  induction texts with
  | nil => rfl
  | cons t texts ih =>
    obtain ⟨⟨hone, hend⟩, hrest⟩ := List.forall_mem_cons.mp h
    cases texts with
    | nil => rw [List.intercalate_singleton, hone, List.length_singleton]
    | cons t' texts =>
      have hnewline : occurrences headingMark ['\n'] = 0 := by decide
      rw [List.intercalate_cons_cons, occurrences_headingMark_append (hend.append (by decide)),
        occurrences_headingMark_append hend, hone, hnewline, ih hrest]
      simp only [List.length_cons]
      omega

private theorem occurrences_opening (t : Template) :
    occurrences headingMark (t.opening ++ versionMark) = 0 ∧
      (t.opening ++ versionMark).EndsLine := by
  cases t <;> decide +kernel

private theorem occurrences_initializer (config : Config) {functions : List Signature}
    (h : ∀ f ∈ functions, f.Printable) :
    occurrences headingMark (config.initializer functions ++ "\n\x7d;\n".toList) = 0 := by
  have hitem : ∀ item ∈ functions.map fun f => '\t' :: config.entry f, ' ' ∉ item := by
    intro item hitem
    obtain ⟨f, hf, rfl⟩ := List.mem_map.mp hitem
    exact List.not_mem_cons_of_ne_of_not_mem (by decide)
      ((isName_entry config (h f hf).isName).not_mem rfl)
  have hblank : ' ' ∉ config.initializer functions ++ "\n\x7d;\n".toList := by
    rw [List.mem_append]
    exact not_or.mpr ⟨not_mem_intercalate (by decide) hitem, by decide⟩
  exact occurrences_of_not_isInfix fun hs => hblank (hs.subset (by decide))

/-- In printed code there are as many headings as functions that are not left out. -/
theorem occurrences_code (config : Config) {functions : List Signature}
    (h : ∀ f ∈ functions, f.Printable) : occurrences headingMark (config.code functions) =
      (functions.filter fun f => !config.exclude.contains f.name).length := by
  have hwrapper : ∀ t ∈ (functions.filter fun f => !config.exclude.contains f.name).map
      config.template.wrapper, occurrences headingMark t = 1 ∧ t.EndsLine := by
    intro t ht
    obtain ⟨f, hf, rfl⟩ := List.mem_map.mp ht
    exact occurrences_wrapper config.template (h f (List.mem_filter.mp hf).1)
  have hwrappers := occurrences_intercalate hwrapper
  obtain ⟨hopening, hend⟩ := occurrences_opening config.template
  calc occurrences headingMark (config.code functions)
      = occurrences headingMark (config.wrappers functions ++
          ((config.template.opening ++ versionMark) ++
            (config.initializer functions ++ "\n\x7d;\n".toList))) := by
        rw [code_eq]
        simp only [List.append_assoc]
    _ = occurrences headingMark (config.wrappers functions) := by
        rw [occurrences_headingMark_append (newlinesFollow_wrappers config h).2,
          occurrences_headingMark_append hend, hopening, occurrences_initializer config h]
        rfl
    _ = (functions.filter fun f => !config.exclude.contains f.name).length := by
        rw [Config.wrappers, hwrappers, List.length_map]

/-- The items of the table in printed code, by its marks in the whole code. -/
def tableItems? (code : Text) : Option (List Text) :=
  (between? versionMark "\n\x7d;".toList code).map fun body => body.splitItems.map Text.trim

/-- The items of a printed table are its entries. -/
theorem tableItems?_code (config : Config) {functions : List Signature}
    (h : ∀ f ∈ functions, f.Printable) (hne : functions ≠ []) :
    tableItems? (config.code functions) = some (functions.map config.entry) := by
  have hcode : config.code functions = (config.wrappers functions ++ config.template.opening ++
      versionMark) ++ config.initializer functions ++ "\n\x7d;\n".toList := by
    rw [code_eq]
    simp only [List.append_assoc]
  have hfirst : afterFirst? versionMark (config.code functions) =
      some (config.initializer functions ++ "\n\x7d;\n".toList) := by
    rw [code_eq]
    exact afterFirst?_versionMark (newlinesFollow_front config h) (by decide) _
  rw [hcode] at hfirst
  rw [tableItems?, hcode, between?_of_found hfirst (beforeLast?_closing _), Option.map_some,
    splitItems_initializer config h hne]

namespace Interface

/-- Printed code gives back which functions it was printed for. Between the marks of the table stand
the entries, one for each extended function in slot order, and there are as many headings as
functions that are not left out. -/
theorem code_readBack {plain extended : Content} {i : Interface}
    (hi : (ofHeaders plain extended).result = .ok i) (hne : i.extended ≠ []) (config : Config) :
    tableItems? (config.code i.extended) = some (i.extended.map fun x =>
      if config.exclude.contains x.name then "NULL".toList else config.template.wrapperName x) ∧
    occurrences headingMark (config.code i.extended) =
      (i.extended.filter fun x => !config.exclude.contains x.name).length :=
  ⟨tableItems?_code config (printable_extended hi) hne,
    occurrences_code config (printable_extended hi)⟩

/-- An extended header whose types are spelled like the marks of printed code. -/
def typesLikeMarks : Text :=
  "struct _CK_X_FUNCTION_LIST \x7b
 CK_X_A A;
 CK_X_B B;
\x7d;
typedef CK_RV (* CK_X_A) (S *, static CK_RV, /* version */);
typedef CK_RV (* CK_X_B) (S *);".toList

private theorem declares_typesLikeMarks : Dialect.extended.Declares (.ok typesLikeMarks.bytes)
    [⟨['A'], [⟨[], ['S', ' ', '*']⟩, ⟨[], "static CK_RV".toList⟩, ⟨[], "/* version */".toList⟩]⟩,
      ⟨['B'], [⟨[], ['S', ' ', '*']⟩]⟩]
    (.ofList [['A'], ['B']]) := by
  rw [Dialect.declares_bytes_iff]
  decide +kernel

/-- Types that are spelled like the marks are no marks. -/
theorem code_readBack_typesLikeMarks :
    ∃ i, (ofHeaders (.ok (Text.bytes [])) (.ok typesLikeMarks.bytes)).result = .ok i ∧
      i.extended ≠ [] ∧
      tableItems? ((Config.default.excluding [['B']]).code i.extended) =
        some ["base_C_A".toList, "NULL".toList] ∧
      occurrences headingMark ((Config.default.excluding [['B']]).code i.extended) = 1 := by
  have hi := ofHeaders_eq_ok_iff.mpr ⟨_, _, _, _, declares_empty, declares_typesLikeMarks,
    by unfold Signature.Agree; decide, by decide, by decide, rfl⟩
  obtain ⟨hitems, hheadings⟩ :=
    code_readBack hi (by decide +kernel) (Config.default.excluding [['B']])
  exact ⟨_, hi, by decide +kernel, hitems.trans (by decide +kernel),
    hheadings.trans (by decide +kernel)⟩

end Interface

end DispatchTable
