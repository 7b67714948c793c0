import DispatchTable.Proofs.Declaration
import DispatchTable.Table
import Mathlib.Data.List.Chain

/-!
# Reading a printed table back

The entries of a table can be read back from the printed code: they stand between the line of the
version and the closing brace, one on a line. The mark of the version line ends in a slash and a
newline, and in printed wrappers newlines follow few characters, whatever the names and types are,
and a slash is none of them. So the search from the front meets no other mark first.
-/

namespace DispatchTable

namespace Text

/-- What follows the first place where `mark` stands in a text. -/
def afterFirst? (mark : Text) : Text → Option Text
  | [] => Text.after? [] mark
  | c :: s => (Text.after? (c :: s) mark).or (afterFirst? mark s)

/-- What precedes the last place where `mark` stands in a text. -/
def beforeLast? (mark s : Text) : Option Text :=
  (afterFirst? mark.reverse s.reverse).map List.reverse

/-- A search ends at a mark, if the mark begins at no place before. -/
theorem afterFirst?_append {mark before rest : Text}
    (h : ∀ q, q <:+ before → q ≠ [] → Text.after? (q ++ (mark ++ rest)) mark = none) :
    afterFirst? mark (before ++ (mark ++ rest)) = some rest := by
  induction before with
  | nil =>
    have hmark : Text.after? (mark ++ rest) mark = some rest := Text.after?_eq_some_iff.mpr rfl
    rw [List.nil_append]
    cases hs : mark ++ rest with
    | nil => rwa [hs] at hmark
    | cons c s =>
      rw [hs] at hmark
      rw [afterFirst?, hmark, Option.some_or]
  | cons c before ih =>
    have hc := h (c :: before) List.suffix_rfl (List.cons_ne_nil c before)
    rw [List.cons_append] at hc ⊢
    rw [afterFirst?, hc, Option.none_or]
    exact ih fun q hq => h q (hq.trans (List.suffix_cons c before))

/-- The lines of a list that is written one item on a line, each but the last with a comma. -/
def splitItems : Text → List Text
  | [] => [[]]
  | ',' :: '\n' :: s => [] :: splitItems s
  | c :: s =>
    match splitItems s with
    | [] => [[c]]
    | item :: items => (c :: item) :: items

private theorem splitItems_of_not_mem {item : Text} (h : ',' ∉ item) :
    splitItems item = [item] := by
  induction item with
  | nil => rfl
  | cons c item ih =>
    rw [splitItems, ih fun m => h (List.mem_cons_of_mem c m)]
    rintro _ rfl _
    exact h List.mem_cons_self

private theorem splitItems_append {item : Text} (h : ',' ∉ item) (s : Text) :
    splitItems (item ++ ',' :: '\n' :: s) = item :: splitItems s := by
  induction item with
  | nil => rfl
  | cons c item ih =>
    rw [List.cons_append, splitItems, ih fun m => h (List.mem_cons_of_mem c m)]
    rintro _ rfl _
    exact h List.mem_cons_self

/-- Items without commas that are written one on a line are split again. -/
theorem splitItems_intercalate {items : List Text} (hne : items ≠ [])
    (h : ∀ item ∈ items, ',' ∉ item) :
    splitItems (List.intercalate ",\n".toList items) = items := by
  induction items with
  | nil => exact absurd rfl hne
  | cons item items ih =>
    have hitem := h item List.mem_cons_self
    cases items with
    | nil => rw [List.intercalate_singleton, splitItems_of_not_mem hitem]
    | cons item' items =>
      have hrest := ih (List.cons_ne_nil item' items) fun x hx => h x (List.mem_cons_of_mem item hx)
      have hmark : ∀ t : Text, ",\n".toList ++ t = ',' :: '\n' :: t := fun _ => rfl
      rw [List.intercalate_cons_cons, List.append_assoc, hmark, splitItems_append hitem, hrest]

/-- Whether newlines follow only some characters in a text. -/
def NewlinesFollow (marks s : Text) : Prop := s.IsChain fun a b => b = '\n' → a ∈ marks

instance (marks s : Text) : Decidable (NewlinesFollow marks s) :=
  inferInstanceAs (Decidable (s.IsChain fun a b => b = '\n' → a ∈ marks))

section NewlinesFollow

variable {marks marks' s t : Text}

/-- A text on one line has no newlines to follow anything. -/
theorem newlinesFollow_of_not_mem (h : '\n' ∉ s) : NewlinesFollow marks s := by
  rw [NewlinesFollow, List.isChain_iff_forall_rel_of_append_cons_cons]
  rintro a b s₁ s₂ rfl rfl
  exact absurd (by simp) h

/-- Newlines follow no other characters than some, if they follow none but a part of these. -/
theorem NewlinesFollow.mono (h : NewlinesFollow marks s) (hmarks : marks ⊆ marks') :
    NewlinesFollow marks' s :=
  h.imp fun _ _ hfollow hb => hmarks (hfollow hb)

/-- Where two texts meet, a newline follows what may stand before it, if the first ends so or the
second does not begin with a newline. -/
theorem NewlinesFollow.append (hs : NewlinesFollow marks s) (ht : NewlinesFollow marks t)
    (h : (∀ c ∈ s.getLast?, c ∈ marks) ∨ t.head? ≠ some '\n') : NewlinesFollow marks (s ++ t) := by
  refine List.isChain_append.mpr ⟨hs, ht, ?_⟩
  rintro a ha b hb rfl
  exact h.elim (· a ha) (absurd hb)

/-- Texts on one line each can be joined by commas and newlines. -/
theorem newlinesFollow_intercalate {items : List Text} (hmarks : ",\n".toList ⊆ marks)
    (h : ∀ item ∈ items, '\n' ∉ item) :
    NewlinesFollow marks (List.intercalate ",\n".toList items) := by
  obtain ⟨hcomma, hnewline⟩ := List.cons_subset.mp hmarks
  induction items with
  | nil => exact List.IsChain.nil
  | cons item items ih =>
    have hitem : NewlinesFollow marks item :=
      newlinesFollow_of_not_mem (h item List.mem_cons_self)
    cases items with
    | nil => rwa [List.intercalate_singleton]
    | cons item' items =>
      have hrest := ih fun x hx => h x (List.mem_cons_of_mem item hx)
      have hsep : NewlinesFollow marks ",\n".toList := List.isChain_pair.mpr fun _ => hcomma
      rw [List.intercalate_cons_cons, List.append_assoc]
      refine hitem.append (hsep.append hrest (.inl ?_)) (.inr (by simp))
      rintro c hc
      rw [← Option.some.inj hc]
      exact hnewline List.mem_cons_self

/-- Texts that end where lines end can be joined by newlines, and the joined text ends so too. -/
theorem newlinesFollow_intercalate_newline {texts : List Text} (hmarks : '\n' ∈ marks)
    (h : ∀ t ∈ texts, NewlinesFollow marks t ∧ t.EndsLine) :
    NewlinesFollow marks (List.intercalate ['\n'] texts) ∧
      EndsLine (List.intercalate ['\n'] texts) := by
  have hlast : ∀ {t : Text}, t.EndsLine → ∀ c ∈ t.getLast?, c ∈ marks :=
    fun ht c hc => ht.eq_newline c hc ▸ hmarks
  induction texts with
  | nil => exact ⟨List.IsChain.nil, .inl rfl⟩
  | cons t texts ih =>
    obtain ⟨ht, hend⟩ := h t List.mem_cons_self
    cases texts with
    | nil =>
      rw [List.intercalate_singleton]
      exact ⟨ht, hend⟩
    | cons t' texts =>
      obtain ⟨hrest, hrestEnd⟩ := ih fun x hx => h x (List.mem_cons_of_mem t hx)
      have hnewline : EndsLine ['\n'] := .inr rfl
      rw [List.intercalate_cons_cons]
      have hfront : NewlinesFollow marks (t ++ ['\n']) :=
        ht.append (List.isChain_singleton _) (.inl (hlast hend))
      exact ⟨hfront.append hrest (.inl (hlast (hend.append hnewline))),
        (hend.append hnewline).append hrestEnd⟩

end NewlinesFollow

/-- The end of the line that gives the version of a table. -/
def versionMark : Text := "/* version */\n".toList

/-- Behind a text without a newline after a slash, the mark of the version is found. -/
theorem afterFirst?_versionMark {marks before : Text} (h : NewlinesFollow marks before)
    (hmarks : '/' ∉ marks) (rest : Text) :
    afterFirst? versionMark (before ++ (versionMark ++ rest)) = some rest := by
  apply afterFirst?_append
  intro q hq hne
  by_contra hfound
  obtain ⟨r, hr⟩ := Option.ne_none_iff_exists'.mp hfound
  have heq := Text.after?_eq_some_iff.mp hr
  by_cases hlen : versionMark.length ≤ q.length
  · have hmark : versionMark <+: q :=
      List.prefix_of_prefix_length_le ⟨r, heq.symm⟩ (List.prefix_append q _) hlen
    have hslash : ['/', '\n'] <:+: versionMark := ⟨"/* version *".toList, [], rfl⟩
    have hfollow := List.IsChain.infix h (hslash.trans (hmark.isInfix.trans hq.isInfix))
    exact hmarks (List.isChain_pair.mp hfollow rfl)
  · have hnewline : (q ++ (versionMark ++ rest))[13]? = some '\n' := by
      rw [heq]
      rfl
    have hlen' : versionMark.length = 14 := by decide
    have hpos := List.length_pos_of_ne_nil hne
    rw [List.getElem?_append_right (by omega), List.getElem?_append_left (by omega)] at hnewline
    have honly : ∀ j < 13, versionMark[j]? ≠ some '\n' := by decide
    exact honly (13 - q.length) (by omega) hnewline

/-- A text that ends in the closing line of a table is cut before that line. -/
theorem beforeLast?_closing (s : Text) :
    beforeLast? "\n\x7d;".toList (s ++ "\n\x7d;\n".toList) = some s := by
  rw [beforeLast?, List.reverse_append]
  have h : afterFirst? "\n\x7d;".toList.reverse
      (['\n'] ++ ("\n\x7d;".toList.reverse ++ s.reverse)) = some s.reverse := by
    apply afterFirst?_append
    intro q hq hne
    obtain rfl : q = ['\n'] := by
      rcases List.suffix_cons_iff.mp hq with rfl | hq
      · rfl
      · exact absurd (List.suffix_nil.mp hq) hne
    rfl
  exact (congrArg (Option.map List.reverse) h).trans (congrArg some s.reverse_reverse)

/-- Whether newlines follow only some characters in a text, and also where the text follows
another. -/
def Continues (marks s : Text) : Prop := NewlinesFollow marks s ∧ s.head? ≠ some '\n'

instance (marks s : Text) : Decidable (Continues marks s) :=
  inferInstanceAs (Decidable (NewlinesFollow marks s ∧ s.head? ≠ some '\n'))

section Continues

variable {marks s t : Text}

/-- A text on one line may follow any other. -/
theorem continues_of_not_mem (h : '\n' ∉ s) : Continues marks s :=
  ⟨newlinesFollow_of_not_mem h, fun hhead => h (List.mem_of_mem_head? hhead)⟩

/-- A text that may follow any other follows one in which newlines follow the same characters. -/
theorem NewlinesFollow.followedBy (hs : NewlinesFollow marks s) (ht : Continues marks t) :
    NewlinesFollow marks (s ++ t) :=
  hs.append ht.1 (.inr ht.2)

/-- Texts that may follow any other are joined to one that may. -/
theorem Continues.append (hs : Continues marks s) (ht : Continues marks t) :
    Continues marks (s ++ t) := by
  refine ⟨hs.1.followedBy ht, fun hhead => ?_⟩
  rw [List.head?_append, Option.or_eq_some_iff] at hhead
  exact hhead.elim hs.2 fun hrest => ht.2 hrest.2

end Continues

end Text

open Text

/-- The line that a printed wrapper begins with. -/
def headingMark : Text := "static CK_RV\n".toList

/-- The characters that newlines follow behind the heading of a printed wrapper. -/
def lineEnds : Text := ",)\x7b;\x7d\n".toList

/-- The name of a wrapper is a word, as that of its function is. -/
theorem isName_wrapperName (t : Template) {f : Signature} (h : IsName f.name) :
    IsName (t.wrapperName f) := by
  have hlead : ∀ c ∈ t.name ++ "_C_".toList, isWord c = true := by
    cases t <;> exact List.all_eq_true.mp rfl
  refine ⟨by simp [Template.wrapperName], fun c hc => ?_⟩
  exact (List.mem_append.mp hc).elim (hlead c) (h.2 c)

/-- What a wrapper passes on stands on one line. -/
theorem newline_not_mem_forwarded (t : Template) {f : Signature} (h : f.Printable) :
    '\n' ∉ List.intercalate ", ".toList (t.forwarded f) := by
  have hnames : ∀ name ∈ (f.args.drop 1).map Argument.name, '\n' ∉ name := by
    intro name hmem
    obtain ⟨arg, harg, rfl⟩ := List.mem_map.mp hmem
    exact (h.newline_not_mem arg (List.mem_of_mem_drop harg)).1
  have hall : ∀ name ∈ t.forwarded f, '\n' ∉ name := by
    cases t with
    | base => exact hnames
    | stack => exact List.forall_mem_cons.mpr ⟨by decide, hnames⟩
  exact not_mem_intercalate (by decide) hall

/-- Newlines follow commas in printed parameters. -/
theorem newlinesFollow_parameters {f : Signature} (h : f.Printable) (wrapper : Text) :
    NewlinesFollow lineEnds (parameters f wrapper) := by
  refine List.IsChain.infix (newlinesFollow_intercalate (by decide) fun item hitem => ?_)
    (trim_isInfix _)
  obtain ⟨arg, harg, rfl⟩ := List.mem_map.mp hitem
  obtain ⟨hname, htype⟩ := h.newline_not_mem arg harg
  have hindent : '\n' ∉ indent wrapper := by simp [indent, List.mem_replicate]
  have hpad : '\n' ∉ padType arg.type := by
    unfold padType
    split <;> simp [htype]
  simp [hindent, hpad, hname]

/-- A printed wrapper is its heading and then lines with other ends. -/
theorem exists_wrapper_eq_heading (t : Template) {f : Signature} (h : f.Printable) :
    ∃ body, t.wrapper f = headingMark ++ body ∧ Continues lineEnds body ∧ body.EndsLine := by
  have hname := h.isName.not_mem (c := '\n') rfl
  have hwrapper := (isName_wrapperName t h.isName).not_mem (c := '\n') rfl
  have hlower : '\n' ∉ t.lowerTable := by cases t <;> decide
  have hparameters : Continues lineEnds (parameters f (t.wrapperName f)) :=
    ⟨newlinesFollow_parameters h _, fun hhead => absurd (not_isBlank_head_trim hhead) (by decide)⟩
  have hforwarded := newline_not_mem_forwarded t h
  have hhead : Continues lineEnds (t.wrapperName f ++ " (".toList ++
      parameters f (t.wrapperName f) ++ ")\n".toList ++ "\x7b\n".toList) :=
    ((((continues_of_not_mem hwrapper).append (by decide)).append hparameters).append
      (by decide)).append (by decide)
  have hbody := (((hhead.append (t := "\tp11_virtual *virt = (p11_virtual *)self;\n".toList)
    (by decide +kernel)).append (t := "\t".toList) (by decide)).append
    (continues_of_not_mem hlower)).append (t := " *funcs = virt->lower_module;\n".toList)
    (by decide +kernel)
  have hcall := (((hbody.append (t := "\treturn funcs->C_".toList)
    (by decide +kernel)).append (continues_of_not_mem hname)).append (t := " (".toList)
    (by decide)).append (continues_of_not_mem hforwarded)
  have hall := (hcall.append (t := ");\n".toList) (by decide)).append
    (t := "\x7d\n".toList) (by decide)
  have hend : ∀ s : Text, EndsLine (s ++ "\x7d\n".toList) := fun s =>
    .inr (endsWith_iff.mpr ⟨s ++ ['\x7d'], (List.append_assoc s ['\x7d'] ['\n']).symm⟩)
  refine ⟨_, ?_, hall, hend _⟩
  unfold Template.wrapper headingMark
  simp only [List.append_assoc]

/-- The printed wrappers are lines, and newlines follow few characters in them. -/
theorem newlinesFollow_wrappers (config : Config) {functions : List Signature}
    (h : ∀ f ∈ functions, f.Printable) :
    NewlinesFollow ('V' :: lineEnds) (config.wrappers functions) ∧
      (config.wrappers functions).EndsLine := by
  apply newlinesFollow_intercalate_newline (by decide)
  intro t ht
  obtain ⟨f, hf, rfl⟩ := List.mem_map.mp ht
  obtain ⟨body, hwrapper, ⟨hbody, hhead⟩, hend⟩ :=
    exists_wrapper_eq_heading config.template (h f (List.mem_filter.mp hf).1)
  rw [hwrapper]
  have hheading : NewlinesFollow ('V' :: lineEnds) headingMark := by decide
  exact ⟨hheading.followedBy ⟨hbody.mono (List.subset_cons_self ..), hhead⟩,
    EndsLine.append (by decide) hend⟩

/-- The entries of the table in printed code. -/
def tableEntries? (code : Text) : Option (List Text) := do
  let rest ← afterFirst? versionMark code
  let body ← beforeLast? "\n\x7d;".toList rest
  return (body.splitItems.map Text.trim).filter (· ≠ [])

/-- The entry of a function that has a name is a word. -/
theorem isName_entry (config : Config) {f : Signature} (h : IsName f.name) :
    IsName (config.entry f) := by
  rw [Config.entry]
  split
  · exact ⟨by decide, List.all_eq_true.mp rfl⟩
  · exact isName_wrapperName config.template h

/-- The lines that open a table, up to the mark of the version. -/
def Template.opening (t : Template) : Text :=
  "\n\n".toList ++ "CK_X_FUNCTION_LIST ".toList ++ t.table ++ " = \x7b\n".toList ++
    "\t\x7b CRYPTOKI_VERSION_MAJOR, CRYPTOKI_VERSION_MINOR \x7d,  ".toList

/-- Newlines follow few characters where a table is opened. -/
theorem newlinesFollow_opening (t : Template) : NewlinesFollow lineEnds t.opening := by
  cases t <;> decide +kernel

/-- What stands between the marks of a printed table is its initializer. -/
theorem code_eq (config : Config) (functions : List Signature) : config.code functions =
    (config.wrappers functions ++ config.template.opening) ++
      (versionMark ++ (config.initializer functions ++ "\n\x7d;\n".toList)) := by
  have hline :
      "\t\x7b CRYPTOKI_VERSION_MAJOR, CRYPTOKI_VERSION_MINOR \x7d,  /* version */\n".toList =
        "\t\x7b CRYPTOKI_VERSION_MAJOR, CRYPTOKI_VERSION_MINOR \x7d,  ".toList ++
          versionMark := by
    decide +kernel
  have hclosing : "\n\x7d;\n".toList = "\n".toList ++ "\x7d;\n".toList := by decide
  rw [Config.code, hline, hclosing, Template.opening]
  simp only [List.append_assoc]

/-- Newlines follow few characters before the mark of the version. -/
theorem newlinesFollow_front (config : Config) {functions : List Signature}
    (h : ∀ f ∈ functions, f.Printable) : NewlinesFollow ('V' :: lineEnds)
      (config.wrappers functions ++ config.template.opening) := by
  obtain ⟨hwrappers, hend⟩ := newlinesFollow_wrappers config h
  refine hwrappers.append ((newlinesFollow_opening _).mono (List.subset_cons_self ..))
    (.inl fun c hc => ?_)
  rw [hend.eq_newline c hc]
  decide

/-- The items of an initializer are its entries, behind a tab each. -/
theorem splitItems_initializer (config : Config) {functions : List Signature}
    (h : ∀ f ∈ functions, f.Printable) (hne : functions ≠ []) :
    (config.initializer functions).splitItems.map Text.trim = functions.map config.entry := by
  have hname : ∀ f ∈ functions, IsName (config.entry f) := fun f hf =>
    isName_entry config (h f hf).isName
  have hcomma : ∀ item ∈ functions.map fun f => '\t' :: config.entry f, ',' ∉ item := by
    intro item hitem
    obtain ⟨f, hf, rfl⟩ := List.mem_map.mp hitem
    exact List.not_mem_cons_of_ne_of_not_mem (by decide) ((hname f hf).not_mem rfl)
  rw [Config.initializer, splitItems_intercalate (by simpa using hne) hcomma, List.map_map]
  apply List.map_congr_left
  intro f hf
  have htab : Text.trimStart (['\t'] ++ config.entry f) = (config.entry f).trimStart :=
    trimStart_append (List.forall_mem_singleton.mpr rfl)
  have hself := trim_eq_self fun c hc => isBlank_of_isWord ((hname f hf).2 c hc)
  exact (congrArg Text.trimEnd htab).trans hself

/-- The entries are read back from printed code as they were written. -/
theorem tableEntries?_code (config : Config) {functions : List Signature}
    (h : ∀ f ∈ functions, f.Printable) :
    tableEntries? (config.code functions) = some (functions.map config.entry) := by
  rw [tableEntries?, code_eq, afterFirst?_versionMark (newlinesFollow_front config h) (by decide)]
  simp only [Option.bind_eq_bind, Option.bind_some, beforeLast?_closing]
  have hkept : (functions.map config.entry).filter (· ≠ []) = functions.map config.entry := by
    apply List.filter_eq_self.mpr
    intro entry hentry
    obtain ⟨f, hf, rfl⟩ := List.mem_map.mp hentry
    exact decide_eq_true (isName_entry config (h f hf).isName).1
  cases functions with
  | nil => rfl
  | cons f functions =>
    rw [splitItems_initializer config h (List.cons_ne_nil f functions), hkept]
    rfl

end DispatchTable
