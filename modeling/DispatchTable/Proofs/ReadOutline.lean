import DispatchTable.Proofs.Members
import DispatchTable.Proofs.ReadDeclaration
import DispatchTable.Proofs.Sequence

/-!
# Reading a printed outline

The lines of a printed header are read back to the declarations, each on one line, and to the slots
of the layout blocks. A declaration is joined as it was before it was wrapped, since the blanks at
both ends of its lines are trimmed and one space is put between them.
-/

namespace DispatchTable

namespace Text

variable {s t lead : Text}

/-- A closed line keeps all that stands before a character that is no blank, and the character. -/
theorem closeLine_append {c : Char} (hc : isBlank c = false) (rest : Text) :
    ∃ kept, closeLine (s ++ c :: rest).reverse = s ++ c :: kept ∧ kept <+: rest := by
  obtain ⟨ending, hending, hblank⟩ := closeLine_reverse_append (s ++ c :: rest)
  rcases append_eq_append_cons_iff.mp hending with ⟨piece, _, hpiece⟩ | ⟨piece, hpiece, rfl⟩
  · have hmem := hblank c (by simp [hpiece])
    rw [hc] at hmem
    exact absurd hmem nofun
  · exact ⟨piece, hpiece, List.prefix_append piece ending⟩

/-- What a text begins with behind its blanks stays there when the text grows. -/
theorem startsWith_trimStart_append (hlead : lead ≠ []) (h : s.trimStart.startsWith lead = true) :
    (s ++ t).trimStart.startsWith lead = true := by
  have hne : s.trimStart ≠ [] := by
    obtain ⟨rest, hrest⟩ := startsWith_iff.mp h
    rw [hrest]
    exact List.append_ne_nil_of_left_ne_nil hlead rest
  rw [trimStart_append_of_ne_nil hne]
  exact startsWith_append h

end Text

namespace Dialect

open Pattern Text

variable {d : Dialect}

/-- What is read from a line and the lines after it. -/
theorem readAll_line {line : Text} (hline : '\n' ∉ line) (place : Place) (text : Text) :
    d.readAll place (lines (line ++ '\n' :: text)) =
      let first := d.read place (closeLine line.reverse)
      let others := d.readAll first.1 text.lines
      (others.1, first.2 ++ others.2) := by
  rw [lines_append_newline hline, readAll]

/-- Whether a text can be joined again after it was wrapped: no two blanks follow a comma. -/
def Joinable (s : Text) : Prop :=
  ∀ s', ',' :: ' ' :: s' <:+ s → ∃ c ∈ s'.head?, isBlank c = false

/-- A text without commas in front changes nothing. -/
theorem Joinable.append {s t : Text} (hs : ',' ∉ s) (ht : Joinable t) : Joinable (s ++ t) := by
  induction s with
  | nil => exact ht
  | cons c s ih =>
    intro s' hs'
    rw [List.cons_append, List.suffix_cons_iff, List.cons.injEq] at hs'
    rcases hs' with ⟨rfl, _⟩ | hs'
    · exact absurd List.mem_cons_self hs
    · exact ih (fun hmem => hs (List.mem_cons_of_mem c hmem)) s' hs'

/-- A comma and a space in front need something that is no blank behind them. -/
theorem Joinable.separator {s : Text} (hs : Joinable s) (h : ∃ c ∈ s.head?, isBlank c = false) :
    Joinable (',' :: ' ' :: s) := by
  intro s' hs'
  rw [List.suffix_cons_iff] at hs'
  rcases hs' with hs' | hs'
  · rw [List.cons.injEq, List.cons.injEq] at hs'
    rwa [hs'.2.2]
  · rw [List.suffix_cons_iff, List.cons.injEq] at hs'
    rcases hs' with ⟨hc, _⟩ | hs'
    · exact absurd hc (by decide)
    · exact hs s' hs'

/-- A text without commas can be joined again. -/
theorem joinable_of_not_mem {s : Text} (hs : ',' ∉ s) : Joinable s := fun _ hs' =>
  absurd (hs'.subset List.mem_cons_self) hs

section Wrapped

variable {place : Place} {joined begun : Text}

private theorem readAll_last
    (hread : ∀ line : Text, begun <+: line →
      d.read place line = closeStatement (joined ++ line.trim))
    (hbegun : '\n' ∉ begun) (hend : begun.endsWith ';' = true) (text : Text) :
    d.readAll place (lines (begun ++ '\n' :: text)) =
      let others := d.readAll .outside text.lines
      (others.1, .statement (joined ++ begun.trimStart) :: others.2) := by
  obtain ⟨front, hfront⟩ := endsWith_iff.mp hend
  have hclose : closeLine begun.reverse = begun := by
    rw [hfront, List.reverse_append]
    exact List.reverse_cons.trans (congrArg (· ++ [';']) front.reverse_reverse)
  have htrim : begun.trim = begun.trimStart := by
    rw [trim, hfront, trimStart_append_cons (by decide), trimEnd_concat (by decide)]
  have hwhole : (joined ++ begun.trimStart).endsWith ';' = true := by
    rw [hfront, trimStart_append_cons (by decide), ← List.append_assoc]
    exact endsWith_iff.mpr ⟨_, rfl⟩
  rw [readAll_line hbegun, hclose, hread begun (List.prefix_refl begun), htrim, closeStatement,
    if_pos hwhole]
  rfl

private theorem readAll_broken {before : Text}
    (hread : ∀ line : Text, begun <+: line →
      d.read place line = closeStatement (joined ++ line.trim))
    (hbegun : '\n' ∉ begun) (hbefore : ∀ c ∈ before, isBlank c = true ∧ c ≠ '\n') (text : Text) :
    d.readAll place (lines (begun ++ ',' :: before ++ '\n' :: text)) =
      d.readAll (.statement (joined ++ (begun.trimStart ++ [',']))) text.lines := by
  have hline : '\n' ∉ begun ++ ',' :: before := by
    have hmem : '\n' ∉ before := fun hmem => (hbefore _ hmem).2 rfl
    simp [hbegun, hmem]
  obtain ⟨ending, hclose, hending⟩ := closeLine_append (s := begun) (c := ',') (by decide) before
  have hblank : ∀ c ∈ ending, isBlank c = true := by
    intro c hc
    exact (hbefore c (hending.subset hc)).1
  have htrim : (begun ++ ',' :: ending).trim = begun.trimStart ++ [','] := by
    rw [trim, trimStart_append_cons (by decide), List.append_cons, trimEnd_append hblank,
      trimEnd_concat (by decide)]
  have hopen : (joined ++ (begun.trimStart ++ [','])).endsWith ';' = false := by
    rw [← List.append_assoc, endsWith, List.getLast?_concat]
    rfl
  rw [readAll_line hline, hclose, hread _ (List.prefix_append begun _), htrim, closeStatement,
    if_neg (by simp [hopen])]
  rfl

/-- The rest of a wrapped statement is joined to what was read of it. -/
theorem readAll_wrapped {s t text : Text} (h : Wrapped s t)
    (hread : ∀ line : Text, begun <+: line →
      d.read place line = closeStatement (joined ++ line.trim))
    (hbegun : '\n' ∉ begun) (hs : '\n' ∉ s) (hjoinable : Joinable s)
    (hend : (begun ++ s).endsWith ';' = true) :
    d.readAll place (lines (begun ++ t ++ '\n' :: text)) =
      let others := d.readAll .outside text.lines
      (others.1, .statement (joined ++ (begun ++ s).trimStart) :: others.2) := by
  induction h generalizing place joined begun with
  | nil =>
    rw [List.append_nil] at hend ⊢
    exact readAll_last hread hbegun hend text
  | @keep c s t h ih =>
    have hc : c ≠ '\n' := fun he => hs (he ▸ List.mem_cons_self)
    have hmore : begun ++ c :: t = begun ++ [c] ++ t := by simp
    have hmore' : begun ++ c :: s = begun ++ [c] ++ s := by simp
    rw [hmore, hmore']
    apply ih
    · intro line hline
      exact hread line ((List.prefix_append begun [c]).trans hline)
    · simp [hbegun, hc.symm]
    · exact fun hmem => hs (List.mem_cons_of_mem c hmem)
    · exact fun s' hs' => hjoinable s' (hs'.trans (List.suffix_cons c s))
    · rwa [← hmore']
  | @wrap s t before after hbefore hafter h ih =>
    have hsplit : begun ++ (',' :: before ++ '\n' :: (after ++ t)) ++ '\n' :: text =
        begun ++ ',' :: before ++ '\n' :: (after ++ t ++ '\n' :: text) := by simp
    have hread' : ∀ line : Text, after <+: line →
        d.read (.statement (joined ++ (begun.trimStart ++ [',']))) line =
          closeStatement (joined ++ (begun.trimStart ++ [',']) ++ [' '] ++ line.trim) :=
      fun _ _ => rfl
    have hafter' : '\n' ∉ after := fun hmem => (hafter _ hmem).2 rfl
    have hs' : '\n' ∉ s := fun hmem => hs (List.mem_cons_of_mem _ (List.mem_cons_of_mem _ hmem))
    have hjoinable' : Joinable s := by
      intro s' hs'
      exact hjoinable s' (hs'.trans (List.suffix_append [',', ' '] s))
    obtain ⟨c, hc, hblank⟩ := hjoinable s List.suffix_rfl
    obtain ⟨s, rfl⟩ : ∃ s', s = c :: s' := List.head?_eq_some_iff.mp hc
    have hend' : (after ++ c :: s).endsWith ';' = true := by
      rw [endsWith, List.getLast?_append_of_ne_nil _ (List.cons_ne_nil c s)]
      rwa [endsWith, List.append_cons, List.append_cons,
        List.getLast?_append_of_ne_nil _ (List.cons_ne_nil c s)] at hend
    have hstart : (after ++ c :: s).trimStart = c :: s := by
      rw [trimStart_append fun c hc => (hafter c hc).1, trimStart_cons hblank]
    rw [hsplit, readAll_broken hread hbegun hbefore,
      ih hread' hafter' hs' hjoinable' hend', hstart, trimStart_append_cons (by decide)]
    simp only [List.append_assoc, List.cons_append, List.nil_append]

end Wrapped

/-- What stands before the first comma is not wrapped. -/
theorem exists_of_wrapped_append {front s t : Text} (hfront : ',' ∉ front)
    (h : Wrapped (front ++ s) t) : ∃ t', t = front ++ t' ∧ Wrapped s t' := by
  induction front generalizing t with
  | nil => exact ⟨t, rfl, h⟩
  | cons c front ih =>
    rw [List.cons_append] at h
    generalize hs : front ++ s = rest at h
    cases h with
    | keep _ h =>
      obtain ⟨t', rfl, h'⟩ := ih (fun hmem => hfront (List.mem_cons_of_mem c hmem)) (hs ▸ h)
      exact ⟨t', rfl, h'⟩
    | wrap _ _ _ => exact absurd List.mem_cons_self hfront

private theorem joinable_flatMap {items : List Text} {close : Text} (hclose : ',' ∉ close)
    (hitems : ∀ item ∈ items, ∃ arg, PrintedArgument d arg item) :
    Joinable (items.flatMap (", ".toList ++ ·) ++ close) := by
  induction items with
  | nil => exact joinable_of_not_mem hclose
  | cons item items ih =>
    obtain ⟨⟨arg, harg⟩, hitems⟩ := List.forall_mem_cons.mp hitems
    obtain ⟨c, hc, hblank⟩ := harg.not_isBlank_head
    have hrest := Joinable.append (fun hmem => (harg.no_mark _ hmem).1 rfl) (ih hitems)
    rw [List.flatMap_cons, List.append_assoc, List.append_assoc]
    exact hrest.separator ⟨c, List.mem_head?_append_of_mem_head? hc, hblank⟩

private theorem joinable_of_printed {args : List Argument} {text close : Text}
    (hclose : ',' ∉ close) (h : PrintedArguments d args text) : Joinable (text ++ close) := by
  cases h with
  | void => exact Joinable.append (by decide) (joinable_of_not_mem hclose)
  | items hne h =>
    have hitems := PrintedArgument.exists_of_mem_items h
    cases h with
    | nil => exact absurd rfl hne
    | @cons arg item args items harg _ =>
      rw [intercalate_eq_flatMap, List.append_assoc]
      exact Joinable.append (fun hmem => (harg.no_mark _ hmem).1 rfl)
        (joinable_flatMap hclose (List.forall_mem_cons.mp hitems).2)

private theorem declare_eq {f : Signature} {arguments : Text} (hname : IsName f.name)
    (hargs : PrintedArguments d f.args arguments) :
    ∃ rest, d.declare f.name arguments = d.statementLead ++ rest ∧ '\n' ∉ rest ∧ Joinable rest ∧
      rest.endsWith ';' = true := by
  have hcomma : ',' ∉ f.name := hname.not_mem rfl
  have hline : '\n' ∉ f.name := hname.not_mem rfl
  have harguments : '\n' ∉ arguments := fun hmem =>
    absurd (inLine_of_printed hargs _ hmem) (by decide)
  cases d with
  | plain =>
    refine ⟨" (C_".toList ++ (f.name ++ (", (".toList ++ (arguments ++ "));".toList))), ?_, ?_, ?_,
      ?_⟩
    · simp only [declare, List.append_assoc]
    · simp only [List.mem_append, not_or]
      exact ⟨by decide, hline, by decide, harguments, by decide⟩
    · have hbody : Joinable (['('] ++ (arguments ++ "));".toList)) :=
        Joinable.append (by decide) (joinable_of_printed (by decide) hargs)
      exact Joinable.append (by decide) (Joinable.append hcomma
        (hbody.separator ⟨'(', rfl, by decide⟩))
    · rw [← List.append_assoc, ← List.append_assoc, ← List.append_assoc, endsWith,
        List.getLast?_append_of_ne_nil _ (by decide)]
      rfl
  | extended =>
    refine ⟨f.name ++ (") (".toList ++ (arguments ++ ");".toList)), ?_, ?_, ?_, ?_⟩
    · simp only [declare, List.append_assoc]
    · simp only [List.mem_append, not_or]
      exact ⟨hline, by decide, harguments, by decide⟩
    · exact Joinable.append hcomma (Joinable.append (by decide)
        (joinable_of_printed (by decide) hargs))
    · rw [← List.append_assoc, ← List.append_assoc, endsWith,
        List.getLast?_append_of_ne_nil _ (by decide)]
      rfl

/-- A wrapped declaration is read as the whole declaration on one line. -/
theorem readAll_declaration {f : Signature} {arguments statement : Text} (hname : IsName f.name)
    (hargs : PrintedArguments d f.args arguments)
    (hwrapped : Wrapped (d.declare f.name arguments) statement) (text : Text) :
    d.readAll .outside (lines (statement ++ '\n' :: text)) =
      let others := d.readAll .outside text.lines
      (others.1, .statement (d.declare f.name arguments) :: others.2) := by
  obtain ⟨rest, hdeclare, hline, hjoinable, hend⟩ := declare_eq hname hargs
  rw [hdeclare] at hwrapped ⊢
  have hlead : ',' ∉ d.statementLead ∧ '\n' ∉ d.statementLead := by cases d <;> decide
  have hstart : (d.statementLead ++ rest).trimStart = d.statementLead ++ rest := by
    cases d <;> exact trimStart_cons rfl
  obtain ⟨continued, rfl, hcontinued⟩ := exists_of_wrapped_append hlead.1 hwrapped
  have hread : ∀ line : Text, d.statementLead <+: line →
      d.read .outside line = closeStatement ([] ++ line.trim) := by
    rintro _ ⟨line, rfl⟩
    have hstarts : (d.statementLead ++ line).startsWith d.statementLead = true :=
      startsWith_iff.mpr ⟨line, rfl⟩
    rw [read, if_pos hstarts, List.nil_append]
  have hend' : (d.statementLead ++ rest).endsWith ';' = true := by
    obtain ⟨front, rfl⟩ := endsWith_iff.mp hend
    exact endsWith_iff.mpr ⟨d.statementLead ++ front, (List.append_assoc ..).symm⟩
  rw [readAll_wrapped hcontinued hread hlead.2 hline hjoinable hend', hstart, List.nil_append]

private theorem newline_not_mem_member (d : Dialect) {name rest : Text} (hname : IsName name)
    (hline : '\n' ∉ rest) : '\n' ∉ "  ".toList ++ d.memberLead ++ name ++ ' ' :: rest := by
  have hspaces : '\n' ∉ "  ".toList ++ d.memberLead := by cases d <;> decide
  have hrest : '\n' ∉ ' ' :: rest := by
    rw [List.mem_cons, not_or]
    exact ⟨by decide, hline⟩
  rw [List.mem_append, List.mem_append, not_or, not_or]
  exact ⟨⟨hspaces, hname.not_mem rfl⟩, hrest⟩

/-- The name of a printed member is read. -/
theorem memberName?_member (d : Dialect) {name rest : Text} (hname : IsName name)
    (hline : '\n' ∉ rest) (hmark : ';' ∈ rest) :
    d.memberName? ("  ".toList ++ d.memberLead ++ name ++ ' ' :: rest) = some name := by
  have hmember : d.IsMember ("  ".toList ++ d.memberLead ++ name ++ ' ' :: rest) name :=
    .intro (List.all_eq_true.mp rfl) hname.1 (fun c hc => isBlank_of_isWord (hname.2 c hc)) rfl
      hmark
  exact hmember.memberName?_eq (newline_not_mem_member d hname hline)

private theorem readAll_member {name rest : Text} (hname : IsName name) (hline : '\n' ∉ rest)
    (hmark : ';' ∈ rest) (text : Text) :
    d.readAll .block
        (lines ("  ".toList ++ d.memberLead ++ name ++ ' ' :: rest ++ '\n' :: text)) =
      let others := d.readAll .block text.lines
      (others.1, .member name :: others.2) := by
  obtain ⟨value, more, rfl⟩ := List.append_of_mem hmark
  let front : Text := "  ".toList ++ d.memberLead ++ name ++ ' ' :: value
  have hfront : front ++ ';' :: more =
      "  ".toList ++ d.memberLead ++ name ++ ' ' :: (value ++ ';' :: more) := by
    simp only [front, List.append_assoc, List.cons_append]
  have hfrontLine : '\n' ∉ front ++ ';' :: more := hfront ▸ newline_not_mem_member d hname hline
  obtain ⟨ending, hclosed, hending⟩ := closeLine_append (s := front) (c := ';') (by decide) more
  have hread : d.memberName? (front ++ ';' :: ending) = some name := by
    have hrest : '\n' ∉ value ++ ';' :: ending := fun hmem => hline <| by
      rw [List.mem_append, List.mem_cons] at hmem ⊢
      exact hmem.imp_right (·.imp_right fun h => hending.subset h)
    have hread := memberName?_member d hname hrest (by simp)
    rwa [← List.cons_append, ← List.append_assoc] at hread
  have hopen : (trimStart (front ++ ';' :: ending)).startsWith ['\x7d'] = false := by
    cases d <;> rfl
  rw [← hfront, readAll_line hfrontLine, hclosed, read, if_neg (by simp [hopen]), hread]
  rfl

private theorem readAll_other {line : Text} (hline : '\n' ∉ line)
    (hclose : line.trimStart.startsWith ['\x7d'] = false)
    (hmember : line.trimStart.startsWith d.memberLead = false) (text : Text) :
    d.readAll .block (lines (line ++ '\n' :: text)) = d.readAll .block text.lines := by
  obtain ⟨ending, hending, _⟩ := closeLine_reverse_append line
  have hshort : ∀ lead : Text, lead ≠ [] → line.trimStart.startsWith lead = false →
      (closeLine line.reverse).trimStart.startsWith lead = false := by
    intro lead hne hlead
    rw [← Bool.not_eq_true] at hlead ⊢
    intro h
    apply hlead
    rw [← hending]
    exact startsWith_trimStart_append hne h
  have hclose' := hshort _ (List.cons_ne_nil _ _) hclose
  have hmember' := hshort _ (by cases d <;> decide) hmember
  rw [readAll_line hline, read, if_neg (by simp [hclose']), memberName?_other hmember']
  rfl

/-- The names of the slots are read from a printed block, up to its closing line. -/
theorem readAll_members {names : List Text} {members : Text} (h : PrintedMembers d names members)
    (text : Text) :
    d.readAll .block (lines (members ++ "\x7d;\n".toList ++ text)) =
      let others := d.readAll .outside text.lines
      (others.1, names.map Entry.member ++ others.2) := by
  induction h with
  | nil =>
    have hline : '\n' ∉ "\x7d;".toList := by decide
    exact readAll_line hline .block text
  | @member name rest members names hname hline hmark h ih =>
    rw [List.append_assoc, List.append_assoc, List.cons_append, ← List.append_assoc members,
      readAll_member hname hline hmark, ih]
    rfl
  | @other line members names hline hclose hmember h ih =>
    rw [List.append_assoc, List.append_assoc, List.cons_append, ← List.append_assoc members,
      readAll_other hline hclose hmember, ih]

/-- A printed layout block is read as the names of its slots. -/
theorem readAll_block {names : List Text} {members : Text} (h : PrintedMembers d names members)
    (text : Text) :
    d.readAll .outside
        (lines (d.blockLead ++ " \x7b\n".toList ++ members ++ "\x7d;\n".toList ++ text)) =
      let others := d.readAll .outside text.lines
      (others.1, names.map Entry.member ++ others.2) := by
  have hopen : '\n' ∉ d.blockLead ++ " \x7b".toList ∧
      d.read .outside (closeLine (d.blockLead ++ " \x7b".toList).reverse) = (.block, []) := by
    cases d <;> decide
  have hsplit : d.blockLead ++ " \x7b\n".toList ++ members ++ "\x7d;\n".toList ++ text =
      d.blockLead ++ " \x7b".toList ++ '\n' :: (members ++ "\x7d;\n".toList ++ text) := by
    rw [List.append_assoc, List.append_assoc, List.append_assoc, List.append_assoc,
      List.append_assoc]
    rfl
  rw [hsplit, readAll_line hopen.1, hopen.2]
  exact readAll_members h text

/-- A line that opens nothing is passed. -/
theorem readAll_noise {line : Text} (h : d.IsNoise line) (text : Text) :
    d.readAll .outside (lines (line ++ '\n' :: text)) = d.readAll .outside text.lines := by
  obtain ⟨ending, hending, hblank⟩ := closeLine_reverse_append line
  have hstatement : (closeLine line.reverse).startsWith d.statementLead = false := by
    rw [← Bool.not_eq_true]
    intro hstarts
    have hline := startsWith_append (t := ending) hstarts
    rw [hending, h.no_statement] at hline
    exact absurd hline nofun
  have hread : d.read .outside (closeLine line.reverse) = (.outside, []) := by
    rw [read, if_neg (by simp [hstatement])]
    split
    · next hstarts =>
      have hline := startsWith_append (t := ending) hstarts
      rw [hending] at hline
      have hclosed := h.no_block hline
      rw [← hending, trimEnd_append hblank] at hclosed
      rw [if_pos hclosed]
    · rfl
  rw [readAll_line h.newline_not_mem, hread]
  rfl

/-- A printed header is read as its declarations and the names of its slots. -/
theorem exists_entries_of_printed {fs : List Signature} {slots : List Text} {text : Text}
    (h : PrintedHeader d fs slots text) :
    ∃ entries, d.readAll .outside text.lines = (.outside, entries) ∧
      List.Forall₂ (fun statement f => d.signature statement = .ok f)
        (entries.filterMap Entry.statement?) fs ∧
      entries.filterMap Entry.member? = slots := by
  induction h with
  | nil => exact ⟨[], rfl, .nil, rfl⟩
  | noise hline _ ih => rwa [readAll_noise hline]
  | declaration hname hargs hwrapped _ ih =>
    obtain ⟨entries, hread, hfs, hslots⟩ := ih
    rw [readAll_declaration hname hargs hwrapped, hread]
    exact ⟨_, rfl, .cons (signature_declare hname hargs) hfs, hslots⟩
  | @block fs names slots members text hmembers _ ih =>
    obtain ⟨entries, hread, hfs, hslots⟩ := ih
    have hstatements : (names.map Entry.member).filterMap Entry.statement? = [] :=
      List.filterMap_eq_nil_iff.mpr (by simp [Entry.statement?])
    have hnames : (names.map Entry.member).filterMap Entry.member? = names := by
      rw [List.filterMap_map]
      exact List.filterMap_some
    rw [readAll_block hmembers, hread]
    refine ⟨_, rfl, ?_, ?_⟩
    · rwa [List.filterMap_append, hstatements, List.nil_append]
    · rw [List.filterMap_append, hnames, hslots]

end Dialect

end DispatchTable
