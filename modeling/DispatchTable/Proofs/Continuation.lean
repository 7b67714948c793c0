import DispatchTable.Proofs.Interface
import DispatchTable.Proofs.Items
import DispatchTable.Proofs.Text

/-!
# Headers that go on

A header may be cut behind any of its lines. What the lines before the cut complete is completed by
the whole header too, in front of all else, so neither a statement nor a slot is lost or changed by
what follows. If the cut stands outside of all items, what follows is read as if it were a header of
its own: its statements are added, and its slots as far as they are new. Lines that open nothing can
stand at such a place without effect.
-/

namespace DispatchTable

private theorem eraseDups_filter (keep : Text → Bool) (names : List Text) :
    (names.filter keep).eraseDups = names.eraseDups.filter keep := by
  induction hlength : names.length using Nat.strongRecOn generalizing names with
  | ind length ih =>
    cases names with
    | nil => rfl
    | cons name names =>
      have hless : (names.filter fun x => !x == name).length < length := by
        have hle := List.length_filter_le (fun x => !x == name) names
        rw [List.length_cons] at hlength
        omega
      have hrest := ih _ hless _ rfl
      rw [List.filter_filter] at hrest
      rw [List.eraseDups_cons, List.filter_cons, List.filter_cons]
      cases hkeep : keep name with
      | true =>
        rw [if_pos rfl, if_pos rfl, List.eraseDups_cons, List.filter_filter, ← hrest]
        simp only [Bool.and_comm]
      | false =>
        have hnames : names.filter (fun x => keep x && !x == name) = names.filter keep := by
          apply List.filter_congr
          intro x _
          by_cases hx : x = name <;> simp [hx, hkeep]
        rw [if_neg nofun, if_neg nofun, ← hrest, hnames]

/-- With more names, a layout has the slots it had and then the new ones. -/
theorem Layout.names_ofList_append (names more : List Text) :
    (ofList (names ++ more)).names =
      (ofList names).names ++ (ofList more).names.filter (· ∉ (ofList names).names) := by
  rw [ofList, insertAll, List.foldl_append, ← insertAll, ← insertAll, names_insertAll, ← ofList,
    eraseDups_filter, names_ofList more]

namespace Outline

/-- The outline of more entries has the statements of both parts, and the slots of the first and
then the new ones of the second. -/
theorem ofEntries_append (entries more : List Entry) :
    (ofEntries (entries ++ more)).statements =
        (ofEntries entries).statements ++ (ofEntries more).statements ∧
      (ofEntries (entries ++ more)).layout.names = (ofEntries entries).layout.names ++
        (ofEntries more).layout.names.filter (· ∉ (ofEntries entries).layout.names) := by
  constructor
  · exact List.filterMap_append
  · rw [ofEntries, List.filterMap_append (f := Entry.member?)]
    exact Layout.names_ofList_append _ _

end Outline

namespace Dialect

variable {d : Dialect} {before : Text}

/-- What a header completes up to a cut is completed by the whole header first. -/
theorem outline_isPrefix (h : before.EndsLine) (after : Text) :
    (d.outline before).statements <+: (d.outline (before ++ after)).statements ∧
      (d.outline before).layout.names <+: (d.outline (before ++ after)).layout.names := by
  obtain ⟨hstatements, hnames⟩ := Outline.ofEntries_append (d.readAll .outside before.lines).2
    (d.readAll (d.readAll .outside before.lines).1 after.lines).2
  rw [outline, outline, h.lines_append, readAll_append, hstatements, hnames]
  exact ⟨List.prefix_append _ _, List.prefix_append _ _⟩

variable {lines others more : List Text}

/-- Behind lines that end outside of all items, the others are read by themselves. -/
theorem readAll_append_of_outside (h : (d.readAll .outside lines).1 = .outside)
    (more : List Text) :
    d.readAll .outside (lines ++ more) =
      ((d.readAll .outside more).1,
        (d.readAll .outside lines).2 ++ (d.readAll .outside more).2) := by
  simp only [readAll_append, h]

/-- Behind a cut outside of all items, the outline of the rest is added. -/
theorem outline_append (h : before.EndsLine)
    (houtside : (d.readAll .outside before.lines).1 = .outside) (after : Text) :
    (d.outline (before ++ after)).statements =
        (d.outline before).statements ++ (d.outline after).statements ∧
      (d.outline (before ++ after)).layout.names = (d.outline before).layout.names ++
        (d.outline after).layout.names.filter (· ∉ (d.outline before).layout.names) := by
  rw [outline, h.lines_append, readAll_append_of_outside houtside]
  exact Outline.ofEntries_append _ _

/-- Lines that open nothing complete nothing. -/
theorem readAll_of_others (h : ∀ line ∈ others, line.startsWith d.statementLead = false ∧
      (line.startsWith d.blockLead = true → line.trimEnd.endsWith ';' = true)) :
    d.readAll .outside others = (.outside, []) := by
  induction others with
  | nil => rfl
  | cons line others ih =>
    obtain ⟨⟨hstatement, hblock⟩, hothers⟩ := List.forall_mem_cons.mp h
    have hline : d.readAll .outside [line] = (.outside, []) :=
      readAll_item (HeaderItem.Fits.other hstatement hblock)
    rw [← List.singleton_append, readAll_append_of_outside (by rw [hline]), hline, ih hothers]
    rfl

/-- Outside of all items, lines that open nothing can be left out. -/
theorem readAll_leaveOut (houtside : (d.readAll .outside lines).1 = .outside)
    (h : ∀ line ∈ others, line.startsWith d.statementLead = false ∧
      (line.startsWith d.blockLead = true → line.trimEnd.endsWith ';' = true)) :
    d.readAll .outside (lines ++ (others ++ more)) = d.readAll .outside (lines ++ more) := by
  have hothers := readAll_of_others h
  have hmore : d.readAll .outside (others ++ more) = d.readAll .outside more := by
    rw [readAll_append_of_outside (by rw [hothers]), hothers, List.nil_append]
  rw [readAll_append_of_outside houtside, readAll_append_of_outside houtside, hmore]

end Dialect

namespace Outline

/-- What a header says up to the end of a line, the whole header says first. If the line ends
outside of all items, the whole header says what both parts say, where a slot that both have keeps
its first place; and lines that open nothing, such as those with neither lead, may be put in there
or left out, and nothing that is read or reported changes. -/
theorem ofContent_append (d : Dialect) :
    (∀ before after : Text, before.EndsLine →
      ∃ first rest whole, (ofContent d (.ok before.bytes)).result = .ok first ∧
        (ofContent d (.ok after.bytes)).result = .ok rest ∧
        (ofContent d (.ok (Text.bytes (before ++ after)))).result = .ok whole ∧
        first.statements <+: whole.statements ∧ first.layout.names <+: whole.layout.names ∧
        ((d.readAll .outside before.lines).1 = .outside →
          whole.statements = first.statements ++ rest.statements ∧
          whole.layout.names =
            first.layout.names ++ rest.layout.names.filter (· ∉ first.layout.names))) ∧
    ∀ (header header' : Text) (lines others more : List Text),
      header.lines = lines ++ more → header'.lines = lines ++ (others ++ more) →
      (d.readAll .outside lines).1 = .outside →
      (∀ line ∈ others, line.startsWith d.statementLead = false ∧
        (line.startsWith d.blockLead = true → line.trimEnd.endsWith ';' = true)) →
      ofContent d (.ok header'.bytes) = ofContent d (.ok header.bytes) := by
  constructor
  · intro before after hbefore
    obtain ⟨hstatements, hnames⟩ := d.outline_isPrefix hbefore after
    exact ⟨_, _, _, ofContent_bytes d before, ofContent_bytes d after, ofContent_bytes d _,
      hstatements, hnames, fun houtside => Dialect.outline_append hbefore houtside after⟩
  · intro header header' lines others more hlines hlines' houtside hothers
    simp only [ofContent, Content.lines_bytes, hlines, hlines',
      Dialect.readAll_leaveOut houtside hothers]

/-- The front of a header, up to the end of a line outside of all items. -/
def frontPart : Text :=
  "struct _CK_X_FUNCTION_LIST \x7b
 CK_X_B B;
 CK_X_A A;
\x7d;
typedef CK_RV (* CK_X_A) (S *);
".toList

/-- A comment and a forward declaration, which open nothing. -/
def betweenParts : Text := "/* CK_X */\nstruct _CK_X_FUNCTION_LIST;\n".toList

/-- The rest of the header. -/
def restPart : Text :=
  "typedef CK_RV (* CK_X_B) (S *);
struct _CK_X_FUNCTION_LIST \x7b
 CK_X_A A;
 CK_X_C C;
\x7d;".toList

/-- The slot that both parts have keeps its place, and what opens nothing changes nothing between
the parts. -/
theorem ofContent_append_frontPart :
    frontPart.EndsLine ∧ (Dialect.extended.readAll .outside frontPart.lines).1 = .outside ∧
      (∃ whole, (ofContent .extended (.ok (Text.bytes (frontPart ++ restPart)))).result =
          .ok whole ∧
        whole.statements = ["typedef CK_RV (* CK_X_A) (S *);".toList,
          "typedef CK_RV (* CK_X_B) (S *);".toList] ∧
        whole.layout.names = [['B'], ['A'], ['C']]) ∧
      ofContent .extended (.ok (Text.bytes (frontPart ++ (betweenParts ++ restPart)))) =
        ofContent .extended (.ok (Text.bytes (frontPart ++ restPart))) := by
  have hfront : frontPart.EndsLine := by decide +kernel
  have houtside : (Dialect.extended.readAll .outside frontPart.lines).1 = .outside := by
    decide +kernel
  have hothers : betweenParts.EndsLine := by decide +kernel
  obtain ⟨happend, hinsert⟩ := ofContent_append .extended
  refine ⟨hfront, houtside, ?_, ?_⟩
  · obtain ⟨first, rest, whole, hfirst, hrest, hwhole, _, _, houtline⟩ :=
      happend frontPart restPart hfront
    obtain ⟨hstatements, hnames⟩ := houtline houtside
    obtain rfl := Except.ok.inj ((ofContent_bytes _ _).symm.trans hfirst)
    obtain rfl := Except.ok.inj ((ofContent_bytes _ _).symm.trans hrest)
    refine ⟨whole, hwhole, hstatements.trans ?_, hnames.trans ?_⟩ <;> decide +kernel
  · refine hinsert _ _ _ betweenParts.lines _ (hfront.lines_append restPart) ?_ houtside ?_
    · rw [hfront.lines_append, hothers.lines_append]
    · decide +kernel

end Outline

end DispatchTable
