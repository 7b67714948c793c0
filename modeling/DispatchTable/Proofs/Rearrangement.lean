import DispatchTable.Proofs.Outcome

/-!
# The order of declarations

A merge and a listing look at the signatures of one name at a time, so they depend on the order
among these only. Putting signatures into slot order keeps that order, so it may be done before or
after the merge. Headers whose statements stand in another order succeed together, and where no name
is declared twice they make the same interface.
-/

namespace DispatchTable

namespace Signature

variable {fs gs : List Signature}

/-- Whether two lists have the same signatures of each name, in the same order. -/
def SameByName (fs gs : List Signature) : Prop :=
  ∀ name, (fs.filter fun f => f.name = name) = gs.filter fun f => f.name = name

/-- A list of different names may be permuted. -/
theorem sameByName_of_perm (h : fs.Perm gs) (hnodup : (fs.map Signature.name).Nodup) :
    SameByName fs gs := by
  intro name
  have hperm := h.filter fun f => decide (f.name = name)
  rw [Layout.filter_name_eq hnodup] at hperm ⊢
  cases hfound : fs.find? fun f => f.name = name with
  | none =>
    rw [hfound] at hperm
    exact (List.nil_perm.mp hperm).symm
  | some f =>
    rw [hfound] at hperm
    exact List.singleton_perm.mp hperm

namespace SameByName

/-- A revision that keeps the names may be made on both sides. -/
theorem map (h : SameByName fs gs) {revise : Signature → Signature}
    (hname : ∀ f, (revise f).name = f.name) : SameByName (fs.map revise) (gs.map revise) := by
  intro name
  rw [List.filter_map, List.filter_map]
  simp only [Function.comp_def, hname, h name]

/-- The counterparts in both lists are the same. -/
theorem last?_eq (h : SameByName fs gs) (name : Text) : last? fs name = last? gs name := by
  rw [last?, last?, h name]

/-- Both lists give the same types. -/
theorem retyped_eq (h : SameByName fs gs) : retyped fs = retyped gs := by
  funext f
  rw [retyped, retyped, h.last?_eq]

/-- Both lists give the same names. -/
theorem renamed_eq (h : SameByName fs gs) : renamed fs = renamed gs := by
  funext f
  rw [renamed, renamed, h.last?_eq]

/-- Both lists have the same listing. -/
theorem listing_eq (h : SameByName fs gs) (layout : Layout) :
    layout.listing fs = layout.listing gs :=
  List.flatMap_congr fun name _ => h name

/-- Both lists have the same signatures. -/
theorem mem_iff (h : SameByName fs gs) {f : Signature} : f ∈ fs ↔ f ∈ gs := by
  have hname : ∀ hs : List Signature, f ∈ hs ↔ f ∈ hs.filter fun g => g.name = f.name := by simp
  rw [hname fs, h f.name, ← hname gs]

/-- Both lists agree with the same declarations of the other side. -/
theorem agree_iff {fs' gs' : List Signature} (h : SameByName fs gs) (h' : SameByName fs' gs') :
    Agree fs fs' ↔ Agree gs gs' := by
  simp only [Agree, h.mem_iff, h'.mem_iff]

end SameByName

/-- The listing of a layout keeps the order of the signatures of each name. -/
theorem sameByName_listing {layout : Layout} (h : ∀ f ∈ fs, f.name ∈ layout.names) :
    SameByName (layout.listing fs) fs := by
  intro name
  rw [← Layout.sort_eq_listing h, Layout.filter_sort]

end Signature

namespace Interface

open Signature

variable {plain extended : List Signature} {layout layout' : Layout}

/-- Put two lists of signatures each in the order of its layout, and merge them then. -/
def ofArranged (plain extended : List Signature) (plainLayout extendedLayout : Layout) :
    Except Failure Interface := do
  let plain ← plainLayout.arrange Dialect.plain.table plain
  let extended ← extendedLayout.arrange Dialect.extended.table extended
  let merged := merge plain extended
  match merged.failure? with
  | some e => .error e
  | none => return ⟨merged.plain, merged.extended⟩

/-- When arranged signatures can be merged, and what the merge makes of them. -/
theorem ofArranged_eq_ok_iff {i : Interface} :
    ofArranged plain extended layout layout' = .ok i ↔
      (∀ p ∈ plain, p.name ∈ layout.names) ∧ (∀ x ∈ extended, x.name ∈ layout'.names) ∧
        Agree plain extended ∧
        i = ⟨(layout.listing plain).map (retyped extended),
          (layout'.listing extended).map (renamed plain)⟩ := by
  simp only [ofArranged, bind_eq_ok_iff, Layout.arrange_eq_ok_iff]
  constructor
  · rintro ⟨_, ⟨hslots, rfl⟩, _, ⟨hslots', rfl⟩, h⟩
    have hp := sameByName_listing hslots
    have hx := sameByName_listing hslots'
    cases hfailure : (merge (layout.listing plain) (layout'.listing extended)).failure? with
    | some e => simp [hfailure] at h
    | none =>
      have hagree := merge_failure?_eq_none_iff.mp hfailure
      rw [hfailure, merge_plain hagree, merge_extended hagree, hx.retyped_eq, hp.renamed_eq] at h
      exact ⟨hslots, hslots', (hp.agree_iff hx).mp hagree, (Except.ok.inj h).symm⟩
  · rintro ⟨hslots, hslots', hagree, rfl⟩
    have hp := sameByName_listing hslots
    have hx := sameByName_listing hslots'
    have hagree' := (hp.agree_iff hx).mpr hagree
    refine ⟨_, ⟨hslots, rfl⟩, _, ⟨hslots', rfl⟩, ?_⟩
    rw [merge_failure?_eq_none_iff.mpr hagree', merge_plain hagree', merge_extended hagree',
      hx.retyped_eq, hp.renamed_eq]
    rfl

/-- Signatures may be merged before or after they are put into slot order: one way makes an
interface exactly when the other does, and it is the same. Both do exactly when every name has a
slot and all declarations of a name agree. -/
theorem ofSignatures_eq_ok_iff_ofArranged (plain extended : List Signature)
    (layout layout' : Layout) :
    (∀ i, (ofSignatures plain extended layout layout').result = .ok i ↔
      ofArranged plain extended layout layout' = .ok i) ∧
    ((∃ i, ofArranged plain extended layout layout' = .ok i) ↔
      (∀ p ∈ plain, p.name ∈ layout.names) ∧ (∀ x ∈ extended, x.name ∈ layout'.names) ∧
        Agree plain extended) := by
  simp only [ofSignatures_eq_ok_iff, ofArranged_eq_ok_iff, Layout.listing_map (retyped_name _),
    Layout.listing_map (renamed_name _)]
  constructor
  · intro i
    constructor
    · rintro ⟨hagree, hslots, hslots', hi⟩
      exact ⟨hslots, hslots', hagree, hi⟩
    · rintro ⟨hslots, hslots', hagree, hi⟩
      exact ⟨hagree, hslots, hslots', hi⟩
  · constructor
    · rintro ⟨_, hslots, hslots', hagree, _⟩
      exact ⟨hslots, hslots', hagree⟩
    · rintro ⟨hslots, hslots', hagree⟩
      exact ⟨_, hslots, hslots', hagree, rfl⟩

end Interface

/-- Whether two outlines have the same statements, in any order, and the same layout. -/
structure Outline.Reorders (o o' : Outline) : Prop where
  statements : o.statements.Perm o'.statements
  layout : o.layout = o'.layout

instance (o o' : Outline) : Decidable (o.Reorders o') :=
  decidable_of_iff (o.statements.Perm o'.statements ∧ o.layout = o'.layout)
    ⟨fun h => ⟨h.1, h.2⟩, fun h => ⟨h.1, h.2⟩⟩

/-- Outlines with the same statements have them in either direction. -/
theorem Outline.Reorders.symm {o o' : Outline} (h : o.Reorders o') : o'.Reorders o :=
  ⟨h.statements.symm, h.layout.symm⟩

namespace Dialect

variable {d : Dialect} {header header' : Text}

/-- Headers with the same statements declare the same functions. -/
theorem functions_perm (h : (d.outline header).Reorders (d.outline header')) :
    (d.functions header).Perm (d.functions header') :=
  h.statements.filterMap _

/-- Headers with the same statements are well-formed together. -/
theorem WellFormed.of_reorders (hheader : d.WellFormed header)
    (h : (d.outline header).Reorders (d.outline header')) : d.WellFormed header' :=
  fun statement hmem => hheader statement (h.statements.mem_iff.mpr hmem)

/-- Headers with the same statements and the same layout have all slots together. -/
theorem HasSlots.of_reorders (hheader : d.HasSlots header)
    (h : (d.outline header).Reorders (d.outline header')) : d.HasSlots header' := by
  intro f hf
  rw [← h.layout]
  exact hheader f ((functions_perm h).mem_iff.mpr hf)

end Dialect

namespace Interface

open Signature

variable {plain plain' extended extended' : Text}

/-- Headers with the same statements and layouts declare a table together. -/
theorem Declared.of_reorders (hdeclared : Declared plain extended)
    (hplain : (Dialect.plain.outline plain).Reorders (Dialect.plain.outline plain'))
    (hextended : (Dialect.extended.outline extended).Reorders
      (Dialect.extended.outline extended')) : Declared plain' extended' where
  wellFormed_plain := hdeclared.wellFormed_plain.of_reorders hplain
  wellFormed_extended := hdeclared.wellFormed_extended.of_reorders hextended
  agree := by
    obtain ⟨hreceiver, hagree⟩ := hdeclared.agree
    have hp := Dialect.functions_perm hplain
    have hx := Dialect.functions_perm hextended
    exact ⟨fun x hmem => hreceiver x (hx.mem_iff.mpr hmem),
      fun p hmem x hmem' => hagree p (hp.mem_iff.mpr hmem) x (hx.mem_iff.mpr hmem')⟩
  hasSlots_plain := hdeclared.hasSlots_plain.of_reorders hplain
  hasSlots_extended := hdeclared.hasSlots_extended.of_reorders hextended

/-- Headers with the same statements and layouts make an interface together, whatever the order of
the statements. If in addition no name is declared twice, they make the same interface. -/
theorem ofHeaders_reordered
    (hplain : (Dialect.plain.outline plain).Reorders (Dialect.plain.outline plain'))
    (hextended : (Dialect.extended.outline extended).Reorders
      (Dialect.extended.outline extended')) :
    ((∃ i, (ofHeaders (.ok plain.bytes) (.ok extended.bytes)).result = .ok i) ↔
      ∃ i, (ofHeaders (.ok plain'.bytes) (.ok extended'.bytes)).result = .ok i) ∧
    (((Dialect.plain.functions plain).map Signature.name).Nodup →
      ((Dialect.extended.functions extended).map Signature.name).Nodup →
      ∀ i, (ofHeaders (.ok plain.bytes) (.ok extended.bytes)).result = .ok i ↔
        (ofHeaders (.ok plain'.bytes) (.ok extended'.bytes)).result = .ok i) := by
  have hdeclared : Declared plain extended ↔ Declared plain' extended' :=
    ⟨fun h => h.of_reorders hplain hextended, fun h => h.of_reorders hplain.symm hextended.symm⟩
  simp only [ofHeaders_bytes_eq_ok_iff, hdeclared]
  refine ⟨by simp, fun hnodup hnodup' i => ?_⟩
  have hp := sameByName_of_perm (Dialect.functions_perm hplain) hnodup
  have hx := sameByName_of_perm (Dialect.functions_perm hextended) hnodup'
  rw [hx.retyped_eq, hp.renamed_eq, (hp.map (retyped_name _)).listing_eq,
    (hx.map (renamed_name _)).listing_eq, hplain.layout, hextended.layout]

/-- A plain header in pieces: two declarations in the order of their slots, and the slots. -/
def plainPieces : List Text :=
  ["_CK_DECLARE_FUNCTION (C_A, (T a));\n".toList, "_CK_DECLARE_FUNCTION (C_B, (T b));\n".toList,
    "struct ck_function_list \x7b\n CK_C_A A;\n CK_C_B B;\n\x7d;\n".toList]

/-- An extended header for the same functions in pieces. -/
def extendedPieces : List Text :=
  ["typedef CK_RV (* CK_X_A) (S *, U);\n".toList, "typedef CK_RV (* CK_X_B) (S *, V);\n".toList,
    "struct _CK_X_FUNCTION_LIST \x7b\n CK_X_A A;\n CK_X_B B;\n\x7d;\n".toList]

private theorem declares_plainPieces : Dialect.plain.Declares (.ok (Text.bytes plainPieces.flatten))
    [⟨['A'], [⟨['a'], ['T']⟩]⟩, ⟨['B'], [⟨['b'], ['T']⟩]⟩] (.ofList [['A'], ['B']]) := by
  rw [Dialect.declares_bytes_iff]
  decide +kernel

private theorem declares_extendedPieces :
    Dialect.extended.Declares (.ok (Text.bytes extendedPieces.flatten))
      [⟨['A'], [⟨[], ['S', ' ', '*']⟩, ⟨[], ['U']⟩]⟩, ⟨['B'], [⟨[], ['S', ' ', '*']⟩, ⟨[], ['V']⟩]⟩]
      (.ofList [['A'], ['B']]) := by
  rw [Dialect.declares_bytes_iff]
  decide +kernel

private theorem reorders_plainPieces : (Dialect.plain.outline plainPieces.flatten).Reorders
    (Dialect.plain.outline plainPieces.reverse.flatten) := by
  decide +kernel

private theorem reorders_extendedPieces :
    (Dialect.extended.outline extendedPieces.flatten).Reorders
      (Dialect.extended.outline extendedPieces.reverse.flatten) := by
  decide +kernel

/-- With its pieces in reverse, each header makes the same interface. -/
theorem ofHeaders_reverse_pieces :
    ∃ i, i.plain.map Signature.name = [['A'], ['B']] ∧
      (ofHeaders (.ok (Text.bytes plainPieces.flatten))
        (.ok (Text.bytes extendedPieces.flatten))).result = .ok i ∧
      (ofHeaders (.ok (Text.bytes plainPieces.reverse.flatten))
        (.ok (Text.bytes extendedPieces.reverse.flatten))).result = .ok i := by
  have hp := (Dialect.mapM_signature_eq_ok_iff.mp
    (Dialect.declares_bytes_iff.mp declares_plainPieces).1).2
  have hx := (Dialect.mapM_signature_eq_ok_iff.mp
    (Dialect.declares_bytes_iff.mp declares_extendedPieces).1).2
  have hsame := (ofHeaders_reordered reorders_plainPieces reorders_extendedPieces).2
    (by rw [← hp]; decide) (by rw [← hx]; decide)
  have hi := (ofHeaders_eq_ok_iff_of_declares declares_plainPieces declares_extendedPieces).mpr
    ⟨by unfold Agree; decide, by decide, by decide, rfl⟩
  exact ⟨_, by decide, hi, (hsame _).mp hi⟩

end Interface

end DispatchTable
