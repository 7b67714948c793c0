import DispatchTable.Proofs.Interface
import DispatchTable.Proofs.ReadBack

/-!
# The slots of a printed table

The initializer of a table is positional: its entries fill the slots of the layout from the front.
The printed entries are those of the declared functions, slot by slot, so each slot receives as many
entries as functions are declared for it. The table is aligned with the layout exactly when this is
one entry for each slot; a slot without a declaration, or with two, moves all entries after it.
-/

namespace DispatchTable

open Signature

/-- What a header declares can be printed. -/
theorem Dialect.Declares.printable {d : Dialect} {content : Content} {functions : List Signature}
    {layout : Layout} (h : d.Declares content functions layout) : ∀ f ∈ functions, f.Printable := by
  intro f hf
  obtain ⟨statement, hf⟩ := h.exists_signature hf
  exact Dialect.printable_of_signature hf

/-- A merge leaves extended signatures that can be printed. -/
theorem Signature.Agree.printable_renamed {plain extended : List Signature}
    (h : Agree plain extended) (hplain : ∀ p ∈ plain, p.Printable) {x : Signature}
    (hx : x ∈ extended) (hprintable : x.Printable) : (Signature.renamed plain x).Printable := by
  have hrenamed := h.renamed hx
  refine ⟨hrenamed.name_eq ▸ hprintable.isName, fun arg harg => ⟨?_, ?_⟩⟩
  · have hname := List.mem_map_of_mem (f := Argument.name) harg
    have hself : '\n' ∉ receiver := by decide
    cases hlast : last? plain x.name with
    | some p =>
      rw [hrenamed.names_eq p hlast, List.mem_cons] at hname
      rcases hname with hname | hname
      · rwa [hname]
      · obtain ⟨source, hsource, hname⟩ := List.mem_map.mp hname
        rw [← hname]
        exact ((hplain p (last?_eq_some hlast).1).newline_not_mem source hsource).1
    | none =>
      rw [hrenamed.names_eq_of_alone (last?_eq_none_iff.mp hlast), List.mem_cons] at hname
      rcases hname with hname | hname
      · rwa [hname]
      · obtain ⟨source, hsource, hname⟩ := List.mem_map.mp hname
        rw [← hname]
        exact (hprintable.newline_not_mem source (List.mem_of_mem_tail hsource)).1
  · have htype := List.mem_map_of_mem (f := Argument.type) harg
    rw [hrenamed.types_eq] at htype
    obtain ⟨source, hsource, htype⟩ := List.mem_map.mp htype
    rw [← htype]
    exact (hprintable.newline_not_mem source hsource).2

/-- The entry of the table for a slot: a null entry, or the wrapper of the function that the slot is
named for. -/
def Config.slotEntry (config : Config) (name : Text) : Text :=
  if config.exclude.contains name then "NULL".toList
  else config.template.name ++ "_C_".toList ++ name

/-- Different slots have different entries, unless they are left out. -/
theorem Config.slotEntry_injective {config : Config} {names names' : List Text}
    (h : ∀ name ∈ names ++ names', config.exclude.contains name = false)
    (he : names.map config.slotEntry = names'.map config.slotEntry) : names = names' := by
  have hwrapper : ∀ names : List Text, (∀ name ∈ names, config.exclude.contains name = false) →
      names.map config.slotEntry =
        names.map fun name => config.template.name ++ "_C_".toList ++ name := by
    intro names hnames
    apply List.map_congr_left
    intro name hname
    rw [Config.slotEntry, if_neg (by simp [hnames name hname])]
  rw [hwrapper names fun name hname => h name (List.mem_append_left names' hname),
    hwrapper names' fun name hname => h name (List.mem_append_right names hname)] at he
  exact List.map_injective_iff.mpr (fun _ _ => List.append_cancel_left) he

namespace Interface

variable {plain extended : Content} {i : Interface} {functions : List Signature} {layout : Layout}

/-- The extended functions of an interface have the names of the slots, each as often as it is
declared. -/
theorem map_name_extended (hi : (ofHeaders plain extended).result = .ok i)
    (hextended : Dialect.extended.Declares extended functions layout) :
    i.extended.map Signature.name = layout.names.flatMap fun name =>
      List.replicate ((functions.map Signature.name).count name) name := by
  obtain ⟨_, _, _, _, _, hextended', _, _, _, rfl⟩ := ofHeaders_eq_ok_iff.mp hi
  obtain ⟨rfl, rfl⟩ := hextended.unique hextended'
  rw [Layout.map_name_listing, List.map_map]
  simp only [Function.comp_def, renamed_name]

/-- The extended functions of an interface can be printed. -/
theorem printable_extended (hi : (ofHeaders plain extended).result = .ok i) :
    ∀ x ∈ i.extended, x.Printable := by
  obtain ⟨_, _, _, _, hplain, hextended, hagree, _, _, rfl⟩ := ofHeaders_eq_ok_iff.mp hi
  intro x hx
  obtain ⟨y, hy, rfl⟩ := List.mem_map.mp (Layout.mem_listing.mp hx).1
  exact hagree.printable_renamed hplain.printable hy (hextended.printable y hy)

private theorem flatMap_replicate_eq_iff {names : List Text} (hnodup : names.Nodup)
    (count : Text → Nat) :
    (names.flatMap fun name => List.replicate (count name) name) = names ↔
      ∀ name ∈ names, count name = 1 := by
  induction names with
  | nil => simp
  | cons name names ih =>
    obtain ⟨hname, hnames⟩ := List.nodup_cons.mp hnodup
    have hrest : ∀ x ∈ names.flatMap fun name => List.replicate (count name) name, x ∈ names := by
      intro x hx
      obtain ⟨y, hy, hx⟩ := List.mem_flatMap.mp hx
      rwa [(List.mem_replicate.mp hx).2]
    rw [List.flatMap_cons, List.forall_mem_cons, ← ih hnames]
    cases hcount : count name with
    | zero =>
      refine iff_of_false (fun he => hname (hrest name ?_)) (by simp)
      rw [← List.nil_append (names.flatMap _), ← List.replicate_zero, he]
      exact List.mem_cons_self
    | succ k =>
      rw [List.replicate_succ, List.cons_append, List.cons.injEq]
      cases k with
      | zero => simp
      | succ k =>
        refine iff_of_false (fun he => hname ?_) (by simp)
        rw [← he.2, List.replicate_succ, List.cons_append]
        exact List.mem_cons_self

/-- In a printed table each slot of the layout has one entry for each declaration of its function.
So the entries are aligned with the slots under all configurations exactly when each slot is
declared once, and already under one that leaves out none of the slots. -/
theorem table_aligned_iff (hi : (ofHeaders plain extended).result = .ok i)
    (hextended : Dialect.extended.Declares extended functions layout) :
    (∀ config : Config, tableEntries? (config.code i.extended) =
      some (layout.names.flatMap fun name =>
        List.replicate ((functions.map Signature.name).count name) (config.slotEntry name))) ∧
    ((∀ config : Config, tableEntries? (config.code i.extended) =
        some (layout.names.map config.slotEntry)) ↔
      ∀ name ∈ layout.names, (functions.map Signature.name).count name = 1) ∧
    ∀ config : Config, (∀ name ∈ layout.names, config.exclude.contains name = false) →
      (tableEntries? (config.code i.extended) = some (layout.names.map config.slotEntry) ↔
        ∀ name ∈ layout.names, (functions.map Signature.name).count name = 1) := by
  have hnames := map_name_extended hi hextended
  have hentries : ∀ config : Config, tableEntries? (config.code i.extended) =
      some ((i.extended.map Signature.name).map config.slotEntry) := by
    intro config
    rw [tableEntries?_code config (printable_extended hi), List.map_map]
    rfl
  have honce := flatMap_replicate_eq_iff layout.nodup (functions.map Signature.name).count
  have hkept : ∀ config : Config,
      (∀ name ∈ layout.names, config.exclude.contains name = false) →
      (tableEntries? (config.code i.extended) = some (layout.names.map config.slotEntry) ↔
        ∀ name ∈ layout.names, (functions.map Signature.name).count name = 1) := by
    intro config hconfig
    rw [← honce, hentries, Option.some.injEq, hnames]
    refine ⟨fun he => Config.slotEntry_injective (fun name hname => ?_) he, fun he => by rw [he]⟩
    rcases List.mem_append.mp hname with hname | hname
    · obtain ⟨slot, hslot, hname⟩ := List.mem_flatMap.mp hname
      rw [(List.mem_replicate.mp hname).2]
      exact hconfig slot hslot
    · exact hconfig name hname
  refine ⟨fun config => ?_, ⟨fun hall => ?_, fun hcount config => ?_⟩, hkept⟩
  · rw [hentries, hnames, List.map_flatMap]
    simp only [List.map_replicate]
  · exact (hkept .default fun _ _ => rfl).mp (hall .default)
  · rw [hentries, hnames, honce.mpr hcount]

/-- An extended header that declares its slots in another order. -/
def slotsDeclared : Text :=
  "struct _CK_X_FUNCTION_LIST \x7b
 CK_X_A A;
 CK_X_B B;
\x7d;
typedef CK_RV (* CK_X_B) (S *);
typedef CK_RV (* CK_X_A) (S *);".toList

/-- An extended header that declares nothing for its first slot. -/
def slotUndeclared : Text :=
  "struct _CK_X_FUNCTION_LIST \x7b
 CK_X_A A;
 CK_X_B B;
\x7d;
typedef CK_RV (* CK_X_B) (S *);".toList

/-- A plain header without text declares nothing. -/
theorem declares_empty : Dialect.plain.Declares (.ok (Text.bytes [])) [] (.ofList []) := by
  rw [Dialect.declares_bytes_iff]
  decide

/-- What this header declares. -/
theorem declares_slotsDeclared : Dialect.extended.Declares (.ok slotsDeclared.bytes)
    [⟨['B'], [⟨[], ['S', ' ', '*']⟩]⟩, ⟨['A'], [⟨[], ['S', ' ', '*']⟩]⟩]
    (.ofList [['A'], ['B']]) := by
  rw [Dialect.declares_bytes_iff]
  decide +kernel

private theorem declares_slotUndeclared : Dialect.extended.Declares (.ok slotUndeclared.bytes)
    [⟨['B'], [⟨[], ['S', ' ', '*']⟩]⟩] (.ofList [['A'], ['B']]) := by
  rw [Dialect.declares_bytes_iff]
  decide +kernel

/-- Where each slot is declared, the entries stand in the order of the slots. -/
theorem table_aligned_slotsDeclared :
    ∃ i, (ofHeaders (.ok (Text.bytes [])) (.ok slotsDeclared.bytes)).result = .ok i ∧
      ∀ config : Config, tableEntries? (config.code i.extended) =
        some ([['A'], ['B']].map config.slotEntry) := by
  have hi := ofHeaders_eq_ok_iff.mpr ⟨_, _, _, _, declares_empty, declares_slotsDeclared,
    by unfold Agree; decide, by decide, by decide, rfl⟩
  exact ⟨_, hi, (table_aligned_iff hi declares_slotsDeclared).2.1.mpr (by decide)⟩

/-- Where the first slot is not declared, a table that leaves it out has no null entry for it, and
the entry of the second slot fills the first. -/
theorem table_shifted_slotUndeclared :
    ∃ i, (ofHeaders (.ok (Text.bytes [])) (.ok slotUndeclared.bytes)).result = .ok i ∧
      Dialect.extended.Declares (.ok slotUndeclared.bytes) [⟨['B'], [⟨[], ['S', ' ', '*']⟩]⟩]
        (.ofList [['A'], ['B']]) ∧
      tableEntries? ((Config.default.excluding [['A']]).code i.extended) =
        some ["base_C_B".toList] ∧
      (Layout.ofList [['A'], ['B']]).names.map (Config.default.excluding [['A']]).slotEntry =
        ["NULL".toList, "base_C_B".toList] := by
  have hi := ofHeaders_eq_ok_iff.mpr ⟨_, _, _, _, declares_empty, declares_slotUndeclared,
    by unfold Agree; decide, by decide, by decide, rfl⟩
  refine ⟨_, hi, declares_slotUndeclared, ?_, by decide⟩
  rw [tableEntries?_code _ (printable_extended hi)]
  decide

end Interface

end DispatchTable
