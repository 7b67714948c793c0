import DispatchTable.Proofs.Arrangement
import DispatchTable.Proofs.Provenance

/-!
# Merging again

A merge reads the names of the plain arguments and the types of the extended ones, and it writes the
types of the plain arguments and the names of the extended ones. So it never reads what a merge
wrote, and a second merge of what a first one left, complete or not, does the same: it leaves both
lists as they are, reports the same and fails in the same way. The lists of an interface are merged
and arranged already.
-/

namespace DispatchTable

namespace Revision

variable {revise again : Signature → Revision Signature} {fs : List Signature}

/-- A pass over what a pass left changes nothing, if this holds for every signature. -/
theorem mapList_mapList (h : ∀ f, again (revise f).value = revise f) (fs : List Signature) :
    mapList again (mapList revise fs).value = mapList revise fs := by
  induction fs with
  | nil => rfl
  | cons f fs ih =>
    cases hfailure : (revise f).failure? with
    | none => simp only [mapList, hfailure, h, ih]
    | some e => simp only [mapList, hfailure, h]

/-- What a revision keeps of every signature, a pass keeps of the list, also if it ends early. -/
theorem map_value_mapList {α : Type} {part : Signature → α}
    (h : ∀ f, part (revise f).value = part f) (fs : List Signature) :
    (mapList revise fs).value.map part = fs.map part := by
  induction fs with
  | nil => rfl
  | cons f fs ih =>
    cases hfailure : (revise f).failure? with
    | none => simp only [mapList, hfailure, List.map_cons, h, ih]
    | some e => simp only [mapList, hfailure, List.map_cons, h]

end Revision

namespace Signature

variable {fs gs : List Signature} {sources args : List Argument} {part : Argument → Text}

/-- The name of a signature and one part of each of its arguments. -/
def parts (part : Argument → Text) (f : Signature) : Text × List Text := (f.name, f.args.map part)

/-- Lists with the same parts give the same parts of the arguments that a merge looks up. -/
theorem map_lastArgs?_of_parts (h : fs.map (parts part) = gs.map (parts part)) (name : Text) :
    (lastArgs? fs name).map (List.map part) = (lastArgs? gs name).map (List.map part) := by
  have hread : ∀ fs : List Signature, (lastArgs? fs name).map (List.map part) =
      (((fs.map (parts part)).filter fun p => p.1 = name).getLast?).map Prod.snd := by
    intro fs
    rw [lastArgs?_eq, last?, List.filter_map, List.getLast?_map, Option.map_map, Option.map_map]
    rfl
  rw [hread, hread, h]

/-- Copying types reads only the types of the sources. -/
theorem copyTypes_eq_zipWith (sources args : List Argument) :
    copyTypes sources args =
      args.zipWith (fun arg type => { arg with type := type }) (sources.map Argument.type) := by
  rw [copyTypes, List.zipWith_map_right]

/-- Copying names reads only the names of the sources. -/
theorem copyNames_eq_zipWith (sources args : List Argument) :
    copyNames sources args =
      args.zipWith (fun arg name => { arg with name := name }) (sources.map Argument.name) := by
  rw [copyNames, List.zipWith_map_right]

/-- The revision of a plain signature reads only the types of its counterpart. -/
theorem retype_eq_of_parts (h : fs.map (parts Argument.type) = gs.map (parts Argument.type)) :
    retype fs = retype gs := by
  funext f
  have hlast := map_lastArgs?_of_parts h f.name
  rw [retype, retype]
  cases hf : lastArgs? fs f.name with
  | none =>
    rw [hf, Option.map_none, eq_comm, Option.map_eq_none_iff] at hlast
    rw [hlast]
  | some types =>
    rw [hf, Option.map_some, eq_comm, Option.map_eq_some_iff] at hlast
    obtain ⟨types', hg, htypes⟩ := hlast
    have hlength : types'.length = types.length := by simpa using congrArg List.length htypes
    simp only [hg, hlength, copyTypes_eq_zipWith, List.map_tail, htypes]

/-- The revision of an extended signature reads only the names of its counterpart. -/
theorem rename_eq_of_parts (h : fs.map (parts Argument.name) = gs.map (parts Argument.name)) :
    rename fs = rename gs := by
  funext f
  have hlast := map_lastArgs?_of_parts h f.name
  rw [rename, rename]
  cases hf : lastArgs? fs f.name with
  | none =>
    rw [hf, Option.map_none, eq_comm, Option.map_eq_none_iff] at hlast
    rw [hlast]
  | some names =>
    rw [hf, Option.map_some, eq_comm, Option.map_eq_some_iff] at hlast
    obtain ⟨names', hg, hnames⟩ := hlast
    have hlength : names'.length = names.length := by simpa using congrArg List.length hnames
    simp only [hg, hlength, copyNames_eq_zipWith, hnames, Option.map_some]

/-- The revision of a plain signature keeps the names of its arguments. -/
theorem parts_name_retype (extended : List Signature) (f : Signature) :
    parts Argument.name (retype extended f).value = parts Argument.name f := by
  rw [retype]
  cases lastArgs? extended f.name with
  | none => rfl
  | some types =>
    by_cases hlen : types.length = f.args.length + 1
    · have hlen' : types.tail.length = f.args.length := by rw [List.length_tail, hlen]; rfl
      simp only [hlen, if_true, parts, map_name_copyTypes hlen']
    · simp only [hlen, if_false]

/-- The revision of an extended signature keeps the types of its arguments. -/
theorem parts_type_rename (plain : List Signature) (f : Signature) :
    parts Argument.type (rename plain f).value = parts Argument.type f := by
  obtain ⟨name, args⟩ := f
  rw [rename]
  cases args with
  | nil => rfl
  | cons self args =>
    cases lastArgs? plain name with
    | none => rfl
    | some names =>
      by_cases hlen : args.length = names.length
      · simp only [hlen, if_true, parts, List.map_cons, map_type_copyNames hlen.symm]
      · simp only [hlen, if_false, parts, List.map_cons]

private theorem zipWith_zipWith {α β : Type} {f : α → β → α} (h : ∀ a b, f (f a b) b = f a b)
    (as : List α) (bs : List β) : (as.zipWith f bs).zipWith f bs = as.zipWith f bs := by
  induction as generalizing bs with
  | nil => rfl
  | cons a as ih =>
    cases bs with
    | nil => rfl
    | cons b bs => simp only [List.zipWith_cons_cons, h, ih]

/-- Types that were copied may be copied again. -/
theorem copyTypes_copyTypes (sources args : List Argument) :
    copyTypes sources (copyTypes sources args) = copyTypes sources args := by
  unfold copyTypes
  apply zipWith_zipWith
  exact fun _ _ => rfl

/-- Names that were copied may be copied again. -/
theorem copyNames_copyNames (sources args : List Argument) :
    copyNames sources (copyNames sources args) = copyNames sources args := by
  unfold copyNames
  apply zipWith_zipWith
  exact fun _ _ => rfl

/-- A plain signature that was revised, or that failed, does so again. -/
theorem retype_retype (extended : List Signature) (f : Signature) :
    retype extended (retype extended f).value = retype extended f := by
  obtain ⟨name, args⟩ := f
  cases h : lastArgs? extended name with
  | none => simp only [retype, h]
  | some types =>
    by_cases hlen : types.length = args.length + 1
    · have hlen' : (copyTypes types.tail args).length = args.length := by
        simp [copyTypes, hlen]
      simp only [retype, h, hlen, hlen', if_true, copyTypes_copyTypes]
    · simp only [retype, h, hlen, if_false]

/-- An extended signature that was revised, or that failed, does so again. -/
theorem rename_rename (plain : List Signature) (f : Signature) :
    rename plain (rename plain f).value = rename plain f := by
  obtain ⟨name, args⟩ := f
  cases args with
  | nil => rfl
  | cons self args =>
    cases h : lastArgs? plain name with
    | none => simp only [rename, h]
    | some names =>
      by_cases hlen : args.length = names.length
      · have hlen' : (copyNames names args).length = names.length := by
          simp [copyNames, hlen]
        simp only [rename, h, hlen, hlen', if_true, copyNames_copyNames]
      · simp only [rename, h, hlen, if_false]

end Signature

open Signature

/-- A merge of what a merge left is the same merge. -/
theorem merge_merge (plain extended : List Signature) :
    merge (merge plain extended).plain (merge plain extended).extended =
      merge plain extended := by
  have hplain := Revision.mapList_mapList (retype_retype extended) plain
  cases hfailure : (Revision.mapList (retype extended) plain).failure? with
  | some e =>
    have hagain : (Revision.mapList (retype extended)
        (Revision.mapList (retype extended) plain).value).failure? = some e := by
      rw [hplain, hfailure]
    simp only [merge_of_failure?_eq_some hfailure, merge_of_failure?_eq_some hagain, hplain]
  | none =>
    have hretype : retype (Revision.mapList (rename plain) extended).value = retype extended :=
      retype_eq_of_parts (Revision.map_value_mapList (parts_type_rename plain) extended)
    have hrename : rename (Revision.mapList (retype extended) plain).value = rename plain :=
      rename_eq_of_parts (Revision.map_value_mapList (parts_name_retype extended) plain)
    have hextended := Revision.mapList_mapList (rename_rename plain) extended
    have hagain : (Revision.mapList (retype (Revision.mapList (rename plain) extended).value)
        (Revision.mapList (retype extended) plain).value).failure? = none := by
      rw [hretype, hplain, hfailure]
    simp only [merge_of_failure?_eq_none hfailure, merge_of_failure?_eq_none hagain, hretype,
      hrename, hplain, hextended]

namespace Interface

/-- Whether merging the lists of an interface and putting each into the order of its layout changes
nothing. -/
structure IsSettled (i : Interface) (layout layout' : Layout) : Prop where
  merge_failure? : (merge i.plain i.extended).failure? = none
  merge_plain : (merge i.plain i.extended).plain = i.plain
  merge_extended : (merge i.plain i.extended).extended = i.extended
  rearrange_plain : layout.rearrange Dialect.plain.table i.plain = (i.plain, none)
  rearrange_extended : layout'.rearrange Dialect.extended.table i.extended = (i.extended, none)

/-- The listings of two lists that a merge does not change are settled. -/
theorem isSettled_listing {plain extended : List Signature} {layout layout' : Layout}
    (hagree : Agree plain extended) (hplain : plain.map (retyped extended) = plain)
    (hextended : extended.map (renamed plain) = extended)
    (hslots : ∀ p ∈ plain, p.name ∈ layout.names)
    (hslots' : ∀ x ∈ extended, x.name ∈ layout'.names) :
    IsSettled ⟨layout.listing plain, layout'.listing extended⟩ layout layout' := by
  have hp := sameByName_listing hslots
  have hx := sameByName_listing hslots'
  have hlisted : Agree (layout.listing plain) (layout'.listing extended) :=
    (hp.agree_iff hx).mpr hagree
  refine ⟨merge_failure?_eq_none_iff.mpr hlisted, ?_, ?_, Layout.rearrange_listing hslots,
    Layout.rearrange_listing hslots'⟩
  · calc (merge (layout.listing plain) (layout'.listing extended)).plain
        = (layout.listing plain).map (retyped extended) := by
          rw [merge_plain hlisted, hx.retyped_eq]
      _ = layout.listing plain := by rw [← Layout.listing_map (retyped_name extended), hplain]
  · calc (merge (layout.listing plain) (layout'.listing extended)).extended
        = (layout'.listing extended).map (renamed plain) := by
          rw [merge_extended hlisted, hp.renamed_eq]
      _ = layout'.listing extended := by
          rw [← Layout.listing_map (renamed_name plain), hextended]

/-- What a complete merge leaves, put into slot order, is settled. -/
theorem isSettled_of_agree {plain extended : List Signature} {layout layout' : Layout}
    (hagree : Agree plain extended) (hslots : ∀ p ∈ plain, p.name ∈ layout.names)
    (hslots' : ∀ x ∈ extended, x.name ∈ layout'.names) :
    IsSettled ⟨layout.listing (plain.map (retyped extended)),
      layout'.listing (extended.map (renamed plain))⟩ layout layout' := by
  have hagain := merge_merge plain extended
  rw [merge_plain hagree, merge_extended hagree] at hagain
  have hmerged : Agree (plain.map (retyped extended)) (extended.map (renamed plain)) := by
    rw [← merge_failure?_eq_none_iff, hagain]
    exact merge_failure?_eq_none_iff.mpr hagree
  refine isSettled_listing hmerged ?_ ?_ ?_ ?_
  · rw [← merge_plain hmerged, hagain, merge_plain hagree]
  · rw [← merge_extended hmerged, hagain, merge_extended hagree]
  · rw [List.forall_mem_map]
    exact fun p hp => retyped_name extended p ▸ hslots p hp
  · rw [List.forall_mem_map]
    exact fun x hx => renamed_name plain x ▸ hslots' x hx

/-- A merge of what a merge left, complete or not, leaves both lists as they are, reports the same
and ends in the same way. The lists of an interface stay as they are if they are merged and put into
slot order again. -/
theorem merge_idempotent :
    (∀ plain extended : List Signature,
      merge (merge plain extended).plain (merge plain extended).extended =
        merge plain extended) ∧
    ∀ (plain extended : Content) (i : Interface), (ofHeaders plain extended).result = .ok i →
      ∃ outline outline', (Outline.ofContent .plain plain).result = .ok outline ∧
        (Outline.ofContent .extended extended).result = .ok outline' ∧
        i.IsSettled outline.layout outline'.layout := by
  refine ⟨merge_merge, fun plain extended i hi => ?_⟩
  obtain ⟨_, _, _, _, ⟨outline, houtline, _, rfl⟩, ⟨outline', houtline', _, rfl⟩, hagree, hslots,
    hslots', rfl⟩ := ofHeaders_eq_ok_iff.mp hi
  exact ⟨outline, outline', houtline, houtline', isSettled_of_agree hagree hslots hslots'⟩

/-- Where a function is declared twice with different names, the extended function has the last
ones, and a second merge gives it the same. -/
theorem merge_idempotent_namedTwice :
    ∃ i outline outline', (ofHeaders (.ok namedTwice.bytes) (.ok typedOnce.bytes)).result = .ok i ∧
      i.extended = [⟨['F'], [⟨receiver, ['S', ' ', '*']⟩, ⟨['b'], ['V']⟩]⟩] ∧
      (Outline.ofContent .plain (.ok namedTwice.bytes)).result = .ok outline ∧
      (Outline.ofContent .extended (.ok typedOnce.bytes)).result = .ok outline' ∧
      i.IsSettled outline.layout outline'.layout := by
  have hi := ofHeaders_eq_ok_iff.mpr ⟨_, _, _, _, declares_namedTwice, declares_typedOnce,
    by unfold Agree; decide, by decide, by decide, rfl⟩
  obtain ⟨outline, outline', houtline, houtline', hsettled⟩ := merge_idempotent.2 _ _ _ hi
  exact ⟨_, outline, outline', hi, by decide, houtline, houtline', hsettled⟩

end Interface

end DispatchTable
