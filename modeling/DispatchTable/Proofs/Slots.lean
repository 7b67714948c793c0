import DispatchTable.Layout
import Mathlib.Data.List.Basic

/-!
# Arranging slot by slot

Signatures in slot order are the listing of the slots: first all signatures of the first name, then
all of the second, and so on. Within a slot they stand as they stood before, so a look-up by name
finds the same signature before and after. The slots of a layout are the listed names without their
repetitions.
-/

namespace DispatchTable.Layout

/-- A new slot stands after all others. -/
theorem names_insert (layout : Layout) (name : Text) :
    (layout.insert name).names =
      layout.names ++ if name ∈ layout.names then [] else [name] := by
  unfold insert
  split <;> simp

/-- New slots stand after all others, each name once and in the order of the list. -/
theorem names_insertAll (layout : Layout) (names : List Text) :
    (layout.insertAll names).names =
      layout.names ++ (names.filter (· ∉ layout.names)).eraseDups := by
  induction names generalizing layout with
  | nil => simp [insertAll]
  | cons name names ih =>
    rw [insertAll, List.foldl_cons, ← insertAll, ih, names_insert]
    by_cases h : name ∈ layout.names
    · simp [h]
    · have hrest : names.filter (fun x => decide (x ∉ layout.names ++ [name])) =
          (names.filter fun x => decide (x ∉ layout.names)).filter fun x => !x == name := by
        rw [List.filter_filter]
        apply List.filter_congr
        intro x _
        by_cases hx : x ∈ layout.names <;> by_cases hn : x = name <;> simp [hx, hn]
      rw [if_neg h, hrest, List.filter_cons_of_pos (by simpa using h), List.eraseDups_cons,
        List.append_assoc, List.singleton_append]

/-- A layout has a slot for each name of the list, at its first place there. -/
theorem names_ofList (names : List Text) : (ofList names).names = names.eraseDups := by
  rw [ofList, names_insertAll]
  simp [empty]

variable {layout : Layout} {signatures : List Signature}

/-- The signatures of the first slot, then those of the second, and so on. -/
def listing (layout : Layout) (signatures : List Signature) : List Signature :=
  layout.names.flatMap fun name => signatures.filter fun f => f.name = name

private theorem place_trans (layout : Layout) (f g k : Signature)
    (hfg : decide (layout.place f.name ≤ layout.place g.name) = true)
    (hgk : decide (layout.place g.name ≤ layout.place k.name) = true) :
    decide (layout.place f.name ≤ layout.place k.name) = true := by
  rw [decide_eq_true_eq] at *
  exact Nat.le_trans hfg hgk

private theorem place_total (layout : Layout) (f g : Signature) :
    (decide (layout.place f.name ≤ layout.place g.name) ||
      decide (layout.place g.name ≤ layout.place f.name)) = true := by
  rw [Bool.or_eq_true, decide_eq_true_eq, decide_eq_true_eq]
  exact Nat.le_total _ _

/-- Sorting keeps the signatures of one name in their order. -/
theorem filter_sort (layout : Layout) (signatures : List Signature) (name : Text) :
    ((layout.sort signatures).filter fun f => f.name = name) =
      signatures.filter fun f => f.name = name := by
  have hsorted : (signatures.filter fun f => f.name = name).Pairwise fun f g =>
      decide (layout.place f.name ≤ layout.place g.name) = true := by
    refine List.Pairwise.imp_of_mem (R := fun _ _ => True) ?_
      (List.pairwise_of_forall fun _ _ => trivial)
    intro f g hf hg _
    have hname : f.name = g.name := by
      rw [of_decide_eq_true (List.mem_filter.mp hf).2, of_decide_eq_true (List.mem_filter.mp hg).2]
    simp [hname]
  have hsub := (List.sublist_mergeSort (place_trans layout) (place_total layout) hsorted
    List.filter_sublist).filter fun f => decide (f.name = name)
  rw [List.filter_filter] at hsub
  simp only [Bool.and_self] at hsub
  have hlen := ((layout.sort_perm signatures).filter fun f => decide (f.name = name)).length_eq
  exact (hsub.eq_of_length hlen.symm).symm

/-- A look-up by name finds the same signature in a sorted list. -/
theorem find?_sort (layout : Layout) (signatures : List Signature) (name : Text) :
    ((layout.sort signatures).find? fun f => f.name = name) =
      signatures.find? fun f => f.name = name := by
  rw [← List.head?_filter, filter_sort, List.head?_filter]

private theorem filter_append_filter_not {p : Signature → Bool} {fs : List Signature}
    (h : fs.Pairwise fun f g => p g = true → p f = true) :
    fs.filter p ++ fs.filter (fun f => !p f) = fs := by
  induction fs with
  | nil => rfl
  | cons f fs ih =>
    obtain ⟨hf, hfs⟩ := List.pairwise_cons.mp h
    by_cases hp : p f = true
    · simp [hp, ih hfs]
    · have hnone : ∀ g ∈ fs, ¬p g = true := fun g hg hpg => hp (hf g hg hpg)
      rw [List.filter_eq_nil_iff.mpr (by simpa [hp] using hnone), List.nil_append]
      exact List.filter_eq_self.mpr (by simpa [hp] using hnone)

private theorem flatMap_filter_of_sorted {names : List Text} {fs : List Signature}
    (hmem : ∀ f ∈ fs, f.name ∈ names)
    (hsorted : fs.Pairwise fun f g => names.idxOf f.name ≤ names.idxOf g.name)
    (hnodup : names.Nodup) :
    (names.flatMap fun name => fs.filter fun f => f.name = name) = fs := by
  induction names generalizing fs with
  | nil =>
    have hnil : fs = [] :=
      List.eq_nil_iff_forall_not_mem.mpr fun f hf => List.not_mem_nil (hmem f hf)
    rw [hnil, List.flatMap_nil]
  | cons name names ih =>
    obtain ⟨hname, hnames⟩ := List.nodup_cons.mp hnodup
    let others := fs.filter fun f => !decide (f.name = name)
    have hothers : ∀ f ∈ others, f.name ≠ name := by
      intro f hf
      simpa using (List.mem_filter.mp hf).2
    have hfront : (fs.filter fun f => f.name = name) ++ others = fs := by
      refine filter_append_filter_not (hsorted.imp fun {f g} hle hg => ?_)
      rw [decide_eq_true_eq] at hg ⊢
      by_contra hf
      rw [hg, List.idxOf_cons_self, List.idxOf_cons_ne _ (Ne.symm hf)] at hle
      omega
    have hrest : (names.flatMap fun n => others.filter fun f => f.name = n) = others := by
      refine ih ?_ ?_ hnames
      · intro f hf
        have := hmem f (List.mem_filter.mp hf).1
        exact (List.mem_cons.mp this).resolve_left (hothers f hf)
      · refine List.Pairwise.imp_of_mem ?_ (hsorted.sublist List.filter_sublist)
        intro f g hf hg hle
        rw [List.idxOf_cons_ne _ (Ne.symm (hothers f hf)),
          List.idxOf_cons_ne _ (Ne.symm (hothers g hg))] at hle
        omega
    have hsame : (names.flatMap fun n => fs.filter fun f => f.name = n) =
        names.flatMap fun n => others.filter fun f => f.name = n := by
      apply List.flatMap_congr
      intro n hn
      rw [List.filter_filter]
      apply List.filter_congr
      intro f _
      have hne : n ≠ name := fun e => hname (e ▸ hn)
      by_cases hf : f.name = n <;> simp [hf, hne]
    rw [List.flatMap_cons, hsame, hrest, hfront]

/-- If every signature has a slot, sorting lists the signatures slot by slot. -/
theorem sort_eq_listing (h : ∀ f ∈ signatures, f.name ∈ layout.names) :
    layout.sort signatures = layout.listing signatures := by
  have hmem : ∀ f ∈ layout.sort signatures, f.name ∈ layout.names := fun f hf =>
    h f ((layout.sort_perm signatures).mem_iff.mp hf)
  have hsorted : (layout.sort signatures).Pairwise fun f g =>
      layout.names.idxOf f.name ≤ layout.names.idxOf g.name := by
    refine (List.pairwise_mergeSort (place_trans layout) (place_total layout) signatures).imp ?_
    intro f g hle
    exact of_decide_eq_true hle
  rw [← flatMap_filter_of_sorted hmem hsorted layout.nodup]
  simp only [filter_sort, listing]

/-- If every signature has a slot, the listing neither loses nor adds one. -/
theorem listing_perm (h : ∀ f ∈ signatures, f.name ∈ layout.names) :
    (layout.listing signatures).Perm signatures := by
  rw [← sort_eq_listing h]
  exact layout.sort_perm signatures

/-- A revision that keeps the names may be made before or after the listing. -/
theorem listing_map {revise : Signature → Signature} (hname : ∀ f, (revise f).name = f.name)
    (layout : Layout) (signatures : List Signature) :
    layout.listing (signatures.map revise) = (layout.listing signatures).map revise := by
  rw [listing, listing, List.map_flatMap]
  apply List.flatMap_congr
  intro name _
  rw [List.filter_map]
  simp only [Function.comp_def, hname]

/-- A revision that keeps the names keeps the slots. -/
theorem listing_map_perm {revise : Signature → Signature} (hname : ∀ f, (revise f).name = f.name)
    (h : ∀ f ∈ signatures, f.name ∈ layout.names) :
    (layout.listing (signatures.map revise)).Perm (signatures.map revise) := by
  refine listing_perm ?_
  rw [List.forall_mem_map]
  exact fun f hf => hname f ▸ h f hf

/-- No signature lacks a slot exactly when all names are in the layout. -/
theorem missing?_eq_none_iff :
    layout.missing? signatures = none ↔ ∀ f ∈ signatures, f.name ∈ layout.names := by
  simp [missing?]

/-- Arranging succeeds exactly when every signature has a slot, and it gives the listing then. -/
theorem arrange_eq_ok_iff {table : Text} {arranged : List Signature} :
    layout.arrange table signatures = .ok arranged ↔
      (∀ f ∈ signatures, f.name ∈ layout.names) ∧ layout.listing signatures = arranged := by
  rw [← missing?_eq_none_iff, arrange]
  cases h : layout.missing? signatures with
  | none => simp [sort_eq_listing (missing?_eq_none_iff.mp h)]
  | some f => simp

/-- In the listing every name of the layout stands as often as signatures have it. -/
theorem map_name_listing (layout : Layout) (signatures : List Signature) :
    (layout.listing signatures).map Signature.name = layout.names.flatMap fun name =>
      List.replicate ((signatures.map Signature.name).count name) name := by
  rw [listing, List.map_flatMap]
  apply List.flatMap_congr
  intro name _
  rw [List.eq_replicate_iff]
  constructor
  · rw [List.length_map, List.count, List.countP_map, ← List.countP_eq_length_filter]
    exact List.countP_congr fun f _ => by simp
  · intro x hx
    obtain ⟨f, hf, rfl⟩ := List.mem_map.mp hx
    exact of_decide_eq_true (List.mem_filter.mp hf).2

/-- Of signatures with different names at most one has a given name. -/
theorem filter_name_eq {fs : List Signature} (h : (fs.map Signature.name).Nodup)
    (name : Text) :
    (fs.filter fun f => f.name = name) = (fs.find? fun f => f.name = name).toList := by
  induction fs with
  | nil => rfl
  | cons f fs ih =>
    rw [List.map_cons, List.nodup_cons] at h
    by_cases hf : f.name = name
    · have hnone : (fs.filter fun f => f.name = name) = [] := by
        rw [List.filter_eq_nil_iff]
        intro g hg hname
        exact h.1 (hf.trans (of_decide_eq_true hname).symm ▸ List.mem_map_of_mem hg)
      rw [List.filter_cons_of_pos (by simpa using hf), List.find?_cons_of_pos (by simpa using hf),
        hnone]
      rfl
    · rw [List.filter_cons_of_neg (by simpa using hf), List.find?_cons_of_neg (by simpa using hf),
        ih h.2]

/-- A look-up by name finds the same signature in the listing. -/
theorem find?_listing (h : ∀ f ∈ signatures, f.name ∈ layout.names) (name : Text) :
    ((layout.listing signatures).find? fun f => f.name = name) =
      signatures.find? fun f => f.name = name := by
  rw [← sort_eq_listing h, find?_sort]

/-- The listing has the signatures whose names have slots. -/
theorem mem_listing {f : Signature} :
    f ∈ layout.listing signatures ↔ f ∈ signatures ∧ f.name ∈ layout.names := by
  simp [listing, and_comm]

end DispatchTable.Layout
