import DispatchTable.Proofs.Rearrangement

/-!
# Arranging a list where it stands

Arranging ends in one of two ways. Where every signature has a slot, the list becomes its listing:
slot by slot, the signatures of the name in the order they had. Where one has none, the list stays
as it was, and the first such signature is reported. Either way nothing is lost or added, the
signatures of one name keep their order, and arranging again changes nothing.
-/

namespace DispatchTable.Layout

open Signature

variable {layout : Layout} {table : Text} {fs : List Signature}
  {result : List Signature × Option Failure}

/-- How arranging ends: what the list is then, and what is reported. -/
inductive Rearranges (layout : Layout) (table : Text) (fs : List Signature) :
    List Signature × Option Failure → Prop where
  /-- Every signature has a slot, and they are listed slot by slot. -/
  | listed (hslots : ∀ f ∈ fs, f.name ∈ layout.names) :
    Rearranges layout table fs
      (layout.names.flatMap fun name => fs.filter fun f => f.name = name, none)
  /-- A signature has no slot, and the list stays as it was. -/
  | missing {f : Signature} (hf : IsFirst (fun f => f.name ∉ layout.names) fs f) :
    Rearranges layout table fs (fs, some (.missingSlot f.name table))

/-- Arranging ends in one of these ways. -/
theorem rearranges (layout : Layout) (table : Text) (fs : List Signature) :
    Rearranges layout table fs (layout.rearrange table fs) := by
  rw [rearrange]
  cases h : layout.arrange table fs with
  | ok sorted =>
    obtain ⟨hslots, rfl⟩ := arrange_eq_ok_iff.mp h
    exact .listed hslots
  | error e =>
    obtain ⟨f, hf, rfl⟩ := arrange_eq_error_iff.mp h
    exact .missing hf

/-- Arranging ends in no other way. -/
theorem Rearranges.eq (h : Rearranges layout table fs result) :
    layout.rearrange table fs = result := by
  rw [rearrange]
  cases h with
  | listed hslots => rw [arrange_eq_ok_iff.mpr ⟨hslots, rfl⟩, listing]
  | missing hf => rw [arrange_eq_error_iff.mpr ⟨_, hf, rfl⟩]

/-- A list fails to be arranged exactly if a signature of it has no slot. -/
theorem Rearranges.failure_ne_none_iff (h : Rearranges layout table fs result) :
    result.2 ≠ none ↔ ∃ f ∈ fs, f.name ∉ layout.names := by
  cases h with
  | listed hslots => simpa using hslots
  | missing hf => simpa using ⟨_, hf.mem⟩

/-- Arranging keeps the signatures of each name and their order. -/
theorem Rearranges.sameByName (h : Rearranges layout table fs result) :
    SameByName result.1 fs := by
  cases h with
  | listed hslots => exact sameByName_listing hslots
  | missing _ => exact fun _ => rfl

/-- Arranging neither loses nor adds a signature. -/
theorem Rearranges.perm (h : Rearranges layout table fs result) : result.1.Perm fs := by
  cases h with
  | listed hslots => exact listing_perm hslots
  | missing _ => exact List.Perm.refl fs

/-- A listing is arranged already. -/
theorem rearrange_listing (hslots : ∀ f ∈ fs, f.name ∈ layout.names) :
    layout.rearrange table (layout.listing fs) = (layout.listing fs, none) := by
  have hmem : ∀ f ∈ layout.listing fs, f.name ∈ layout.names := fun f hf => (mem_listing.mp hf).2
  have hagain : layout.listing (layout.listing fs) = layout.listing fs :=
    (sameByName_listing hslots).listing_eq layout
  calc layout.rearrange table (layout.listing fs)
      = (layout.listing (layout.listing fs), none) := (Rearranges.listed hmem).eq
    _ = (layout.listing fs, none) := by rw [hagain]

/-- Arranging again changes nothing and ends in the same way. -/
theorem rearrange_rearrange (layout : Layout) (table : Text) (fs : List Signature) :
    layout.rearrange table (layout.rearrange table fs).1 = layout.rearrange table fs := by
  have h := rearranges layout table fs
  generalize hresult : layout.rearrange table fs = result at h ⊢
  cases h with
  | listed hslots => exact rearrange_listing hslots
  | missing _ => exact hresult

/-- Slots without a signature add nothing to the listing. -/
theorem flatMap_filter_used (names : List Text) (fs : List Signature) :
    ((names.filter fun name => ∃ f ∈ fs, f.name = name).flatMap fun name =>
      fs.filter fun f => f.name = name) =
    names.flatMap fun name => fs.filter fun f => f.name = name := by
  induction names with
  | nil => rfl
  | cons name names ih =>
    rw [List.flatMap_cons, ← ih]
    by_cases hused : ∃ f ∈ fs, f.name = name
    · rw [List.filter_cons_of_pos (by simpa using hused), List.flatMap_cons]
    · have hnone : (fs.filter fun f => f.name = name) = [] := by simpa using hused
      rw [List.filter_cons_of_neg (by simpa using hused), hnone, List.nil_append]

/-- Arranging fails exactly if a signature has no slot; it reports the first such signature then and
leaves the list as it was. Otherwise the list becomes its listing, slot by slot, to which slots
without a signature add nothing. It is a permutation that keeps the order within each name, and a
second arrangement changes nothing. -/
theorem rearrange_by_slots (layout : Layout) (table : Text) (fs : List Signature) :
    ((layout.rearrange table fs).2 ≠ none ↔ ∃ f ∈ fs, f.name ∉ layout.names) ∧
    (∀ result, layout.rearrange table fs = result ↔ Rearranges layout table fs result) ∧
    ((layout.names.filter fun name => ∃ f ∈ fs, f.name = name).flatMap fun name =>
      fs.filter fun f => f.name = name) =
      (layout.names.flatMap fun name => fs.filter fun f => f.name = name) ∧
    (layout.rearrange table fs).1.Perm fs ∧
    (∀ name, ((layout.rearrange table fs).1.filter fun f => f.name = name) =
      fs.filter fun f => f.name = name) ∧
    layout.rearrange table (layout.rearrange table fs).1 = layout.rearrange table fs := by
  have h := rearranges layout table fs
  refine ⟨h.failure_ne_none_iff, fun result => ⟨?_, Rearranges.eq⟩, flatMap_filter_used _ fs,
    h.perm, h.sameByName, rearrange_rearrange layout table fs⟩
  rintro rfl
  exact h

end DispatchTable.Layout
