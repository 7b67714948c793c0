import DispatchTable.Proofs.Merge
import DispatchTable.Proofs.Sequence

/-!
# The mismatch that ends a merge

A merge that fails reports the first plain signature that does not match the last extended one of
its name, and if there is none, the first extended signature that has no receiver or does not match
the last plain one of its name. The reported counts are its own and that of the last counterpart.
-/

namespace DispatchTable

/-- A list is revised up to the first signature that fails. -/
theorem Revision.mapList_failure?_eq_some_iff {revise : Signature → Revision Signature}
    {fs : List Signature} {e : Failure} :
    (mapList revise fs).failure? = some e ↔
      ∃ f, IsFirst (fun f => (revise f).failure? ≠ none) fs f ∧ (revise f).failure? = some e := by
  induction fs with
  | nil => simp [mapList, not_isFirst_nil]
  | cons f fs ih =>
    simp only [isFirst_cons]
    cases h : (revise f).failure? with
    | none => simp [mapList, h, ih]
    | some e' => simp [mapList, h]

namespace Signature

/-- Whether a plain signature does not match the last extended one of its name. -/
def MismatchedPlain (extended : List Signature) (p : Signature) : Prop :=
  ∃ x, last? extended p.name = some x ∧ x.args.length ≠ p.args.length + 1

/-- Whether an extended signature has no receiver or does not match the last plain one of its
name. -/
def MismatchedExtended (plain : List Signature) (x : Signature) : Prop :=
  x.args = [] ∨ ∃ p, last? plain x.name = some p ∧ x.args.length ≠ p.args.length + 1

/-- The number of arguments of the last signature of a name; zero if there is none. -/
def lastArity (signatures : List Signature) (name : Text) : Nat :=
  ((last? signatures name).map fun f => f.args.length).getD 0

/-- The failure of a plain signature gives its own count and that of its counterpart. -/
theorem retype_failure?_eq_some_iff {extended : List Signature} {p : Signature} {e : Failure} :
    (retype extended p).failure? = some e ↔ MismatchedPlain extended p ∧
      e = .arityMismatch p.name p.args.length (lastArity extended p.name) := by
  rw [retype, lastArgs?_eq, MismatchedPlain, lastArity]
  cases last? extended p.name with
  | none => simp
  | some x =>
    by_cases hlen : x.args.length = p.args.length + 1 <;> simp [hlen, eq_comm]

/-- The failure of an extended signature gives the count of its counterpart and its own. -/
theorem rename_failure?_eq_some_iff {plain : List Signature} {x : Signature} {e : Failure} :
    (rename plain x).failure? = some e ↔ MismatchedExtended plain x ∧
      e = .arityMismatch x.name (lastArity plain x.name) x.args.length := by
  rw [rename, lastArgs?_eq, MismatchedExtended, lastArity]
  cases hargs : x.args with
  | nil => cases last? plain x.name <;> simp [eq_comm]
  | cons self args =>
    cases last? plain x.name with
    | none => simp
    | some p =>
      by_cases hlen : args.length = p.args.length <;> simp [hlen, eq_comm]

/-- The mismatch that a merge meets first. -/
inductive FirstMismatch (plain extended : List Signature) : Failure → Prop where
  /-- The plain signatures are compared first. -/
  | plain {p : Signature} (hp : IsFirst (MismatchedPlain extended) plain p) :
    FirstMismatch plain extended
      (.arityMismatch p.name p.args.length (lastArity extended p.name))
  /-- Where all of these match, the extended ones are compared. -/
  | extended {x : Signature} (hplain : ∀ p ∈ plain, ¬MismatchedPlain extended p)
    (hx : IsFirst (MismatchedExtended plain) extended x) :
    FirstMismatch plain extended (.arityMismatch x.name (lastArity plain x.name) x.args.length)

end Signature

open Signature

/-- A plain signature fails exactly if it is mismatched. -/
theorem retype_failure?_ne_none_iff {extended : List Signature} {p : Signature} :
    (retype extended p).failure? ≠ none ↔ MismatchedPlain extended p := by
  simp [Option.ne_none_iff_exists', retype_failure?_eq_some_iff]

/-- An extended signature fails exactly if it is mismatched. -/
theorem rename_failure?_ne_none_iff {plain : List Signature} {x : Signature} :
    (rename plain x).failure? ≠ none ↔ MismatchedExtended plain x := by
  simp [Option.ne_none_iff_exists', rename_failure?_eq_some_iff]

/-- A merge fails exactly with the mismatch that it meets first. -/
theorem merge_failure?_eq_some_iff {plain extended : List Signature} {e : Failure} :
    (merge plain extended).failure? = some e ↔ FirstMismatch plain extended e := by
  have hplain : ∀ e, (Revision.mapList (retype extended) plain).failure? = some e ↔
      ∃ p, IsFirst (MismatchedPlain extended) plain p ∧
        e = .arityMismatch p.name p.args.length (lastArity extended p.name) := by
    intro e
    simp only [Revision.mapList_failure?_eq_some_iff, retype_failure?_ne_none_iff,
      retype_failure?_eq_some_iff]
    exact exists_congr fun p => and_congr_right fun hp => and_iff_right hp.mem.2
  have hextended : (Revision.mapList (rename plain) extended).failure? = some e ↔
      ∃ x, IsFirst (MismatchedExtended plain) extended x ∧
        e = .arityMismatch x.name (lastArity plain x.name) x.args.length := by
    simp only [Revision.mapList_failure?_eq_some_iff, rename_failure?_ne_none_iff,
      rename_failure?_eq_some_iff]
    exact exists_congr fun x => and_congr_right fun hx => and_iff_right hx.mem.2
  rw [merge]
  cases h : (Revision.mapList (retype extended) plain).failure? with
  | some e' =>
    obtain ⟨p, hp, rfl⟩ := (hplain e').mp h
    constructor
    · intro he
      obtain rfl := Option.some.inj he
      exact .plain hp
    · rintro (hp' | ⟨hnone, _⟩)
      · exact h.symm.trans ((hplain _).mpr ⟨_, hp', rfl⟩)
      · exact absurd hp.mem.2 (hnone p hp.mem.1)
  | none =>
    have hnone : ∀ p ∈ plain, ¬MismatchedPlain extended p := fun p hp hmismatch =>
      retype_failure?_ne_none_iff.mpr hmismatch
        (Revision.mapList_failure?_eq_none_iff.mp h p hp)
    constructor
    · intro he
      obtain ⟨x, hx, rfl⟩ := hextended.mp he
      exact .extended hnone hx
    · rintro (hp' | ⟨_, hx⟩)
      · exact absurd hp'.mem.2 (hnone _ hp'.mem.1)
      · exact hextended.mpr ⟨_, hx, rfl⟩

end DispatchTable
