import DispatchTable.Merge
import Mathlib.Data.List.Forall2

/-!
# What a merge leaves

A merge looks at the last counterpart of a name only. Nevertheless it succeeds exactly when all
declarations of a name agree in their numbers of arguments, since both passes look at the two last
declarations. What a successful merge leaves is the original lists, revised signature by signature:
`retyped` and `renamed` say how, without the failures.
-/

namespace DispatchTable

namespace Revision

variable {revise : Signature → Revision Signature} {fs : List Signature}

/-- A list is revised to its end exactly when no signature of it fails. -/
theorem mapList_failure?_eq_none_iff :
    (mapList revise fs).failure? = none ↔ ∀ f ∈ fs, (revise f).failure? = none := by
  induction fs with
  | nil => simp [mapList]
  | cons f fs ih =>
    rw [List.forall_mem_cons, ← ih]
    cases h : (revise f).failure? with
    | none => simp [mapList, h]
    | some e => simp [mapList, h]

/-- A list that is revised to its end has every signature revised. -/
theorem mapList_value (h : (mapList revise fs).failure? = none) :
    (mapList revise fs).value = fs.map fun f => (revise f).value := by
  induction fs with
  | nil => rfl
  | cons f fs ih =>
    have hall := mapList_failure?_eq_none_iff.mp h
    have hf : (revise f).failure? = none := hall f List.mem_cons_self
    have hfs : (mapList revise fs).failure? = none :=
      mapList_failure?_eq_none_iff.mpr fun g hg => hall g (List.mem_cons_of_mem f hg)
    simp only [mapList, hf, List.map_cons, ih hfs]

/-- What a revision to the end reports is what is reported of each signature, in their order. -/
theorem mapList_log (h : (mapList revise fs).failure? = none) :
    (mapList revise fs).log = fs.flatMap fun f => (revise f).log := by
  induction fs with
  | nil => rfl
  | cons f fs ih =>
    obtain ⟨hf, hall⟩ := List.forall_mem_cons.mp (mapList_failure?_eq_none_iff.mp h)
    simp only [mapList, hf, List.flatMap_cons, ih (mapList_failure?_eq_none_iff.mpr hall)]

end Revision

namespace Signature

/-- The last signature of a name. -/
def last? (signatures : List Signature) (name : Text) : Option Signature :=
  (signatures.filter fun f => f.name = name).getLast?

/-- The arguments that a merge looks up are those of the last signature of the name. -/
theorem lastArgs?_eq (signatures : List Signature) (name : Text) :
    lastArgs? signatures name = (last? signatures name).map args := by
  rw [lastArgs?, last?, List.getLast?_eq_head?_reverse, ← List.filter_reverse, List.head?_filter]

/-- The last signature of a name is in the list and has the name. -/
theorem last?_eq_some {signatures : List Signature} {name : Text} {f : Signature}
    (h : last? signatures name = some f) : f ∈ signatures ∧ f.name = name := by
  have hf := List.mem_filter.mp (List.mem_of_getLast? h)
  exact ⟨hf.1, of_decide_eq_true hf.2⟩

/-- There is no last signature of a name exactly when there is none at all. -/
theorem last?_eq_none_iff {signatures : List Signature} {name : Text} :
    last? signatures name = none ↔ ∀ f ∈ signatures, f.name ≠ name := by
  simp [last?]

/-- Every signature of a list has a last one of its name. -/
theorem exists_last? {signatures : List Signature} {f : Signature} (hf : f ∈ signatures) :
    ∃ g, last? signatures f.name = some g := by
  cases h : last? signatures f.name with
  | none => exact absurd rfl (last?_eq_none_iff.mp h f hf)
  | some g => exact ⟨g, rfl⟩

section Copying

variable {sources args : List Argument}

private theorem zipWith_left {α β γ : Type} (f : α → γ) {as : List α} {bs : List β}
    (h : bs.length = as.length) : List.zipWith (fun a _ => f a) as bs = as.map f := by
  induction as generalizing bs with
  | nil => rfl
  | cons a as ih =>
    obtain ⟨b, bs, rfl⟩ := List.exists_cons_of_length_eq_add_one h
    rw [List.zipWith_cons_cons, ih (by simpa using h), List.map_cons]

private theorem zipWith_right {α β γ : Type} (f : β → γ) {as : List α} {bs : List β}
    (h : bs.length = as.length) : List.zipWith (fun _ b => f b) as bs = bs.map f := by
  rw [List.zipWith_comm, zipWith_left f h.symm]

/-- Copying types keeps the names, as long as there is a source for every argument. -/
theorem map_name_copyTypes (h : sources.length = args.length) :
    (copyTypes sources args).map Argument.name = args.map Argument.name := by
  rw [copyTypes, List.map_zipWith]
  exact zipWith_left Argument.name h

/-- Copied types are the types of the sources. -/
theorem map_type_copyTypes (h : sources.length = args.length) :
    (copyTypes sources args).map Argument.type = sources.map Argument.type := by
  rw [copyTypes, List.map_zipWith]
  exact zipWith_right Argument.type h

/-- Copying names keeps the types, as long as there is a source for every argument. -/
theorem map_type_copyNames (h : sources.length = args.length) :
    (copyNames sources args).map Argument.type = args.map Argument.type := by
  rw [copyNames, List.map_zipWith]
  exact zipWith_left Argument.type h

/-- Copied names are the names of the sources. -/
theorem map_name_copyNames (h : sources.length = args.length) :
    (copyNames sources args).map Argument.name = sources.map Argument.name := by
  rw [copyNames, List.map_zipWith]
  exact zipWith_right Argument.name h

end Copying

/-- Whether every extended signature has a receiver and one argument more than each plain signature
of its name. -/
def Agree (plain extended : List Signature) : Prop :=
  (∀ x ∈ extended, x.args ≠ []) ∧
    ∀ p ∈ plain, ∀ x ∈ extended, x.name = p.name → x.args.length = p.args.length + 1

/-- A plain signature with the types of the last extended one of its name. -/
def retyped (extended : List Signature) (f : Signature) : Signature :=
  match last? extended f.name with
  | none => f
  | some x => { f with args := copyTypes x.args.tail f.args }

/-- An extended signature with a named receiver and the names of the last plain signature of its
name. -/
def renamed (plain : List Signature) (f : Signature) : Signature :=
  match f.args with
  | [] => f
  | self :: args =>
    { f with args := { self with name := receiver } ::
        match last? plain f.name with
        | none => args
        | some p => copyNames p.args args }

@[simp] theorem retyped_name (extended : List Signature) (f : Signature) :
    (retyped extended f).name = f.name := by
  unfold retyped
  split <;> rfl

@[simp] theorem renamed_name (plain : List Signature) (f : Signature) :
    (renamed plain f).name = f.name := by
  unfold renamed
  split <;> rfl

/-- A plain signature is revised exactly when the last extended one of its name has one argument
more. -/
theorem retype_failure?_eq_none_iff {extended : List Signature} {f : Signature} :
    (retype extended f).failure? = none ↔
      ∀ x, last? extended f.name = some x → x.args.length = f.args.length + 1 := by
  rw [retype, lastArgs?_eq]
  cases h : last? extended f.name with
  | none => simp
  | some x =>
    by_cases hlen : x.args.length = f.args.length + 1 <;> simp [hlen]

/-- What a revised plain signature is. -/
theorem retype_value {extended : List Signature} {f : Signature}
    (h : (retype extended f).failure? = none) : (retype extended f).value = retyped extended f := by
  rw [retype_failure?_eq_none_iff] at h
  rw [retype, retyped, lastArgs?_eq]
  cases hx : last? extended f.name with
  | none => rfl
  | some x => simp [h x hx]

/-- An extended signature is revised exactly when it has a receiver, and one argument more than the
last plain one of its name. -/
theorem rename_failure?_eq_none_iff {plain : List Signature} {f : Signature} :
    (rename plain f).failure? = none ↔
      f.args ≠ [] ∧ ∀ p, last? plain f.name = some p → f.args.length = p.args.length + 1 := by
  rw [rename, lastArgs?_eq]
  cases hargs : f.args with
  | nil => simp
  | cons self args =>
    cases h : last? plain f.name with
    | none => simp
    | some p =>
      by_cases hlen : args.length = p.args.length <;> simp [hlen]

/-- What a revised extended signature is. -/
theorem rename_value {plain : List Signature} {f : Signature}
    (h : (rename plain f).failure? = none) : (rename plain f).value = renamed plain f := by
  rw [rename_failure?_eq_none_iff] at h
  rw [rename, renamed, lastArgs?_eq]
  cases hargs : f.args with
  | nil => exact absurd hargs h.1
  | cons self args =>
    cases hp : last? plain f.name with
    | none => rfl
    | some p =>
      have hlen : args.length = p.args.length := by
        have := h.2 p hp
        rw [hargs, List.length_cons] at this
        omega
      simp [hlen]

end Signature

open Signature

/-- A failure in the plain pass ends the merge. -/
theorem merge_of_failure?_eq_some {plain extended : List Signature} {e : Failure}
    (h : (Revision.mapList (retype extended) plain).failure? = some e) :
    merge plain extended =
      ⟨(Revision.mapList (retype extended) plain).value, extended,
        (Revision.mapList (retype extended) plain).log, some e⟩ := by
  simp only [merge, h]

/-- After the plain pass, the extended pass ends the merge. -/
theorem merge_of_failure?_eq_none {plain extended : List Signature}
    (h : (Revision.mapList (retype extended) plain).failure? = none) :
    merge plain extended =
      ⟨(Revision.mapList (retype extended) plain).value,
        (Revision.mapList (rename plain) extended).value,
        (Revision.mapList (retype extended) plain).log ++
          (Revision.mapList (rename plain) extended).log,
        (Revision.mapList (rename plain) extended).failure?⟩ := by
  simp only [merge, h]

private theorem merge_failure?_eq_none_iff_forall {plain extended : List Signature} :
    (merge plain extended).failure? = none ↔
      (∀ p ∈ plain, (retype extended p).failure? = none) ∧
        ∀ x ∈ extended, (rename plain x).failure? = none := by
  rw [← Revision.mapList_failure?_eq_none_iff, ← Revision.mapList_failure?_eq_none_iff, merge]
  cases h : (Revision.mapList (retype extended) plain).failure? <;> simp

/-- A merge succeeds exactly when all declarations of a name agree, although each is compared with
the last one of the other side only. -/
theorem merge_failure?_eq_none_iff {plain extended : List Signature} :
    (merge plain extended).failure? = none ↔ Agree plain extended := by
  rw [merge_failure?_eq_none_iff_forall]
  simp only [retype_failure?_eq_none_iff, rename_failure?_eq_none_iff]
  constructor
  · rintro ⟨hplain, hextended⟩
    refine ⟨fun x hx => (hextended x hx).1, ?_⟩
    intro p hp x hx hname
    obtain ⟨x', hx'⟩ := exists_last? hx
    obtain ⟨p', hp'⟩ := exists_last? hp
    obtain ⟨hmem, hname'⟩ := last?_eq_some hp'
    have hxp' : x.args.length = p'.args.length + 1 := (hextended x hx).2 p' (hname ▸ hp')
    have hx'p : x'.args.length = p.args.length + 1 := hplain p hp x' (hname ▸ hx')
    have hx'p' : x'.args.length = p'.args.length + 1 :=
      hplain p' hmem x' (by rw [hname', ← hname, hx'])
    omega
  · rintro ⟨hreceiver, hagree⟩
    constructor
    · intro p hp x hx
      obtain ⟨hmem, hname⟩ := last?_eq_some hx
      exact hagree p hp x hmem hname
    · intro x hx
      refine ⟨hreceiver x hx, fun p hp => ?_⟩
      obtain ⟨hmem, hname⟩ := last?_eq_some hp
      exact hagree p hmem x hx hname.symm

/-- What a successful merge leaves on the plain side. -/
theorem merge_plain {plain extended : List Signature} (h : Agree plain extended) :
    (merge plain extended).plain = plain.map (retyped extended) := by
  have hall := (merge_failure?_eq_none_iff_forall.mp (merge_failure?_eq_none_iff.mpr h)).1
  have hrun := Revision.mapList_failure?_eq_none_iff.mpr hall
  simp only [merge, hrun, Revision.mapList_value hrun]
  exact List.map_congr_left fun p hp => retype_value (hall p hp)

/-- What a successful merge leaves on the extended side. -/
theorem merge_extended {plain extended : List Signature} (h : Agree plain extended) :
    (merge plain extended).extended = extended.map (renamed plain) := by
  obtain ⟨hplain, hall⟩ := merge_failure?_eq_none_iff_forall.mp (merge_failure?_eq_none_iff.mpr h)
  have hrun := Revision.mapList_failure?_eq_none_iff.mpr hplain
  have hrun' := Revision.mapList_failure?_eq_none_iff.mpr hall
  simp only [merge, hrun, Revision.mapList_value hrun']
  exact List.map_congr_left fun x hx => rename_value (hall x hx)

/-- What a successful merge reports: what is reported of each plain signature, and then of each
extended one. -/
theorem merge_log {plain extended : List Signature} (h : Agree plain extended) :
    (merge plain extended).log = (plain.flatMap fun p => (retype extended p).log) ++
      extended.flatMap fun x => (rename plain x).log := by
  obtain ⟨hplain, hall⟩ := merge_failure?_eq_none_iff_forall.mp (merge_failure?_eq_none_iff.mpr h)
  have hrun := Revision.mapList_failure?_eq_none_iff.mpr hplain
  have hrun' := Revision.mapList_failure?_eq_none_iff.mpr hall
  simp only [merge, hrun, Revision.mapList_log hrun, Revision.mapList_log hrun']

/-- How a plain signature `p'` after a merge stands to the signature `p` before it. -/
structure Retyped (extended : List Signature) (p p' : Signature) : Prop where
  name_eq : p'.name = p.name
  names_eq : p'.args.map Argument.name = p.args.map Argument.name
  /-- The types are those of the last extended signature, the receiver left out. -/
  types_eq : ∀ x, last? extended p.name = some x →
    p'.args.map Argument.type = x.args.tail.map Argument.type
  eq_of_alone : (∀ x ∈ extended, x.name ≠ p.name) → p' = p

/-- How an extended signature `x'` after a merge stands to the signature `x` before it. -/
structure Renamed (plain : List Signature) (x x' : Signature) : Prop where
  name_eq : x'.name = x.name
  types_eq : x'.args.map Argument.type = x.args.map Argument.type
  /-- The names are those of the last plain signature, after the name of the receiver. -/
  names_eq : ∀ p, last? plain x.name = some p →
    x'.args.map Argument.name = receiver :: p.args.map Argument.name
  names_eq_of_alone : (∀ p ∈ plain, p.name ≠ x.name) →
    x'.args.map Argument.name = receiver :: x.args.tail.map Argument.name

/-- Where the declarations agree, every plain signature is retyped. -/
theorem Signature.Agree.retyped {plain extended : List Signature} (h : Agree plain extended)
    {p : Signature} (hp : p ∈ plain) : Retyped extended p (retyped extended p) := by
  cases hx : last? extended p.name with
  | none =>
    have he : Signature.retyped extended p = p := by rw [Signature.retyped, hx]
    rw [he]
    exact ⟨rfl, rfl, fun x hx' => absurd (hx.symm.trans hx') nofun, fun _ => rfl⟩
  | some x =>
    obtain ⟨hmem, hname⟩ := last?_eq_some hx
    have he : Signature.retyped extended p = { p with args := copyTypes x.args.tail p.args } := by
      rw [Signature.retyped, hx]
    have hlen : x.args.tail.length = p.args.length := by
      rw [List.length_tail, h.2 p hp x hmem hname, Nat.add_sub_cancel]
    rw [he]
    refine ⟨rfl, map_name_copyTypes hlen, ?_, fun hne => absurd hname (hne x hmem)⟩
    intro x' hx'
    obtain rfl : x = x' := Option.some.inj (hx.symm.trans hx')
    exact map_type_copyTypes hlen

/-- Where the declarations agree, every extended signature is renamed. -/
theorem Signature.Agree.renamed {plain extended : List Signature} (h : Agree plain extended)
    {x : Signature} (hx : x ∈ extended) : Renamed plain x (renamed plain x) := by
  obtain ⟨self, args, hargs⟩ := List.exists_cons_of_ne_nil (h.1 x hx)
  cases hp : last? plain x.name with
  | none =>
    have he : Signature.renamed plain x =
        { x with args := { self with name := receiver } :: args } := by
      simp only [Signature.renamed, hargs, hp]
    rw [he]
    refine ⟨rfl, by simp [hargs], fun p hp' => absurd (hp.symm.trans hp') nofun, fun _ => ?_⟩
    simp [hargs]
  | some p =>
    obtain ⟨hmem, hname⟩ := last?_eq_some hp
    have he : Signature.renamed plain x =
        { x with args := { self with name := receiver } :: copyNames p.args args } := by
      simp only [Signature.renamed, hargs, hp]
    have hlen : p.args.length = args.length := by
      have hx' := h.2 p hmem x hx hname.symm
      rw [hargs, List.length_cons] at hx'
      omega
    rw [he]
    refine ⟨rfl, ?_, ?_, fun hne => absurd hname (hne p hmem)⟩
    · simp [hargs, map_type_copyNames hlen]
    · intro p' hp'
      obtain rfl : p = p' := Option.some.inj (hp.symm.trans hp')
      simp [map_name_copyNames hlen]

/-- A merge succeeds exactly when every extended signature has a receiver and exceeds every plain
one of its name by one argument. Then it keeps both lists but for types on the plain side and names
on the extended side, and these come from the last counterpart, argument by argument. -/
theorem merge_exact (plain extended : List Signature) :
    ((merge plain extended).failure? = none ↔
      (∀ x ∈ extended, x.args ≠ []) ∧
        ∀ p ∈ plain, ∀ x ∈ extended, x.name = p.name →
          x.args.length = p.args.length + 1) ∧
    ((merge plain extended).failure? = none →
      List.Forall₂ (Retyped extended) plain (merge plain extended).plain ∧
        List.Forall₂ (Renamed plain) extended (merge plain extended).extended) := by
  refine ⟨merge_failure?_eq_none_iff, fun h => ?_⟩
  have hagree : Agree plain extended := merge_failure?_eq_none_iff.mp h
  rw [merge_plain hagree, merge_extended hagree]
  constructor
  · rw [List.forall₂_map_right_iff, List.forall₂_same]
    exact fun p hp => hagree.retyped hp
  · rw [List.forall₂_map_right_iff, List.forall₂_same]
    exact fun x hx => hagree.renamed hx

end DispatchTable
