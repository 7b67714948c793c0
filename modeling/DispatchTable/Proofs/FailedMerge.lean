import DispatchTable.Proofs.Mismatch

/-!
# What a merge leaves

A pass revises its list from the front, and the first mismatch ends it: what stands before is
revised as in a complete merge, and what follows stays as it was. A mismatched plain signature stays
as it was too, while a mismatched extended one has its receiver named already. The receiver is left
out of a list of arguments only after the counts were compared, so there always is one.
-/

namespace DispatchTable

/-- Revise a list from the front by a revision that may have no result. -/
def Revision.mapList? (revise? : Signature → Option (Revision Signature)) :
    List Signature → Option (Revision (List Signature))
  | [] => some ⟨[], [], none⟩
  | f :: fs =>
    (revise? f).bind fun first =>
      match first.failure? with
      | some e => some ⟨first.value :: fs, first.log, some e⟩
      | none => (mapList? revise? fs).map fun others =>
        ⟨first.value :: others.value, first.log ++ others.log, others.failure?⟩

/-- A revision that always has a result gives one for the list. -/
theorem Revision.mapList?_eq_some {revise? : Signature → Option (Revision Signature)}
    {revise : Signature → Revision Signature} (h : ∀ f, revise? f = some (revise f))
    (fs : List Signature) : mapList? revise? fs = some (mapList revise fs) := by
  induction fs with
  | nil => rfl
  | cons f fs ih =>
    rw [mapList?, h, Option.bind_some, ih, mapList]
    cases (revise f).failure? <;> rfl

namespace Signature

/-- A plain signature with the types of its extended counterpart; there is no result if the receiver
were to be left out of a counterpart without arguments. -/
def retype? (extended : List Signature) (f : Signature) : Option (Revision Signature) :=
  match lastArgs? extended f.name with
  | none => some ⟨f, [.onlyPlain f.name], none⟩
  | some types =>
    if types.length = f.args.length + 1 then
      types.tail?.map fun types => ⟨{ f with args := copyTypes types f.args }, [], none⟩
    else some ⟨f, [], some (.arityMismatch f.name f.args.length types.length)⟩

/-- An extended signature with the names of its plain counterpart; there is no result if the
receiver were to be left out of no arguments. -/
def rename? (plain : List Signature) (f : Signature) : Option (Revision Signature) :=
  match f.args with
  | [] =>
    let count := ((lastArgs? plain f.name).map List.length).getD 0
    some ⟨f, [], some (.arityMismatch f.name count 0)⟩
  | self :: args =>
    let self := { self with name := receiver }
    let named := self :: args
    match lastArgs? plain f.name with
    | none =>
      let log := if named.length > 1 then [.unnamedArguments f.name] else []
      some ⟨{ f with args := named }, log, none⟩
    | some names =>
      if named.length = names.length + 1 then
        named.tail?.map fun args => ⟨{ f with args := self :: copyNames names args }, [], none⟩
      else
        some ⟨{ f with args := named }, [],
          some (.arityMismatch f.name names.length named.length)⟩

/-- A counterpart whose types are copied has a receiver. -/
theorem retype?_eq_some (extended : List Signature) (f : Signature) :
    retype? extended f = some (retype extended f) := by
  rw [retype?, retype]
  cases lastArgs? extended f.name with
  | none => rfl
  | some types =>
    by_cases hlen : types.length = f.args.length + 1
    · obtain ⟨self, types, rfl⟩ := List.exists_cons_of_length_eq_add_one hlen
      simp only [hlen, if_true, List.tail?_cons, Option.map_some, List.tail_cons]
    · simp only [hlen, if_false]

/-- An extended signature that gets names has a receiver. -/
theorem rename?_eq_some (plain : List Signature) (f : Signature) :
    rename? plain f = some (rename plain f) := by
  rw [rename?, rename]
  cases f.args with
  | nil => rfl
  | cons self args =>
    cases lastArgs? plain f.name with
    | none => cases args <;> simp
    | some names => by_cases hlen : args.length = names.length <;> simp [hlen]

end Signature

open Signature

/-- Merge the plain and the extended declarations of a table; there is no result if the receiver
were ever to be left out of no arguments. -/
def merge? (plain extended : List Signature) : Option Merged :=
  (Revision.mapList? (retype? extended) plain).bind fun plain' =>
    match plain'.failure? with
    | some e => some ⟨plain'.value, extended, plain'.log, some e⟩
    | none => (Revision.mapList? (rename? plain) extended).map fun extended' =>
      ⟨plain'.value, extended'.value, plain'.log ++ extended'.log, extended'.failure?⟩

/-- The receiver is never left out of no arguments. -/
theorem merge?_eq_some (plain extended : List Signature) :
    merge? plain extended = some (merge plain extended) := by
  rw [merge?, Revision.mapList?_eq_some (retype?_eq_some extended),
    Revision.mapList?_eq_some (rename?_eq_some plain), Option.bind_some, merge]
  cases (Revision.mapList (retype extended) plain).failure? <;> rfl

/-- A failure ends a pass: what stands before it is revised, what follows is not. -/
theorem Revision.mapList_append_cons {revise : Signature → Revision Signature}
    {revised : Signature → Signature} {before : List Signature} {f : Signature} {e : Failure}
    (hbefore : ∀ g ∈ before, (revise g).failure? = none ∧ (revise g).value = revised g)
    (hf : (revise f).failure? = some e) (after : List Signature) :
    (mapList revise (before ++ f :: after)).value =
        before.map revised ++ (revise f).value :: after ∧
      (mapList revise (before ++ f :: after)).failure? = some e := by
  induction before with
  | nil => simp [mapList, hf]
  | cons g before ih =>
    obtain ⟨⟨hg, hgvalue⟩, hbefore⟩ := List.forall_mem_cons.mp hbefore
    obtain ⟨hvalue, hfailure⟩ := ih hbefore
    simp only [List.cons_append, mapList, hg, hgvalue, hvalue, hfailure, List.map_cons, and_self]

namespace Signature

variable {plain extended before : List Signature} {f : Signature}

/-- An extended signature whose receiver has its name. -/
def nameReceiver (f : Signature) : Signature :=
  { f with args := f.args.modifyHead fun self => { self with name := receiver } }

/-- A plain signature that matches is retyped. -/
theorem retype_of_not_mismatched (h : ¬MismatchedPlain extended f) :
    (retype extended f).failure? = none ∧ (retype extended f).value = retyped extended f := by
  have hnone : (retype extended f).failure? = none :=
    Classical.not_not.mp fun hne => h (retype_failure?_ne_none_iff.mp hne)
  exact ⟨hnone, retype_value hnone⟩

/-- An extended signature that matches is renamed. -/
theorem rename_of_not_mismatched (h : ¬MismatchedExtended plain f) :
    (rename plain f).failure? = none ∧ (rename plain f).value = renamed plain f := by
  have hnone : (rename plain f).failure? = none :=
    Classical.not_not.mp fun hne => h (rename_failure?_ne_none_iff.mp hne)
  exact ⟨hnone, rename_value hnone⟩

/-- A mismatched plain signature stays as it is. -/
theorem MismatchedPlain.retype_value (h : MismatchedPlain extended f) :
    (retype extended f).value = f := by
  obtain ⟨x, hx, hlen⟩ := h
  simp [retype, lastArgs?_eq, hx, hlen]

/-- A mismatched extended signature has its receiver named, and no more. -/
theorem MismatchedExtended.rename_value (h : MismatchedExtended plain f) :
    (rename plain f).value = nameReceiver f := by
  obtain ⟨name, args⟩ := f
  cases args with
  | nil => rfl
  | cons self args =>
    obtain ⟨p, hp, hlen⟩ := h.resolve_left (List.cons_ne_nil self args)
    have hlen' : args.length ≠ p.args.length := by simpa using hlen
    simp [rename, lastArgs?_eq, hp, hlen', nameReceiver]

/-- The plain pass where no signature is mismatched. -/
theorem mapList_retype_of_forall (h : ∀ p ∈ plain, ¬MismatchedPlain extended p) :
    (Revision.mapList (retype extended) plain).value = plain.map (retyped extended) ∧
      (Revision.mapList (retype extended) plain).failure? = none := by
  have hnone : (Revision.mapList (retype extended) plain).failure? = none :=
    Revision.mapList_failure?_eq_none_iff.mpr fun p hp => (retype_of_not_mismatched (h p hp)).1
  refine ⟨?_, hnone⟩
  rw [Revision.mapList_value hnone]
  exact List.map_congr_left fun p hp => (retype_of_not_mismatched (h p hp)).2

/-- The plain pass up to the first signature that is mismatched. -/
theorem MismatchedPlain.mapList_retype (hp : MismatchedPlain extended f)
    (hbefore : ∀ q ∈ before, ¬MismatchedPlain extended q) (after : List Signature) :
    (Revision.mapList (retype extended) (before ++ f :: after)).value =
        before.map (retyped extended) ++ f :: after ∧
      (Revision.mapList (retype extended) (before ++ f :: after)).failure? =
        some (.arityMismatch f.name f.args.length (lastArity extended f.name)) := by
  have hpass := Revision.mapList_append_cons
    (fun q hq => retype_of_not_mismatched (hbefore q hq))
    (retype_failure?_eq_some_iff.mpr ⟨hp, rfl⟩) after
  rwa [hp.retype_value] at hpass

/-- The extended pass up to the first signature that is mismatched. -/
theorem MismatchedExtended.mapList_rename (hx : MismatchedExtended plain f)
    (hbefore : ∀ y ∈ before, ¬MismatchedExtended plain y) (after : List Signature) :
    (Revision.mapList (rename plain) (before ++ f :: after)).value =
        before.map (renamed plain) ++ f.nameReceiver :: after ∧
      (Revision.mapList (rename plain) (before ++ f :: after)).failure? =
        some (.arityMismatch f.name (lastArity plain f.name) f.args.length) := by
  have hpass := Revision.mapList_append_cons
    (fun y hy => rename_of_not_mismatched (hbefore y hy))
    (rename_failure?_eq_some_iff.mpr ⟨hx, rfl⟩) after
  rwa [hx.rename_value] at hpass

end Signature

/-- How a merge ends: what both lists are then, and what is reported. -/
inductive Leaves (plain extended : List Signature) :
    List Signature → List Signature → Option Failure → Prop where
  /-- All declarations of each name agree. -/
  | complete (h : Agree plain extended) :
    Leaves plain extended (plain.map (retyped extended)) (extended.map (renamed plain)) none
  /-- A plain signature is the first that is mismatched. -/
  | plain {before after : List Signature} {p : Signature} (heq : plain = before ++ p :: after)
    (hbefore : ∀ q ∈ before, ¬MismatchedPlain extended q) (hp : MismatchedPlain extended p) :
    Leaves plain extended (before.map (retyped extended) ++ p :: after) extended
      (some (.arityMismatch p.name p.args.length (lastArity extended p.name)))
  /-- No plain signature is mismatched, and an extended one is the first that is. -/
  | extended {before after : List Signature} {x : Signature}
    (hplain : ∀ p ∈ plain, ¬MismatchedPlain extended p) (heq : extended = before ++ x :: after)
    (hbefore : ∀ y ∈ before, ¬MismatchedExtended plain y) (hx : MismatchedExtended plain x) :
    Leaves plain extended (plain.map (retyped extended))
      (before.map (renamed plain) ++ x.nameReceiver :: after)
      (some (.arityMismatch x.name (lastArity plain x.name) x.args.length))

section Leaves

variable {plain extended plain' extended' : List Signature} {failure? : Option Failure}

/-- A merge ends in one of these ways. -/
theorem exists_leaves (plain extended : List Signature) :
    ∃ plain' extended' failure?, Leaves plain extended plain' extended' failure? := by
  cases h : (merge plain extended).failure? with
  | none => exact ⟨_, _, _, .complete (merge_failure?_eq_none_iff.mp h)⟩
  | some e =>
    cases merge_failure?_eq_some_iff.mp h with
    | plain hp =>
      obtain ⟨before, after, heq, hbefore, hp⟩ := hp
      exact ⟨_, _, _, .plain heq hbefore hp⟩
    | extended hplain hx =>
      obtain ⟨before, after, heq, hbefore, hx⟩ := hx
      exact ⟨_, _, _, .extended hplain heq hbefore hx⟩

/-- Each of these ways is what a merge does. -/
theorem Leaves.merge_eq (h : Leaves plain extended plain' extended' failure?) :
    (merge plain extended).plain = plain' ∧ (merge plain extended).extended = extended' ∧
      (merge plain extended).failure? = failure? := by
  cases h with
  | complete hagree =>
    exact ⟨merge_plain hagree, merge_extended hagree, merge_failure?_eq_none_iff.mpr hagree⟩
  | plain heq hbefore hp =>
    obtain ⟨hvalue, hfailure⟩ := hp.mapList_retype hbefore _
    rw [← heq] at hvalue hfailure
    rw [merge_of_failure?_eq_some hfailure, hvalue]
    exact ⟨rfl, rfl, rfl⟩
  | extended hplain heq hbefore hx =>
    obtain ⟨hvalue, hfailure⟩ := mapList_retype_of_forall hplain
    obtain ⟨hvalue', hfailure'⟩ := hx.mapList_rename hbefore _
    rw [← heq] at hvalue' hfailure'
    rw [merge_of_failure?_eq_none hfailure, hvalue, hvalue', hfailure']
    exact ⟨rfl, rfl, rfl⟩

end Leaves

/-- A merge never leaves the receiver out of no arguments. If it fails, it reports the first plain
signature that does not match the last extended one of its name, with both lists as they were but
for the plain signatures before it, which are retyped. Where there is none, it reports the first
extended signature that has no receiver or does not match the last plain one of its name, with all
plain signatures retyped, the extended ones before it renamed, and its own receiver named. -/
theorem merge_leaves (plain extended : List Signature) :
    merge? plain extended = some (merge plain extended) ∧
    ∀ plain' extended' failure?,
      ((merge plain extended).plain = plain' ∧ (merge plain extended).extended = extended' ∧
        (merge plain extended).failure? = failure?) ↔
      Leaves plain extended plain' extended' failure? := by
  refine ⟨merge?_eq_some plain extended, fun plain' extended' failure? => ⟨?_, Leaves.merge_eq⟩⟩
  rintro ⟨rfl, rfl, rfl⟩
  obtain ⟨plain', extended', failure?, h⟩ := exists_leaves plain extended
  obtain ⟨rfl, rfl, rfl⟩ := h.merge_eq
  exact h

/-- The second of three extended declarations lacks an argument: the first one is renamed, its own
receiver is named, and the third one, whose types have been copied, stays as it was. -/
example :
    merge [⟨['F'], [⟨['a'], ['T']⟩]⟩]
      [⟨['F'], [⟨[], ['S']⟩, ⟨[], ['U']⟩]⟩, ⟨['F'], [⟨[], ['S']⟩]⟩,
        ⟨['F'], [⟨[], ['S']⟩, ⟨[], ['V']⟩]⟩] =
    ⟨[⟨['F'], [⟨['a'], ['V']⟩]⟩],
      [⟨['F'], [⟨receiver, ['S']⟩, ⟨['a'], ['U']⟩]⟩, ⟨['F'], [⟨receiver, ['S']⟩]⟩,
        ⟨['F'], [⟨[], ['S']⟩, ⟨[], ['V']⟩]⟩], [], some (.arityMismatch ['F'] 1 1)⟩ := by decide

end DispatchTable
