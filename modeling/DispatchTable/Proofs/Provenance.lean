import DispatchTable.Proofs.Interface

/-!
# Where names and types come from

In an interface every extended function has a named receiver and one argument more than the plain
function that is found by its name. Beyond the receiver the two have the same arguments, unless the
headers declare the name more than once and differently: a merge copies from the last declaration,
and a look-up finds the first.
-/

namespace DispatchTable

open Signature

/-- Arguments are equal when their names and their types are. -/
theorem args_eq_iff {as bs : List Argument} :
    as = bs ↔ as.map Argument.name = bs.map Argument.name ∧
      as.map Argument.type = bs.map Argument.type := by
  constructor
  · rintro rfl
    exact ⟨rfl, rfl⟩
  · rintro ⟨hname, htype⟩
    induction as generalizing bs with
    | nil => exact (List.map_eq_nil_iff.mp hname.symm).symm
    | cons a as ih =>
      cases bs with
      | nil => simp at hname
      | cons b bs =>
        simp only [List.map_cons, List.cons.injEq] at hname htype
        have hab : a = b := by
          cases a
          cases b
          exact congrArg₂ Argument.mk hname.1 htype.1
        rw [hab, ih hname.2 htype.2]

/-- Arguments stand one place later in a list that has them after its first element. -/
theorem getElem?_succ_of_tail_iff {α : Type} {as bs : List α} (h : bs.length = as.length + 1) :
    (∀ k a, as[k]? = some a → bs[k + 1]? = some a) ↔ as = bs.tail := by
  obtain ⟨b, bs, rfl⟩ := List.exists_cons_of_length_eq_add_one h
  simp only [List.getElem?_cons_succ, List.tail_cons]
  constructor
  · intro hall
    apply List.ext_getElem?
    intro k
    by_cases hk : k < as.length
    · rw [List.getElem?_eq_getElem hk, hall k as[k] (List.getElem?_eq_getElem hk)]
    · have hk' : bs.length ≤ k := by
        simp only [List.length_cons] at h
        omega
      rw [List.getElem?_eq_none hk', List.getElem?_eq_none (by omega)]
  · rintro rfl k a ha
    exact ha

namespace Signature

/-- Whether all that is declared under a name agrees: the first and the last plain signature in the
names of the arguments, and every extended one with the last in the types after the receiver. -/
def Unambiguous (plain extended : List Signature) (name : Text) : Prop :=
  ∀ first last x last', plain.find? (fun f => f.name = name) = some first →
    last? plain name = some last → x ∈ extended → x.name = name →
    last? extended name = some last' →
    first.args.map Argument.name = last.args.map Argument.name ∧
      x.args.tail.map Argument.type = last'.args.tail.map Argument.type

end Signature

namespace Interface

variable {functions functions' : List Signature} {layout layout' : Layout}

/-- The plain function that is found by a name is the first one declared, retyped. -/
theorem plain?_listing (h : ∀ p ∈ functions, p.name ∈ layout.names) (extended : List Signature)
    (name : Text) :
    plain? ⟨layout.listing (functions.map (retyped functions')), extended⟩ name =
      (functions.find? fun f => f.name = name).map (retyped functions') := by
  have hmem : ∀ p ∈ functions.map (retyped functions'), p.name ∈ layout.names := by
    simpa only [List.forall_mem_map, retyped_name] using h
  rw [plain?, Layout.find?_listing hmem, List.find?_map]
  congr 2
  funext f
  simp only [Function.comp_apply, retyped_name]

private theorem retyped_args_eq_iff {p x last last' : Signature} (h : Agree functions functions')
    (hp : p ∈ functions) (hx : x ∈ functions')
    (hlast : last? functions x.name = some last) (hlast' : last? functions' p.name = some last') :
    (retyped functions' p).args = (renamed functions x).args.tail ↔
      p.args.map Argument.name = last.args.map Argument.name ∧
        x.args.tail.map Argument.type = last'.args.tail.map Argument.type := by
  have hp' := h.retyped hp
  have hx' := h.renamed hx
  rw [args_eq_iff, hp'.names_eq, hp'.types_eq last' hlast', List.map_tail, List.map_tail,
    List.map_tail, List.map_tail, hx'.names_eq last hlast, hx'.types_eq, List.tail_cons,
    eq_comm (a := List.tail (x.args.map Argument.type))]

private theorem receiver_of_renamed {y : Signature} (h : Agree functions functions')
    (hy : y ∈ functions') :
    (renamed functions y).args.head?.map Argument.name = some receiver := by
  have hy' := h.renamed hy
  rw [← List.head?_map]
  cases hlast : last? functions y.name with
  | some last => rw [hy'.names_eq last hlast, List.head?_cons]
  | none => rw [hy'.names_eq_of_alone (last?_eq_none_iff.mp hlast), List.head?_cons]

private theorem length_of_renamed {p y : Signature} (h : Agree functions functions')
    (hp : p ∈ functions) (hy : y ∈ functions') (hname : p.name = y.name) :
    (renamed functions y).args.length = (retyped functions' p).args.length + 1 := by
  have hy' := congrArg List.length (h.renamed hy).types_eq
  have hp' := congrArg List.length (h.retyped hp).names_eq
  have hlength := h.2 p hp y hy hname.symm
  simp only [List.length_map] at hy' hp'
  omega

/-- In an interface every receiver is named, and an extended function has one argument more than the
plain function that is found by its name. The arguments of the functions of one name agree in names
and types, counted after the receiver, exactly when their declarations are unambiguous. -/
theorem provenance_iff {plain extended : Content} {i : Interface}
    (hi : (ofHeaders plain extended).result = .ok i)
    (hplain : Dialect.plain.Declares plain functions layout)
    (hextended : Dialect.extended.Declares extended functions' layout') :
    (∀ x ∈ i.extended, x.args.head?.map Argument.name = some receiver ∧
      ∀ p, i.plain? x.name = some p → x.args.length = p.args.length + 1) ∧
    ∀ name,
      (∀ x ∈ i.extended, x.name = name → ∀ p, i.plain? name = some p →
        ∀ k arg, p.args[k]? = some arg → x.args[k + 1]? = some arg) ↔
      Unambiguous functions functions' name := by
  obtain ⟨_, _, _, _, hplain', hextended', hagree, hslots, hslots', rfl⟩ :=
    ofHeaders_eq_ok_iff.mp hi
  obtain ⟨rfl, rfl⟩ := hplain.unique hplain'
  obtain ⟨rfl, rfl⟩ := hextended.unique hextended'
  have hmem : ∀ x ∈ layout'.listing (functions'.map (renamed functions)),
      ∃ y ∈ functions', renamed functions y = x := by
    intro x hx
    exact List.mem_map.mp (Layout.mem_listing.mp hx).1
  constructor
  · intro x hx
    obtain ⟨y, hy, rfl⟩ := hmem x hx
    refine ⟨receiver_of_renamed hagree hy, fun p hp => ?_⟩
    rw [plain?_listing hslots, renamed_name] at hp
    obtain ⟨q, hq, rfl⟩ := Option.map_eq_some_iff.mp hp
    have hname : q.name = y.name := by simpa using List.find?_some hq
    exact length_of_renamed hagree (List.mem_of_find?_eq_some hq) hy hname
  · intro name
    simp only [plain?_listing hslots, Option.map_eq_some_iff]
    constructor
    · intro hall first last y last' hfirst hlast hy hname hlast'
      have hfirstName : first.name = name := by simpa using List.find?_some hfirst
      have hfirstMem := List.mem_of_find?_eq_some hfirst
      have hx : renamed functions y ∈ layout'.listing (functions'.map (renamed functions)) := by
        rw [Layout.mem_listing, renamed_name]
        exact ⟨List.mem_map_of_mem hy, hslots' y hy⟩
      have hargs := hall _ hx ((renamed_name functions y).trans hname) _ ⟨first, hfirst, rfl⟩
      have hlength := length_of_renamed hagree hfirstMem hy (by rw [hfirstName, hname])
      rw [getElem?_succ_of_tail_iff hlength,
        retyped_args_eq_iff hagree hfirstMem hy (hname ▸ hlast) (hfirstName ▸ hlast')] at hargs
      exact hargs
    · rintro hagrees x hx rfl _ ⟨first, hfirst, rfl⟩
      obtain ⟨y, hy, rfl⟩ := hmem x hx
      rw [renamed_name] at hagrees hfirst
      have hfirstName : first.name = y.name := by simpa using List.find?_some hfirst
      have hfirstMem := List.mem_of_find?_eq_some hfirst
      obtain ⟨last, hlast⟩ := exists_last? hfirstMem
      obtain ⟨last', hlast'⟩ := exists_last? hy
      rw [hfirstName] at hlast
      rw [getElem?_succ_of_tail_iff (length_of_renamed hagree hfirstMem hy hfirstName),
        retyped_args_eq_iff hagree hfirstMem hy hlast (hfirstName ▸ hlast')]
      exact hagrees first last y last' hfirst hlast hy rfl hlast'

/-- A plain header whose declarations of a function differ in the type of its argument only. -/
def typedTwice : Text :=
  "_CK_DECLARE_FUNCTION (C_F, (T a));
_CK_DECLARE_FUNCTION (C_F, (U a));
struct ck_function_list \x7b
 CK_C_F F;
\x7d;".toList

/-- A plain header whose declarations of a function differ in the name of its argument. -/
def namedTwice : Text :=
  "_CK_DECLARE_FUNCTION (C_F, (T a));
_CK_DECLARE_FUNCTION (C_F, (T b));
struct ck_function_list \x7b
 CK_C_F F;
\x7d;".toList

/-- An extended header that declares this function. -/
def typedOnce : Text :=
  "typedef CK_RV (* CK_X_F) (S *, V);
struct _CK_X_FUNCTION_LIST \x7b
 CK_X_F F;
\x7d;".toList

theorem declares_typedTwice : Dialect.plain.Declares (.ok typedTwice.bytes)
    [⟨['F'], [⟨['a'], ['T']⟩]⟩, ⟨['F'], [⟨['a'], ['U']⟩]⟩] (.ofList [['F']]) := by
  rw [Dialect.declares_bytes_iff]
  decide +kernel

theorem declares_namedTwice : Dialect.plain.Declares (.ok namedTwice.bytes)
    [⟨['F'], [⟨['a'], ['T']⟩]⟩, ⟨['F'], [⟨['b'], ['T']⟩]⟩] (.ofList [['F']]) := by
  rw [Dialect.declares_bytes_iff]
  decide +kernel

theorem declares_typedOnce : Dialect.extended.Declares (.ok typedOnce.bytes)
    [⟨['F'], [⟨[], ['S', ' ', '*']⟩, ⟨[], ['V']⟩]⟩] (.ofList [['F']]) := by
  rw [Dialect.declares_bytes_iff]
  decide +kernel

/-- Where both declarations name the argument alike, names and types have their provenance. -/
theorem provenance_typedTwice :
    ∃ i, (ofHeaders (.ok typedTwice.bytes) (.ok typedOnce.bytes)).result = .ok i ∧
      i.extended.map Signature.name = [['F']] ∧
      ∀ x ∈ i.extended, x.name = ['F'] → ∀ p, i.plain? ['F'] = some p →
        ∀ k arg, p.args[k]? = some arg → x.args[k + 1]? = some arg := by
  have hi := ofHeaders_eq_ok_iff.mpr ⟨_, _, _, _, declares_typedTwice, declares_typedOnce,
    by unfold Agree; decide, by decide, by decide, rfl⟩
  have hiff := (provenance_iff hi declares_typedTwice declares_typedOnce).2 ['F']
  refine ⟨_, hi, by decide, hiff.mpr ?_⟩
  intro first last x last' hfirst hlast hx _ hlast'
  obtain rfl : _ = first := Option.some.inj hfirst
  obtain rfl : _ = last := Option.some.inj hlast
  obtain rfl : _ = last' := Option.some.inj hlast'
  obtain rfl := List.mem_singleton.mp hx
  exact ⟨rfl, rfl⟩

/-- Where the declarations name the argument differently, a look-up finds the first name, while the
extended function has the last. -/
theorem name_differs_namedTwice :
    ∃ i, (ofHeaders (.ok namedTwice.bytes) (.ok typedOnce.bytes)).result = .ok i ∧
      ∃ x ∈ i.extended, ∃ p, i.plain? x.name = some p ∧
        (p.args[0]?).map Argument.name = some ['a'] ∧
        (x.args[1]?).map Argument.name = some ['b'] := by
  have hi := ofHeaders_eq_ok_iff.mpr ⟨_, _, _, _, declares_namedTwice, declares_typedOnce,
    by unfold Agree; decide, by decide, by decide, rfl⟩
  exact ⟨_, hi, _, List.mem_singleton.mpr rfl, _, rfl, rfl, rfl⟩

end Interface

end DispatchTable
