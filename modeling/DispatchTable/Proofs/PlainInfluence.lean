import DispatchTable.Proofs.Provenance
import DispatchTable.Proofs.Segments
import DispatchTable.Table

/-!
# What the plain header contributes

An interface takes nothing from its plain header into its extended functions but the argument names
in the last declaration of each name. So two plain headers that agree in these give the same printed
code, whatever types, other functions, order and layout they have. Conversely every such name
arrives: plain arguments always have names and extended ones never do, so a change to the names of a
function with arguments shows.
-/

namespace DispatchTable

open Signature

/-- The argument names in the last signature of a name. -/
def Signature.lastNames? (signatures : List Signature) (name : Text) : Option (List Text) :=
  (last? signatures name).map fun f => f.args.map Argument.name

/-- No name in the last signature is empty, if all arguments have names. -/
theorem Signature.nil_not_mem_of_lastNames? {signatures : List Signature} {name : Text}
    {names : List Text} (hnamed : ∀ f ∈ signatures, ∀ arg ∈ f.args, arg.name ≠ [])
    (h : names ∈ lastNames? signatures name) : [] ∉ names := by
  obtain ⟨f, hf, rfl⟩ := Option.map_eq_some_iff.mp h
  intro hnil
  obtain ⟨arg, harg, hnil⟩ := List.mem_map.mp hnil
  exact hnamed f (last?_eq_some hf).1 arg harg hnil

/-- Every argument that a plain header declares has a name. -/
theorem Dialect.Declares.name_ne_nil {content : Content} {functions : List Signature}
    {layout : Layout} (h : Dialect.plain.Declares content functions layout) :
    ∀ f ∈ functions, ∀ arg ∈ f.args, arg.name ≠ [] := by
  intro f hf arg harg
  obtain ⟨statement, hstatement⟩ := h.exists_signature hf
  obtain ⟨text, _, hargs⟩ := Dialect.signature_eq_ok_iff.mp hstatement
  exact Dialect.name_ne_nil_of_mem_arguments (hargs ▸ harg)

/-- No argument that an extended header declares has a name. -/
theorem Dialect.Declares.name_eq_nil {content : Content} {functions : List Signature}
    {layout : Layout} (h : Dialect.extended.Declares content functions layout) :
    ∀ f ∈ functions, ∀ arg ∈ f.args, arg.name = [] := by
  intro f hf arg harg
  obtain ⟨statement, hstatement⟩ := h.exists_signature hf
  obtain ⟨text, _, hargs⟩ := Dialect.signature_eq_ok_iff.mp hstatement
  exact Dialect.name_eq_nil_of_mem_arguments (hargs ▸ harg)

section Merged

variable {plain plain' extended : List Signature} {x : Signature}

/-- The names of a merged extended signature are that of the receiver and those of the last plain
one of its name; where there is none, it keeps its own. -/
theorem Signature.Agree.map_name_renamed (h : Agree plain extended) (hx : x ∈ extended) :
    (Signature.renamed plain x).args.map Argument.name =
      receiver :: (lastNames? plain x.name).getD (x.args.tail.map Argument.name) := by
  have hrenamed := h.renamed hx
  rw [lastNames?]
  cases hlast : last? plain x.name with
  | none => exact hrenamed.names_eq_of_alone (last?_eq_none_iff.mp hlast)
  | some p => exact hrenamed.names_eq p hlast

/-- Two merges leave an extended signature equal exactly when they give it the same names. -/
theorem Signature.Agree.renamed_eq_iff (h : Agree plain extended) (h' : Agree plain' extended)
    (hx : x ∈ extended) : Signature.renamed plain x = Signature.renamed plain' x ↔
      (lastNames? plain x.name).getD (x.args.tail.map Argument.name) =
        (lastNames? plain' x.name).getD (x.args.tail.map Argument.name) := by
  have hnames := h.map_name_renamed hx
  have hnames' := h'.map_name_renamed hx
  constructor
  · intro he
    rw [he, hnames'] at hnames
    exact (List.cons.inj hnames).2.symm
  · intro he
    have hargs : (Signature.renamed plain x).args = (Signature.renamed plain' x).args := by
      refine args_eq_iff.mpr ⟨?_, ?_⟩
      · rw [hnames, hnames', he]
      · rw [(h.renamed hx).types_eq, (h'.renamed hx).types_eq]
    have hname : (Signature.renamed plain x).name = (Signature.renamed plain' x).name := by
      rw [renamed_name, renamed_name]
    exact congrArg₂ Signature.mk hname hargs

private theorem getD_eq_getD_iff {kept : List Text} {names? names?' : Option (List Text)}
    (hkept : ∀ name ∈ kept, name = [])
    (h : ∀ names ∈ names?, [] ∉ names ∧ names.length = kept.length)
    (h' : ∀ names ∈ names?', [] ∉ names ∧ names.length = kept.length) :
    names?.getD kept = names?'.getD kept ↔ (kept ≠ [] → names? = names?') := by
  cases kept with
  | nil =>
    have hnil : ∀ names? : Option (List Text),
        (∀ names ∈ names?, [] ∉ names ∧ names.length = 0) → names?.getD [] = [] := by
      intro names? h
      cases names? with
      | none => rfl
      | some names => exact List.length_eq_zero_iff.mp (h names rfl).2
    simp [hnil names? h, hnil names?' h']
  | cons name kept =>
    obtain rfl := hkept name List.mem_cons_self
    have hne : ∀ {names? : Option (List Text)} {names : List Text},
        (∀ names ∈ names?, [] ∉ names ∧ names.length = ([] :: kept).length) →
        names ∈ names? → names ≠ [] :: kept := by
      rintro _ _ h hmem rfl
      exact (h _ hmem).1 List.mem_cons_self
    cases names? with
    | none =>
      cases names?' with
      | none => simp
      | some names' => simp [(hne h' rfl).symm]
    | some names =>
      cases names?' with
      | none => simp [hne h rfl]
      | some names' => simp

/-- Where plain arguments have names and extended ones do not, two merges leave an extended
signature equal exactly when the last plain signatures of its name have the same argument names, or
when there is nothing to be named. -/
theorem Signature.Agree.renamed_eq_iff_lastNames? (h : Agree plain extended)
    (h' : Agree plain' extended) (hnamed : ∀ p ∈ plain, ∀ arg ∈ p.args, arg.name ≠ [])
    (hnamed' : ∀ p ∈ plain', ∀ arg ∈ p.args, arg.name ≠ [])
    (hunnamed : ∀ x ∈ extended, ∀ arg ∈ x.args, arg.name = []) (hx : x ∈ extended) :
    Signature.renamed plain x = Signature.renamed plain' x ↔
      (x.args.tail ≠ [] → lastNames? plain x.name = lastNames? plain' x.name) := by
  have hkept : ∀ name ∈ x.args.tail.map Argument.name, name = [] := by
    rw [List.forall_mem_map]
    exact fun arg harg => hunnamed x hx arg (List.mem_of_mem_tail harg)
  have hnames : ∀ {plain : List Signature}, Agree plain extended →
      (∀ p ∈ plain, ∀ arg ∈ p.args, arg.name ≠ []) → ∀ names ∈ lastNames? plain x.name,
        [] ∉ names ∧ names.length = (x.args.tail.map Argument.name).length := by
    intro plain h hnamed names hmem
    refine ⟨nil_not_mem_of_lastNames? hnamed hmem, ?_⟩
    obtain ⟨p, hp, rfl⟩ := Option.map_eq_some_iff.mp hmem
    obtain ⟨hp, hname⟩ := last?_eq_some hp
    rw [List.length_map, List.length_map, List.length_tail, h.2 p hp x hx hname.symm,
      Nat.add_sub_cancel]
  rw [h.renamed_eq_iff h' hx, getD_eq_getD_iff hkept (hnames h hnamed) (hnames h' hnamed'), Ne,
    List.map_eq_nil_iff]

end Merged

namespace Interface

variable {plain plain' extended : Content} {i i' : Interface}
  {functions functions' signatures : List Signature} {layout layout' slots : Layout}

/-- Two interfaces with one extended header have the same extended functions exactly when both
merges leave each declared one equal. -/
theorem extended_eq_iff_renamed (hi : (ofHeaders plain extended).result = .ok i)
    (hi' : (ofHeaders plain' extended).result = .ok i')
    (hplain : Dialect.plain.Declares plain functions layout)
    (hplain' : Dialect.plain.Declares plain' functions' layout')
    (hextended : Dialect.extended.Declares extended signatures slots) :
    i.extended = i'.extended ↔
      ∀ x ∈ signatures, renamed functions x = renamed functions' x := by
  obtain ⟨_, _, hslots, rfl⟩ := (ofHeaders_eq_ok_iff_of_declares hplain hextended).mp hi
  obtain ⟨_, _, _, rfl⟩ := (ofHeaders_eq_ok_iff_of_declares hplain' hextended).mp hi'
  rw [Layout.listing_map (renamed_name functions), Layout.listing_map (renamed_name functions'),
    List.map_inj_left]
  refine forall_congr' fun x => ?_
  rw [Layout.mem_listing]
  exact ⟨fun h hx => h ⟨hx, hslots x hx⟩, fun h hx => h hx.1⟩

/-- If two plain headers agree in the argument names of the last declaration of each extended
function, or both declare none, they make the same extended functions of an extended header, and
every configuration prints the same code. Conversely the extended functions are the same only if the
headers agree in this for each function that has arguments behind its receiver. -/
theorem extended_eq_of_same_names (hi : (ofHeaders plain extended).result = .ok i)
    (hi' : (ofHeaders plain' extended).result = .ok i')
    (hplain : Dialect.plain.Declares plain functions layout)
    (hplain' : Dialect.plain.Declares plain' functions' layout')
    (hextended : Dialect.extended.Declares extended signatures slots) :
    ((∀ x ∈ signatures, lastNames? functions x.name = lastNames? functions' x.name) →
      i.extended = i'.extended ∧ ∀ config : Config, ∃ code,
        (ofHeaders plain extended >>= fun i => config.render i.extended).result = .ok code ∧
        (ofHeaders plain' extended >>= fun i => config.render i.extended).result = .ok code) ∧
    (i.extended = i'.extended → ∀ x ∈ signatures, x.args.tail ≠ [] →
      lastNames? functions x.name = lastNames? functions' x.name) := by
  have hagree := ((ofHeaders_eq_ok_iff_of_declares hplain hextended).mp hi).1
  have hagree' := ((ofHeaders_eq_ok_iff_of_declares hplain' hextended).mp hi').1
  have hsame : i.extended = i'.extended ↔ ∀ x ∈ signatures,
      x.args.tail ≠ [] → lastNames? functions x.name = lastNames? functions' x.name := by
    rw [extended_eq_iff_renamed hi hi' hplain hplain' hextended]
    exact forall₂_congr fun x hx => hagree.renamed_eq_iff_lastNames? hagree'
      hplain.name_ne_nil hplain'.name_ne_nil hextended.name_eq_nil hx
  refine ⟨fun hnames => ?_, hsame.mp⟩
  have he : i.extended = i'.extended := hsame.mpr fun x hx _ => hnames x hx
  refine ⟨he, fun config => ⟨config.code i.extended, ?_, ?_⟩⟩
  · rw [Traced.result_bind, hi]
    rfl
  · rw [Traced.result_bind, hi', he]
    rfl

/-- A plain header with one more function, another layout and other types, whose last declaration of
the function in question has the same argument names as that of `typedTwice`. -/
def namedAlike : Text :=
  "struct ck_function_list \x7b
 CK_C_G G;
 CK_C_F F;
\x7d;
_CK_DECLARE_FUNCTION (C_F, (T b));
_CK_DECLARE_FUNCTION (C_G, (T c));
_CK_DECLARE_FUNCTION (C_F, (W *a));".toList

private theorem declares_namedAlike : Dialect.plain.Declares (.ok namedAlike.bytes)
    [⟨['F'], [⟨['b'], ['T']⟩]⟩, ⟨['G'], [⟨['c'], ['T']⟩]⟩, ⟨['F'], [⟨['a'], ['W', ' ', '*']⟩]⟩]
    (.ofList [['G'], ['F']]) := by
  rw [Dialect.declares_bytes_iff]
  decide +kernel

/-- With both headers the extended function is the same, and so is the printed code. -/
theorem extended_eq_namedAlike :
    ∃ i i', (ofHeaders (.ok typedTwice.bytes) (.ok typedOnce.bytes)).result = .ok i ∧
      (ofHeaders (.ok namedAlike.bytes) (.ok typedOnce.bytes)).result = .ok i' ∧
      i.plain ≠ i'.plain ∧ i.extended = i'.extended ∧ ∀ config : Config, ∃ code,
        (ofHeaders (.ok typedTwice.bytes) (.ok typedOnce.bytes) >>=
          fun i => config.render i.extended).result = .ok code ∧
        (ofHeaders (.ok namedAlike.bytes) (.ok typedOnce.bytes) >>=
          fun i => config.render i.extended).result = .ok code := by
  have hi := (ofHeaders_eq_ok_iff_of_declares declares_typedTwice declares_typedOnce).mpr
    ⟨by unfold Agree; decide, by decide, by decide, rfl⟩
  have hi' := (ofHeaders_eq_ok_iff_of_declares declares_namedAlike declares_typedOnce).mpr
    ⟨by unfold Agree; decide, by decide, by decide, rfl⟩
  have hsame := (extended_eq_of_same_names hi hi' declares_typedTwice declares_namedAlike
    declares_typedOnce).1 (List.forall_mem_singleton.mpr rfl)
  exact ⟨_, _, hi, hi', by decide, hsame⟩

end Interface

end DispatchTable
