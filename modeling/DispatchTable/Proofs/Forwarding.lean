import DispatchTable.Proofs.Interface
import DispatchTable.Proofs.Text
import DispatchTable.Wrapper

/-!
# What wrappers forward

A wrapper of the base template calls the plain function of its name, and one of the stack template
the extended function. What it passes on are the names of its own parameters behind the receiver. In
an interface these are the argument names of the last plain declaration, in their order, and each
parameter stands at the same place as in the declaration of the extended function, with the type
that it has there.
-/

namespace DispatchTable

/-- The parameters of a wrapper, each as it is printed before the blanks at both ends of the list
are trimmed. -/
def parameterLines (f : Signature) (wrapper : Text) : List Text :=
  f.args.map fun arg => indent wrapper ++ padType arg.type ++ arg.name

/-- The printed parameters are their lines, apart from blanks at both ends. -/
theorem exists_eq_parameters (f : Signature) (wrapper : Text) :
    ∃ lead trail, List.intercalate ",\n".toList (parameterLines f wrapper) =
        lead ++ parameters f wrapper ++ trail ∧
      (∀ c ∈ lead, isBlank c = true) ∧ ∀ c ∈ trail, isBlank c = true :=
  Text.exists_eq_trim _

namespace Template

/-- What a wrapper passes on behind the receiver. -/
def forwardedNames : Template → Signature → List Text
  | base, f => base.forwarded f
  | stack, f => (stack.forwarded f).tail

/-- Behind the receiver, both templates pass on the names of the parameters behind it. -/
theorem forwardedNames_eq (t : Template) (f : Signature) :
    t.forwardedNames f = (f.args.map Argument.name).tail := by
  have hnames : (f.args.drop 1).map Argument.name = (f.args.map Argument.name).tail := by
    rw [List.drop_one, List.map_tail]
  rw [← hnames]
  cases t <;> rfl

/-- Both lists of a wrapper stand in parentheses in its text. -/
theorem exists_wrapper_eq (t : Template) (f : Signature) :
    ∃ before between after, t.wrapper f =
      before ++ " (".toList ++ parameters f (t.wrapperName f) ++ ")\n".toList ++ between ++
        " (".toList ++ List.intercalate ", ".toList (t.forwarded f) ++ ");\n".toList ++ after := by
  refine ⟨"static CK_RV\n".toList ++ t.wrapperName f, "\x7b\n".toList ++
    "\tp11_virtual *virt = (p11_virtual *)self;\n".toList ++
    "\t".toList ++ t.lowerTable ++ " *funcs = virt->lower_module;\n".toList ++
    "\treturn funcs->C_".toList ++ f.name, "\x7d\n".toList, ?_⟩
  unfold wrapper
  simp only [← List.append_assoc]

end Template

/-- How the wrappers of an extended function `f`, declared as `x`, call the plain function declared
as `p`. -/
structure Forwards (p x f : Signature) : Prop where
  base_eq : Template.base.forwarded f = p.args.map Argument.name
  stack_eq : Template.stack.forwarded f = "funcs".toList :: p.args.map Argument.name
  length_base : (Template.base.forwarded f).length = p.args.length
  length_stack : (Template.stack.forwarded f).length = f.args.length
  /-- A name behind the receiver is that of the parameter one place later, which is printed with the
  type of its place in the declaration. -/
  parameter : ∀ (t : Template) (k : Nat) (name : Text), (t.forwardedNames f)[k]? = some name →
    ∃ arg source, f.args[k + 1]? = some arg ∧ arg.name = name ∧ x.args[k + 1]? = some source ∧
      (parameterLines f (t.wrapperName f))[k + 1]? =
        some (indent (t.wrapperName f) ++ padType source.type ++ name)
  /-- A wrapper prints its parameters and what it passes on, each between parentheses. -/
  printed : ∀ t : Template, ∃ before printed between after lead trail,
    t.wrapper f = before ++ " (".toList ++ printed ++ ")\n".toList ++ between ++
      " (".toList ++ List.intercalate ", ".toList (t.forwarded f) ++ ");\n".toList ++ after ∧
    List.intercalate ",\n".toList (parameterLines f (t.wrapperName f)) = lead ++ printed ++ trail ∧
    (∀ c ∈ lead, isBlank c = true) ∧ ∀ c ∈ trail, isBlank c = true

open Signature

/-- A merged extended signature forwards to the last plain one of its name. -/
theorem Renamed.forwards {plain : List Signature} {p x f : Signature} (h : Renamed plain x f)
    (hp : last? plain x.name = some p) : Forwards p x f := by
  have hnames := h.names_eq p hp
  have hforwarded : ∀ t : Template, t.forwardedNames f = p.args.map Argument.name := by
    intro t
    rw [t.forwardedNames_eq, hnames, List.tail_cons]
  have hbase : Template.base.forwarded f = p.args.map Argument.name := hforwarded .base
  have hstack : Template.stack.forwarded f = "funcs".toList :: p.args.map Argument.name :=
    congrArg ("funcs".toList :: ·) (hforwarded .base)
  have hlength : f.args.length = p.args.length + 1 := by
    simpa using congrArg List.length hnames
  refine ⟨hbase, hstack, by rw [hbase, List.length_map], by rw [hstack, hlength]; simp, ?_, ?_⟩
  · intro t k name hk
    rw [t.forwardedNames_eq, List.getElem?_tail, List.getElem?_map] at hk
    obtain ⟨arg, harg, rfl⟩ := Option.map_eq_some_iff.mp hk
    have htype : (x.args[k + 1]?).map Argument.type = some arg.type := by
      rw [← List.getElem?_map, ← h.types_eq, List.getElem?_map, harg, Option.map_some]
    obtain ⟨source, hsource, htype⟩ := Option.map_eq_some_iff.mp htype
    refine ⟨arg, source, harg, rfl, hsource, ?_⟩
    rw [parameterLines, List.getElem?_map, harg, Option.map_some, htype]
  · intro t
    obtain ⟨before, between, after, hwrapper⟩ := t.exists_wrapper_eq f
    obtain ⟨lead, trail, hparameters⟩ := exists_eq_parameters f (t.wrapperName f)
    exact ⟨before, _, between, after, lead, trail, hwrapper, hparameters⟩

namespace Interface

variable {functions functions' : List Signature} {layout layout' : Layout}

/-- The extended functions of an interface are the declared ones, in the order of their slots, and
each forwards to the last plain declaration of its name. -/
theorem extended_forwards {plain extended : Content} {i : Interface}
    (hi : (ofHeaders plain extended).result = .ok i)
    (hplain : Dialect.plain.Declares plain functions layout)
    (hextended : Dialect.extended.Declares extended functions' layout') :
    List.Forall₂ (fun x f => f.name = x.name ∧
        ∀ p, last? functions f.name = some p → Forwards p x f)
      (layout'.listing functions') i.extended := by
  obtain ⟨_, _, _, _, hplain', hextended', hagree, _, _, rfl⟩ := ofHeaders_eq_ok_iff.mp hi
  obtain ⟨rfl, rfl⟩ := hplain.unique hplain'
  obtain ⟨rfl, rfl⟩ := hextended.unique hextended'
  rw [Layout.listing_map (renamed_name functions), List.forall₂_map_right_iff, List.forall₂_same]
  intro x hx
  have hmem : x ∈ functions' := (Layout.mem_listing.mp hx).1
  refine ⟨renamed_name functions x, fun p hp => ?_⟩
  rw [renamed_name] at hp
  exact (hagree.renamed hmem).forwards hp

/-- A plain header whose declarations of a function name its arguments differently. -/
def namedAnew : Text :=
  "_CK_DECLARE_FUNCTION (C_F, (T a, U *b));
_CK_DECLARE_FUNCTION (C_F, (T c, U *d));
struct ck_function_list \x7b
 CK_C_F F;
\x7d;".toList

/-- An extended header that declares this function. -/
def typedWithReceiver : Text :=
  "typedef CK_RV (* CK_X_F) (S *, V, W *);
struct _CK_X_FUNCTION_LIST \x7b
 CK_X_F F;
\x7d;".toList

private theorem declares_namedAnew : Dialect.plain.Declares (.ok namedAnew.bytes)
    [⟨['F'], [⟨['a'], ['T']⟩, ⟨['b'], ['U', ' ', '*']⟩]⟩,
      ⟨['F'], [⟨['c'], ['T']⟩, ⟨['d'], ['U', ' ', '*']⟩]⟩] (.ofList [['F']]) := by
  rw [Dialect.declares_bytes_iff]
  decide +kernel

private theorem declares_typedWithReceiver :
    Dialect.extended.Declares (.ok typedWithReceiver.bytes)
      [⟨['F'], [⟨[], ['S', ' ', '*']⟩, ⟨[], ['V']⟩, ⟨[], ['W', ' ', '*']⟩]⟩] (.ofList [['F']]) := by
  rw [Dialect.declares_bytes_iff]
  decide +kernel

/-- Its wrappers pass on the names of the last declaration. -/
theorem forwarded_namedAnew :
    ∃ i, (ofHeaders (.ok namedAnew.bytes) (.ok typedWithReceiver.bytes)).result = .ok i ∧
      ∃ f, i.extended = [f] ∧ f.name = ['F'] ∧
        Forwards ⟨['F'], [⟨['c'], ['T']⟩, ⟨['d'], ['U', ' ', '*']⟩]⟩
          ⟨['F'], [⟨[], ['S', ' ', '*']⟩, ⟨[], ['V']⟩, ⟨[], ['W', ' ', '*']⟩]⟩ f := by
  have hi := ofHeaders_eq_ok_iff.mpr ⟨_, _, _, _, declares_namedAnew, declares_typedWithReceiver,
    by unfold Agree; decide, by decide, by decide, rfl⟩
  have hforwards := extended_forwards hi declares_namedAnew declares_typedWithReceiver
  refine ⟨_, hi, _, rfl, rfl, ?_⟩
  exact (List.forall₂_cons.mp hforwards).1.2 _ rfl

end Interface

end DispatchTable
