import DispatchTable.Proofs.PlainInfluence
import DispatchTable.Wrapper

/-!
# Warnings

A merge warns of an extended function with arguments that has no plain counterpart. Plain arguments
always have names and extended ones never do, so these are exactly the functions that are left with
an argument without a name, and no other part of the reading warns of anything. What a wrapper
passes on is therefore empty only for functions that were warned of.
-/

namespace DispatchTable

open Signature

/-- The warnings among some events. -/
def warnings (log : List Event) : List Event := log.filter fun e => e.level = .warn

@[simp] theorem warnings_append (log more : List Event) :
    warnings (log ++ more) = warnings log ++ warnings more :=
  List.filter_append ..

/-- The warnings among the events of several steps are those of each step. -/
theorem warnings_flatMap {α : Type} (log : α → List Event) (as : List α) :
    warnings (as.flatMap log) = as.flatMap fun a => warnings (log a) :=
  List.filter_flatMap ..

/-- Nothing is warned of while a header is outlined. -/
@[simp] theorem Outline.warnings_ofContent (d : Dialect) (content : Content) :
    warnings (ofContent d content).log = [] := by
  have hlog : ∀ last outline, warnings (d.outlineLog last outline) = [] := by
    intro last outline
    cases last <;> rfl
  unfold ofContent
  split
  · rfl
  · exact hlog _ _

/-- Nothing is warned of while a plain signature gets its types. -/
@[simp] theorem Signature.warnings_retype (extended : List Signature) (f : Signature) :
    warnings (retype extended f).log = [] := by
  unfold retype
  split
  · rfl
  · split <;> rfl

/-- An extended signature is warned of if it has arguments behind the receiver and no plain
counterpart. -/
theorem Signature.warnings_rename (plain : List Signature) (f : Signature) :
    warnings (rename plain f).log =
      if last? plain f.name = none ∧ f.args.tail ≠ [] then [.unnamedArguments f.name] else [] := by
  rw [rename, lastArgs?_eq]
  cases f.args with
  | nil => simp [warnings]
  | cons self args =>
    cases last? plain f.name with
    | none => by_cases hargs : args = [] <;> simp [hargs, warnings, Event.level]
    | some p => by_cases hlen : args.length = p.args.length <;> simp [hlen, warnings]

/-- Whether an argument behind the receiver has no name. -/
def Signature.HasUnnamed (f : Signature) : Prop := ∃ arg ∈ f.args.tail, arg.name = []

instance (f : Signature) : Decidable f.HasUnnamed :=
  inferInstanceAs (Decidable (∃ arg ∈ f.args.tail, arg.name = []))

/-- The arguments behind the receiver, by their names. -/
theorem Signature.hasUnnamed_iff {f : Signature} :
    f.HasUnnamed ↔ [] ∈ (f.args.map Argument.name).tail := by
  simp [HasUnnamed, ← List.map_tail]

/-- Something empty is passed on exactly if an argument behind the receiver has no name. -/
theorem Template.nil_mem_forwarded_iff {t : Template} {f : Signature} :
    [] ∈ t.forwarded f ↔ f.HasUnnamed := by
  cases t <;> simp [forwarded, hasUnnamed_iff]

section Merged

variable {plain extended : List Signature} {x : Signature}

/-- Where plain arguments have names and extended ones do not, a merged signature has an argument
without a name exactly if it has arguments behind the receiver and no plain counterpart. -/
theorem Signature.Agree.hasUnnamed_renamed_iff (h : Agree plain extended)
    (hnamed : ∀ p ∈ plain, ∀ arg ∈ p.args, arg.name ≠ [])
    (hunnamed : ∀ x ∈ extended, ∀ arg ∈ x.args, arg.name = []) (hx : x ∈ extended) :
    (Signature.renamed plain x).HasUnnamed ↔ last? plain x.name = none ∧ x.args.tail ≠ [] := by
  rw [hasUnnamed_iff, h.map_name_renamed hx, List.tail_cons]
  cases hlast : last? plain x.name with
  | none =>
    have hnone : lastNames? plain x.name = none := by rw [lastNames?, hlast, Option.map_none]
    have hall : ∀ arg ∈ x.args.tail, arg.name = [] := fun arg harg =>
      hunnamed x hx arg (List.mem_of_mem_tail harg)
    rw [hnone, Option.getD_none, List.mem_map]
    constructor
    · rintro ⟨arg, harg, _⟩
      exact ⟨rfl, List.ne_nil_of_mem harg⟩
    · rintro ⟨_, hne⟩
      obtain ⟨arg, harg⟩ := List.exists_mem_of_ne_nil _ hne
      exact ⟨arg, harg, hall arg harg⟩
  | some p =>
    have hsome : lastNames? plain x.name = some (p.args.map Argument.name) := by
      rw [lastNames?, hlast, Option.map_some]
    have hnil := nil_not_mem_of_lastNames? hnamed hsome
    rw [hsome, Option.getD_some]
    exact ⟨fun hmem => absurd hmem hnil, fun hnone => absurd hnone.1 (Option.some_ne_none p)⟩

/-- All arguments of a merged signature have names, if those behind the receiver do. -/
theorem Signature.Agree.name_ne_nil_of_not_hasUnnamed (h : Agree plain extended)
    (hx : x ∈ extended) (hall : ¬(Signature.renamed plain x).HasUnnamed) :
    ∀ arg ∈ (Signature.renamed plain x).args, arg.name ≠ [] := by
  have hnames := h.map_name_renamed hx
  rw [hasUnnamed_iff, hnames, List.tail_cons] at hall
  intro arg harg hname
  have hmem := List.mem_map_of_mem (f := Argument.name) harg
  rw [hnames, hname, List.mem_cons] at hmem
  exact hmem.elim nofun hall

private theorem map_filter_map {α β γ : Type} (f : α → β) (g : β → γ) (p : β → Prop)
    [DecidablePred p] (as : List α) :
    ((as.map f).filter fun b => p b).map g =
      as.flatMap fun a => if p (f a) then [g (f a)] else [] := by
  induction as with
  | nil => rfl
  | cons a as ih => by_cases h : p (f a) <;> simp [h, ← ih]

/-- Where plain arguments have names and extended ones do not, a merge warns of the extended
signatures that it leaves with an argument without a name, in their order. -/
theorem Signature.Agree.warnings_merge (h : Agree plain extended)
    (hnamed : ∀ p ∈ plain, ∀ arg ∈ p.args, arg.name ≠ [])
    (hunnamed : ∀ x ∈ extended, ∀ arg ∈ x.args, arg.name = []) :
    warnings (merge plain extended).log =
      ((extended.map (Signature.renamed plain)).filter fun x => x.HasUnnamed).map fun x =>
        .unnamedArguments x.name := by
  have hplain : (plain.flatMap fun p => warnings (retype extended p).log) = [] := by simp
  rw [merge_log h, warnings_append, warnings_flatMap, warnings_flatMap, hplain, List.nil_append,
    map_filter_map]
  refine List.flatMap_congr fun x hx => ?_
  rw [warnings_rename, renamed_name]
  exact if_congr (h.hasUnnamed_renamed_iff hnamed hunnamed hx).symm rfl rfl

end Merged

namespace Interface

variable {plain extended : Content} {i : Interface}

/-- What is warned of while two headers are read is what their merge warns of. -/
theorem warnings_ofHeaders {functions functions' : List Signature} {layout layout' : Layout}
    (hplain : Dialect.plain.Declares plain functions layout)
    (hextended : Dialect.extended.Declares extended functions' layout') :
    warnings (ofHeaders plain extended).log = warnings (merge functions functions').log := by
  obtain ⟨outline, houtline, hfunctions, rfl⟩ := hplain
  obtain ⟨outline', houtline', hfunctions', rfl⟩ := hextended
  simp only [ofHeaders, Traced.log_bind, houtline, houtline', Traced.ofExcept, hfunctions,
    hfunctions', Traced.tell, ofSignatures, warnings_append, Outline.warnings_ofContent]
  rfl

/-- Exactly those extended functions are warned of that have an argument without a name behind the
receiver, each once and in the order of their declarations. All arguments of the others have names,
and a wrapper of theirs passes on nothing empty. -/
theorem ofHeaders_warnings (hi : (ofHeaders plain extended).result = .ok i) :
    ∃ functions layout functions' layout', Dialect.plain.Declares plain functions layout ∧
      Dialect.extended.Declares extended functions' layout' ∧
      i.extended.Perm (functions'.map (renamed functions)) ∧
      warnings (ofHeaders plain extended).log =
        (((functions'.map (renamed functions)).filter fun x => x.HasUnnamed).map fun x =>
          .unnamedArguments x.name) ∧
      ∀ x ∈ i.extended,
        (x.HasUnnamed → .unnamedArguments x.name ∈ (ofHeaders plain extended).log) ∧
        (¬x.HasUnnamed →
          (∀ arg ∈ x.args, arg.name ≠ []) ∧ ∀ t : Template, [] ∉ t.forwarded x) := by
  obtain ⟨functions, layout, functions', layout', hplain, hextended, hagree, _, hslots, rfl⟩ :=
    ofHeaders_eq_ok_iff.mp hi
  have hperm := Layout.listing_map_perm (renamed_name functions) hslots
  have hwarnings := (warnings_ofHeaders hplain hextended).trans
    (hagree.warnings_merge hplain.name_ne_nil hextended.name_eq_nil)
  refine ⟨functions, layout, functions', layout', hplain, hextended, hperm, hwarnings,
    fun x hx => ⟨fun hunnamed => ?_, fun hnamed => ⟨?_, fun t => ?_⟩⟩⟩
  · have hmem : Event.unnamedArguments x.name ∈ warnings (ofHeaders plain extended).log := by
      rw [hwarnings]
      exact List.mem_map_of_mem (List.mem_filter.mpr ⟨hperm.mem_iff.mp hx, by simpa using hunnamed⟩)
    exact (List.mem_filter.mp hmem).1
  · obtain ⟨f, hf, rfl⟩ := List.mem_map.mp (hperm.mem_iff.mp hx)
    exact hagree.name_ne_nil_of_not_hasUnnamed hf hnamed
  · rwa [Template.nil_mem_forwarded_iff]

/-- A plain header that declares one function. -/
def plainOne : Text :=
  "_CK_DECLARE_FUNCTION (C_A, (T a));\n".toList ++
    "struct ck_function_list \x7b\n CK_C_A A;\n\x7d;\n".toList

/-- An extended header that declares this function, one with an argument, and one without. -/
def extendedThree : Text :=
  "typedef CK_RV (* CK_X_B) (S *, V);\n".toList ++
    "typedef CK_RV (* CK_X_A) (S *, U);\n".toList ++ "typedef CK_RV (* CK_X_C) (S *);\n".toList ++
    "struct _CK_X_FUNCTION_LIST \x7b\n".toList ++
    " CK_X_A A;\n CK_X_B B;\n CK_X_C C;\n\x7d;\n".toList

private theorem declares_plainOne : Dialect.plain.Declares (.ok plainOne.bytes)
    [⟨['A'], [⟨['a'], ['T']⟩]⟩] (.ofList [['A']]) := by
  rw [Dialect.declares_bytes_iff]
  decide +kernel

private theorem declares_extendedThree : Dialect.extended.Declares (.ok extendedThree.bytes)
    [⟨['B'], [⟨[], ['S', ' ', '*']⟩, ⟨[], ['V']⟩]⟩, ⟨['A'], [⟨[], ['S', ' ', '*']⟩, ⟨[], ['U']⟩]⟩,
      ⟨['C'], [⟨[], ['S', ' ', '*']⟩]⟩] (.ofList [['A'], ['B'], ['C']]) := by
  rw [Dialect.declares_bytes_iff]
  decide +kernel

/-- Only the function with an argument is warned of. -/
theorem ofHeaders_warnings_extendedThree :
    ∃ i, (ofHeaders (.ok plainOne.bytes) (.ok extendedThree.bytes)).result = .ok i ∧
      i.extended.map Signature.name = [['A'], ['B'], ['C']] ∧
      warnings (ofHeaders (.ok plainOne.bytes) (.ok extendedThree.bytes)).log =
        [.unnamedArguments ['B']] := by
  have hi := (ofHeaders_eq_ok_iff_of_declares declares_plainOne declares_extendedThree).mpr
    ⟨by unfold Agree; decide, by decide, by decide, rfl⟩
  obtain ⟨_, _, _, _, hplain, hextended, _, hwarnings, _⟩ := ofHeaders_warnings hi
  obtain ⟨rfl, _⟩ := declares_plainOne.unique hplain
  obtain ⟨rfl, _⟩ := declares_extendedThree.unique hextended
  exact ⟨_, hi, by decide, by rw [hwarnings]; decide⟩

end Interface

end DispatchTable
