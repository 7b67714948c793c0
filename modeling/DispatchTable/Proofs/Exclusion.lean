import DispatchTable.Proofs.ReadBack

/-!
# Leaving functions out

A configuration leaves functions out of the wrappers, but not out of the table: they keep their
slots, with a null entry each. So the printed code depends on the excluded names only as far as
functions have them, its wrappers are those of the other functions, and its table differs from the
full one in the slots of these functions and nowhere else.
-/

namespace DispatchTable.Config

variable {t : Template} {f : Signature} {exclude exclude' : NameSet} {functions : List Signature}

/-- The entries of the initializer, one for each function. -/
def entries (config : Config) (functions : List Signature) : List Text :=
  functions.map config.entry

/-- The bodies of the wrappers, one for each function that is not left out. -/
def bodies (config : Config) (functions : List Signature) : List Text :=
  (functions.filter fun f => !config.exclude.contains f.name).map config.template.wrapper

/-- A function that is left out has a null entry. -/
theorem entry_of_mem (h : f.name ∈ exclude) : entry ⟨t, exclude⟩ f = "NULL".toList :=
  if_pos (NameSet.contains_iff.mpr h)

/-- Any other function has its wrapper as its entry. -/
theorem entry_of_not_mem (h : f.name ∉ exclude) : entry ⟨t, exclude⟩ f = t.wrapperName f :=
  if_neg fun hc => h (NameSet.contains_iff.mp hc)

/-- The name of a wrapper is no null entry, whatever the function is called. -/
theorem wrapperName_ne_null (t : Template) (f : Signature) : t.wrapperName f ≠ "NULL".toList := by
  cases t <;> simp [Template.wrapperName, Template.name]

/-- An entry is null exactly when its function is left out. -/
theorem entry_eq_null_iff : entry ⟨t, exclude⟩ f = "NULL".toList ↔ f.name ∈ exclude := by
  constructor
  · intro h
    by_contra hmem
    rw [entry_of_not_mem hmem] at h
    exact wrapperName_ne_null t f h
  · exact entry_of_mem

/-- Without exclusions every entry is that of a wrapper. -/
theorem entry_ofTemplate (t : Template) (f : Signature) :
    (ofTemplate t).entry f = t.wrapperName f :=
  entry_of_not_mem List.not_mem_nil

/-- A function has another entry than without exclusions exactly when it is left out. -/
theorem entry_ne_iff : entry ⟨t, exclude⟩ f ≠ (ofTemplate t).entry f ↔ f.name ∈ exclude := by
  rw [entry_ofTemplate]
  constructor
  · intro hne
    by_contra hmem
    exact hne (entry_of_not_mem hmem)
  · intro hmem he
    exact wrapperName_ne_null t f (he.symm.trans (entry_of_mem hmem))

/-- The printed code depends on the excluded names of the functions only. -/
theorem code_congr (h : ∀ f ∈ functions, f.name ∈ exclude ↔ f.name ∈ exclude') :
    code ⟨t, exclude⟩ functions = code ⟨t, exclude'⟩ functions := by
  have hcontains : ∀ f ∈ functions, exclude.contains f.name = exclude'.contains f.name := by
    intro f hf
    rw [Bool.eq_iff_iff, NameSet.contains_iff, NameSet.contains_iff]
    exact h f hf
  have hkept : (functions.filter fun f => !exclude.contains f.name) =
      functions.filter fun f => !exclude'.contains f.name :=
    List.filter_congr fun f hf => congrArg _ (hcontains f hf)
  have hentries : (functions.map fun f => '\t' :: entry ⟨t, exclude⟩ f) =
      functions.map fun f => '\t' :: entry ⟨t, exclude'⟩ f := by
    apply List.map_congr_left
    intro f hf
    simp only [entry, hcontains f hf]
  simp only [code, wrappers, initializer, hkept, hentries]

/-- The printed code of functions that can be read back tells which of them are left out. -/
theorem mem_iff_of_code_eq (hprintable : ∀ f ∈ functions, f.Printable)
    (h : code ⟨t, exclude⟩ functions = code ⟨t, exclude'⟩ functions) :
    ∀ f ∈ functions, f.name ∈ exclude ↔ f.name ∈ exclude' := by
  have hread := congrArg tableEntries? h
  rw [tableEntries?_code _ hprintable, tableEntries?_code _ hprintable, Option.some.injEq,
    List.map_inj_left] at hread
  intro f hf
  rw [← entry_eq_null_iff (t := t), hread f hf, entry_eq_null_iff]

/-- Without exclusions every function has a body. -/
theorem bodies_ofTemplate (t : Template) (functions : List Signature) :
    (ofTemplate t).bodies functions = functions.map t.wrapper :=
  congrArg (List.map t.wrapper) (List.filter_eq_self.mpr fun _ _ => rfl)

private theorem map_filter_eq_filter_zip (body : Signature → Text) (kept : Signature → Bool)
    (functions : List Signature) : (functions.filter kept).map body =
      ((functions.zip (functions.map body)).filter fun x => kept x.1).map Prod.snd := by
  induction functions with
  | nil => rfl
  | cons f functions ih =>
    by_cases hf : kept f = true <;> simp [hf, ih]

/-- The printed code with some functions left out: it depends on their names only, and it tells them
if it can be read back; its wrappers are those of the other functions, printed without exclusions,
and no body changes; its table has an entry for each function, null where the function is left out
and otherwise the same as without exclusions. The bodies and the entries make up the text. -/
theorem exclusion_separated (t : Template) (functions : List Signature) (exclude : NameSet) :
    (∀ exclude' : NameSet,
      ((∀ f ∈ functions, f.name ∈ exclude ↔ f.name ∈ exclude') →
        code ⟨t, exclude⟩ functions = code ⟨t, exclude'⟩ functions) ∧
      ((∀ f ∈ functions, f.Printable) →
        code ⟨t, exclude⟩ functions = code ⟨t, exclude'⟩ functions →
        ∀ f ∈ functions, f.name ∈ exclude ↔ f.name ∈ exclude')) ∧
    wrappers ⟨t, exclude⟩ functions =
      (ofTemplate t).wrappers (functions.filter fun f => !exclude.contains f.name) ∧
    bodies ⟨t, exclude⟩ functions =
      ((functions.zip ((ofTemplate t).bodies functions)).filter
        fun x => !exclude.contains x.1.name).map Prod.snd ∧
    (entries ⟨t, exclude⟩ functions).length = ((ofTemplate t).entries functions).length ∧
    (∀ (k : Nat) (f : Signature), functions[k]? = some f →
      ((entries ⟨t, exclude⟩ functions)[k]? ≠ ((ofTemplate t).entries functions)[k]? ↔
        f.name ∈ exclude) ∧
      (f.name ∈ exclude → (entries ⟨t, exclude⟩ functions)[k]? = some "NULL".toList)) ∧
    ∀ config : Config,
      config.wrappers functions = List.intercalate ['\n'] (config.bodies functions) ∧
      config.initializer functions =
        List.intercalate ",\n".toList ((config.entries functions).map ('\t' :: ·)) ∧
      ((∀ f ∈ functions, f.Printable) →
        tableEntries? (config.code functions) = some (config.entries functions)) := by
  refine ⟨fun exclude' => ⟨code_congr, mem_iff_of_code_eq⟩, ?_, ?_, ?_, ?_, ?_⟩
  · change List.intercalate _ (bodies _ _) = List.intercalate _ (bodies _ _)
    rw [bodies_ofTemplate]
    rfl
  · rw [bodies_ofTemplate]
    exact map_filter_eq_filter_zip _ _ _
  · rw [entries, entries, List.length_map, List.length_map]
  · intro k f hk
    simp only [entries, List.getElem?_map, hk, Option.map_some, ne_eq, Option.some.injEq]
    exact ⟨entry_ne_iff, entry_of_mem⟩
  · intro config
    refine ⟨rfl, ?_, tableEntries?_code config⟩
    rw [initializer, entries, List.map_map]
    rfl

/-- Three functions, of which two have one name. -/
def twoNames : List Signature :=
  [⟨['A'], [⟨"self".toList, "S *".toList⟩]⟩,
    ⟨['B'], [⟨"self".toList, "S *".toList⟩, ⟨['a'], ['T']⟩]⟩,
    ⟨['B'], [⟨"self".toList, "S *".toList⟩, ⟨['b'], ['U']⟩]⟩]

private theorem printable_twoNames : ∀ f ∈ twoNames, f.Printable := by
  have hA : IsName ['A'] := ⟨List.cons_ne_nil _ _, List.all_eq_true.mp rfl⟩
  have hB : IsName ['B'] := ⟨List.cons_ne_nil _ _, List.all_eq_true.mp rfl⟩
  simp only [twoNames, List.forall_mem_cons, List.not_mem_nil, false_implies, implies_true,
    and_true]
  exact ⟨⟨hA, by decide⟩, ⟨hB, by decide⟩, ⟨hB, by decide⟩⟩

/-- Both slots of the name are null, and a name that no function has changes nothing. -/
theorem exclusion_separated_twoNames :
    code ⟨.stack, .ofList [['B']]⟩ twoNames = code ⟨.stack, .ofList [['Z'], ['B']]⟩ twoNames ∧
    (∀ f ∈ twoNames, f.name ∈ NameSet.ofList [['B']] ↔ f.name ∈ NameSet.ofList [['Z'], ['B']]) ∧
    (entries ⟨.stack, .ofList [['B']]⟩ twoNames)[2]? = some "NULL".toList ∧
    (entries ⟨.stack, .ofList [['B']]⟩ twoNames)[0]? = ((ofTemplate .stack).entries twoNames)[0]? ∧
    tableEntries? (code ⟨.stack, .ofList [['B']]⟩ twoNames) =
      some ["stack_C_A".toList, "NULL".toList, "NULL".toList] := by
  obtain ⟨hcode, _, _, _, hentries, hread⟩ :=
    exclusion_separated .stack twoNames (.ofList [['B']])
  have hsame : ∀ f ∈ twoNames,
      f.name ∈ NameSet.ofList [['B']] ↔ f.name ∈ NameSet.ofList [['Z'], ['B']] := by
    simp only [← NameSet.contains_iff]
    decide
  have heq := (hcode (.ofList [['Z'], ['B']])).1 hsame
  refine ⟨heq, (hcode _).2 printable_twoNames heq, ?_, ?_, ?_⟩
  · exact (hentries 2 _ rfl).2 (NameSet.contains_iff.mp rfl)
  · by_contra hne
    exact absurd (NameSet.contains_iff.mpr ((hentries 0 _ rfl).1.mp hne)) (by decide)
  · exact (hread ⟨.stack, .ofList [['B']]⟩).2.2 printable_twoNames

end DispatchTable.Config
