import DispatchTable.Text.Order

/-!
# Sets of names

A set of names is kept as its strictly increasing list, by code points, so equal sets are equal
values and listing a set needs no sorting.
-/

namespace DispatchTable

/-- A set of names, listed in increasing order. -/
structure NameSet where
  names : List Text
  sorted : names.Pairwise fun a b => a.precedes b = true
  deriving DecidableEq, Repr

namespace NameSet

/-- The set without names. -/
def empty : NameSet := ⟨[], .nil⟩

instance : Inhabited NameSet := ⟨empty⟩

instance : Membership Text NameSet := ⟨fun s name => name ∈ s.names⟩

/-- Whether a set holds a name. -/
def contains (s : NameSet) (name : Text) : Bool := s.names.any fun x => x = name

/-- A set contains a name exactly when the name is a member. -/
theorem contains_iff {s : NameSet} {name : Text} : s.contains name = true ↔ name ∈ s := by
  simp only [contains, List.any_eq_true, decide_eq_true_eq, exists_eq_right]
  rfl

/-- An increasing list with one more name in its place. -/
def insertSorted (name : Text) : List Text → List Text
  | [] => [name]
  | first :: names =>
    if name.precedes first then name :: first :: names
    else if name = first then first :: names
    else first :: insertSorted name names

/-- Inserting a name adds it and nothing else. -/
theorem mem_insertSorted {name x : Text} {names : List Text} :
    x ∈ insertSorted name names ↔ x = name ∨ x ∈ names := by
  induction names with
  | nil => simp [insertSorted]
  | cons first names ih =>
    unfold insertSorted
    split
    · simp
    · split
      · next h => simp [h]
      · simp only [List.mem_cons, ih]
        exact or_left_comm

/-- Inserting a name keeps a list increasing. -/
theorem pairwise_insertSorted {name : Text} {names : List Text}
    (h : names.Pairwise fun a b => a.precedes b = true) :
    (insertSorted name names).Pairwise fun a b => a.precedes b = true := by
  induction names with
  | nil => simp [insertSorted]
  | cons first names ih =>
    have ⟨hfirst, hnames⟩ := List.pairwise_cons.mp h
    unfold insertSorted
    split
    · next hlt =>
      refine List.pairwise_cons.mpr ⟨fun x hx => ?_, h⟩
      rcases List.mem_cons.mp hx with rfl | hx
      · exact hlt
      · exact Text.precedes_trans hlt (hfirst x hx)
    · split
      · exact h
      · next hlt hne =>
        refine List.pairwise_cons.mpr ⟨fun x hx => ?_, ih hnames⟩
        rcases mem_insertSorted.mp hx with rfl | hx
        · exact Text.precedes_of_ne hne (by simpa using hlt)
        · exact hfirst x hx

/-- A set with one more name. -/
def insert (s : NameSet) (name : Text) : NameSet :=
  ⟨insertSorted name s.names, pairwise_insertSorted s.sorted⟩

/-- A set with one more name holds that name and what it held before. -/
@[simp] theorem mem_insert {s : NameSet} {name x : Text} :
    x ∈ s.insert name ↔ x = name ∨ x ∈ s :=
  mem_insertSorted

/-- A set with more names. -/
def insertAll (s : NameSet) (names : List Text) : NameSet := names.foldl insert s

/-- The set of the names in a list. -/
def ofList (names : List Text) : NameSet := empty.insertAll names

/-- A set with more names holds these and what it held before. -/
theorem mem_insertAll {s : NameSet} {names : List Text} {x : Text} :
    x ∈ s.insertAll names ↔ x ∈ names ∨ x ∈ s := by
  induction names generalizing s with
  | nil => simp [insertAll]
  | cons name names ih =>
    rw [insertAll, List.foldl_cons, ← insertAll, ih, mem_insert, List.mem_cons]
    exact ⟨fun h => by rcases h with h | h | h <;> simp [h],
      fun h => by rcases h with (h | h) | h <;> simp [h]⟩

/-- A set is determined by what it holds. -/
@[ext] theorem ext {s t : NameSet} (h : ∀ name, name ∈ s ↔ name ∈ t) : s = t := by
  obtain ⟨names, hnames⟩ := s
  obtain ⟨names', hnames'⟩ := t
  have hne : ∀ {a b : Text}, a.precedes b = true → a ≠ b := by
    rintro a _ hab rfl
    rw [Text.precedes_irrefl] at hab
    exact Bool.false_ne_true hab
  have hperm : names.Perm names' :=
    (List.perm_ext_iff_of_nodup (hnames.imp hne) (hnames'.imp hne)).mpr h
  have heq : names = names' := by
    refine hperm.eq_of_pairwise (fun a b _ _ hab hba => ?_) hnames hnames'
    exact absurd rfl (hne (Text.precedes_trans hab hba))
  subst heq
  rfl

end NameSet

end DispatchTable
