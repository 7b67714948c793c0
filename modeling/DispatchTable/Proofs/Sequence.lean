import Mathlib.Data.List.Forall2

/-!
# Computations in sequence

A computation that goes on with the value of another, or over a list of values, gives a value
exactly when all of its parts do, and otherwise the error of the first part that fails.
-/

namespace DispatchTable

/-- A continued computation gives a value exactly when both of its parts do. -/
theorem bind_eq_ok_iff {ε α β : Type} {x : Except ε α} {next : α → Except ε β} {b : β} :
    x >>= next = .ok b ↔ ∃ a, x = .ok a ∧ next a = .ok b := by
  cases x with
  | error e => simp [bind, Except.bind]
  | ok a => simp [bind, Except.bind]

/-- A list of values is computed exactly when each of them is. -/
theorem mapM_eq_ok_iff {ε α β : Type} {f : α → Except ε β} {as : List α} {bs : List β} :
    as.mapM f = .ok bs ↔ List.Forall₂ (fun a b => f a = .ok b) as bs := by
  induction as generalizing bs with
  | nil =>
    rw [List.mapM_nil, List.forall₂_nil_left_iff]
    exact ⟨fun h => (Except.ok.inj h).symm, fun h => congrArg _ h.symm⟩
  | cons a as ih =>
    rw [List.mapM_cons, bind_eq_ok_iff, List.forall₂_cons_left_iff]
    simp only [bind_eq_ok_iff, ih]
    constructor
    · rintro ⟨b, hb, bs', hbs', he⟩
      exact ⟨b, bs', hb, hbs', (Except.ok.inj he).symm⟩
    · rintro ⟨b, bs', hb, hbs', rfl⟩
      exact ⟨b, hb, bs', hbs', rfl⟩

/-- Of computed values each is that of its source, and each source has one. -/
theorem exists_of_mem_mapM {ε α β : Type} {f : α → Except ε β} {as : List α} {bs : List β}
    (h : as.mapM f = .ok bs) : ∀ a ∈ as, ∃ b ∈ bs, f a = .ok b := by
  rw [mapM_eq_ok_iff] at h
  induction h with
  | nil => simp
  | @cons a b as bs hab _ ih =>
    rw [List.forall_mem_cons]
    refine ⟨⟨b, List.mem_cons_self, hab⟩, fun a' ha' => ?_⟩
    obtain ⟨b', hb', hab'⟩ := ih a' ha'
    exact ⟨b', List.mem_cons_of_mem b hb', hab'⟩

/-- In two lists that are related, the elements at one place are. -/
theorem exists_of_forall₂ {α β : Type} {r : α → β → Prop} {as : List α} {bs : List β}
    (h : List.Forall₂ r as bs) {k : Nat} {a : α} (ha : as[k]? = some a) :
    ∃ b, bs[k]? = some b ∧ r a b := by
  induction h generalizing k with
  | nil => simp at ha
  | @cons a' b as bs hab _ ih =>
    cases k with
    | zero =>
      obtain rfl : a' = a := by simpa using ha
      exact ⟨b, rfl, hab⟩
    | succ k => exact ih (by simpa using ha)

/-- A continued computation fails exactly when its first part does, or else its second. -/
theorem bind_eq_error_iff {ε α β : Type} {x : Except ε α} {next : α → Except ε β} {e : ε} :
    x >>= next = .error e ↔ x = .error e ∨ ∃ a, x = .ok a ∧ next a = .error e := by
  cases x with
  | error e => simp [bind, Except.bind]
  | ok a => simp [bind, Except.bind]

/-- A computation whose error is told in other terms gives the same values. -/
theorem mapError_eq_ok_iff {ε ε' α : Type} {x : Except ε α} {f : ε → ε'} {a : α} :
    x.mapError f = .ok a ↔ x = .ok a := by
  cases x <;> simp [Except.mapError]

/-- A computation whose error is told in other terms fails with an error of the computation. -/
theorem mapError_eq_error_iff {ε ε' α : Type} {x : Except ε α} {f : ε → ε'} {e : ε'} :
    x.mapError f = .error e ↔ ∃ cause, x = .error cause ∧ e = f cause := by
  cases x <;> simp [Except.mapError, eq_comm]

/-- An element of two lists, one behind the other, stands in the first or in the second. -/
theorem append_eq_append_cons_iff {α : Type} {as bs before after : List α} {a : α} :
    as ++ bs = before ++ a :: after ↔
      (∃ piece, before = as ++ piece ∧ bs = piece ++ a :: after) ∨
        ∃ piece, as = before ++ a :: piece ∧ after = piece ++ bs := by
  rw [List.append_eq_append_iff]
  constructor
  · rintro (h | ⟨piece, rfl, hpiece⟩)
    · exact .inl h
    · cases piece with
      | nil => exact .inl ⟨[], by simp, hpiece.symm⟩
      | cons b piece =>
        obtain ⟨rfl, rfl⟩ := List.cons.inj hpiece
        exact .inr ⟨piece, rfl, rfl⟩
  · rintro (h | ⟨piece, rfl, rfl⟩)
    · exact .inl h
    · exact .inr ⟨a :: piece, rfl, rfl⟩

/-- Of two cuts of a list, the second front is no longer than the first, or else goes on into what
stands behind it. -/
theorem length_le_or_exists_of_append_eq {α : Type} {as bs as' bs' : List α}
    (h : as ++ bs = as' ++ bs') :
    as'.length ≤ as.length ∨ ∃ a piece, as' = as ++ a :: piece ∧ bs = a :: (piece ++ bs') := by
  rcases List.append_eq_append_iff.mp h with ⟨piece, rfl, hpiece⟩ | ⟨piece, rfl, _⟩
  · cases piece with
    | nil => exact .inl (by simp)
    | cons a piece => exact .inr ⟨a, piece, rfl, hpiece⟩
  · exact .inl (by simp)

/-- Whether an element is the first of a list that has a property. -/
def IsFirst {α : Type} (p : α → Prop) (as : List α) (a : α) : Prop :=
  ∃ before after, as = before ++ a :: after ∧ (∀ b ∈ before, ¬p b) ∧ p a

section IsFirst

variable {α : Type} {p : α → Prop} {as : List α} {a b : α}

/-- The first element of a list is its head, or else the first one of its rest. -/
theorem isFirst_cons : IsFirst p (a :: as) b ↔ p a ∧ b = a ∨ ¬p a ∧ IsFirst p as b := by
  constructor
  · rintro ⟨before, after, has, hbefore, hb⟩
    cases before with
    | nil =>
      obtain ⟨rfl, rfl⟩ := List.cons.inj has
      exact .inl ⟨hb, rfl⟩
    | cons c before =>
      obtain ⟨rfl, rfl⟩ := List.cons.inj has
      obtain ⟨ha, hbefore⟩ := List.forall_mem_cons.mp hbefore
      exact .inr ⟨ha, before, after, rfl, hbefore, hb⟩
  · rintro (⟨ha, rfl⟩ | ⟨ha, before, after, rfl, hbefore, hb⟩)
    · exact ⟨[], as, rfl, by simp, ha⟩
    · exact ⟨a :: before, after, rfl, List.forall_mem_cons.mpr ⟨ha, hbefore⟩, hb⟩

/-- An empty list has no first element. -/
theorem not_isFirst_nil : ¬IsFirst p [] b := by
  rintro ⟨before, after, has, _⟩
  simp at has

/-- The first element is one of the list and has the property. -/
theorem IsFirst.mem (h : IsFirst p as a) : a ∈ as ∧ p a := by
  obtain ⟨before, after, rfl, _, ha⟩ := h
  exact ⟨by simp, ha⟩

/-- The first element is found by a search for the property. -/
theorem find?_eq_some_iff_isFirst [DecidablePred p] :
    as.find? (fun a => decide (p a)) = some b ↔ IsFirst p as b := by
  induction as with
  | nil => simp [not_isFirst_nil]
  | cons a as ih =>
    rw [isFirst_cons, ← ih]
    by_cases ha : p a
    · simp [ha, eq_comm]
    · simp [ha]

/-- The first element of a mapped list comes from the first of the list. -/
theorem isFirst_map {β : Type} {f : β → α} {bs : List β} :
    IsFirst p (bs.map f) a ↔ ∃ b, IsFirst (fun b => p (f b)) bs b ∧ a = f b := by
  induction bs with
  | nil => simp [not_isFirst_nil]
  | cons b bs ih =>
    rw [List.map_cons, isFirst_cons, ih]
    simp only [isFirst_cons]
    constructor
    · rintro (⟨hb, rfl⟩ | ⟨hb, b', hb', rfl⟩)
      · exact ⟨b, .inl ⟨hb, rfl⟩, rfl⟩
      · exact ⟨b', .inr ⟨hb, hb'⟩, rfl⟩
    · rintro ⟨b', ⟨hb, rfl⟩ | ⟨hb, hb'⟩, rfl⟩
      · exact .inl ⟨hb, rfl⟩
      · exact .inr ⟨hb, b', hb', rfl⟩

end IsFirst

/-- A list of values fails with the error of the first of them that fails. -/
theorem mapM_eq_error_iff {ε α β : Type} {f : α → Except ε β} {as : List α} {e : ε} :
    as.mapM f = .error e ↔ ∃ a, IsFirst (fun a => ∀ b, f a ≠ .ok b) as a ∧ f a = .error e := by
  induction as with
  | nil => simp [pure, Except.pure, not_isFirst_nil]
  | cons a as ih =>
    rw [List.mapM_cons, bind_eq_error_iff]
    simp only [isFirst_cons, bind_eq_error_iff, ih]
    cases hf : f a with
    | error e' => simp [hf]
    | ok b => simp [pure, Except.pure]

end DispatchTable
