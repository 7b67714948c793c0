import DispatchTable.Failure
import DispatchTable.Signature

/-!
# Layouts

A layout is the order of the slots of a table: the names of the functions, each once. A name that is
listed again keeps its first place. Signatures are arranged by the places of their names, and
signatures of one name keep their order.
-/

namespace DispatchTable

/-- The slots of a table in order. -/
structure Layout where
  /-- The name of the function in each slot. -/
  names : List Text
  /-- No name has two slots. -/
  nodup : names.Nodup
  deriving DecidableEq, Repr

namespace Layout

/-- The layout without slots. -/
def empty : Layout := ⟨[], List.nodup_nil⟩

/-- A layout with a slot for `name`: a new one at the end, unless there is one already. -/
def insert (layout : Layout) (name : Text) : Layout :=
  if h : name ∈ layout.names then layout
  else
    { names := layout.names ++ [name]
      nodup := by
        rw [List.nodup_append]
        refine ⟨layout.nodup, by simp, ?_⟩
        intro a ha b hb
        rw [List.mem_singleton.mp hb]
        exact fun hab => h (hab ▸ ha) }

/-- A layout with one more slot has a slot for that name and the slots it had. -/
theorem mem_insert {layout : Layout} {name x : Text} :
    x ∈ (layout.insert name).names ↔ x = name ∨ x ∈ layout.names := by
  unfold insert
  split
  · next h => exact ⟨.inr, fun hx => hx.elim (fun e => e ▸ h) id⟩
  · simp [or_comm]

/-- A layout with slots for more names, in their order. -/
def insertAll (layout : Layout) (names : List Text) : Layout := names.foldl insert layout

/-- A layout with more slots has slots for these names and the slots it had. -/
theorem mem_insertAll {layout : Layout} {names : List Text} {x : Text} :
    x ∈ (layout.insertAll names).names ↔ x ∈ names ∨ x ∈ layout.names := by
  induction names generalizing layout with
  | nil => simp [insertAll]
  | cons name names ih =>
    rw [insertAll, List.foldl_cons, ← insertAll, ih, mem_insert, List.mem_cons]
    exact ⟨fun h => by rcases h with h | h | h <;> simp [h],
      fun h => by rcases h with (h | h) | h <;> simp [h]⟩

/-- The layout with the slots of a list of names. -/
def ofList (names : List Text) : Layout := empty.insertAll names

/-- The place of a name, counted from zero; the number of slots if it has none. -/
def place (layout : Layout) (name : Text) : Nat := layout.names.idxOf name

/-- The first signature whose name has no slot. -/
def missing? (layout : Layout) (signatures : List Signature) : Option Signature :=
  signatures.find? fun f => f.name ∉ layout.names

/-- Signatures in the order of their slots, those of one slot in the order they had. -/
def sort (layout : Layout) (signatures : List Signature) : List Signature :=
  signatures.mergeSort fun f g => layout.place f.name ≤ layout.place g.name

/-- Sorting neither loses nor adds a signature. -/
theorem sort_perm (layout : Layout) (signatures : List Signature) :
    (layout.sort signatures).Perm signatures :=
  List.mergeSort_perm signatures _

/-- Signatures in the order of the slots of `table`. The first one without a slot is a failure: to
leave it out would move every later entry of the table. -/
def arrange (layout : Layout) (table : Text) (signatures : List Signature) :
    Except Failure (List Signature) :=
  match layout.missing? signatures with
  | some f => .error (.missingSlot f.name table)
  | none => .ok (layout.sort signatures)

/-- Arrange a list where it stands: what it is then, and the failure, if there is one. A list that
cannot be arranged stays as it is. -/
def rearrange (layout : Layout) (table : Text) (signatures : List Signature) :
    List Signature × Option Failure :=
  match layout.arrange table signatures with
  | .ok sorted => (sorted, none)
  | .error e => (signatures, some e)

end Layout

end DispatchTable
