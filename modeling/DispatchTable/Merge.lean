import DispatchTable.Event
import DispatchTable.Failure
import DispatchTable.Signature

/-!
# Merging

The plain declarations know the names of the arguments and the extended ones their types. Merging
copies the types to the plain side and the names to the extended side, argument by argument, the
receiver apart. Of several declarations of one name, the last one is the counterpart. Both lists are
revised from the front, the plain one first; a mismatch ends the merge and leaves what follows as it
was.
-/

namespace DispatchTable

/-- A value after a revision, what was reported, and what ended the revision early. -/
structure Revision (α : Type) where
  value : α
  log : List Event
  failure? : Option Failure
  deriving DecidableEq, Repr

namespace Revision

/-- Revise a list from the front; a failure leaves the rest as it is. -/
def mapList (revise : Signature → Revision Signature) :
    List Signature → Revision (List Signature)
  | [] => ⟨[], [], none⟩
  | f :: fs =>
    let first := revise f
    match first.failure? with
    | some e => ⟨first.value :: fs, first.log, some e⟩
    | none =>
      let others := mapList revise fs
      ⟨first.value :: others.value, first.log ++ others.log, others.failure?⟩

end Revision

/-- Both lists of signatures after a merge. -/
structure Merged where
  plain : List Signature
  extended : List Signature
  log : List Event
  failure? : Option Failure
  deriving DecidableEq, Repr

namespace Signature

/-- The arguments of the last signature of a name. -/
def lastArgs? (signatures : List Signature) (name : Text) : Option (List Argument) :=
  (signatures.reverse.find? fun f => f.name = name).map Signature.args

/-- Arguments with the types of the arguments at the same places. -/
def copyTypes (types args : List Argument) : List Argument :=
  args.zipWith (fun arg source => { arg with type := source.type }) types

/-- Arguments with the names of the arguments at the same places. -/
def copyNames (names args : List Argument) : List Argument :=
  args.zipWith (fun arg source => { arg with name := source.name }) names

/-- The name of the receiver. -/
def receiver : Text := "self".toList

/-- A plain signature with the types of its extended counterpart. -/
def retype (extended : List Signature) (f : Signature) : Revision Signature :=
  match lastArgs? extended f.name with
  | none => ⟨f, [.onlyPlain f.name], none⟩
  | some types =>
    if types.length = f.args.length + 1 then
      ⟨{ f with args := copyTypes types.tail f.args }, [], none⟩
    else ⟨f, [], some (.arityMismatch f.name f.args.length types.length)⟩

/-- An extended signature with the names of its plain counterpart. The receiver gets its name in any
case, so also when the counterpart has another number of arguments. -/
def rename (plain : List Signature) (f : Signature) : Revision Signature :=
  match f.args with
  | [] =>
    let count := ((lastArgs? plain f.name).map List.length).getD 0
    ⟨f, [], some (.arityMismatch f.name count 0)⟩
  | self :: args =>
    let self := { self with name := receiver }
    match lastArgs? plain f.name with
    | none =>
      let log := if args = [] then [] else [.unnamedArguments f.name]
      ⟨{ f with args := self :: args }, log, none⟩
    | some names =>
      if args.length = names.length then
        ⟨{ f with args := self :: copyNames names args }, [], none⟩
      else
        ⟨{ f with args := self :: args }, [],
          some (.arityMismatch f.name names.length (args.length + 1))⟩

end Signature

/-- Merge the plain and the extended declarations of a table. -/
def merge (plain extended : List Signature) : Merged :=
  let plain' := Revision.mapList (Signature.retype extended) plain
  match plain'.failure? with
  | some e => ⟨plain'.value, extended, plain'.log, some e⟩
  | none =>
    let extended' := Revision.mapList (Signature.rename plain) extended
    ⟨plain'.value, extended'.value, plain'.log ++ extended'.log, extended'.failure?⟩

end DispatchTable
