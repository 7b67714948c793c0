import DispatchTable.Text.Basic

/-!
# Signatures

A signature is what a header declares about one function of the table: its name, without the mark
that all functions share, and its arguments in order.
-/

namespace DispatchTable

/-- One argument of a function. -/
structure Argument where
  /-- The name, empty when the declaration gives a type only. -/
  name : Text
  /-- The type as it is spelled, pointer marks included. -/
  type : Text
  deriving DecidableEq, Repr

/-- One declared function. -/
structure Signature where
  name : Text
  args : List Argument
  deriving DecidableEq, Repr

end DispatchTable
