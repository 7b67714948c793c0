import DispatchTable.Text.Basic

/-!
# Templates

A template says how the printed wrappers forward their calls.
-/

namespace DispatchTable

/-- The two conventions of forwarding. -/
inductive Template where
  /-- To a plain table, without the receiver. -/
  | base
  /-- To the next extended table, which becomes the receiver. -/
  | stack
  deriving DecidableEq, Repr

namespace Template

/-- The name of a template in configurations and on the command line. -/
def name : Template → Text
  | base => "base".toList
  | stack => "stack".toList

/-- The name of a template in messages. -/
def title : Template → Text
  | base => "Base".toList
  | stack => "Stack".toList

/-- The template of a name. -/
def ofName? (name : Text) : Option Template :=
  if name = base.name then some base else if name = stack.name then some stack else none

/-- Every template is found by its name. -/
theorem ofName?_name (t : Template) : ofName? t.name = some t := by cases t <;> rfl

/-- The table that is printed for a template. -/
def table : Template → Text
  | base => "p11_virtual_base".toList
  | stack => "p11_virtual_stack".toList

/-- The type of the table that the calls are forwarded to. -/
def lowerTable : Template → Text
  | base => "CK_FUNCTION_LIST".toList
  | stack => "CK_X_FUNCTION_LIST".toList

end Template

end DispatchTable
