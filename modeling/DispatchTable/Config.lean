import DispatchTable.NameSet
import DispatchTable.Template

/-!
# Configurations

A configuration says how a table is printed: by which template, and which functions are left out.
-/

namespace DispatchTable

/-- How a table is printed. -/
structure Config where
  template : Template
  /-- The functions without a wrapper; they keep their slots. -/
  exclude : NameSet
  deriving DecidableEq, Repr

namespace Config

/-- The configuration of a template that leaves nothing out. -/
def ofTemplate (template : Template) : Config := ⟨template, .empty⟩

/-- The configuration where none is given. -/
def default : Config := ofTemplate .base

/-- A configuration that leaves out more functions. -/
def excluding (config : Config) (names : List Text) : Config :=
  { config with exclude := config.exclude.insertAll names }

end Config

end DispatchTable
