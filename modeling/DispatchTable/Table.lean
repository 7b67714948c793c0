import DispatchTable.Config
import DispatchTable.Event
import DispatchTable.Interface
import DispatchTable.Wrapper

/-!
# Tables

The printed code: the wrappers of the functions that are not left out, and the initializer of the
table. Its entries are positional, so a function that is left out keeps its slot as a null entry.
-/

namespace DispatchTable

namespace Config

/-- The wrappers of all functions that are not left out, in slot order. -/
def wrappers (config : Config) (functions : List Signature) : Text :=
  List.intercalate ['\n'] <|
    (functions.filter fun f => !config.exclude.contains f.name).map config.template.wrapper

/-- The entry of a function in the initializer. -/
def entry (config : Config) (f : Signature) : Text :=
  if config.exclude.contains f.name then "NULL".toList else config.template.wrapperName f

/-- The entries of the initializer, one on a line. -/
def initializer (config : Config) (functions : List Signature) : Text :=
  List.intercalate ",\n".toList <| functions.map fun f => '\t' :: config.entry f

/-- The printed code of a list of functions. -/
def code (config : Config) (functions : List Signature) : Text :=
  config.wrappers functions ++ "\n\n".toList ++
  "CK_X_FUNCTION_LIST ".toList ++ config.template.table ++ " = \x7b\n".toList ++
  "\t\x7b CRYPTOKI_VERSION_MAJOR, CRYPTOKI_VERSION_MINOR \x7d,  /* version */\n".toList ++
  config.initializer functions ++ "\n".toList ++
  "\x7d;\n".toList

/-- What is reported when code is printed: each name that is left out in vain. -/
def codeLog (config : Config) (functions : List Signature) : List Event :=
  (config.exclude.names.filter fun name => functions.all (·.name != name)).map
    .excludedUndeclared

/-- Print the extended functions of an interface. -/
def render {ε : Type} (config : Config) (extended : List Signature) : Traced ε Text :=
  ⟨.rendering config.template extended.length config.exclude.names.length ::
      config.codeLog extended,
    .ok (config.code extended)⟩

end Config

end DispatchTable
