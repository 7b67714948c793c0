import DispatchTable.Config
import DispatchTable.Interface

/-!
# Documents

A document is a value that can be written down in more than one format: a text, a list, or a record
whose fields keep their order. Interfaces and configurations are written as documents.
-/

namespace DispatchTable

/-- A value to be written down. -/
inductive Document where
  | text (value : Text)
  | list (items : List Document)
  | record (fields : List (Text × Document))

/-- An argument with its name and its type. -/
def Argument.document (arg : Argument) : Document :=
  .record [("name".toList, .text arg.name), ("type".toList, .text arg.type)]

/-- A signature with its name and its arguments. -/
def Signature.document (f : Signature) : Document :=
  .record [("name".toList, .text f.name), ("args".toList, .list (f.args.map Argument.document))]

/-- An interface with its plain and its extended functions. -/
def Interface.document (i : Interface) : Document :=
  .record [("functions".toList, .list (i.plain.map Signature.document)),
    ("x_functions".toList, .list (i.extended.map Signature.document))]

/-- A configuration with its template and what it leaves out. -/
def Config.document (config : Config) : Document :=
  .record [("template".toList, .text config.template.name),
    ("exclude".toList, .list (config.exclude.names.map .text))]

end DispatchTable
