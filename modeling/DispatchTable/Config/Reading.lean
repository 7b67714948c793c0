import DispatchTable.Config
import DispatchTable.Failure
import DispatchTable.Yaml.Node

/-!
# Reading configurations

A configuration is written as a mapping in YAML. What it does not say is as by default. Keys that it
does not know are skipped, but a known key may stand only once.
-/

namespace DispatchTable

namespace Config

open Yaml

/-- What the fields of a mapping say so far. -/
structure Draft where
  template? : Option Template
  exclude? : Option NameSet

/-- The text of a scalar, or of the scalar that an alias stands for. -/
def scalarText? (document node : Node) : Option Text :=
  match document.resolve? node with
  | some (.scalar _ _ _ text) => some text
  | _ => none

/-- The name in a local tag. -/
def localName? : Option Tag → Option Text
  | some (first :: rest) =>
    if first.toNat = '!'.toNat then
      (String.fromUTF8? (if rest.isEmpty then [first] else rest).toByteArray).map String.toList
    else none
  | _ => none

/-- A plain spelling of nothing. -/
def isNull (isPlain : Bool) (text : Text) : Bool :=
  text.isEmpty || isPlain && ["~", "null", "Null", "NULL"].contains (String.ofList text)

/-- A template by its name, which is a scalar or the local tag of nothing. -/
def template? (document node : Node) : Option Template :=
  match document.resolve? node with
  | some (.scalar _ tag? isPlain text) =>
    match localName? tag? with
    | some name => if isNull isPlain text then Template.ofName? name else none
    | none => Template.ofName? text
  | _ => none

/-- A set of names, which is a sequence of scalars; where nothing is written, it is empty. -/
def names? (document node : Node) : Option NameSet :=
  match document.resolve? node with
  | some (.sequence _ _ items) => (items.mapM (scalarText? document)).map .ofList
  | some (.scalar _ _ true []) => some .empty
  | _ => none

/-- What one more field says. -/
def field? (document : Node) (read : Draft) (key value : Node) : Option Draft := do
  let key ← scalarText? document key
  if key = "template".toList then
    if read.template?.isSome then none
    else return { read with template? := some (← template? document value) }
  else if key = "exclude".toList then
    if read.exclude?.isSome then none
    else return { read with exclude? := some (← names? document value) }
  else return read

/-- The configuration that a document holds. -/
def ofDocument? (document : Node) : Option Config :=
  match document with
  | .mapping _ _ fields => do
    let read ← fields.foldlM (fun read (key, value) => field? document read key value)
      ⟨none, none⟩
    return ⟨read.template?.getD default.template, read.exclude?.getD default.exclude⟩
  | .scalar _ _ true [] => some default
  | _ => none

/-- The configuration that is written in a text. -/
def ofYaml (text : Text) : Except Failure Config :=
  match document? text with
  | none => .error .invalidConfig
  | some none => .ok default
  | some (some root) =>
    match ofDocument? root with
    | some config => .ok config
    | none => .error .invalidConfig

end Config

end DispatchTable
