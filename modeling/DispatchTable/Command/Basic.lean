import DispatchTable.Command.Error
import DispatchTable.Config.Reading
import DispatchTable.Document.Yaml
import DispatchTable.FileTree
import DispatchTable.Table

/-!
# Commands

A command reads the two headers and prints either the code of a table or what the headers declare.
What it reads is all decided by what stands in the files before it runs, so a command is planned
first, without any change to the files; writing the text that it makes is the last step. A command
that fails before it leaves every file as it was.
-/

namespace DispatchTable

/-- How the content of a path is found: the path may lead nowhere, and what it leads to may be
unreadable. -/
abbrev Look := Text → Except FileError Content

/-- What a command has made: a text, and the file that it goes to, if it is not printed. -/
structure Product where
  text : Text
  output? : Option Text
  deriving DecidableEq, Repr

/-- How a command ended. -/
structure Outcome where
  log : List Event
  /-- What was printed. -/
  printed : Text
  error? : Option CommandError
  deriving DecidableEq, Repr

namespace Config

/-- The configuration that a file holds. -/
def load (look : Look) (path : Text) : Except Failure Config :=
  match look path with
  | .error cause => .error (.unreadableConfig path cause)
  | .ok content =>
    match content.text with
    | .error cause => .error (.unreadableConfig path cause)
    | .ok text => ofYaml text

/-- The configuration of a command: what the file says, if there is one, unless another template is
asked for, and with more functions left out. -/
def resolve (look : Look) (path? : Option Text) (template? : Option Template)
    (exclude : List Text) : Except CommandError Config := do
  let config ← match path? with
    | none => .ok default
    | some path => (load look path).mapError (CommandError.loading path)
  return { config with template := template?.getD config.template }.excluding exclude

end Config

namespace Interface

/-- The interface that two header files declare. -/
def load (look : Look) (plain extended : Text) : Traced CommandError Interface := do
  let plainContent ← Traced.ofExcept ((look plain).mapError (.opening plain))
  let extendedContent ← Traced.ofExcept ((look extended).mapError (.opening extended))
  let i ← (ofHeaders plainContent extendedContent).mapError (.processing plain extended)
  Traced.tell [.loaded i.plain.length i.extended.length]
  return i

end Interface

/-- How the code of a table is to be generated. -/
structure Generate where
  template? : Option Template
  plain : Text
  extended : Text
  exclude : List Text
  config? : Option Text
  output? : Option Text
  deriving DecidableEq, Repr

/-- The code of a table, with an empty line after it. -/
def Generate.plan (g : Generate) (look : Look) : Traced CommandError Product := do
  let config ← Traced.ofExcept (Config.resolve look g.config? g.template? g.exclude)
  Traced.tell (.chosen config.template :: config.exclude.names.map .excluding)
  let i ← Interface.load look g.plain g.extended
  let code ← config.render i.extended
  return ⟨code ++ ['\n'], g.output?⟩

/-- The formats that declarations can be printed in. -/
inductive Format where
  | json
  | yaml
  deriving DecidableEq, Repr

/-- A document in a format. -/
def Format.write : Format → Document → Text
  | json, document => document.json 0
  | yaml, document => document.yaml 0

/-- What two headers declare is to be printed. -/
structure Analyze where
  plain : Text
  extended : Text
  format : Format
  deriving DecidableEq, Repr

/-- The declarations of two headers, with a line end after them. -/
def Analyze.plan (a : Analyze) (look : Look) : Traced CommandError Product := do
  let i ← Interface.load look a.plain a.extended
  return ⟨a.format.write i.document ++ ['\n'], none⟩

/-- What the program can be told to do. -/
inductive Command where
  | generate (g : Generate)
  | analyze (a : Analyze)
  deriving DecidableEq, Repr

/-- What a command makes of the files. -/
def Command.plan (command : Command) (look : Look) : Traced CommandError Product :=
  match command with
  | generate g => g.plan look
  | analyze a => a.plan look

/-- The paths that a command reads. -/
def Command.inputs : Command → List Text
  | generate g => g.config?.toList ++ [g.plain, g.extended]
  | analyze a => [a.plain, a.extended]

/-- Carry out a plan: write or print what was made. -/
def carryOut {m : Type → Type} [Monad m] (plan : Traced CommandError Product)
    (write : Text → ByteArray → m (Except FileError Unit)) : m Outcome :=
  match plan.result with
  | .error e => pure ⟨plan.log, [], some e⟩
  | .ok ⟨text, none⟩ => pure ⟨plan.log, text, none⟩
  | .ok ⟨text, some path⟩ => do
    match ← write path text.bytes with
    | .ok () => pure ⟨plan.log ++ [.wrote path], [], none⟩
    | .error cause => pure ⟨plan.log, [], some (.writing path cause)⟩

/-- Run a command on a tree. -/
def FileTree.run (tree : FileTree) (command : Command) : Outcome × FileTree :=
  (carryOut (m := StateM FileTree) (command.plan tree.look) fun path bytes tree =>
    tree.write path bytes).run tree

end DispatchTable
