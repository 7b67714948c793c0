import DispatchTable.Failure

/-!
# What stops a command

A command that is stopped reports what it was about and then the causes, from the outermost to the
innermost.
-/

namespace DispatchTable

/-- What stops a command, with what it was about. -/
inductive CommandError where
  /-- A configuration cannot be loaded. -/
  | loading (config : Text) (failure : Failure)
  /-- A header cannot be opened. -/
  | opening (header : Text) (cause : FileError)
  /-- Two headers cannot be read or merged. -/
  | processing (plain extended : Text) (failure : Failure)
  /-- The output cannot be written. -/
  | writing (output : Text) (cause : FileError)
  deriving DecidableEq, Repr

namespace CommandError

/-- What a command was about when it was stopped. -/
def context : CommandError → Text
  | loading config _ => "failed to load generator config ".toList ++ config
  | opening header _ => "failed to open ".toList ++ header
  | processing plain extended _ =>
    "failed to process ".toList ++ plain ++ " and ".toList ++ extended
  | writing output _ => "failed to write ".toList ++ output

/-- The causes, the outermost first. -/
def causes : CommandError → List Text
  | loading _ failure | processing _ _ failure =>
    failure.message :: (failure.cause?.map FileError.message).toList
  | opening _ cause | writing _ cause => [cause.message]

/-- Whether the last cause has a cause of its own that is not told. -/
def isOpen : CommandError → Bool
  | loading _ .invalidConfig | processing _ _ .invalidConfig => true
  | _ => false

/-- A text whose lines after the first are indented. -/
def indentLines (columns : Nat) (t : Text) : Text :=
  t.flatMap fun c => if c = '\n' then '\n' :: List.replicate columns ' ' else [c]

/-- The report of an error: its context and its causes, numbered if there are several. -/
def report (e : CommandError) : Text :=
  "Error: ".toList ++ e.context ++ "\n\nCaused by:".toList ++
    if e.isOpen || 1 < e.causes.length then
      e.causes.zipIdx.flatMap fun (cause, n) =>
        "\n    ".toList ++ Text.ofNat n ++ ": ".toList ++ indentLines 7 cause
    else e.causes.flatMap fun cause => "\n    ".toList ++ indentLines 4 cause

end CommandError

end DispatchTable
