import DispatchTable.Command.Basic

/-!
# Arguments

How a command is spelled on the command line. An option is given by its long name, with the value
after an equals sign or in the next argument, or by its letter, with the value after the letter,
with or without an equals sign, or in the next argument. Letters of options without a value may
stand together in front of another letter. After two hyphens nothing is an option any more.
-/

namespace DispatchTable

/-- The options of the program. -/
inductive Flag where
  | verbose
  | template
  | exclude
  | config
  | output
  | format
  deriving DecidableEq, Repr

namespace Flag

/-- The long name of an option. -/
def long : Flag → Text
  | verbose => "verbose".toList
  | template => "template".toList
  | exclude => "exclude".toList
  | config => "config".toList
  | output => "output".toList
  | format => "format".toList

/-- The letter of an option. -/
def letter? : Flag → Option Char
  | verbose => some 'v'
  | template => some 't'
  | exclude => some 'x'
  | config => some 'c'
  | output => some 'o'
  | format => none

/-- Whether an option has a value. -/
def takesValue (flag : Flag) : Bool := flag != verbose

/-- Whether an option may be given more than once. -/
def mayRepeat (flag : Flag) : Bool := flag == exclude

end Flag

/-- What has been given on the command line. -/
structure Given where
  /-- The options with their values, the last one first. -/
  options : List (Flag × Text)
  /-- The other arguments, the last one first. -/
  others : List Text

namespace Given

/-- Whether an option has been given. -/
def has (given : Given) (flag : Flag) : Bool := given.options.any (·.1 == flag)

/-- The values of an option in the order in which they were given. -/
def values (given : Given) (flag : Flag) : List Text :=
  (given.options.reverse.filter (·.1 == flag)).map Prod.snd

/-- The value of an option that must not be empty, if the option has been given. -/
def path? (given : Given) (flag : Flag) : Option (Option Text) :=
  match given.values flag with
  | [] => some none
  | value :: _ => if value.isEmpty then none else some (some value)

/-- Add an option with its value, unless it is given for a second time. -/
def addOption (given : Given) (flag : Flag) (value : Text) : Option Given :=
  if given.has flag && !flag.mayRepeat then none
  else some { given with options := (flag, value) :: given.options }

end Given

namespace Arguments

/-- The options that an argument gives, and the option that still needs a value. -/
structure Read where
  given : Given
  pending? : Option Flag

/-- An option by its long name. -/
def readLong (flags : List Flag) (given : Given) (body : Text) : Option Read := do
  let name := body.takeWhile (· != '=')
  let value? := (body.drop name.length).tail?
  let flag ← flags.find? (·.long = name)
  match value?, flag.takesValue with
  | some value, true => return ⟨← given.addOption flag value, none⟩
  | none, true => return ⟨given, some flag⟩
  | none, false => return ⟨← given.addOption flag [], none⟩
  | some _, false => none

/-- Options by their letters. -/
def readLetters (flags : List Flag) (given : Given) : Text → Option Read
  | [] => some ⟨given, none⟩
  | c :: rest => do
    let flag ← flags.find? (·.letter? = some c)
    if flag.takesValue then
      match rest with
      | [] => return ⟨given, some flag⟩
      | '=' :: value => return ⟨← given.addOption flag value, none⟩
      | value => return ⟨← given.addOption flag value, none⟩
    else readLetters flags (← given.addOption flag []) rest

/-- Read all arguments. A value in an argument of its own must not look like an option. -/
def read (flags : List Flag) : Option Flag → Given → List Text → Option Given
  | some _, _, [] => none
  | none, given, [] => some given
  | pending?, given, arg :: args =>
    match pending?, arg with
    | some _, '-' :: _ :: _ => none
    | some flag, value => (given.addOption flag value).bind (read flags none · args)
    | none, ['-', '-'] => some { given with others := args.reverse ++ given.others }
    | none, '-' :: '-' :: body =>
      (readLong flags given body).bind fun r => read flags r.pending? r.given args
    | none, '-' :: c :: letters =>
      (readLetters flags given (c :: letters)).bind fun r => read flags r.pending? r.given args
    | none, other => read flags none { given with others := other :: given.others } args

end Arguments

/-- A command as it was called. -/
structure Invocation where
  command : Command
  /-- Whether all events are shown, and not only warnings. -/
  verbose : Bool
  deriving DecidableEq, Repr

namespace Invocation

/-- The two headers among the arguments. -/
def headers? (given : Given) : Option (Text × Text) :=
  match given.others with
  | [extended, plain] => if plain.isEmpty || extended.isEmpty then none else some (plain, extended)
  | _ => none

/-- The command that generates code. -/
def generate? (args : List Text) : Option (Command × Bool) := do
  let flags := [.verbose, .template, .exclude, .config, .output]
  let given ← Arguments.read flags none ⟨[], []⟩ args
  let (plain, extended) ← headers? given
  let template? ← match given.values .template with
    | [] => some none
    | name :: _ => (Template.ofName? name).map some
  let config? ← given.path? .config
  let output? ← given.path? .output
  return (.generate ⟨template?, plain, extended, given.values .exclude, config?, output?⟩,
    given.has .verbose)

/-- The format of a name. -/
def format? (name : Text) : Option Format :=
  if name = "json".toList then some .json else if name = "yaml".toList then some .yaml else none

/-- The command that prints declarations; the format is JSON unless another is asked for. -/
def analyze? (args : List Text) : Option (Command × Bool) := do
  let given ← Arguments.read [.verbose, .format] none ⟨[], []⟩ args
  let (plain, extended) ← headers? given
  let format ← match given.values .format with
    | [] => some .json
    | name :: _ => format? name
  return (.analyze ⟨plain, extended, format⟩, given.has .verbose)

/-- The command that some arguments spell; `verbose` tells whether events have been asked for before
its name. -/
def ofArgs (verbose : Bool) : List Text → Option Invocation
  | [] => none
  | arg :: args =>
    if arg = "-v".toList || arg = "--verbose".toList then
      if verbose then none else ofArgs true args
    else do
      let (command, more) ←
        if arg = "generate".toList then generate? args
        else if arg = "analyze".toList then analyze? args
        else none
      return ⟨command, verbose || more⟩

/-- The command that the arguments of the program spell; there is none where they are wrong. -/
def ofArgs? (args : List Text) : Option Invocation := ofArgs false args

/-- The log lines that are shown of some events: warnings, or all of them. -/
def shownLog (i : Invocation) (log : List Event) : List Text :=
  (log.filter fun e => i.verbose || e.level = .warn).map Event.line

end Invocation

/-- The exit code of a command. -/
def Outcome.exitCode (o : Outcome) : Nat := if o.error?.isSome then 1 else 0

/-- The exit code for wrong arguments. -/
def usageExitCode : Nat := 2

end DispatchTable
