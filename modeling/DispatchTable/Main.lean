import DispatchTable.Command.Arguments

/-!
# The program

The outer layer: it reads the files that a command names, runs the command, and prints what it made,
what it reported and what stopped it.
-/

namespace DispatchTable.Main

/-- The file error of a system error number. -/
def fileError (code : UInt32) (description : String) : FileError :=
  match code.toNat with
  | 2 => .notFound
  | 13 => .permissionDenied
  | 20 => .notDirectory
  | 21 => .isDirectory
  | 36 => .nameTooLong
  | n => .other n description.toList

/-- The file error behind an exception. -/
def cause : IO.Error → FileError
  | .noFileOrDirectory _ code details => fileError code details
  | .inappropriateType _ code details => fileError code details
  | .permissionDenied _ code details => fileError code details
  | .invalidArgument _ code details => fileError code details
  | .alreadyExists _ code details => fileError code details
  | .noSuchThing _ code details => fileError code details
  | .resourceExhausted _ code details => fileError code details
  | .resourceBusy code details => fileError code details
  | .hardwareFault code details => fileError code details
  | .unsupportedOperation code details => fileError code details
  | .otherError code details => fileError code details
  | e => .other 5 (toString e).toList

/-- Open a file for reading and read it to its end. -/
def look (path : Text) : IO (Except FileError Content) := do
  let name := String.ofList path
  match ← (IO.FS.Handle.mk name .read).toBaseIO with
  | .error e => return .error (cause e)
  | .ok handle =>
    match ← handle.readBinToEnd.toBaseIO with
    | .error e => return .ok (.error (cause e))
    | .ok bytes => return .ok (.ok bytes)

/-- Write a file. -/
def store (path : Text) (bytes : ByteArray) : IO (Except FileError Unit) := do
  match ← (IO.FS.writeBinFile (String.ofList path) bytes).toBaseIO with
  | .error e => return .error (cause e)
  | .ok () => return .ok ()

/-- Run a command and print what comes of it. -/
def run (i : Invocation) : IO UInt32 := do
  let found ← i.command.inputs.mapM fun path => do return (path, ← look path)
  let plan := i.command.plan fun path => (found.lookup path).getD (.error .notFound)
  let outcome ← carryOut plan store
  let stderr ← IO.getStderr
  for line in i.shownLog outcome.log do
    stderr.putStrLn (String.ofList line)
  (← IO.getStdout).putStr (String.ofList outcome.printed)
  if let some e := outcome.error? then
    stderr.putStrLn (String.ofList e.report)
  return outcome.exitCode.toUInt32

/-- What is printed when the arguments are wrong. -/
def usage : String :=
  "Usage: gen-wrapper [-v] generate [-t TEMPLATE] [-x NAME]... [-c FILE] [-o FILE] " ++
  "PLAIN EXTENDED\n" ++
  "       gen-wrapper [-v] analyze [--format FORMAT] PLAIN EXTENDED"

end DispatchTable.Main

/-- Run the command that the arguments spell. -/
def main (args : List String) : IO UInt32 := do
  match DispatchTable.Invocation.ofArgs? (args.map String.toList) with
  | some i => DispatchTable.Main.run i
  | none =>
    (← IO.getStderr).putStrLn DispatchTable.Main.usage
    return DispatchTable.usageExitCode.toUInt32
