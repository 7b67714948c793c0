import DispatchTable.Header.Dialect

/-!
# Failures

What can stop a run, each with the facts that its message gives. A failure of the system to read or
write a file is kept apart from the failures that the library finds itself.
-/

namespace DispatchTable

/-- Why the system could not give or take the content of a file. -/
inductive FileError where
  /-- There is nothing of that name. -/
  | notFound
  /-- A file stands where the path needs a directory. -/
  | notDirectory
  /-- A directory stands where the path needs a file. -/
  | isDirectory
  /-- The system forbids it. -/
  | permissionDenied
  /-- A name in the path, or the path itself, is too long. -/
  | nameTooLong
  /-- The path holds a character that no path may hold. -/
  | nulInName
  /-- The content is no UTF-8. -/
  | notUtf8
  /-- Any other error, with its number and its description. -/
  | other (code : Nat) (description : Text)
  deriving DecidableEq, Repr

/-- The wording of a file error. -/
def FileError.message : FileError → Text
  | notFound => "No such file or directory (os error 2)".toList
  | notDirectory => "Not a directory (os error 20)".toList
  | isDirectory => "Is a directory (os error 21)".toList
  | permissionDenied => "Permission denied (os error 13)".toList
  | nameTooLong => "File name too long (os error 36)".toList
  | nulInName => "file name contained an unexpected NUL byte".toList
  | notUtf8 => "stream did not contain valid UTF-8".toList
  | other code description =>
    description ++ " (os error ".toList ++ Text.ofNat code ++ [')']

/-- What stops the reading of headers and of a configuration. -/
inductive Failure where
  /-- A header cannot be read to its end. -/
  | unreadableHeader (cause : FileError)
  /-- A statement is no declaration of the dialect it was collected for. -/
  | malformedDeclaration (dialect : Dialect) (statement : Text)
  /-- A function has no slot in its table. -/
  | missingSlot (name table : Text)
  /-- The two declarations of a function do not differ by exactly the receiver. -/
  | arityMismatch (name : Text) (plain extended : Nat)
  /-- The file of a configuration cannot be read. -/
  | unreadableConfig (path : Text) (cause : FileError)
  /-- A document is no configuration. -/
  | invalidConfig
  deriving DecidableEq, Repr

namespace Failure

/-- The wording of a failure; where the document of a configuration is at fault, the detail stands
open. -/
def message : Failure → Text
  | unreadableHeader cause => "failed to read header: ".toList ++ cause.message
  | malformedDeclaration dialect statement =>
    "malformed ".toList ++ dialect.header ++ " declaration: '".toList ++ statement ++ ['\'']
  | missingSlot name table =>
    "function '".toList ++ name ++ "' is missing from the ".toList ++ table ++ " layout".toList
  | arityMismatch name plain extended =>
    "function '".toList ++ name ++ "' has ".toList ++ Text.ofNat plain ++
      " plain argument(s) but ".toList ++ Text.ofNat extended ++
      " extended argument(s); expected exactly one extra receiver".toList
  | unreadableConfig path cause =>
    "failed to read config ".toList ++ path ++ ": ".toList ++ cause.message
  | invalidConfig => "invalid generator config: <yaml>".toList

/-- The file error beneath a failure, if there is one. -/
def cause? : Failure → Option FileError
  | unreadableHeader cause => some cause
  | unreadableConfig _ cause => some cause
  | _ => none

end Failure

end DispatchTable
