import DispatchTable.Failure
import DispatchTable.Signature

/-!
# Declarations

A statement that has the form of its dialect is read as a signature. The arguments are the matches
of the argument pattern, from left to right, in the text between the parentheses. An extended
declaration gives types only, so its arguments have no names yet.
-/

namespace DispatchTable.Dialect

/-- The name and the text of the arguments in a statement. -/
def declaration? (d : Dialect) (statement : Text) : Option (Text × Text) :=
  match d, d.declarationPattern.match? statement with
  | plain, some [_, _, _, name, _, arguments, _] => some (name, arguments)
  | extended, some [_, name, _, _, _, arguments, _] => some (name, arguments)
  | _, _ => none

/-- The argument that a match of the argument pattern stands for. -/
def argument? : Dialect → List Text → Option Argument
  | plain, [_, words, blanks, stars, name] => some ⟨name, (words ++ blanks ++ stars).trim⟩
  | extended, [_, type] => some ⟨[], type.trim⟩
  | _, _ => none

/-- The arguments in the text between the parentheses. -/
def arguments (d : Dialect) (text : Text) : List Argument :=
  (d.argumentPattern.findAll text).filterMap d.argument?

/-- The signature that a statement declares. -/
def signature (d : Dialect) (statement : Text) : Except Failure Signature :=
  match d.declaration? statement with
  | some (name, text) => .ok ⟨name, d.arguments text⟩
  | none => .error (.malformedDeclaration d statement)

end DispatchTable.Dialect
