import DispatchTable.Signature
import DispatchTable.Template
import DispatchTable.Text.Blank

/-!
# Wrappers

A wrapper is the printed definition of a function that forwards its call to the table beneath. Its
parameters stand one on a line, each in the column right after the opening parenthesis, reached by
tabs of eight columns and then spaces.
-/

namespace DispatchTable

/-- A type ready to have a name after it: one space follows, unless the type ends in a star or a
space. -/
def padType (type : Text) : Text :=
  if type.endsWith '*' || type.endsWith ' ' then type else type ++ [' ']

/-- The columns between the margin and the first parameter of a wrapper of this name. -/
def indentWidth (wrapper : Text) : Nat := wrapper.utf8Size + 2

/-- The indent of a parameter: as many tabs of eight columns as fit, then spaces. -/
def indent (wrapper : Text) : Text :=
  List.replicate (indentWidth wrapper / 8) '\t' ++ List.replicate (indentWidth wrapper % 8) ' '

/-- The parameter list of a wrapper, one parameter on a line; the first one needs no indent, as it
follows the parenthesis. -/
def parameters (f : Signature) (wrapper : Text) : Text :=
  Text.trim <| List.intercalate ",\n".toList <|
    f.args.map fun arg => indent wrapper ++ padType arg.type ++ arg.name

namespace Template

/-- The name of the wrapper of a function. -/
def wrapperName (t : Template) (f : Signature) : Text := t.name ++ "_C_".toList ++ f.name

/-- What a wrapper passes on: the names of its arguments, where the receiver is left out or is the
table beneath. -/
def forwarded (t : Template) (f : Signature) : List Text :=
  let names := (f.args.drop 1).map Argument.name
  match t with
  | base => names
  | stack => "funcs".toList :: names

/-- The definition of the wrapper of a function. -/
def wrapper (t : Template) (f : Signature) : Text :=
  "static CK_RV\n".toList ++
  t.wrapperName f ++ " (".toList ++ parameters f (t.wrapperName f) ++ ")\n".toList ++
  "\x7b\n".toList ++
  "\tp11_virtual *virt = (p11_virtual *)self;\n".toList ++
  "\t".toList ++ t.lowerTable ++ " *funcs = virt->lower_module;\n".toList ++
  "\treturn funcs->C_".toList ++ f.name ++ " (".toList ++
    List.intercalate ", ".toList (t.forwarded f) ++ ");\n".toList ++
  "\x7d\n".toList

end Template

end DispatchTable
