import DispatchTable.Document.Basic

/-!
# Documents in JSON

The compact form has no white space. The spread form puts every item and every field on a line of
its own, two columns further in than what holds it; empty lists and records stay on one line.
-/

namespace DispatchTable.Document

/-- The digits of hexadecimal numbers up to nine and beyond, in the case that `upper` gives. -/
def hexDigit (upper : Bool) (n : Nat) : Char :=
  if n < 10 then Char.ofNat (0x30 + n) else Char.ofNat ((if upper then 0x37 else 0x57) + n)

/-- The last `width` hexadecimal digits of a number. -/
def hexDigits (upper : Bool) : (width n : Nat) → Text
  | 0, _ => []
  | width + 1, n => hexDigits upper width (n / 16) ++ [hexDigit upper (n % 16)]

/-- A character as it stands between quotation marks: only the marks themselves, backslashes and
control characters are escaped. -/
def jsonChar (c : Char) : Text :=
  match c with
  | '"' => ['\\', '"']
  | '\\' => ['\\', '\\']
  | '\n' => ['\\', 'n']
  | '\r' => ['\\', 'r']
  | '\t' => ['\\', 't']
  | c =>
    if c.toNat = 8 then ['\\', 'b']
    else if c.toNat = 12 then ['\\', 'f']
    else if c.toNat < 0x20 then '\\' :: 'u' :: hexDigits false 4 c.toNat
    else [c]

/-- A text between quotation marks. -/
def jsonText (t : Text) : Text := '"' :: t.flatMap jsonChar ++ ['"']

mutual

/-- The compact form of a document. -/
def compactJson : Document → Text
  | text value => jsonText value
  | list items => '[' :: List.intercalate [','] (compactItems items) ++ [']']
  | record fields => '\x7b' :: List.intercalate [','] (compactFields fields) ++ ['\x7d']

/-- The compact forms of the items of a list. -/
def compactItems : List Document → List Text
  | [] => []
  | item :: items => compactJson item :: compactItems items

/-- The compact forms of the fields of a record. -/
def compactFields : List (Text × Document) → List Text
  | [] => []
  | (key, value) :: fields =>
    (jsonText key ++ [':'] ++ compactJson value) :: compactFields fields

end

/-- A new line that begins with some columns of spaces. -/
def newline (columns : Nat) : Text := '\n' :: List.replicate columns ' '

/-- Written parts, each on a line of its own between two brackets. -/
def spread (columns : Nat) (opening closing : Char) : List Text → Text
  | [] => [opening, closing]
  | parts =>
    opening :: newline (columns + 2) ++
      List.intercalate (',' :: newline (columns + 2)) parts ++ newline columns ++ [closing]

mutual

/-- The spread form of a document that begins `columns` from the margin. -/
def json (columns : Nat) : Document → Text
  | text value => jsonText value
  | list items => spread columns '[' ']' (jsonItems (columns + 2) items)
  | record fields => spread columns '\x7b' '\x7d' (jsonFields (columns + 2) fields)

/-- The spread forms of the items of a list. -/
def jsonItems (columns : Nat) : List Document → List Text
  | [] => []
  | item :: items => json columns item :: jsonItems columns items

/-- The spread forms of the fields of a record. -/
def jsonFields (columns : Nat) : List (Text × Document) → List Text
  | [] => []
  | (key, value) :: fields =>
    (jsonText key ++ ": ".toList ++ json columns value) :: jsonFields columns fields

end

end DispatchTable.Document
