import DispatchTable.Document.Json
import DispatchTable.Yaml.Char

/-!
# Documents in YAML

Records and lists are written as blocks, the items of a list not further in than the key that holds
it. A text is written plainly where that reads back as the same text. It stands between single
quotes where it could be taken for another type or for a part of the block, and between double
quotes, with escapes, where it holds characters that cannot be printed.
-/

namespace DispatchTable.Document

open Yaml

/-- The words, in lower case, that some reader takes for a truth value, for nothing or for no
number. -/
def reservedWords : List Text :=
  ["~", "null", "nil", "true", "false", "y", "yes", "n", "no", "on", "off", "nan"].map String.toList

/-- Whether a text, written plainly, could be taken for something other than a text: the empty text,
a reserved word, and all that begins like a number. -/
def isAmbiguous (t : Text) : Bool :=
  match t with
  | [] => true
  | c :: _ =>
    c.isDigit || c == '-' || c == '.' || c == '+' || reservedWords.contains (t.map Char.toLower)

/-- Whether a mark in a text, with `before` right before it, would end a plain scalar: a colon
before a space or a number sign after one. -/
def hasMark (before : Char) : Text → Bool
  | [] => false
  | c :: t => c == ':' && atSpace t || c == '#' && isSpace before || hasMark c t

/-- Whether a text would be taken for a part of the block that it stands in. -/
def isStructural (t : Text) : Bool :=
  match t with
  | [] => true
  | c :: t' =>
    t.startsWith "---".toList || t.startsWith "...".toList || isIndicator c ||
      ((c == '?' || c == ':' || c == '-') && atSpace t') || c == ' ' || t.getLast? == some ' ' ||
      hasMark c t' || t.any isBreak

/-- Whether a space stands right beside the end of a line. -/
def hasSpacedBreak : Text → Bool
  | c :: d :: t => c == ' ' && isBreak d || isBreak c && d == ' ' || hasSpacedBreak (d :: t)
  | _ => false

/-- Whether a text can only be written with escapes. -/
def needsEscapes (t : Text) : Bool :=
  t.any (fun c => !isPrintable c || c == '\n') || hasSpacedBreak t

/-- The letters of the short escapes, by code point. -/
def escapeLetters : List (Nat × Char) :=
  [(0, '0'), (7, 'a'), (8, 'b'), (9, 't'), (10, 'n'), (11, 'v'), (12, 'f'), (13, 'r'), (0x1B, 'e'),
    (0x22, '"'), (0x5C, '\\'), (0x85, 'N'), (0x2028, 'L'), (0x2029, 'P')]

/-- A character as it stands between double quotes. -/
def escaped (c : Char) : Text :=
  let n := c.toNat
  if isPrintable c && !isBreak c && c != '"' && c != '\\' then [c]
  else
    match escapeLetters.lookup n with
    | some letter => ['\\', letter]
    | none =>
      if n ≤ 0xFF then '\\' :: 'x' :: hexDigits true 2 n
      else if n ≤ 0xFFFF then '\\' :: 'u' :: hexDigits true 4 n
      else '\\' :: 'U' :: hexDigits true 8 n

/-- The rest of a text between single quotes, where `broken` tells that a line has just ended.
Quotes are doubled, and what follows the end of a line is indented. -/
def singleQuoted (columns : Nat) (broken : Bool) : Text → Text
  | [] => if broken then List.replicate columns ' ' else []
  | c :: t =>
    if isBreak c then c :: singleQuoted columns true t
    else
      (if broken then List.replicate columns ' ' else []) ++
        (if c = '\'' then ['\'', '\''] else [c]) ++ singleQuoted columns false t

/-- A text as a scalar, `columns` from the margin where it runs over several lines. -/
def yamlText (columns : Nat) (t : Text) : Text :=
  if needsEscapes t then '"' :: t.flatMap escaped ++ ['"']
  else if isAmbiguous t || isStructural t then '\'' :: singleQuoted columns false t ++ ['\'']
  else t

mutual

/-- A document as a block, its first line already `columns` from the margin. -/
def yaml (columns : Nat) : Document → Text
  | text value => yamlText columns value ++ ['\n']
  | list [] => "[]\n".toList
  | list (item :: items) =>
    "- ".toList ++ yaml (columns + 2) item ++ yamlItems columns items
  | record [] => "\x7b\x7d\n".toList
  | record ((key, value) :: fields) =>
    key ++ [':'] ++ yamlValue columns value ++ yamlFields columns fields

/-- More items of a list. -/
def yamlItems (columns : Nat) : List Document → Text
  | [] => []
  | item :: items =>
    List.replicate columns ' ' ++ "- ".toList ++ yaml (columns + 2) item ++
      yamlItems columns items

/-- More fields of a record. -/
def yamlFields (columns : Nat) : List (Text × Document) → Text
  | [] => []
  | (key, value) :: fields =>
    List.replicate columns ' ' ++ key ++ [':'] ++ yamlValue columns value ++
      yamlFields columns fields

/-- The value of a field whose key is `columns` from the margin: on the line of the key or, as a
block, on the lines after it. -/
def yamlValue (columns : Nat) : Document → Text
  | text value => ' ' :: yamlText (columns + 2) value ++ ['\n']
  | list [] => " []\n".toList
  | list items => '\n' :: yamlItems columns items
  | record [] => " \x7b\x7d\n".toList
  | record fields => '\n' :: yamlFields (columns + 2) fields

end

end DispatchTable.Document
