import DispatchTable.Yaml.Scalar
import DispatchTable.Yaml.Token

/-!
# Names, tags and directives

How anchors, aliases, tags and the directives of a document are read.
-/

namespace DispatchTable.Yaml

/-- The name of an anchor or an alias, from its indicator on, and the place after it. -/
def name? (k : Cursor) : Option (Text × Cursor) :=
  let (name, k) := k.next.span isNameChar
  if name.isEmpty then none
  else if atSpace k.rest || k.head?.any "?:,]\x7d%@`".toList.contains then some (name, k)
  else none

/-- A character of a tag; commas and square brackets may only stand in a verbatim one. -/
def isTagChar (verbatim : Bool) (c : Char) : Bool :=
  isNameChar c || ";/?:@&=+$.!~*'()".toList.contains c ||
    verbatim && (c == ',' || c == '[' || c == ']')

/-- How many bytes a UTF-8 sequence takes that begins with this byte. -/
def sequenceLength? (byte : Nat) : Option Nat :=
  if byte < 0x80 then some 1
  else if 0xC0 ≤ byte && byte < 0xE0 then some 2
  else if 0xE0 ≤ byte && byte < 0xF0 then some 3
  else if 0xF0 ≤ byte && byte < 0xF8 then some 4
  else none

/-- The bytes of a tag and how many characters spell them. A byte may be spelled by a percent sign
and two digits; `pending` such bytes must follow to complete a UTF-8 sequence. -/
def tagBytes (verbatim : Bool) (pending : Nat) : Text → Option (List UInt8 × Nat)
  | '%' :: a :: b :: s => do
    let high ← hexValue? a
    let low ← hexValue? b
    let byte := high * 16 + low
    let pending ←
      if pending = 0 then (sequenceLength? byte).map (· - 1)
      else if 0x80 ≤ byte && byte < 0xC0 then some (pending - 1)
      else none
    let (bytes, size) ← tagBytes verbatim pending s
    return (byte.toUInt8 :: bytes, size + 3)
  | [] => if pending = 0 then some ([], 0) else none
  | c :: s =>
    if pending != 0 || c == '%' then none
    else if isTagChar verbatim c then do
      let (bytes, size) ← tagBytes verbatim 0 s
      return (c.toNat.toUInt8 :: bytes, size + 1)
    else some ([], 0)

/-- The bytes of a part of a tag, which must not be empty, and the place after it. -/
def tagPart? (verbatim : Bool) (k : Cursor) : Option (List UInt8 × Cursor) := do
  let (bytes, size) ← tagBytes verbatim 0 k.rest
  if bytes.isEmpty then none else return (bytes, k.skip size)

/-- An exclamation mark, the name after it, and another mark if there is one. -/
def handle? (k : Cursor) : Option (Text × Cursor) :=
  if k.sees '!' then
    let (name, k) := k.next.span isNameChar
    if k.sees '!' then some ('!' :: name ++ ['!'], k.next) else some ('!' :: name, k)
  else none

/-- The handle of a tag and the bytes after it, and the place after the tag. -/
def tagBody? (k : Cursor) : Option (Text × List UInt8 × Cursor) := do
  if k.next.sees '<' then
    let (bytes, k) ← tagPart? true (k.skip 2)
    if k.sees '>' then return ([], bytes, k.next) else none
  else
    let (handle, k) ← handle? k
    if 1 < handle.length && handle.getLast? == some '!' then
      let (bytes, k) ← tagPart? false k
      return (handle, bytes, k)
    else
      let (bytes, size) ← tagBytes false 0 k.rest
      let bytes := (handle.drop 1).map (·.toNat.toUInt8) ++ bytes
      if bytes.isEmpty then return ([], ['!'.toNat.toUInt8], k)
      else return (['!'], bytes, k.skip size)

/-- A tag, from its exclamation mark on, and the place after it. In a flow collection a comma may
follow at once. -/
def tag? (flow : Bool) (k : Cursor) : Option (Token × Cursor) := do
  let (handle, bytes, k) ← tagBody? k
  if atSpace k.rest || flow && k.sees ',' then return (.tag handle bytes, k) else none

/-- A number of at most nine digits and the place after it. -/
def number? (k : Cursor) : Option (Nat × Cursor) :=
  let (digits, k) := k.span Char.isDigit
  if digits.isEmpty || 9 < digits.length then none
  else some (digits.foldl (fun n c => n * 10 + (c.toNat - 0x30)) 0, k)

/-- The version after the name of a version directive. -/
def versionDirective? (k : Cursor) : Option (Token × Cursor) := do
  let (major, k) ← number? (k.skipWhile isGap)
  if !k.sees '.' then none
  else
    let (minor, k) ← number? k.next
    return (.version major minor, k)

/-- The handle and its meaning after the name of a tag directive. -/
def tagDirective? (k : Cursor) : Option (Token × Cursor) := do
  let (handle, k) ← handle? (k.skipWhile isGap)
  if handle.getLast? != some '!' || !k.head?.any isGap then none
  else
    let (meaning, k) ← tagPart? true (k.skipWhile isGap)
    if atSpace k.rest then return (.tagHandle handle meaning, k) else none

/-- A directive, from its percent sign on, and the place of the next line. -/
def directive? (k : Cursor) : Option (Token × Cursor) := do
  let (name, k) := k.next.span isNameChar
  if !atSpace k.rest then none
  else
    let (token, k) ←
      if name = "YAML".toList then versionDirective? k
      else if name = "TAG".toList then tagDirective? k
      else none
    let k ← k.endLine?
    return (token, k)

end DispatchTable.Yaml
