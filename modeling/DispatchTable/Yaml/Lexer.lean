import DispatchTable.Yaml.Tag

/-!
# Reading tokens

A document is cut into tokens from left to right. Two things are only known after the fact. Blocks
end where the indentation falls back, and a scalar, an alias or a collection turns out to be a key
when a colon follows it. So the places where a key may have begun are kept, one for each collection
that is open, and the tokens of a key are put in where it began.
-/

namespace DispatchTable.Yaml

/-- A place where a key may have begun. -/
structure KeyStart where
  /-- Whether nothing else may stand there. -/
  required : Bool
  /-- The number of tokens before it. -/
  position : Nat
  index : Nat
  line : Nat
  column : Nat
  deriving DecidableEq, Repr

/-- What is known between two tokens. -/
structure Lexer where
  cursor : Cursor
  /-- The open flow collections. -/
  flow : Nat
  /-- The indentation of the innermost block, less than zero outside of all blocks. -/
  indent : Int
  /-- The indentations of the blocks around it. -/
  outer : List Int
  /-- Whether a key may begin here. -/
  keyAllowed : Bool
  /-- Where a key may have begun in the innermost collection. -/
  keyStart? : Option KeyStart
  /-- Where a key may have begun in the collections around it. -/
  outerKeyStarts : List (Option KeyStart)
  tokens : Array Token

namespace Lexer

/-- The state before the first token. -/
def start (document : Text) : Lexer :=
  ⟨.start document, 0, -1, [], true, none, [], #[]⟩

/-- Add a token. -/
def push (l : Lexer) (token : Token) : Lexer := { l with tokens := l.tokens.push token }

/-- Go on at another place. -/
def goTo (l : Lexer) (cursor : Cursor) : Lexer := { l with cursor }

/-- Add a token that is some characters long. -/
def pushNext (l : Lexer) (token : Token) (size : Nat) : Lexer :=
  (l.push token).goTo (l.cursor.skip size)

/-- The state at the next token: spaces, comments and line ends are skipped, and a byte order mark
at the beginning of a line. A tab is skipped only where no key may begin, and outside of flow
collections a key may begin on a new line. -/
def skipSpace : (fuel : Nat) → (comment : Bool) → Lexer → Lexer
  | 0, _, l => l
  | fuel + 1, comment, l =>
    let onward := { l with cursor := l.cursor.next }
    match l.cursor.head? with
    | none => l
    | some c =>
      if isBreak c then
        skipSpace fuel false { onward with keyAllowed := l.keyAllowed || l.flow == 0 }
      else if comment || c == '#' then skipSpace fuel true onward
      else if c == ' ' || c == '\t' && (l.flow != 0 || !l.keyAllowed) ||
          l.cursor.column == 0 && c.toNat == 0xFEFF then skipSpace fuel false onward
      else l

/-- A key must end on its line and within 1024 characters. -/
def isStale (l : Lexer) (key : KeyStart) : Bool :=
  key.line < l.cursor.line || key.index + 1024 < l.cursor.index

/-- Forget a place where a key cannot have begun any more; a required key must not be forgotten. -/
def forgetStale (l : Lexer) : Option KeyStart → Option (Option KeyStart)
  | none => some none
  | some key => if l.isStale key then (if key.required then none else some none) else some key

/-- Forget all places where a key cannot have begun any more. -/
def forgetAllStale (l : Lexer) : Option Lexer := do
  let keyStart? ← l.forgetStale l.keyStart?
  let outerKeyStarts ← l.outerKeyStarts.mapM l.forgetStale
  return { l with keyStart?, outerKeyStarts }

/-- Forget the place where a key may have begun in the innermost collection. -/
def forgetKey (l : Lexer) : Option Lexer :=
  if l.keyStart?.any KeyStart.required then none else some { l with keyStart? := none }

/-- Keep this place as one where a key may have begun. -/
def keepKey (l : Lexer) : Option Lexer :=
  if l.keyAllowed then do
    let l ← l.forgetKey
    return { l with
      keyStart? := some
        { required := l.flow == 0 && l.indent == l.cursor.column
          position := l.tokens.size
          index := l.cursor.index
          line := l.cursor.line
          column := l.cursor.column } }
  else some l

/-- End the blocks that are indented by more than `column`. -/
def closeBlocks (column : Int) : List Int → Lexer → Lexer
  | outer, l =>
    if l.flow == 0 && column < l.indent then
      match outer with
      | [] => { l.push .blockEnd with indent := -1, outer := [] }
      | indent :: outer => closeBlocks column outer { l.push .blockEnd with indent, outer }
    else l

/-- Begin a block at a column, unless one is open there; its token goes to a position among those
that have been read. -/
def openBlock (l : Lexer) (column : Nat) (position : Nat) (token : Token) : Lexer :=
  if l.flow == 0 && l.indent < column then
    { l with
      indent := column
      outer := l.indent :: l.outer
      tokens := l.tokens.insertIdxIfInBounds position token }
  else l

/-- Leave all blocks, as the end of a document does. -/
def leaveBlocks (l : Lexer) : Option Lexer := do
  let l ← (closeBlocks (-1) l.outer l).forgetKey
  return { l with keyAllowed := false }

/-- The beginning of a flow collection. -/
def openFlow (l : Lexer) (token : Token) : Option Lexer := do
  let l ← l.keepKey
  return { l.pushNext token 1 with
    flow := l.flow + 1
    keyAllowed := true
    keyStart? := none
    outerKeyStarts := l.keyStart? :: l.outerKeyStarts }

/-- The end of a flow collection. -/
def closeFlow (l : Lexer) (token : Token) : Option Lexer := do
  let l ← l.forgetKey
  let l := { l.pushNext token 1 with keyAllowed := false }
  return match l.outerKeyStarts with
    | [] => l
    | keyStart? :: outerKeyStarts =>
      { l with flow := l.flow - 1, keyStart?, outerKeyStarts }

/-- The comma in a flow collection. -/
def flowEntry (l : Lexer) : Option Lexer := do
  let l ← l.forgetKey
  return { l.pushNext .flowEntry 1 with keyAllowed := true }

/-- The hyphen before an item. -/
def blockEntry (l : Lexer) : Option Lexer := do
  if l.flow == 0 && !l.keyAllowed then none
  else
    let l ← (l.openBlock l.cursor.column l.tokens.size .sequenceStart).forgetKey
    return { l.pushNext .blockEntry 1 with keyAllowed := true }

/-- The question mark before a key. -/
def key (l : Lexer) : Option Lexer := do
  if l.flow == 0 && !l.keyAllowed then none
  else
    let l ← (l.openBlock l.cursor.column l.tokens.size .mappingStart).forgetKey
    return { l.pushNext .key 1 with keyAllowed := l.flow == 0 }

/-- The colon before a value. -/
def value (l : Lexer) : Option Lexer :=
  match l.keyStart? with
  | some start =>
    let l := { l with tokens := l.tokens.insertIdxIfInBounds start.position .key }
    let l := l.openBlock start.column start.position .mappingStart
    some { l.pushNext .value 1 with keyStart? := none, keyAllowed := false }
  | none =>
    if l.flow == 0 && !l.keyAllowed then none
    else
      let l := l.openBlock l.cursor.column l.tokens.size .mappingStart
      some { l.pushNext .value 1 with keyAllowed := l.flow == 0 }

/-- A token that may begin a key. -/
def keyed (l : Lexer) (read : Cursor → Option (Token × Cursor)) : Option Lexer := do
  let l ← l.keepKey
  let (token, k) ← read l.cursor
  return { (l.push token).goTo k with keyAllowed := false }

/-- A plain scalar; after a line end a key may begin. -/
def plainScalar (l : Lexer) : Option Lexer := do
  let l ← l.keepKey
  let (text, broken, k) ← plain? (l.flow != 0) (l.indent + 1).toNat l.cursor
  return { (l.push (.scalar true text)).goTo k with keyAllowed := broken }

/-- A block scalar. -/
def blockScalar (l : Lexer) (literal : Bool) : Option Lexer := do
  let l ← l.forgetKey
  let (text, k) ← block? literal l.indent l.cursor
  return { (l.push (.scalar false text)).goTo k with keyAllowed := true }

/-- The mark that opens or closes a document. -/
def documentMark (l : Lexer) : Option Lexer := do
  let l ← l.leaveBlocks
  return l.pushNext (if l.cursor.sees '-' then .documentStart else .documentEnd) 3

/-- A directive. -/
def directive (l : Lexer) : Option Lexer := do
  let l ← l.leaveBlocks
  let (token, k) ← directive? l.cursor
  return (l.push token).goTo k

/-- Read the token that begins with the character `c`. -/
def token (l : Lexer) (c : Char) : Option Lexer :=
  let k := l.cursor
  let inFlow := l.flow != 0
  let spaceNext := atSpace (k.rest.drop 1)
  if k.column == 0 && c == '%' then l.directive
  else if k.atMark then l.documentMark
  else if c == '[' then l.openFlow .flowSequenceStart
  else if c == '\x7b' then l.openFlow .flowMappingStart
  else if c == ']' then l.closeFlow .flowSequenceEnd
  else if c == '\x7d' then l.closeFlow .flowMappingEnd
  else if c == ',' then l.flowEntry
  else if c == '-' && spaceNext then l.blockEntry
  else if c == '?' && (inFlow || spaceNext) then l.key
  else if c == ':' && (inFlow || spaceNext) then l.value
  else if c == '*' then l.keyed fun k => (name? k).map fun (name, k) => (.reference name, k)
  else if c == '&' then l.keyed fun k => (name? k).map fun (name, k) => (.anchor name, k)
  else if c == '!' then l.keyed (tag? inFlow)
  else if (c == '|' || c == '>') && !inFlow then l.blockScalar (c == '|')
  else if c == '\'' || c == '"' then
    l.keyed fun k => (quoted? (c == '\'') k).map fun (text, k) => (.scalar false text, k)
  else if isSpace c || "|>%@`#".toList.contains c then none
  else l.plainScalar

/-- Read tokens up to the end of the document stream. -/
def run : (fuel : Nat) → Lexer → Option (List Token)
  | 0, _ => none
  | fuel + 1, l => do
    let l ← (skipSpace (l.cursor.rest.length + 1) false l).forgetAllStale
    let l := closeBlocks l.cursor.column l.outer l
    match l.cursor.head? with
    | none =>
      let l := if l.cursor.column == 0 then l
        else l.goTo { l.cursor with column := 0, line := l.cursor.line + 1 }
      let l ← l.leaveBlocks
      return (l.push .streamEnd).tokens.toList
    | some c =>
      let l ← l.token c
      run fuel l

end Lexer

/-- The tokens of a document stream. -/
def tokens? (document : Text) : Option (List Token) :=
  if document.all isAllowed then Lexer.run (document.length + 1) (.start document) else none

end DispatchTable.Yaml
