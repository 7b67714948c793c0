import DispatchTable.Yaml.Lexer

/-!
# Nodes

A document is a tree of scalars, sequences and mappings. An anchor gives a node a number, by which
an alias stands for it elsewhere in the document.
-/

namespace DispatchTable.Yaml

/-- The bytes of a tag, its handle replaced by what it stands for. -/
abbrev Tag := List UInt8

/-- A node of a document. -/
inductive Node where
  | scalar (anchor? : Option Nat) (tag? : Option Tag) (isPlain : Bool) (text : Text)
  | sequence (anchor? : Option Nat) (tag? : Option Tag) (items : List Node)
  | mapping (anchor? : Option Nat) (tag? : Option Tag) (fields : List (Node × Node))
  | reference (number : Nat)

namespace Node

/-- The node that stands where nothing is written. -/
def empty : Node := .scalar none none true []

mutual

/-- The last node, in the order of reading, that an anchor gave a number. -/
def find? (number : Nat) : Node → Option Node
  | scalar anchor? tag? isPlain text =>
    if anchor? = some number then some (scalar anchor? tag? isPlain text) else none
  | sequence anchor? tag? items =>
    (findItem? number items).or
      (if anchor? = some number then some (sequence anchor? tag? items) else none)
  | mapping anchor? tag? fields =>
    (findField? number fields).or
      (if anchor? = some number then some (mapping anchor? tag? fields) else none)
  | reference _ => none

/-- The last node among some items that an anchor gave a number. -/
def findItem? (number : Nat) : List Node → Option Node
  | [] => none
  | item :: items => (findItem? number items).or (find? number item)

/-- The last node among some fields that an anchor gave a number. -/
def findField? (number : Nat) : List (Node × Node) → Option Node
  | [] => none
  | (key, value) :: fields =>
    (findField? number fields).or ((find? number value).or (find? number key))

end

/-- The node that a node stands for in a document. -/
def resolve? (document : Node) : Node → Option Node
  | reference number => document.find? number
  | node => some node

end Node

/-- What is known between two nodes. -/
structure Reader where
  /-- The tokens that are left. -/
  tokens : List Token
  /-- What the tag handles of the document stand for. -/
  handles : List (Text × List UInt8)
  /-- The numbers of the anchors so far, the latest first. -/
  anchors : List (Text × Nat)

namespace Reader

/-- A step of reading; it fails where the tokens make no document. -/
abbrev Step := StateT Reader Option

/-- The next token; the end goes on for ever. -/
def peek : Step Token := do return (← get).tokens.headD .streamEnd

/-- Go past the next token. -/
def skip : Step Unit := modify fun r => { r with tokens := r.tokens.tail }

/-- Go past the next token if it is `token`, and tell whether it was. -/
def skipIf (token : Token) : Step Bool := do
  if (← peek) = token then
    skip
    return true
  else return false

/-- What the tag handles stand for where no directive says otherwise. -/
def standardHandles : List (Text × List UInt8) :=
  [("!".toList, "!".toUTF8.toList), ("!!".toList, "tag:yaml.org,2002:".toUTF8.toList)]

/-- The tag that a handle and the bytes after it make. -/
def tag (handle : Text) (bytes : List UInt8) : Step Tag := do
  if handle.isEmpty then return bytes
  else
    match ((← get).handles ++ standardHandles).lookup handle with
    | some meaning => return meaning ++ bytes
    | none => failure

/-- Give an anchor its number: how many names have been given one before. -/
def anchor (name : Text) : Step Nat := do
  let r ← get
  let number := (r.anchors.map Prod.fst).eraseDups.length
  set { r with anchors := (name, number) :: r.anchors }
  return number

/-- The tag and the anchor before a node, in either order, each at most once. -/
def properties : Step (Option Nat × Option Tag) := do
  match ← peek with
  | .anchor name =>
    skip
    let number ← anchor name
    match ← peek with
    | .tag handle bytes =>
      skip
      return (some number, some (← tag handle bytes))
    | _ => return (some number, none)
  | .tag handle bytes =>
    skip
    let t ← tag handle bytes
    match ← peek with
    | .anchor name =>
      skip
      return (some (← anchor name), some t)
    | _ => return (none, some t)
  | _ => return (none, none)

mutual

/-- A node. In a block it may be a block collection, and where `entries` says so a sequence whose
items are not indented. -/
def node (block entries : Bool) : (fuel : Nat) → Step Node
  | 0 => failure
  | fuel + 1 => do
    match ← peek with
    | .reference name =>
      skip
      match (← get).anchors.lookup name with
      | some number => return .reference number
      | none => failure
    | _ =>
      let (anchor?, tag?) ← properties
      match ← peek, block with
      | .scalar isPlain text, _ =>
        skip
        return .scalar anchor? tag? isPlain text
      | .flowSequenceStart, _ =>
        skip
        return .sequence anchor? tag? (← flowItems true fuel)
      | .flowMappingStart, _ =>
        skip
        return .mapping anchor? tag? (← flowFields true fuel)
      | .sequenceStart, true =>
        skip
        return .sequence anchor? tag? (← blockItems fuel)
      | .mappingStart, true =>
        skip
        return .mapping anchor? tag? (← blockFields fuel)
      | token, _ =>
        if entries && token = .blockEntry then
          return .sequence anchor? tag? (← entryItems fuel)
        else if anchor?.isSome || tag?.isSome then return .scalar anchor? tag? true []
        else failure

/-- The node that follows, or the empty one before any of some tokens. -/
def nodeUnless (block entries : Bool) (ends : List Token) : (fuel : Nat) → Step Node
  | 0 => failure
  | fuel + 1 => do
    if (← peek) ∈ ends then return .empty else node block entries fuel

/-- The items of a block sequence, up to its end. -/
def blockItems : (fuel : Nat) → Step (List Node)
  | 0 => failure
  | fuel + 1 => do
    match ← peek with
    | .blockEntry =>
      skip
      let item ← nodeUnless true false [.blockEntry, .blockEnd] fuel
      return item :: (← blockItems fuel)
    | .blockEnd =>
      skip
      return []
    | _ => failure

/-- The items of a sequence that is not indented; it ends where no item follows. -/
def entryItems : (fuel : Nat) → Step (List Node)
  | 0 => failure
  | fuel + 1 => do
    if ← skipIf .blockEntry then
      let item ← nodeUnless true false [.blockEntry, .key, .value, .blockEnd] fuel
      return item :: (← entryItems fuel)
    else return []

/-- The fields of a block mapping, up to its end. -/
def blockFields : (fuel : Nat) → Step (List (Node × Node))
  | 0 => failure
  | fuel + 1 => do
    match ← peek with
    | .key =>
      skip
      let key ← nodeUnless true true [.key, .value, .blockEnd] fuel
      let value ←
        if ← skipIf .value then nodeUnless true true [.key, .value, .blockEnd] fuel
        else pure .empty
      return (key, value) :: (← blockFields fuel)
    | .blockEnd =>
      skip
      return []
    | _ => failure

/-- The items of a flow sequence, up to its end. An item with a colon is a mapping of one field. -/
def flowItems (first : Bool) : (fuel : Nat) → Step (List Node)
  | 0 => failure
  | fuel + 1 => do
    if ← skipIf .flowSequenceEnd then return []
    else
      unless first do
        unless ← skipIf .flowEntry do failure
      match ← peek with
      | .key =>
        skip
        let key ←
          if (← peek) ∈ [.value, .flowEntry, .flowSequenceEnd] then do
            skip
            pure .empty
          else node false false fuel
        let value ←
          if ← skipIf .value then nodeUnless false false [.flowEntry, .flowSequenceEnd] fuel
          else pure .empty
        return .mapping none none [(key, value)] :: (← flowItems false fuel)
      | .flowSequenceEnd =>
        skip
        return []
      | _ =>
        let item ← node false false fuel
        return item :: (← flowItems false fuel)

/-- The fields of a flow mapping, up to its end. A node without a colon is a key without a value. -/
def flowFields (first : Bool) : (fuel : Nat) → Step (List (Node × Node))
  | 0 => failure
  | fuel + 1 => do
    if ← skipIf .flowMappingEnd then return []
    else
      unless first do
        unless ← skipIf .flowEntry do failure
      match ← peek with
      | .key =>
        skip
        let key ← nodeUnless false false [.value, .flowEntry, .flowMappingEnd] fuel
        let value ←
          if ← skipIf .value then nodeUnless false false [.flowEntry, .flowMappingEnd] fuel
          else pure .empty
        return (key, value) :: (← flowFields false fuel)
      | .flowMappingEnd =>
        skip
        return []
      | _ =>
        let key ← node false false fuel
        return (key, .empty) :: (← flowFields false fuel)

end

/-- The directives before a document. There may be one version, which must be known, and one meaning
for each handle. -/
def directives (version : Bool) : (fuel : Nat) → Step Unit
  | 0 => failure
  | fuel + 1 => do
    match ← peek with
    | .version major minor =>
      if version || major != 1 || (minor != 1 && minor != 2) then failure
      else
        skip
        directives true fuel
    | .tagHandle handle meaning =>
      let r ← get
      if (r.handles.lookup handle).isSome then failure
      else
        set { r with tokens := r.tokens.tail, handles := (handle, meaning) :: r.handles }
        directives version fuel
    | _ => return ()

/-- The only document of a stream; `none` if there is no document at all. -/
def document (fuel : Nat) : Step (Option Node) := do
  match ← peek with
  | .streamEnd => return none
  | .version _ _ | .tagHandle _ _ | .documentStart =>
    directives false fuel
    unless ← skipIf .documentStart do failure
    let root ← nodeUnless true false [.documentStart, .documentEnd, .streamEnd] fuel
    finish fuel
    return some root
  | _ =>
    let root ← node true false fuel
    finish fuel
    return some root
where
  /-- Nothing may follow a document but marks that close it. -/
  finish : Nat → Step Unit
    | 0 => failure
    | fuel + 1 => do
      match ← peek with
      | .documentEnd =>
        skip
        finish fuel
      | .streamEnd => return ()
      | _ => failure

end Reader

/-- The only document of a stream; the inner option is empty if there is no document at all. -/
def document? (stream : Text) : Option (Option Node) := do
  let tokens ← tokens? stream
  let (root?, _) ← (Reader.document (3 * tokens.length + 8)).run ⟨tokens, [], []⟩
  return root?

end DispatchTable.Yaml
