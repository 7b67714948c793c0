import DispatchTable.Text.Basic

/-!
# Tokens

The words of a YAML document. The indentation of blocks is made explicit by tokens that open and
close them.
-/

namespace DispatchTable.Yaml

/-- A word of a document. -/
inductive Token where
  /-- The end of the document stream. -/
  | streamEnd
  /-- The version that a document asks for. -/
  | version (major minor : Nat)
  /-- What a tag handle stands for. -/
  | tagHandle (handle : Text) (meaning : List UInt8)
  | documentStart
  | documentEnd
  | sequenceStart
  | mappingStart
  /-- The end of a block sequence or mapping. -/
  | blockEnd
  | flowSequenceStart
  | flowSequenceEnd
  | flowMappingStart
  | flowMappingEnd
  /-- The hyphen before an item of a block sequence. -/
  | blockEntry
  /-- The comma between the items of a flow collection. -/
  | flowEntry
  /-- What follows is a key. -/
  | key
  /-- What follows is a value. -/
  | value
  | reference (name : Text)
  | anchor (name : Text)
  /-- A tag, by its handle and the bytes that follow it. -/
  | tag (handle : Text) (rest : List UInt8)
  | scalar (isPlain : Bool) (text : Text)
  deriving DecidableEq, Repr

end DispatchTable.Yaml
