import DispatchTable.Content
import DispatchTable.Header.Declaration
import DispatchTable.Header.Outline
import DispatchTable.Merge

/-!
# Interfaces

The interface of a table is what both headers together say about its functions: the plain and the
extended signatures, merged, and each list in the order of its slots.
-/

namespace DispatchTable

/-- The outline of a header from its content. -/
def Outline.ofContent (d : Dialect) (content : Content) : Traced Failure Outline :=
  match content.lines with
  | .error cause => .fail (.unreadableHeader cause)
  | .ok lines =>
    let (last, entries) := d.readAll .outside lines
    let outline := ofEntries entries
    ⟨d.outlineLog last outline, .ok outline⟩

/-- The merged signatures of a table, each list in slot order. -/
structure Interface where
  plain : List Signature
  extended : List Signature
  deriving DecidableEq, Repr

namespace Interface

/-- Merge two lists of signatures and put each in the order of its layout. -/
def ofSignatures (plain extended : List Signature) (plainLayout extendedLayout : Layout) :
    Traced Failure Interface :=
  let merged := merge plain extended
  ⟨merged.log,
    match merged.failure? with
    | some e => .error e
    | none => do
      let plain ← plainLayout.arrange Dialect.plain.table merged.plain
      let extended ← extendedLayout.arrange Dialect.extended.table merged.extended
      return ⟨plain, extended⟩⟩

/-- The interface that a plain and an extended header declare. -/
def ofHeaders (plain extended : Content) : Traced Failure Interface := do
  let plainOutline ← Outline.ofContent .plain plain
  let extendedOutline ← Outline.ofContent .extended extended
  let functions ← Traced.ofExcept (plainOutline.statements.mapM Dialect.plain.signature)
  let functions' ← Traced.ofExcept (extendedOutline.statements.mapM Dialect.extended.signature)
  Traced.tell [.declared functions.length functions'.length]
  ofSignatures functions functions' plainOutline.layout extendedOutline.layout

/-- The first plain signature of a name. -/
def plain? (i : Interface) (name : Text) : Option Signature := i.plain.find? (·.name = name)

/-- The first extended signature of a name. -/
def extended? (i : Interface) (name : Text) : Option Signature := i.extended.find? (·.name = name)

end Interface

end DispatchTable
