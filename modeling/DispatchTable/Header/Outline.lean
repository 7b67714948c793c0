import DispatchTable.Event
import DispatchTable.Layout
import DispatchTable.Text.Lines

/-!
# Outlines

The outline of a header is what it says about the table: the statements that declare functions, each
joined into one line, and the layout of the table. A header is read line by line. Outside of
statements and blocks only the lead of a line counts, so anything else may stand there. A statement
goes on until its joined text ends in a semicolon. A layout block goes on until a line that begins
with a closing brace, and its members name the slots.
-/

namespace DispatchTable

/-- What one line may complete. -/
inductive Entry where
  /-- A whole statement. -/
  | statement (text : Text)
  /-- A member of a layout block, by its name. -/
  | member (name : Text)
  deriving DecidableEq, Repr

/-- The text of a statement. -/
def Entry.statement? : Entry → Option Text
  | statement text => some text
  | member _ => none

/-- The name of a member. -/
def Entry.member? : Entry → Option Text
  | statement _ => none
  | member name => some name

/-- Where in a header a line stands. -/
inductive Place where
  /-- Outside of statements and blocks. -/
  | outside
  /-- Inside a statement of which `text` has been joined. -/
  | statement (text : Text)
  /-- Inside a layout block. -/
  | block
  deriving DecidableEq, Repr

/-- What the lines of a header say about the table. -/
structure Outline where
  statements : List Text
  layout : Layout
  deriving DecidableEq, Repr

/-- The outline that the entries of a header make. -/
def Outline.ofEntries (entries : List Entry) : Outline :=
  ⟨entries.filterMap Entry.statement?, .ofList (entries.filterMap Entry.member?)⟩

namespace Dialect

/-- The name of the slot that a line of a layout block declares. -/
def memberName? (d : Dialect) (line : Text) : Option Text :=
  match d.memberPattern.match? line with
  | some [_, _, name, _, _, _] => some name
  | _ => none

/-- A joined text is a whole statement once it ends in a semicolon. -/
def closeStatement (text : Text) : Place × List Entry :=
  if text.endsWith ';' then (.outside, [.statement text]) else (.statement text, [])

/-- Read one line: where the next line stands, and what the line completes. -/
def read (d : Dialect) : Place → Text → Place × List Entry
  | .outside, line =>
    if line.startsWith d.statementLead then closeStatement line.trim
    else if line.startsWith d.blockLead then
      (if line.trimEnd.endsWith ';' then .outside else .block, [])
    else (.outside, [])
  | .statement text, line => closeStatement (text ++ [' '] ++ line.trim)
  | .block, line =>
    if line.trimStart.startsWith ['}'] then (.outside, [])
    else (.block, (d.memberName? line).toList.map .member)

/-- Read lines one after the other: where they end, and all that they complete. -/
def readAll (d : Dialect) : Place → List Text → Place × List Entry
  | place, [] => (place, [])
  | place, line :: lines =>
    let (next, entries) := d.read place line
    let (last, more) := d.readAll next lines
    (last, entries ++ more)

/-- The outline of a header. -/
def outline (d : Dialect) (header : Text) : Outline :=
  .ofEntries (d.readAll .outside header.lines).2

/-- What is reported of a header whose lines ended at a place. -/
def outlineLog (d : Dialect) (last : Place) (outline : Outline) : List Event :=
  (match last with
    | .outside => []
    | .statement text => [.cutStatement text]
    | .block => [.cutBlock d]) ++
  [.outlined d outline.statements.length outline.layout.names.length]

end Dialect

end DispatchTable
