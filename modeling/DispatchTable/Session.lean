import DispatchTable.Table

/-!
# Sessions

A session builds an interface step by step: headers are read into it one after the other, and
merging, sorting and printing may happen at any time in between. A step that fails keeps what was
done before the failure.
-/

namespace DispatchTable

/-- What has been read so far, and how it is going to be printed. -/
structure Session where
  plain : List Signature
  extended : List Signature
  plainLayout : Layout
  extendedLayout : Layout
  config : Config
  deriving DecidableEq, Repr

/-- The session after a step, what was reported, and what ended the step early. -/
structure Progress where
  session : Session
  log : List Event
  failure? : Option Failure
  deriving DecidableEq, Repr

namespace Session

/-- The session before any step. -/
def start : Session := ⟨[], [], .empty, .empty, .default⟩

/-- The signatures of a dialect. -/
def signatures (s : Session) : Dialect → List Signature
  | .plain => s.plain
  | .extended => s.extended

/-- The layout of a dialect. -/
def layout (s : Session) : Dialect → Layout
  | .plain => s.plainLayout
  | .extended => s.extendedLayout

/-- A session with other signatures of a dialect. -/
def setSignatures (s : Session) (signatures : List Signature) : Dialect → Session
  | .plain => { s with plain := signatures }
  | .extended => { s with extended := signatures }

/-- A session with more slots for a dialect. -/
def addSlots (s : Session) (names : List Text) : Dialect → Session
  | .plain => { s with plainLayout := s.plainLayout.insertAll names }
  | .extended => { s with extendedLayout := s.extendedLayout.insertAll names }

/-- Add the declarations of some statements up to the first that is malformed. -/
def declareAll (s : Session) (d : Dialect) : List Text → Session × Option Failure
  | [] => (s, none)
  | statement :: statements =>
    match d.signature statement with
    | .error e => (s, some e)
    | .ok f => (s.setSignatures (s.signatures d ++ [f]) d).declareAll d statements

/-- Read one more header. -/
def readHeader (s : Session) (d : Dialect) (content : Content) : Progress :=
  let outline := Outline.ofContent d content
  match outline.result with
  | .error e => ⟨s, outline.log, some e⟩
  | .ok read =>
    let (s, failure?) := (s.addSlots read.layout.names d).declareAll d read.statements
    ⟨s, outline.log, failure?⟩

/-- Merge both lists of signatures. -/
def merge (s : Session) : Progress :=
  let merged := DispatchTable.merge s.plain s.extended
  ⟨{ s with plain := merged.plain, extended := merged.extended }, merged.log, merged.failure?⟩

/-- Put the signatures of a dialect into slot order. -/
def sort (s : Session) (d : Dialect) : Progress :=
  let (signatures, failure?) := (s.layout d).rearrange d.table (s.signatures d)
  ⟨s.setSignatures signatures d, [], failure?⟩

/-- Leave out more functions. -/
def exclude (s : Session) (names : List Text) : Session :=
  { s with config := s.config.excluding names }

/-- Print the extended functions. -/
def render (s : Session) : Traced Failure Text := s.config.render s.extended

end Session

end DispatchTable
