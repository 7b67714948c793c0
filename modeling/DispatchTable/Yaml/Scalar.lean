import DispatchTable.Yaml.Cursor

/-!
# Scalars

How the three spellings of a scalar are read: quoted, plain, and as a block. In quoted and plain
scalars the end of a line counts as a space, and empty lines count as line ends.
-/

namespace DispatchTable.Yaml

/-- What a run of spaces and line ends inside of a scalar stands for. -/
def foldGap (gap : Text) : Text :=
  match gap.filter isBreak with
  | [] => gap
  | '\n' :: [] => [' ']
  | '\n' :: breaks => breaks
  | breaks => breaks

/-- The value of a hexadecimal digit. -/
def hexValue? (c : Char) : Option Nat :=
  let n := c.toNat
  if c.isDigit then some (n - 0x30)
  else if 0x61 ≤ n && n ≤ 0x66 then some (n - 0x57)
  else if 0x41 ≤ n && n ≤ 0x46 then some (n - 0x37)
  else none

/-- The number that some hexadecimal digits spell. -/
def hexNumber? (digits : Text) : Option Nat :=
  digits.foldlM (fun n c => (hexValue? c).map (n * 16 + ·)) 0

/-- The character that a code point stands for, unless it is a surrogate or out of range. -/
def charOf? (n : Nat) : Option Char := if n.isValidChar then some (Char.ofNat n) else none

/-- The code points of the escapes that are one letter long. -/
def letterEscapes : List (Char × Nat) :=
  [('0', 0), ('a', 7), ('b', 8), ('t', 9), ('\t', 9), ('n', 10), ('v', 11), ('f', 12), ('r', 13),
    ('e', 0x1B), (' ', 0x20), ('"', 0x22), ('/', 0x2F), ('\\', 0x5C), ('N', 0x85), ('_', 0xA0),
    ('L', 0x2028), ('P', 0x2029)]

/-- The number of digits after the letter of a numeric escape. -/
def digitEscapes : List (Char × Nat) := [('x', 2), ('u', 4), ('U', 8)]

/-- The character of the escape that follows a backslash, and how many characters spell it. -/
def escape? : Text → Option (Char × Nat)
  | [] => none
  | c :: s =>
    match letterEscapes.lookup c, digitEscapes.lookup c with
    | some n, _ => some (Char.ofNat n, 1)
    | none, some width =>
      if s.length < width then none
      else do
        let n ← hexNumber? (s.take width)
        let c ← charOf? n
        return (c, width + 1)
    | none, none => none

/-- The rest of a quoted scalar, after `read`, which is held backwards; `joined` tells that the line
before has just been joined to this one by a backslash. -/
def quotedFrom (single : Bool) : (fuel : Nat) → (read : Text) → (joined : Bool) → Cursor →
    Option (Text × Cursor)
  | 0, _, _, _ => none
  | fuel + 1, read, joined, k =>
    let (gap, k) := k.span isSpace
    let read := (if joined then gap.filter isBreak else foldGap gap).reverse ++ read
    if k.atMark then none
    else
      match k.rest with
      | [] => none
      | c :: rest =>
        if single then
          if c != '\'' then quotedFrom single fuel (c :: read) false k.next
          else if rest.head? == some '\'' then quotedFrom single fuel (c :: read) false (k.skip 2)
          else some (read.reverse, k.next)
        else if c == '"' then some (read.reverse, k.next)
        else if c == '\\' then
          if rest.head?.any isBreak then quotedFrom single fuel read true (k.skip 2)
          else
            match escape? rest with
            | some (d, size) => quotedFrom single fuel (d :: read) false (k.skip (size + 1))
            | none => none
        else quotedFrom single fuel (c :: read) false k.next

/-- The value of a quoted scalar, from its opening quote on, and the place after it. -/
def quoted? (single : Bool) (k : Cursor) : Option (Text × Cursor) :=
  quotedFrom single (k.rest.length + 1) [] false k.next

/-- The rest of a plain scalar, after `read` and the run of spaces and line ends `gap`, both held
backwards. In a flow collection, commas and brackets end the scalar; elsewhere a line that is not
indented by `indent` columns does. -/
def plainFrom (flow : Bool) (indent : Nat) : (fuel : Nat) → (read gap : Text) → Cursor →
    Option (Text × Bool × Cursor)
  | 0, _, _, _ => none
  | fuel + 1, read, gap, k =>
    let done := some (read.reverse, gap.any isBreak, k)
    match k.rest with
    | [] => done
    | c :: rest =>
      if isSpace c then
        if c == '\t' && gap.any isBreak && k.column < indent then none
        else plainFrom flow indent fuel read (c :: gap) k.next
      else if gap != [] && ((!flow && k.column < indent) || k.atMark || c == '#') then done
      else if flow && c == ':' && rest.head?.any ",?[]\x7b\x7d".toList.contains then none
      else if c == ':' && atSpace rest || flow && ",[]\x7b\x7d".toList.contains c then done
      else plainFrom flow indent fuel (c :: (foldGap gap.reverse).reverse ++ read) [] k.next

/-- The value of a plain scalar, whether a line ended after it, and the place after it and after the
spaces that follow. -/
def plain? (flow : Bool) (indent : Nat) (k : Cursor) : Option (Text × Bool × Cursor) :=
  plainFrom flow indent (k.rest.length + 1) [] [] k

/-- What becomes of the line ends at the end of a block scalar. -/
inductive Chomping where
  /-- They are all dropped. -/
  | strip
  /-- The first one is kept. -/
  | clip
  /-- They are all kept. -/
  | keep
  deriving DecidableEq, Repr

/-- The chomping that a character asks for. -/
def Chomping.of? : Char → Option Chomping
  | '-' => some strip
  | '+' => some keep
  | _ => none

/-- The indentation that a digit asks for; zero is not allowed. -/
def indentation? (c : Char) : Option Nat :=
  if c.isDigit && c != '0' then some (c.toNat - 0x30) else none

/-- The chomping and the indentation, if any, that stand after the indicator of a block scalar, in
either order, and the place after them. -/
def blockHeader (k : Cursor) : Chomping × Option Nat × Cursor :=
  match k.head?.bind Chomping.of?, k.head?.bind indentation? with
  | some chomping, _ =>
    match k.next.head?.bind indentation? with
    | some n => (chomping, some n, k.skip 2)
    | none => (chomping, none, k.next)
  | none, some n =>
    match k.next.head?.bind Chomping.of? with
    | some chomping => (chomping, some n, k.skip 2)
    | none => (.clip, some n, k.next)
  | none, none => (.clip, none, k)

/-- The empty lines at a place inside of a block scalar: the farthest column that their spaces
reach, their ends, and the place after them. Without an indentation all spaces at the beginning of a
line count as such. -/
def emptyLines (indent? : Option Nat) : (fuel reach : Nat) → (breaks : Text) → Cursor →
    Option (Nat × Text × Cursor)
  | 0, _, _, _ => none
  | fuel + 1, reach, breaks, k =>
    let spaces := (k.rest.takeWhile (· == ' ')).length
    let k := k.skip (match indent? with
      | some indent => min spaces (indent - k.column)
      | none => spaces)
    let reach := max reach k.column
    if k.sees '\t' && indent?.all (k.column < ·) then none
    else
      match k.head? with
      | some c =>
        if isBreak c then emptyLines indent? fuel reach (c :: breaks) k.next
        else some (reach, breaks.reverse, k)
      | none => some (reach, breaks.reverse, k)

/-- What has been read of a block scalar. -/
structure BlockText where
  /-- The text up to the last line that is not empty. -/
  text : Text
  /-- The end of that line. -/
  lineEnd : Text
  /-- The ends of the empty lines after it. -/
  emptyEnds : Text
  /-- Whether that line begins with a space. -/
  spaced : Bool

/-- The rest of a block scalar, line by line. -/
def blockFrom (literal : Bool) (indent : Nat) : (fuel : Nat) → BlockText → Cursor →
    Option (BlockText × Cursor)
  | 0, _, _ => none
  | fuel + 1, b, k =>
    if k.column != indent || k.rest.isEmpty then some (b, k)
    else do
      let spaced := k.head?.any isGap
      let joint :=
        if !literal && b.lineEnd == ['\n'] && !b.spaced && !spaced then
          if b.emptyEnds.isEmpty then [' '] else []
        else b.lineEnd
      let (line, k) := k.span (!isBreak ·)
      let lineEnd := k.head?.toList
      let (_, emptyEnds, k) ← emptyLines (some indent) (k.rest.length + 1) 0 [] k.next
      blockFrom literal indent fuel
        ⟨b.text ++ joint ++ b.emptyEnds ++ line, lineEnd, emptyEnds, spaced⟩ k

/-- The value of a block scalar, from its indicator on, and the place after it; `outer` is the
indentation of the block that it stands in, less than zero for none. -/
def block? (literal : Bool) (outer : Int) (k : Cursor) : Option (Text × Cursor) := do
  let (chomping, increment?, k) := blockHeader k.next
  let k ← k.endLine?
  let base := outer.toNat
  let indent? := increment?.map (base + ·)
  let fuel := k.rest.length + 1
  let (reach, emptyEnds, k) ← emptyLines indent? fuel 0 [] k
  let indent := indent?.getD (max reach (max (outer + 1).toNat 1))
  let (b, k) ← blockFrom literal indent fuel ⟨[], [], emptyEnds, false⟩ k
  let text := b.text ++ (if chomping = .strip then [] else b.lineEnd) ++
    (if chomping = .keep then b.emptyEnds else [])
  return (text, k)

end DispatchTable.Yaml
