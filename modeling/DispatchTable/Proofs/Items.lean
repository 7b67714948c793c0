import DispatchTable.Header.Outline
import Mathlib.Data.List.Basic
import Mathlib.Data.List.Induction

/-!
# The items of a header

The lines of a header fall into items: single lines that say nothing about the table, declarations
on one or more lines, and layout blocks. A declaration goes on to the first line with which its
joined text ends in a semicolon, whatever its lines begin with, and a block to the first line that
begins with a closing brace behind its blanks. Where the lines end sooner, an unfinished item is
left over. The items are read one by one, each from outside of all others.
-/

namespace DispatchTable

namespace Dialect

/-- Lines are read where the lines before them ended. -/
theorem readAll_append (d : Dialect) (place : Place) (lines more : List Text) :
    d.readAll place (lines ++ more) =
      let first := d.readAll place lines
      let others := d.readAll first.1 more
      (others.1, first.2 ++ others.2) := by
  induction lines generalizing place with
  | nil => rfl
  | cons line lines ih =>
    simp only [List.cons_append, readAll, ih, List.append_assoc]

/-- A line behind others is read where these ended. -/
theorem readAll_concat (d : Dialect) (place : Place) (lines : List Text) (line : Text) :
    d.readAll place (lines ++ [line]) =
      let first := d.readAll place lines
      let last := d.read first.1 line
      (last.1, first.2 ++ last.2) := by
  rw [readAll_append]
  simp only [readAll, List.append_nil]

end Dialect

/-- The text of a declaration on several lines: each is trimmed, and a space stands between two. -/
def joinLines (first : Text) (more : List Text) : Text :=
  more.foldl (fun text line => text ++ [' '] ++ line.trim) first.trim

/-- One more line is joined at the end. -/
theorem joinLines_concat (first : Text) (more : List Text) (line : Text) :
    joinLines first (more ++ [line]) = joinLines first more ++ [' '] ++ line.trim := by
  rw [joinLines, List.foldl_append]
  rfl

/-- Whether a declaration is still open behind some lines: with none of them has its joined text
ended in a semicolon. -/
def StaysOpen (first : Text) (more : List Text) : Prop :=
  ∀ front, front <+: more → (joinLines first front).endsWith ';' = false

/-- Whether a declaration ends with the last of some lines: with this one its joined text ends in a
semicolon, and with none before. -/
structure Completes (first : Text) (more : List Text) : Prop where
  ends : (joinLines first more).endsWith ';' = true
  no_sooner : ∀ front, front <+: more → front ≠ more → (joinLines first front).endsWith ';' = false

/-- A declaration that is open behind some lines was open behind all fronts of them. -/
theorem StaysOpen.of_prefix {first : Text} {more front : List Text} (h : StaysOpen first more)
    (hfront : front <+: more) : StaysOpen first front :=
  fun _ hshorter => h _ (hshorter.trans hfront)

/-- A declaration is open until the last of its lines. -/
theorem Completes.staysOpen {first line : Text} {more rest : List Text}
    (h : Completes first (more ++ line :: rest)) : StaysOpen first more := by
  intro front hfront
  refine h.no_sooner front (hfront.trans (List.prefix_append more _)) ?_
  rintro rfl
  have hlength := hfront.length_le
  rw [List.length_append, List.length_cons] at hlength
  omega

/-- A declaration that is open behind its first line. -/
theorem staysOpen_nil {first : Text} :
    StaysOpen first [] ↔ (joinLines first []).endsWith ';' = false := by
  simp [StaysOpen]

/-- A declaration stays open with one more line exactly when its text does not end with it. -/
theorem staysOpen_concat {first line : Text} {more : List Text} :
    StaysOpen first (more ++ [line]) ↔
      StaysOpen first more ∧ (joinLines first (more ++ [line])).endsWith ';' = false := by
  simp only [StaysOpen, List.prefix_concat_iff]
  constructor
  · exact fun h => ⟨fun front hfront => h front (.inr hfront), h _ (.inl rfl)⟩
  · rintro ⟨hmore, hline⟩ front (rfl | hfront)
    · exact hline
    · exact hmore front hfront

/-- A declaration ends with its first line. -/
theorem completes_nil {first : Text} :
    Completes first [] ↔ (joinLines first []).endsWith ';' = true := by
  constructor
  · exact Completes.ends
  · exact fun h => ⟨h, fun front hfront hne => absurd (List.prefix_nil.mp hfront) hne⟩

/-- A declaration ends with a further line exactly when it was open before and ends then. -/
theorem completes_concat {first line : Text} {more : List Text} :
    Completes first (more ++ [line]) ↔
      StaysOpen first more ∧ (joinLines first (more ++ [line])).endsWith ';' = true := by
  constructor
  · exact fun h => ⟨h.staysOpen, h.ends⟩
  · rintro ⟨hopen, hends⟩
    refine ⟨hends, fun front hfront hne => ?_⟩
    exact hopen front ((List.prefix_concat_iff.mp hfront).resolve_left hne)

/-- A joined text ends in a semicolon exactly if its last line does. -/
theorem endsWith_joinLines_concat (first : Text) (more : List Text) (line : Text) :
    (joinLines first (more ++ [line])).endsWith ';' = line.trim.endsWith ';' := by
  rw [joinLines_concat, Text.endsWith, Text.endsWith, List.getLast?_append]
  cases hlast : line.trim.getLast? with
  | none => simp
  | some c => rfl

/-- A declaration stays open with lines that do not end in a semicolon. -/
theorem staysOpen_iff {first : Text} {more : List Text} :
    StaysOpen first more ↔ ∀ line ∈ first :: more, line.trim.endsWith ';' = false := by
  induction more using List.reverseRecOn with
  | nil =>
    rw [staysOpen_nil, List.forall_mem_singleton]
    rfl
  | append_singleton more line ih =>
    rw [staysOpen_concat, ih, endsWith_joinLines_concat, ← List.cons_append, List.forall_mem_append,
      List.forall_mem_singleton]

/-- What whole lines of a header make together. -/
inductive HeaderItem where
  /-- A line that opens nothing. -/
  | other (line : Text)
  /-- A declaration: the line that opens it and the lines that are joined to it. -/
  | declaration (first : Text) (more : List Text)
  /-- A layout block: the line that opens it, those inside, and the line that closes it. -/
  | block (first : Text) (members : List Text) (last : Text)
  deriving DecidableEq, Repr

/-- What is left over where the lines of a header end. -/
inductive HeaderTail where
  /-- Nothing. -/
  | none
  /-- A declaration that is still open. -/
  | declaration (first : Text) (more : List Text)
  /-- A layout block that is not closed. -/
  | block (first : Text) (members : List Text)
  deriving DecidableEq, Repr

/-- Whether a line outside of declarations opens a layout block. -/
structure Dialect.OpensBlock (d : Dialect) (line : Text) : Prop where
  no_statement : line.startsWith d.statementLead = false
  lead : line.startsWith d.blockLead = true
  open_end : line.trimEnd.endsWith ';' = false

/-- Whether a line inside a layout block closes it. -/
def ClosesBlock (line : Text) : Prop := line.trimStart.startsWith ['\x7d'] = true

namespace HeaderItem

/-- The lines of an item. -/
def lines : HeaderItem → List Text
  | other line => [line]
  | declaration first more => first :: more
  | block first members last => first :: members ++ [last]

/-- The statement that a declaration makes. -/
def statement? : HeaderItem → Option Text
  | declaration first more => some (joinLines first more)
  | _ => none

/-- What an item completes. -/
def entries (d : Dialect) : HeaderItem → List Entry
  | other _ => []
  | declaration first more => [.statement (joinLines first more)]
  | block _ members _ => (members.filterMap d.memberName?).map .member

/-- Whether lines make an item in a dialect. -/
inductive Fits (d : Dialect) : HeaderItem → Prop where
  | other {line : Text} (hstatement : line.startsWith d.statementLead = false)
    (hblock : line.startsWith d.blockLead = true → line.trimEnd.endsWith ';' = true) :
    Fits d (.other line)
  | declaration {first : Text} {more : List Text} (hlead : first.startsWith d.statementLead = true)
    (hcompletes : Completes first more) : Fits d (.declaration first more)
  | block {first last : Text} {members : List Text} (hopens : d.OpensBlock first)
    (hmembers : ∀ line ∈ members, ¬ClosesBlock line) (hcloses : ClosesBlock last) :
    Fits d (.block first members last)

end HeaderItem

namespace HeaderTail

/-- The lines of what is left over. -/
def lines : HeaderTail → List Text
  | none => []
  | declaration first more => first :: more
  | block first members => first :: members

/-- What is completed inside an item that is left over. -/
def entries (d : Dialect) : HeaderTail → List Entry
  | block _ members => (members.filterMap d.memberName?).map .member
  | _ => []

/-- Where the lines of a header end. -/
def place : HeaderTail → Place
  | none => .outside
  | declaration first more => .statement (joinLines first more)
  | block _ _ => .block

/-- Whether lines are left over in a dialect. -/
inductive Fits (d : Dialect) : HeaderTail → Prop where
  | none : Fits d .none
  | declaration {first : Text} {more : List Text} (hlead : first.startsWith d.statementLead = true)
    (hopen : StaysOpen first more) : Fits d (.declaration first more)
  | block {first : Text} {members : List Text} (hopens : d.OpensBlock first)
    (hmembers : ∀ line ∈ members, ¬ClosesBlock line) : Fits d (.block first members)

end HeaderTail

namespace Dialect

/-- Whether the lines of a header fall into some items and what is left over. -/
structure Factors (d : Dialect) (lines : List Text) (items : List HeaderItem)
    (tail : HeaderTail) : Prop where
  eq_append : lines = items.flatMap HeaderItem.lines ++ tail.lines
  fits_items : ∀ item ∈ items, item.Fits d
  fits_tail : tail.Fits d

variable {d : Dialect} {lines : List Text} {items : List HeaderItem} {tail : HeaderTail}

private theorem Factors.close (h : d.Factors lines items tail) (item : HeaderItem) {line : Text}
    (hlines : tail.lines ++ [line] = item.lines) (hfits : item.Fits d) :
    d.Factors (lines ++ [line]) (items ++ [item]) .none := by
  obtain ⟨rfl, hitems, _⟩ := h
  refine ⟨?_, List.forall_mem_append.mpr ⟨hitems, List.forall_mem_singleton.mpr hfits⟩, .none⟩
  simp [← hlines, HeaderTail.lines]

private theorem Factors.extend (h : d.Factors lines items tail) (tail' : HeaderTail) {line : Text}
    (hlines : tail.lines ++ [line] = tail'.lines) (hfits : tail'.Fits d) :
    d.Factors (lines ++ [line]) items tail' := by
  obtain ⟨rfl, hitems, _⟩ := h
  exact ⟨by rw [List.append_assoc, hlines], hitems, hfits⟩

private theorem Factors.concat (h : d.Factors lines items tail) (line : Text) :
    ∃ items' tail', d.Factors (lines ++ [line]) items' tail' := by
  cases h.fits_tail with
  | none =>
    by_cases hstatement : line.startsWith d.statementLead = true
    · cases hends : (joinLines line []).endsWith ';' with
      | true => exact ⟨_, _, h.close (.declaration line []) rfl
          (.declaration hstatement (completes_nil.mpr hends))⟩
      | false => exact ⟨_, _, h.extend (.declaration line []) rfl
          (.declaration hstatement (staysOpen_nil.mpr hends))⟩
    · rw [Bool.not_eq_true] at hstatement
      by_cases hblock : line.startsWith d.blockLead = true → line.trimEnd.endsWith ';' = true
      · exact ⟨_, _, h.close (.other line) rfl (.other hstatement hblock)⟩
      · rw [Classical.not_imp, Bool.not_eq_true] at hblock
        exact ⟨_, _, h.extend (.block line []) rfl
          (.block ⟨hstatement, hblock.1, hblock.2⟩ (by simp))⟩
  | @declaration first more hlead hopen =>
    cases hends : (joinLines first (more ++ [line])).endsWith ';' with
    | true => exact ⟨_, _, h.close (.declaration first (more ++ [line])) rfl
        (.declaration hlead (completes_concat.mpr ⟨hopen, hends⟩))⟩
    | false => exact ⟨_, _, h.extend (.declaration first (more ++ [line])) rfl
        (.declaration hlead (staysOpen_concat.mpr ⟨hopen, hends⟩))⟩
  | @block first members hopens hmembers =>
    by_cases hcloses : ClosesBlock line
    · exact ⟨_, _, h.close (.block first members line) rfl
        (.block hopens hmembers hcloses)⟩
    · exact ⟨_, _, h.extend (.block first (members ++ [line])) rfl (.block hopens
        (List.forall_mem_append.mpr ⟨hmembers, List.forall_mem_singleton.mpr hcloses⟩))⟩

/-- The lines of every header fall into items and what is left over. -/
theorem exists_factors (d : Dialect) (lines : List Text) :
    ∃ items tail, d.Factors lines items tail := by
  induction lines using List.reverseRecOn with
  | nil => exact ⟨[], .none, rfl, by simp, .none⟩
  | append_singleton lines line ih =>
    obtain ⟨items, tail, h⟩ := ih
    exact h.concat line

private theorem read_first {line : Text} (h : line.startsWith d.statementLead = true) :
    d.read .outside line = closeStatement (joinLines line []) := by
  rw [read, if_pos h]
  rfl

private theorem read_joined (d : Dialect) (first : Text) (more : List Text) (line : Text) :
    d.read (.statement (joinLines first more)) line =
      closeStatement (joinLines first (more ++ [line])) := by
  rw [read, joinLines_concat]

/-- An open declaration is joined as far as it goes. -/
theorem readAll_of_staysOpen {first : Text} {more : List Text}
    (hlead : first.startsWith d.statementLead = true) (h : StaysOpen first more) :
    d.readAll .outside (first :: more) = (.statement (joinLines first more), []) := by
  induction more using List.reverseRecOn with
  | nil =>
    simp [readAll, read_first hlead, closeStatement, staysOpen_nil.mp h]
  | append_singleton more line ih =>
    obtain ⟨hmore, hline⟩ := staysOpen_concat.mp h
    rw [← List.cons_append, readAll_concat, ih hmore]
    simp [read_joined, closeStatement, hline]

/-- A declaration is joined to its end, and nothing of it is left open. -/
theorem readAll_of_completes {first : Text} {more : List Text}
    (hlead : first.startsWith d.statementLead = true) (h : Completes first more) :
    d.readAll .outside (first :: more) = (.outside, [.statement (joinLines first more)]) := by
  induction more using List.reverseRecOn with
  | nil =>
    simp [readAll, read_first hlead, closeStatement, completes_nil.mp h]
  | append_singleton more line _ =>
    obtain ⟨hopen, hends⟩ := completes_concat.mp h
    rw [← List.cons_append, readAll_concat, readAll_of_staysOpen hlead hopen]
    simp [read_joined, closeStatement, hends]

/-- The lines of a layout block are members, until one closes it. -/
theorem readAll_of_members {first : Text} {members : List Text} (hopens : d.OpensBlock first)
    (h : ∀ line ∈ members, ¬ClosesBlock line) :
    d.readAll .outside (first :: members) =
      (.block, (members.filterMap d.memberName?).map .member) := by
  have hread : d.read .outside first = (.block, []) := by
    simp [read, hopens.no_statement, hopens.lead, hopens.open_end]
  induction members using List.reverseRecOn with
  | nil => simp [readAll, hread]
  | append_singleton members line ih =>
    obtain ⟨hmembers, hline⟩ := List.forall_mem_append.mp h
    have hline : line.trimStart.startsWith ['\x7d'] = false := by
      simpa [ClosesBlock] using hline
    rw [← List.cons_append, readAll_concat, ih hmembers]
    cases hname : d.memberName? line <;> simp [read, hline, hname]

/-- An item is read as what it completes, and the next one begins behind it. -/
theorem readAll_item {item : HeaderItem} (h : item.Fits d) :
    d.readAll .outside item.lines = (.outside, item.entries d) := by
  cases h with
  | @other line hstatement hblock =>
    by_cases hlead : line.startsWith d.blockLead = true
    · simp [HeaderItem.lines, readAll, read, hstatement, hlead, hblock hlead, HeaderItem.entries]
    · simp [HeaderItem.lines, readAll, read, hstatement, hlead, HeaderItem.entries]
  | declaration hlead hcompletes => exact readAll_of_completes hlead hcompletes
  | block hopens hmembers hcloses =>
    have hcloses : _ = true := hcloses
    rw [HeaderItem.lines, readAll_concat, readAll_of_members hopens hmembers]
    simp [read, hcloses, HeaderItem.entries]

/-- What is left over is read as far as it goes. -/
theorem readAll_tail (h : tail.Fits d) :
    d.readAll .outside tail.lines = (tail.place, tail.entries d) := by
  cases h with
  | none => rfl
  | declaration hlead hopen => exact readAll_of_staysOpen hlead hopen
  | block hopens hmembers => exact readAll_of_members hopens hmembers

/-- What is read of the lines of a header is what its items complete, one after the other. -/
theorem Factors.readAll (h : d.Factors lines items tail) :
    d.readAll .outside lines =
      (tail.place, items.flatMap (HeaderItem.entries d) ++ tail.entries d) := by
  obtain ⟨rfl, hitems, htail⟩ := h
  induction items with
  | nil => exact readAll_tail htail
  | cons item items ih =>
    obtain ⟨hitem, hitems⟩ := List.forall_mem_cons.mp hitems
    rw [List.flatMap_cons, List.append_assoc, readAll_append, readAll_item hitem]
    simp [ih hitems]

/-- The statements of a header are those of its declarations. -/
theorem Factors.statements {header : Text} (h : d.Factors header.lines items tail) :
    (d.outline header).statements = items.filterMap HeaderItem.statement? := by
  have hmembers : ∀ names : List Text,
      (names.map Entry.member).filterMap Entry.statement? = [] := by
    intro names
    simp [List.filterMap_map, Function.comp_def, Entry.statement?]
  have hitem : ∀ item : HeaderItem,
      (item.entries d).filterMap Entry.statement? = item.statement?.toList := by
    intro item
    cases item with
    | other line => rfl
    | declaration first more => rfl
    | block first members last => exact hmembers _
  have htail : (tail.entries d).filterMap Entry.statement? = [] := by
    cases tail with
    | none => rfl
    | declaration first more => rfl
    | block first members => exact hmembers _
  rw [outline, Outline.ofEntries, h.readAll, List.filterMap_append, htail, List.append_nil,
    List.filterMap_flatMap]
  exact (List.flatMap_congr fun item _ => hitem item).trans
    (List.filterMap_eq_flatMap_toList _ items).symm

/-- Whether the line behind some lines stands inside a layout block. -/
def InBlock (d : Dialect) (before : List Text) : Prop :=
  ∃ items first members, d.Factors before items (.block first members)

/-- Whether the line behind some lines stands inside a declaration that is still open. -/
def InDeclaration (d : Dialect) (before : List Text) : Prop :=
  ∃ items first more, d.Factors before items (.declaration first more)

/-- A line stands inside a layout block exactly when it is read there. -/
theorem inBlock_iff : d.InBlock lines ↔ (d.readAll .outside lines).1 = .block := by
  constructor
  · rintro ⟨items, first, members, h⟩
    rw [h.readAll]
    rfl
  · intro hplace
    obtain ⟨items, tail, h⟩ := d.exists_factors lines
    rw [h.readAll] at hplace
    cases tail with
    | none => exact absurd hplace nofun
    | declaration first more => exact absurd hplace nofun
    | block first members => exact ⟨items, first, members, h⟩

/-- A line stands inside a declaration exactly when it is read there. -/
theorem inDeclaration_iff :
    d.InDeclaration lines ↔ ∃ text, (d.readAll .outside lines).1 = .statement text := by
  constructor
  · rintro ⟨items, first, more, h⟩
    rw [h.readAll]
    exact ⟨_, rfl⟩
  · rintro ⟨text, hplace⟩
    obtain ⟨items, tail, h⟩ := d.exists_factors lines
    rw [h.readAll] at hplace
    cases tail with
    | none => exact absurd hplace nofun
    | declaration first more => exact ⟨items, first, more, h⟩
    | block first members => exact absurd hplace nofun

end Dialect

end DispatchTable
