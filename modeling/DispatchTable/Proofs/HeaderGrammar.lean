import DispatchTable.Proofs.Interface
import DispatchTable.Proofs.Items
import DispatchTable.Proofs.Members

/-!
# The grammar of headers

An item ends at a line that it determines itself, whatever follows, and what is left over has no
such line. So the lines of a header fall into items in one way only, and the header is read as they
say: its statements are the texts of the declarations, and its slots have the names of the members
of all blocks, the one that is left over included.
-/

namespace DispatchTable

variable {d : Dialect} {rest rest' : List Text}

section Completes

variable {first : Text} {more more' : List Text}

/-- A declaration does not stay open behind the line that ends it. -/
theorem Completes.not_staysOpen (h : Completes first more) : ¬StaysOpen first (more ++ rest) := by
  intro hopen
  have hends := hopen more (List.prefix_append more rest)
  rw [h.ends] at hends
  exact absurd hends nofun

/-- A declaration that ends with some of its lines has no further ones. -/
theorem Completes.eq_of_front (h : Completes first more) (h' : Completes first more')
    (hfront : more <+: more') : more = more' := by
  by_contra hne
  have hends := h'.no_sooner more hfront hne
  rw [h.ends] at hends
  exact absurd hends nofun

/-- A declaration ends with one of the lines behind it only. -/
theorem Completes.eq_of_append (h : Completes first more) (h' : Completes first more')
    (heq : more ++ rest = more' ++ rest') : more = more' ∧ rest = rest' := by
  have hmore : more = more' := by
    rcases List.prefix_or_prefix_of_prefix (List.prefix_append more rest)
      (heq ▸ List.prefix_append more' rest') with hfront | hfront
    · exact h.eq_of_front h' hfront
    · exact (h'.eq_of_front h hfront).symm
  subst hmore
  exact ⟨rfl, List.append_cancel_left heq⟩

end Completes

section ClosesBlock

variable {members members' : List Text} {last last' : Text}

/-- A layout block goes no further than to its closing line. -/
theorem ClosesBlock.length_le (hcloses : ClosesBlock last)
    (hmembers' : ∀ line ∈ members', ¬ClosesBlock line)
    (heq : members ++ last :: rest = members' ++ rest') : members'.length ≤ members.length := by
  refine (length_le_or_exists_of_append_eq heq).resolve_right ?_
  rintro ⟨line, piece, rfl, hlast⟩
  obtain ⟨rfl, _⟩ := List.cons.inj hlast
  exact hmembers' last (by simp) hcloses

/-- A layout block is closed by one of the lines behind it only. -/
theorem ClosesBlock.eq_of_append (hcloses : ClosesBlock last) (hcloses' : ClosesBlock last')
    (hmembers : ∀ line ∈ members, ¬ClosesBlock line)
    (hmembers' : ∀ line ∈ members', ¬ClosesBlock line)
    (heq : members ++ last :: rest = members' ++ last' :: rest') :
    members = members' ∧ last = last' ∧ rest = rest' := by
  have hlength : members.length = members'.length :=
    (hcloses'.length_le hmembers heq.symm).antisymm (hcloses.length_le hmembers' heq)
  obtain ⟨rfl, hbehind⟩ := List.append_inj heq hlength
  exact ⟨rfl, List.cons.inj hbehind⟩

end ClosesBlock

/-- What a line outside of all items may open. -/
inductive Opening where
  /-- Nothing. -/
  | nothing
  /-- A declaration. -/
  | declaration
  /-- A layout block. -/
  | block
  deriving DecidableEq, Repr

/-- What a line outside of all items opens. -/
def Dialect.opening (d : Dialect) (line : Text) : Opening :=
  if line.startsWith d.statementLead then .declaration
  else if line.startsWith d.blockLead then
    (if line.trimEnd.endsWith ';' then .nothing else .block)
  else .nothing

/-- What the first line of an item opens. -/
def HeaderItem.opening : HeaderItem → Opening
  | other _ => .nothing
  | declaration _ _ => .declaration
  | block _ _ _ => .block

/-- What the first line of what is left over opens. -/
def HeaderTail.opening : HeaderTail → Opening
  | none => .nothing
  | declaration _ _ => .declaration
  | block _ _ => .block

variable {item item' : HeaderItem} {tail tail' : HeaderTail} {first : Text} {more : List Text}

/-- A line that opens a layout block opens nothing else. -/
theorem Dialect.OpensBlock.opening_eq (h : d.OpensBlock first) : d.opening first = .block := by
  simp [opening, h.no_statement, h.lead, h.open_end]

/-- The first line of an item tells of which kind it is. -/
theorem HeaderItem.Fits.opening_eq (h : item.Fits d) (heq : item.lines ++ rest = first :: more) :
    d.opening first = item.opening := by
  cases h with
  | other hstatement hblock =>
    obtain ⟨rfl, _⟩ := List.cons.inj heq
    simpa [Dialect.opening, HeaderItem.opening, hstatement] using hblock
  | declaration hlead =>
    obtain ⟨rfl, _⟩ := List.cons.inj heq
    simp [Dialect.opening, HeaderItem.opening, hlead]
  | block hopens =>
    obtain ⟨rfl, _⟩ := List.cons.inj heq
    exact hopens.opening_eq

/-- The first line of what is left over tells of which kind it is. -/
theorem HeaderTail.Fits.opening_eq (h : tail.Fits d) (heq : tail.lines = first :: more) :
    d.opening first = tail.opening := by
  cases h with
  | none => simp [lines] at heq
  | declaration hlead =>
    obtain ⟨rfl, _⟩ := List.cons.inj heq
    simp [Dialect.opening, HeaderTail.opening, hlead]
  | block hopens =>
    obtain ⟨rfl, _⟩ := List.cons.inj heq
    exact hopens.opening_eq

/-- An item has a first line. -/
theorem HeaderItem.exists_lines_eq_cons (item : HeaderItem) :
    ∃ first more, item.lines ++ rest = first :: more := by
  cases item <;> exact ⟨_, _, rfl⟩

/-- Items that begin the same lines are the same. -/
theorem HeaderItem.Fits.eq_of_append (h : item.Fits d) (h' : item'.Fits d)
    (heq : item.lines ++ rest = item'.lines ++ rest') : item = item' ∧ rest = rest' := by
  obtain ⟨first, more, hfirst⟩ := item.exists_lines_eq_cons
  have hopening : item.opening = item'.opening :=
    (h.opening_eq hfirst).symm.trans (h'.opening_eq (heq ▸ hfirst))
  cases h with
  | other =>
    cases h' with
    | other => simpa [lines] using heq
    | declaration => cases hopening
    | block => cases hopening
  | declaration _ hcompletes =>
    cases h' with
    | other => cases hopening
    | declaration _ hcompletes' =>
      obtain ⟨rfl, hbehind⟩ := List.cons.inj heq
      obtain ⟨rfl, rfl⟩ := hcompletes.eq_of_append hcompletes' hbehind
      exact ⟨rfl, rfl⟩
    | block => cases hopening
  | block _ hmembers hcloses =>
    cases h' with
    | other => cases hopening
    | declaration => cases hopening
    | block _ hmembers' hcloses' =>
      rw [lines, lines, List.append_assoc, List.append_assoc] at heq
      obtain ⟨rfl, hbehind⟩ := List.cons.inj heq
      obtain ⟨rfl, rfl, rfl⟩ := hcloses.eq_of_append hcloses' hmembers hmembers' hbehind
      exact ⟨rfl, rfl⟩

/-- What is left over does not begin with an item. -/
theorem HeaderItem.Fits.append_ne_lines (h : item.Fits d) (h' : tail.Fits d) :
    item.lines ++ rest ≠ tail.lines := by
  intro heq
  obtain ⟨first, more, hfirst⟩ := item.exists_lines_eq_cons
  have hopening : item.opening = tail.opening :=
    (h.opening_eq hfirst).symm.trans (h'.opening_eq (heq ▸ hfirst))
  cases h with
  | other =>
    cases h' with
    | none => simp [lines, HeaderTail.lines] at heq
    | declaration => cases hopening
    | block => cases hopening
  | declaration _ hcompletes =>
    cases h' with
    | none => cases hopening
    | declaration _ hopen =>
      obtain ⟨rfl, rfl⟩ := List.cons.inj heq
      exact hcompletes.not_staysOpen hopen
    | block => cases hopening
  | @block _ last _ _ _ hcloses =>
    cases h' with
    | none => cases hopening
    | declaration => cases hopening
    | block _ hmembers =>
      obtain ⟨rfl, rfl⟩ := List.cons.inj heq
      exact hmembers last (by simp) hcloses

/-- What is left over is determined by its lines. -/
theorem HeaderTail.Fits.eq_of_lines (h : tail.Fits d) (h' : tail'.Fits d)
    (heq : tail.lines = tail'.lines) : tail = tail' := by
  cases h with
  | none => cases h' <;> simp [lines] at heq ⊢
  | declaration hlead hopen =>
    have hopening := HeaderTail.Fits.opening_eq (.declaration hlead hopen) rfl
    cases h' with
    | none => simp [lines] at heq
    | declaration => simpa [lines] using heq
    | block hopens hmembers =>
      have hopening' := HeaderTail.Fits.opening_eq (.block hopens hmembers) heq.symm
      cases hopening.symm.trans hopening'
  | block hopens hmembers =>
    have hopening := HeaderTail.Fits.opening_eq (.block hopens hmembers) rfl
    cases h' with
    | none => simp [lines] at heq
    | declaration hlead hopen =>
      have hopening' := HeaderTail.Fits.opening_eq (.declaration hlead hopen) heq.symm
      cases hopening.symm.trans hopening'
    | block => simpa [lines] using heq

namespace Dialect

variable {lines : List Text} {items items' : List HeaderItem}

/-- The lines of a header fall into items in one way only. -/
theorem Factors.unique (h : d.Factors lines items tail) (h' : d.Factors lines items' tail') :
    items' = items ∧ tail' = tail := by
  obtain ⟨rfl, hitems, htail⟩ := h
  obtain ⟨heq, hitems', htail'⟩ := h'
  induction items generalizing items' with
  | nil =>
    cases items' with
    | nil => exact ⟨rfl, (htail.eq_of_lines htail' heq).symm⟩
    | cons item' items' =>
      rw [List.flatMap_cons, List.append_assoc] at heq
      exact absurd heq.symm ((hitems' item' List.mem_cons_self).append_ne_lines htail)
  | cons item items ih =>
    obtain ⟨hitem, hitems⟩ := List.forall_mem_cons.mp hitems
    rw [List.flatMap_cons, List.append_assoc] at heq
    cases items' with
    | nil => exact absurd heq (hitem.append_ne_lines htail')
    | cons item' items' =>
      obtain ⟨hfirst, hmore⟩ := List.forall_mem_cons.mp hitems'
      rw [List.flatMap_cons, List.append_assoc] at heq
      obtain ⟨rfl, hbehind⟩ := hitem.eq_of_append hfirst heq
      obtain ⟨rfl, rfl⟩ := ih hitems hbehind hmore
      exact ⟨rfl, rfl⟩

end Dialect

/-- The lines inside of a layout block. -/
def HeaderItem.members : HeaderItem → List Text
  | block _ members _ => members
  | _ => []

/-- The lines inside of a layout block that is left over. -/
def HeaderTail.members : HeaderTail → List Text
  | block _ members => members
  | _ => []

namespace Dialect

variable {header : Text} {items : List HeaderItem}

/-- The slots of a header have the names of the members of its blocks, each at its first place. -/
theorem Factors.names (h : d.Factors header.lines items tail) :
    (d.outline header).layout.names =
      ((items.flatMap HeaderItem.members ++ tail.members).filterMap d.memberName?).eraseDups := by
  have hmembers : ∀ members : List Text,
      ((members.filterMap d.memberName?).map Entry.member).filterMap Entry.member? =
        members.filterMap d.memberName? := by
    intro members
    rw [List.filterMap_map]
    exact List.filterMap_some
  have hitem : ∀ item : HeaderItem,
      (item.entries d).filterMap Entry.member? = item.members.filterMap d.memberName? := by
    intro item
    cases item with
    | other line => rfl
    | declaration first more => rfl
    | block first members last => exact hmembers members
  have htail : (tail.entries d).filterMap Entry.member? = tail.members.filterMap d.memberName? := by
    cases tail with
    | none => rfl
    | declaration first more => rfl
    | block first members => exact hmembers members
  rw [outline, Outline.ofEntries, h.readAll, Layout.names_ofList, List.filterMap_append, htail,
    List.filterMap_flatMap, List.filterMap_append, List.filterMap_flatMap]
  simp only [hitem]

end Dialect

/-- The lines of every header fall into items in exactly one way, and the header is read as these
say: its statements are the joined texts of the finished declarations, and its slots have the names
of the members of all blocks, finished or left over, each at its first place. A line has a name
exactly if it is a member. -/
theorem Outline.ofContent_factored (d : Dialect) (header : Text) :
    ∃ items tail, d.Factors header.lines items tail ∧
      (∀ items' tail', d.Factors header.lines items' tail' → items' = items ∧ tail' = tail) ∧
      (∃ outline, (Outline.ofContent d (.ok header.bytes)).result = .ok outline ∧
        outline.statements = items.filterMap HeaderItem.statement? ∧
        outline.layout.names =
          ((items.flatMap HeaderItem.members ++ tail.members).filterMap
            d.memberName?).eraseDups) ∧
      ∀ line ∈ header.lines, ∀ name, d.memberName? line = some name ↔ d.IsMember line name := by
  obtain ⟨items, tail, h⟩ := d.exists_factors header.lines
  refine ⟨items, tail, h, fun _ _ => h.unique, ?_, fun line hline name => ?_⟩
  · exact ⟨_, Outline.ofContent_bytes d header, h.statements, h.names⟩
  · exact Dialect.memberName?_eq_some_iff (Text.newline_not_mem_of_mem_lines hline)

end DispatchTable
