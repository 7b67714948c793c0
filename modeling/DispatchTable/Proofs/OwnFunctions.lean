import DispatchTable.Proofs.HeaderGrammar
import DispatchTable.Proofs.Outcome

/-!
# Which lines begin a function

A line that begins like a declaration begins a function of its own, unless it stands inside a layout
block, or inside a declaration that is still open, or unless its own declaration is cut by the end
of the header. A declaration is open as long as none of its lines ends in a semicolon; so whatever
stands behind the semicolon of a declaration keeps it open, and the next one is swallowed. This
happens to none exactly if a line ends in a semicolon between each two of them.
-/

namespace DispatchTable

variable {d : Dialect} {lines before above below after : List Text} {line : Text}
  {item : HeaderItem} {items : List HeaderItem} {tail : HeaderTail}

/-- What stands in an item before a line of it could be left over. -/
theorem HeaderItem.Fits.exists_tail (h : item.Fits d)
    (hlines : item.lines = above ++ line :: below) :
    ∃ tail : HeaderTail, tail.Fits d ∧ tail.lines = above := by
  cases above with
  | nil => exact ⟨.none, .none, rfl⟩
  | cons first above =>
    cases h with
    | other => simp [HeaderItem.lines] at hlines
    | declaration hlead hcompletes =>
      obtain ⟨rfl, rfl⟩ := List.cons.inj hlines
      exact ⟨.declaration _ above, .declaration hlead hcompletes.staysOpen, rfl⟩
    | @block _ last members hopens hmembers _ =>
      obtain ⟨rfl, hbehind⟩ := List.cons.inj hlines
      have hfront : above <+: members := by
        rcases append_eq_append_cons_iff.mp hbehind with ⟨piece, rfl, hpiece⟩ | ⟨piece, rfl, _⟩
        · cases piece with
          | nil => simp
          | cons a piece => simp at hpiece
        · exact List.prefix_append _ _
      exact ⟨.block _ above,
        .block hopens fun line hline => hmembers line (hfront.subset hline), rfl⟩

/-- What is left over before a line of it could have been left over. -/
theorem HeaderTail.Fits.exists_tail (h : tail.Fits d)
    (hlines : tail.lines = above ++ line :: below) :
    ∃ tail' : HeaderTail, tail'.Fits d ∧ tail'.lines = above := by
  cases above with
  | nil => exact ⟨.none, .none, rfl⟩
  | cons first above =>
    cases h with
    | none => simp [HeaderTail.lines] at hlines
    | declaration hlead hopen =>
      obtain ⟨rfl, rfl⟩ := List.cons.inj hlines
      exact ⟨.declaration _ above,
        .declaration hlead (hopen.of_prefix (List.prefix_append above _)), rfl⟩
    | block hopens hmembers =>
      obtain ⟨rfl, rfl⟩ := List.cons.inj hlines
      exact ⟨.block _ above,
        .block hopens fun line hline => hmembers line (List.mem_append_left _ hline), rfl⟩

/-- Only a declaration begins like a declaration. -/
theorem HeaderItem.Fits.eq_declaration (h : item.Fits d) (hlines : item.lines = line :: below)
    (hlead : line.startsWith d.statementLead = true) : item = .declaration line below := by
  cases h with
  | other hstatement =>
    rw [(List.cons.inj hlines).1, hlead] at hstatement
    cases hstatement
  | declaration =>
    obtain ⟨rfl, rfl⟩ := List.cons.inj hlines
    rfl
  | block hopens =>
    have hstatement := hopens.no_statement
    rw [(List.cons.inj hlines).1, hlead] at hstatement
    cases hstatement

/-- Only a declaration that is left over begins like a declaration. -/
theorem HeaderTail.Fits.eq_declaration (h : tail.Fits d) (hlines : tail.lines = line :: below)
    (hlead : line.startsWith d.statementLead = true) : tail = .declaration line below := by
  cases h with
  | none => simp [HeaderTail.lines] at hlines
  | declaration =>
    obtain ⟨rfl, rfl⟩ := List.cons.inj hlines
    rfl
  | block hopens =>
    have hstatement := hopens.no_statement
    rw [(List.cons.inj hlines).1, hlead] at hstatement
    cases hstatement

namespace Dialect

private theorem exists_item_of_line {last : List Text}
    (h : items.flatMap HeaderItem.lines ++ last = before ++ line :: after) :
    (∃ front item others above below, items = front ++ item :: others ∧
      item.lines = above ++ line :: below ∧ before = front.flatMap HeaderItem.lines ++ above) ∨
    ∃ above, last = above ++ line :: after ∧ before = items.flatMap HeaderItem.lines ++ above := by
  induction items generalizing before with
  | nil => exact .inr ⟨before, h, rfl⟩
  | cons item items ih =>
    rw [List.flatMap_cons, List.append_assoc] at h
    rcases append_eq_append_cons_iff.mp h with ⟨piece, rfl, hpiece⟩ | ⟨below, hlines, _⟩
    · rcases ih hpiece with ⟨front, item', others, above, below, rfl, hlines, rfl⟩ |
        ⟨above, hlast, rfl⟩
      · exact .inl ⟨item :: front, item', others, above, below, rfl, hlines, by simp⟩
      · exact .inr ⟨above, hlast, by simp⟩
    · exact .inl ⟨[], item, items, before, below, rfl, hlines, rfl⟩

/-- A line that begins like a declaration, but neither in a layout block nor in an open declaration,
is the first line of a declaration of its own, or of one that is left over. -/
theorem Factors.exists_declaration (h : d.Factors lines items tail)
    (hlines : lines = before ++ line :: after) (hlead : line.startsWith d.statementLead = true)
    (hblock : ¬d.InBlock before) (hdeclaration : ¬d.InDeclaration before) :
    (∃ front more others, items = front ++ .declaration line more :: others ∧
      before = front.flatMap HeaderItem.lines) ∨
    tail = .declaration line after ∧ before = items.flatMap HeaderItem.lines := by
  obtain ⟨hall, hitems, htail⟩ := h
  rw [hlines] at hall
  have hnone : ∀ {front : List HeaderItem} {above},
      before = front.flatMap HeaderItem.lines ++ above →
      (∀ item ∈ front, item.Fits d) → (∃ tail' : HeaderTail, tail'.Fits d ∧ tail'.lines = above) →
      above = [] := by
    rintro front above hbefore hfront ⟨tail', hfits, rfl⟩
    cases tail' with
    | none => rfl
    | declaration first more =>
      exact absurd ⟨front, first, more, hbefore, hfront, hfits⟩ hdeclaration
    | block first members =>
      exact absurd ⟨front, first, members, hbefore, hfront, hfits⟩ hblock
  rcases exists_item_of_line hall.symm with
    ⟨front, item, others, above, below, rfl, hitem, hbefore⟩ | ⟨above, hlast, hbefore⟩
  · have hfront : ∀ item ∈ front, item.Fits d := fun item hmem => hitems item (by simp [hmem])
    have hfits : item.Fits d := hitems item (by simp)
    obtain rfl := hnone hbefore hfront (hfits.exists_tail hitem)
    obtain rfl := hfits.eq_declaration hitem hlead
    exact .inl ⟨front, below, others, rfl, by simpa using hbefore⟩
  · obtain rfl := hnone hbefore hitems (htail.exists_tail hlast)
    exact .inr ⟨htail.eq_declaration hlast hlead, by simpa using hbefore⟩

/-- Whether a line behind some others begins one of the functions of a header: it is the first line
of a declaration, and the function is the one that this declares. -/
def BeginsFunction (d : Dialect) (items : List HeaderItem) (functions : List Signature)
    (before : List Text) (line : Text) : Prop :=
  ∃ front more others f, items = front ++ .declaration line more :: others ∧
    before = front.flatMap HeaderItem.lines ∧ d.signature (joinLines line more) = .ok f ∧
    functions[(front.filterMap HeaderItem.statement?).length]? = some f

/-- Whether the lines of a header begin some functions: each declaration among the items begins one,
and a line that begins like a declaration, but neither in a layout block nor in an open declaration,
begins one of these, or else a declaration that is still open at the end of the header. -/
def BeginsFunctions (d : Dialect) (lines : List Text) (functions : List Signature) : Prop :=
  ∃ items tail, d.Factors lines items tail ∧
    List.Forall₂ (fun statement f => d.signature statement = .ok f)
      (items.filterMap HeaderItem.statement?) functions ∧
    ∀ before line after, lines = before ++ line :: after →
      line.startsWith d.statementLead = true → ¬d.InBlock before → ¬d.InDeclaration before →
        d.BeginsFunction items functions before line ∨
        tail = .declaration line after ∧ before = items.flatMap HeaderItem.lines

/-- Whether no declaration of a header is swallowed: each line that begins like a declaration, but
not in a layout block, begins one of the functions, or else a declaration without a semicolon that
is still open at the end of the header. -/
def SwallowsNone (d : Dialect) (lines : List Text) (functions : List Signature) : Prop :=
  ∃ items tail, d.Factors lines items tail ∧
    ∀ before line after, lines = before ++ line :: after →
      line.startsWith d.statementLead = true → ¬d.InBlock before →
        d.BeginsFunction items functions before line ∨
        tail = .declaration line after ∧ before = items.flatMap HeaderItem.lines ∧
          ';' ∉ joinLines line after

/-- Whether the declarations of a header are kept apart: between two lines that begin like one, of
which the first does not stand in a layout block, a line ends in a semicolon, the first included;
and where no line ends in one to the end of the header, there is no semicolon at all. -/
structure KeepsApart (d : Dialect) (lines : List Text) : Prop where
  exists_end : ∀ before first between line after,
    lines = before ++ first :: between ++ line :: after →
    first.startsWith d.statementLead = true → ¬d.InBlock before →
    line.startsWith d.statementLead = true → ∃ l ∈ first :: between, l.trim.endsWith ';' = true
  no_semicolon : ∀ before first more, lines = before ++ first :: more →
    first.startsWith d.statementLead = true → ¬d.InBlock before →
    (∀ l ∈ first :: more, l.trim.endsWith ';' = false) → ∀ l ∈ first :: more, ';' ∉ l

/-- Declarations are kept apart if each ends in a semicolon with its first line. -/
theorem KeepsApart.of_lines (h : ∀ line ∈ lines, line.startsWith d.statementLead = true →
    line.trim.endsWith ';' = true) : d.KeepsApart lines := by
  constructor
  · intro before first between line after hlines hfirst _ _
    exact ⟨first, List.mem_cons_self, h first (by simp [hlines]) hfirst⟩
  · intro before first more hlines hfirst _ hopen
    have hends := h first (by simp [hlines]) hfirst
    rw [hopen first List.mem_cons_self] at hends
    exact absurd hends Bool.false_ne_true

/-- The lines of a header begin the functions that it declares. -/
theorem WellFormed.beginsFunctions {header : Text} (h : d.WellFormed header) :
    d.BeginsFunctions header.lines (d.functions header) := by
  obtain ⟨items, tail, hfactors⟩ := d.exists_factors header.lines
  have hread := mapM_eq_ok_iff.mp (mapM_signature_eq_ok_iff.mpr ⟨h, rfl⟩)
  rw [hfactors.statements] at hread
  refine ⟨items, tail, hfactors, hread, ?_⟩
  intro before line after hlines hlead hblock hdeclaration
  refine (hfactors.exists_declaration hlines hlead hblock hdeclaration).imp_left ?_
  rintro ⟨front, more, others, rfl, hbefore⟩
  have hstatement : ((front ++ .declaration line more :: others).filterMap HeaderItem.statement?)[
      (front.filterMap HeaderItem.statement?).length]? = some (joinLines line more) := by
    rw [List.filterMap_append, List.getElem?_append_right le_rfl, Nat.sub_self]
    rfl
  obtain ⟨f, hf, hsignature⟩ := exists_of_forall₂ hread hstatement
  exact ⟨front, more, others, f, rfl, hbefore, hsignature, hf⟩

/-- A joined text has the characters of its lines that are no blanks. -/
theorem mem_joinLines_iff {c : Char} {first : Text} {more : List Text}
    (hc : isBlank c = false) : c ∈ joinLines first more ↔ ∃ line ∈ first :: more, c ∈ line := by
  induction more using List.reverseRecOn with
  | nil =>
    rw [List.exists_mem_cons_iff]
    simpa [joinLines] using Text.mem_trim_iff hc
  | append_singleton more line ih =>
    have hspace : c ≠ ' ' := by
      rintro rfl
      exact absurd hc (by decide)
    rw [joinLines_concat, List.mem_append, List.mem_append, ih, Text.mem_trim_iff hc]
    simp [hspace, or_assoc, or_and_right, exists_or]

section Place

variable {first : Text} {more : List Text} {functions : List Signature}

/-- A line behind whole items stands in no layout block. -/
theorem Factors.not_inBlock (h : d.Factors before items .none) : ¬d.InBlock before := by
  rintro ⟨_, _, _, h'⟩
  exact nomatch (h.unique h').2

/-- A line behind whole items stands in no declaration. -/
theorem Factors.not_inDeclaration (h : d.Factors before items .none) : ¬d.InDeclaration before := by
  rintro ⟨_, _, _, h'⟩
  exact nomatch (h.unique h').2

/-- A declaration that is open behind whole items is left over. -/
theorem Factors.append_declaration (h : d.Factors before items .none)
    (hlead : first.startsWith d.statementLead = true) (hopen : StaysOpen first more) :
    d.Factors (before ++ first :: more) items (.declaration first more) := by
  obtain ⟨rfl, hitems, _⟩ := h
  exact ⟨by simp [HeaderTail.lines], hitems, .declaration hlead hopen⟩

/-- Where no declaration is swallowed, a line that begins like one, but not in a layout block,
stands behind whole items. -/
theorem SwallowsNone.exists_factors (h : d.SwallowsNone lines functions)
    (hlines : lines = before ++ line :: after) (hlead : line.startsWith d.statementLead = true)
    (hblock : ¬d.InBlock before) : ∃ front, d.Factors before front .none := by
  obtain ⟨items, tail, ⟨_, hitems, _⟩, hnone⟩ := h
  obtain ⟨front, more, others, _, rfl, rfl, _⟩ | ⟨_, rfl, _⟩ :=
    hnone before line after hlines hlead hblock
  · have hfront : ∀ item ∈ front, item.Fits d := fun item hmem => hitems item (by simp [hmem])
    exact ⟨front, by simp [HeaderTail.lines], hfront, .none⟩
  · exact ⟨items, by simp [HeaderTail.lines], hitems, .none⟩

/-- Where no declaration is swallowed, the declarations are kept apart. -/
theorem SwallowsNone.keepsApart (h : d.SwallowsNone lines functions) : d.KeepsApart lines := by
  constructor
  · intro before first between line after hlines hfirst hblock hline
    by_contra hends
    have hopen : StaysOpen first between := staysOpen_iff.mpr (by simpa using hends)
    have hbehind : lines = before ++ first :: (between ++ line :: after) := by simpa using hlines
    obtain ⟨front, hfront⟩ := h.exists_factors hbehind hfirst hblock
    have hdeclaration := hfront.append_declaration hfirst hopen
    obtain ⟨_, hnone⟩ := h.exists_factors hlines hline
      (fun ⟨_, _, _, hin⟩ => nomatch (hdeclaration.unique hin).2)
    exact nomatch (hdeclaration.unique hnone).2
  · intro before first more hlines hlead hblock hends
    obtain ⟨items, tail, hfactors, hnone⟩ := h
    obtain ⟨front, more', others, _, rfl, rfl, _⟩ | ⟨_, _, hsemicolon⟩ :=
      hnone before first more hlines hlead hblock
    · cases hfactors.fits_items _ (List.mem_append_right front List.mem_cons_self) with
      | declaration _ hcompletes =>
        have hall := hlines.symm.trans hfactors.eq_append
        simp only [List.flatMap_append, List.flatMap_cons, HeaderItem.lines, List.append_assoc,
          List.cons_append, List.append_cancel_left_eq, List.cons.injEq, true_and] at hall
        rw [hall] at hends
        exact absurd (staysOpen_iff.mpr hends) hcompletes.not_staysOpen
    · rw [mem_joinLines_iff (by decide)] at hsemicolon
      exact fun l hl hmem => hsemicolon ⟨l, hl, hmem⟩

/-- Where the declarations are kept apart, no line that begins like one stands inside of another. -/
theorem KeepsApart.not_inDeclaration (h : d.KeepsApart lines)
    (hlines : lines = before ++ line :: after) (hlead : line.startsWith d.statementLead = true) :
    ¬d.InDeclaration before := by
  rintro ⟨front, first, more, rfl, hfront, hfits⟩
  cases hfits with
  | declaration hfirst hopen =>
    have hwhole : d.Factors (front.flatMap HeaderItem.lines) front .none :=
      ⟨by simp [HeaderTail.lines], hfront, .none⟩
    obtain ⟨l, hl, hends⟩ := h.exists_end _ first more line after hlines hfirst
      hwhole.not_inBlock hlead
    rw [staysOpen_iff.mp hopen l hl] at hends
    exact Bool.false_ne_true hends

/-- A header swallows no declaration exactly if its declarations are kept apart. -/
theorem BeginsFunctions.swallowsNone_iff (h : d.BeginsFunctions lines functions) :
    d.SwallowsNone lines functions ↔ d.KeepsApart lines := by
  refine ⟨SwallowsNone.keepsApart, fun hapart => ?_⟩
  obtain ⟨items, tail, hfactors, _, hbegins⟩ := h
  refine ⟨items, tail, hfactors, fun before line after hlines hlead hblock => ?_⟩
  have hdeclaration := hapart.not_inDeclaration hlines hlead
  refine (hbegins before line after hlines hlead hblock hdeclaration).imp_right ?_
  rintro ⟨rfl, hbefore⟩
  refine ⟨rfl, hbefore, ?_⟩
  cases hfactors.fits_tail with
  | declaration _ hopen =>
    have hnone := hapart.no_semicolon before line after hlines hlead hblock
    rw [mem_joinLines_iff (by decide)]
    rintro ⟨l, hl, hmem⟩
    exact hnone (staysOpen_iff.mp hopen) l hl hmem

end Place

end Dialect

namespace Interface

open Signature

/-- The lines of two headers begin the functions of their interface, and no declaration is swallowed
exactly in the headers whose declarations are kept apart. -/
theorem ownFunctions_iff_keepsApart {plain extended : Content} {i : Interface}
    (hi : (ofHeaders plain extended).result = .ok i) :
    ∃ header header' : Text, plain = .ok header.bytes ∧ extended = .ok header'.bytes ∧
      ∃ functions functions', Dialect.plain.BeginsFunctions header.lines functions ∧
        Dialect.extended.BeginsFunctions header'.lines functions' ∧
        (Dialect.plain.SwallowsNone header.lines functions ↔
          Dialect.plain.KeepsApart header.lines) ∧
        (Dialect.extended.SwallowsNone header'.lines functions' ↔
          Dialect.extended.KeepsApart header'.lines) ∧
        i.plain.Perm (functions.map (retyped functions')) ∧
        i.extended.Perm (functions'.map (renamed functions)) := by
  obtain ⟨header, header', rfl, rfl⟩ := exists_bytes_of_ofHeaders hi
  obtain ⟨hdeclared, rfl⟩ := ofHeaders_bytes_eq_ok_iff.mp hi
  have hplain := hdeclared.wellFormed_plain.beginsFunctions
  have hextended := hdeclared.wellFormed_extended.beginsFunctions
  exact ⟨header, header', rfl, rfl, _, _, hplain, hextended, hplain.swallowsNone_iff,
    hextended.swallowsNone_iff, Layout.listing_map_perm (retyped_name _) hdeclared.hasSlots_plain,
    Layout.listing_map_perm (renamed_name _) hdeclared.hasSlots_extended⟩

/-- A plain header with two declarations, each on one line. -/
def declaredApart : Text :=
  "_CK_DECLARE_FUNCTION (C_A, (T a));
_CK_DECLARE_FUNCTION (C_B, (T b));
struct ck_function_list \x7b
 CK_C_A A;
 CK_C_B B;
\x7d;".toList

/-- The same header with a comment behind the first declaration. -/
def commentBehind : Text :=
  "_CK_DECLARE_FUNCTION (C_A, (T a)); /* a */
_CK_DECLARE_FUNCTION (C_B, (T b));
struct ck_function_list \x7b
 CK_C_A A;
 CK_C_B B;
\x7d;".toList

/-- Where nothing stands behind the declarations, none is swallowed. -/
theorem swallowsNone_declaredApart :
    ∃ i, (ofHeaders (.ok declaredApart.bytes) (.ok (Text.bytes []))).result = .ok i ∧
      i.plain = [⟨['A'], [⟨['a'], ['T']⟩]⟩, ⟨['B'], [⟨['b'], ['T']⟩]⟩] ∧
      ∃ functions functions', Dialect.plain.SwallowsNone declaredApart.lines functions ∧
        i.plain.Perm (functions.map (retyped functions')) := by
  have hdeclares : Dialect.plain.Declares (.ok declaredApart.bytes)
      [⟨['A'], [⟨['a'], ['T']⟩]⟩, ⟨['B'], [⟨['b'], ['T']⟩]⟩] (.ofList [['A'], ['B']]) := by
    rw [Dialect.declares_bytes_iff]
    decide +kernel
  have hapart : Dialect.plain.KeepsApart declaredApart.lines := .of_lines (by decide +kernel)
  have hi := ofHeaders_plain hdeclares (by decide)
  obtain ⟨header, _, hheader, _, functions, functions', _, _, hnone, _, hplain, _⟩ :=
    ownFunctions_iff_keepsApart hi
  obtain rfl := Text.bytes_inj.mp (Except.ok.inj hheader)
  exact ⟨_, hi, rfl, functions, functions', hnone.mpr hapart, hplain⟩

/-- A comment behind a declaration keeps it open: the next declaration is swallowed, and what it
says stands in the arguments of the first. -/
theorem swallowed_commentBehind :
    ∃ i, (ofHeaders (.ok commentBehind.bytes) (.ok (Text.bytes []))).result = .ok i ∧
      i.plain = [⟨['A'], [⟨"(C_B".toList, "T a)); /* a */ _CK_DECLARE_FUNCTION".toList⟩,
        ⟨['b'], "(T".toList⟩]⟩] ∧
      (∀ functions, ¬Dialect.plain.SwallowsNone commentBehind.lines functions) ∧
      ¬Dialect.plain.KeepsApart commentBehind.lines := by
  have hdeclares : Dialect.plain.Declares (.ok commentBehind.bytes)
      [⟨['A'], [⟨"(C_B".toList, "T a)); /* a */ _CK_DECLARE_FUNCTION".toList⟩,
        ⟨['b'], "(T".toList⟩]⟩] (.ofList [['A'], ['B']]) := by
    rw [Dialect.declares_bytes_iff]
    decide +kernel
  have hlines : commentBehind.lines = ["_CK_DECLARE_FUNCTION (C_A, (T a)); /* a */".toList] ++
      "_CK_DECLARE_FUNCTION (C_B, (T b));".toList :: commentBehind.lines.drop 2 := by
    decide +kernel
  have hin : Dialect.plain.InDeclaration
      ["_CK_DECLARE_FUNCTION (C_A, (T a)); /* a */".toList] := by
    rw [Dialect.inDeclaration_iff]
    exact ⟨_, rfl⟩
  have hblock : ¬Dialect.plain.InBlock
      ["_CK_DECLARE_FUNCTION (C_A, (T a)); /* a */".toList] := by
    rw [Dialect.inBlock_iff]
    decide
  refine ⟨_, ofHeaders_plain hdeclares (by decide), rfl, ?_, fun hapart => ?_⟩
  · intro functions hnone
    obtain ⟨front, hfront⟩ := hnone.exists_factors hlines (by decide) hblock
    exact hfront.not_inDeclaration hin
  · obtain ⟨l, hl, hends⟩ := hapart.exists_end [] _ [] _ _ hlines (by decide)
      (by rw [Dialect.inBlock_iff]; decide) (by decide)
    obtain rfl := List.mem_singleton.mp hl
    exact absurd hends (by decide)

end Interface

end DispatchTable
