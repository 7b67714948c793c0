import DispatchTable.Proofs.Outcome
import DispatchTable.Proofs.Segments

/-!
# Declarations in closed form

What a declaration is read as can be said without a search for matches. A statement is a declaration
exactly when it is the fixed words with blanks, a name and the text of the arguments between them;
the name is determined, and the text is the longest possible one. A plain argument is cut out of its
segment at an index: behind the last blank that another character than a space follows, though not
behind the first character, and behind the pointer marks there. An extended argument is its segment,
trimmed, and only an empty segment gives none.
-/

namespace DispatchTable

/-- A run of a class is determined where a fixed text follows it that begins with another
character. -/
theorem append_inj_of_run {p : Char → Bool} {run run' lead more more' : Text}
    (hlead : lead.head?.any (!p ·) = true) (hrun : ∀ c ∈ run, p c = true)
    (hrun' : ∀ c ∈ run', p c = true) (h : run ++ (lead ++ more) = run' ++ (lead ++ more')) :
    run = run' ∧ more = more' := by
  obtain ⟨c, hhead, hc⟩ := (Option.any_eq_true _ _).mp hlead
  obtain ⟨lead, rfl⟩ := List.head?_eq_some_iff.mp hhead
  have hstop : ∀ s : Text, (c :: s).takeWhile p = [] := fun s =>
    List.takeWhile_cons_of_neg (by simpa using hc)
  have htake := congrArg (List.takeWhile p) h
  simp only [List.cons_append, List.takeWhile_append_of_pos hrun,
    List.takeWhile_append_of_pos hrun', hstop, List.append_nil] at htake
  subst htake
  exact ⟨rfl, List.append_cancel_left (List.append_cancel_left h)⟩

namespace Dialect

open Pattern

/-- What the pieces of a declaration take: fixed words, blanks, the name of the function and the
text of its arguments. -/
def pieces (blanks name text : Text) : Dialect → Match
  | plain =>
    [plain.statementLead, blanks, "(C_".toList, name, ", (".toList, text, "));".toList]
  | extended =>
    [extended.statementLead, name, [')'], blanks, ['('], text, ");".toList]

/-- Whether a statement is written with these blanks, this name and this text of the arguments, and
goes on with `rest`. -/
structure Spells (d : Dialect) (statement blanks name text rest : Text) : Prop where
  eq_append : statement = (d.pieces blanks name text).flatten ++ rest
  isBlank_blanks : ∀ c ∈ blanks, isBlank c = true
  isName : IsName name
  newline_not_mem : '\n' ∉ text

variable {d : Dialect} {statement blanks blanks' name name' text text' rest rest' : Text}

/-- A pattern is matched by the pieces of a declaration. -/
theorem fits_pieces_iff {m : Match} : Fits d.declarationPattern m ↔
    ∃ blanks name text, m = d.pieces blanks name text ∧ (∀ c ∈ blanks, isBlank c = true) ∧
      IsName name ∧ ∀ c ∈ text, inLine c = true := by
  cases d with
  | plain =>
    refine ⟨exists_of_fits_plain, ?_⟩
    rintro ⟨blanks, name, text, rfl, hblanks, hname, htext⟩
    exact .exact (.star hblanks (.exact (.plus hname.1 hname.2 (.exact
      (.star htext (.exact .nil))))))
  | extended =>
    constructor
    · intro h
      obtain ⟨name, blanks, text, h⟩ := exists_of_fits_extended h
      exact ⟨blanks, name, text, h⟩
    · rintro ⟨blanks, name, text, rfl, hblanks, hname, htext⟩
      exact .exact (.plus hname.1 hname.2 (.exact (.star hblanks (.exact
        (.star htext (.exact .nil))))))

private theorem forall_inLine_iff : (∀ c ∈ text, inLine c = true) ↔ '\n' ∉ text := by
  simp only [inLine, bne_iff_ne, ne_eq]
  exact ⟨fun h hmem => h _ hmem rfl, fun h c hc he => h (he ▸ hc)⟩

/-- A statement is a declaration exactly when it is spelled like one. -/
theorem isDeclaration_iff_spells : d.IsDeclaration statement ↔
    ∃ blanks name text rest, d.Spells statement blanks name text rest := by
  simp only [IsDeclaration, fits_pieces_iff, forall_inLine_iff]
  constructor
  · rintro ⟨_, rest, ⟨blanks, name, text, rfl, hblanks, hname, htext⟩, rfl⟩
    exact ⟨blanks, name, text, rest, rfl, hblanks, hname, htext⟩
  · rintro ⟨blanks, name, text, rest, rfl, hblanks, hname, htext⟩
    exact ⟨_, rest, ⟨blanks, name, text, rfl, hblanks, hname, htext⟩, rfl⟩

/-- The blanks and the name of a declaration are determined, and so is all that stands behind. -/
theorem Spells.eq_of_spells (h : d.Spells statement blanks name text rest)
    (h' : d.Spells statement blanks' name' text' rest') : blanks = blanks' ∧ name = name' := by
  have he := h.eq_append.symm.trans h'.eq_append
  cases d with
  | plain =>
    simp only [pieces, List.flatten_cons, List.append_assoc, List.append_cancel_left_eq] at he
    obtain ⟨hblanks, he⟩ :=
      append_inj_of_run (by decide) h.isBlank_blanks h'.isBlank_blanks he
    exact ⟨hblanks, (append_inj_of_run (by decide) h.isName.2 h'.isName.2 he).1⟩
  | extended =>
    simp only [pieces, List.flatten_cons, List.append_assoc, List.append_cancel_left_eq] at he
    obtain ⟨hname, he⟩ := append_inj_of_run (by decide) h.isName.2 h'.isName.2 he
    exact ⟨(append_inj_of_run (by decide) h.isBlank_blanks h'.isBlank_blanks he).1, hname⟩

private theorem declaration?_eq_some_iff_backtrack? : d.declaration? statement = some (name, text) ↔
    ∃ blanks, d.declarationPattern.backtrack? statement = some (d.pieces blanks name text) := by
  rw [← match?_eq]
  cases hm : d.declarationPattern.match? statement with
  | none => cases d <;> simp [declaration?, hm]
  | some m =>
    rw [match?_eq] at hm
    obtain ⟨blanks, name, text, rfl, _⟩ := fits_pieces_iff.mp (fits_of_backtrack? hm).1
    rw [← match?_eq] at hm
    cases d <;> simp [declaration?, hm, pieces]

/-- The fixed words behind the text of the arguments. -/
def closing : Dialect → Text
  | plain => "));".toList
  | extended => ");".toList

private theorem exists_declarationPattern_eq (d : Dialect) : ∃ front,
    d.declarationPattern = front ++ [.star inLine, .exact d.closing] ∧
      ∀ blanks name, ∃ opening, ∀ text,
        d.pieces blanks name text = opening ++ [text, d.closing] := by
  cases d with
  | plain =>
    exact ⟨[.exact plain.statementLead, .star isBlank, .exact "(C_".toList, .plus isWord,
      .exact ", (".toList], rfl, fun blanks name =>
      ⟨[plain.statementLead, blanks, "(C_".toList, name, ", (".toList], fun _ => rfl⟩⟩
  | extended =>
    exact ⟨[.exact extended.statementLead, .plus isWord, .exact [')'], .star isBlank,
      .exact ['(']], rfl, fun blanks name =>
      ⟨[extended.statementLead, name, [')'], blanks, ['(']], fun _ => rfl⟩⟩

private theorem pieces_inj (h : d.pieces blanks name text = d.pieces blanks' name' text') :
    blanks = blanks' ∧ name = name' ∧ text = text' := by
  cases d with
  | plain => simpa [pieces] using h
  | extended =>
    obtain ⟨hname, hblanks, htext⟩ : name = name' ∧ blanks = blanks' ∧ text = text' := by
      simpa [pieces] using h
    exact ⟨hblanks, hname, htext⟩

private theorem spells_of_backtrack?
    (h : d.declarationPattern.backtrack? statement = some (d.pieces blanks name text)) :
    ∃ rest, d.Spells statement blanks name text rest ∧
      ∀ blanks' name' text' rest', d.Spells statement blanks' name' text' rest' →
        text'.length ≤ text.length := by
  obtain ⟨front, hpattern, hpieces⟩ := exists_declarationPattern_eq d
  obtain ⟨opening, hopening⟩ := hpieces blanks name
  obtain ⟨_, _, _, hm, hblanks, hname, htext⟩ := fits_pieces_iff.mp (fits_of_backtrack? h).1
  obtain ⟨rfl, rfl, rfl⟩ := pieces_inj hm
  rw [hpattern, hopening] at h
  obtain ⟨taken, run, rest, htaken, hstatement, _, _, hmax⟩ := exists_of_backtrack?_append_star h
  obtain ⟨rfl, hrun⟩ := List.append_inj' htaken rfl
  obtain rfl : text = run := (List.cons.inj hrun).1
  have hspells : d.Spells statement blanks name text rest := by
    refine ⟨?_, hblanks, hname, forall_inLine_iff.mp htext⟩
    rw [hstatement, hopening]
    simp
  refine ⟨rest, hspells, fun blanks' name' text' rest' h' => ?_⟩
  obtain ⟨rfl, rfl⟩ := hspells.eq_of_spells h'
  refine hmax text' rest' ?_ (forall_inLine_iff.mpr h'.newline_not_mem)
  have hstatement' := hstatement.symm.trans h'.eq_append
  rw [hopening] at hstatement'
  simpa using hstatement'

private theorem Spells.eq_append_iff (h : d.Spells statement blanks name text rest) :
    statement = (d.pieces blanks name text').flatten ++ rest' ↔
      text ++ (d.closing ++ rest) = text' ++ (d.closing ++ rest') := by
  obtain ⟨_, _, hpieces⟩ := exists_declarationPattern_eq d
  obtain ⟨opening, hopening⟩ := hpieces blanks name
  rw [h.eq_append, hopening, hopening]
  simp

private theorem Spells.text_eq (h : d.Spells statement blanks name text rest)
    (h' : d.Spells statement blanks' name' text' rest') (hlength : text.length = text'.length) :
    text = text' := by
  obtain ⟨rfl, rfl⟩ := h.eq_of_spells h'
  exact (List.append_inj (h.eq_append_iff.mp h'.eq_append) hlength).1

/-- The longest text with which a statement can be spelled is the one that goes on to the last
closing words before a newline. -/
theorem Spells.forall_length_le_iff (h : d.Spells statement blanks name text rest) :
    (∀ blanks' name' text' rest', d.Spells statement blanks' name' text' rest' →
      text'.length ≤ text.length) ↔
    ∀ before after, text ++ (d.closing ++ rest) = before ++ (d.closing ++ after) →
      '\n' ∉ before → before.length ≤ text.length := by
  constructor
  · intro hmax before after he hbefore
    exact hmax blanks name before after
      ⟨h.eq_append_iff.mpr he, h.isBlank_blanks, h.isName, hbefore⟩
  · intro hmax blanks' name' text' rest' h'
    obtain ⟨rfl, rfl⟩ := h.eq_of_spells h'
    exact hmax text' rest' (h.eq_append_iff.mp h'.eq_append) h'.newline_not_mem

/-- What the name and the text of the arguments are in a statement. -/
theorem declaration?_eq_some_iff : d.declaration? statement = some (name, text) ↔
    ∃ blanks rest, d.Spells statement blanks name text rest ∧
      ∀ blanks' name' text' rest', d.Spells statement blanks' name' text' rest' →
        text'.length ≤ text.length := by
  rw [declaration?_eq_some_iff_backtrack?]
  constructor
  · rintro ⟨blanks, h⟩
    exact ⟨blanks, spells_of_backtrack? h⟩
  · rintro ⟨blanks, rest, h, hmax⟩
    have hfits : Fits d.declarationPattern (d.pieces blanks name text) := fits_pieces_iff.mpr
      ⟨blanks, name, text, rfl, h.isBlank_blanks, h.isName, forall_inLine_iff.mpr h.newline_not_mem⟩
    obtain ⟨m, hm⟩ := hfits.exists_backtrack? rest
    rw [← h.eq_append] at hm
    obtain ⟨blanks', name', text', rfl, _⟩ := fits_pieces_iff.mp (fits_of_backtrack? hm).1
    obtain ⟨rest', h', hmax'⟩ := spells_of_backtrack? hm
    obtain rfl := h.text_eq h' (Nat.le_antisymm (hmax' _ _ _ _ h) (hmax _ _ _ _ h'))
    obtain ⟨rfl, rfl⟩ := h.eq_of_spells h'
    exact ⟨blanks, hm⟩

end Dialect

namespace Text

variable {s : Text} {e : Nat}

/-- Whether a name may begin behind the character at an index: this is a blank, but not the first
character, and another character than a space follows it. -/
def IsGap (s : Text) (e : Nat) : Prop :=
  1 ≤ e ∧ (∃ b ∈ s[e]?, isBlank b = true) ∧ ∃ c ∈ s[e + 1]?, c ≠ ' '

instance (s : Text) (e : Nat) : Decidable (s.IsGap e) :=
  inferInstanceAs (Decidable (1 ≤ e ∧ (∃ b ∈ s[e]?, isBlank b = true) ∧ ∃ c ∈ s[e + 1]?, c ≠ ' '))

/-- The last index behind which a name may begin. -/
def gap? (s : Text) : Option Nat := (List.range s.length).reverse.find? fun e => s.IsGap e

/-- The number of stars at the front of a text, less one where a space or nothing follows them. -/
def markCount (s : Text) : Nat :=
  match (s.dropWhile (· == '*')).head? with
  | none | some ' ' => (s.takeWhile (· == '*')).length - 1
  | some _ => (s.takeWhile (· == '*')).length

/-- A gap is a place at which a text divides. -/
theorem isGap_iff : s.IsGap e ↔ ∃ front b c after, s = front ++ b :: c :: after ∧
    front.length = e ∧ front ≠ [] ∧ isBlank b = true ∧ c ≠ ' ' := by
  constructor
  · rintro ⟨he, ⟨b, hb, hblank⟩, c, hc, hspace⟩
    obtain ⟨hlt, rfl⟩ := List.getElem?_eq_some_iff.mp hb
    obtain ⟨hlt', rfl⟩ := List.getElem?_eq_some_iff.mp hc
    have hlength : (s.take e).length = e := List.length_take_of_le (Nat.le_of_lt hlt)
    refine ⟨s.take e, _, _, s.drop (e + 2), ?_, hlength, ?_, hblank, hspace⟩
    · rw [← List.drop_eq_getElem_cons hlt', ← List.drop_eq_getElem_cons hlt, List.take_append_drop]
    · exact List.ne_nil_of_length_pos (hlength.symm ▸ he)
  · rintro ⟨front, b, c, after, rfl, rfl, hfront, hblank, hspace⟩
    exact ⟨List.length_pos_of_ne_nil hfront, ⟨b, by simp, hblank⟩, c, by simp, hspace⟩

private theorem IsGap.lt_length (h : s.IsGap e) : e < s.length := by
  obtain ⟨_, ⟨b, hb, _⟩, _⟩ := h
  exact (List.getElem?_eq_some_iff.mp hb).1

/-- There is no last gap exactly when there is none at all. -/
theorem gap?_eq_none_iff : s.gap? = none ↔ ∀ e, ¬s.IsGap e := by
  simp only [gap?, List.find?_eq_none, List.mem_reverse, List.mem_range, decide_eq_true_eq]
  exact ⟨fun h e he => h e he.lt_length he, fun h e _ => h e⟩

/-- The last gap is the largest index that is one. -/
theorem gap?_eq_some_iff : s.gap? = some e ↔ s.IsGap e ∧ ∀ e', s.IsGap e' → e' ≤ e := by
  have hlast : ∀ e, s.gap? = some e → s.IsGap e ∧ ∀ e', s.IsGap e' → e' ≤ e := by
    intro e he
    obtain ⟨before, after, hrange, hbefore, hgap⟩ := find?_eq_some_iff_isFirst.mp he
    have hsorted : (List.range s.length).reverse.Pairwise (· > ·) :=
      List.pairwise_reverse.mpr List.pairwise_lt_range
    rw [hrange] at hsorted
    refine ⟨hgap, fun e' he' => ?_⟩
    have hmem : e' ∈ before ++ e :: after := by
      rw [← hrange, List.mem_reverse, List.mem_range]
      exact he'.lt_length
    rcases List.mem_append.mp hmem with hmem | hmem
    · exact absurd he' (hbefore e' hmem)
    · rcases List.mem_cons.mp hmem with rfl | hmem
      · exact Nat.le_refl e'
      · exact Nat.le_of_lt (List.rel_of_pairwise_cons (List.pairwise_append.mp hsorted).2.1 hmem)
  refine ⟨hlast e, fun ⟨hgap, hmax⟩ => ?_⟩
  cases he : s.gap? with
  | none => exact absurd hgap (gap?_eq_none_iff.mp he e)
  | some e' =>
    obtain ⟨hgap', hmax'⟩ := hlast e' he
    rw [Nat.le_antisymm (hmax e' hgap') (hmax' e hgap)]

end Text

/-- The argument in a segment whose name begins at an index: it goes on to the next space, and what
stands before it is the type. -/
def Argument.cut (s : Text) (start : Nat) : Argument :=
  ⟨(s.drop start).takeWhile (· != ' '), Text.trim (s.take start)⟩

/-- The argument in a plain segment: its name begins behind the last gap and the stars there, as far
as these are not the name. -/
def Argument.ofSegment? (s : Text) : Option Argument :=
  s.gap?.map fun e => cut s (e + 1 + Text.markCount (s.drop (e + 1)))

namespace Dialect

section Segment

variable {s front stars name rest : Text} {blank : Char}

/-- The last gap of a segment is the blank that divides it. -/
theorem Divides.gap?_eq (h : Divides s front blank stars name rest) :
    s.gap? = some front.length := by
  obtain ⟨c, after, hc, hspace⟩ := exists_head_of_name h.stars_eq h.name_ne_nil h.space_not_mem rest
  rw [Text.gap?_eq_some_iff, Text.isGap_iff]
  refine ⟨⟨front, blank, c, after, hc ▸ h.eq_append, rfl, h.front_ne_nil, h.isBlank_blank, hspace⟩,
    fun e' he' => ?_⟩
  obtain ⟨front', b, c', after', hs, rfl, _, hb, hc'⟩ := Text.isGap_iff.mp he'
  rcases length_le_or_exists_of_append_eq (h.eq_append.symm.trans hs) with hle | ⟨a, piece, _, hp⟩
  · exact hle
  · exact absurd (h.last piece b c' after' (List.cons.inj hp).2 hb) hc'

/-- The stars before a name are those that are counted. -/
theorem Divides.markCount_eq (h : Divides s front blank stars name rest) :
    Text.markCount (stars ++ (name ++ rest)) = stars.length := by
  have hstars : ∀ c ∈ stars, (c == '*') = true := by simpa using h.stars_eq
  obtain ⟨c, name, rfl⟩ := List.exists_cons_of_ne_nil h.name_ne_nil
  have hc : c ≠ ' ' := fun he => h.space_not_mem (he ▸ List.mem_cons_self)
  simp only [Text.markCount, List.takeWhile_append_of_pos hstars,
    List.dropWhile_append_of_pos hstars, List.cons_append]
  by_cases hstar : c = '*'
  · subst hstar
    obtain rfl : name = [] := (List.cons.inj (h.name_of_star rfl)).2
    cases rest with
    | nil => simp
    | cons a rest =>
      obtain rfl := h.rest_head a rfl
      simp
  · have hstop : (c == '*') = false := by simpa using hstar
    simp only [List.takeWhile_cons, List.dropWhile_cons, hstop, Bool.false_eq_true, if_false,
      List.head?_cons, List.append_nil]

/-- A divided segment is cut before its name. -/
theorem Divides.ofSegment?_eq (h : Divides s front blank stars name rest) :
    Argument.ofSegment? s = some ⟨name, (front ++ blank :: stars).trim⟩ := by
  have hbehind : s.drop (front.length + 1) = stars ++ (name ++ rest) := by
    rw [h.eq_append, ← List.singleton_append, ← List.append_assoc]
    exact List.drop_left' (by simp)
  have hcut : s = (front ++ blank :: stars) ++ (name ++ rest) := by
    rw [h.eq_append]
    simp
  have hstart : front.length + 1 + stars.length = (front ++ blank :: stars).length := by
    simp only [List.length_append, List.length_cons]
    omega
  have hname : (name ++ rest).takeWhile (· != ' ') = name := by
    have hname : ∀ c ∈ name, (c != ' ') = true := by
      intro c hc
      have hne : c ≠ ' ' := fun he => h.space_not_mem (he ▸ hc)
      simpa using hne
    rw [List.takeWhile_append_of_pos hname]
    cases rest with
    | nil => simp
    | cons c rest =>
      obtain rfl := h.rest_head c rfl
      simp
  rw [Argument.ofSegment?, h.gap?_eq, Option.map_some, hbehind, h.markCount_eq, hstart,
    Argument.cut, hcut, List.drop_left, List.take_left, hname]

/-- A plain segment is read as the argument that is cut out of it. -/
theorem segment?_plain_eq (hs : ',' ∉ s) : plain.segment? s = Argument.ofSegment? s := by
  cases harg : plain.segment? s with
  | none =>
    have hname : ¬HasName s := by
      rw [← exists_segment?_plain_iff hs, harg]
      simp
    have hgap : s.gap? = none := by
      rw [Text.gap?_eq_none_iff]
      intro e he
      obtain ⟨front, b, c, after, hs, _, hfront, hb, hc⟩ := Text.isGap_iff.mp he
      exact hname ⟨front, b, c, after, hs, hfront, hb, hc⟩
    rw [Argument.ofSegment?, hgap]
    rfl
  | some arg =>
    obtain ⟨_, _, _, _, _, h, rfl⟩ := (segment?_plain_eq_some_iff hs).mp harg
    exact h.ofSegment?_eq.symm

end Segment

/-- A star with nothing behind it is a name, and no mark of the type. -/
example : plain.segment? "T **".toList = some ⟨['*'], "T *".toList⟩ := by decide

/-- The arguments of a plain declaration are those that are cut out of its segments. -/
theorem arguments_plain (text : Text) :
    plain.arguments text = (Text.segments ',' text).filterMap Argument.ofSegment? := by
  rw [arguments_eq]
  exact List.filterMap_congr fun s hs => segment?_plain_eq (Text.not_mem_of_mem_segments hs)

/-- A plain statement is a declaration exactly when it is spelled like one, and otherwise it is
reported as it is. The name of a declaration is the one that it is spelled with. Its arguments are
cut out of the segments of the longest text with which it can be spelled, one of each segment that
has a gap; this text goes on to the last closing words before a newline. -/
theorem signature_plain_closedForm (statement : Text) :
    ((∃ f, plain.signature statement = .ok f) ↔
      ∃ blanks name text rest, plain.Spells statement blanks name text rest) ∧
    (∀ f, plain.signature statement = .ok f ↔
      ∃ blanks text rest, plain.Spells statement blanks f.name text rest ∧
        (∀ blanks' name' text' rest', plain.Spells statement blanks' name' text' rest' →
          text'.length ≤ text.length) ∧
        (∀ before after, text ++ ("));".toList ++ rest) = before ++ ("));".toList ++ after) →
          '\n' ∉ before → before.length ≤ text.length) ∧
        f.args = (Text.segments ',' text).filterMap Argument.ofSegment?) ∧
    ∀ e, plain.signature statement = .error e ↔
      (¬∃ blanks name text rest, plain.Spells statement blanks name text rest) ∧
        e = .malformedDeclaration .plain statement := by
  refine ⟨by rw [exists_signature_iff, isDeclaration_iff_spells], fun f => ?_, fun e => by
    rw [signature_eq_error_iff, isDeclaration_iff_spells]⟩
  simp only [signature_eq_ok_iff, declaration?_eq_some_iff, arguments_plain]
  constructor
  · rintro ⟨text, ⟨blanks, rest, h, hmax⟩, hargs⟩
    exact ⟨blanks, text, rest, h, hmax, h.forall_length_le_iff.mp hmax, hargs⟩
  · rintro ⟨blanks, text, rest, h, hmax, _, hargs⟩
    exact ⟨text, ⟨blanks, rest, h, hmax⟩, hargs⟩

/-- An extended statement is a declaration exactly when it is spelled like one, and otherwise it is
reported as it is. The name of a declaration is the one that it is spelled with. Its arguments have
no names, and their types are the segments of the longest text with which it can be spelled, the
empty ones left out and the others trimmed; this text goes on to the last closing words before a
newline. -/
theorem signature_extended_closedForm (statement : Text) :
    ((∃ f, extended.signature statement = .ok f) ↔
      ∃ blanks name text rest, extended.Spells statement blanks name text rest) ∧
    (∀ f, extended.signature statement = .ok f ↔
      ∃ blanks text rest, extended.Spells statement blanks f.name text rest ∧
        (∀ blanks' name' text' rest', extended.Spells statement blanks' name' text' rest' →
          text'.length ≤ text.length) ∧
        (∀ before after, text ++ (");".toList ++ rest) = before ++ (");".toList ++ after) →
          '\n' ∉ before → before.length ≤ text.length) ∧
        f.args = ((Text.segments ',' text).filter (· ≠ [])).map fun s => ⟨[], Text.trim s⟩) ∧
    ∀ e, extended.signature statement = .error e ↔
      (¬∃ blanks name text rest, extended.Spells statement blanks name text rest) ∧
        e = .malformedDeclaration .extended statement := by
  refine ⟨by rw [exists_signature_iff, isDeclaration_iff_spells], fun f => ?_, fun e => by
    rw [signature_eq_error_iff, isDeclaration_iff_spells]⟩
  simp only [signature_eq_ok_iff, declaration?_eq_some_iff, arguments_extended]
  constructor
  · rintro ⟨text, ⟨blanks, rest, h, hmax⟩, hargs⟩
    exact ⟨blanks, text, rest, h, hmax, h.forall_length_le_iff.mp hmax, hargs⟩
  · rintro ⟨blanks, text, rest, h, hmax, _, hargs⟩
    exact ⟨text, ⟨blanks, rest, h, hmax⟩, hargs⟩

/-- Only the last closing words of a line end the text, and blanks between commas are a segment. -/
example : extended.signature "typedef CK_RV (* CK_X_F) (S *, ,,T); U); V".toList =
    .ok ⟨['F'], [⟨[], "S *".toList⟩, ⟨[], []⟩, ⟨[], "T); U".toList⟩]⟩ := by decide +kernel

end Dialect

end DispatchTable
