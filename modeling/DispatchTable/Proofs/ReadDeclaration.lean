import DispatchTable.Proofs.Printing

/-!
# Reading a printed declaration

A declaration that is printed on one line is read as the signature that it was printed from. The
name ends at the first mark behind it and the arguments end at the last closing mark. Each argument
ends at the next comma, and its name begins behind the last blank and the pointer marks there.
-/

namespace DispatchTable

/-- A printed type begins with no blank. -/
theorem IsType.not_isBlank_head {type : Text} (h : IsType type) :
    ∀ c ∈ type.head?, isBlank c = false := by
  intro c hc
  rw [← h.trim_eq] at hc
  exact Text.not_isBlank_head_trim hc

namespace PrintedArgument

variable {d : Dialect} {arg : Argument} {item : Text}

/-- A printed argument begins with no blank. -/
theorem not_isBlank_head (h : PrintedArgument d arg item) :
    ∃ c ∈ item.head?, isBlank c = false := by
  have hfront : ∀ {type : Text}, IsType type → ∃ c ∈ type.head?, isBlank c = false := by
    intro type htype
    obtain ⟨c, type, rfl⟩ := List.exists_cons_of_ne_nil htype.ne_nil
    exact ⟨c, rfl, htype.not_isBlank_head c rfl⟩
  cases h with
  | spaced htype hname =>
    obtain ⟨c, hc, hblank⟩ := hfront htype
    exact ⟨c, List.mem_head?_append_of_mem_head? hc, hblank⟩
  | joined htype hblank hne hstars hname =>
    obtain ⟨c, hc, hblank⟩ := hfront htype
    exact ⟨c, List.mem_head?_append_of_mem_head? hc, hblank⟩
  | type htype => exact hfront htype

/-- A printed argument has no comma and stands on one line. -/
theorem no_mark (h : PrintedArgument d arg item) : ∀ c ∈ item, c ≠ ',' ∧ c ≠ '\n' := by
  have htypes : ∀ {type : Text}, IsType type → ∀ c ∈ type, c ≠ ',' ∧ c ≠ '\n' :=
    fun htype c hc => ⟨(htype.no_mark c hc).1, (htype.no_mark c hc).2.2⟩
  have hnames : ∀ {name : Text}, IsArgumentName name → ∀ c ∈ name, c ≠ ',' ∧ c ≠ '\n' := by
    intro name hname c hc
    refine ⟨(hname.no_mark c hc).2.1, ?_⟩
    rintro rfl
    exact absurd (hname.no_mark _ hc).1 (by decide)
  intro c hc
  cases h with
  | spaced htype hname =>
    rcases List.mem_append.mp hc with hc | hc
    · exact htypes htype c hc
    · rcases List.mem_cons.mp hc with rfl | hc
      · decide
      · exact hnames hname c hc
  | joined htype hblank hne hstars hname =>
    rcases List.mem_append.mp hc with hc | hc
    · exact htypes htype c hc
    · exact hnames hname c hc
  | type htype => exact htypes htype c hc

/-- Each printed text of some arguments is that of one argument. -/
theorem exists_of_mem_items {args : List Argument} {items : List Text}
    (h : List.Forall₂ (PrintedArgument d) args items) :
    ∀ item ∈ items, ∃ arg, PrintedArgument d arg item := by
  induction h with
  | nil => simp
  | cons harg _ ih =>
    rw [List.forall_mem_cons]
    exact ⟨⟨_, harg⟩, ih⟩

end PrintedArgument

namespace Dialect

open Pattern

section Arguments

variable {d : Dialect} {lead tail : Text}

private theorem backtrack?_solid {solid more rest : Text} {pieces : Pattern}
    (hsolid : ∀ c ∈ solid, isBlank c = false) (htail : ∀ c ∈ tail.head?, c = ',')
    (hmore : ∀ c ∈ more, (c != ',') = true) (hrest : solid ++ tail = more ++ rest) :
    backtrack? (.plus isBlank :: pieces) rest = none := by
  have hcomma : ∀ c ∈ tail.head?, isBlank c = false := by
    intro c hc
    rw [htail c hc]
    rfl
  cases rest with
  | nil => rfl
  | cons a rest =>
    suffices ha : isBlank a = false by rw [backtrack?, if_neg (by simp [ha])]
    rcases List.append_eq_append_iff.mp hrest with
      ⟨piece, hpiece, htail'⟩ | ⟨piece, hpiece, hpiece'⟩
    · cases piece with
      | nil => exact hcomma a (by rw [htail']; rfl)
      | cons b piece =>
        have hb := hmore b (by simp [hpiece])
        rw [htail b (by rw [htail']; rfl)] at hb
        exact absurd hb (by decide)
    · cases piece with
      | nil => exact hcomma a (by rw [← List.nil_append tail, ← hpiece']; rfl)
      | cons b piece =>
        rw [List.cons_append, List.cons.injEq] at hpiece'
        exact hsolid a (by simp [hpiece, hpiece'.1])

private theorem backtrack?_plain {words stars name : Text} {blank : Char}
    (hlead : ∀ c ∈ lead, isBlank c = true) (hne : words ≠ [])
    (hhead : ∀ c ∈ words.head?, isBlank c = false) (hwords : ∀ c ∈ words, c ≠ ',')
    (hblank : isBlank blank = true) (hstars : ∀ c ∈ stars, c = '*') (hname : IsArgumentName name)
    (htail : ∀ c ∈ tail.head?, c = ',') :
    plain.argumentPattern.backtrack? (lead ++ (words ++ ([blank] ++ (stars ++ (name ++ tail))))) =
      some [lead, words, [blank], stars, name] := by
  have hsolid : ∀ c ∈ stars ++ name, isBlank c = false := by
    intro c hc
    rcases List.mem_append.mp hc with hc | hc
    · rw [hstars c hc]
      rfl
    · exact (hname.no_mark c hc).1
  have hnames : backtrack? [.plus fun c => c != ',' && c != ' '] (name ++ tail) = some [name] := by
    apply backtrack?_plus hname.ne_nil _ _ rfl
    · intro c hc
      obtain ⟨hsolid, hcomma, _⟩ := hname.no_mark c hc
      have hspace : c ≠ ' ' := by
        rintro rfl
        exact absurd hsolid (by decide)
      simp [hcomma, hspace]
    · intro c hc
      rw [htail c hc]
      rfl
  have hstar : backtrack? [.star (· == '*'), .plus fun c => c != ',' && c != ' ']
      (stars ++ (name ++ tail)) = some [stars, name] := by
    apply backtrack?_star _ _ hnames
    · intro c hc
      simp [hstars c hc]
    · intro c hc
      rw [List.head?_append_of_ne_nil _ hname.ne_nil] at hc
      have hnot : c ≠ '*' := fun he => hname.no_star (he ▸ hc)
      simp [hnot]
  have hblanks : backtrack? [.plus isBlank, .star (· == '*'), .plus fun c => c != ',' && c != ' ']
      ([blank] ++ (stars ++ (name ++ tail))) = some [[blank], stars, name] := by
    apply backtrack?_plus (List.cons_ne_nil blank []) (List.forall_mem_singleton.mpr hblank) _ hstar
    intro c hc
    rw [← List.append_assoc, List.head?_append_of_ne_nil _ (by simp [hname.ne_nil])] at hc
    exact hsolid c (List.mem_of_mem_head? hc)
  apply backtrack?_star hlead
  · intro c hc
    rw [List.head?_append_of_ne_nil _ hne] at hc
    exact hhead c hc
  apply backtrack?_plus_of_longest hne _ hblanks
  · intro more rest hrest hmore hcomma
    obtain ⟨c, more, rfl⟩ := List.exists_cons_of_ne_nil hmore
    rw [List.cons_append, List.cons_append, List.nil_append, List.cons.injEq,
      ← List.append_assoc] at hrest
    exact backtrack?_solid hsolid htail (fun a ha => hcomma a (List.mem_cons_of_mem c ha)) hrest.2
  · intro c hc
    simp [hwords c hc]

private theorem backtrack?_extended {type : Text} (hlead : ∀ c ∈ lead, isBlank c = true)
    (htype : IsType type) (htail : ∀ c ∈ tail.head?, c = ',') :
    extended.argumentPattern.backtrack? (lead ++ (type ++ tail)) = some [lead, type] := by
  refine backtrack?_star hlead (fun c hc => htype.not_isBlank_head c ?_) ?_
  · rwa [List.head?_append_of_ne_nil _ htype.ne_nil] at hc
  refine backtrack?_plus htype.ne_nil (fun c hc => ?_) (fun c hc => ?_) rfl
  · simp [(htype.no_mark c hc).1]
  · rw [htail c hc]
    rfl

/-- A printed argument is matched up to the next comma, and the match stands for the argument. -/
theorem exists_match_of_printed {arg : Argument} {item : Text} (h : PrintedArgument d arg item)
    (hlead : ∀ c ∈ lead, isBlank c = true) (htail : ∀ c ∈ tail.head?, c = ',') :
    ∃ m : Match, m.flatten = lead ++ item ∧
      d.argumentPattern.backtrack? (m.flatten ++ tail) = some m ∧ d.argument? m = some arg := by
  cases h with
  | @spaced type name htype hname =>
    refine ⟨[lead, type, [' '], [], name], by simp, ?_, ?_⟩
    · have hspace : isBlank ' ' = true := by decide
      have hstars : ∀ c ∈ ([] : Text), c = '*' := by simp
      have hm := backtrack?_plain hlead htype.ne_nil htype.not_isBlank_head
        (fun c hc => (htype.no_mark c hc).1) hspace hstars hname htail
      simpa using hm
    · have htrim : (type ++ [' '] ++ []).trim = type := by
        rw [List.append_nil, Text.trim_append (List.forall_mem_singleton.mpr rfl), htype.trim_eq]
      rw [argument?, htrim]
  | @joined words stars name blank htype hblank hne hstars hname =>
    have hwords : words ≠ [] := by
      rintro rfl
      rw [htype.not_isBlank_head blank rfl] at hblank
      exact absurd hblank nofun
    refine ⟨[lead, words, [blank], stars, name], by simp, ?_, ?_⟩
    · have hm := backtrack?_plain hlead hwords
        (fun c hc => htype.not_isBlank_head c (List.mem_head?_append_of_mem_head? hc))
        (fun c hc => (htype.no_mark c (List.mem_append_left _ hc)).1) hblank hstars hname htail
      simpa using hm
    · have htrim : (words ++ [blank] ++ stars).trim = words ++ blank :: stars := by
        rw [List.append_assoc, List.singleton_append, htype.trim_eq]
      rw [argument?, htrim]
  | type htype =>
    refine ⟨[lead, item], by simp, ?_, ?_⟩
    · simpa using backtrack?_extended hlead htype htail
    · rw [argument?, htype.trim_eq]

private theorem backtrack?_comma (d : Dialect) (s : Text) :
    d.argumentPattern.backtrack? (',' :: s) = none := by
  have hnone : ∀ pieces : Pattern,
      backtrack? (.star isBlank :: .plus (· != ',') :: pieces) (',' :: s) = none := by
    intro pieces
    rw [backtrack?, longest_eq_none_iff]
    intro run rest hs hrun
    cases run with
    | nil =>
      rw [List.nil_append] at hs
      rw [← hs]
      rfl
    | cons c run =>
      have hblank := hrun c List.mem_cons_self
      rw [← (List.cons.inj hs).1] at hblank
      exact absurd hblank (by decide)
  cases d with
  | plain => exact hnone _
  | extended => exact hnone []

private theorem arguments_append {arg : Argument} {item : Text} (h : PrintedArgument d arg item)
    (hlead : ∀ c ∈ lead, isBlank c = true) (htail : ∀ c ∈ tail.head?, c = ',') :
    d.arguments (lead ++ item ++ tail) = arg :: d.arguments tail := by
  obtain ⟨m, hflatten, hm, harg⟩ := exists_match_of_printed h hlead htail
  have hne : m.flatten ≠ [] := by
    obtain ⟨c, hc, _⟩ := h.not_isBlank_head
    rw [hflatten]
    exact List.append_ne_nil_of_right_ne_nil _ (List.ne_nil_of_mem (List.mem_of_mem_head? hc))
  rw [← hflatten, arguments, findAll_append hne hm, List.filterMap_cons, harg, arguments]

private theorem head?_flatMap {items : List Text} :
    ∀ c ∈ (items.flatMap (", ".toList ++ ·)).head?, c = ',' := by
  cases items with
  | nil => simp
  | cons item items =>
    intro c hc
    exact (Option.some.inj hc).symm

private theorem arguments_flatMap {args : List Argument} {items : List Text}
    (h : List.Forall₂ (PrintedArgument d) args items) :
    d.arguments (items.flatMap (", ".toList ++ ·)) = args := by
  induction h with
  | nil => cases d <;> rfl
  | @cons arg item args items harg _ ih =>
    have hcomma : d.arguments (',' :: ([' '] ++ item ++ items.flatMap (", ".toList ++ ·))) =
        d.arguments ([' '] ++ item ++ items.flatMap (", ".toList ++ ·)) := by
      rw [arguments, findAll_cons_of_none (backtrack?_comma d _), arguments]
    rw [arguments_append harg (List.forall_mem_singleton.mpr rfl) head?_flatMap, ih] at hcomma
    exact hcomma

/-- Printed arguments are read back. -/
theorem arguments_of_printed {args : List Argument} {text : Text}
    (h : PrintedArguments d args text) : d.arguments text = args := by
  cases h with
  | void => decide
  | items hne h =>
    cases h with
    | nil => exact absurd rfl hne
    | cons harg hargs =>
      have hlead : ∀ c ∈ ([] : Text), isBlank c = true := by simp
      rw [Text.intercalate_eq_flatMap]
      exact (arguments_append harg hlead head?_flatMap).trans
        (congrArg _ (arguments_flatMap hargs))

end Arguments

/-- Printed arguments stand on one line. -/
theorem inLine_of_printed {d : Dialect} {args : List Argument} {text : Text}
    (h : PrintedArguments d args text) : ∀ c ∈ text, inLine c = true := by
  cases h with
  | void => exact List.all_eq_true.mp rfl
  | items _ h =>
    have hline : '\n' ∉ List.intercalate ", ".toList _ :=
      Text.not_mem_intercalate (by decide) fun item hitem hmem => by
        obtain ⟨arg, harg⟩ := PrintedArgument.exists_of_mem_items h item hitem
        exact (harg.no_mark _ hmem).2 rfl
    intro c hc
    have hne : c ≠ '\n' := fun he => hline (he ▸ hc)
    simpa [inLine] using hne

private theorem backtrack?_closed {text : Text} (close : Text)
    (htext : ∀ c ∈ text, inLine c = true) :
    backtrack? [.star inLine, .exact close] (text ++ close) = some [text, close] := by
  have hclose : backtrack? [.exact close] close = some [close] := by
    rw [backtrack?, Text.after?_eq_some_iff.mpr (List.append_nil close).symm]
    rfl
  apply backtrack?_star_of_longest htext hclose
  intro more rest hrest hmore _
  have hshort : Text.after? rest close = none := by
    rw [Option.eq_none_iff_forall_ne_some]
    intro r hr
    have hlen := congrArg List.length hrest
    have hpos := List.length_pos_of_ne_nil hmore
    rw [Text.after?_eq_some_iff.mp hr, List.length_append, List.length_append] at hlen
    omega
  rw [backtrack?, hshort]
  rfl

/-- A declaration is read as its name and the text of its arguments. -/
theorem declaration?_declare (d : Dialect) {name text : Text} (hname : IsName name)
    (htext : ∀ c ∈ text, inLine c = true) :
    d.declaration? (d.declare name text) = some (name, text) := by
  have hstop : ∀ {chars : Char → Bool} {c : Char} {rest : Text}, chars c = false →
      ∀ a ∈ (c :: rest).head?, chars a = false := fun h a ha => by rwa [← Option.some.inj ha]
  have hspace : ∀ c ∈ [' '], isBlank c = true := List.forall_mem_singleton.mpr rfl
  cases d with
  | plain =>
    have hmatch : plain.declarationPattern.match? (plain.declare name text) =
        some [plain.statementLead, [' '], "(C_".toList, name, ", (".toList, text,
          "));".toList] := by
      rw [match?_eq, declare, List.append_assoc, List.append_assoc, List.append_assoc,
        List.append_assoc]
      refine backtrack?_exact _ (backtrack?_star hspace (hstop (c := '(') rfl)
        (backtrack?_exact "(C_".toList ?_))
      exact backtrack?_plus hname.1 hname.2 (hstop (c := ',') rfl)
        (backtrack?_exact ", (".toList (backtrack?_closed _ htext))
    simp only [declaration?, hmatch]
  | extended =>
    have hmatch : extended.declarationPattern.match? (extended.declare name text) =
        some [extended.statementLead, name, [')'], [' '], ['('], text, ");".toList] := by
      rw [match?_eq, declare, List.append_assoc, List.append_assoc, List.append_assoc]
      refine backtrack?_exact _ (backtrack?_plus hname.1 hname.2 (hstop (c := ')') rfl) ?_)
      exact backtrack?_exact [')'] (backtrack?_star hspace (hstop (c := '(') rfl)
        (backtrack?_exact ['('] (backtrack?_closed _ htext)))
    simp only [declaration?, hmatch]

/-- A printed declaration is read back. -/
theorem signature_declare {d : Dialect} {f : Signature} {text : Text} (hname : IsName f.name)
    (hargs : PrintedArguments d f.args text) : d.signature (d.declare f.name text) = .ok f :=
  signature_eq_ok_iff.mpr ⟨text, declaration?_declare d hname (inLine_of_printed hargs),
    (arguments_of_printed hargs).symm⟩

end Dialect

end DispatchTable
