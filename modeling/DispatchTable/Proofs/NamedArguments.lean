import DispatchTable.Proofs.Outcome
import DispatchTable.Proofs.Segments

/-!
# Which arguments have a name and a type

A merged interface should know a name and a type of every plain argument, and of every extended one
behind the receiver that has a plain counterpart. This depends on the segments between the
parentheses. A plain name ends at a space only, so another blank behind it becomes part of it; it
may have pointer marks in it; and what stands before it may be nothing but blanks. An extended
segment of blanks is a type as well, an empty one.
-/

namespace DispatchTable

/-- Whether a text is a name, without blanks and pointer marks. -/
structure IsNamed (name : Text) : Prop where
  ne_nil : name ≠ []
  no_mark : ∀ c ∈ name, isBlank c = false ∧ c ≠ '*'

/-- Whether an argument has a name and a type. -/
structure Argument.IsComplete (arg : Argument) : Prop where
  isNamed : IsNamed arg.name
  type_ne_nil : arg.type ≠ []

/-- Whether all arguments of an interface have names and types, apart from receivers and from the
extended functions without a plain counterpart. -/
def Interface.IsComplete (i : Interface) : Prop :=
  (∀ p ∈ i.plain, ∀ arg ∈ p.args, arg.IsComplete) ∧
    ∀ x ∈ i.extended, (∃ p ∈ i.plain, p.name = x.name) → ∀ arg ∈ x.args.tail, arg.IsComplete

namespace Dialect

/-- Whether a segment is some text, a blank, pointer marks and a name, and then only spaces. -/
def EndsInName (s front stars : Text) : Prop :=
  ∃ blank name spaces, s = front ++ blank :: (stars ++ (name ++ spaces)) ∧ front ≠ [] ∧
    isBlank blank = true ∧ (∀ c ∈ stars, c = '*') ∧ IsNamed name ∧ ∀ c ∈ spaces, c = ' '

private theorem EndsInName.exists_divides {s front stars : Text} (h : EndsInName s front stars) :
    ∃ blank name rest, Divides s front blank stars name rest ∧ IsNamed name := by
  obtain ⟨blank, name, spaces, hs, hfront, hblank, hstars, hname, hspaces⟩ := h
  have hsolid : ∀ c ∈ stars ++ name, isBlank c = false := by
    intro c hc
    rcases List.mem_append.mp hc with hc | hc
    · rw [hstars c hc]
      decide
    · exact (hname.no_mark c hc).1
  refine ⟨blank, name, spaces, ⟨hs, hfront, hblank, ?_, hstars, hname.ne_nil, ?_, ?_, ?_⟩, hname⟩
  · intro before b c after he hb
    rw [← List.append_assoc] at he
    rcases append_eq_append_cons_iff.mp he with ⟨piece, _, hpiece⟩ | ⟨piece, hpiece, _⟩
    · exact hspaces c (by simp [hpiece])
    · have hsolid := hsolid b (by simp [hpiece])
      rw [hb] at hsolid
      cases hsolid
  · intro hmem
    exact absurd (hname.no_mark _ hmem).1 (by decide)
  · exact fun c hc => hspaces c (List.mem_of_mem_head? hc)
  · intro hhead
    exact absurd rfl (hname.no_mark _ (List.mem_of_mem_head? hhead)).2

/-- A plain segment is read with a name, and perhaps with a type, exactly when it ends in that name
and has more than blanks before it. -/
theorem segment?_plain_isNamed_iff {s : Text} {typed : Prop} (hs : ',' ∉ s) :
    (∀ arg, plain.segment? s = some arg → IsNamed arg.name ∧ (typed → arg.type ≠ [])) ↔
      (HasName s → ∃ front stars, EndsInName s front stars ∧
        (typed → ∃ c ∈ front ++ stars, isBlank c = false)) := by
  have htype : ∀ {front blank stars name rest}, Divides s front blank stars name rest →
      ((front ++ blank :: stars).trim ≠ [] ↔ ∃ c ∈ front ++ stars, isBlank c = false) := by
    intro front blank stars name rest h
    rw [Text.trim_ne_nil_iff]
    simp only [List.mem_append, List.mem_cons]
    refine exists_congr fun c => and_congr_left fun hc => ?_
    have hne : c ≠ blank := by
      rintro rfl
      rw [h.isBlank_blank] at hc
      exact absurd hc nofun
    simp [hne]
  constructor
  · intro hall hname
    obtain ⟨arg, harg⟩ := (exists_segment?_plain_iff hs).mpr hname
    obtain ⟨hnamed, htyped⟩ := hall arg harg
    obtain ⟨front, blank, stars, name, rest, h, rfl⟩ := (segment?_plain_eq_some_iff hs).mp harg
    rw [htype h] at htyped
    exact ⟨front, stars, ⟨blank, name, rest, h.eq_append, h.front_ne_nil, h.isBlank_blank,
      h.stars_eq, hnamed, h.rest_eq⟩, htyped⟩
  · intro hends arg harg
    obtain ⟨front, blank, stars, name, rest, h, rfl⟩ := (segment?_plain_eq_some_iff hs).mp harg
    obtain ⟨front', stars', hends, htyped⟩ := hends h.hasName
    obtain ⟨blank', name', rest', h', hnamed⟩ := hends.exists_divides
    obtain ⟨rfl, rfl, rfl, rfl⟩ := h.unique h'
    rw [htype h]
    exact ⟨hnamed, htyped⟩

/-- Whether a header has a declaration of a name with some text between the parentheses. -/
def HasDeclaration (d : Dialect) (header name text : Text) : Prop :=
  ∃ statement ∈ (d.outline header).statements, d.declaration? statement = some (name, text)

/-- The functions of a header are those of its declarations. -/
theorem mem_functions {d : Dialect} {header : Text} {f : Signature} :
    f ∈ d.functions header ↔
      ∃ text, d.HasDeclaration header f.name text ∧ f.args = d.arguments text := by
  have hok : ∀ x : Except Failure Signature, x.toOption = some f ↔ x = .ok f := by
    intro x
    cases x <;> simp [Except.toOption]
  simp only [functions, List.mem_filterMap, hok, signature_eq_ok_iff, HasDeclaration]
  constructor
  · rintro ⟨statement, hmem, text, hdecl, hargs⟩
    exact ⟨text, ⟨statement, hmem, hdecl⟩, hargs⟩
  · rintro ⟨text, ⟨statement, hmem, hdecl⟩, hargs⟩
    exact ⟨statement, hmem, text, hdecl, hargs⟩

/-- All functions of a header have a property exactly when all of its declarations give it. -/
theorem forall_mem_functions {d : Dialect} {header : Text} {p : Text → List Argument → Prop} :
    (∀ f ∈ d.functions header, p f.name f.args) ↔
      ∀ name text, d.HasDeclaration header name text → p name (d.arguments text) := by
  constructor
  · intro h name text hdecl
    exact h ⟨name, d.arguments text⟩ (mem_functions.mpr ⟨text, hdecl, rfl⟩)
  · intro h f hf
    obtain ⟨text, hdecl, hargs⟩ := mem_functions.mp hf
    exact hargs ▸ h f.name text hdecl

/-- A header has a function of a name exactly when it has a declaration of it. -/
theorem exists_mem_functions {d : Dialect} {header name : Text} :
    (∃ f ∈ d.functions header, f.name = name) ↔ ∃ text, d.HasDeclaration header name text := by
  constructor
  · rintro ⟨f, hf, rfl⟩
    obtain ⟨text, hdecl, _⟩ := mem_functions.mp hf
    exact ⟨text, hdecl⟩
  · rintro ⟨text, hdecl⟩
    exact ⟨⟨name, d.arguments text⟩, mem_functions.mpr ⟨text, hdecl, rfl⟩, rfl⟩

end Dialect

namespace Interface

open Signature

section Merged

variable {plain extended : List Signature}

private theorem forall_isComplete_iff {args : List Argument} :
    (∀ arg ∈ args, arg.IsComplete) ↔
      (∀ name ∈ args.map Argument.name, IsNamed name) ∧
        ∀ type ∈ args.map Argument.type, type ≠ [] := by
  rw [List.forall_mem_map, List.forall_mem_map]
  exact ⟨fun h => ⟨fun arg harg => (h arg harg).1, fun arg harg => (h arg harg).2⟩,
    fun h arg harg => ⟨h.1 arg harg, h.2 arg harg⟩⟩

private theorem merged_isComplete_iff (h : Agree plain extended) :
    ((∀ p ∈ plain, ∀ arg ∈ (retyped extended p).args, arg.IsComplete) ∧
      ∀ x ∈ extended, (∃ p ∈ plain, p.name = x.name) →
        ∀ arg ∈ (renamed plain x).args.tail, arg.IsComplete) ↔
      (∀ p ∈ plain, ∀ arg ∈ p.args, IsNamed arg.name ∧
        ((¬∃ x ∈ extended, x.name = p.name) → arg.type ≠ [])) ∧
      ∀ x ∈ extended, (∃ p ∈ plain, p.name = x.name) → ∀ arg ∈ x.args.tail, arg.type ≠ [] := by
  simp only [forall_isComplete_iff]
  constructor
  · rintro ⟨hplain, hextended⟩
    constructor
    · intro p hp arg harg
      obtain ⟨hnames, htypes⟩ := hplain p hp
      rw [(h.retyped hp).names_eq] at hnames
      refine ⟨hnames _ (List.mem_map_of_mem harg), fun halone => ?_⟩
      have halone' : ∀ x ∈ extended, x.name ≠ p.name := fun x hx he => halone ⟨x, hx, he⟩
      rw [(h.retyped hp).eq_of_alone halone'] at htypes
      exact htypes _ (List.mem_map_of_mem harg)
    · intro x hx hp arg harg
      have htypes := (hextended x hx hp).2
      rw [List.map_tail, (h.renamed hx).types_eq, ← List.map_tail] at htypes
      exact htypes _ (List.mem_map_of_mem harg)
  · rintro ⟨hplain, hextended⟩
    have hnames : ∀ p ∈ plain, ∀ name ∈ p.args.map Argument.name, IsNamed name := by
      intro p hp
      rw [List.forall_mem_map]
      exact fun arg harg => (hplain p hp arg harg).1
    have htypes : ∀ x ∈ extended, (∃ p ∈ plain, p.name = x.name) →
        ∀ type ∈ x.args.tail.map Argument.type, type ≠ [] := by
      intro x hx hp
      rw [List.forall_mem_map]
      exact hextended x hx hp
    constructor
    · intro p hp
      rw [(h.retyped hp).names_eq]
      refine ⟨hnames p hp, ?_⟩
      cases hlast : last? extended p.name with
      | none =>
        have halone := last?_eq_none_iff.mp hlast
        rw [(h.retyped hp).eq_of_alone halone, List.forall_mem_map]
        exact fun arg harg => (hplain p hp arg harg).2 fun ⟨x, hx, he⟩ => halone x hx he
      | some x =>
        obtain ⟨hx, hname⟩ := last?_eq_some hlast
        rw [(h.retyped hp).types_eq x hlast]
        exact htypes x hx ⟨p, hp, hname.symm⟩
    · rintro x hx ⟨p, hp, hname⟩
      obtain ⟨last, hlast⟩ := exists_last? hp
      rw [hname] at hlast
      rw [List.map_tail, List.map_tail, (h.renamed hx).names_eq last hlast,
        (h.renamed hx).types_eq, List.tail_cons, ← List.map_tail]
      exact ⟨hnames last (last?_eq_some hlast).1, htypes x hx ⟨p, hp, hname⟩⟩

end Merged

/-- An interface is complete exactly when in its headers every plain segment that has a name ends in
it, with a type before it unless an extended declaration gives one, and no segment but the first of
an extended declaration with a plain counterpart has only blanks. -/
theorem isComplete_iff {plain extended : Content} {i : Interface}
    (hi : (ofHeaders plain extended).result = .ok i) :
    ∃ header header' : Text, plain = .ok header.bytes ∧ extended = .ok header'.bytes ∧
      (i.IsComplete ↔
        (∀ name text, Dialect.plain.HasDeclaration header name text →
          ∀ s ∈ Text.segments ',' text, Dialect.HasName s →
            ∃ front stars, Dialect.EndsInName s front stars ∧
              ((¬∃ text', Dialect.extended.HasDeclaration header' name text') →
                ∃ c ∈ front ++ stars, isBlank c = false)) ∧
        ∀ name text, Dialect.extended.HasDeclaration header' name text →
          (∃ text', Dialect.plain.HasDeclaration header name text') →
            ∀ s ∈ ((Text.segments ',' text).filter (· ≠ [])).tail,
              ∃ c ∈ s, isBlank c = false) := by
  obtain ⟨header, header', rfl, rfl⟩ := exists_bytes_of_ofHeaders hi
  obtain ⟨hdeclared, rfl⟩ := ofHeaders_bytes_eq_ok_iff.mp hi
  refine ⟨header, header', rfl, rfl, ?_⟩
  have hplain := Layout.listing_map_perm (retyped_name (Dialect.extended.functions header'))
    hdeclared.hasSlots_plain
  have hextended := Layout.listing_map_perm (renamed_name (Dialect.plain.functions header))
    hdeclared.hasSlots_extended
  simp only [IsComplete, hplain.mem_iff, hextended.mem_iff, List.forall_mem_map]
  simp only [List.mem_map, exists_exists_and_eq_and, retyped_name, renamed_name]
  rw [merged_isComplete_iff hdeclared.agree]
  simp only [Dialect.exists_mem_functions]
  rw [Dialect.forall_mem_functions (p := fun name args => ∀ arg ∈ args, IsNamed arg.name ∧
      ((¬∃ text, Dialect.extended.HasDeclaration header' name text) → arg.type ≠ [])),
    Dialect.forall_mem_functions (p := fun name args =>
      (∃ text, Dialect.plain.HasDeclaration header name text) → ∀ arg ∈ args.tail, arg.type ≠ [])]
  refine and_congr ?_ ?_
  · refine forall₃_congr fun name text _ => ?_
    rw [Dialect.arguments_eq]
    simp only [List.mem_filterMap, forall_exists_index, and_imp]
    rw [forall_comm]
    refine forall_congr' fun s => ?_
    rw [forall_comm]
    exact forall_congr' fun hs =>
      Dialect.segment?_plain_isNamed_iff (Text.not_mem_of_mem_segments hs)
  · refine forall₄_congr fun name text _ _ => ?_
    rw [Dialect.arguments_extended, ← List.map_tail, List.forall_mem_map]
    simp only [Text.trim_ne_nil_iff]

/-- A plain header whose argument ends in its name. -/
def nameAtEnd : Text :=
  "_CK_DECLARE_FUNCTION (C_F, (T *a));
struct ck_function_list \x7b
 CK_C_F F;
\x7d;".toList

/-- A plain header that declares a function without arguments, with two blanks before the mark for
this. -/
def blanksBeforeVoid : Text :=
  "_CK_DECLARE_FUNCTION (C_F, (  void));
struct ck_function_list \x7b
 CK_C_F F;
\x7d;".toList

/-- A plain header whose argument has a tab behind its name. -/
def tabBehindName : Text :=
  "_CK_DECLARE_FUNCTION (C_F, (T *a\t));
struct ck_function_list \x7b
 CK_C_F F;
\x7d;".toList

/-- Where a segment ends in a name, the argument has it. -/
theorem isComplete_nameAtEnd :
    ∃ i, (ofHeaders (.ok nameAtEnd.bytes) (.ok (Text.bytes []))).result = .ok i ∧
      i.IsComplete := by
  have hdeclares : Dialect.plain.Declares (.ok nameAtEnd.bytes)
      [⟨['F'], [⟨['a'], "T *".toList⟩]⟩] (.ofList [['F']]) := by
    rw [Dialect.declares_bytes_iff]
    decide +kernel
  have hi := ofHeaders_plain hdeclares (by decide)
  obtain ⟨header, header', hheader, hheader', hiff⟩ := isComplete_iff hi
  obtain rfl := Text.bytes_inj.mp (Except.ok.inj hheader)
  obtain rfl := Text.bytes_inj.mp (Except.ok.inj hheader')
  have hstatements : (Dialect.plain.outline nameAtEnd).statements.map Dialect.plain.declaration? =
      [some (['F'], "T *a".toList)] := by
    decide +kernel
  refine ⟨_, hi, hiff.mpr ⟨?_, ?_⟩⟩
  · rintro name text ⟨statement, hmem, hdecl⟩ s hs _
    have hread := List.mem_map_of_mem (f := Dialect.plain.declaration?) hmem
    rw [hstatements, hdecl, List.mem_singleton] at hread
    obtain ⟨rfl, rfl⟩ := Prod.mk.inj (Option.some.inj hread)
    obtain rfl := List.mem_singleton.mp hs
    have hnamed : IsNamed ['a'] :=
      ⟨List.cons_ne_nil _ _, List.forall_mem_singleton.mpr ⟨by decide, by decide⟩⟩
    have hends : Dialect.EndsInName "T *a".toList ['T'] ['*'] :=
      ⟨' ', ['a'], [], rfl, List.cons_ne_nil _ _, by decide, List.forall_mem_singleton.mpr rfl,
        hnamed, List.forall_mem_nil _⟩
    exact ⟨['T'], ['*'], hends, fun _ => ⟨'T', List.mem_cons_self, by decide⟩⟩
  · rintro name text ⟨statement, hmem, _⟩
    exact absurd hmem List.not_mem_nil

/-- Two blanks before the mark for no arguments make an argument without a type, and a tab behind a
name becomes part of the name. -/
theorem not_isComplete_blanks :
    (∃ i, (ofHeaders (.ok blanksBeforeVoid.bytes) (.ok (Text.bytes []))).result = .ok i ∧
      i.plain = [⟨['F'], [⟨"void".toList, []⟩]⟩] ∧ ¬i.IsComplete) ∧
    ∃ i, (ofHeaders (.ok tabBehindName.bytes) (.ok (Text.bytes []))).result = .ok i ∧
      i.plain = [⟨['F'], [⟨['a', '\t'], "T *".toList⟩]⟩] ∧ ¬i.IsComplete := by
  have hvoid : Dialect.plain.Declares (.ok blanksBeforeVoid.bytes)
      [⟨['F'], [⟨"void".toList, []⟩]⟩] (.ofList [['F']]) := by
    rw [Dialect.declares_bytes_iff]
    decide +kernel
  have htab : Dialect.plain.Declares (.ok tabBehindName.bytes)
      [⟨['F'], [⟨['a', '\t'], "T *".toList⟩]⟩] (.ofList [['F']]) := by
    rw [Dialect.declares_bytes_iff]
    decide +kernel
  refine ⟨⟨_, ofHeaders_plain hvoid (by decide), rfl, fun h => ?_⟩,
    ⟨_, ofHeaders_plain htab (by decide), rfl, fun h => ?_⟩⟩
  · exact (h.1 _ (List.mem_singleton.mpr rfl) _ (List.mem_singleton.mpr rfl)).type_ne_nil rfl
  · have hnamed := (h.1 _ (List.mem_singleton.mpr rfl) _ (List.mem_singleton.mpr rfl)).isNamed
    exact absurd (hnamed.no_mark '\t' (by decide)).1 (by decide)

end Interface

end DispatchTable
