import DispatchTable.Proofs.Declaration
import DispatchTable.Proofs.Interface
import DispatchTable.Proofs.Mismatch

/-!
# The outcome of reading both headers

Two headers make an interface exactly when both are UTF-8, all of their statements are declarations,
the declarations of each name agree and every declared name has a slot. These conditions are checked
in this order, the plain header before the extended one, and the failure is that of the first check
that is not met. An interface has one function for each statement.
-/

namespace DispatchTable

namespace Dialect

open Pattern

variable {d : Dialect} {statement header : Text}

/-- Whether a statement has the form of a declaration: the pieces of the pattern stand at its
front. -/
def IsDeclaration (d : Dialect) (statement : Text) : Prop :=
  ∃ m rest, Fits d.declarationPattern m ∧ statement = m.flatten ++ rest

private theorem isSome_declaration?_iff :
    (d.declaration? statement).isSome = true ↔ d.IsDeclaration statement := by
  constructor
  · intro h
    cases hm : d.declarationPattern.match? statement with
    | none => cases d <;> simp [declaration?, hm] at h
    | some m =>
      rw [match?_eq] at hm
      obtain ⟨hfits, rest, hrest⟩ := fits_of_backtrack? hm
      exact ⟨m, rest, hfits, hrest⟩
  · rintro ⟨m, rest, hfits, rfl⟩
    obtain ⟨m', hm'⟩ := hfits.exists_backtrack? rest
    obtain ⟨hfits', _⟩ := fits_of_backtrack? hm'
    rw [← match?_eq] at hm'
    cases d with
    | plain =>
      obtain ⟨_, _, _, rfl, _⟩ := exists_of_fits_plain hfits'
      simp [declaration?, hm']
    | extended =>
      obtain ⟨_, _, _, rfl, _⟩ := exists_of_fits_extended hfits'
      simp [declaration?, hm']

/-- Exactly the declarations are read as signatures. -/
theorem exists_signature_iff :
    (∃ f, d.signature statement = .ok f) ↔ d.IsDeclaration statement := by
  rw [← isSome_declaration?_iff, signature]
  cases d.declaration? statement <;> simp

/-- Any other statement is reported as it is. -/
theorem signature_eq_error_iff {e : Failure} : d.signature statement = .error e ↔
    ¬d.IsDeclaration statement ∧ e = .malformedDeclaration d statement := by
  rw [← isSome_declaration?_iff, signature]
  cases d.declaration? statement <;> simp [eq_comm]

/-- Whether all statements of a header are declarations. -/
def WellFormed (d : Dialect) (header : Text) : Prop :=
  ∀ statement ∈ (d.outline header).statements, d.IsDeclaration statement

/-- The functions that a header declares, in the order of its statements. -/
def functions (d : Dialect) (header : Text) : List Signature :=
  (d.outline header).statements.filterMap fun statement => (d.signature statement).toOption

/-- Whether every function that a header declares has a slot in its layout. -/
def HasSlots (d : Dialect) (header : Text) : Prop :=
  ∀ f ∈ d.functions header, f.name ∈ (d.outline header).layout.names

/-- All statements are read exactly when all are declarations, and then as the functions of the
header. -/
theorem mapM_signature_eq_ok_iff {fs : List Signature} :
    (d.outline header).statements.mapM d.signature = .ok fs ↔
      d.WellFormed header ∧ fs = d.functions header := by
  rw [mapM_eq_ok_iff, WellFormed, functions]
  generalize (d.outline header).statements = statements
  induction statements generalizing fs with
  | nil => simp
  | cons s statements ih =>
    rw [List.forall₂_cons_left_iff, List.forall_mem_cons, ← exists_signature_iff]
    constructor
    · rintro ⟨f, fs, hf, hfs, rfl⟩
      obtain ⟨hdeclared, rfl⟩ := ih.mp hfs
      refine ⟨⟨⟨f, hf⟩, hdeclared⟩, ?_⟩
      rw [List.filterMap_cons, hf]
      rfl
    · rintro ⟨⟨⟨f, hf⟩, hdeclared⟩, rfl⟩
      refine ⟨f, _, hf, ih.mpr ⟨hdeclared, rfl⟩, ?_⟩
      rw [List.filterMap_cons, hf]
      rfl

/-- The first statement that is no declaration is reported. -/
theorem mapM_signature_eq_error_iff {e : Failure} :
    (d.outline header).statements.mapM d.signature = .error e ↔
      ∃ statement, IsFirst (¬d.IsDeclaration ·) (d.outline header).statements statement ∧
        e = .malformedDeclaration d statement := by
  have hnot : ∀ statement, (∀ f, d.signature statement ≠ .ok f) ↔ ¬d.IsDeclaration statement := by
    intro statement
    rw [← exists_signature_iff, not_exists]
  simp only [mapM_eq_error_iff, hnot, signature_eq_error_iff]
  exact exists_congr fun s => and_congr_right fun hs => and_iff_right hs.mem.2

end Dialect

/-- The first signature without a slot is reported. -/
theorem Layout.arrange_eq_error_iff {layout : Layout} {table : Text} {fs : List Signature}
    {e : Failure} : layout.arrange table fs = .error e ↔
      ∃ f, IsFirst (fun f => f.name ∉ layout.names) fs f ∧ e = .missingSlot f.name table := by
  rw [arrange]
  simp only [← find?_eq_some_iff_isFirst]
  rw [← missing?]
  cases layout.missing? fs with
  | none => simp
  | some f => simp [eq_comm]

/-- A revision that keeps the names changes nothing about which signature is reported. -/
theorem Layout.arrange_map_eq_error_iff {layout : Layout} {table : Text} {fs : List Signature}
    {revise : Signature → Signature} (hname : ∀ f, (revise f).name = f.name) {e : Failure} :
    layout.arrange table (fs.map revise) = .error e ↔
      ∃ f, IsFirst (fun f => f.name ∉ layout.names) fs f ∧ e = .missingSlot f.name table := by
  simp only [arrange_eq_error_iff, isFirst_map, hname]
  constructor
  · rintro ⟨_, ⟨f, hf, rfl⟩, rfl⟩
    exact ⟨f, hf, by rw [hname]⟩
  · rintro ⟨f, hf, rfl⟩
    exact ⟨_, ⟨f, hf, rfl⟩, by rw [hname]⟩

namespace Interface

open Signature

/-- Why two lists of signatures make no interface. -/
theorem ofSignatures_eq_error_iff {plain extended : List Signature}
    {plainLayout extendedLayout : Layout} {e : Failure} :
    (ofSignatures plain extended plainLayout extendedLayout).result = .error e ↔
      FirstMismatch plain extended e ∨
      Agree plain extended ∧ (∃ p, IsFirst (fun p => p.name ∉ plainLayout.names) plain p ∧
          e = .missingSlot p.name Dialect.plain.table) ∨
      Agree plain extended ∧ (∀ p ∈ plain, p.name ∈ plainLayout.names) ∧
        ∃ x, IsFirst (fun x => x.name ∉ extendedLayout.names) extended x ∧
          e = .missingSlot x.name Dialect.extended.table := by
  rw [← merge_failure?_eq_some_iff, ← merge_failure?_eq_none_iff]
  cases h : (merge plain extended).failure? with
  | some e' => simp [ofSignatures, h]
  | none =>
    have hagree := merge_failure?_eq_none_iff.mp h
    simp only [ofSignatures, h, merge_plain hagree, merge_extended hagree, bind_eq_error_iff,
      Layout.arrange_map_eq_error_iff (retyped_name extended),
      Layout.arrange_map_eq_error_iff (renamed_name plain), Layout.arrange_eq_ok_iff,
      List.forall_mem_map, retyped_name]
    simp [pure, Except.pure]

/-- Whether two headers declare the functions of a table, as far as their texts go. -/
structure Declared (plain extended : Text) : Prop where
  wellFormed_plain : Dialect.plain.WellFormed plain
  wellFormed_extended : Dialect.extended.WellFormed extended
  agree : Agree (Dialect.plain.functions plain) (Dialect.extended.functions extended)
  hasSlots_plain : Dialect.plain.HasSlots plain
  hasSlots_extended : Dialect.extended.HasSlots extended

/-- The first of these conditions that two headers do not meet, and how it is reported. -/
inductive FirstFault (plain extended : Text) : Failure → Prop where
  | malformedPlain {statement : Text}
    (h : IsFirst (¬Dialect.plain.IsDeclaration ·) (Dialect.plain.outline plain).statements
      statement) :
    FirstFault plain extended (.malformedDeclaration .plain statement)
  | malformedExtended {statement : Text} (hplain : Dialect.plain.WellFormed plain)
    (h : IsFirst (¬Dialect.extended.IsDeclaration ·)
      (Dialect.extended.outline extended).statements statement) :
    FirstFault plain extended (.malformedDeclaration .extended statement)
  | mismatch {e : Failure} (hplain : Dialect.plain.WellFormed plain)
    (hextended : Dialect.extended.WellFormed extended)
    (h : FirstMismatch (Dialect.plain.functions plain) (Dialect.extended.functions extended) e) :
    FirstFault plain extended e
  | missingPlain {f : Signature} (hplain : Dialect.plain.WellFormed plain)
    (hextended : Dialect.extended.WellFormed extended)
    (hagree : Agree (Dialect.plain.functions plain) (Dialect.extended.functions extended))
    (h : IsFirst (fun f => f.name ∉ (Dialect.plain.outline plain).layout.names)
      (Dialect.plain.functions plain) f) :
    FirstFault plain extended (.missingSlot f.name "ck_function_list".toList)
  | missingExtended {f : Signature} (hplain : Dialect.plain.WellFormed plain)
    (hextended : Dialect.extended.WellFormed extended)
    (hagree : Agree (Dialect.plain.functions plain) (Dialect.extended.functions extended))
    (hslots : Dialect.plain.HasSlots plain)
    (h : IsFirst (fun f => f.name ∉ (Dialect.extended.outline extended).layout.names)
      (Dialect.extended.functions extended) f) :
    FirstFault plain extended (.missingSlot f.name "_CK_X_FUNCTION_LIST".toList)

section Texts

variable {plain extended : Text}

/-- The interface of two headers that are UTF-8 is that of the functions that they declare. -/
theorem ofHeaders_bytes_eq_ok_iff {i : Interface} :
    (ofHeaders (.ok plain.bytes) (.ok extended.bytes)).result = .ok i ↔
      Declared plain extended ∧
        i = ⟨(Dialect.plain.outline plain).layout.listing
            ((Dialect.plain.functions plain).map
              (retyped (Dialect.extended.functions extended))),
          (Dialect.extended.outline extended).layout.listing
            ((Dialect.extended.functions extended).map
              (renamed (Dialect.plain.functions plain)))⟩ := by
  simp only [ofHeaders_eq_ok_iff, Dialect.declares_bytes_iff, Dialect.mapM_signature_eq_ok_iff]
  constructor
  · rintro ⟨_, _, _, _, ⟨⟨hplain, rfl⟩, rfl⟩, ⟨⟨hextended, rfl⟩, rfl⟩, hagree, hslots, hslots', rfl⟩
    exact ⟨⟨hplain, hextended, hagree, hslots, hslots'⟩, rfl⟩
  · rintro ⟨⟨hplain, hextended, hagree, hslots, hslots'⟩, rfl⟩
    exact ⟨_, _, _, _, ⟨⟨hplain, rfl⟩, rfl⟩, ⟨⟨hextended, rfl⟩, rfl⟩, hagree, hslots, hslots', rfl⟩

/-- Two headers that are UTF-8 fail with the first fault of their texts. -/
theorem ofHeaders_bytes_eq_error_iff {e : Failure} :
    (ofHeaders (.ok plain.bytes) (.ok extended.bytes)).result = .error e ↔
      FirstFault plain extended e := by
  simp only [ofHeaders, Traced.result_bind, bind_eq_error_iff, Outline.ofContent_bytes,
    Traced.ofExcept, Traced.tell, Except.ok.injEq, exists_eq_left', reduceCtorEq, false_or,
    Dialect.mapM_signature_eq_ok_iff, Dialect.mapM_signature_eq_error_iff,
    ofSignatures_eq_error_iff]
  constructor
  · rintro (⟨statement, h, rfl⟩ | ⟨_, ⟨hplain, rfl⟩, ⟨statement, h, rfl⟩ |
      ⟨_, ⟨hextended, rfl⟩, _, _, h | ⟨hagree, p, hp, rfl⟩ | ⟨hagree, hslots, x, hx, rfl⟩⟩⟩)
    · exact .malformedPlain h
    · exact .malformedExtended hplain h
    · exact .mismatch hplain hextended h
    · exact .missingPlain hplain hextended hagree hp
    · exact .missingExtended hplain hextended hagree hslots hx
  · rintro (h | ⟨hplain, h⟩ | ⟨hplain, hextended, h⟩ | ⟨hplain, hextended, hagree, h⟩ |
      ⟨hplain, hextended, hagree, hslots, h⟩)
    · exact .inl ⟨_, h, rfl⟩
    · exact .inr ⟨_, ⟨hplain, rfl⟩, .inl ⟨_, h, rfl⟩⟩
    · exact .inr ⟨_, ⟨hplain, rfl⟩, .inr ⟨_, ⟨hextended, rfl⟩, (), trivial, .inl h⟩⟩
    · exact .inr ⟨_, ⟨hplain, rfl⟩, .inr ⟨_, ⟨hextended, rfl⟩, (), trivial,
        .inr (.inl ⟨hagree, _, h, rfl⟩)⟩⟩
    · exact .inr ⟨_, ⟨hplain, rfl⟩, .inr ⟨_, ⟨hextended, rfl⟩, (), trivial,
        .inr (.inr ⟨hagree, hslots, _, h, rfl⟩)⟩⟩

end Texts

private theorem ofHeaders_of_not_isValidUTF8 {plain extended : ByteArray}
    (h : ¬plain.IsValidUTF8 ∨ ¬extended.IsValidUTF8) :
    (ofHeaders (.ok plain) (.ok extended)).result = .error (.unreadableHeader .notUtf8) := by
  simp only [ofHeaders, Traced.result_bind, bind_eq_error_iff]
  by_cases hplain : plain.IsValidUTF8
  · obtain ⟨header, rfl⟩ := isValidUTF8_iff.mp hplain
    have hextended := h.resolve_left (not_not_intro hplain)
    exact .inr ⟨_, Outline.ofContent_bytes _ header,
      .inl (Outline.ofContent_of_not_isValidUTF8 _ hextended)⟩
  · exact .inl (Outline.ofContent_of_not_isValidUTF8 _ hplain)

/-- Two headers make an interface exactly when both are UTF-8 and declare the functions of a table.
Otherwise the failure is that of a header that is no UTF-8, or else the first fault of the texts. An
interface has exactly one function for each statement. -/
theorem ofHeaders_outcome (plain extended : ByteArray) :
    ((∃ i, (ofHeaders (.ok plain) (.ok extended)).result = .ok i) ↔
      ∃ header header' : Text, plain = header.bytes ∧ extended = header'.bytes ∧
        Declared header header') ∧
    (∀ e, (ofHeaders (.ok plain) (.ok extended)).result = .error e ↔
      (¬plain.IsValidUTF8 ∨ ¬extended.IsValidUTF8) ∧ e = .unreadableHeader .notUtf8 ∨
      ∃ header header' : Text, plain = header.bytes ∧ extended = header'.bytes ∧
        FirstFault header header' e) ∧
    ∀ i, (ofHeaders (.ok plain) (.ok extended)).result = .ok i →
      ∃ header header' : Text, plain = header.bytes ∧ extended = header'.bytes ∧
        ∃ functions functions',
          List.Forall₂ (fun statement f => Dialect.plain.signature statement = .ok f)
            (Dialect.plain.outline header).statements functions ∧
          List.Forall₂ (fun statement f => Dialect.extended.signature statement = .ok f)
            (Dialect.extended.outline header').statements functions' ∧
          i.plain.Perm (functions.map (retyped functions')) ∧
          i.extended.Perm (functions'.map (renamed functions)) := by
  by_cases hvalid : plain.IsValidUTF8 ∧ extended.IsValidUTF8
  · obtain ⟨header, rfl⟩ := isValidUTF8_iff.mp hvalid.1
    obtain ⟨header', rfl⟩ := isValidUTF8_iff.mp hvalid.2
    have hnot : ¬(¬header.bytes.IsValidUTF8 ∨ ¬header'.bytes.IsValidUTF8) := by
      rwa [← not_and_or, not_not]
    simp only [hnot, false_and, false_or, ofHeaders_bytes_eq_ok_iff, ofHeaders_bytes_eq_error_iff,
      Text.bytes_inj, exists_and_left, exists_eq_left', exists_eq, and_true, true_and, implies_true]
    rintro _ ⟨hdeclared, rfl⟩
    have hfunctions := fun (d : Dialect) (header : Text) (h : d.WellFormed header) =>
      mapM_eq_ok_iff.mp (Dialect.mapM_signature_eq_ok_iff.mpr ⟨h, rfl⟩)
    refine ⟨_, hfunctions _ _ hdeclared.wellFormed_plain, _,
      hfunctions _ _ hdeclared.wellFormed_extended, ?_, ?_⟩
    · exact Layout.listing_map_perm (retyped_name _) hdeclared.hasSlots_plain
    · exact Layout.listing_map_perm (renamed_name _) hdeclared.hasSlots_extended
  · have hfail := ofHeaders_of_not_isValidUTF8 (not_and_or.mp hvalid)
    have hnone : ∀ P : Text → Text → Prop, ¬∃ header header' : Text, plain = header.bytes ∧
        extended = header'.bytes ∧ P header header' := by
      rintro P ⟨header, header', hplain, hextended, _⟩
      exact hvalid ⟨isValidUTF8_iff.mpr ⟨header, hplain⟩, isValidUTF8_iff.mpr ⟨header', hextended⟩⟩
    simp only [hfail, hnone, not_and_or.mp hvalid, true_and, or_false, reduceCtorEq, exists_false,
      false_implies, implies_true, and_true, Except.error.injEq, eq_comm]

end Interface

end DispatchTable
