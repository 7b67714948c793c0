import DispatchTable.Proofs.Interface
import DispatchTable.Proofs.ReadOutline

/-!
# Printing and reading headers

Reading undoes printing. Whatever the writer of two headers has chosen, they are read as the
signatures that they were printed from, merged and in the order of the printed slots.
-/

namespace DispatchTable

/-- A printed header declares what it was printed from. -/
theorem PrintedHeader.declares {d : Dialect} {fs : List Signature} {slots : List Text} {text : Text}
    (h : PrintedHeader d fs slots text) : d.Declares (.ok text.bytes) fs (.ofList slots) := by
  obtain ⟨entries, hread, hfs, hslots⟩ := Dialect.exists_entries_of_printed h
  have houtline : d.outline text = .ofEntries entries := by rw [Dialect.outline, hread]
  rw [Dialect.declares_bytes_iff, houtline, mapM_eq_ok_iff, Outline.ofEntries, hslots]
  exact ⟨hfs, rfl⟩

/-- A printed extended declaration has a receiver. -/
theorem PrintedHeader.args_ne_nil {fs : List Signature} {slots : List Text} {text : Text}
    (h : PrintedHeader .extended fs slots text) : ∀ f ∈ fs, f.args ≠ [] := by
  induction h with
  | nil => simp
  | noise _ _ ih => exact ih
  | block _ _ ih => exact ih
  | declaration _ hargs _ _ ih =>
    refine List.forall_mem_cons.mpr ⟨?_, ih⟩
    cases hargs with
    | items hne h => exact fun hnil => hne (List.forall₂_nil_left_iff.mp (hnil ▸ h))

/-- Signatures with different names are listed by looking up the slots one after the other. -/
theorem Layout.listing_of_nodup {fs : List Signature} (h : (fs.map Signature.name).Nodup)
    (layout : Layout) :
    layout.listing fs = layout.names.filterMap fun name => fs.find? fun f => f.name = name := by
  rw [listing, List.filterMap_eq_flatMap_toList]
  exact List.flatMap_congr fun name _ => filter_name_eq h name

/-- Signatures that are revised without a change of their names are listed by looking up the
signatures before. -/
theorem Layout.listing_map_of_nodup {fs : List Signature} (h : (fs.map Signature.name).Nodup)
    {revised : Signature → Signature} (hname : ∀ f, (revised f).name = f.name) (slots : List Text) :
    (ofList slots).listing (fs.map revised) = slots.eraseDups.filterMap fun name =>
      (fs.find? fun f => f.name = name).map revised := by
  have hnames : (fs.map revised).map Signature.name = fs.map Signature.name := by
    rw [List.map_map]
    exact List.map_congr_left fun f _ => hname f
  rw [listing_of_nodup (hnames ▸ h), names_ofList]
  simp only [List.find?_map, Function.comp_def, hname]

namespace Interface

open Signature

/-- Printed headers are read back. If the names on each side are different and have slots, and an
extended signature has one argument more than the plain one of its name, the headers are read as the
printed signatures: slot by slot, the plain ones with the types and the extended ones with the names
of the other side. -/
theorem ofHeaders_printed {plain extended : List Signature} {slots slots' : List Text}
    {text text' : Text} (hplain : PrintedHeader .plain plain slots text)
    (hextended : PrintedHeader .extended extended slots' text')
    (hnodup : (plain.map Signature.name).Nodup) (hnodup' : (extended.map Signature.name).Nodup)
    (hslots : ∀ p ∈ plain, p.name ∈ slots) (hslots' : ∀ x ∈ extended, x.name ∈ slots')
    (hagree : ∀ p ∈ plain, ∀ x ∈ extended, x.name = p.name →
      x.args.length = p.args.length + 1) :
    (ofHeaders (.ok text.bytes) (.ok text'.bytes)).result = .ok
      ⟨slots.eraseDups.filterMap fun name =>
          (plain.find? fun p => p.name = name).map (retyped extended),
        slots'.eraseDups.filterMap fun name =>
          (extended.find? fun x => x.name = name).map (renamed plain)⟩ := by
  have hreceiver : ∀ x ∈ extended, x.args ≠ [] := hextended.args_ne_nil
  have hmem : ∀ {slots : List Text} {name : Text}, name ∈ slots →
      name ∈ (Layout.ofList slots).names := by
    intro slots name h
    exact Layout.mem_insertAll.mpr (.inl h)
  rw [ofHeaders_eq_ok_iff]
  refine ⟨_, _, _, _, hplain.declares, hextended.declares, ⟨hreceiver, hagree⟩,
    fun p hp => hmem (hslots p hp), fun x hx => hmem (hslots' x hx), ?_⟩
  rw [Layout.listing_map_of_nodup hnodup (retyped_name extended),
    Layout.listing_map_of_nodup hnodup' (renamed_name plain)]

/-- A plain header with a line of another kind and a wrapped declaration. -/
def wrappedPlain : Text :=
  "/* F */
_CK_DECLARE_FUNCTION (C_F,
\t(K *a, T b));
struct ck_function_list \x7b
  CK_C_F F;
\x7d;
".toList

/-- An extended header with its layout before the declaration. -/
def wrappedExtended : Text :=
  "struct _CK_X_FUNCTION_LIST \x7b
  CK_X_F F;
\x7d;
typedef CK_RV (* CK_X_F) (S *, V *,
 T);
".toList

private theorem printed_wrappedPlain : PrintedHeader .plain
    [⟨['F'], [⟨['a'], ['K', ' ', '*']⟩, ⟨['b'], ['T']⟩]⟩] [['F']] wrappedPlain := by
  have hname : IsName ['F'] := ⟨by decide, List.forall_mem_singleton.mpr (by decide)⟩
  have hnoise : Dialect.plain.IsNoise "/* F */".toList := ⟨by decide, by decide, by decide⟩
  have hpointer : IsType (['K'] ++ ' ' :: ['*']) := ⟨by decide, by decide, by simp⟩
  have htype : IsType ['T'] := ⟨by decide, by decide, by simp⟩
  have ha : IsArgumentName ['a'] :=
    ⟨by decide, List.forall_mem_singleton.mpr (by decide), by decide⟩
  have hb : IsArgumentName ['b'] :=
    ⟨by decide, List.forall_mem_singleton.mpr (by decide), by decide⟩
  have hargs : PrintedArguments .plain [⟨['a'], ['K', ' ', '*']⟩, ⟨['b'], ['T']⟩] _ :=
    .items (List.cons_ne_nil _ _) (.cons (.joined hpointer rfl (by decide) (by simp) ha)
      (.cons (.spaced htype hb) .nil))
  have hbreak : Wrapped (',' :: ' ' :: "(K *a, T b));".toList) _ :=
    .wrap (List.forall_mem_nil _)
      (List.forall_mem_singleton.mpr (by decide : isBlank '\t' = true ∧ '\t' ≠ '\n')) (.refl _)
  have hdeclare : Dialect.plain.declare ['F'] (List.intercalate ", ".toList
      [['K'] ++ ' ' :: ['*'] ++ ['a'], ['T'] ++ ' ' :: ['b']]) =
      "_CK_DECLARE_FUNCTION (C_F".toList ++ ',' :: ' ' :: "(K *a, T b));".toList := by
    decide +kernel
  have hmembers : PrintedMembers .plain [['F']] _ :=
    .member hname (by decide : '\n' ∉ "F;".toList) (by decide) .nil
  have hwrapped := hbreak.append_left "_CK_DECLARE_FUNCTION (C_F".toList
  rw [← hdeclare] at hwrapped
  have h := PrintedHeader.noise hnoise (@PrintedHeader.declaration _ ⟨['F'], _⟩ _ _ _ _ _ hname
    hargs hwrapped (.block hmembers .nil))
  exact Eq.mp (congrArg (PrintedHeader _ _ _) (by decide +kernel)) h

private theorem printed_wrappedExtended : PrintedHeader .extended
    [⟨['F'], [⟨[], ['S', ' ', '*']⟩, ⟨[], ['V', ' ', '*']⟩, ⟨[], ['T']⟩]⟩] [['F']]
    wrappedExtended := by
  have hname : IsName ['F'] := ⟨by decide, List.forall_mem_singleton.mpr (by decide)⟩
  have hself : IsType ['S', ' ', '*'] := ⟨by decide, by decide, by simp⟩
  have hpointer : IsType ['V', ' ', '*'] := ⟨by decide, by decide, by simp⟩
  have htype : IsType ['T'] := ⟨by decide, by decide, by simp⟩
  have hargs : PrintedArguments .extended
      [⟨[], ['S', ' ', '*']⟩, ⟨[], ['V', ' ', '*']⟩, ⟨[], ['T']⟩] _ :=
    .items (List.cons_ne_nil _ _) (.cons (.type hself) (.cons (.type hpointer)
      (.cons (.type htype) .nil)))
  have hbreak : Wrapped (',' :: ' ' :: "T);".toList) _ :=
    .wrap (List.forall_mem_nil _)
      (List.forall_mem_singleton.mpr (by decide : isBlank ' ' = true ∧ ' ' ≠ '\n')) (.refl _)
  have hdeclare : Dialect.extended.declare ['F'] (List.intercalate ", ".toList
      [['S', ' ', '*'], ['V', ' ', '*'], ['T']]) =
      "typedef CK_RV (* CK_X_F) (S *, V *".toList ++ ',' :: ' ' :: "T);".toList := by
    decide +kernel
  have hmembers : PrintedMembers .extended [['F']] _ :=
    .member hname (by decide : '\n' ∉ "F;".toList) (by decide) .nil
  have hwrapped := hbreak.append_left "typedef CK_RV (* CK_X_F) (S *, V *".toList
  rw [← hdeclare] at hwrapped
  have h := PrintedHeader.block hmembers (@PrintedHeader.declaration _ ⟨['F'], _⟩ _ _ _ _ _ hname
    hargs hwrapped .nil)
  exact Eq.mp (congrArg (PrintedHeader _ _ _) (by decide +kernel)) h

/-- Both headers are read back, the wrapped lines joined and both sides merged. -/
theorem ofHeaders_wrapped :
    (ofHeaders (.ok wrappedPlain.bytes) (.ok wrappedExtended.bytes)).result = .ok
      ⟨[⟨['F'], [⟨['a'], ['V', ' ', '*']⟩, ⟨['b'], ['T']⟩]⟩],
        [⟨['F'], [⟨"self".toList, ['S', ' ', '*']⟩, ⟨['a'], ['V', ' ', '*']⟩, ⟨['b'], ['T']⟩]⟩]⟩ :=
  (ofHeaders_printed printed_wrappedPlain printed_wrappedExtended (by decide) (by decide)
    (by decide) (by decide) (by decide)).trans (by decide +kernel)

end Interface

end DispatchTable
