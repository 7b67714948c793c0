import DispatchTable.Proofs.Bytes
import DispatchTable.Proofs.Merge
import DispatchTable.Proofs.Slots

/-!
# Reading both headers

A header declares signatures and lays out slots. The interface of two headers exists exactly when
both headers declare something, their declarations agree, and every declared name has a slot; then
it is the listing of the merged signatures.
-/

namespace DispatchTable

/-- A content can be read as a header whose statements declare `functions` and whose blocks lay out
`layout`. -/
def Dialect.Declares (d : Dialect) (content : Content) (functions : List Signature)
    (layout : Layout) : Prop :=
  ∃ outline, (Outline.ofContent d content).result = .ok outline ∧
    outline.statements.mapM d.signature = .ok functions ∧ outline.layout = layout

/-- A header that is UTF-8 has the outline of its text. -/
theorem Outline.ofContent_bytes (d : Dialect) (header : Text) :
    (ofContent d (.ok header.bytes)).result = .ok (d.outline header) := by
  simp only [ofContent, Content.lines_bytes]
  rfl

/-- A header that is no UTF-8 has no outline. -/
theorem Outline.ofContent_of_not_isValidUTF8 (d : Dialect) {bytes : ByteArray}
    (h : ¬bytes.IsValidUTF8) :
    (ofContent d (.ok bytes)).result = .error (.unreadableHeader .notUtf8) := by
  simp only [ofContent, Content.lines_eq, Content.text_eq_error_iff.mpr ⟨h, rfl⟩]
  rfl

/-- What the text of a header declares is read off its outline. -/
theorem Dialect.declares_bytes_iff {d : Dialect} {header : Text} {functions : List Signature}
    {layout : Layout} :
    d.Declares (.ok header.bytes) functions layout ↔
      (d.outline header).statements.mapM d.signature = .ok functions ∧
        (d.outline header).layout = layout := by
  rw [Dialect.Declares]
  simp only [Outline.ofContent_bytes, Except.ok.injEq, exists_eq_left']

/-- What can be read as a header is the bytes of a text. -/
theorem Dialect.Declares.exists_bytes {d : Dialect} {content : Content}
    {functions : List Signature} {layout : Layout} (h : d.Declares content functions layout) :
    ∃ header : Text, content = .ok header.bytes := by
  obtain ⟨outline, houtline, _⟩ := h
  cases content with
  | error cause => exact absurd houtline nofun
  | ok bytes =>
    by_contra hnot
    have hinvalid : ¬bytes.IsValidUTF8 := by
      intro hvalid
      obtain ⟨header, rfl⟩ := isValidUTF8_iff.mp hvalid
      exact hnot ⟨header, rfl⟩
    rw [Outline.ofContent_of_not_isValidUTF8 d hinvalid] at houtline
    exact absurd houtline nofun

/-- What a header declares stands in a statement. -/
theorem Dialect.Declares.exists_signature {d : Dialect} {content : Content}
    {functions : List Signature} {layout : Layout} (h : d.Declares content functions layout)
    {f : Signature} (hf : f ∈ functions) : ∃ statement, d.signature statement = .ok f := by
  obtain ⟨outline, _, hread, _⟩ := h
  rw [mapM_eq_ok_iff] at hread
  obtain ⟨k, hk, rfl⟩ := List.getElem_of_mem hf
  exact ⟨_, hread.get (by rw [hread.length_eq]; exact hk) hk⟩

/-- A header declares one list of signatures and one layout. -/
theorem Dialect.Declares.unique {d : Dialect} {content : Content}
    {functions functions' : List Signature} {layout layout' : Layout}
    (h : d.Declares content functions layout) (h' : d.Declares content functions' layout') :
    functions = functions' ∧ layout = layout' := by
  obtain ⟨o, ho, hf, rfl⟩ := h
  obtain ⟨o', ho', hf', rfl⟩ := h'
  obtain rfl : o = o' := Except.ok.inj (ho.symm.trans ho')
  exact ⟨Except.ok.inj (hf.symm.trans hf'), rfl⟩

namespace Interface

/-- When a merged interface exists, and what it is. -/
theorem ofSignatures_eq_ok_iff {plain extended : List Signature}
    {plainLayout extendedLayout : Layout} {i : Interface} :
    (ofSignatures plain extended plainLayout extendedLayout).result = .ok i ↔
      Signature.Agree plain extended ∧ (∀ p ∈ plain, p.name ∈ plainLayout.names) ∧
        (∀ x ∈ extended, x.name ∈ extendedLayout.names) ∧
        i = ⟨plainLayout.listing (plain.map (Signature.retyped extended)),
          extendedLayout.listing (extended.map (Signature.renamed plain))⟩ := by
  rw [← merge_failure?_eq_none_iff]
  cases h : (merge plain extended).failure? with
  | some e => simp [ofSignatures, h]
  | none =>
    have hagree := merge_failure?_eq_none_iff.mp h
    simp only [ofSignatures, h, merge_plain hagree, merge_extended hagree, true_and,
      bind_eq_ok_iff, Layout.arrange_eq_ok_iff, List.forall_mem_map, Signature.retyped_name,
      Signature.renamed_name]
    constructor
    · rintro ⟨_, ⟨hp, rfl⟩, _, ⟨hx, rfl⟩, he⟩
      exact ⟨hp, hx, (Except.ok.inj he).symm⟩
    · rintro ⟨hp, hx, rfl⟩
      exact ⟨_, ⟨hp, rfl⟩, _, ⟨hx, rfl⟩, rfl⟩

/-- When the interface of two headers exists, and what it is. -/
theorem ofHeaders_eq_ok_iff {plain extended : Content} {i : Interface} :
    (ofHeaders plain extended).result = .ok i ↔
      ∃ functions layout functions' layout', Dialect.plain.Declares plain functions layout ∧
        Dialect.extended.Declares extended functions' layout' ∧
        Signature.Agree functions functions' ∧ (∀ p ∈ functions, p.name ∈ layout.names) ∧
        (∀ x ∈ functions', x.name ∈ layout'.names) ∧
        i = ⟨layout.listing (functions.map (Signature.retyped functions')),
          layout'.listing (functions'.map (Signature.renamed functions))⟩ := by
  simp only [ofHeaders, Traced.result_bind, bind_eq_ok_iff, Traced.ofExcept, Traced.tell,
    ofSignatures_eq_ok_iff]
  constructor
  · rintro ⟨o, ho, o', ho', functions, hf, functions', hf', _, _, h⟩
    exact ⟨functions, o.layout, functions', o'.layout, ⟨o, ho, hf, rfl⟩, ⟨o', ho', hf', rfl⟩, h⟩
  · rintro ⟨functions, _, functions', _, ⟨o, ho, hf, rfl⟩, ⟨o', ho', hf', rfl⟩, h⟩
    exact ⟨o, ho, o', ho', functions, hf, functions', hf', (), trivial, h⟩

/-- When the interface of two headers exists that declare something, and what it is. -/
theorem ofHeaders_eq_ok_iff_of_declares {plain extended : Content} {i : Interface}
    {functions functions' : List Signature} {layout layout' : Layout}
    (hplain : Dialect.plain.Declares plain functions layout)
    (hextended : Dialect.extended.Declares extended functions' layout') :
    (ofHeaders plain extended).result = .ok i ↔
      Signature.Agree functions functions' ∧ (∀ p ∈ functions, p.name ∈ layout.names) ∧
        (∀ x ∈ functions', x.name ∈ layout'.names) ∧
        i = ⟨layout.listing (functions.map (Signature.retyped functions')),
          layout'.listing (functions'.map (Signature.renamed functions))⟩ := by
  rw [ofHeaders_eq_ok_iff]
  constructor
  · rintro ⟨_, _, _, _, hplain', hextended', h⟩
    obtain ⟨rfl, rfl⟩ := hplain.unique hplain'
    obtain ⟨rfl, rfl⟩ := hextended.unique hextended'
    exact h
  · exact fun h => ⟨_, _, _, _, hplain, hextended, h⟩

/-- A plain header makes an interface without an extended one, if all that it declares has slots. -/
theorem ofHeaders_plain {plain : Content} {functions : List Signature} {layout : Layout}
    (h : Dialect.plain.Declares plain functions layout)
    (hslots : ∀ p ∈ functions, p.name ∈ layout.names) :
    (ofHeaders plain (.ok (Text.bytes []))).result = .ok ⟨layout.listing functions, []⟩ := by
  have hextended : Dialect.extended.Declares (.ok (Text.bytes [])) [] (.ofList []) := by
    rw [Dialect.declares_bytes_iff]
    decide
  have hretyped : functions.map (Signature.retyped []) = functions := List.map_id _
  have hagree : Signature.Agree functions [] := ⟨by simp, by simp⟩
  refine ofHeaders_eq_ok_iff.mpr ⟨_, _, _, _, h, hextended, hagree, hslots, by simp, ?_⟩
  rw [hretyped]
  rfl

/-- The headers of an interface are texts. -/
theorem exists_bytes_of_ofHeaders {plain extended : Content} {i : Interface}
    (hi : (ofHeaders plain extended).result = .ok i) :
    ∃ header header' : Text, plain = .ok header.bytes ∧ extended = .ok header'.bytes := by
  obtain ⟨_, _, _, _, hplain, hextended, _⟩ := ofHeaders_eq_ok_iff.mp hi
  obtain ⟨header, hheader⟩ := hplain.exists_bytes
  obtain ⟨header', hheader'⟩ := hextended.exists_bytes
  exact ⟨header, header', hheader, hheader'⟩

end Interface

end DispatchTable
