import DispatchTable.Proofs.Bytes
import DispatchTable.Proofs.Forwarding
import DispatchTable.Proofs.ReadBack

/-!
# Parameter lists

A parameter list has one line for each argument. All lines are indented alike, and then the list is
trimmed: this takes the indent off the first line, which follows the parenthesis, and the padding
off the last one, if no name follows it, and nothing else. The indent leads to the column behind the
parenthesis, where tabs go to the next multiple of eight.
-/

namespace DispatchTable

open Text

/-- The column behind a character that begins in a column. -/
def advance (column : Nat) (c : Char) : Nat :=
  if c = '\t' then (column / 8 + 1) * 8 else column + 1

/-- The column behind a text that begins at the margin. -/
def columnBehind (s : Text) : Nat := s.foldl advance 0

private theorem foldl_advance_tabs (stop tabs : Nat) :
    (List.replicate tabs '\t').foldl advance (stop * 8) = (stop + tabs) * 8 := by
  induction tabs generalizing stop with
  | zero => rfl
  | succ tabs ih =>
    have htab : advance (stop * 8) '\t' = (stop + 1) * 8 := by
      rw [advance, if_pos rfl, Nat.mul_div_cancel stop (by decide)]
    rw [List.replicate_succ, List.foldl_cons, htab, ih, Nat.add_right_comm, Nat.add_assoc]

private theorem foldl_advance_spaces (column spaces : Nat) :
    (List.replicate spaces ' ').foldl advance column = column + spaces := by
  induction spaces generalizing column with
  | zero => rfl
  | succ spaces ih =>
    have hspace : advance column ' ' = column + 1 := if_neg (by decide)
    rw [List.replicate_succ, List.foldl_cons, hspace, ih]
    omega

/-- The indent is as wide as it shall be. -/
theorem columnBehind_indent (wrapper : Text) :
    columnBehind (indent wrapper) = indentWidth wrapper := by
  have htabs := foldl_advance_tabs 0 (indentWidth wrapper / 8)
  rw [Nat.zero_mul, Nat.zero_add] at htabs
  rw [columnBehind, indent, List.foldl_append, htabs, foldl_advance_spaces]
  omega

/-- The size of a text is the number of its bytes. -/
theorem Text.size_bytes (s : Text) : s.bytes.size = s.utf8Size := by
  induction s with
  | nil => rfl
  | cons c s ih =>
    rw [bytes, String.toUTF8_eq_toByteArray, String.toByteArray_ofList] at ih ⊢
    rw [List.utf8Encode_cons, ByteArray.size_append, ih, List.utf8Encode_singleton,
      List.size_toByteArray, String.length_utf8EncodeChar]
    rfl

/-- Whether an argument can be told from its parameter: its type is trimmed and not empty, its name
has no blanks, and neither has a comma. -/
structure Argument.Listable (arg : Argument) : Prop where
  type_ne_nil : arg.type ≠ []
  trim_type : arg.type.trim = arg.type
  comma_not_mem_type : ',' ∉ arg.type
  not_isBlank_name : ∀ c ∈ arg.name, isBlank c = false
  comma_not_mem_name : ',' ∉ arg.name

variable {arg : Argument} {f : Signature} {wrapper : Text}

/-- The parameter of an argument, without its indent. -/
def Argument.parameter (arg : Argument) : Text := padType arg.type ++ arg.name

/-- The parameter of an argument where nothing follows, so that a type without a name needs no
padding. -/
def Argument.lastParameter (arg : Argument) : Text :=
  if arg.name = [] then arg.type else arg.parameter

/-- An indent has blanks only. -/
theorem isBlank_of_mem_indent {c : Char} (h : c ∈ indent wrapper) : isBlank c = true := by
  rcases List.mem_append.mp h with h | h <;> rw [(List.mem_replicate.mp h).2] <;> rfl

/-- A padded type is the type and perhaps a space. -/
theorem exists_padType_eq (type : Text) :
    ∃ padding, padType type = type ++ padding ∧ ∀ c ∈ padding, c = ' ' := by
  unfold padType
  split
  · exact ⟨[], by simp, by simp⟩
  · exact ⟨[' '], rfl, by simp⟩

namespace Argument.Listable

/-- A parameter begins with a character that is no blank. -/
theorem exists_parameter_eq (h : arg.Listable) :
    ∃ c rest, arg.parameter = c :: rest ∧ isBlank c = false := by
  obtain ⟨c, type, htype⟩ := List.exists_cons_of_ne_nil h.type_ne_nil
  obtain ⟨padding, hpadding, _⟩ := exists_padType_eq arg.type
  refine ⟨c, type ++ padding ++ arg.name, by rw [parameter, hpadding, htype]; rfl, ?_⟩
  exact not_isBlank_head_trim (s := arg.type) (by rw [h.trim_type, htype]; rfl)

/-- The indent of a parameter is trimmed, and nothing of the parameter. -/
theorem trimStart_indent_append (h : arg.Listable) :
    trimStart (indent wrapper ++ arg.parameter) = arg.parameter := by
  obtain ⟨c, rest, hparameter, hc⟩ := h.exists_parameter_eq
  rw [trimStart_append fun _ => isBlank_of_mem_indent, hparameter, trimStart_cons hc]

/-- The padding of a type without a name is trimmed, and nothing else. -/
theorem trimEnd_append_parameter (h : arg.Listable) (s : Text) :
    trimEnd (s ++ arg.parameter) = s ++ arg.lastParameter := by
  by_cases hname : arg.name = []
  · obtain ⟨padding, hpadding, hspace⟩ := exists_padType_eq arg.type
    have hblank : ∀ c ∈ padding, isBlank c = true := fun c hc => by rw [hspace c hc]; rfl
    have htype : arg.type.trimEnd = arg.type := by rw [← h.trim_type, trim, trimEnd_trimEnd]
    rw [lastParameter, if_pos hname, parameter, hname, List.append_nil, hpadding,
      ← List.append_assoc, trimEnd_append hblank,
      trimEnd_append_of_ne_nil s (by rw [htype]; exact h.type_ne_nil), htype]
  · obtain ⟨front, c, hfront⟩ := (List.eq_nil_or_concat arg.name).resolve_left hname
    have hc : isBlank c = false := h.not_isBlank_name c (by simp [hfront])
    rw [lastParameter, if_neg hname, parameter, hfront, List.concat_eq_append,
      ← List.append_assoc, ← List.append_assoc, trimEnd_concat hc]

/-- A parameter is not empty where nothing follows it. -/
theorem lastParameter_ne_nil (h : arg.Listable) : arg.lastParameter ≠ [] := by
  obtain ⟨c, rest, hparameter, _⟩ := h.exists_parameter_eq
  rw [Argument.lastParameter]
  split
  · exact h.type_ne_nil
  · rw [hparameter]
    exact List.cons_ne_nil c rest

/-- No comma stands in a parameter, whether something follows it or not. -/
theorem comma_not_mem (h : arg.Listable) : ',' ∉ arg.parameter ∧ ',' ∉ arg.lastParameter := by
  obtain ⟨padding, hpadding, hspace⟩ := exists_padType_eq arg.type
  have hcomma : ',' ∉ padding := fun hmem => absurd (hspace _ hmem) (by decide)
  have hparameter : ',' ∉ arg.parameter := by
    simp [parameter, hpadding, h.comma_not_mem_type, hcomma, h.comma_not_mem_name]
  refine ⟨hparameter, ?_⟩
  rw [lastParameter]
  split
  · exact h.comma_not_mem_type
  · exact hparameter

end Argument.Listable

/-- The lines of a parameter list: all but the first are indented, and the last one ends without
padding. -/
def listedParameters (f : Signature) (wrapper : Text) : List Text :=
  f.args.mapIdx fun k arg => (if k = 0 then [] else indent wrapper) ++
    if k + 1 = f.args.length then arg.lastParameter else arg.parameter

private theorem trimStart_parameters (h : ∀ arg ∈ f.args, arg.Listable) (wrapper : Text) :
    trimStart (List.intercalate ",\n".toList (parameterLines f wrapper)) =
      List.intercalate ",\n".toList (f.args.mapIdx fun k arg =>
        (if k = 0 then [] else indent wrapper) ++ arg.parameter) := by
  have hline : ∀ arg ∈ f.args, trimStart (indent wrapper ++ padType arg.type ++ arg.name) =
      arg.parameter := by
    intro arg harg
    rw [List.append_assoc]
    exact (h arg harg).trimStart_indent_append
  have hne : ∀ item ∈ parameterLines f wrapper, trimStart item ≠ [] := by
    intro item hitem
    obtain ⟨arg, harg, rfl⟩ := List.mem_map.mp hitem
    obtain ⟨c, rest, hparameter, _⟩ := (h arg harg).exists_parameter_eq
    rw [hline arg harg, hparameter]
    exact List.cons_ne_nil c rest
  rw [trimStart_intercalate hne]
  refine congrArg _ (List.ext_getElem? fun k => ?_)
  rw [List.getElem?_mapIdx, parameterLines, List.getElem?_map, List.getElem?_mapIdx]
  cases harg : f.args[k]? with
  | none => rfl
  | some arg =>
    have hfirst := hline arg (List.mem_of_getElem? harg)
    by_cases hk : k = 0
    · simp [hk, ← hfirst]
    · simp [hk, Argument.parameter]

/-- Printed parameters are their lines. -/
theorem parameters_eq (h : ∀ arg ∈ f.args, arg.Listable) (wrapper : Text) :
    parameters f wrapper = List.intercalate ",\n".toList (listedParameters f wrapper) := by
  have hne : ∀ item ∈ f.args.mapIdx fun k arg =>
      (if k = 0 then [] else indent wrapper) ++ arg.parameter, trimEnd item ≠ [] := by
    intro item hitem
    obtain ⟨k, hk, rfl⟩ := List.mem_mapIdx.mp hitem
    have harg := h _ (List.getElem_mem hk)
    rw [harg.trimEnd_append_parameter]
    exact List.append_ne_nil_of_right_ne_nil _ harg.lastParameter_ne_nil
  change trimEnd (trimStart (List.intercalate ",\n".toList (parameterLines f wrapper))) = _
  rw [trimStart_parameters h, trimEnd_intercalate hne]
  refine congrArg _ (List.ext_getElem? fun k => ?_)
  rw [List.mapIdx_mapIdx, List.getElem?_mapIdx, listedParameters, List.getElem?_mapIdx]
  cases harg : f.args[k]? with
  | none => rfl
  | some arg =>
    have hlast := (h arg (List.mem_of_getElem? harg)).trimEnd_append_parameter
    by_cases hk : k + 1 = f.args.length <;> simp [hk, hlast]

/-- No comma stands in a line of a parameter list. -/
theorem comma_not_mem_listedParameters (h : ∀ arg ∈ f.args, arg.Listable) :
    ∀ line ∈ listedParameters f wrapper, ',' ∉ line := by
  intro line hline
  obtain ⟨k, hk, rfl⟩ := List.mem_mapIdx.mp hline
  obtain ⟨hparameter, hlast⟩ := (h _ (List.getElem_mem hk)).comma_not_mem
  have hindent : ',' ∉ (if k = 0 then [] else indent wrapper) := by
    split
    · exact List.not_mem_nil
    · exact fun hmem => absurd (isBlank_of_mem_indent hmem) (by decide)
  rw [List.mem_append, not_or]
  exact ⟨hindent, by split <;> assumption⟩

/-- A parameter list that is split behind its commas at the ends of lines has one line for each
argument, in order: the first is the parameter itself, each other one is indented, and the last one
ends in its type if it has no name. The indent is tabs and then less than eight spaces, and it is as
wide as the name of the wrapper has bytes, a space and the parenthesis. -/
theorem splitItems_parameters (hne : f.args ≠ []) (h : ∀ arg ∈ f.args, arg.Listable)
    (wrapper : Text) :
    (parameters f wrapper).splitItems = (f.args.mapIdx fun k arg =>
      (if k = 0 then [] else indent wrapper) ++
        if k + 1 = f.args.length ∧ arg.name = [] then arg.type
        else padType arg.type ++ arg.name) ∧
    (∃ tabs spaces, indent wrapper = List.replicate tabs '\t' ++ List.replicate spaces ' ' ∧
      spaces < 8) ∧
    columnBehind (indent wrapper) = wrapper.bytes.size + 2 := by
  refine ⟨?_, ⟨_, _, rfl, Nat.mod_lt _ (by decide)⟩, ?_⟩
  · have hlines : listedParameters f wrapper ≠ [] := by simpa [listedParameters] using hne
    rw [parameters_eq h, splitItems_intercalate hlines (comma_not_mem_listedParameters h),
      listedParameters]
    refine congrArg (List.mapIdx · f.args) (funext fun k => funext fun arg => ?_)
    by_cases hk : k + 1 = f.args.length <;> by_cases hname : arg.name = [] <;>
      simp [hk, hname, Argument.lastParameter, Argument.parameter]
  · rw [columnBehind_indent, Text.size_bytes, indentWidth]

/-- A function whose last argument has no name. -/
def namelessLast : Signature :=
  ⟨"GetInfo".toList, [⟨"self".toList, "CK_X_FUNCTION_LIST *".toList⟩,
    ⟨"id".toList, "CK_ULONG".toList⟩, ⟨[], "CK_INFO".toList⟩]⟩

/-- The padding of its type is trimmed, and the indent is two tabs and a space. -/
theorem splitItems_parameters_namelessLast :
    namelessLast.args ≠ [] ∧ (∀ arg ∈ namelessLast.args, arg.Listable) ∧
      (parameters namelessLast "stack_C_GetInfo".toList).splitItems =
        ["CK_X_FUNCTION_LIST *self".toList, "\t\t CK_ULONG id".toList,
          "\t\t CK_INFO".toList] ∧
      columnBehind (indent "stack_C_GetInfo".toList) = 17 := by
  have hne : namelessLast.args ≠ [] := by decide
  have hword : ∀ {name : Text}, name.all isWord = true → ∀ c ∈ name, isBlank c = false :=
    fun hname c hc => isBlank_of_isWord (List.all_eq_true.mp hname c hc)
  have hlistable : ∀ arg ∈ namelessLast.args, arg.Listable :=
    List.forall_mem_cons.mpr ⟨⟨by decide, by decide, by decide, hword rfl, by decide⟩,
      List.forall_mem_cons.mpr ⟨⟨by decide, by decide, by decide, hword rfl, by decide⟩,
        List.forall_mem_singleton.mpr
          ⟨by decide, by decide, by decide, hword rfl, by decide⟩⟩⟩
  obtain ⟨hlines, _, hcolumn⟩ := splitItems_parameters hne hlistable "stack_C_GetInfo".toList
  refine ⟨hne, hlistable, hlines.trans ?_, hcolumn.trans ?_⟩
  · decide
  · decide

end DispatchTable
