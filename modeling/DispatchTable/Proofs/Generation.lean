import DispatchTable.Command.Basic
import DispatchTable.Proofs.FileTree
import DispatchTable.Proofs.Table

/-!
# Writing a table to a file

A command that writes a table fails with the error of the first of its steps that cannot be done.
Before its output is opened every file is as it was; the system may still stop the writing itself,
and then the output holds what has been written of the table. A command that does not fail changes
its output only. What it writes depends on the contents of the headers, on the template and on the
names to leave out, however the file of the command and its options share these between them.
-/

namespace DispatchTable

namespace Config

variable {look : Look} {path? : Option Text} {path : Text} {failure : Failure} {e : CommandError}

/-- The text of a file. -/
def fileText (look : Look) (path : Text) : Except FileError Text := look path >>= Content.text

/-- The configuration that the file of a command states, if the command has one. -/
def stated (look : Look) : Option Text → Except CommandError (Option Config)
  | none => .ok none
  | some path => ((load look path).mapError (.loading path)).map some

/-- A text that is no configuration has only one way to be none. -/
theorem eq_of_ofYaml_eq_error {text : Text} (h : ofYaml text = .error failure) :
    failure = .invalidConfig := by
  unfold ofYaml at h
  split at h
  · exact (Except.error.inj h).symm
  · cases h
  · split at h
    · cases h
    · exact (Except.error.inj h).symm

/-- A configuration cannot be loaded if its file cannot be read, or else if its text is none. -/
theorem load_eq_error_iff : load look path = .error failure ↔
    (∃ cause, fileText look path = .error cause ∧ failure = .unreadableConfig path cause) ∨
      ∃ text, fileText look path = .ok text ∧ ofYaml text = .error .invalidConfig ∧
        failure = .invalidConfig := by
  cases htext : fileText look path with
  | error cause =>
    have hload : load look path = .error (.unreadableConfig path cause) := by
      obtain hlook | ⟨content, hlook, hcontent⟩ := bind_eq_error_iff.mp htext
      · rw [load, hlook]
      · simp only [load, hlook, hcontent]
    simp [hload, eq_comm]
  | ok text =>
    have hload : load look path = ofYaml text := by
      obtain ⟨content, hlook, hcontent⟩ := bind_eq_ok_iff.mp htext
      simp only [load, hlook, hcontent]
    simp only [hload, reduceCtorEq, false_and, exists_false, false_or, Except.ok.injEq,
      exists_eq_left']
    constructor
    · intro h
      obtain rfl := eq_of_ofYaml_eq_error h
      exact ⟨h, rfl⟩
    · rintro ⟨h, rfl⟩
      exact h

/-- What is stated is missing only where a file has no configuration. -/
theorem stated_eq_error_iff : stated look path? = .error e ↔
    ∃ path, path? = some path ∧ ∃ failure, load look path = .error failure ∧
      e = .loading path failure := by
  cases path? with
  | none => simp [stated]
  | some path =>
    simp only [Option.some.injEq, exists_eq_left']
    change ((load look path).mapError (CommandError.loading path)).map some = _ ↔ _
    cases load look path <;> simp [Except.map, Except.mapError, eq_comm]

end Config

namespace Generate

variable {g : Generate} {tree tree' : FileTree} {look : Look} {config : Config} {i : Interface}
  {e : CommandError} {output : Text}

/-- The template of a command: its own one, or else that of its file, or else the base one. -/
def chosenTemplate (g : Generate) (file? : Option Config) : Template :=
  (g.template?.or (file?.map Config.template)).getD .base

/-- Whether a command leaves a name out: it is told to, or its file says so. -/
def LeavesOut (g : Generate) (file? : Option Config) (name : Text) : Prop :=
  name ∈ g.exclude ∨ ∃ file, file? = some file ∧ name ∈ file.exclude

/-- Whether a configuration is the one of a command and its file together. -/
structure Combines (g : Generate) (file? : Option Config) (config : Config) : Prop where
  template_eq : config.template = g.chosenTemplate file?
  mem_exclude_iff : ∀ name, name ∈ config.exclude ↔ g.LeavesOut file? name

/-- Commands that choose the same template and leave out the same names have one configuration. -/
theorem Combines.eq {g' : Generate} {file? file'? : Option Config} {config' : Config}
    (h : g.Combines file? config) (h' : g'.Combines file'? config')
    (htemplate : g.chosenTemplate file? = g'.chosenTemplate file'?)
    (hexclude : ∀ name, g.LeavesOut file? name ↔ g'.LeavesOut file'? name) : config = config' := by
  obtain ⟨template, exclude⟩ := config
  obtain ⟨template', exclude'⟩ := config'
  obtain rfl : template = template' :=
    h.template_eq.trans (htemplate.trans h'.template_eq.symm)
  obtain rfl : exclude = exclude' := by
    ext name
    rw [h.mem_exclude_iff, h'.mem_exclude_iff, hexclude]
  rfl

private theorem resolve_eq : Config.resolve look g.config? g.template? g.exclude =
    (Config.stated look g.config?).map fun file? =>
      { file?.getD .default with
        template := g.template?.getD (file?.getD .default).template }.excluding g.exclude := by
  cases hconfig : g.config? with
  | none => rfl
  | some path =>
    change (Config.load look path).mapError (CommandError.loading path) >>= _ =
      (((Config.load look path).mapError (CommandError.loading path)).map some).map _
    cases Config.load look path <;> rfl

private theorem combines_excluding (g : Generate) (file? : Option Config) : g.Combines file?
    ({ file?.getD .default with
        template := g.template?.getD (file?.getD .default).template }.excluding g.exclude) := by
  refine ⟨?_, fun name => NameSet.mem_insertAll.trans (or_congr_right ?_)⟩
  · unfold chosenTemplate
    cases g.template? <;> cases file? <;> rfl
  · cases file? with
    | none => exact iff_of_false List.not_mem_nil (by simp)
    | some file => simp

/-- A configuration is resolved to the one of a command and its file together. -/
theorem resolve_eq_ok_iff : Config.resolve look g.config? g.template? g.exclude = .ok config ↔
    ∃ file?, Config.stated look g.config? = .ok file? ∧ g.Combines file? config := by
  rw [resolve_eq]
  cases Config.stated look g.config? with
  | error e => simp [Except.map]
  | ok file? =>
    simp only [Except.map, Except.ok.injEq, exists_eq_left']
    constructor
    · rintro rfl
      exact combines_excluding g file?
    · exact fun h => (combines_excluding g file?).eq h rfl fun _ => Iff.rfl

/-- A configuration cannot be resolved if the one that is stated cannot be found. -/
theorem resolve_eq_error_iff : Config.resolve look g.config? g.template? g.exclude = .error e ↔
    Config.stated look g.config? = .error e := by
  rw [resolve_eq]
  cases Config.stated look g.config? <;> simp [Except.map]

/-- A configuration can be resolved if the one that is stated can be found. -/
theorem exists_resolve_eq_ok_iff :
    (∃ config, Config.resolve look g.config? g.template? g.exclude = .ok config) ↔
      ∃ file?, Config.stated look g.config? = .ok file? := by
  constructor
  · rintro ⟨config, hconfig⟩
    obtain ⟨file?, hfile, _⟩ := resolve_eq_ok_iff.mp hconfig
    exact ⟨file?, hfile⟩
  · rintro ⟨file?, hfile⟩
    cases hconfig : Config.resolve look g.config? g.template? g.exclude with
    | ok config => exact ⟨config, rfl⟩
    | error e =>
      rw [resolve_eq_error_iff, hfile] at hconfig
      cases hconfig

/-- What a command reads where nothing is wrong: the configuration that it and its file make
together, and the interface that its headers declare. -/
structure Reads (g : Generate) (look : Look) (config : Config) (i : Interface) : Prop where
  config : ∃ file?, Config.stated look g.config? = .ok file? ∧ g.Combines file? config
  headers : ∃ plain extended, look g.plain = .ok plain ∧ look g.extended = .ok extended ∧
    (Interface.ofHeaders plain extended).result = .ok i

/-- The bytes that a command writes: the code of the table and one more line end. -/
def tableBytes (config : Config) (i : Interface) : ByteArray :=
  Text.bytes (config.code i.extended ++ ['\n'])

/-- A command writes something. -/
theorem size_tableBytes_pos (config : Config) (i : Interface) : 0 < (tableBytes config i).size := by
  refine Nat.pos_of_ne_zero fun h => ?_
  have hnil : config.code i.extended ++ ['\n'] = [] :=
    Text.bytes_inj.mp (ByteArray.size_eq_zero_iff.mp h)
  simp at hnil

/-- The first thing that keeps a command from writing its output, and how it is reported. -/
inductive FirstFault (g : Generate) (output : Text) (tree : FileTree) : CommandError → Prop where
  | unreadableConfig {path : Text} {cause : FileError} (hpath : g.config? = some path)
    (h : Config.fileText tree.look path = .error cause) :
    FirstFault g output tree (.loading path (.unreadableConfig path cause))
  | invalidConfig {path text : Text} (hpath : g.config? = some path)
    (htext : Config.fileText tree.look path = .ok text)
    (h : Config.ofYaml text = .error .invalidConfig) :
    FirstFault g output tree (.loading path .invalidConfig)
  | openingPlain {file? : Option Config} {cause : FileError}
    (hfile : Config.stated tree.look g.config? = .ok file?)
    (h : tree.look g.plain = .error cause) :
    FirstFault g output tree (.opening g.plain cause)
  | openingExtended {file? : Option Config} {plain : Content} {cause : FileError}
    (hfile : Config.stated tree.look g.config? = .ok file?)
    (hplain : tree.look g.plain = .ok plain) (h : tree.look g.extended = .error cause) :
    FirstFault g output tree (.opening g.extended cause)
  | processing {file? : Option Config} {plain extended : Content} {failure : Failure}
    (hfile : Config.stated tree.look g.config? = .ok file?)
    (hplain : tree.look g.plain = .ok plain) (hextended : tree.look g.extended = .ok extended)
    (h : (Interface.ofHeaders plain extended).result = .error failure) :
    FirstFault g output tree (.processing g.plain g.extended failure)
  | writing {config : Config} {i : Interface} {cause : FileError}
    (hreads : g.Reads tree.look config i)
    (h : (tree.write output (tableBytes config i)).1 = .error cause) :
    FirstFault g output tree (.writing output cause)

/-- The configuration of a command and its interface, read in the order of its steps. -/
def read (g : Generate) (look : Look) : Except CommandError (Config × Interface) := do
  let config ← Config.resolve look g.config? g.template? g.exclude
  let plain ← (look g.plain).mapError (.opening g.plain)
  let extended ← (look g.extended).mapError (.opening g.extended)
  let i ← (Interface.ofHeaders plain extended).result.mapError (.processing g.plain g.extended)
  return (config, i)

/-- A plan gives the text of what the command reads. -/
theorem result_plan : (g.plan look).result =
    (g.read look).map fun (config, i) => ⟨config.code i.extended ++ ['\n'], g.output?⟩ := by
  simp only [plan, read, Interface.load, Traced.result_bind, Traced.ofExcept, Traced.mapError,
    Traced.tell]
  cases Config.resolve look g.config? g.template? g.exclude with
  | error e => rfl
  | ok config =>
    cases look g.plain with
    | error cause => rfl
    | ok plain =>
      cases look g.extended with
      | error cause => rfl
      | ok extended =>
        change ((Interface.ofHeaders plain extended).result.mapError _ >>= _) >>= _ =
          ((Interface.ofHeaders plain extended).result.mapError _ >>= _).map _
        cases (Interface.ofHeaders plain extended).result <;> rfl

/-- Where nothing is wrong, a command reads its configuration and its interface. -/
theorem read_eq_ok_iff : g.read look = .ok (config, i) ↔ g.Reads look config i := by
  simp only [read, bind_eq_ok_iff, mapError_eq_ok_iff]
  constructor
  · rintro ⟨_, hconfig, plain, hplain, extended, hextended, _, hi, ⟨⟩⟩
    exact ⟨resolve_eq_ok_iff.mp hconfig, plain, extended, hplain, hextended, hi⟩
  · rintro ⟨hconfig, plain, extended, hplain, hextended, hi⟩
    exact ⟨config, resolve_eq_ok_iff.mpr hconfig, plain, hplain, extended, hextended, i, hi, rfl⟩

/-- A command reads only one configuration and one interface. -/
theorem Reads.unique {config' : Config} {i' : Interface} (h : g.Reads look config i)
    (h' : g.Reads look config' i') : config = config' ∧ i = i' :=
  Prod.mk.inj (Except.ok.inj ((read_eq_ok_iff.mpr h).symm.trans (read_eq_ok_iff.mpr h')))

/-- The first fault of a command is in what it reads, or else in the writing of its output. -/
theorem firstFault_iff : g.FirstFault output tree e ↔
    g.read tree.look = .error e ∨ ∃ config i, g.Reads tree.look config i ∧
      ∃ cause, (tree.write output (tableBytes config i)).1 = .error cause ∧
        e = .writing output cause := by
  simp only [read, bind_eq_error_iff, mapError_eq_ok_iff, mapError_eq_error_iff,
    resolve_eq_error_iff, Config.stated_eq_error_iff, Config.load_eq_error_iff]
  constructor
  · intro h
    cases h with
    | unreadableConfig hpath h => exact .inl (.inl ⟨_, hpath, _, .inl ⟨_, h, rfl⟩, rfl⟩)
    | invalidConfig hpath htext h =>
      exact .inl (.inl ⟨_, hpath, _, .inr ⟨_, htext, h, rfl⟩, rfl⟩)
    | openingPlain hfile h =>
      obtain ⟨config, hconfig⟩ := exists_resolve_eq_ok_iff.mpr ⟨_, hfile⟩
      exact .inl (.inr ⟨config, hconfig, .inl ⟨_, h, rfl⟩⟩)
    | openingExtended hfile hplain h =>
      obtain ⟨config, hconfig⟩ := exists_resolve_eq_ok_iff.mpr ⟨_, hfile⟩
      exact .inl (.inr ⟨config, hconfig, .inr ⟨_, hplain, .inl ⟨_, h, rfl⟩⟩⟩)
    | processing hfile hplain hextended h =>
      obtain ⟨config, hconfig⟩ := exists_resolve_eq_ok_iff.mpr ⟨_, hfile⟩
      exact .inl (.inr ⟨config, hconfig, .inr ⟨_, hplain, .inr ⟨_, hextended, .inl ⟨_, h, rfl⟩⟩⟩⟩)
    | writing hreads h => exact .inr ⟨_, _, hreads, _, h, rfl⟩
  · rintro ((⟨path, hpath, failure, ⟨cause, h, rfl⟩ | ⟨text, htext, h, rfl⟩, rfl⟩ |
      ⟨config, hconfig, hheaders⟩) | ⟨config, i, hreads, cause, h, rfl⟩)
    · exact .unreadableConfig hpath h
    · exact .invalidConfig hpath htext h
    · obtain ⟨file?, hfile⟩ := exists_resolve_eq_ok_iff.mp ⟨config, hconfig⟩
      obtain ⟨cause, h, rfl⟩ | ⟨plain, hplain, ⟨cause, h, rfl⟩ | ⟨extended, hextended,
        ⟨failure, h, rfl⟩ | ⟨_, _, ⟨⟩⟩⟩⟩ := hheaders
      · exact .openingPlain hfile h
      · exact .openingExtended hfile hplain h
      · exact .processing hfile hplain hextended h
    · exact .writing hreads h

/-- A command that cannot read what it needs leaves every file as it was. -/
theorem run_of_read_error (h : g.read tree.look = .error e) :
    tree.run (.generate g) = (⟨(g.plan tree.look).log, [], some e⟩, tree) := by
  unfold FileTree.run carryOut
  rw [Command.plan, result_plan, h]
  rfl

/-- A command that has read what it needs ends with the writing of its output. -/
theorem run_of_reads (houtput : g.output? = some output) (h : g.Reads tree.look config i) :
    tree.run (.generate g) = match tree.write output (tableBytes config i) with
      | (.ok (), tree') => (⟨(g.plan tree.look).log ++ [.wrote output], [], none⟩, tree')
      | (.error cause, tree') =>
        (⟨(g.plan tree.look).log, [], some (.writing output cause)⟩, tree') := by
  unfold FileTree.run carryOut
  rw [Command.plan, result_plan, read_eq_ok_iff.mpr h, houtput]
  change StateT.run (_ >>= _) tree = _
  rw [StateT.run_bind]
  change Bind.bind (m := Id) (tree.write output (tableBytes config i)) _ = _
  generalize tree.write output (tableBytes config i) = written
  obtain ⟨_ | _, _⟩ := written <;> rfl

/-- A command fails with its first fault, and then either every file is as it was or the writing of
its table was stopped; or else its output has received the table. -/
theorem run_cases (tree : FileTree) (houtput : g.output? = some output) :
    (∃ e, (∀ e', g.FirstFault output tree e' ↔ e' = e) ∧
      (tree.run (.generate g)).1.error? = some e ∧
      ((tree.run (.generate g)).2 = tree ∨ ∃ config i cause, g.Reads tree.look config i ∧
        e = .writing output cause ∧
        tree.Stops output (tableBytes config i) cause (tree.run (.generate g)).2)) ∨
    (∀ e, ¬g.FirstFault output tree e) ∧ (tree.run (.generate g)).1.error? = none ∧
      ∃ config i, g.Reads tree.look config i ∧
        tree.Receives output (tableBytes config i) (tree.run (.generate g)).2 := by
  simp only [firstFault_iff, ← read_eq_ok_iff]
  cases hread : g.read tree.look with
  | error e =>
    rw [run_of_read_error hread]
    exact .inl ⟨e, by simp [eq_comm], rfl, .inl rfl⟩
  | ok read =>
    obtain ⟨config, i⟩ := read
    rw [run_of_reads houtput (read_eq_ok_iff.mp hread)]
    obtain ⟨cause, _, hwrite⟩ | ⟨cause, tree', hwrite, hstops⟩ | ⟨tree', hwrite, hreceives⟩ :=
      tree.write_cases output (tableBytes config i)
    · rw [hwrite]
      exact .inl ⟨.writing output cause, by simp [hwrite], rfl, .inl rfl⟩
    · rw [hwrite]
      exact .inl ⟨.writing output cause, by simp [hwrite], rfl,
        .inr ⟨config, i, cause, rfl, rfl, hstops⟩⟩
    · rw [hwrite]
      exact .inr ⟨by simp [hwrite], rfl, config, i, rfl, hreceives⟩

/-- Whether two commands have the same to do: their headers have the same contents, they choose the
same template, and they leave out the same names. -/
structure SameTask (g : Generate) (tree : FileTree) (g' : Generate) (tree' : FileTree) : Prop where
  plain : tree.look g.plain = tree'.look g'.plain
  extended : tree.look g.extended = tree'.look g'.extended
  config : ∃ file? file'?, Config.stated tree.look g.config? = .ok file? ∧
    Config.stated tree'.look g'.config? = .ok file'? ∧
    g.chosenTemplate file? = g'.chosenTemplate file'? ∧
    ∀ name, g.LeavesOut file? name ↔ g'.LeavesOut file'? name

/-- Commands that have the same to do read the same. -/
theorem SameTask.reads_eq {g' : Generate} {config' : Config} {i' : Interface}
    (h : g.SameTask tree g' tree') (hreads : g.Reads tree.look config i)
    (hreads' : g'.Reads tree'.look config' i') : config = config' ∧ i = i' := by
  obtain ⟨_, _, hfile, hfile', htemplate, hexclude⟩ := h.config
  obtain ⟨_, hstated, hcombines⟩ := hreads.config
  obtain ⟨_, hstated', hcombines'⟩ := hreads'.config
  obtain rfl := Except.ok.inj (hstated.symm.trans hfile)
  obtain rfl := Except.ok.inj (hstated'.symm.trans hfile')
  obtain ⟨plain, extended, hplain, hextended, hi⟩ := hreads.headers
  obtain ⟨plain', extended', hplain', hextended', hi'⟩ := hreads'.headers
  obtain rfl := Except.ok.inj (hplain.symm.trans (h.plain.trans hplain'))
  obtain rfl := Except.ok.inj (hextended.symm.trans (h.extended.trans hextended'))
  exact ⟨hcombines.eq hcombines' htemplate hexclude, Except.ok.inj (hi.symm.trans hi')⟩

/-- A command with an output fails exactly with its first fault. Then every file is as before,
unless the output could be opened and the system has stopped the writing: in this case the output
holds the bytes that had been written, and nothing else has changed. A command that does not fail
has written the code of the interface that its headers declare and one more line end, by its own
template, or else that of its file, or else the base one, and without the names that it or its file
leaves out; nothing but the output has changed. Two commands that do not fail and have the same to
do write the same bytes, whatever their outputs are. -/
theorem run_writes_table (g : Generate) (tree : FileTree) {output : Text}
    (houtput : g.output? = some output) :
    (∀ e, (tree.run (.generate g)).1.error? = some e ↔ g.FirstFault output tree e) ∧
    (∀ e, (tree.run (.generate g)).1.error? = some e → (tree.run (.generate g)).2 = tree ∨
      ∃ config i cause, g.Reads tree.look config i ∧ e = .writing output cause ∧
        tree.Stops output (tableBytes config i) cause (tree.run (.generate g)).2) ∧
    ((tree.run (.generate g)).1.error? = none → ∃ config i, g.Reads tree.look config i ∧
      tree.Receives output (tableBytes config i) (tree.run (.generate g)).2) ∧
    ∀ (g' : Generate) (tree' : FileTree) (output' : Text), g'.output? = some output' →
      (tree.run (.generate g)).1.error? = none → (tree'.run (.generate g')).1.error? = none →
      g.SameTask tree g' tree' →
      ∃ config i, g.Reads tree.look config i ∧ g'.Reads tree'.look config i ∧
        tree.Receives output (tableBytes config i) (tree.run (.generate g)).2 ∧
        tree'.Receives output' (tableBytes config i) (tree'.run (.generate g')).2 := by
  have hreceives : ∀ (g : Generate) (tree : FileTree) (output : Text), g.output? = some output →
      (tree.run (.generate g)).1.error? = none → ∃ config i, g.Reads tree.look config i ∧
        tree.Receives output (tableBytes config i) (tree.run (.generate g)).2 := by
    intro g tree output houtput hnone
    obtain ⟨e, _, he, _⟩ | ⟨_, _, h⟩ := run_cases tree houtput
    · exact absurd (hnone.symm.trans he) (by simp)
    · exact h
  refine ⟨fun e => ?_, fun e h => ?_, hreceives g tree output houtput, ?_⟩
  · obtain ⟨fault, hfault, he, _⟩ | ⟨hnone, he, _⟩ := run_cases tree houtput
    · rw [he, hfault, Option.some.injEq, eq_comm]
    · simp [he, hnone]
  · obtain ⟨fault, _, he, htree⟩ | ⟨_, he, _⟩ := run_cases tree houtput
    · obtain rfl := Option.some.inj (he.symm.trans h)
      exact htree
    · exact absurd (he.symm.trans h) (by simp)
  · intro g' tree' output' houtput' hnone hnone' hsame
    obtain ⟨config, i, hreads, hreceives₁⟩ := hreceives g tree output houtput hnone
    obtain ⟨config', i', hreads', hreceives₂⟩ := hreceives g' tree' output' houtput' hnone'
    obtain ⟨rfl, rfl⟩ := hsame.reads_eq hreads hreads'
    exact ⟨config, i, hreads, hreads', hreceives₁, hreceives₂⟩

/-- Two headers, and a configuration that leaves out the function of the first slot. -/
def twoSlots : FileTree :=
  .ofPaths [("p.h".toList, .file (Text.bytes [])),
    ("x.h".toList, .file Interface.slotsDeclared.bytes),
    ("c.yaml".toList, .file (Text.bytes "exclude: [A]".toList))]

/-- A command whose file says what is left out, and which overwrites a header. -/
def byFile : Generate :=
  ⟨some .stack, "p.h".toList, "x.h".toList, [], some "c.yaml".toList, some "x.h".toList⟩

/-- A command that is told twice what to leave out. -/
def byOptions (output : Text) : Generate :=
  ⟨some .stack, "p.h".toList, "./x.h".toList, [['A'], ['A']], none, some output⟩

/-- The table that both write. -/
def secondSlot : Text :=
  "static CK_RV\nstack_C_B (S *self)\n\x7b\n".toList ++
  "\tp11_virtual *virt = (p11_virtual *)self;\n".toList ++
  "\tCK_X_FUNCTION_LIST *funcs = virt->lower_module;\n".toList ++
  "\treturn funcs->C_B (funcs);\n\x7d\n\n\n".toList ++
  "CK_X_FUNCTION_LIST p11_virtual_stack = \x7b\n".toList ++
  "\t\x7b CRYPTOKI_VERSION_MAJOR, CRYPTOKI_VERSION_MINOR \x7d,  /* version */\n".toList ++
  "\tNULL,\n\tstack_C_B\n\x7d;\n\n".toList

open Yaml in
private theorem ofYaml_exclude :
    Config.ofYaml "exclude: [A]".toList = .ok ⟨.base, .ofList [['A']]⟩ := by
  have htokens : tokens? "exclude: [A]".toList = some [.mappingStart, .key,
      .scalar true "exclude".toList, .value, .flowSequenceStart, .scalar true ['A'],
      .flowSequenceEnd, .blockEnd, .streamEnd] := by decide +kernel
  have hdocument : document? "exclude: [A]".toList = some (some (.mapping none none
      [(.scalar none none true "exclude".toList,
        .sequence none none [.scalar none none true ['A']])])) := by
    rw [document?, htokens]
    rfl
  have hconfig : Config.ofDocument? (.mapping none none
      [(.scalar none none true "exclude".toList,
        .sequence none none [.scalar none none true ['A']])]) =
      some ⟨.base, .ofList [['A']]⟩ := by decide +kernel
  simp only [Config.ofYaml, hdocument, hconfig]

private theorem exists_reads_twoSlots : ∃ i,
    byFile.Reads twoSlots.look ⟨.stack, .ofList [['A']]⟩ i ∧
    (∀ output, (byOptions output).Reads twoSlots.look ⟨.stack, .ofList [['A']]⟩ i) ∧
    tableBytes ⟨.stack, .ofList [['A']]⟩ i = secondSlot.bytes := by
  have hi := (Interface.ofHeaders_eq_ok_iff_of_declares Interface.declares_empty
    Interface.declares_slotsDeclared).mpr
      ⟨by unfold Signature.Agree; decide, by decide, by decide, rfl⟩
  have hload : Config.load twoSlots.look "c.yaml".toList = .ok ⟨.base, .ofList [['A']]⟩ := by
    have hlook : twoSlots.look "c.yaml".toList =
        .ok (.ok (Text.bytes "exclude: [A]".toList)) := rfl
    simp only [Config.load, hlook, Content.text_eq_ok_iff.mpr rfl, ofYaml_exclude]
  have hstated : Config.stated twoSlots.look (some "c.yaml".toList) =
      .ok (some ⟨.base, .ofList [['A']]⟩) := by
    rw [Config.stated, hload]
    rfl
  refine ⟨_, ⟨⟨_, hstated, rfl, fun name => ?_⟩, _, _, rfl, rfl, hi⟩,
    fun output => ⟨resolve_eq_ok_iff.mp rfl, _, _, rfl, rfl, hi⟩, congrArg Text.bytes ?_⟩
  · simp [LeavesOut, byFile]
  · decide +kernel

/-- The command that overwrites a header and the one that writes a new file write this table. -/
theorem run_writes_table_twoSlots :
    (twoSlots.run (.generate byFile)).2.look "x.h".toList = .ok (.ok secondSlot.bytes) ∧
    (twoSlots.run (.generate (byOptions "o.c".toList))).2.look "o.c".toList =
      .ok (.ok secondSlot.bytes) := by
  obtain ⟨i, hfile, hoptions, hbytes⟩ := exists_reads_twoSlots
  have hnone : (twoSlots.run (.generate byFile)).1.error? = none := by
    rw [run_of_reads rfl hfile]
    rfl
  have hnone' : (twoSlots.run (.generate (byOptions "o.c".toList))).1.error? = none := by
    rw [run_of_reads rfl (hoptions _)]
    rfl
  have hsame : byFile.SameTask twoSlots (byOptions "o.c".toList) twoSlots := by
    obtain ⟨_, hstated, hcombines⟩ := hfile.config
    obtain ⟨_, hstated', hcombines'⟩ := (hoptions "o.c".toList).config
    exact ⟨rfl, rfl, _, _, hstated, hstated',
      hcombines.template_eq.symm.trans hcombines'.template_eq,
      fun name => (hcombines.mem_exclude_iff name).symm.trans (hcombines'.mem_exclude_iff name)⟩
  obtain ⟨_, _, _, htwo⟩ := run_writes_table byFile twoSlots rfl
  obtain ⟨_, _, hreads, _, hreceives, hreceives'⟩ := htwo _ _ _ rfl hnone hnone' hsame
  obtain ⟨rfl, rfl⟩ := hfile.unique hreads
  rw [hbytes] at hreceives hreceives'
  constructor
  · refine hreceives.look_eq (fun place h => ?_) fun _ => rfl
    obtain rfl := Except.ok.inj (show Except.ok _ = Except.ok place from h)
    rfl
  · refine hreceives'.look_eq (fun place h => ?_) fun _ => rfl
    cases (show Except.error _ = Except.ok place from h)

/-- The error of a system without space. -/
def noSpace : FileError := .other 28 "No space left on device".toList

/-- The same tree where nothing more can be written. -/
def full : FileTree :=
  { twoSlots with
    stop? := fun _ bytes => if h : 0 < bytes.size then some (⟨0, h⟩, noSpace) else none }

/-- The path of a device. -/
def null : Text := "../../dev/null".toList

/-- Where nothing more can be written, a command fails after it has emptied its output, and a
command that writes to a device does not fail, but the table stands nowhere. -/
theorem run_not_all_or_nothing :
    ((full.run (.generate (byOptions "c.yaml".toList))).1.error? =
        some (.writing "c.yaml".toList noSpace) ∧
      (∃ place, full.target "c.yaml".toList = .ok place) ∧
      full.look "c.yaml".toList = .ok (.ok (Text.bytes "exclude: [A]".toList)) ∧
      (full.run (.generate (byOptions "c.yaml".toList))).2.look "c.yaml".toList =
        .ok (.ok .empty)) ∧
    (twoSlots.run (.generate (byOptions null))).1.error? = none ∧
      (twoSlots.run (.generate (byOptions null))).2.look null = .ok (.ok .empty) ∧
      ∃ i, (byOptions null).Reads twoSlots.look ⟨.stack, .ofList [['A']]⟩ i ∧
        tableBytes ⟨.stack, .ofList [['A']]⟩ i = secondSlot.bytes := by
  obtain ⟨i, _, hoptions, hbytes⟩ := exists_reads_twoSlots
  constructor
  · have hreads : (byOptions "c.yaml".toList).Reads full.look ⟨.stack, .ofList [['A']]⟩ i :=
      hoptions "c.yaml".toList
    have hsize := size_tableBytes_pos ⟨.stack, .ofList [['A']]⟩ i
    rw [hbytes] at hsize
    have hwrite : full.write "c.yaml".toList secondSlot.bytes =
        (.error noSpace, full.put ["tmp".toList, "run".toList, "c.yaml".toList]
          (secondSlot.bytes.extract 0 0)) := by
      have htarget : full.target "c.yaml".toList =
          .ok ["tmp".toList, "run".toList, "c.yaml".toList] := rfl
      have hstop (place : List Text) : full.stop? place secondSlot.bytes =
          some (⟨0, hsize⟩, noSpace) := by
        simp only [full, dif_pos hsize]
      simp only [FileTree.write, htarget, hstop]
    rw [run_of_reads rfl hreads, hbytes, hwrite, ByteArray.extract_same]
    exact ⟨rfl, ⟨_, rfl⟩, rfl, rfl⟩
  · have htarget : twoSlots.target null = .ok ["dev".toList, "null".toList] := rfl
    have hfind : twoSlots.find null = .ok ["dev".toList, "null".toList] := rfl
    have hwrite : twoSlots.write null secondSlot.bytes = (.ok (), twoSlots) := by
      rw [FileTree.write, htarget]
      rfl
    rw [run_of_reads rfl (hoptions null), hbytes, hwrite]
    dsimp only
    rw [FileTree.look, hfind]
    exact ⟨rfl, rfl, i, hoptions null, hbytes⟩

end Generate

end DispatchTable
