import DispatchTable.FileTree
import DispatchTable.Proofs.Sequence

/-!
# Writing a file in a tree

A path that can be opened for writing names a place that is no directory, in a directory that stands
there already. So nothing comes or goes with what is written: every other place holds what it held,
every path that led somewhere leads there still, and the written path leads to the file. Only a
device keeps nothing, and then the tree stays as it is.
-/

namespace DispatchTable.FileTree

variable {tree tree' : FileTree} {path part : Text} {parts place place' : List Text}
  {access : Access} {bytes : ByteArray}

/-- An access is allowed where the system does not refuse it. -/
theorem allow_eq_ok_iff :
    tree.allow access place = .ok place' ↔ tree.refusal? access place = none ∧ place = place' := by
  unfold allow
  cases tree.refusal? access place <;> simp

/-- A name that is not too long has a place in every directory. -/
theorem child_eq_ok_iff :
    child place part = .ok place' ↔ part.utf8Size ≤ 255 ∧ place ++ [part] = place' := by
  unfold child
  split
  · simp only [reduceCtorEq, false_iff, not_and]
    omega
  · simp only [Except.ok.injEq, iff_and_self]
    omega

/-- Whether a part of a path is a name, and does not lead nowhere or back. -/
structure IsItemName (part : Text) : Prop where
  ne_nil : part ≠ []
  ne_dot : part ≠ ['.']
  ne_dots : part ≠ ['.', '.']

/-- Where a part of a path leads to from a directory. -/
inductive Leads (tree : FileTree) (place : List Text) (part : Text) : List Text → Prop where
  | empty (h : part = []) : Leads tree place part place
  | dot (h : part = ['.']) (hallow : tree.refusal? .enter place = none) :
    Leads tree place part place
  | back (h : part = ['.', '.']) (hallow : tree.refusal? .enter place = none) :
    Leads tree place part place.dropLast
  | on (h : IsItemName part) (hallow : tree.refusal? .enter place = none)
    (hsize : part.utf8Size ≤ 255) (hthere : (tree.item? (place ++ [part])).isSome = true) :
    Leads tree place part (place ++ [part])

/-- A part of a path is entered from a directory only. -/
theorem enter_eq_ok_iff : tree.enter place part = .ok place' ↔
    Item.isDirectory (tree.item? place) = true ∧ tree.Leads place part place' := by
  unfold enter
  cases Item.isDirectory (tree.item? place) with
  | false => simp
  | true =>
    simp only [Bool.not_true, Bool.false_eq_true, if_false, List.isEmpty_iff, true_and]
    constructor
    · intro h
      by_cases hempty : part = []
      · rw [if_pos hempty] at h
        cases h
        exact .empty hempty
      rw [if_neg hempty] at h
      obtain ⟨_, hallowed, h⟩ := bind_eq_ok_iff.mp h
      obtain ⟨hallow, rfl⟩ := allow_eq_ok_iff.mp hallowed
      by_cases hdot : part = ['.']
      · rw [if_pos hdot] at h
        cases h
        exact .dot hdot hallow
      rw [if_neg hdot] at h
      by_cases hdots : part = ['.', '.']
      · rw [if_pos hdots] at h
        cases h
        exact .back hdots hallow
      rw [if_neg hdots] at h
      obtain ⟨_, hchild, h⟩ := bind_eq_ok_iff.mp h
      obtain ⟨hsize, rfl⟩ := child_eq_ok_iff.mp hchild
      split at h
      · next hthere =>
        cases h
        exact .on ⟨hempty, hdot, hdots⟩ hallow hsize hthere
      · cases h
    · intro h
      cases h with
      | empty h => rw [if_pos h]
      | dot h hallow =>
        rw [h, if_neg (by decide), allow_eq_ok_iff.mpr ⟨hallow, rfl⟩]
        rfl
      | back h hallow =>
        rw [h, if_neg (by decide), allow_eq_ok_iff.mpr ⟨hallow, rfl⟩]
        rfl
      | on h hallow hsize hthere =>
        rw [if_neg h.ne_nil, allow_eq_ok_iff.mpr ⟨hallow, rfl⟩]
        simp only [bind, Except.bind, if_neg h.ne_dot, if_neg h.ne_dots,
          child_eq_ok_iff.mpr ⟨hsize, rfl⟩, if_pos hthere, pure, Except.pure]

/-- Whether something stands at all places around a place. -/
def Stands (tree : FileTree) (place : List Text) : Prop :=
  ∀ around, around <+: place → around ≠ place → (tree.item? around).isSome = true

/-- Something stands around the place that a path begins at. -/
theorem stands_start (tree : FileTree) (path : Text) : tree.Stands (tree.start path) := by
  intro around haround hne
  have hhere : around.isPrefixOf tree.here = true := by
    rw [List.isPrefixOf_iff_prefix]
    unfold start at haround hne
    split at haround
    · rw [List.prefix_nil.mp haround]
      exact List.nil_prefix
    · exact haround
  unfold item?
  cases tree.items.lookup around with
  | some item => rfl
  | none => rw [hhere, Bool.true_or, if_pos rfl]; rfl

/-- Something stands around the place of a name in a directory. -/
theorem Stands.concat (h : tree.Stands place)
    (hdir : Item.isDirectory (tree.item? place) = true) : tree.Stands (place ++ [part]) := by
  intro around haround hne
  have haround := (List.prefix_concat_iff.mp haround).resolve_left hne
  by_cases heq : around = place
  · rw [heq]
    unfold Item.isDirectory at hdir
    split at hdir
    · next hitem => rw [hitem]; rfl
    · cases hdir
  · exact h around haround heq

/-- From a directory a part of a path leads to a place with something around it. -/
theorem Stands.of_enter (h : tree.Stands place) (henter : tree.enter place part = .ok place') :
    tree.Stands place' := by
  obtain ⟨hdir, hleads⟩ := enter_eq_ok_iff.mp henter
  cases hleads with
  | empty => exact h
  | dot => exact h
  | on => exact h.concat hdir
  | back =>
    intro around haround hne
    refine h around (haround.trans (List.dropLast_prefix _)) ?_
    rintro rfl
    exact hne (haround.eq_of_length (by
      have := haround.length_le
      rw [List.length_dropLast] at this ⊢
      omega))

/-- A path leads to a place with something around it. -/
theorem Stands.of_foldlM (h : tree.Stands place)
    (hparts : parts.foldlM tree.enter place = .ok place') : tree.Stands place' := by
  induction parts generalizing place with
  | nil =>
    cases hparts
    exact h
  | cons part parts ih =>
    rw [List.foldlM_cons] at hparts
    obtain ⟨_, henter, hparts⟩ := bind_eq_ok_iff.mp hparts
    exact ih (h.of_enter henter) hparts

/-- Whether a path can be opened for writing at a place: its last part is a name in a directory
where no directory has this name, and the system allows it. -/
structure Takes (tree : FileTree) (path : Text) (place : List Text) : Prop where
  exists_around : ∃ parts name around, parts? path = .ok (parts ++ [name]) ∧ IsItemName name ∧
    name.utf8Size ≤ 255 ∧ parts.foldlM tree.enter (tree.start path) = .ok around ∧
    Item.isDirectory (tree.item? around) = true ∧ tree.refusal? .enter around = none ∧
    around ++ [name] = place
  not_isDirectory : Item.isDirectory (tree.item? place) = false
  allowed : tree.refusal? .write place = none

private theorem exists_concat_of_parts? (h : parts? path = .ok parts) :
    ∃ init name, parts = init ++ [name] := by
  obtain rfl : path.segments '/' = parts := by
    unfold parts? at h
    iterate 3
      split at h
      · cases h
    exact Except.ok.inj h
  exact (List.eq_nil_or_concat' _).resolve_left (Text.segments_ne_nil _ _)

private theorem ne_nil_of_dropWhile_isEmpty {init : List Text} {name : Text}
    (h : ((init ++ [name]).reverse.dropWhile List.isEmpty).reverse = init ++ [name]) :
    name ≠ [] := by
  rw [List.reverse_append, List.reverse_singleton, List.singleton_append] at h
  rintro rfl
  have hlength := congrArg List.length h
  rw [List.length_reverse, List.dropWhile_cons_of_pos rfl, List.length_append,
    List.length_singleton] at hlength
  have := (List.dropWhile_sublist List.isEmpty (l := init.reverse)).length_le
  rw [List.length_reverse] at this
  omega

/-- What is opened for writing can be. -/
theorem takes_of_target (h : tree.target path = .ok place) : tree.Takes path place := by
  unfold target at h
  obtain ⟨parts, hparts, h⟩ := bind_eq_ok_iff.mp h
  obtain ⟨init, name, rfl⟩ := exists_concat_of_parts? hparts
  obtain ⟨around, haround, h⟩ := bind_eq_ok_iff.mp h
  dsimp only at h
  split at h
  · cases h
  · next hdir =>
    split at h
    · cases h
    · next hname =>
      simp only [Bool.or_eq_true, bne_iff_ne, ne_eq, decide_eq_true_eq, not_or, not_not] at hname
      obtain ⟨⟨hnamed, hdot⟩, hdots⟩ := hname
      obtain ⟨_, hallowed, h⟩ := bind_eq_ok_iff.mp h
      obtain ⟨hallow, rfl⟩ := allow_eq_ok_iff.mp hallowed
      obtain ⟨_, hchild, h⟩ := bind_eq_ok_iff.mp h
      split at h
      · cases h
      · next hnot =>
        obtain ⟨hwrite, rfl⟩ := allow_eq_ok_iff.mp h
        rw [hnamed, List.dropLast_concat] at haround
        rw [hnamed, List.getLastD_concat] at hdot hdots hchild
        obtain ⟨hsize, hplace⟩ := child_eq_ok_iff.mp hchild
        exact ⟨⟨init, name, around, hparts, ⟨ne_nil_of_dropWhile_isEmpty hnamed, hdot, hdots⟩,
          hsize, haround, by simpa using hdir, hallow, hplace⟩, by simpa using hnot, hwrite⟩

/-- At the place of a written file stands the file. -/
theorem item?_put_self (h : Item.isDevice (tree.item? place) = false) :
    (tree.put place bytes).item? place = some (.file bytes) := by
  rw [put, if_neg (by simp [h]), item?, List.lookup_cons_self]

private theorem lookup_put {other : List Text} (hne : other ≠ place) :
    (tree.put place bytes).items.lookup other = tree.items.lookup other := by
  have hcons : ∀ (item : Item) items, List.lookup other ((place, item) :: items) =
      items.lookup other := fun item items => by rw [List.lookup_cons, beq_false_of_ne hne]
  unfold put
  split
  · rfl
  · rw [hcons]
    induction tree.items with
    | nil => rfl
    | cons entry items ih =>
      obtain ⟨key, item⟩ := entry
      by_cases hkey : key = place
      · rw [List.filter_cons_of_neg (by simpa using hkey), hkey, hcons, ih]
      · rw [List.filter_cons_of_pos (by simpa using hkey), List.lookup_cons, List.lookup_cons, ih]

private theorem any_put {other : List Text} (h : ¬other <+: place) :
    (tree.put place bytes).items.any (fun entry => other.isPrefixOf entry.1) =
      tree.items.any (fun entry => other.isPrefixOf entry.1) := by
  have hnot : other.isPrefixOf place = false := by
    rwa [← Bool.not_eq_true, List.isPrefixOf_iff_prefix]
  unfold put
  split
  · rfl
  · rw [List.any_cons, hnot, Bool.false_or, List.any_filter]
    congr 1
    funext entry
    by_cases hentry : entry.1 = place
    · rw [hentry, hnot, Bool.and_false]
    · rw [bne_iff_ne.mpr hentry, Bool.true_and]

/-- The system does with a tree what it did before something was written. -/
theorem exists_put_eq (tree : FileTree) (place : List Text) (bytes : ByteArray) :
    ∃ items, tree.put place bytes = { tree with items } := by
  unfold put
  split
  · exact ⟨_, rfl⟩
  · exact ⟨_, rfl⟩

/-- What is written changes no other place, if something stands around its own. -/
theorem item?_put_of_ne (hstands : tree.Stands place) {other : List Text} (hne : other ≠ place) :
    (tree.put place bytes).item? other = tree.item? other := by
  obtain ⟨items, hput⟩ := exists_put_eq tree place bytes
  have hhere : (tree.put place bytes).here = tree.here := by rw [hput]
  by_cases haround : other <+: place
  · have hsome := hstands other haround hne
    by_cases hdevice : Item.isDevice (tree.item? place) = true
    · rw [put, if_pos hdevice]
    · have hany : (tree.put place bytes).items.any (fun entry => other.isPrefixOf entry.1) =
          true := by
        rw [put, if_neg hdevice, List.any_cons, List.isPrefixOf_iff_prefix.mpr haround,
          Bool.true_or]
      simp only [item?, lookup_put hne, hhere, hany, Bool.or_true, if_true] at hsome ⊢
      generalize tree.items.lookup other = listed at hsome ⊢
      cases listed with
      | some item => rfl
      | none =>
        dsimp only at hsome ⊢
        split at hsome
        · next h => rw [if_pos h]
        · cases hsome
  · simp only [item?, lookup_put hne, hhere, any_put haround]

/-- Whether a tree differs from another in what stands at one place only, where no directory stood
and where something stands now. -/
structure ChangedAt (tree : FileTree) (place : List Text) (tree' : FileTree) : Prop where
  exists_items : ∃ items, tree' = { tree with items }
  item?_eq : ∀ other ≠ place, tree'.item? other = tree.item? other
  not_isDirectory : Item.isDirectory (tree.item? place) = false
  isSome : (tree'.item? place).isSome = true

section ChangedAt

variable {source goal : List Text}

/-- A part of a path leads where it led. -/
theorem ChangedAt.enter (h : tree.ChangedAt place tree')
    (henter : tree.enter source part = .ok goal) : tree'.enter source part = .ok goal := by
  obtain ⟨⟨items, htree⟩, hitems, hnot, hthere⟩ := h
  rw [enter_eq_ok_iff] at henter ⊢
  obtain ⟨hdir, hleads⟩ := henter
  have hsource : source ≠ place := by
    rintro rfl
    exact Bool.false_ne_true (hnot.symm.trans hdir)
  have hrefusal : tree'.refusal? = tree.refusal? := by rw [htree]
  rw [hitems source hsource]
  refine ⟨hdir, ?_⟩
  cases hleads with
  | empty h => exact .empty h
  | dot h hallow => exact .dot h (by rwa [hrefusal])
  | back h hallow => exact .back h (by rwa [hrefusal])
  | on hname hallow hsize hsome =>
    refine .on hname (by rwa [hrefusal]) hsize ?_
    by_cases hplace : source ++ [part] = place
    · rwa [hplace]
    · rwa [hitems _ hplace]

/-- The parts of a path lead where they led. -/
theorem ChangedAt.foldlM (h : tree.ChangedAt place tree')
    (hparts : parts.foldlM tree.enter source = .ok goal) :
    parts.foldlM tree'.enter source = .ok goal := by
  induction parts generalizing source with
  | nil => exact hparts
  | cons part parts ih =>
    rw [List.foldlM_cons, bind_eq_ok_iff] at hparts ⊢
    obtain ⟨next, henter, hparts⟩ := hparts
    exact ⟨next, h.enter henter, ih hparts⟩

/-- A path leads where it led. -/
theorem ChangedAt.find (h : tree.ChangedAt place tree') (hfind : tree.find path = .ok goal) :
    tree'.find path = .ok goal := by
  obtain ⟨items, htree⟩ := h.exists_items
  have hstart : tree'.start path = tree.start path := by
    rw [htree]
    rfl
  rw [FileTree.find, bind_eq_ok_iff] at hfind ⊢
  obtain ⟨parts, hparts, hfind⟩ := hfind
  rw [hstart]
  exact ⟨parts, hparts, h.foldlM hfind⟩

end ChangedAt

/-- What writing a file at a path makes of a tree: the bytes stand where the path leads, no other
place has changed, nor what the system does, and every path that led somewhere leads there still. -/
structure Written (tree : FileTree) (path : Text) (bytes : ByteArray) (tree' : FileTree) :
    Prop where
  exists_place : ∃ place, tree'.find path = .ok place ∧ tree'.item? place = some (.file bytes) ∧
    tree.ChangedAt place tree'
  find_eq : ∀ other place, tree.find other = .ok place → tree'.find other = .ok place

/-- What writing to a path makes of a tree: a file is written at the path, unless it leads to a
device, and then the tree stays as it is. -/
inductive Receives (tree : FileTree) (path : Text) (bytes : ByteArray) : FileTree → Prop where
  | file {tree' : FileTree} (h : tree.Written path bytes tree') : Receives tree path bytes tree'
  | device {place : List Text} (hplace : tree.find path = .ok place)
    (hdevice : Item.isDevice (tree.item? place) = true) : Receives tree path bytes tree

/-- The parts of a path that can be opened for writing lead to its place, once something stands
there. -/
theorem Takes.find_eq (h : tree.Takes path place) (hsome : (tree.item? place).isSome = true) :
    tree.find path = .ok place := by
  obtain ⟨init, name, around, hparts, hname, hsize, haround, hdir, hallow, rfl⟩ := h.exists_around
  rw [find, hparts]
  change (init ++ [name]).foldlM tree.enter (tree.start path) = _
  rw [List.foldlM_append, bind_eq_ok_iff]
  refine ⟨_, haround, ?_⟩
  rw [List.foldlM_cons, enter_eq_ok_iff.mpr ⟨hdir, .on hname hallow hsize hsome⟩]
  rfl

/-- A path that can be opened for writing can still be, after its place has changed into a file. -/
theorem Takes.of_changedAt (h : tree.Takes path place) (hchanged : tree.ChangedAt place tree')
    (hfile : tree'.item? place = some (.file bytes)) : tree'.Takes path place := by
  obtain ⟨⟨init, name, around, hparts, hname, hsize, haround, hdir, hallow, rfl⟩, _, hwrite⟩ := h
  obtain ⟨items, htree⟩ := hchanged.exists_items
  have hstart : tree'.start path = tree.start path := by
    rw [htree]
    rfl
  have hrefusal : tree'.refusal? = tree.refusal? := by rw [htree]
  have hne : around ≠ around ++ [name] := by simp
  refine ⟨⟨init, name, around, hparts, hname, hsize, ?_, ?_, ?_, rfl⟩, ?_, ?_⟩
  · rw [hstart]
    exact hchanged.foldlM haround
  · rwa [hchanged.item?_eq _ hne]
  · rwa [hrefusal]
  · rw [hfile]
    rfl
  · rwa [hrefusal]

/-- What is put at a place that a path was opened at is written to the path. -/
theorem receives_put (h : tree.target path = .ok place) (bytes : ByteArray) :
    tree.Receives path bytes (tree.put place bytes) := by
  have htakes := takes_of_target h
  by_cases hdevice : Item.isDevice (tree.item? place) = true
  · have hsome : (tree.item? place).isSome = true := by
      unfold Item.isDevice at hdevice
      split at hdevice
      · next hitem => rw [hitem]; rfl
      · cases hdevice
    rw [put, if_pos hdevice]
    exact .device (htakes.find_eq hsome) hdevice
  · rw [Bool.not_eq_true] at hdevice
    have hself : (tree.put place bytes).item? place = some (.file bytes) := item?_put_self hdevice
    have hsome : ((tree.put place bytes).item? place).isSome = true := by
      rw [hself]
      rfl
    have hstands : tree.Stands place := by
      obtain ⟨_, _, _, _, _, _, haround, hdir, _, rfl⟩ := htakes.exists_around
      exact ((stands_start tree path).of_foldlM haround).concat hdir
    have hchanged : tree.ChangedAt place (tree.put place bytes) :=
      ⟨exists_put_eq tree place bytes, fun _ hne => item?_put_of_ne hstands hne,
        htakes.not_isDirectory, hsome⟩
    exact .file ⟨⟨place, (htakes.of_changedAt hchanged hself).find_eq hsome, hself, hchanged⟩,
      fun _ _ hfind => hchanged.find hfind⟩

/-- A path that has received bytes has them as its content, if it leads to no device and the system
lets it be read. -/
theorem Receives.look_eq (h : tree.Receives path bytes tree')
    (hdevice : ∀ place, tree.find path = .ok place → Item.isDevice (tree.item? place) = false)
    (hread : ∀ place, tree.refusal? .read place = none) : tree'.look path = .ok (.ok bytes) := by
  cases h with
  | device hplace h => exact absurd h (by simp [hdevice _ hplace])
  | file h =>
    obtain ⟨place, hfind, hitem, hchanged⟩ := h.exists_place
    obtain ⟨items, htree⟩ := hchanged.exists_items
    have hallow : tree'.allow .read place = .ok place :=
      allow_eq_ok_iff.mpr ⟨by rw [htree]; exact hread place, rfl⟩
    simp only [look, hfind, bind, Except.bind, hallow, hitem, pure, Except.pure]

/-- Whether the system stops the writing of bytes to a path that it has opened at a place: the path
has received the first of the bytes only. -/
structure Stops (tree : FileTree) (path : Text) (bytes : ByteArray) (cause : FileError)
    (tree' : FileTree) : Prop where
  exists_size : ∃ place size, tree.target path = .ok place ∧
    tree.stop? place bytes = some (size, cause) ∧ tree.Receives path (bytes.extract 0 size) tree'

/-- The path cannot be opened, and then the tree stays as it is, or the writing is stopped, or the
path receives the bytes. -/
theorem write_cases (tree : FileTree) (path : Text) (bytes : ByteArray) :
    (∃ cause, tree.target path = .error cause ∧ tree.write path bytes = (.error cause, tree)) ∨
    (∃ cause tree', tree.write path bytes = (.error cause, tree') ∧
      tree.Stops path bytes cause tree') ∨
    ∃ tree', tree.write path bytes = (.ok (), tree') ∧ tree.Receives path bytes tree' := by
  unfold write
  cases htarget : tree.target path with
  | error cause => exact .inl ⟨cause, rfl, rfl⟩
  | ok place =>
    right
    cases hstop : tree.stop? place bytes with
    | some stop =>
      obtain ⟨size, cause⟩ := stop
      refine .inl ⟨cause, tree.put place (bytes.extract 0 size), ?_, place, size, htarget, hstop,
        receives_put htarget _⟩
      simp only [hstop]
    | none =>
      refine .inr ⟨tree.put place bytes, ?_, receives_put htarget bytes⟩
      simp only [hstop]

end DispatchTable.FileTree
