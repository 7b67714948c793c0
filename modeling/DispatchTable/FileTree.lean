import DispatchTable.Content
import DispatchTable.Text.Lines

/-!
# File trees

A file tree holds the files, the directories and the devices beneath its root. A path begins at the
root if a slash stands in front of it, and otherwise in the directory where the tree is looked at
from. The system may refuse to enter, to read or to write what stands at a place. A file that it
opens for writing is emptied first; if it then stops before all bytes are written, those that it
has written are what is left.
-/

namespace DispatchTable

/-- What stands at a place of a tree. -/
inductive Item where
  | file (bytes : ByteArray)
  | directory
  /-- Something with a content for who reads it, which keeps nothing of what is written to it. -/
  | device (content : Content)

namespace Item

/-- Whether a directory stands at a place. -/
def isDirectory : Option Item → Bool
  | some .directory => true
  | _ => false

/-- Whether a device stands at a place. -/
def isDevice : Option Item → Bool
  | some (.device _) => true
  | _ => false

end Item

/-- What can be done with what stands at a place. -/
inductive Access where
  | enter
  | read
  | write
  deriving DecidableEq, Repr

/-- The items of a tree, each under the names that lead to it, and what the system does with them.
-/
structure FileTree where
  items : List (List Text × Item)
  /-- The names that lead to the directory where the tree is looked at from. -/
  here : List Text
  /-- Why the system refuses an access, if it does. -/
  refusal? : Access → List Text → Option FileError
  /-- How many of some bytes the system writes to a place, and why no more, if it does not write all
  of them. -/
  stop? : List Text → (bytes : ByteArray) → Option (Fin bytes.size × FileError)

namespace FileTree

/-- The names in a path. -/
def names (path : Text) : List Text := (path.segments '/').filter (!·.isEmpty)

/-- The tree of a directory of its own with some items, each at a path from there. Elsewhere stands
only a device that takes all that is written to it. -/
def ofPaths (items : List (Text × Item)) : FileTree :=
  let here := names "tmp/run".toList
  { items := (names "dev/null".toList, .device (.ok .empty)) ::
      items.map fun (path, item) => (here ++ names path, item)
    here
    refusal? := fun _ _ => none
    stop? := fun _ _ => none }

/-- What stands at a place. A directory need not be listed if something in it is, or if the tree is
looked at from it or from inside of it. -/
def item? (tree : FileTree) (place : List Text) : Option Item :=
  match tree.items.lookup place with
  | some item => some item
  | none =>
    if place.isPrefixOf tree.here || tree.items.any (fun entry => place.isPrefixOf entry.1) then
      some .directory
    else none

/-- Go on with a place, unless the system refuses an access to it. -/
def allow (tree : FileTree) (access : Access) (place : List Text) : Except FileError (List Text) :=
  match tree.refusal? access place with
  | some cause => .error cause
  | none => .ok place

/-- The place of a name in a directory, where something may stand or not. -/
def child (place : List Text) (name : Text) : Except FileError (List Text) :=
  if 255 < name.utf8Size then .error .nameTooLong else .ok (place ++ [name])

/-- The place that one more part of a path leads to, which must lead on from a directory to
something that is there. An empty part and a dot lead nowhere, two dots lead back, and from the root
nowhere. -/
def enter (tree : FileTree) (place : List Text) (part : Text) : Except FileError (List Text) :=
  if !Item.isDirectory (tree.item? place) then .error .notDirectory
  else if part.isEmpty then .ok place
  else do
    let place ← tree.allow .enter place
    if part = ['.'] then return place
    else if part = ['.', '.'] then return place.dropLast
    else
      let place ← child place part
      if (tree.item? place).isSome then return place else .error .notFound

/-- The parts of a path that the system takes: one that is not empty, not too long, and has no
character of code zero. -/
def parts? (path : Text) : Except FileError (List Text) :=
  if path.any (·.toNat == 0) then .error .nulInName
  else if path.isEmpty then .error .notFound
  else if 4096 ≤ path.utf8Size then .error .nameTooLong
  else .ok (path.segments '/')

/-- The place that a path begins at. -/
def start (tree : FileTree) (path : Text) : List Text :=
  if path.head? = some '/' then [] else tree.here

/-- The place that a path leads to. -/
def find (tree : FileTree) (path : Text) : Except FileError (List Text) := do
  (← parts? path).foldlM tree.enter (tree.start path)

/-- Open a path for reading. A directory can be opened, but it has no content. -/
def look (tree : FileTree) (path : Text) : Except FileError Content := do
  let place ← tree.allow .read (← tree.find path)
  return match tree.item? place with
    | some (.file bytes) => .ok bytes
    | some (.device content) => content
    | _ => .error .isDirectory

/-- Open a path for writing, which need not lead to anything yet. It must name what is written: a
path that ends in a slash or in dots leads to a directory. -/
def target (tree : FileTree) (path : Text) : Except FileError (List Text) := do
  let parts ← parts? path
  let named := (parts.reverse.dropWhile List.isEmpty).reverse
  let around ← named.dropLast.foldlM tree.enter (tree.start path)
  let name := named.getLastD []
  if !Item.isDirectory (tree.item? around) then .error .notDirectory
  else if named != parts || name = ['.'] || name = ['.', '.'] then .error .isDirectory
  else
    let place ← child (← tree.allow .enter around) name
    if Item.isDirectory (tree.item? place) then .error .isDirectory
    else tree.allow .write place

/-- A tree with a file at a place, instead of what stood there; a device stays. -/
def put (tree : FileTree) (place : List Text) (bytes : ByteArray) : FileTree :=
  if Item.isDevice (tree.item? place) then tree
  else { tree with items := (place, .file bytes) :: tree.items.filter (·.1 != place) }

/-- Write bytes to a path. If the path cannot be opened, the tree stays as it is; if the system
stops before the end, what it has written stands there. -/
def write (tree : FileTree) (path : Text) (bytes : ByteArray) :
    Except FileError Unit × FileTree :=
  match tree.target path with
  | .error cause => (.error cause, tree)
  | .ok place =>
    match tree.stop? place bytes with
    | some (size, cause) => (.error cause, tree.put place (bytes.extract 0 size))
    | none => (.ok (), tree.put place bytes)

end FileTree

end DispatchTable
