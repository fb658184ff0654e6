import Koi.Files

/-!
# Files in memory

A file tree holds directories and files. A node stands at a place, which is the list of the names
from the node up to the root. A path starts at the root if it begins with a slash, and at the
working directory otherwise.

* `FileTree.node?`, `FileTree.set`: the node at a place.
* `FileTree.locate?`: the place that a path leads to.
* `FileTree.read`, `FileTree.list`, `FileTree.write`: the operations on files.
* `FileTree.access`: the operations as file access. A file is written as a whole or not at all.
-/

namespace Koi

/-- What can stand at a place. -/
inductive Node where
  | directory
  | file (content : ByteArray)

instance : DecidableEq Node
  | .directory, .directory => isTrue rfl
  | .directory, .file _ => isFalse fun h => Node.noConfusion h
  | .file _, .directory => isFalse fun h => Node.noConfusion h
  | .file a, .file b =>
    if h : a.data = b.data then isTrue (congrArg Node.file (ByteArray.ext h))
    else isFalse fun he => h (congrArg ByteArray.data (Node.file.inj he))

/-- Names from a node up to the root, which is at the empty place. -/
abbrev Place := List String

/-- Directories and files, without the root. -/
structure FileTree where
  nodes : List (Place × Node)
  /-- The working directory. -/
  workingDir : Place

namespace FileTree

/-! ## Nodes -/

/-- The node at a place. The root is a directory. -/
def node? (tree : FileTree) : Place → Option Node
  | [] => some .directory
  | place => tree.nodes.lookup place

/-- Puts a node at a place, instead of what was there. -/
def set (tree : FileTree) (place : Place) (node : Node) : FileTree :=
  { tree with nodes := (place, node) :: tree.nodes.filter fun entry => entry.1 ≠ place }

theorem node?_set_self (tree : FileTree) (name : String) (parent : Place) (node : Node) :
    (tree.set (name :: parent) node).node? (name :: parent) = some node := by
  simp [set, node?]

theorem node?_set_of_ne (tree : FileTree) (node : Node) {place other : Place} (h : other ≠ place) :
    (tree.set place node).node? other = tree.node? other := by
  cases other with
  | nil => rfl
  | cons name parent =>
    have hb : (name :: parent == place) = false := by simpa using h
    simp only [set, node?, List.lookup_cons, hb]
    induction tree.nodes with
    | nil => rfl
    | cons entry rest ih =>
      obtain ⟨at_, there⟩ := entry
      by_cases he : at_ = place
      · subst he
        simp only [List.filter_cons, ne_eq, not_true_eq_false, decide_false, Bool.false_eq_true,
          ite_false, ih, List.lookup_cons, hb]
      · simp only [List.filter_cons, ne_eq, he, not_false_eq_true, decide_true, ite_true,
          List.lookup_cons, ih]

/-- Whether a directory stands at a place. -/
def isDirectory (tree : FileTree) (place : Place) : Bool :=
  tree.node? place = some .directory

/-! ## Paths -/

/-- One step of a path. An empty name and a dot stay where they are, two dots go up, though not
    above the root, and any other name has to exist. Every step starts at a directory. -/
def enter? (tree : FileTree) (place : Place) (name : String) : Option Place :=
  if !tree.isDirectory place then none
  else if name = "" ∨ name = "." then some place
  else if name = ".." then some place.tail
  else if (tree.node? (name :: place)).isSome then some (name :: place)
  else none

/-- The names of a path. -/
def components (path : String) : List String :=
  (path.toList.splitOn '/').map String.ofList

/-- The longest path, in bytes. -/
def maxPathSize : Nat := 4095

/-- Whether a path can lead anywhere: it is neither empty nor too long. -/
def isPath (path : String) : Bool := path ≠ "" && path.utf8ByteSize ≤ maxPathSize

/-- The place at which a path starts. -/
def startOf (tree : FileTree) (path : String) : Place :=
  if path.toList.head? = some '/' then [] else tree.workingDir

/-- The place that a path leads to. -/
def locate? (tree : FileTree) (path : String) : Option Place :=
  if isPath path then (components path).foldlM tree.enter? (tree.startOf path) else none

/-! ## Operations -/

/-- The content of a file. -/
def read (tree : FileTree) (path : String) : Option ByteArray := do
  match ← tree.node? (← tree.locate? path) with
  | .file content => some content
  | .directory => none

/-- The entry of a node in a directory, if it stands there. A file that no path reaches does not
    count as a file. -/
def childOf? (path : String) (dir : Place) : Place × Node → Option DirEntry
  | (name :: parent, node) =>
    if parent = dir then
      some ⟨name, node ≠ .directory ∧ (joinPath path name).utf8ByteSize ≤ maxPathSize⟩
    else none
  | ([], _) => none

/-- The entries of a directory. -/
def list (tree : FileTree) (path : String) : Option (List DirEntry) := do
  let place ← tree.locate? path
  if tree.isDirectory place then some (tree.nodes.filterMap (childOf? path place)) else none

/-- The longest name, in bytes. -/
def maxNameSize : Nat := 255

/-- Whether a file can have this name. -/
def isFileName (name : String) : Bool :=
  name ≠ "" && name ≠ "." && name ≠ ".." && name.utf8ByteSize ≤ maxNameSize &&
    !name.toList.contains '\x00'

/-- The place at which a path puts a file. Its directory has to exist, and no directory may stand
    there. -/
def target? (tree : FileTree) (path : String) : Option Place :=
  match (components path).reverse with
  | name :: before => do
    let dir ← if isPath path then before.reverse.foldlM tree.enter? (tree.startOf path) else none
    let place := name :: dir
    if isFileName name && tree.isDirectory dir && !tree.isDirectory place then some place else none
  | [] => none

/-- Writes a file. -/
def write (tree : FileTree) (path : String) (content : ByteArray) : Option FileTree :=
  (tree.target? path).map fun place => tree.set place (.file content)

/-- File access to a tree that is the state. -/
def access : FileAccess (StateM FileTree) where
  read path := return (← get).read path
  list path := return (← get).list path
  write path content := modifyGet fun tree =>
    match tree.write path content with
    | some written => (true, written)
    | none => (false, tree)

end FileTree

end Koi
