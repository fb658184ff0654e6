import Koi.Proofs.Files

/-!
# Files in a directory

A path to a directory and a name lead to the entry with this name, whether or not the path ends with
a slash. A file that is put there is one more entry of the directory, and the other entries stay as
they are.

* `FileTree.IsPlain`: names that an entry of a directory can have in a path.
* `FileTree.LeadsTo`: a path leads to a directory. `LeadsTo.read_joinPath` and
  `LeadsTo.target?_joinPath` say what stands at a name in it and where a file is put, and
  `LeadsTo.set_file` that the path survives a new file.
* `FileTree.filterMap_childOf?_set_file`: a file with a new name is one more entry.
* `FileTree.folder`: a tree with one directory, which is the working directory too.
-/

namespace Koi.FileTree

variable {tree : FileTree} {dir file : String} {place : Place} {entries : List DirEntry}

/-! ## Paths into a directory -/

/-- A name that leads down, to a file or directory. -/
def LeadsDown (name : String) : Prop := name ≠ "" ∧ name ≠ "." ∧ name ≠ ".."

instance (name : String) : Decidable (LeadsDown name) :=
  inferInstanceAs (Decidable (name ≠ "" ∧ name ≠ "." ∧ name ≠ ".."))

theorem enter?_of_leadsDown {name : String} (down : LeadsDown name)
    (dir : tree.isDirectory place = true) : tree.enter? place name =
      if (tree.node? (name :: place)).isSome then some (name :: place) else none := by
  obtain ⟨not_empty, not_dot, not_up⟩ := down
  simp [enter?, dir, not_empty, not_dot, not_up]

/-- A name that an entry of a directory can have in a path. -/
structure IsPlain (name : String) : Prop where
  down : LeadsDown name
  no_slash : '/' ∉ name.toList

/-- The names of a path that is cut at a slash. -/
theorem components_append_slash (front : String) (no_slash : '/' ∉ file.toList) :
    components (front ++ "/" ++ file) = components front ++ [file] := by
  have cut : (front ++ "/" ++ file).toList = front.toList ++ '/' :: file.toList := by
    rw [String.toList_append, String.toList_append, List.append_assoc]
    rfl
  rw [components, cut, List.splitOn_append_cons_self, List.splitOn_eq_singleton no_slash,
    List.map_append, List.map_singleton, String.ofList_toList]
  rfl

/-- A path to a directory may end with a slash or not; a name comes after one slash. -/
theorem exists_front (nonempty : dir ≠ "") : ∃ front, (dir = front ∨ dir = front ++ "/") ∧
    ∀ file, joinPath dir file = front ++ "/" ++ file := by
  by_cases slash : dir.endsWith "/" = true
  · obtain ⟨front, hf⟩ := String.Slice.endsWith_string_iff.1 slash
    have split : dir = String.ofList front ++ "/" := by
      apply String.toList_injective
      rw [String.toList_append, String.toList_ofList, hf, String.copy_toSlice]
    refine ⟨String.ofList front, .inr split, fun file => ?_⟩
    rw [joinPath, if_pos (.inr slash), ← split]
  · refine ⟨dir, .inl rfl, fun file => ?_⟩
    rw [joinPath, if_neg (by simp [nonempty, slash])]

theorem isPath_iff {path : String} :
    isPath path = true ↔ path ≠ "" ∧ path.utf8ByteSize ≤ maxPathSize := by
  simp [isPath]

/-- A path into a directory begins with the path to it. -/
theorem exists_toList_joinPath (dir file : String) :
    ∃ rest, (joinPath dir file).toList = dir.toList ++ rest := by
  unfold joinPath
  split
  · exact ⟨_, String.toList_append⟩
  · exact ⟨_, by rw [String.toList_append, String.toList_append, List.append_assoc]⟩

theorem isPath_joinPath (nonempty : dir ≠ "")
    (short : (joinPath dir file).utf8ByteSize ≤ maxPathSize) :
    isPath (joinPath dir file) = true := by
  refine isPath_iff.2 ⟨fun h => nonempty ?_, short⟩
  obtain ⟨rest, hr⟩ := exists_toList_joinPath dir file
  rw [h] at hr
  exact String.toList_eq_nil_iff.1 (List.append_eq_nil_iff.1 hr.symm).1

/-- A path into a directory starts where the path to it starts. -/
theorem startOf_joinPath (tree : FileTree) (nonempty : dir ≠ "") (file : String) :
    tree.startOf (joinPath dir file) = tree.startOf dir := by
  obtain ⟨rest, hr⟩ := exists_toList_joinPath dir file
  have head : (joinPath dir file).toList.head? = dir.toList.head? := by
    rw [hr, List.head?_append_of_ne_nil]
    exact fun h => nonempty (String.toList_eq_nil_iff.1 h)
  rw [startOf, startOf, head]

/-- A path leads to a directory. -/
structure LeadsTo (tree : FileTree) (dir : String) (place : Place) : Prop where
  located : tree.locate? dir = some place
  at_dir : tree.isDirectory place = true

namespace LeadsTo

theorem leads (h : tree.LeadsTo dir place) : isPath dir = true := by
  have located := h.located
  unfold locate? at located
  split at located
  · assumption
  · cases located

theorem nonempty (h : tree.LeadsTo dir place) : dir ≠ "" :=
  (isPath_iff.1 h.leads).1

/-- The names in front of the last one in a path into a directory lead to this directory. -/
theorem exists_components (h : tree.LeadsTo dir place) : ∃ before,
    before.foldlM tree.enter? (tree.startOf dir) = some place ∧
    ∀ file, '/' ∉ file.toList → components (joinPath dir file) = before ++ [file] := by
  obtain ⟨front, hd, joined⟩ := exists_front h.nonempty
  refine ⟨components front, ?_, fun file no_slash => ?_⟩
  · have located := h.located
    rw [locate?, if_pos h.leads] at located
    obtain same | split := hd
    · rwa [same] at located ⊢
    · -- The empty name behind the slash leads from the directory to itself.
      have names : components (front ++ "/") = components front ++ [""] := by
        have cut : components (front ++ "/" ++ "") = components front ++ [""] :=
          components_append_slash front (by simp)
        rwa [String.append_empty] at cut
      rw [show components dir = _ from (congrArg components split).trans names,
        List.foldlM_append] at located
      obtain ⟨last, hl, stays⟩ := Option.bind_eq_some_iff.1 located
      rw [List.foldlM_cons] at stays
      obtain ⟨again, ha, stays⟩ := Option.bind_eq_some_iff.1 stays
      obtain rfl := Option.some.inj stays
      have at_last := isDirectory_of_enter? ha
      simp only [enter?, at_last, Bool.not_true, Bool.false_eq_true, if_false, true_or, if_true,
        Option.some.injEq] at ha
      rw [hl, ha]
  · rw [joined, components_append_slash front no_slash]

theorem locate?_joinPath (h : tree.LeadsTo dir place) (plain : IsPlain file)
    (short : (joinPath dir file).utf8ByteSize ≤ maxPathSize) :
    tree.locate? (joinPath dir file) =
      if (tree.node? (file :: place)).isSome then some (file :: place) else none := by
  obtain ⟨before, hb, names⟩ := h.exists_components
  rw [locate?, if_pos (isPath_joinPath h.nonempty short), names file plain.no_slash,
    startOf_joinPath tree h.nonempty, List.foldlM_append, hb, Option.bind_eq_bind,
    Option.bind_some, List.foldlM_cons, enter?_of_leadsDown plain.down h.at_dir]
  cases (tree.node? (file :: place)).isSome <;> rfl

/-- Reading a file in a directory. -/
theorem read_joinPath (h : tree.LeadsTo dir place) (plain : IsPlain file)
    (short : (joinPath dir file).utf8ByteSize ≤ maxPathSize) :
    tree.read (joinPath dir file) =
      match tree.node? (file :: place) with
      | some (.file content) => some content
      | _ => none := by
  rw [read, h.locate?_joinPath plain short]
  cases there : tree.node? (file :: place) with
  | none => rfl
  | some node =>
    simp only [Option.isSome_some, if_true, Option.bind_eq_bind, Option.bind_some, there]
    cases node <;> rfl

/-- Where a file is put in a directory. -/
theorem target?_joinPath (h : tree.LeadsTo dir place) (no_slash : '/' ∉ file.toList)
    (name : isFileName file = true) (short : (joinPath dir file).utf8ByteSize ≤ maxPathSize)
    (free : tree.isDirectory (file :: place) = false) :
    tree.target? (joinPath dir file) = some (file :: place) := by
  obtain ⟨before, hb, names⟩ := h.exists_components
  simp only [target?, names file no_slash, List.reverse_append, List.reverse_singleton,
    List.singleton_append, isPath_joinPath h.nonempty short, startOf_joinPath tree h.nonempty,
    if_true, List.reverse_reverse, hb]
  simp [name, h.at_dir, free]

/-- A file that is put where no directory stands does not disturb the path. -/
theorem set_file {other : Place} (h : tree.LeadsTo dir place)
    (free : tree.isDirectory other = false) (content : ByteArray) :
    (tree.set other (.file content)).LeadsTo dir place where
  located := by
    have located := h.located
    rw [locate?, if_pos h.leads] at located ⊢
    exact foldlM_enter?_set_file content free located h.at_dir
  at_dir := isDirectory_set_file tree content free h.at_dir

end LeadsTo

/-! ## The entries of a directory -/

theorem list_eq_some_iff : tree.list dir = some entries ↔ ∃ place, tree.LeadsTo dir place ∧
    tree.nodes.filterMap (childOf? dir place) = entries := by
  unfold list
  constructor
  · intro h
    obtain ⟨place, located, h⟩ := Option.bind_eq_some_iff.1 h
    split at h
    · next at_dir => exact ⟨place, ⟨located, at_dir⟩, Option.some.inj h⟩
    · cases h
  · rintro ⟨place, ⟨located, at_dir⟩, rfl⟩
    rw [located, Option.bind_eq_bind, Option.bind_some, if_pos at_dir]

/-- No node stands at a name that no entry of the directory has. -/
theorem ne_of_fresh (fresh : ∀ entry ∈ tree.nodes.filterMap (childOf? dir place),
    entry.name ≠ file) {node : Place × Node} (hm : node ∈ tree.nodes) : node.1 ≠ file :: place := by
  obtain ⟨other, there⟩ := node
  rintro rfl
  exact fresh _ (List.mem_filterMap.2 ⟨_, hm, if_pos rfl⟩) rfl

theorem node?_eq_none (fresh : ∀ entry ∈ tree.nodes.filterMap (childOf? dir place),
    entry.name ≠ file) : tree.node? (file :: place) = none := by
  show tree.nodes.lookup (file :: place) = none
  refine List.lookup_eq_none_iff.2 fun node hm => ?_
  rw [bne_iff_ne]
  exact (ne_of_fresh fresh hm).symm

/-- A file with a new name is one more entry of its directory. -/
theorem filterMap_childOf?_set_file (short : (joinPath dir file).utf8ByteSize ≤ maxPathSize)
    (fresh : ∀ entry ∈ tree.nodes.filterMap (childOf? dir place), entry.name ≠ file)
    (content : ByteArray) :
    (tree.set (file :: place) (.file content)).nodes.filterMap (childOf? dir place) =
      ⟨file, true⟩ :: tree.nodes.filterMap (childOf? dir place) := by
  have child : childOf? dir place (file :: place, .file content) = some ⟨file, true⟩ := by
    simp [childOf?, short]
  have kept : (tree.nodes.filter fun entry => entry.1 ≠ file :: place) = tree.nodes :=
    List.filter_eq_self.2 fun node hm => decide_eq_true (ne_of_fresh fresh hm)
  rw [set, kept, List.filterMap_cons, child]

/-! ## Trees with one directory -/

/-- A tree with files in one directory and nothing else. Work is done in this directory. -/
def folder (dir : String) (files : List (String × ByteArray)) : FileTree :=
  ⟨([dir], .directory) :: files.map fun (name, content) => ([name, dir], .file content), [dir]⟩

theorem lookup_map_place (dir name : String) (files : List (String × ByteArray)) :
    (files.map fun (name, content) => ([name, dir], Node.file content)).lookup [name, dir] =
      (files.lookup name).map Node.file := by
  induction files with
  | nil => rfl
  | cons file rest ih =>
    obtain ⟨other, content⟩ := file
    by_cases same : name = other
    · subst same
      simp only [List.map_cons, List.lookup_cons_self, Option.map_some]
    · have place_ne : ([name, dir] == [other, dir]) = false := by simp [same]
      have name_ne : (name == other) = false := by simp [same]
      simp only [List.map_cons, List.lookup_cons, place_ne, name_ne]
      exact ih

variable {name : String} {files : List (String × ByteArray)}

theorem node?_folder (dir name : String) (files : List (String × ByteArray)) :
    (folder dir files).node? [name, dir] = (files.lookup name).map Node.file := by
  have place_ne : ([name, dir] == [dir]) = false := by simp
  simp only [folder, node?, List.lookup_cons, place_ne]
  exact lookup_map_place dir name files

theorem isDirectory_folder (dir : String) (files : List (String × ByteArray)) :
    (folder dir files).isDirectory [dir] = true := by
  simp only [isDirectory, folder, node?, List.lookup_cons_self, decide_true]

/-- Nothing stands beside the directory. -/
theorem node?_folder_beside (ne : name ≠ dir) (files : List (String × ByteArray)) :
    (folder dir files).node? [name] = none := by
  have dir_ne : ([name] == [dir]) = false := by simp [ne]
  simp only [folder, node?, List.lookup_cons, dir_ne]
  induction files with
  | nil => rfl
  | cons file rest ih =>
    have file_ne : ([name] == [file.1, dir]) = false := by simp
    simp only [List.map_cons, List.lookup_cons, file_ne]
    exact ih

/-- The path from the root leads to the directory. -/
theorem leadsTo_folder (plain : IsPlain dir) (leads : isPath ("/" ++ dir) = true)
    (files : List (String × ByteArray)) : (folder dir files).LeadsTo ("/" ++ dir) [dir] where
  located := by
    have names : components ("/" ++ dir) = ["", dir] := components_append_slash "" plain.no_slash
    have start : (folder dir files).startOf ("/" ++ dir) = [] := by simp [startOf]
    have entered : (folder dir files).enter? [] dir = some [dir] := by
      have at_dir := isDirectory_folder dir files
      rw [isDirectory, decide_eq_true_eq] at at_dir
      rw [enter?_of_leadsDown plain.down rfl, at_dir]
      rfl
    have stays : (folder dir files).enter? [] "" = some [] := rfl
    rw [locate?, if_pos leads, names, start, List.foldlM_cons, stays, Option.bind_eq_bind,
      Option.bind_some, List.foldlM_cons, entered]
    rfl
  at_dir := isDirectory_folder dir files

/-- The files in the directory are read. -/
theorem read_folder {path : String} (leads : (folder dir files).LeadsTo path [dir])
    (plain : IsPlain name) (short : (joinPath path name).utf8ByteSize ≤ maxPathSize) :
    (folder dir files).read (joinPath path name) = files.lookup name := by
  rw [leads.read_joinPath plain short, node?_folder]
  cases files.lookup name <;> rfl

/-- The files in the directory are listed. -/
theorem list_folder {path : String} (leads : (folder dir files).LeadsTo path [dir])
    (short : ∀ file ∈ files, (joinPath path file.1).utf8ByteSize ≤ maxPathSize) :
    (folder dir files).list path = some (files.map fun file => ⟨file.1, true⟩) := by
  refine list_eq_some_iff.2 ⟨_, leads, ?_⟩
  have root : childOf? path [dir] ([dir], .directory) = none := by simp [childOf?]
  rw [folder, List.filterMap_cons, root, List.filterMap_map, ← List.filterMap_eq_map]
  apply List.filterMap_congr
  intro file hf
  simp [childOf?, short file hf]

/-- A file is put beside the directory, on a path that goes up first. -/
theorem target?_folder_beside {path : String} (leads : isPath path = true)
    (relative : path.toList.head? ≠ some '/') (parts : components path = ["..", name])
    (spelled : isFileName name = true) (ne : name ≠ dir) (files : List (String × ByteArray)) :
    (folder dir files).target? path = some [name] := by
  have start : (folder dir files).startOf path = [dir] := if_neg relative
  have up : (folder dir files).enter? [dir] ".." = some [] := by simp [enter?, isDirectory_folder]
  have root : (folder dir files).isDirectory [] = true := rfl
  have free : (folder dir files).isDirectory [name] = false := by
    rw [isDirectory, node?_folder_beside ne]
    rfl
  simp only [target?, parts, List.reverse_cons, List.reverse_nil, List.nil_append,
    List.cons_append, leads, if_true, start]
  simp [up, spelled, root, free]

end Koi.FileTree
