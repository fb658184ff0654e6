import Koi.Files.Tree

/-!
# Reading what was written

Putting a file where no directory stands leaves every directory where it was. So a path leads to
the same place as before, and from there the file is read back.

* `FileTree.foldlM_enter?_set_file`: paths into directories are not disturbed.
* `FileTree.read_of_write`: a file that has been written is read back.
-/

namespace Koi.FileTree

theorem isDirectory_set_file (tree : FileTree) (content : ByteArray) {place other : Place}
    (free : tree.isDirectory place = false) (dir : tree.isDirectory other = true) :
    (tree.set place (.file content)).isDirectory other = true := by
  have h : other ≠ place := by
    rintro rfl
    rw [free] at dir
    exact Bool.false_ne_true dir
  rw [isDirectory, node?_set_of_ne tree _ h]
  exact dir

theorem isDirectory_of_enter? {tree : FileTree} {place next : Place} {name : String}
    (h : tree.enter? place name = some next) : tree.isDirectory place = true := by
  cases hd : tree.isDirectory place with
  | true => rfl
  | false => simp [enter?, hd] at h

theorem isDirectory_of_foldlM_enter? {tree : FileTree} {names : List String} {place last : Place}
    (h : names.foldlM tree.enter? place = some last) (dir : tree.isDirectory last = true) :
    tree.isDirectory place = true := by
  cases names with
  | nil =>
    obtain rfl : place = last := by simpa using h
    exact dir
  | cons name rest =>
    obtain ⟨next, hn, -⟩ := Option.bind_eq_some_iff.1 (by simpa using h)
    exact isDirectory_of_enter? hn

/-- A step into a directory is not disturbed by a file that is put where no directory stands. -/
theorem enter?_set_file {tree : FileTree} (content : ByteArray) {place here next : Place}
    {name : String} (free : tree.isDirectory place = false)
    (h : tree.enter? here name = some next) (dir : tree.isDirectory next = true) :
    (tree.set place (.file content)).enter? here name = some next := by
  have hat := isDirectory_of_enter? h
  unfold enter? at h ⊢
  simp only [hat, isDirectory_set_file tree content free hat, Bool.not_true, Bool.false_eq_true,
    ite_false] at h ⊢
  by_cases dot : name = "" ∨ name = "."
  · rw [if_pos dot] at h ⊢
    exact h
  · rw [if_neg dot] at h ⊢
    by_cases up : name = ".."
    · rw [if_pos up] at h ⊢
      exact h
    · rw [if_neg up] at h ⊢
      by_cases known : (tree.node? (name :: here)).isSome = true
      · rw [if_pos known] at h
        obtain rfl : name :: here = next := Option.some.inj h
        have hne : name :: here ≠ place := by
          rintro rfl
          rw [free] at dir
          exact Bool.false_ne_true dir
        rw [node?_set_of_ne tree _ hne, if_pos known]
      · rw [if_neg known] at h
        exact absurd h (by simp)

/-- A path into a directory is not disturbed either. -/
theorem foldlM_enter?_set_file {tree : FileTree} (content : ByteArray) {place : Place}
    (free : tree.isDirectory place = false) {names : List String} {here last : Place}
    (h : names.foldlM tree.enter? here = some last) (dir : tree.isDirectory last = true) :
    names.foldlM (tree.set place (.file content)).enter? here = some last := by
  induction names generalizing here with
  | nil => exact h
  | cons name rest ih =>
    rw [List.foldlM_cons] at h ⊢
    obtain ⟨next, hn, hr⟩ := Option.bind_eq_some_iff.1 h
    have hd := isDirectory_of_foldlM_enter? hr dir
    exact Option.bind_eq_some_iff.2 ⟨next, enter?_set_file content free hn hd, ih hr⟩

theorem startOf_set (tree : FileTree) (place : Place) (node : Node) (path : String) :
    (tree.set place node).startOf path = tree.startOf path :=
  rfl

/-- What it takes for a path to put a file at a place: the names before the last one lead to a
    directory, and no directory stands at the last one. -/
theorem exists_of_target? {tree : FileTree} {path : String} {place : Place}
    (h : tree.target? path = some place) : ∃ before name dir, place = name :: dir ∧
      isPath path = true ∧ components path = before ++ [name] ∧
      before.foldlM tree.enter? (tree.startOf path) = some dir ∧ isFileName name = true ∧
      tree.isDirectory dir = true ∧ tree.isDirectory (name :: dir) = false := by
  unfold target? at h
  cases hc : (components path).reverse with
  | nil => simp [hc] at h
  | cons name before =>
    have hpath : components path = before.reverse ++ [name] := by
      rw [← List.reverse_reverse (components path), hc, List.reverse_cons]
    by_cases leads : isPath path = true
    · simp only [hc, leads, if_true] at h
      obtain ⟨dir, hd, hp⟩ := Option.bind_eq_some_iff.1 h
      by_cases ok :
          (isFileName name && tree.isDirectory dir && !tree.isDirectory (name :: dir)) = true
      · rw [if_pos ok] at hp
        simp only [Bool.and_eq_true, Bool.not_eq_true'] at ok
        obtain ⟨⟨spelled, at_dir⟩, free⟩ := ok
        exact ⟨before.reverse, name, dir, (Option.some.inj hp).symm, leads, hpath, hd, spelled,
          at_dir, free⟩
      · rw [if_neg ok] at hp
        cases hp
    · simp [hc, leads] at h

/-- A file that has been written is read back. -/
theorem read_of_write {tree written : FileTree} {path : String} {content : ByteArray}
    (h : tree.write path content = some written) : written.read path = some content := by
  obtain ⟨place, ht, rfl⟩ := Option.map_eq_some_iff.1 h
  obtain ⟨before, name, dir, rfl, leads, hpath, hd, spelled, at_dir, free⟩ := exists_of_target? ht
  have hfold := foldlM_enter?_set_file content free hd at_dir
  have hstep : (tree.set (name :: dir) (.file content)).enter? dir name = some (name :: dir) := by
    simp only [isFileName, Bool.and_eq_true, decide_eq_true_eq] at spelled
    simp [enter?, isDirectory_set_file tree content free at_dir, node?_set_self, spelled]
  have hloc : (tree.set (name :: dir) (.file content)).locate? path = some (name :: dir) := by
    rw [locate?, if_pos leads, hpath, List.foldlM_append, startOf_set, hfold]
    simpa using hstep
  simp [read, hloc, node?_set_self]

end Koi.FileTree
