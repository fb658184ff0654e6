import Koi.Files.Tree.Lemmas
import Koi.Image.Codec
import Koi.Proofs.Mask.Coherence

/-!
# Work on files

Work on files ends with a result or is halted, and leaves a world. What the world is made of does
not matter here: it is a file system, or a tree of files in memory. Reading shows the files of the
world, and writing may leave any world if it fails.

* `perform`: what work on files comes to, and the world that it leaves.
* `FileAccess.view`: what can be read in a world.
* `FileAccess.IsPassive`: reading leaves the world as it is; `perform_read` and `perform_list` say
  what it comes to then.
* `FileAccess.ReadsBack`: what is written at a path is read back there.
* `perform_save`, `FileTree.perform_save`: writing the file of an image.
-/

namespace Koi

section

variable {σ α β : Type} {world left : σ}

/-- What work on files comes to in a world, and the world that it leaves. -/
def perform (world : σ) (work : ExceptT Halt (StateM σ) α) : Except Halt α × σ :=
  work.run.run world

@[simp] theorem perform_pure (world : σ) (a : α) : perform world (pure a) = (.ok a, world) :=
  rfl

/-- A failure of a part that uses no files halts the work. -/
@[simp] theorem perform_liftM (world : σ) (result : Except Error α) :
    perform world (liftM result) = (result.mapError .failure, world) :=
  rfl

/-- Work goes on after a first part that succeeds. -/
theorem perform_bind_ok {work : ExceptT Halt (StateM σ) α} {a : α}
    (h : perform world work = (.ok a, left)) (next : α → ExceptT Halt (StateM σ) β) :
    perform world (work >>= next) = perform left (next a) :=
  run_bind_ok h next

/-- Work ends with a first part that is halted. -/
theorem perform_bind_error {work : ExceptT Halt (StateM σ) α} {halt : Halt}
    (h : perform world work = (.error halt, left)) (next : α → ExceptT Halt (StateM σ) β) :
    perform world (work >>= next) = (.error halt, left) :=
  run_bind_error h next

end

/-! ## Reading and writing -/

/-- What can be read of some files. -/
structure FileView where
  /-- The content of a file, if it can be read. -/
  read : String → Option ByteArray
  /-- The entries of a directory in any order, if it can be read. -/
  list : String → Option (List DirEntry)

namespace FileAccess

variable {σ : Type} (files : FileAccess (StateM σ))

/-- What can be read in a world. -/
def view (world : σ) : FileView where
  read path := ((files.read path).run world).1
  list path := ((files.list path).run world).1

/-- Reading leaves the world as it is. -/
structure IsPassive : Prop where
  read : ∀ path world, ((files.read path).run world).2 = world
  list : ∀ path world, ((files.list path).run world).2 = world

/-- What is written at a path is read back there, as in any regular file. -/
def ReadsBack (path : String) : Prop :=
  ∀ content world written, (files.write path content).run world = (true, written) →
    (files.view written).read path = some content

end FileAccess

section

variable {σ : Type} {files : FileAccess (StateM σ)}

theorem perform_read (passive : files.IsPassive) (path : String) (world : σ) :
    perform world (liftM (files.read path)) = (.ok ((files.view world).read path), world) :=
  congrArg (Prod.mk _) (passive.read path world)

theorem perform_list (passive : files.IsPassive) (path : String) (world : σ) :
    perform world (liftM (files.list path)) = (.ok ((files.view world).list path), world) :=
  congrArg (Prod.mk _) (passive.list path world)

/-- Writing the file of an image comes to what writing its content comes to. -/
theorem perform_save (codec : ImageCodec) (files : FileAccess (StateM σ)) (path : String)
    {image : Image} {file : ByteArray} (encoded : codec.encode? image = some file) (world : σ) :
    perform world (codec.save files path image) =
      match (files.write path file).run world with
      | (true, written) => (.ok (), written)
      | (false, left) => (.error (.failure (.notWritten path)), left) := by
  have put : perform world (liftM (files.write path file)) =
      (.ok ((files.write path file).run world).1, ((files.write path file).run world).2) := rfl
  unfold ImageCodec.save
  simp only [encoded, Option.getD_some, Option.isNone_some, Bool.or_false]
  rw [perform_bind_ok put]
  rcases (files.write path file).run world with ⟨_ | _, left⟩ <;> rfl

/-- An image without a file cannot be saved. -/
theorem perform_save_of_encode?_eq_none (codec : ImageCodec) (files : FileAccess (StateM σ))
    (path : String) {image : Image} (encoded : codec.encode? image = none) (world : σ) : ∃ left,
    perform world (codec.save files path image) = (.error (.failure (.notWritten path)), left) := by
  have put : perform world (liftM (files.write path .empty)) =
      (.ok ((files.write path .empty).run world).1, ((files.write path .empty).run world).2) := rfl
  refine ⟨((files.write path .empty).run world).2, ?_⟩
  unfold ImageCodec.save
  simp only [encoded, Option.getD_none, Option.isNone_none, Bool.or_true, if_true]
  exact (perform_bind_ok put _).trans rfl

end

/-! ## Trees -/

namespace FileTree

/-- What can be read in a tree. -/
abbrev view (tree : FileTree) : FileView := access.view tree

theorem read_view (tree : FileTree) : tree.view.read = tree.read :=
  rfl

theorem list_view (tree : FileTree) : tree.view.list = tree.list :=
  rfl

theorem isPassive_access : access.IsPassive where
  read _ _ := rfl
  list _ _ := rfl

theorem run_write (tree : FileTree) (path : String) (content : ByteArray) :
    (access.write path content).run tree =
      match tree.target? path with
      | some place => (true, tree.set place (.file content))
      | none => (false, tree) := by
  simp only [access, write, StateT.run_modifyGet]
  cases tree.target? path <;> rfl

theorem readsBack_access (path : String) : access.ReadsBack path := by
  intro content tree written h
  rw [run_write] at h
  cases target : tree.target? path with
  | none =>
    rw [target] at h
    cases congrArg Prod.fst h
  | some place =>
    rw [target] at h
    have put : tree.write path content = some written := by
      rw [write, target, Option.map_some]
      exact congrArg (some ∘ Prod.snd) h
    exact read_of_write put

theorem perform_save {codec : ImageCodec} {image : Image} {file : ByteArray}
    (encoded : codec.encode? image = some file) (tree : FileTree) (path : String) :
    perform tree (codec.save access path image) =
      match tree.target? path with
      | some place => (.ok (), tree.set place (.file file))
      | none => (.error (.failure (.notWritten path)), tree) := by
  rw [Koi.perform_save codec access path encoded, run_write]
  cases tree.target? path <;> rfl

end FileTree

end Koi
