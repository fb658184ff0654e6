/-!
# Access to files

The library reads and writes files through a few operations, so that it runs on a real file system
and on one that exists in memory only.

* `FileAccess`: the operations, in any monad.
* `joinPath`: a file in a directory.
-/

namespace Koi

/-- An entry of a directory. -/
structure DirEntry where
  name : String
  /-- Whether it is a regular file. -/
  isFile : Bool
  deriving DecidableEq, Repr

/-- The operations on files. -/
structure FileAccess (m : Type → Type) where
  /-- The content of a file, if it can be read. -/
  read : String → m (Option ByteArray)
  /-- The entries of a directory in any order, if it can be read. -/
  list : String → m (Option (List DirEntry))
  /-- Writes a file, in the place of an older one; whether that was possible. -/
  write : String → ByteArray → m Bool

/-- The path of a file in a directory. An empty path leads to no other directory. -/
def joinPath (dir file : String) : String :=
  if dir = "" ∨ dir.endsWith "/" then dir ++ file else dir ++ "/" ++ file

end Koi
