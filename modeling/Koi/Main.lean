import Koi.Command.Run
import Koi.Png

/-!
# The program

The command line on the real file system.
-/

namespace Koi.Main

/-- The result of an action, or nothing if it fails. -/
def attempt {α : Type} (action : IO α) : IO (Option α) := do
  try return some (← action) catch _ => return none

def isFile (entry : IO.FS.DirEntry) : IO Bool := do
  match ← attempt entry.path.metadata with
  | some data => return data.type == .file
  | none => return false

def listDir (dir : String) : IO (List DirEntry) := do
  if dir = "" then throw (IO.userError "no directory")
  let path ← IO.FS.realPath dir
  (← path.readDir).toList.mapM fun entry => return ⟨entry.fileName, ← isFile entry⟩

/-- The machine's own files and clock. -/
def host : Host IO where
  files :=
    { read := fun path => attempt (IO.FS.readBinFile path)
      list := fun dir => attempt (listDir dir)
      write := fun path content => return (← attempt (IO.FS.writeBinFile path content)).isSome }
  codec := Png.codec
  clock := IO.monoMsNow

end Koi.Main

def main (args : List String) : IO UInt32 := do
  let output ← Koi.Command.run Koi.Main.host args
  let out ← IO.getStdout
  let err ← IO.getStderr
  output.out.forM out.putStrLn
  output.err.forM err.putStrLn
  return output.exitCode.toUInt32
