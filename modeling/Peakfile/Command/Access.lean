/-
# What commands do to files

A command asks for files through five operations, and so does its work in any
setting that has them: on a tree of files held as a value, or on a disk.
-/
import Peakfile.FileTree

namespace Peakfile

/-- What a command may do to files. -/
structure FileAccess (m : Type → Type) where
  /-- See whether a name can be opened for reading. -/
  probe : String → m (Except StorageError Unit)
  /-- Read a file to its end. -/
  read : String → m (Except StorageError (List UInt8))
  /-- Make an empty file, in place of what it held. -/
  create : String → m (Except StorageError Unit)
  /-- Fill a file that was made. -/
  fill : String → List UInt8 → m Unit
  /-- Read standard input to its end. -/
  standardInput : m (List UInt8)

namespace FileTree

/-- Access to a tree of files, with the given standard input. -/
def access (input : List UInt8) : FileAccess (StateM FileTree) where
  probe name := fun t => ((t.find name).map fun _ => (), t)
  read name := fun t => (t.contentOf name, t)
  create name := fun t =>
    match t.store name [] with
    | .error cause => (.error cause, t)
    | .ok t' => (.ok (), t')
  fill name content := fun t =>
    match t.store name content with
    | .error _ => ((), t)
    | .ok t' => ((), t')
  standardInput := fun t => (input, t)

end FileTree

end Peakfile
