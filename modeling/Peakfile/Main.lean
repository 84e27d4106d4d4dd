/-
# The program

The disk, standard input and the two outputs, and nothing else.
-/
import Peakfile.Command.Run

namespace Peakfile

/-- The cause of a failed file operation. -/
def StorageError.ofSystem : IO.Error → StorageError
  | .noFileOrDirectory .. => .noSuchFile
  | .alreadyExists .. => .fileExists
  | .inappropriateType _ code _ => if code = 21 then .isADirectory else .notADirectory
  | .invalidArgument .. => .nulInName
  | cause => .other (toString cause)

/-- Do something with a file and catch its failure. -/
def attempt {α : Type} (action : IO α) : IO (Except StorageError α) := do
  match ← action.toBaseIO with
  | .ok value => return .ok value
  | .error cause => return .error (.ofSystem cause)

/-- Access to the disk. -/
def diskAccess : FileAccess IO where
  probe name := attempt do
    let _ ← IO.FS.Handle.mk name .read
    return ()
  read name := attempt do
    return (← IO.FS.readBinFile name).toList
  create name := attempt (IO.FS.writeBinFile name ByteArray.empty)
  fill name content := IO.FS.writeBinFile name ⟨content.toArray⟩
  standardInput := do
    return (← (← IO.getStdin).readBinToEnd).toList

end Peakfile

/-- Run the command line and leave with its code. -/
def main (arguments : List String) : IO UInt32 := do
  let outcome ← Peakfile.Command.run Peakfile.diskAccess arguments
  IO.print outcome.out
  IO.eprint outcome.err
  return UInt32.ofNat outcome.code
