/-
# Settings files

Settings are saved to a file, whose directories are made where they are missing, and
loaded from one.
-/
import Peakfile.Settings.Text
import Peakfile.FileTree

namespace Peakfile

namespace Settings

/-- Make the directories that a file stands in. -/
def makeRoom (t : FileTree) (name : String) : Except StorageError FileTree :=
  match FileName.parent? name with
  | none => .ok t
  | some parent => t.makeDirectories parent

/-- Save settings to a file. -/
def save (s : Settings) (t : FileTree) (name : String) : Except Error FileTree :=
  match makeRoom t name with
  | .error cause => .error (.device cause)
  | .ok t =>
    match t.store name s.write.toUTF8.toList with
    | .error cause => .error (.device cause)
    | .ok t => .ok t

variable [Json.NumberReading]

/-- Load settings from what reading a file gave. -/
def ofReading : Except StorageError (List UInt8) → Except Error Settings
  | .error cause => .error (.device cause)
  | .ok bytes => ofBytes bytes

/-- Load settings from a file. -/
def load (t : FileTree) (name : String) : Except Error Settings := ofReading (t.contentOf name)

end Settings

end Peakfile
