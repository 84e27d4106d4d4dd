/-
# File trees

Files and directories by name, as one process in its working directory sees them.  A
name is walked segment by segment from there, and every refusal has a cause of its own.
-/
import Peakfile.Error

namespace Peakfile

/-! ## Names -/

namespace FileName

/-- The segments between the slashes of a name; empty ones do not count. -/
def segments (name : String) : List String :=
  (name.toList.splitOn '/').filterMap fun segment =>
    if segment = [] then none else some (String.ofList segment)

/-- Whether a name ends in a slash. -/
def endsInSlash (name : String) : Bool := name.toList.getLast? = some '/'

/-- Whether a name starts at the root. -/
def isRooted (name : String) : Bool := name.toList.head? = some '/'

/-- Whether a piece of a name between slashes leads nowhere. -/
def isIdle (piece : List Char) : Bool := piece = [] || piece = ['.']

/-- Pieces of a name without the idle ones at the end. -/
def trimEnd (pieces : List (List Char)) : List (List Char) :=
  (pieces.reverse.dropWhile isIdle).reverse

/-- The name with the given pieces. -/
def ofPieces (pieces : List (List Char)) : String :=
  String.ofList (['/'].intercalate pieces)

/-- The name of the directory that a name stands in: the name without its last piece and
without what is idle around it, and otherwise as it was written.  The root and the empty
name stand in none. -/
def parent? (name : String) : Option String :=
  match name.toList.splitOn '/' with
  | [] => none
  | first :: rest =>
    match trimEnd rest with
    | [] => if first = [] then none else some ""
    | pieces =>
      match trimEnd pieces.dropLast with
      | [] => some (if first = [] then "/" else String.ofList first)
      | kept => some (ofPieces (first :: kept))

/-- The most bytes of a segment. -/
def longestSegment : Nat := 255

/-- The most bytes of a name. -/
def longest : Nat := 4095

end FileName

/-! ## Trees -/

/-- What stands at a place in a tree. -/
inductive Entry where
  | directory
  | file (content : List UInt8)
  deriving DecidableEq

/-- A place: the names that lead to it from the working directory.  A place outside the
tree starts with a step up for each level above, or with the root. -/
abbrev Place := List String

namespace Place

/-- The root, above everything. -/
def root : Place := ["/"]

/-- Where a name starts. -/
def start (name : String) : Place := if FileName.isRooted name then root else []

/-- Whether a place is a directory that needs no entry: the working directory, one of
those above it, or the root. -/
def isGiven (place : Place) : Bool := place.all (· = "..") || place = root

/-- The place one level up.  Nothing is above the root. -/
def up (place : Place) : Place :=
  if place = root then root
  else if isGiven place then place ++ [".."]
  else place.dropLast

/-- Whether a place lies in the tree of the working directory. -/
def isInside (place : Place) : Bool := place.head? ≠ some ".." && place.head? ≠ some "/"

end Place

/-- The entries of a tree.  Of what lies outside, only what was put there is known. -/
structure FileTree where
  entries : List (Place × Entry)
  deriving DecidableEq

namespace FileTree

/-- The tree with nothing in it. -/
def empty : FileTree := ⟨[]⟩

/-- What stands at a place. -/
def entry? (t : FileTree) (place : Place) : Option Entry :=
  if Place.isGiven place then some .directory else t.entries.lookup place

/-- Put an entry at a place, over what stood there. -/
def put (t : FileTree) (place : Place) (entry : Entry) : FileTree :=
  ⟨t.entries.filter (·.1 ≠ place) ++ [(place, entry)]⟩

/-- Take one step from a place. -/
def step (t : FileTree) (place : Place) (segment : String) : Except StorageError Place :=
  match t.entry? place with
  | none => .error .noSuchFile
  | some (.file _) => .error .notADirectory
  | some .directory =>
    if segment = "." then .ok place
    else if segment = ".." then .ok (Place.up place)
    else if FileName.longestSegment < segment.utf8ByteSize then .error .nameTooLong
    else .ok (place ++ [segment])

/-- Walk along segments.  Where they lead to a directory as they stand, no step of the walk
can fail, since a directory is only ever made in one. -/
def walk (t : FileTree) (start : Place) (segments : List String) : Except StorageError Place :=
  if t.entry? (start ++ segments) = some .directory then .ok (start ++ segments)
  else segments.foldlM t.step start

/-- Refuse names that no file can have. -/
def checkName (name : String) : Except StorageError Unit :=
  if name.toList.contains '\x00' then .error .nulInName
  else if name = "" then .error .noSuchFile
  else if FileName.longest < name.utf8ByteSize then .error .nameTooLong
  else .ok ()

/-- Where an existing file or directory stands.  Only a directory may be named with a
slash at the end. -/
def find (t : FileTree) (name : String) : Except StorageError (Place × Entry) := do
  checkName name
  let place ← t.walk (Place.start name) (FileName.segments name)
  match t.entry? place with
  | none => .error .noSuchFile
  | some .directory => .ok (place, .directory)
  | some (.file content) =>
    if FileName.endsInSlash name then .error .notADirectory else .ok (place, .file content)

/-- Whether a name stands for a directory. -/
def isDirectory (t : FileTree) (name : String) : Bool :=
  match t.find name with
  | .ok (_, .directory) => true
  | _ => false

/-- The bytes of a file. -/
def contentOf (t : FileTree) (name : String) : Except StorageError (List UInt8) :=
  match t.find name with
  | .error cause => .error cause
  | .ok (_, .directory) => .error .isADirectory
  | .ok (_, .file content) => .ok content

/-- The place of a file that may be created or overwritten.  That a name stands for a
directory is seen from its end alone, before its last segment is looked up. -/
def placeToWrite (t : FileTree) (name : String) : Except StorageError Place := do
  checkName name
  match (FileName.segments name).getLast? with
  | none => .error .isADirectory
  | some last =>
    let parent ← t.walk (Place.start name) (FileName.segments name).dropLast
    let home ← t.step parent "."
    if last = "." ∨ last = ".." ∨ FileName.endsInSlash name then .error .isADirectory
    else
      let place ← t.step home last
      if t.entry? place = some .directory then .error .isADirectory else .ok place

/-- Write a file, over what it held. -/
def store (t : FileTree) (name : String) (content : List UInt8) :
    Except StorageError FileTree :=
  (t.placeToWrite name).map fun place => t.put place (.file content)

/-- Make one directory. -/
def makeDirectory (t : FileTree) (name : String) : Except StorageError FileTree := do
  checkName name
  match (FileName.segments name).getLast? with
  | none => .error .fileExists
  | some last =>
    let parent ← t.walk (Place.start name) (FileName.segments name).dropLast
    let place ← t.step parent last
    if last = "." ∨ last = ".." ∨ (t.entry? place).isSome then .error .fileExists
    else .ok (t.put place .directory)

/-- Make a directory after the ones it stands in, at most `depth` of them. -/
def makeDirectoriesWithin : (depth : Nat) → FileTree → (name : String) →
    Except StorageError FileTree
  | 0, t, _ => .ok t
  | depth + 1, t, name =>
    if name = "" then .ok t
    else
      match t.makeDirectory name with
      | .ok t' => .ok t'
      | .error .noSuchFile =>
        match FileName.parent? name with
        | none => .error .noSuchFile
        | some parent =>
          match makeDirectoriesWithin depth t parent with
          | .error cause => .error cause
          | .ok t' =>
            match t'.makeDirectory name with
            | .ok t'' => .ok t''
            | .error cause => if t'.isDirectory name then .ok t' else .error cause
      | .error cause => if t.isDirectory name then .ok t else .error cause

/-- Make a directory and those that it stands in, where they are missing. -/
def makeDirectories (t : FileTree) (name : String) : Except StorageError FileTree :=
  makeDirectoriesWithin (name.length + 1) t name

end FileTree

end Peakfile
