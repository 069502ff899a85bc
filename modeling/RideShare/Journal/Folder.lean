import RideShare.Journal.Publisher
import Std.Data.HashMap

/-!
# A folder of recordings

The files that publishers write to, as they stand in a folder that was empty at first and has no
folders inside. A line for a path that does not lead to a file directly in the folder is lost: the
file cannot be opened, and a publisher does not complain.
-/

namespace RideShare.Journal

/-- The lines of each file, by its name. -/
structure Folder where
  /-- The lines, first to last. -/
  files : Std.HashMap String (Array String) := ∅
  /-- How many bytes lead to the folder, in front of a path inside it. -/
  ownPathBytes : Nat := 0

namespace Folder

/-- The longest name a file may have, in bytes. -/
def maxNameBytes : Nat := 255

/-- The longest path that can be opened, in bytes. -/
def maxPathBytes : Nat := 4095

/-- Whether a file may have this name. -/
def isFileName (name : String) : Bool :=
  name != "" && name != "." && name != ".." && name.utf8ByteSize ≤ maxNameBytes

/-- The file that a path leads to. Empty steps and steps to the same folder lead nowhere else, and
there is no other folder to step to. -/
def resolve? (path : String) : Option String :=
  match (path.splitOn "/").reverse with
  | [] => none
  | name :: folders =>
    let staysHere := folders.all fun step ↦ step == "" || step == "."
    if staysHere && isFileName name then some name else none

/-- The file that is opened for a path. The path ends at a null character, and it must not be too
long together with the folder's own. -/
def fileName? (folder : Folder) (path : String) : Option String :=
  let path := upToNull path
  if folder.ownPathBytes + path.utf8ByteSize ≤ maxPathBytes then resolve? path else none

/-- Append a line to the file that is opened for a path. -/
def append (folder : Folder) (path line : String) : Folder :=
  match folder.fileName? path with
  | none => folder
  | some name =>
    match folder with
    | { files, ownPathBytes } =>
      { files := files.alter name fun lines? ↦ some ((lines?.getD #[]).push line), ownPathBytes }

/-- Write what an emission has for files. -/
def write (folder : Folder) : Emission → Folder
  | .append path line => folder.append path line
  | _ => folder

/-- Write everything in order. -/
def writeAll (folder : Folder) (emissions : List Emission) : Folder := emissions.foldl write folder

/-- The files with their lines, by name. -/
def toList (folder : Folder) : List (String × List String) :=
  (folder.files.toList.map fun (name, lines) ↦ (name, lines.toList)).mergeSort fun a b ↦ a.1 ≤ b.1

end Folder

end RideShare.Journal
