import Stencil.Source

/-!
A folder of named files, read by path as a program that runs in it would. A
path is walked one name at a time, from the root if it begins with a slash and
from the folder otherwise. Only a directory can be walked further: after a file
there is no next name, not even a dot or the empty name behind a last slash.
-/
namespace Stencil

structure Folder where
  files : List (Text × Bytes)
  standardInput : Bytes
  deriving DecidableEq, Repr

/-- The directories in reach. Those around the folder hold nothing that is known. -/
inductive Directory where
  | folder
  | around
  | root
  | devices
  deriving DecidableEq, Repr

inductive Place where
  | directory (here : Directory)
  | file (content : Bytes)
  deriving DecidableEq, Repr

-- The root is its own parent.
def Directory.parent : Directory → Directory
  | .folder | .around => .around
  | .root | .devices => .root

def nameLimit : Nat := 255

def pathLimit : Nat := 4095

namespace Folder

/-- What a directory holds under a name. The null device is a file without
content, and standard input is a file as well. -/
def entry? (folder : Folder) (here : Directory) (name : Text) : Option Place :=
  match here with
  | .folder => (folder.files.lookup name).map Place.file
  | .around => none
  | .root => if name = "dev".toList then some (.directory .devices) else none
  | .devices =>
      if name = "null".toList then some (.file [])
      else if name = "stdin".toList then some (.file folder.standardInput)
      else none

def step (folder : Folder) : Place → Text → Except ReadFault Place
  | .file _, _ => .error .notDirectory
  | .directory here, name =>
      if name = [] ∨ name = ['.'] then .ok (.directory here)
      else if name = ['.', '.'] then .ok (.directory here.parent)
      else if nameLimit < Text.byteSize name then .error .nameTooLong
      else
        match folder.entry? here name with
        | some place => .ok place
        | none => .error .missing

def locate (folder : Folder) (path : Text) : Except ReadFault Place :=
  if path = [] then .error .missing
  else if pathLimit < Text.byteSize path then .error .nameTooLong
  else
    let start := if path.head? = some '/' then Directory.root else Directory.folder
    (path.splitOn '/').foldlM folder.step (Place.directory start)

def read (folder : Folder) (path : Text) : Except ReadFault Bytes :=
  match folder.locate path with
  | .error fault => .error fault
  | .ok (.directory _) => .error .directory
  | .ok (.file content) => .ok content

def supply (folder : Folder) : Supply := ⟨folder.standardInput, folder.read⟩

end Folder
end Stencil
