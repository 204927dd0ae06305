import SchemaWire.Bytes
import SchemaWire.Stream.Error
import SchemaWire.Text.Words

/-! Directories held in memory, in which paths lead to files as they do on a disk. -/

set_option autoImplicit false

namespace SchemaWire.CommandLine

abbrev Location := List String

structure Directory where
  files : List (Location × Bytes)
  directories : List Location
  deriving DecidableEq, Repr

namespace Directory

def components (path : String) : Location :=
  (Text.pieces (· == '/') path.toList).map String.ofList

def locate (path : String) : Location := (components path).filter fun name => name ≠ "" ∧ name ≠ "."

def ofFiles (files : List (String × Bytes)) (directories : List String) : Directory :=
  ⟨files.map fun (path, contents) => (locate path, contents), directories.map locate⟩

/-- Whether there is a directory: it was made, or something lies below it. -/
def hasDirectory (directory : Directory) (location : Location) : Bool :=
  location.isEmpty || (directory.directories ++ directory.files.map (·.1.dropLast)).any
    fun place => location.isPrefixOf place

/-- Follow the components of a path from a directory. Above the outermost directory there is only
itself. A file can only be the last component. -/
def follow (directory : Directory) (location : Location) :
    List String → Except IoError Bytes
  | [] => .error .isDirectory
  | name :: rest =>
    if name = "" ∨ name = "." then follow directory location rest
    else if name = ".." then follow directory location.dropLast rest
    else
      let next := location ++ [name]
      match directory.files.lookup next with
      | some contents => if rest.isEmpty then .ok contents else .error .notDirectory
      | none =>
        if directory.hasDirectory next then follow directory next rest else .error .noSuchFile

def contentsAt (directory : Directory) (path : String) : Except IoError Bytes :=
  if path = "" then .error .noSuchFile else directory.follow [] (components path)

end Directory

end SchemaWire.CommandLine
