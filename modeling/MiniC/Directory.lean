import MiniC.Path

/-! # Reading files

`Directory.read` says what reading a path gives in a working directory that holds known files and
nothing else. Paths are followed component by component, so every directory on the way must exist,
also one that the path leaves again by going up. Of the directories above the working directory
only the known files are there. The contents of a file must be UTF-8.
-/

namespace MiniC

inductive ReadError
  | notFound
  | denied
  | invalidText
  | failed (reason : String)
  deriving DecidableEq, Repr

namespace ReadError

def isDirectory : ReadError := failed "Is a directory (os error 21)"

def notDirectory : ReadError := failed "Not a directory (os error 20)"

def nameTooLong : ReadError := failed "File name too long (os error 36)"

def message (path : String) : ReadError → String
  | notFound => "cannot find file '" ++ path ++ "'"
  | denied => "permission denied reading '" ++ path ++ "'"
  | invalidText => "'" ++ path ++ "' contains invalid UTF-8 data"
  | failed reason => "error reading '" ++ path ++ "': " ++ reason

end ReadError

def decodeText (bytes : ByteArray) : Except ReadError String :=
  match String.fromUTF8? bytes with
  | some text => .ok text
  | none => .error .invalidText

/-- What a path leads to from the working directory, as components with the innermost first; all
steps up come before the first name. -/
abbrev Location := List String

namespace Location

def up : Location → Location
  | [] => [".."]
  | name :: outer => if name = ".." then ".." :: name :: outer else outer

def follow (l : Location) (component : String) : Location :=
  if component = ".." then l.up else component :: l

end Location

/-- Files, and the directories that were made for them, the last ones first. -/
structure Directory where
  files : List (Location × ByteArray) := []
  directories : List Location := []

namespace Directory

/-- Put a file where some components lead from a location, and make the directories on the way. -/
def putFrom (d : Directory) (l : Location) (contents : ByteArray) : List String → Directory
  | [] => d
  | [name] => { d with files := (l.follow name, contents) :: d.files }
  | component :: rest =>
    let inner := l.follow component
    putFrom { d with directories := inner :: d.directories } inner contents rest

/-- Put a file at a path; a file that is there is written over. -/
def put (d : Directory) (path : String) (contents : ByteArray) : Directory :=
  d.putFrom [] contents (Path.components path)

/-- The directory that holds some files, put there in their order. -/
def ofFiles (files : List (String × ByteArray)) : Directory :=
  files.foldl (fun d file => d.put file.1 file.2) {}

/-- Where a path has led so far. -/
inductive Place
  | directory (l : Location)
  /-- The root of all directories, or any directory reached from there by going up. -/
  | root
  | file (contents : ByteArray)

/-- The longest name of a file and the longest path, in bytes. -/
def nameLimit : Nat := 255

def pathLimit : Nat := 4095

def file? (d : Directory) (l : Location) : Option ByteArray :=
  (d.files.find? (·.1 = l)).map (·.2)

/-- What a name leads to from a directory that holds no more than known files. -/
def enter (d : Directory) (l : Location) (name : String) : Except ReadError Place :=
  match d.file? (name :: l) with
  | some contents => .ok (.file contents)
  | none => if name :: l ∈ d.directories then .ok (.directory (name :: l)) else .error .notFound

/-- Follow one component of a path. -/
def step (d : Directory) (place : Place) (component : String) : Except ReadError Place :=
  match place with
  | .file _ => .error .notDirectory
  | .root =>
    if component = ".." then .ok .root
    else if nameLimit < component.utf8ByteSize then .error .nameTooLong
    else .error .notFound
  | .directory l =>
    if component = ".." then .ok (.directory l.up)
    else if nameLimit < component.utf8ByteSize then .error .nameTooLong
    else d.enter l component

/-- Whether a path says that it names a directory, by a slash or a dot behind its last name. -/
def namesDirectory (path : String) : Bool :=
  match path.toList.reverse with
  | '/' :: _ => true
  | '.' :: '/' :: _ => true
  | _ => false

def read (d : Directory) (path : String) : Except ReadError String := do
  if path.isEmpty then throw .notFound
  if pathLimit < path.utf8ByteSize then throw .nameTooLong
  let start := if path.toList.head? = some '/' then Place.root else .directory []
  match ← (Path.components path).foldlM d.step start with
  | .file contents => if namesDirectory path then throw .notDirectory else decodeText contents
  | _ => throw .isDirectory

end Directory

end MiniC
