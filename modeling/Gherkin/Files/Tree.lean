import Gherkin.Entries
import Gherkin.Files.Path
import Gherkin.Text.Quoted

/-! # Trees of files

The files that a program can see: what they hold, which directories are there, and which of these are
the working directory and the home directory. A location is the list of names from the root. -/

namespace Gherkin

/-- A place in a tree of files. -/
abbrev Location := List Text

/-- Why a file cannot be read or written. -/
inductive FileError where
  | missing (path : Path)
  | isDirectory (path : Path)
  | notDirectory (path : Path)
  | alreadyThere (path : Path)
  deriving DecidableEq, Repr

/-- The wording of an error. -/
def FileError.message : FileError → Text
  | missing path => "[Errno 2] No such file or directory: " ++ Text.quoted path.text
  | isDirectory path => "[Errno 21] Is a directory: " ++ Text.quoted path.text
  | notDirectory path => "[Errno 20] Not a directory: " ++ Text.quoted path.text
  | alreadyThere path => "[Errno 17] File exists: " ++ Text.quoted path.text

/-- A tree of files. -/
structure FileTree where
  files : Entries Location Text
  directories : List Location
  working : Location
  home : Location
  deriving DecidableEq, Repr

namespace FileTree

/-- The content of the file at a location. -/
def file? (t : FileTree) (location : Location) : Option Text := t.files.lookup location

/-- Whether there is a directory at a location: one that was made, or one above a file. -/
def isDirectory (t : FileTree) (location : Location) : Bool :=
  location.isEmpty || t.directories.any (fun d => location.isPrefixOf d) ||
    t.files.any fun (file, _) => file != location && location.isPrefixOf file

/-- Whether there is anything at a location. -/
def holds (t : FileTree) (location : Location) : Bool := (t.file? location).isSome || t.isDirectory location

/-- The location under a directory that a name leads to; two dots lead one directory up. -/
def move (location : Location) (name : Text) : Location :=
  if name = ['.', '.'] then location.dropLast else location ++ [name]

/-- The location that a path leads to. All but its last name must lead to directories. -/
def locate (t : FileTree) (p : Path) : Except FileError Location :=
  go (if p.isAbsolute then [] else t.working) p.names
where
  /-- Follows names from a location. -/
  go : Location → List Text → Except FileError Location
    | location, [] => .ok location
    | location, name :: rest =>
        if (t.file? location).isSome then .error (.notDirectory p)
        else if !t.isDirectory location then .error (.missing p)
        else go (move location name) rest

/-- Whether a path leads to a file or directory. -/
def contains (t : FileTree) (p : Path) : Bool :=
  match t.locate p with
  | .ok location => t.holds location
  | .error _ => false

/-- The lines of a text in one form: every kind of line end becomes a line feed. -/
def unifyLineEnds : Text → Text
  | [] => []
  | '\r' :: '\n' :: rest => '\n' :: unifyLineEnds rest
  | '\r' :: rest => '\n' :: unifyLineEnds rest
  | c :: rest => c :: unifyLineEnds rest

/-- Reads the file that a path leads to. -/
def read (t : FileTree) (p : Path) : Except FileError Text :=
  match t.locate p with
  | .error e => .error e
  | .ok location => match t.file? location with
    | some content => .ok (unifyLineEnds content)
    | none => .error (if t.isDirectory location then .isDirectory p else .missing p)

/-- Makes the directories that names lead to from a location. -/
def makeDirectories (p : Path) : FileTree → Location → List Text → Except FileError (FileTree × Location)
  | t, location, [] =>
      if (t.file? location).isSome then .error (.alreadyThere p) else .ok (t, location)
  | t, location, name :: rest =>
      if (t.file? location).isSome then .error (.notDirectory p)
      else
        let next := move location name
        let t := if t.holds next then t else { t with directories := t.directories ++ [next] }
        makeDirectories p t next rest

/-- Writes the file that a path leads to, making the directories above it. -/
def write (t : FileTree) (p : Path) (content : Text) : Except FileError FileTree :=
  let start := if p.isAbsolute then [] else t.working
  match makeDirectories { p with names := p.names.dropLast } t start p.names.dropLast with
  | .error e => .error e
  | .ok (t, location) =>
      let file := match p.names.getLast? with
        | some name => move location name
        | none => location
      if t.isDirectory file then .error (.isDirectory p)
      else .ok { t with files := t.files.store file content }

/-- The tree with files below some directories. -/
def ofFiles (working home : Path) (files homeFiles : List (Text × Text)) : FileTree :=
  let below (directory : Path) (entries : List (Text × Text)) : List (Location × Text) :=
    entries.map fun (name, content) => (directory.names ++ (Path.ofText name).names, content)
  { files := below working files ++ below home homeFiles
    directories := [working.names, home.names]
    working := working.names
    home := home.names }

end FileTree

/-- The end of the last name of a path from its last dot on, unless the dot stands at an end. -/
def Path.suffix (p : Path) : Text :=
  let name := (p.names.getLast?).getD []
  let extension := (name.reverse.takeWhile (· != '.')).reverse
  if !extension.isEmpty && extension.length + 1 < name.length then '.' :: extension else []

end Gherkin
