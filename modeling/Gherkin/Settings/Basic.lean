import Gherkin.Dialect.Basic
import Gherkin.Document.Parser
import Gherkin.Files.Tree
import Gherkin.Report.Collector
import Gherkin.Run.Config
import Gherkin.Settings.Tree
import Gherkin.Yaml.Reader
import Gherkin.Yaml.Writer

/-! # Settings

Settings come from a file, in one of two formats, laid over defaults. The sections of parsers, runs and
reports say how these are made. -/

/-! ### Levels of logging -/

namespace Gherkin.LogLevel

/-- The names of levels. -/
def names : List (Text × Int) := [
  ("CRITICAL", 50), ("FATAL", 50), ("ERROR", 40), ("WARN", 30), ("WARNING", 30), ("INFO", 20), ("DEBUG", 10),
  ("NOTSET", 0)]

/-- The form of log lines. -/
def format : Text := "%(asctime)s - %(name)s - %(levelname)s - %(message)s"

/-- The message for a name that no level has. -/
def unknownMessage (name : Text) : Text := "Unknown log level: " ++ name

/-- The level that a value stands for, or the name that no level has. Verbose logging is at the level for
debugging, whatever was asked for. -/
def ofValue (level : Value) (verbose : Bool) : Except Text Value :=
  if verbose then .ok (.int 10)
  else match level with
    | .text t => match names.lookup (Text.upper t) with
      | some n => .ok (.int n)
      | none => .error (Text.upper t)
    | v => .ok v

end Gherkin.LogLevel

/-! ### Settings -/

namespace Gherkin

/-- The settings, and the file that they come from and go to. -/
structure Settings where
  path : Path
  tree : Value

namespace Settings

/-- Why settings cannot be used: the file has an unknown format, holds no mapping, cannot be read, or is
written wrongly; a section is no mapping, or something on the way to a place is none; or what the
sections say is refused. -/
inductive Error where
  | unsupportedFormat (suffix : Text)
  | notMapping (path : Path)
  | file (error : FileError)
  | badJson
  | badYaml (error : Yaml.Error)
  | badSection
  | badPlace
  | unknownLevel (name : Text)
  | report (error : ReportError)

/-- The wording of an error. -/
def Error.message : Error → Text
  | unsupportedFormat suffix => "Unsupported config format: " ++ suffix
  | notMapping path => "Config file must contain a mapping: " ++ path.text
  | file error => error.message
  | badJson => "malformed settings file"
  | badYaml _ => "malformed settings file"
  | badSection => "a section must be a mapping"
  | badPlace => "a place on the way must be a mapping"
  | unknownLevel name => LogLevel.unknownMessage name
  | report error => error.message

/-- The settings without a file. -/
def defaults : Entries Text Value := [
  ("general", .map [("log_level", .text "INFO")]),
  ("parser", .map [("default_language", .text Languages.defaultCode), ("strict", .bool false)]),
  ("executor", .map ({} : RunConfig).toEntries),
  ("reporter", .map [
    ("formats", .list [.text ReportFormat.html.name, .text ReportFormat.json.name]),
    ("output_dir", .text ReportCollector.defaultDirectory)])]

/-- The format of a settings file. -/
inductive Format where
  | yaml
  | json
  deriving DecidableEq, Repr

/-- The format in which a file is read, by its suffix. -/
def formatOf? (p : Path) : Option Format :=
  if p.suffix = ".yaml" || p.suffix = ".yml" then some .yaml
  else if p.suffix = ".json" then some .json
  else none

/-- The value that a file holds. -/
def readFile (files : FileTree) (p : Path) : Except Error Value :=
  match files.read p with
  | .error e => .error (.file e)
  | .ok content => match formatOf? p with
    | none => .error (.unsupportedFormat p.suffix)
    | some .json => match Json.read? content with
      | some v => .ok v
      | none => .error .badJson
    | some .yaml => match Yaml.read content with
      | .ok v => .ok v
      | .error e => .error (.badYaml e)

/-- Loads the settings of a file. A file that is not there changes nothing, and neither does an empty
one. -/
def load (files : FileTree) (p : Path) : Except Error Settings :=
  if !files.contains p then .ok ⟨p, .map defaults⟩
  else match readFile files p with
    | .error e => .error e
    | .ok .null => .ok ⟨p, .map defaults⟩
    | .ok (.map loaded) => .ok ⟨p, .map (layer loaded defaults)⟩
    | .ok _ => .error (.notMapping p)

/-- The place of a directory's settings below a directory. -/
def inDirectory (directory : Location) (names : List Text) : Path := ⟨['/'], directory ++ names⟩

/-- The file of settings: the given one, or else the one that the environment names, or else the first
that is there of those in the working directory, below it and below the home directory. -/
def choosePath (files : FileTree) (given environment : Option Text) : Path :=
  match given, environment with
  | some (c :: t), _ => .ofText (c :: t)
  | _, some (c :: t) => .ofText (c :: t)
  | _, _ =>
      let hidden : List Text := [".qa-bdd", "config.yaml"]
      let last := inDirectory files.home hidden
      let places := [inDirectory files.working ["qa-bdd.yaml"], inDirectory files.working hidden, last]
      (places.find? fun p => files.contains p).getD last

/-- The value of a key. -/
def get (s : Settings) (key : Text) (default : Value) : Value := (get? (segments key) s.tree).getD default

/-- Sets the value of a key. -/
def set (s : Settings) (key : Text) (v : Value) : Except Error Settings :=
  match set? v (segments key) s.tree with
  | some tree => .ok { s with tree := tree }
  | none => .error .badPlace

/-- The settings as a file of the format that the suffix says. -/
def content (s : Settings) : Text :=
  match formatOf? s.path with
  | some .json => Json.write .block s.tree
  | _ => Yaml.write s.tree

/-- Saves the settings. -/
def save (s : Settings) (files : FileTree) : Except Error FileTree :=
  match files.write s.path s.content with
  | .ok files => .ok files
  | .error e => .error (.file e)

/-- A section: the value of a key, an empty mapping if it is not set. -/
def sectionOf (s : Settings) (name : Text) : Value := s.get name (.map [])

/-- The entries of a section; a value that is not set has none. -/
def entriesOf (s : Settings) (name : Text) : Except Error (Entries Text Value) :=
  let v := s.sectionOf name
  if !v.isTrue then .ok []
  else match v with
    | .map entries => .ok entries
    | _ => .error .badSection

/-- The settings of runs. -/
def runConfig (s : Settings) : Except Error RunConfig := (s.entriesOf "executor").map RunConfig.ofEntries

/-- The code of the language of feature files, which a file may give as a value of any kind. -/
def language (s : Settings) : Except Error Value :=
  (s.entriesOf "parser").map fun entries =>
    let code := (entries.lookup "default_language").getD .null
    if code.isTrue then code else .text Languages.defaultCode

/-- How feature files are read. -/
def parser (s : Settings) : Except Error Parser := do
  let code ← s.language
  let entries ← s.entriesOf "parser"
  return ⟨code.plain, ((entries.lookup "strict").getD (.bool false)).isTrue⟩

/-- How reports are made. -/
def reporter (s : Settings) : Except Error ReportCollector :=
  match s.entriesOf "reporter" with
  | .error e => .error e
  | .ok entries =>
      let directory := (entries.lookup "output_dir").getD .null
      match ReportCollector.create
        (if directory.isTrue then directory else .text ReportCollector.defaultDirectory)
        ((entries.lookup "formats").getD .null) with
      | .ok c => .ok c
      | .error e => .error (.report e)

/-- The level of logging. -/
def logLevel (s : Settings) : Except Error Value :=
  match LogLevel.ofValue (s.get "general.log_level" (.text "INFO")) false with
  | .ok level => .ok level
  | .error name => .error (.unknownLevel name)

end Settings

end Gherkin
