import Gherkin.Files.Tree
import Gherkin.Report.Tree
import Gherkin.Run.Runner

/-! # What a runner is given

A runner takes documents, the text of a document, or the paths of feature files, which it reads first. -/

namespace Gherkin

/-- What is to be run. The paths of files are values, each of which is checked when its turn comes. -/
inductive RunInput where
  | documents (documents : List Document)
  | text (text : Text) (uri : Option Text)
  | paths (paths : List Value)

/-- Why something cannot be run. -/
inductive InputError where
  | notReady (status : RunnerStatus)
  | unsupported (kindName : Text)
  | nothing
  | badValue (value : Value)
  | missingFile (path : Path)
  | unreadable (error : FileError)
  | malformed (error : ParseError)

/-- The wording of an error. -/
def InputError.message : InputError → Text
  | notReady .error => Runner.info.name ++ " failed to initialize"
  | notReady _ => Runner.info.name ++ " is not initialized"
  | unsupported kindName => "Unsupported input for execute(): " ++ kindName
  | nothing => "execute() needs 'documents', 'feature_text', 'feature_path' or 'feature_paths'"
  | badValue value => "unexpected " ++ value.kindName
  | missingFile path => "Feature file not found: " ++ path.text
  | unreadable error => error.message
  | malformed error => error.message

namespace RunInput

/-- The items of a value that may be gone through: those of a list, the characters of a text and the keys
of a mapping; a value that is not set has none. -/
def itemsOf (v : Value) : Except InputError (List Value) :=
  if !v.isTrue then .ok []
  else match v with
    | .list items => .ok items
    | .text t => .ok (t.map fun c => .text [c])
    | .map entries => .ok (entries.map fun (key, _) => .text key)
    | v => .error (.badValue v)

/-- The path that a value names. -/
def pathOf (v : Value) : Except InputError Path :=
  match v with
  | .text t => .ok (.ofText t)
  | v => .error (.badValue v)

/-- The paths that the entries of a mapping name: the single one, and then the others. -/
def pathsOf (entries : Entries Text Value) : Except InputError RunInput := do
  let others ← itemsOf ((entries.lookup "feature_paths").getD .null)
  let single := (entries.lookup "feature_path").getD .null
  let all := if single.isTrue then single :: others else others
  if all.isEmpty then throw .nothing
  return .paths all

/-- What a value asks to run. -/
def ofValue (v : Value) : Except InputError RunInput :=
  match v with
  | .map entries => match v.field? "feature_text" with
    | some (.text t) =>
        let uri := match v.field? "uri" with
          | some (.text uri) => some uri
          | _ => none
        .ok (.text t uri)
    | some other => .error (.badValue other)
    | none => pathsOf entries
  | v => .error (.unsupported v.kindName)

end RunInput

/-- Reads a feature file. -/
def Parser.parseFile (p : Parser) (languages : Languages) (files : FileTree) (path : Path) :
    Except InputError Document :=
  match files.read path with
  | .error e => .error (.unreadable e)
  | .ok content => match p.parse languages content (some path.text) with
    | .ok document => .ok document
    | .error e => .error (.malformed e)

/-- What comes of running something: the result, and why the hooks around the run failed, if they did. -/
structure Execution where
  result : RunResult

namespace Execution

/-- Whether the run succeeded. -/
def success (e : Execution) : Bool := e.result.success

/-- What the hooks around the run failed with. -/
def error (e : Execution) : Option Text := e.result.hookError.map Failure.message

/-- What is told besides the result. -/
def metadata (e : Execution) : Value := .ofFields [("summary", e.result.summary.toValue)]

end Execution

namespace Runner

variable {η θ ω σ : Type}

/-- Whether a runner may be used. -/
def ensureReady (r : Runner η θ) : Except InputError Unit :=
  match r.status with
  | .error | .notInitialized => .error (.notReady r.status)
  | .ready | .running => .ok ()

/-- The document of a file that must be there. -/
def documentAt (r : Runner η θ) (languages : Languages) (files : FileTree) (place : Value) :
    Except InputError Document :=
  match RunInput.pathOf place with
  | .error e => .error e
  | .ok path =>
      if files.contains path then r.parser.parseFile languages files path else .error (.missingFile path)

/-- The documents that an input stands for. -/
def collect (r : Runner η θ) (languages : Languages) (files : FileTree) :
    RunInput → Except InputError (List Document)
  | .documents documents => .ok documents
  | .text text uri => match r.parser.parse languages text uri with
    | .ok document => .ok [document]
    | .error e => .error (.malformed e)
  | .paths paths => paths.mapM (r.documentAt languages files)

/-- The documents of an input, if the runner may be used. -/
def prepare (r : Runner η θ) (languages : Languages) (files : FileTree) (input : Except InputError RunInput) :
    Except InputError (List Document) := do
  r.ensureReady
  let input ← input
  r.collect languages files input

end Runner

end Gherkin
