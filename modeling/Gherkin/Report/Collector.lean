import Gherkin.Files.Path
import Gherkin.Report.Markup
import Gherkin.Report.Tree
import Gherkin.Value.Json
import Gherkin.Value.Shown

/-! # Reports

A report shows a run in one of three formats. The file of a report is named by the time at which it was
made. -/

namespace Gherkin

/-- The format of a report. -/
inductive ReportFormat where
  | html
  | json
  | junit
  deriving DecidableEq, Repr

namespace ReportFormat

/-- The name of a format. -/
def name : ReportFormat → Text
  | html => "html"
  | json => "json"
  | junit => "junit"

/-- The format of a name. -/
def ofName? (t : Text) : Option ReportFormat := [html, json, junit].find? fun f => f.name == t

theorem ofName?_name (f : ReportFormat) : ofName? f.name = some f := by cases f <;> rfl

/-- What the names of report files end in. -/
def extension : ReportFormat → Text
  | html => "html"
  | json => "json"
  | junit => "xml"

end ReportFormat

/-- The report of a run. -/
def RunResult.report (r : RunResult) (timestamp : Text) : ReportFormat → Text
  | .html => Html.render timestamp r
  | .json => Json.write .block r.toValue
  | .junit => JUnit.render r

/-- Why no report can be made: formats that are not known, one that is not known, or settings that name
no formats or no directory. -/
inductive ReportError where
  | unsupportedFormats (names : List Text)
  | unsupportedFormat (name : Text)
  | badSettings (value : Value)

/-- The wording of an error. -/
def ReportError.message : ReportError → Text
  | unsupportedFormats names => "Unsupported report format(s): " ++ Text.joinWith ", " names
  | unsupportedFormat name => "Unsupported report format: " ++ name
  | badSettings value => "expected a text or a list of texts, got " ++ value.kindName

/-- Where reports go, and in which formats they are made unless others are asked for. -/
structure ReportCollector where
  directory : Path
  formats : List Text
  deriving DecidableEq, Repr

namespace ReportCollector

/-- The time of a report: the given one, unless it is absent or empty. -/
def stamp (given : Option Text) (now : Text) : Text :=
  match given with
  | some (c :: t) => c :: t
  | _ => now

/-- The formats that a setting names. A text names one for each of its characters; a setting that is not
set names the format for browsers. -/
def formatsOf (v : Value) : Except ReportError (List Value) :=
  if !v.isTrue then .ok [.text ReportFormat.html.name]
  else match v with
    | .list items => .ok items
    | .text t => .ok (t.map fun c => .text [c])
    | .map entries => .ok (entries.map fun (key, _) => .text key)
    | v => .error (.badSettings v)

/-- Whether a value names a format. -/
def isSupported : Value → Bool
  | .text t => (ReportFormat.ofName? t).isSome
  | _ => false

/-- The text that a value is. -/
def textOf (v : Value) : Except ReportError Text :=
  match v with
  | .text t => .ok t
  | v => .error (.badSettings v)

/-- Checks that formats are known. -/
def checkFormats (formats : List Value) : Except ReportError (List Text) :=
  match (formats.filter fun f => !isSupported f).mapM textOf with
  | .error e => .error e
  | .ok [] => formats.mapM textOf
  | .ok names => .error (.unsupportedFormats names)

/-- The directory that reports go to when settings name none. -/
def defaultDirectory : Text := "test-results"

/-- A collector with a directory and formats that come from settings. -/
def create (directory formats : Value) : Except ReportError ReportCollector := do
  let directory ← textOf directory
  let formats ← formatsOf formats
  let formats ← checkFormats formats
  return ⟨.ofText directory, formats⟩

/-- The report of a run in a format given by its name. -/
def render (r : RunResult) (format timestamp : Text) : Except ReportError Text :=
  match ReportFormat.ofName? format with
  | some format => .ok (r.report timestamp format)
  | none => .error (.unsupportedFormat format)

/-- The file of a report and what it holds. -/
def generateOne (c : ReportCollector) (r : RunResult) (now format : Text) : Except ReportError (Path × Text) :=
  match ReportFormat.ofName? format with
  | some format =>
      .ok (c.directory.child ("report_" ++ now ++ "." ++ format.extension), r.report now format)
  | none => .error (.unsupportedFormat format)

/-- The files of reports in some formats, or in those of the collector if none are given. -/
def generate (c : ReportCollector) (r : RunResult) (now : Text) (formats : List Text) :
    Except ReportError (List (Path × Text)) :=
  (if formats.isEmpty then c.formats else formats).mapM (c.generateOne r now)

end ReportCollector

end Gherkin
