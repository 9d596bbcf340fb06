import Gherkin.Dialect.BuiltIn
import Gherkin.Document.Tree

/-! # Reading feature files

The reader is lenient: it skips lines that it does not understand and reports them. A strict reader
turns the first report into an error. -/

namespace Gherkin

/-- How feature files are read: the language of those that do not name one, and whether reports are
errors. -/
structure Parser where
  language : Text := Languages.defaultCode
  strict : Bool := false
  deriving DecidableEq, Repr

/-- A document that a strict reader refuses. -/
structure ParseError where
  uri : Option Text
  first : Diagnostic
  others : List Diagnostic
  deriving DecidableEq, Repr

namespace ParseError

/-- All that was reported. -/
def diagnostics (e : ParseError) : List Diagnostic := e.first :: e.others

/-- The wording of the error. -/
def message (e : ParseError) : Text :=
  let source := match e.uri with
    | some (c :: uri) => c :: uri
    | _ => "<text>"
  source ++ ": " ++ Text.ofNat e.diagnostics.length ++ " problem(s), first at " ++ e.first.message

end ParseError

/-- Numbers marks from 1 on. -/
def numberFrom : Nat → List Mark → List NumberedMark
  | _, [] => []
  | line, mark :: rest => (line, mark) :: numberFrom (line + 1) rest

/-- The document that numbered marks describe, in a language. -/
def documentOf (language : Text) (uri : Option Text) (lineCount : Nat) (early : List Diagnostic)
    (marks : List NumberedMark) : Document :=
  let cut := cutAtHeadings marks
  let sections := sectionsFrom (tagsOf cut.1) cut.2
  let trailing := trailingTags cut.1 cut.2
  { feature := featureOf language sections
    comments := marks.filterMap comment?
    uri := uri
    diagnostics :=
      early ++ marksDiagnostics cut.1 ++ sections.flatMap Section.diagnostics ++
        if sections.isEmpty then
          ignoredTagsDiagnostic .tagsWithoutFeature trailing ++ [⟨lineCount, .noFeature⟩]
        else ignoredTagsDiagnostic .tagsWithoutElement trailing }

/-- The language of a document: the one that its first line names, or a default. -/
def languageOf (default : Text) (lines : List Text) : Text :=
  ((lines.head?.bind fun line => languageDirective? (Text.trim line))).getD default

/-- Reads a document leniently. An unknown language is reported, and English is used in its place. -/
def parseLenient (languages : Languages) (default : Text) (text : Text) (uri : Option Text) : Document :=
  let lines := Text.lines text
  let code := languageOf default lines
  match languages.find? code with
  | some dialect =>
      documentOf code uri lines.length [] (numberFrom 1 (marks dialect lines))
  | none =>
      documentOf Languages.defaultCode uri lines.length
        [⟨1, .unknownLanguage code Languages.defaultCode⟩] (numberFrom 1 (marks .english lines))

/-- A text whose language is known is read in the dialect of this language. -/
theorem parseLenient_known {languages : Languages} {default text language : Text} {d : Dialect} {uri : Option Text}
    (named : languageOf default (Text.lines text) = language) (known : languages.find? language = some d) :
    parseLenient languages default text uri =
      documentOf language uri (Text.lines text).length [] (numberFrom 1 (marks d (Text.lines text))) := by
  rw [parseLenient, named, known]

/-- A text that names no language is read in English by default. -/
theorem parseLenient_english {text : Text} {uri : Option Text}
    (plain : languageOf Languages.defaultCode (Text.lines text) = Languages.defaultCode) :
    parseLenient .builtIn Languages.defaultCode text uri =
      documentOf Languages.defaultCode uri (Text.lines text).length []
        (numberFrom 1 (marks .english (Text.lines text))) :=
  parseLenient_known plain rfl

/-- Reads a document. -/
def Parser.parse (p : Parser) (languages : Languages) (text : Text) (uri : Option Text) :
    Except ParseError Document :=
  let document := parseLenient languages p.language text uri
  match document.diagnostics with
  | first :: others => if p.strict then .error ⟨uri, first, others⟩ else .ok document
  | [] => .ok document

end Gherkin
