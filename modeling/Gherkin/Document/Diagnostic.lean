import Gherkin.Document.Basic

/-! # Diagnostics

What a reader of feature files passed over or could not make sense of. Reading never fails because of
these; a strict reader refuses a document that has any. -/

namespace Gherkin

/-- Why a diagnostic is given. -/
inductive Problem where
  | unknownLanguage (code fallback : Text)
  | unexpectedLine (text : Text)
  | unrecognizedLine (text : Text)
  | malformedTag (token : Text)
  | tagsBeforeBackground (names : List Text)
  | tagsWithoutFeature (names : List Text)
  | tagsWithoutElement (names : List Text)
  | noFeature
  | unclosedDocString (fence : Fence)
  deriving DecidableEq, Repr

/-- A problem and the line it is reported for. -/
structure Diagnostic where
  line : Nat
  problem : Problem
  deriving DecidableEq, Repr

namespace Problem

/-- Tags that belong to no element, and why. -/
def ignoredTags (names : List Text) (reason : Text) : Text :=
  "Tags " ++ Text.joinWith " " names ++ " ignored: " ++ reason

/-- The wording of a problem. -/
def message : Problem → Text
  | unknownLanguage code fallback => "Unknown language '" ++ code ++ "', using '" ++ fallback ++ "'"
  | unexpectedLine text => "Unexpected line before Feature skipped: " ++ text
  | unrecognizedLine text => "Unrecognized line skipped: " ++ text
  | malformedTag token => "Malformed tag '" ++ token ++ "' ignored"
  | tagsBeforeBackground names => ignoredTags names "a Background cannot be tagged"
  | tagsWithoutFeature names => ignoredTags names "no Feature follows them"
  | tagsWithoutElement names => ignoredTags names "no element follows them"
  | noFeature => "No Feature found"
  | unclosedDocString fence => "Doc string opened with " ++ fence.text ++ " is never closed"

end Problem

/-- The diagnostic with its line number. -/
def Diagnostic.message (d : Diagnostic) : Text :=
  "line " ++ Text.ofNat d.line ++ ": " ++ d.problem.message

/-- A document as read: its feature if it has one, its comments, where it comes from, and what was
passed over. -/
structure Document where
  feature : Option Feature
  comments : List Comment
  uri : Option Text
  diagnostics : List Diagnostic
  deriving DecidableEq, Repr

end Gherkin
