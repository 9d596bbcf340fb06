import Gherkin.Text.Quoted

/-! # Complaints about regular expressions

Why a text is no regular expression, with the wording of every complaint. A complaint that is about a place names it. -/

namespace Gherkin.Regex

/-- What a pattern lacks where something has to stand. -/
inductive Missing where
  | groupName
  | characterName
  | brace
  | flagEnd
  | flag
  | colon
  deriving DecidableEq, Repr

/-- Why a pattern is no regular expression. -/
inductive Cause where
  | danglingEscape
  | badEscape (escape : Text)
  | incompleteEscape (escape : Text)
  | octalOutOfRange (digits : Text)
  | undefinedCharacter (name : Text)
  | groupReference (number : Nat)
  | openGroup
  | sameLookBehind
  | unterminatedClass
  | badRange (first last : Text)
  | nothingToRepeat
  | multipleRepeat
  | minAboveMax
  | repetitionTooLarge
  | unterminatedGroup
  | unbalancedParenthesis
  | unknownExtension (extension : Text)
  | unexpectedEnd
  | missing (what : Missing)
  | unterminatedName (terminator : Char)
  | badGroupName (name : Text)
  | badGroupNumber
  | unknownGroupName (name : Text)
  | redefinedGroupName (name : Text) (new old : Nat)
  | tooManyBranches
  | flagsNotAtStart
  | localeFlag
  | incompatibleFlags
  | unknownFlag
  | flagTurnedOff
  | globalFlag (on : Bool)
  | flagOnAndOff
  | incompatibleModes
  | unterminatedComment
  | variableLookBehind
  | distantLookBehind
  | templateRepeat (kind : Text)
  deriving DecidableEq, Repr

/-- A cause, the position in the pattern that it is reported for, and the pattern. -/
structure Error where
  cause : Cause
  position : Nat
  pattern : Text
  deriving DecidableEq, Repr

/-- The wording of what is missing. -/
def Missing.message : Missing → Text
  | groupName => "group name"
  | characterName => "character name"
  | brace => "\x7b"
  | flagEnd => "-, : or )"
  | flag => "flag"
  | colon => ":"

/-- The wording of a cause. -/
def Cause.message : Cause → Text
  | danglingEscape => "bad escape (end of pattern)"
  | badEscape escape => "bad escape \\" ++ escape
  | incompleteEscape escape => "incomplete escape \\" ++ escape
  | octalOutOfRange digits => "octal escape value \\" ++ digits ++ " outside of range 0-0o377"
  | undefinedCharacter name => "undefined character name " ++ Text.quoted name
  | groupReference number => "invalid group reference " ++ Text.ofNat number
  | openGroup => "cannot refer to an open group"
  | sameLookBehind => "cannot refer to group defined in the same lookbehind subpattern"
  | unterminatedClass => "unterminated character set"
  | badRange first last => "bad character range " ++ first ++ "-" ++ last
  | nothingToRepeat => "nothing to repeat"
  | multipleRepeat => "multiple repeat"
  | minAboveMax => "min repeat greater than max repeat"
  | repetitionTooLarge => "the repetition number is too large"
  | unterminatedGroup => "missing ), unterminated subpattern"
  | unbalancedParenthesis => "unbalanced parenthesis"
  | unknownExtension extension => "unknown extension ?" ++ extension
  | unexpectedEnd => "unexpected end of pattern"
  | missing what => "missing " ++ what.message
  | unterminatedName terminator => "missing " ++ [terminator] ++ ", unterminated name"
  | badGroupName name => "bad character in group name " ++ Text.quoted name
  | badGroupNumber => "bad group number"
  | unknownGroupName name => "unknown group name " ++ Text.quoted name
  | redefinedGroupName name new old =>
      "redefinition of group name " ++ Text.quoted name ++ " as group " ++ Text.ofNat new ++
        "; was group " ++ Text.ofNat old
  | tooManyBranches => "conditional backref with more than two branches"
  | flagsNotAtStart => "global flags not at the start of the expression"
  | localeFlag => "bad inline flags: cannot use 'L' flag with a str pattern"
  | incompatibleFlags => "bad inline flags: flags 'a', 'u' and 'L' are incompatible"
  | unknownFlag => "unknown flag"
  | flagTurnedOff => "bad inline flags: cannot turn off flags 'a', 'u' and 'L'"
  | globalFlag on => "bad inline flags: cannot turn " ++ (if on then "on" else "off") ++ " global flag"
  | flagOnAndOff => "bad inline flags: flag turned on and off"
  | incompatibleModes => "ASCII and UNICODE flags are incompatible"
  | unterminatedComment => "missing ), unterminated comment"
  | variableLookBehind => "look-behind requires fixed-width pattern"
  | distantLookBehind => "looks too much behind"
  | templateRepeat kind => "internal: unsupported template operator " ++ kind

/-- Whether a complaint is one about the form of a pattern. The others are a number that is too large and modes that
exclude each other, which are raised as errors of their own kinds. -/
def Cause.isSyntax : Cause → Bool
  | repetitionTooLarge | incompatibleModes => false
  | _ => true

/-- Whether a complaint names the place that it is about. What is only noticed in the whole pattern does not. -/
def Cause.hasPlace : Cause → Bool
  | repetitionTooLarge | incompatibleModes | variableLookBehind | distantLookBehind | templateRepeat _ => false
  | _ => true

/-- The wording of an error. A pattern of several lines also gets the line and column. -/
def Error.message (e : Error) : Text :=
  let before := e.pattern.take e.position
  let column := (before.reverse.takeWhile (· != '\n')).length + 1
  let lines : Text :=
    if e.pattern.contains '\n' then
      " (line " ++ Text.ofNat (before.count '\n' + 1) ++ ", column " ++ Text.ofNat column ++ ")"
    else []
  e.cause.message ++ if e.cause.hasPlace then " at position " ++ Text.ofNat e.position ++ lines else []

end Gherkin.Regex
