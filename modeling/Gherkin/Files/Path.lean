import Gherkin.Text.Basic

/-! # Paths

A path is a root and the names below it. Empty names and single dots do not count; double dots are kept,
because what they mean depends on the directories that are there. -/

namespace Gherkin

/-- A path. The root is empty for a relative path, and otherwise one slash, or the two slashes that set
a path apart from those with one. -/
structure Path where
  root : Text
  names : List Text
  deriving DecidableEq, Repr

namespace Path

/-- The root that a text starts with: two slashes count only if no third follows. -/
def rootOf (t : Text) : Text :=
  match t.takeWhile (· == '/') with
  | [] => []
  | ['/', '/'] => ['/', '/']
  | _ => ['/']

/-- The path that a text names. -/
def ofText (t : Text) : Path :=
  ⟨rootOf t, (Text.splitAtChar '/' t).filter fun name => !name.isEmpty && name != ['.']⟩

/-- The text of a path. -/
def text (p : Path) : Text :=
  if p.root.isEmpty && p.names.isEmpty then ['.'] else p.root ++ Text.joinWith ['/'] p.names

/-- Whether a path starts at a root. -/
def isAbsolute (p : Path) : Bool := !p.root.isEmpty

/-- A path below another; one with a root stands for itself. -/
def join (p q : Path) : Path := if q.isAbsolute then q else ⟨p.root, p.names ++ q.names⟩

/-- A path with one more name. -/
def child (p : Path) (name : Text) : Path := { p with names := p.names ++ [name] }

end Path

end Gherkin
