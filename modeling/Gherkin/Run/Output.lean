import Gherkin.Run.Result

/-! # Outputs

While a call runs, it gives out messages and attachments through two functions of its world. In a step
these functions add to lists of the step, which its result shows. The lists of a step are a tray here;
the trays of a scenario stand on a desk, together with where the functions of the world lead. -/

namespace Gherkin

/-- What a call gives out through the world while it runs. -/
inductive Output where
  | logged (message : Text)
  | attached (attachment : Attachment)

/-- The functions of a world through which something is given out. -/
inductive Outlet where
  | attach
  | log
  deriving DecidableEq, Repr

/-- The lists that the outputs of a step are added to. -/
structure Tray where
  attachments : List Attachment := []
  logs : List Text := []

/-- The trays of a scenario in the order in which they were put out, and the number of the tray that each
outlet of its world leads to. The outlets that a world comes with lead to none. -/
structure Desk where
  trays : List Tray := []
  attachTo : Option Nat := none
  logTo : Option Nat := none

namespace Desk

/-- The tray with a number. -/
def tray (d : Desk) (number : Nat) : Tray := d.trays.getD number {}

/-- Adds to the tray that an outlet leads to, if there is one. -/
def add (d : Desk) (number : Option Nat) (put : Tray → Tray) : Desk :=
  match number with
  | none => d
  | some number => { d with trays := d.trays.modify number put }

/-- Puts an output where its outlet leads. -/
def take (d : Desk) : Output → Desk
  | .logged message => d.add d.logTo fun tray => { tray with logs := tray.logs ++ [message] }
  | .attached attachment =>
      d.add d.attachTo fun tray => { tray with attachments := tray.attachments ++ [attachment] }

/-- Puts outputs where their outlets lead, in turn. -/
def takeAll (d : Desk) (outputs : List Output) : Desk := outputs.foldl take d

/-- Leads the outlets of a world to a tray, as far as the world lets itself be changed: what comes behind an
outlet that cannot be set is not set either. -/
def lead (d : Desk) (sets : Outlet → Bool) (number : Nat) : Desk :=
  if sets .attach then
    let d := { d with attachTo := some number }
    if sets .log then { d with logTo := some number } else d
  else d

/-- Puts out a new tray and leads the outlets of a world to it. Without a world nothing is set. -/
def bind (d : Desk) (sets : Option (Outlet → Bool)) : Desk :=
  let d' := { d with trays := d.trays ++ [{}] }
  match sets with
  | none => d'
  | some sets => d'.lead sets d.trays.length

end Desk

end Gherkin
