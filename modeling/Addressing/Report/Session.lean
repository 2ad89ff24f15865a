import Addressing.MicroForm
import Addressing.Session

/-!
# Sessions on reports

Variables hold reports, and all are empty at the start. Where a step takes the reports of other
variables it takes copies of them as they are, and it may take a copy of its own.

* `Action`: what can be done on a variable.
* `next`, `reply`: the variables after a step, and the reply to it.
-/

namespace Addressing.Report.Session

/-- What can be done on a variable of a session. -/
inductive Action (ν : Type)
  /-- Makes it the report of one reason, or of none. -/
  | new (reason : Option Text)
  /-- Adds reasons, one after the other. -/
  | add (reasons : List Text)
  /-- Merges a copy of the report of a variable into it. The variable may be the same. -/
  | merge (source : ν)
  /-- Makes it the reports of some variables joined. -/
  | join (sources : List ν)
  /-- Gives it the value of another variable. -/
  | copy (source : ν)
  /-- Asks whether another variable has the same value. -/
  | compare (other : ν)
  /-- Asks for the messages of some variables, with a bar behind each. -/
  | print (sources : List ν)
  /-- Asks whether an authority has a micro form, and merges the report if it has none. -/
  | validate (authority : Authority)
deriving DecidableEq

/-- The answer to a step. -/
inductive Reply
  /-- There is nothing to say. -/
  | done
  /-- Yes or no. -/
  | verdict (yes : Bool)
  /-- A text. -/
  | text (text : Text)
deriving DecidableEq

variable {ν : Type} [DecidableEq ν]

/-- The variables after a step. -/
def next (s : Slots ν Report) (step : Step ν (Action ν)) : Slots ν Report :=
  match step.action with
  | .new none => s.set step.on empty
  | .new (some reason) => s.set step.on (ofReason reason)
  | .add reasons => s.set step.on ((s.get step.on).addAll reasons)
  | .merge x => s.set step.on ((s.get step.on).merge (s.get x))
  | .join xs => s.set step.on (join (xs.map s.get))
  | .copy x => s.set step.on (s.get x)
  | .compare _ => s
  | .print _ => s
  | .validate a =>
    match MicroForm.validate a with
    | .ok () => s
    | .error e => s.set step.on ((s.get step.on).merge e)

/-- What stands behind each message in print. -/
def bar : Text := Text.ofString "|"

/-- The reply to a step. -/
def reply (s : Slots ν Report) (step : Step ν (Action ν)) : Reply :=
  match step.action with
  | .compare x => .verdict (s.get step.on = s.get x)
  | .print xs => .text (xs.flatMap fun x => (s.get x).message ++ bar)
  | .validate a => .verdict (MicroForm.validate a).isOk
  | _ => .done

/-- The variables of a session at its start. -/
def start : Slots ν Report := Slots.fill empty

/-- The variables after some steps. -/
def run (steps : List (Step ν (Action ν))) : Slots ν Report := Session.after next start steps

/-- The reply to each step, with what its variable holds afterwards. -/
def log (steps : List (Step ν (Action ν))) : List (Reply × Report) :=
  Session.answers next (fun s step s' => (reply s step, s'.get step.on)) start steps

end Addressing.Report.Session
