import Addressing.Numeral
import Addressing.Outcome.Basic
import Addressing.Session

/-!
# Sessions on outcomes

There are two sets of variables. Some hold the outcome of computing a number, and start with the
number zero; the others hold the outcome of something that has no value but can fail, and start
with success. The number ones can be transformed into either.

* `Action`: what can be done on a variable of either set.
* `Transform`: the functions, and where their outcomes go.
* `next`, `reply`: the variables after a step, and the reply to it.
-/

namespace Addressing.Outcome.Session

/-- What can be done on a variable whose values are in `α`. -/
inductive Action (ν α : Type)
  /-- Makes it what it was at the start. -/
  | reset
  /-- Makes it a value. -/
  | ok (value : α)
  /-- Makes it an error. -/
  | err (error : Text)
  /-- Gives it the outcome of another variable. -/
  | copy (source : ν)
  /-- Asks whether another variable has the same outcome. -/
  | compare (other : ν)
  /-- Asks for its value. -/
  | value
  /-- Asks for its value, and puts another one in its place. -/
  | setValue (value : α)
  /-- Puts another error in the place of its error. -/
  | setError (error : Text)
deriving DecidableEq

/-- A function from numbers to numbers. -/
inductive Function
  | double
  | negate
  | add (n : Int64)
deriving DecidableEq

/-- The value of a function, modulo the range of the numbers. -/
def Function.apply : Function → Int64 → Int64
  | double, a => a * 2
  | negate, a => -a
  | add n, a => a + n

/-- A transformation of the outcome of a number, and the variable that takes the result. -/
inductive Transform (ν : Type)
  /-- Applies a function. -/
  | number (f : Function) (target : ν)
  /-- Drops the value. -/
  | discard (target : ν)
  /-- Writes the value in decimal. No variable can hold the text. -/
  | decimal
deriving DecidableEq

/-- A step of a session. -/
inductive Task (ν : Type)
  /-- On a variable with a number. -/
  | number (step : Step ν (Action ν Int64))
  /-- On a variable without a value. -/
  | blank (step : Step ν (Action ν Unit))
  /-- From a variable with a number into a variable of either set. -/
  | transform (step : Step ν (Transform ν))
deriving DecidableEq

/-- The variables of a session. -/
structure Board (ν : Type) where
  numbers : Slots ν (Except Text Int64)
  blanks : Slots ν (Except Text Unit)

/-- An outcome for show. -/
inductive Shown
  | number (outcome : Except Text Int64)
  | blank (outcome : Except Text Unit)
  | text (outcome : Except Text Text)

/-- The answer to a step. -/
inductive Reply
  /-- There is nothing to say. -/
  | done
  /-- Yes or no. -/
  | verdict (yes : Bool)
  /-- The number that was asked for. -/
  | number (result : Except (BadAccess Text) Int64)
  /-- Whether there was success. -/
  | blank (result : Except (BadAccess Text) Unit)
  /-- The outcome of a transformation, and how often its function was called. -/
  | transformed (outcome : Shown) (calls : Nat)

/-- A function that counts its calls. -/
def counted {α β : Type} (f : α → β) (a : α) : StateM Nat β := do
  modify (· + 1)
  return f a

/-- A transformed outcome, and how often the function was called. -/
def tally {α β : Type} (f : α → β) (o : Except Text α) : Except Text β × Nat :=
  (transform (counted f) o).run 0

variable {ν : Type} [DecidableEq ν]

/-- The variables of one set after a step. -/
def Action.next {α : Type} [Inhabited α] (s : Slots ν (Except Text α)) (x : ν) :
    Action ν α → Slots ν (Except Text α)
  | reset => s.set x (.ok default)
  | ok a => s.set x (.ok a)
  | err e => s.set x (.error e)
  | copy y => s.set x (s.get y)
  | setValue a => s.set x (assign a (s.get x))
  | setError e => s.set x (amend e (s.get x))
  | compare _ => s
  | value => s

/-- The outcome of a transformation for show, and how often its function was called. -/
def Transform.apply (o : Except Text Int64) : Transform ν → Shown × Nat
  | number f _ => let (r, calls) := tally f.apply o; (.number r, calls)
  | discard _ => let (r, calls) := tally (fun _ => ()) o; (.blank r, calls)
  | decimal => let (r, calls) := tally (fun a => Numeral.ofInt a.toInt) o; (.text r, calls)

/-- The variables after a transformation. -/
def Transform.next (b : Board ν) (x : ν) : Transform ν → Board ν
  | number f y => { b with numbers := b.numbers.set y (tally f.apply (b.numbers.get x)).1 }
  | discard y => { b with blanks := b.blanks.set y (tally (fun _ => ()) (b.numbers.get x)).1 }
  | decimal => b

/-- The variables after a step. -/
def next (b : Board ν) : Task ν → Board ν
  | .number step => { b with numbers := step.action.next b.numbers step.on }
  | .blank step => { b with blanks := step.action.next b.blanks step.on }
  | .transform step => step.action.next b step.on

/-- The reply to a step on a set of variables; `answer` says what is made of its value. -/
def Action.reply {α : Type} [DecidableEq α] (answer : Except (BadAccess Text) α → Reply)
    (s : Slots ν (Except Text α)) (x : ν) : Action ν α → Reply
  | compare y => .verdict (same (s.get x) (s.get y))
  | value => answer (Outcome.value (s.get x))
  | setValue _ => .blank ((fun _ => ()) <$> Outcome.value (s.get x))
  | _ => .done

/-- The reply to a step. -/
def reply (b : Board ν) : Task ν → Reply
  | .number step => step.action.reply .number b.numbers step.on
  | .blank step => step.action.reply .blank b.blanks step.on
  | .transform step =>
    let (outcome, calls) := step.action.apply (b.numbers.get step.on)
    .transformed outcome calls

/-- What the variable of a step holds. -/
def held (b : Board ν) : Task ν → Shown
  | .number step => .number (b.numbers.get step.on)
  | .blank step => .blank (b.blanks.get step.on)
  | .transform step => .number (b.numbers.get step.on)

/-- The variables of a session at its start. -/
def start : Board ν := ⟨Slots.fill (.ok default), Slots.fill (.ok default)⟩

/-- The variables after some steps. -/
def run (steps : List (Task ν)) : Board ν := Session.after next start steps

/-- The reply to each step, with what its variable holds afterwards. -/
def log (steps : List (Task ν)) : List (Reply × Shown) :=
  Session.answers next (fun b t b' => (reply b t, held b' t)) start steps

end Addressing.Outcome.Session
