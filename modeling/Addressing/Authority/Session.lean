import Addressing.Authority.Basic
import Addressing.MicroForm
import Addressing.Session

/-!
# Sessions on authorities

Variables hold authorities, and none has a remote at the start. A step either writes a variable or
asks about it. What a step writes by itself is a whole authority, so that nothing of the former
one is left; a text that cannot be read writes nothing.

* `Action`: what can be done on a variable.
* `Action.written?`: the authority that a step writes by itself.
* `next`, `reply`: the variables after a step, and the reply to it.
-/

namespace Addressing.Authority.Session

/-- What can be done on a variable of a session. -/
inductive Action (ν : Type)
  /-- Makes it the device of a name. -/
  | setName (name : Text)
  /-- Makes it the device at an address. -/
  | setIp (bytes : Bytes)
  /-- Makes it the device with an id. -/
  | setId (bytes : Bytes)
  /-- Makes it the device itself. -/
  | clear
  /-- Makes it a given authority. -/
  | make (authority : Authority)
  /-- Makes it the device at an address that is given as text. -/
  | setIpText (text : Text)
  /-- Makes it the device with an id that is given in hexadecimal. -/
  | setIdHex (text : Text)
  /-- Gives it the value of another variable. -/
  | copy (source : ν)
  /-- Exchanges its value with that of another variable. -/
  | swap (other : ν)
  /-- Asks whether another variable has the same value. -/
  | compare (other : ν)
  /-- Asks for its text. -/
  | text
  /-- Asks for its address text. -/
  | ipText
  /-- Asks whether it has a micro form. -/
  | validate
deriving DecidableEq

/-- The answer to a step. -/
inductive Reply
  /-- There is nothing to say. -/
  | done
  /-- The bytes that a text was read as. -/
  | read (result : Except Fault Bytes)
  /-- Yes or no. -/
  | verdict (yes : Bool)
  /-- A text. -/
  | text (text : Text)
  /-- An address text. -/
  | ipText (result : Except Fault Text)
  /-- Whether there is a micro form. -/
  | micro (result : Except Report Unit)

variable {ν : Type} [DecidableEq ν]

/-- The authority that a step writes by itself, whatever the variables hold. -/
def Action.written? : Action ν → Option Authority
  | setName n => some (.name n)
  | setIp b => some (.ip b)
  | setId b => some (.id b)
  | clear => some .noRemote
  | make a => some a
  | setIpText t => (Ip.parse t).toOption.map .ip
  | setIdHex t => (Hex.parse t).toOption.map .id
  | _ => none

/-- The variables after a step. -/
def next (s : Slots ν Authority) (step : Step ν (Action ν)) : Slots ν Authority :=
  match step.action with
  | .copy x => s.set step.on (s.get x)
  | .swap x => s.swap step.on x
  | action =>
    match action.written? with
    | some a => s.set step.on a
    | none => s

/-- The reply to a step. -/
def reply (s : Slots ν Authority) (step : Step ν (Action ν)) : Reply :=
  match step.action with
  | .setIpText t => .read (Ip.parse t)
  | .setIdHex t => .read (Hex.parse t)
  | .compare x => .verdict (s.get step.on = s.get x)
  | .text => .text (s.get step.on).text
  | .ipText => .ipText (s.get step.on).ipText
  | .validate => .micro (MicroForm.validate (s.get step.on))
  | _ => .done

/-- The variables of a session at its start. -/
def start : Slots ν Authority := Slots.fill .noRemote

/-- The variables after some steps. -/
def run (steps : List (Step ν (Action ν))) : Slots ν Authority := Session.after next start steps

/-- The reply to each step, with what its variable holds afterwards. -/
def log (steps : List (Step ν (Action ν))) : List (Reply × Authority) :=
  Session.answers next (fun s step s' => (reply s step, s'.get step.on)) start steps

end Addressing.Authority.Session
