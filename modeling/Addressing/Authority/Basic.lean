import Addressing.Hex
import Addressing.Ip.Address

/-!
# Authorities

An authority says which device is meant: one known by a name, one known by an IP address, one
known by an id, or the device itself, which needs no designator. An IP address is held as bytes
and may have any length; only what prints or checks it looks at its length.

* `Authority`: the four cases.
* `Authority.ipText`: the address text of an authority that is designated by an address.
* `Authority.text`: an authority for people to read.
-/

namespace Addressing

/-- Which device is meant. -/
inductive Authority
  /-- The device itself: there is no remote device. -/
  | noRemote
  /-- The device of a name. -/
  | name (name : Text)
  /-- The device at an IP address. -/
  | ip (bytes : Bytes)
  /-- The device with an id. -/
  | id (bytes : Bytes)
deriving DecidableEq

namespace Authority

/-- How a device is designated. -/
inductive Kind
  | noRemote
  | name
  | ip
  | id
deriving DecidableEq

/-- How the device of an authority is designated. -/
def kind : Authority → Kind
  | noRemote => .noRemote
  | name _ => .name
  | ip _ => .ip
  | id _ => .id

/-- Whether an authority means a remote device. -/
def hasRemote (a : Authority) : Bool := a.kind ≠ .noRemote

/-- The name that designates the device. -/
def name? : Authority → Option Text
  | name n => some n
  | _ => none

/-- The bytes of the IP address that designates the device. -/
def ip? : Authority → Option Bytes
  | ip b => some b
  | _ => none

/-- The bytes of the id that designates the device. -/
def id? : Authority → Option Bytes
  | id b => some b
  | _ => none

/-- The text of the address that designates the device. -/
def ipText : Authority → Except Fault Text
  | ip b => Ip.render b
  | _ => .error .invalidArgument

/-- The words ahead of a designator, which tell its kind. -/
def Kind.label : Kind → Text
  | noRemote => []
  | name => Text.ofString "name:"
  | ip => Text.ofString "ip:"
  | id => Text.ofString "id:"

/-- The text of an authority: its kind and its designator. Bytes are written in hexadecimal unless
    they are an address. -/
def text : Authority → Text
  | noRemote => Text.ofString "<local>"
  | name n => Kind.name.label ++ n
  | ip b =>
    match Ip.render b with
    | .ok t => Kind.ip.label ++ t
    | .error _ => Kind.ip.label ++ Hex.encode b
  | id b => Kind.id.label ++ Hex.encode b

end Authority

end Addressing
