import Addressing.Fault
import Addressing.Ip.Spelling

/-!
# Addresses

An address of either family. Four bytes are an IPv4 address and sixteen an IPv6 address, so that
the bytes tell the family; a text tells it by its colons, of which an IPv4 address has none.

* `Address.text`, `Address.ofText?`: the text of an address and the address of a text.
* `Ip.parse`, `Ip.render`: the same on bytes, with the fault that stands for a refusal.
* `Ip.respell`: a text in the spelling that is written for its address.
-/

namespace Addressing.Ip

/-- An address of either family. -/
inductive Address
  | v4 (address : V4)
  | v6 (address : V6)
deriving DecidableEq

namespace Address

/-- The bytes of an address, the most significant first. -/
def bytes : Address → Bytes
  | v4 a => a.octets
  | v6 a => a.bytes

/-- The address of four or sixteen bytes. -/
def ofBytes? : Bytes → Option Address
  | [a, b, c, d] => some (v4 ⟨a, b, c, d⟩)
  | bytes => (V6.ofBytes? bytes).map v6

/-- The text of an address. -/
def text : Address → Text
  | v4 a => a.text
  | v6 a => a.text

/-- The length of the longest text of an address: six hextets of four digits, with a colon behind
    each, and four octets of three digits. -/
def maxTextLength : Nat := 45

/-- The address of a text. A text that is too long to be one, or holds a zero byte, is refused
    before it is looked at. -/
def ofText? (t : Text) : Option Address :=
  if maxTextLength < t.length ∨ 0 ∈ t then none
  else if Text.colon ∈ t then (V6.ofText? t).map v6
  else (V4.ofText? t).map v4

/-- The bytes of an address are that address. -/
@[simp] theorem ofBytes?_bytes (a : Address) : ofBytes? a.bytes = some a := by
  cases a with
  | v4 a => rfl
  | v6 a =>
    have h := a.length_bytes
    unfold ofBytes? bytes
    split
    · next h' => simp [h'] at h
    · simp

end Address

/-- The bytes of the address that a text is. -/
def parse (t : Text) : Except Fault Bytes :=
  match Address.ofText? t with
  | some a => .ok a.bytes
  | none => .error .invalidAddress

/-- The text of the address that the bytes are. There is room for the longest text only, and a text
    that did not fit would be a fault. -/
def render (bytes : Bytes) : Except Fault Text :=
  match Address.ofBytes? bytes with
  | some a => if a.text.length ≤ Address.maxTextLength then .ok a.text else .error .invalidAddress
  | none => .error .invalidAddressLength

/-- An address as it is written for a text, and whether that is an address text with the same
    bytes. -/
def respell (t : Text) : Except Fault (Text × Bool) := do
  let bytes ← parse t
  let spelled ← render bytes
  match parse spelled with
  | .ok again => return (spelled, again = bytes)
  | .error _ => return (spelled, false)

end Addressing.Ip
