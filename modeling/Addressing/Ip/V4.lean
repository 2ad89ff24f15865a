import Addressing.Ip.Group

/-!
# IPv4 addresses

Four octets. Written, they are four decimal numbers with dots between them, and there is one way
to write them: an octet with a zero to spare is refused, because such octets are read as octal
numbers elsewhere.

* `V4.text`, `V4.ofText?`: the text of an address and the address of a text.
* `V4.groups`, `V4.ofGroups`: an address as the last two groups of a longer one.
-/

namespace Addressing.Ip

/-- An IPv4 address. -/
structure V4 where
  first : UInt8
  second : UInt8
  third : UInt8
  fourth : UInt8
deriving DecidableEq

namespace V4

/-- The octets of an address, in order. -/
def octets (a : V4) : Bytes := [a.first, a.second, a.third, a.fourth]

/-- The octet that a decimal number is. -/
def octet? (t : Text) : Option UInt8 :=
  (Numeral.decimal? t).bind fun n => if n < 256 then some (UInt8.ofNat n) else none

/-- The octets in decimal, with dots between them. -/
def text (a : V4) : Text :=
  [Text.dot].intercalate (a.octets.map fun o => Numeral.write 10 o.toNat)

/-- The address of four octets in decimal with dots between them. -/
def ofText? (t : Text) : Option V4 :=
  match t.splitOn Text.dot with
  | [a, b, c, d] => do return ⟨← octet? a, ← octet? b, ← octet? c, ← octet? d⟩
  | _ => none

/-- The two groups that the octets fill. -/
def groups (a : V4) : List Group := [.ofBytes a.first a.second, .ofBytes a.third a.fourth]

/-- The address that fills two groups. -/
def ofGroups (g g' : Group) : V4 := ⟨g.high, g.low, g'.high, g'.low⟩

/-- An address fills the groups that it was made of. -/
@[simp] theorem groups_ofGroups (g g' : Group) : (ofGroups g g').groups = [g, g'] := by
  simp [groups, ofGroups]

end V4

end Addressing.Ip
