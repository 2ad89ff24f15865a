import Addressing.Ip.Group

/-!
# IPv6 addresses

Eight groups, or sixteen bytes. How an address is written is the matter of
`Addressing.Ip.Spelling`, since there are many ways.
-/

namespace Addressing.Ip

/-- An IPv6 address. -/
structure V6 where
  groups : List Group
  length_groups : groups.length = 8
deriving DecidableEq

namespace V6

/-- The address of some groups, if there are eight. -/
def ofGroups? (gs : List Group) : Option V6 :=
  if h : gs.length = 8 then some ⟨gs, h⟩ else none

/-- The bytes of all groups, in order. -/
def bytes (a : V6) : Bytes := a.groups.flatMap Group.bytes

/-- The address of sixteen bytes. -/
def ofBytes? (b : Bytes) : Option V6 :=
  if b.length = 16 then ofGroups? (Group.ofAllBytes b) else none

/-- An address has sixteen bytes. -/
theorem length_bytes (a : V6) : a.bytes.length = 16 := by
  simp [bytes, Group.bytes, List.map_const', a.length_groups]

/-- An address is made of its groups. -/
@[simp] theorem ofGroups?_groups (a : V6) : ofGroups? a.groups = some a := by
  simp [ofGroups?, a.length_groups]

/-- An address is made of its bytes. -/
@[simp] theorem ofBytes?_bytes (a : V6) : ofBytes? a.bytes = some a := by
  rw [ofBytes?, if_pos a.length_bytes]
  simp [bytes]

end V6

end Addressing.Ip
