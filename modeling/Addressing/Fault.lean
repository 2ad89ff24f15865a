import Addressing.Text.Basic

/-!
# Faults

Why a conversion between bytes and text is refused. A fault is one cause; its wording is
`Fault.message`.
-/

namespace Addressing

/-- A cause for refusing a conversion. -/
inductive Fault
  /-- The address of something that is not designated by one was asked for. -/
  | invalidArgument
  /-- The text is no IPv4 or IPv6 address. -/
  | invalidAddress
  /-- The bytes are neither four nor sixteen. -/
  | invalidAddressLength
  /-- The text is not an even number of hexadecimal digits. -/
  | invalidHex
deriving DecidableEq

/-- The wording of a fault. -/
def Fault.message : Fault → Text
  | .invalidArgument => Text.ofString "invalid argument"
  | .invalidAddress => Text.ofString "invalid IP address"
  | .invalidAddressLength => Text.ofString "IP address must be 4 or 16 bytes"
  | .invalidHex => Text.ofString "invalid hex string"

end Addressing
