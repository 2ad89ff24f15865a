import Addressing.Text.Basic

/-!
# Digits

The digits of hexadecimal numbers, and of decimal ones as their first ten. Digits are written in
lower case and read in either case.

* `Digit.ofNat`: the digit of a value below sixteen.
* `Digit.value?`: the value of a digit, in either case.
* `value?_ofNat`: a written digit reads back.
-/

namespace Addressing.Digit

/-- The digit of a value below sixteen, in lower case. -/
def ofNat (d : Nat) : UInt8 := (Nat.digitChar d).toUInt8

/-- The value of a hexadecimal digit in either case; `none` for any other byte. -/
def value? (c : UInt8) : Option Nat :=
  if 0x30 ≤ c ∧ c ≤ 0x39 then some (c.toNat - 0x30)
  else if 0x61 ≤ c ∧ c ≤ 0x66 then some (c.toNat - 0x61 + 10)
  else if 0x41 ≤ c ∧ c ≤ 0x46 then some (c.toNat - 0x41 + 10)
  else none

/-- A written digit reads back. -/
theorem value?_ofNat {d : Nat} (h : d < 16) : value? (ofNat d) = some d := by
  have all : ∀ e ∈ List.range 16, value? (ofNat e) = some e := by decide
  exact all d (List.mem_range.2 h)

/-- The value of a digit is below sixteen. -/
theorem value?_lt {c : UInt8} {d : Nat} (h : value? c = some d) : d < 16 := by
  simp only [value?, UInt8.le_iff_toNat_le] at h
  grind

end Addressing.Digit
