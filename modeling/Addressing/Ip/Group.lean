import Addressing.Numeral

/-!
# Groups

The sixteen-bit groups that an IPv6 address consists of. A group is two bytes of the address, the
high byte first. Written, it is a *hextet*: one to four hexadecimal digits in either case, so that
one group has many hextets and one of them is the shortest.

* `Group.ofBytes`, `Group.bytes`: the two bytes of a group.
* `Hextet`: the digits of a group and what they stand for.
* `Hextet.ofText?`, `Hextet.shortest`: the hextet that a text is, and the one to write.
-/

namespace Addressing.Ip

/-- A sixteen-bit group of an address. -/
abbrev Group := UInt16

namespace Group

/-- The group of two bytes. -/
def ofBytes (high low : UInt8) : Group := UInt16.ofNat (256 * high.toNat + low.toNat)

/-- The high byte of a group. -/
def high (g : Group) : UInt8 := UInt8.ofNat (g.toNat / 256)

/-- The low byte of a group. -/
def low (g : Group) : UInt8 := UInt8.ofNat (g.toNat % 256)

/-- The two bytes of a group. -/
def bytes (g : Group) : Bytes := [g.high, g.low]

/-- The groups of an even number of bytes; an odd byte at the end is no group. -/
def ofAllBytes : Bytes → List Group
  | high :: low :: rest => ofBytes high low :: ofAllBytes rest
  | _ => []

theorem toNat_ofBytes (high low : UInt8) :
    (ofBytes high low).toNat = 256 * high.toNat + low.toNat := by
  have hh := high.toNat_lt
  have hl := low.toNat_lt
  rw [ofBytes, UInt16.toNat_ofNat']
  omega

/-- The high byte of a group is the one it was made with. -/
@[simp] theorem high_ofBytes (high low : UInt8) : (ofBytes high low).high = high := by
  have hl := low.toNat_lt
  rw [Group.high, toNat_ofBytes, show (256 * high.toNat + low.toNat) / 256 = high.toNat by omega]
  exact UInt8.ofNat_toNat

/-- The low byte of a group is the one it was made with. -/
@[simp] theorem low_ofBytes (high low : UInt8) : (ofBytes high low).low = low := by
  have hl := low.toNat_lt
  rw [Group.low, toNat_ofBytes, show (256 * high.toNat + low.toNat) % 256 = low.toNat by omega]
  exact UInt8.ofNat_toNat

/-- A group is made of its two bytes. -/
@[simp] theorem ofBytes_high_low (g : Group) : ofBytes g.high g.low = g := by
  have hg := g.toNat_lt
  apply UInt16.toNat_inj.1
  rw [toNat_ofBytes, high, low, UInt8.toNat_ofNat', UInt8.toNat_ofNat']
  omega

/-- Groups are made of their bytes. -/
@[simp] theorem ofAllBytes_flatMap_bytes (gs : List Group) :
    ofAllBytes (gs.flatMap bytes) = gs := by
  induction gs with
  | nil => rfl
  | cons g gs ih => simpa [bytes, ofAllBytes] using ih

end Group

/-! ## Written groups -/

/-- A group as it is written: one to four digits that stand for it. -/
structure Hextet where
  digits : Text
  group : Group
  length_mem : 1 ≤ digits.length ∧ digits.length ≤ 4
  read_digits : Numeral.read? 16 digits = some group.toNat
deriving DecidableEq

namespace Hextet

/-- Four digits stand for no more than a group holds. -/
theorem lt_of_read? {t : Text} {n : Nat} (h : Numeral.read? 16 t = some n) (hl : t.length ≤ 4) :
    n < UInt16.size :=
  Nat.lt_of_lt_of_le (Numeral.read?_lt h) (Nat.pow_le_pow_right (by omega) hl)

/-- The hextet that a text is, if its length is right and all of it is digits. -/
def ofText? (t : Text) : Option Hextet :=
  if h : 1 ≤ t.length ∧ t.length ≤ 4 then
    match hr : Numeral.read? 16 t with
    | some n =>
      some ⟨t, UInt16.ofNat n, h, by
        rw [hr, UInt16.toNat_ofNat', Nat.mod_eq_of_lt (lt_of_read? hr h.2)]⟩
    | none => none
  else none

/-- The hextet of a group that spends no digit on a leading zero. -/
def shortest (g : Group) : Hextet where
  digits := Numeral.write 16 g.toNat
  group := g
  length_mem :=
    ⟨List.length_pos_iff.2 (Numeral.write_ne_nil 16 _),
      (Numeral.length_write_le_iff (by omega) (by omega)).2 g.toNat_lt⟩
  read_digits := Numeral.read?_write (by omega) (by omega) _

/-- A hextet is its digits: they decide the group. -/
theorem ext_digits {x y : Hextet} (h : x.digits = y.digits) : x = y := by
  obtain ⟨d, g, _, hx⟩ := x
  obtain ⟨d', g', _, hy⟩ := y
  obtain rfl : d = d' := h
  rw [hx] at hy
  obtain rfl : g = g' := UInt16.toNat_inj.1 (Option.some.inj hy)
  rfl

/-- A text is a hextet exactly if it is the digits of that hextet. -/
theorem ofText?_eq_some_iff {t : Text} {x : Hextet} : ofText? t = some x ↔ t = x.digits := by
  constructor
  · intro h
    unfold ofText? at h
    split at h <;> try contradiction
    split at h <;> try contradiction
    rw [← Option.some.inj h]
  · rintro rfl
    unfold ofText?
    rw [dif_pos x.length_mem]
    split
    · exact congrArg some (ext_digits rfl)
    · next h => simp [x.read_digits] at h

end Hextet

end Addressing.Ip
