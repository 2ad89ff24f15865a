import Addressing.Digit

/-!
# Numerals

Numbers as strings of digits, most significant digit first.

* `Numeral.write`: a number without leading zeros; zero is the one digit `0`.
* `Numeral.read?`: the number that digits stand for, leading zeros allowed.
* `Numeral.decimal?`: a decimal number, read only if it has no zero to spare.
* `Numeral.ofInt`: a signed decimal number.
* `read?_write`: a written number reads back.
-/

namespace Addressing.Numeral

/-- A number in a base up to sixteen, without leading zeros. -/
def write (base n : Nat) : Text := (Nat.toDigits base n).map (·.toUInt8)

/-- The value of a digit of the base. -/
def digit? (base : Nat) (c : UInt8) : Option Nat := (Digit.value? c).filter (· < base)

/-- The number that a string of digits stands for in a base up to sixteen. No digits at all
    stand for zero. -/
def read? (base : Nat) (t : Text) : Option Nat :=
  t.foldlM (fun n c => (digit? base c).map (base * n + ·)) 0

/-- Reads a decimal number. The empty text is none, and neither is a text with a zero ahead of
    another digit. -/
def decimal? : Text → Option Nat
  | [] => none
  | [c] => read? 10 [c]
  | c :: t => if c = Text.zero then none else read? 10 (c :: t)

/-- A decimal number, with a hyphen ahead of it if it is negative. -/
def ofInt : Int → Text
  | .ofNat n => write 10 n
  | .negSucc n => Text.minus :: write 10 (n + 1)

/-! ## Writing -/

/-- All digits but the last are those of the number divided by the base. -/
theorem write_eq {base : Nat} (hb : 1 < base) (n : Nat) :
    write base n = if n < base then [Digit.ofNat n]
      else write base (n / base) ++ [Digit.ofNat (n % base)] := by
  unfold write
  rw [Nat.toDigits_eq_if hb]
  split <;> simp [Digit.ofNat]

/-- A number is at least one digit. -/
theorem write_ne_nil (base n : Nat) : write base n ≠ [] := by
  simp [write, Nat.toDigits_ne_nil]

/-- A number has at most `k` digits exactly if it is below the `k`-th power of the base. -/
theorem length_write_le_iff {base n k : Nat} (hb : 1 < base) (hk : 0 < k) :
    (write base n).length ≤ k ↔ n < Nat.pow base k := by
  rw [write, List.length_map]
  exact Nat.length_toDigits_le_iff hb hk

/-! ## Reading -/

/-- The last digit counts once, and those ahead of it count the base times. -/
theorem read?_concat (base : Nat) (t : Text) (c : UInt8) :
    read? base (t ++ [c]) =
      (read? base t).bind fun n => (digit? base c).map (base * n + ·) := by
  simp [read?, List.foldlM_append, Option.bind_eq_bind]

/-- A digit of the base has a value below it. -/
theorem digit?_lt {base d : Nat} {c : UInt8} (h : digit? base c = some d) : d < base := by
  simpa using (Option.filter_eq_some_iff.1 h).2

/-- A written digit reads back. -/
theorem digit?_ofNat {base d : Nat} (hb : base ≤ 16) (h : d < base) :
    digit? base (Digit.ofNat d) = some d := by
  rw [digit?, Digit.value?_ofNat (by omega)]
  simp [h]

/-- A written number reads back. -/
theorem read?_write {base : Nat} (hb : 1 < base) (hb' : base ≤ 16) (n : Nat) :
    read? base (write base n) = some n := by
  induction n using Nat.strongRecOn with
  | ind n ih =>
    rw [write_eq hb]
    split
    · next h => simp [read?, digit?_ofNat hb' h]
    · next h =>
      have hd : n / base < n := Nat.div_lt_self (by omega) hb
      have hm : n % base < base := Nat.mod_lt _ (by omega)
      simp [read?_concat, ih _ hd, digit?_ofNat hb' hm, Nat.div_add_mod]

/-- The number of `k` digits is below the `k`-th power of the base. -/
theorem read?_lt {base n : Nat} {t : Text} (h : read? base t = some n) :
    n < Nat.pow base t.length := by
  suffices ∀ r : Text, ∀ n, read? base r.reverse = some n → n < Nat.pow base r.length by
    have := this t.reverse n (by rwa [List.reverse_reverse])
    rwa [List.length_reverse] at this
  intro r
  induction r with
  | nil =>
    intro n h
    obtain rfl : 0 = n := by simpa [read?] using h
    exact Nat.zero_lt_one
  | cons c r ih =>
    intro n h
    rw [List.reverse_cons, read?_concat] at h
    obtain ⟨m, hm, h⟩ := Option.bind_eq_some_iff.1 h
    obtain ⟨d, hd, rfl⟩ := Option.map_eq_some_iff.1 h
    have hd := digit?_lt hd
    calc base * m + d < base * (m + 1) := by rw [Nat.mul_add]; omega
      _ ≤ base * Nat.pow base r.length := Nat.mul_le_mul_left _ (ih m hm)
      _ = Nat.pow base (c :: r).length := Nat.mul_comm _ _

end Addressing.Numeral
