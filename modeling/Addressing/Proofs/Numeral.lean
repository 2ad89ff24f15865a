import Addressing.Numeral
import Mathlib.Data.List.Basic
import Mathlib.Data.List.Induction
import Mathlib.Tactic.Common

/-!
# What numerals stand for

A numeral is a text of digits, and `StandsFor` says which number it is: the last digit counts once,
and those ahead of it count the base times. Reading finds exactly that number
(`read?_eq_some_iff`). One number has many numerals, since a letter may be in either case and zeros
may be ahead; it has a single one in small letters without a zero to spare, the written one
(`eq_write_iff`).

* `IsDigit`, `StandsFor`: digits and numerals, as a grammar.
* `Plain`: no zero to spare.
* `decimal?_eq_some_iff`: a decimal number is read from its written numeral only.
* `mem_ofInt`, `ofInt_injective`: signed numbers, their bytes, and that their texts tell them apart.
-/

namespace Addressing

/-! ## Digits -/

namespace Digit

/-- The digits and their values: ten figures, and six letters in either case. -/
inductive IsDigit : UInt8 → Nat → Prop
  | figure {d : Nat} : d < 10 → IsDigit (UInt8.ofNat (0x30 + d)) d
  | small {d : Nat} : d < 6 → IsDigit (UInt8.ofNat (0x61 + d)) (d + 10)
  | capital {d : Nat} : d < 6 → IsDigit (UInt8.ofNat (0x41 + d)) (d + 10)

/-- A byte has a value exactly if it is a digit of that value. -/
theorem value?_eq_some_iff {c : UInt8} {d : Nat} : value? c = some d ↔ IsDigit c d := by
  constructor
  · intro h
    obtain ⟨n, hn, rfl⟩ : ∃ n < 256, UInt8.ofNat n = c :=
      ⟨c.toNat, c.toNat_lt, UInt8.ofNat_toNat⟩
    simp only [value?, UInt8.le_iff_toNat_le, UInt8.reduceToNat, UInt8.toNat_ofNat',
      Nat.mod_eq_of_lt hn] at h
    -- In each range, a byte is the first one of the range and its distance from it.
    split_ifs at h with hf hs hl
    · obtain ⟨e, rfl⟩ := Nat.exists_eq_add_of_le hf.1
      rw [Nat.add_sub_cancel_left, Option.some.injEq] at h
      exact h ▸ .figure (by omega)
    · obtain ⟨e, rfl⟩ := Nat.exists_eq_add_of_le hs.1
      rw [Nat.add_sub_cancel_left, Option.some.injEq] at h
      exact h ▸ .small (by omega)
    · obtain ⟨e, rfl⟩ := Nat.exists_eq_add_of_le hl.1
      rw [Nat.add_sub_cancel_left, Option.some.injEq] at h
      exact h ▸ .capital (by omega)
  · have figures : ∀ d ∈ List.range 10, value? (UInt8.ofNat (0x30 + d)) = some d := by decide
    have letters : ∀ d ∈ List.range 6, value? (UInt8.ofNat (0x61 + d)) = some (d + 10) ∧
        value? (UInt8.ofNat (0x41 + d)) = some (d + 10) := by decide
    rintro (h | h | h)
    · exact figures _ (List.mem_range.2 h)
    · exact (letters _ (List.mem_range.2 h)).1
    · exact (letters _ (List.mem_range.2 h)).2

/-- The digit that is written for a value is one of that value. -/
theorem isDigit_ofNat {d : Nat} (h : d < 16) : IsDigit (ofNat d) d :=
  value?_eq_some_iff.1 (value?_ofNat h)

/-- A digit has the same value in either case. -/
theorem value?_lowerByte (c : UInt8) : value? (Text.lowerByte c) = value? c := by
  rw [Text.lowerByte]
  split_ifs with h
  -- The small letter of a capital that is no digit is none either.
  · simp only [value?, UInt8.le_iff_toNat_le, UInt8.toNat_add, UInt8.reduceToNat] at h ⊢
    grind
  · rfl

/-- The digits that are written are in small letters. -/
theorem lowerByte_ofNat {d : Nat} (h : d < 16) : Text.lowerByte (ofNat d) = ofNat d := by
  have all : ∀ e ∈ List.range 16, Text.lowerByte (ofNat e) = ofNat e := by decide
  exact all d (List.mem_range.2 h)

/-- A digit in lower case is the one that is written for its value. -/
theorem lowerByte_eq_of_isDigit {c : UInt8} {d : Nat} (h : IsDigit c d) :
    Text.lowerByte c = ofNat d := by
  have figures : ∀ d ∈ List.range 10, Text.lowerByte (UInt8.ofNat (0x30 + d)) = ofNat d := by decide
  have letters : ∀ d ∈ List.range 6, Text.lowerByte (UInt8.ofNat (0x61 + d)) = ofNat (d + 10) ∧
      Text.lowerByte (UInt8.ofNat (0x41 + d)) = ofNat (d + 10) := by decide
  rcases h with h | h | h
  · exact figures _ (List.mem_range.2 h)
  · exact (letters _ (List.mem_range.2 h)).1
  · exact (letters _ (List.mem_range.2 h)).2

/-- The digit zero is written for the value zero only. -/
theorem ofNat_eq_zero_iff {d : Nat} (h : d < 16) : ofNat d = Text.zero ↔ d = 0 := by
  have all : ∀ e ∈ List.range 16, ofNat e = Text.zero ↔ e = 0 := by decide
  exact all d (List.mem_range.2 h)

/-- A digit with a value below ten has no case. -/
theorem lowerByte_of_isDigit_lt {c : UInt8} {d : Nat} (h : IsDigit c d) (hd : d < 10) :
    Text.lowerByte c = c := by
  have figures : ∀ d ∈ List.range 10,
      Text.lowerByte (UInt8.ofNat (0x30 + d)) = UInt8.ofNat (0x30 + d) := by decide
  rcases h with h | h | h
  · exact figures _ (List.mem_range.2 h)
  · omega
  · omega

/-- The decimal digits. -/
def decimals : Text := Text.ofString "0123456789"

/-- The hexadecimal digits, in small letters. -/
def smalls : Text := Text.ofString "0123456789abcdef"

/-- A digit with a value below ten is a decimal one. -/
theorem IsDigit.mem_decimals {c : UInt8} {d : Nat} (h : IsDigit c d) (hd : d < 10) :
    c ∈ decimals := by
  have all : ∀ e ∈ List.range 10, ofNat e ∈ decimals := by decide
  rw [← lowerByte_of_isDigit_lt h hd, lowerByte_eq_of_isDigit h]
  exact all d (List.mem_range.2 hd)

/-- A digit that is no capital is a small one. -/
theorem IsDigit.mem_smalls {c : UInt8} {d : Nat} (h : IsDigit c d) (hc : Text.lowerByte c = c) :
    c ∈ smalls := by
  have all : ∀ e ∈ List.range 16, ofNat e ∈ smalls := by decide
  rw [← hc, lowerByte_eq_of_isDigit h]
  exact all d (List.mem_range.2 (value?_lt (value?_eq_some_iff.2 h)))

end Digit

/-! ## Numerals -/

namespace Numeral

open Digit

variable {base : Nat}

/-- The numerals of a base and their numbers. No digits at all stand for zero. -/
inductive StandsFor (base : Nat) : Text → Nat → Prop
  | nil : StandsFor base [] 0
  | concat {t : Text} {c : UInt8} {n d : Nat} :
      StandsFor base t n → IsDigit c d → d < base → StandsFor base (t ++ [c]) (base * n + d)

/-- No zero is ahead of another digit. -/
def Plain (t : Text) : Prop := t.head? = some Text.zero → t = [Text.zero]

theorem digit?_eq_some_iff {c : UInt8} {d : Nat} :
    digit? base c = some d ↔ IsDigit c d ∧ d < base := by
  rw [digit?, Option.filter_eq_some_iff, value?_eq_some_iff, decide_eq_true_iff]

/-- Reading finds the number that a numeral stands for, and reads nothing else. -/
theorem read?_eq_some_iff {t : Text} {n : Nat} : read? base t = some n ↔ StandsFor base t n := by
  constructor
  -- From the right, since each digit counts for what is ahead of it.
  · induction t using List.reverseRecOn generalizing n with
    | nil =>
      intro h
      obtain rfl : 0 = n := Option.some.inj h
      exact .nil
    | append_singleton t c ih =>
      intro h
      rw [read?_concat] at h
      obtain ⟨m, hm, h⟩ := Option.bind_eq_some_iff.1 h
      obtain ⟨d, hd, rfl⟩ := Option.map_eq_some_iff.1 h
      obtain ⟨hd, hlt⟩ := digit?_eq_some_iff.1 hd
      exact .concat (ih hm) hd hlt
  · intro h
    induction h with
    | nil => rfl
    | concat _ hd hlt ih => rw [read?_concat, ih, Option.bind_some, digit?_eq_some_iff.2 ⟨hd, hlt⟩,
        Option.map_some]

/-- The bytes of a numeral are digits. -/
theorem StandsFor.isDigit {t : Text} {n : Nat} (h : StandsFor base t n) {c : UInt8} (hc : c ∈ t) :
    ∃ d < base, IsDigit c d := by
  induction h with
  | nil => exact absurd hc List.not_mem_nil
  | @concat t c' n d _ hd hlt ih =>
    rcases List.mem_append.1 hc with hc | hc
    · exact ih hc
    · exact ⟨d, hlt, List.mem_singleton.1 hc ▸ hd⟩

/-- A byte that is no digit is in no numeral. -/
theorem StandsFor.not_mem {t : Text} {n : Nat} (h : StandsFor base t n) {c : UInt8}
    (hc : value? c = none) : c ∉ t := by
  intro hm
  obtain ⟨d, _, hd⟩ := h.isDigit hm
  rw [value?_eq_some_iff.2 hd] at hc
  exact Option.some_ne_none d hc

/-! ### The written numeral -/

/-- A number is written in small letters. -/
theorem lower_write (hb : 1 < base) (hb' : base ≤ 16) (n : Nat) :
    (write base n).lower = write base n := by
  induction n using Nat.strongRecOn with
  | ind n ih =>
    rw [write_eq hb]
    split_ifs with h
    · rw [Text.lower, List.map_singleton, lowerByte_ofNat (by omega)]
    · have hd : n / base < n := Nat.div_lt_self (by omega) hb
      have hm : n % base < base := Nat.mod_lt _ (by omega)
      rw [Text.lower, List.map_append, ← Text.lower, ih _ hd, List.map_singleton,
        lowerByte_ofNat (by omega)]

/-- A number other than zero is written with another digit than zero first. -/
theorem head?_write (hb : 1 < base) (hb' : base ≤ 16) {n : Nat} (hn : n ≠ 0) :
    (write base n).head? ≠ some Text.zero := by
  induction n using Nat.strongRecOn with
  | ind n ih =>
    rw [write_eq hb]
    split_ifs with h
    · rw [List.head?_singleton, ne_eq, Option.some.injEq, ofNat_eq_zero_iff (by omega)]
      exact hn
    · have hd : n / base < n := Nat.div_lt_self (by omega) hb
      have hpos : n / base ≠ 0 := Nat.ne_of_gt (Nat.div_pos (by omega) (by omega))
      rw [List.head?_append_of_ne_nil _ (write_ne_nil _ _)]
      exact ih _ hd hpos

/-- A number is written without a zero to spare. -/
theorem plain_write (hb : 1 < base) (hb' : base ≤ 16) (n : Nat) : Plain (write base n) := by
  intro h
  obtain rfl : n = 0 := by
    by_contra hn
    exact head?_write hb hb' hn h
  rw [write_eq hb, if_pos (by omega)]
  rfl

/-- A numeral in small letters without a zero to spare is the written one. -/
theorem StandsFor.eq_write (hb : 1 < base) (hb' : base ≤ 16) {t : Text} {n : Nat}
    (h : StandsFor base t n) (hne : t ≠ []) (hlower : t.lower = t) (hplain : Plain t) :
    t = write base n := by
  induction h with
  | nil => exact absurd rfl hne
  | @concat t c n d h hd hlt ih =>
    rw [Text.lower, List.map_append, List.map_singleton] at hlower
    obtain ⟨ht, hc⟩ := List.append_inj' hlower rfl
    obtain rfl : ofNat d = c := lowerByte_eq_of_isDigit hd ▸ List.singleton_inj.1 hc
    rcases eq_or_ne t [] with rfl | htne
    · obtain rfl : 0 = n := Option.some.inj (read?_eq_some_iff.2 h)
      rw [Nat.mul_zero, Nat.zero_add, write_eq hb, if_pos hlt, List.nil_append]
    · -- A zero at the head of `t` would be ahead of the last digit.
      have hhead : t.head? ≠ some Text.zero := by
        intro hz
        have hlen := congrArg List.length (hplain (by rw [List.head?_append_of_ne_nil _ htne, hz]))
        rw [List.length_append, List.length_singleton, List.length_singleton] at hlen
        exact htne (List.length_eq_zero_iff.1 (by omega))
      have hw : t = write base n := ih htne ht fun hz => absurd hz hhead
      have hn : n ≠ 0 := by
        rintro rfl
        rw [hw, write_eq hb, if_pos (by omega)] at hhead
        exact hhead rfl
      have hle : base * 1 ≤ base * n := Nat.mul_le_mul_left _ (Nat.pos_of_ne_zero hn)
      have hdiv : (base * n + d) / base = n := by
        rw [Nat.mul_add_div (by omega), Nat.div_eq_of_lt hlt, Nat.add_zero]
      have hmod : (base * n + d) % base = d := by
        rw [Nat.mul_add_mod, Nat.mod_eq_of_lt hlt]
      rw [write_eq hb, if_neg (by omega), hdiv, hmod, ← hw]

/-- The written numeral is the only one in small letters without a zero to spare. -/
theorem eq_write_iff (hb : 1 < base) (hb' : base ≤ 16) {t : Text} {n : Nat} :
    t = write base n ↔ StandsFor base t n ∧ t ≠ [] ∧ t.lower = t ∧ Plain t := by
  constructor
  · rintro rfl
    exact ⟨read?_eq_some_iff.1 (read?_write hb hb' n), write_ne_nil _ _, lower_write hb hb' n,
      plain_write hb hb' n⟩
  · rintro ⟨h, hne, hlower, hplain⟩
    exact h.eq_write hb hb' hne hlower hplain

/-- The written numeral stands for its number. -/
theorem standsFor_write (hb : 1 < base) (hb' : base ≤ 16) (n : Nat) :
    StandsFor base (write base n) n :=
  ((eq_write_iff hb hb').1 rfl).1

/-- Numbers are told apart by their written numerals. -/
theorem write_injective (hb : 1 < base) (hb' : base ≤ 16) : Function.Injective (write base) := by
  intro m n h
  have hread := read?_write hb hb' m
  rw [h, read?_write hb hb' n] at hread
  exact (Option.some.inj hread).symm

/-! ### Decimal numbers -/

/-- Decimal numerals have no letters. -/
theorem StandsFor.lower_eq {t : Text} {n : Nat} (h : StandsFor 10 t n) : t.lower = t := by
  refine Text.lower_eq_iff.2 fun c hc => ?_
  obtain ⟨d, hd, hc⟩ := h.isDigit hc
  exact lowerByte_of_isDigit_lt hc hd

/-- Decimal numerals are made of decimal digits. -/
theorem StandsFor.mem_decimals {t : Text} {n : Nat} (h : StandsFor 10 t n) {c : UInt8}
    (hc : c ∈ t) : c ∈ decimals := by
  obtain ⟨d, hd, hc⟩ := h.isDigit hc
  exact hc.mem_decimals hd

/-- A number has one decimal numeral without a zero to spare. -/
theorem eq_write_ten_iff {t : Text} {n : Nat} :
    t = write 10 n ↔ StandsFor 10 t n ∧ t ≠ [] ∧ Plain t := by
  rw [eq_write_iff (by omega) (by omega)]
  constructor
  · rintro ⟨h, hne, _, hplain⟩
    exact ⟨h, hne, hplain⟩
  · rintro ⟨h, hne, hplain⟩
    exact ⟨h, hne, h.lower_eq, hplain⟩

/-- A decimal number is read from its written numeral, and from no other. -/
theorem decimal?_eq_some_iff {t : Text} {n : Nat} : decimal? t = some n ↔ t = write 10 n := by
  rw [eq_write_ten_iff, ← read?_eq_some_iff]
  fun_cases decimal? t with
  | case1 => simp
  | case2 c => simp [Plain]
  | case3 t ht =>
    -- The zero is refused, and the numeral has it to spare.
    have hspare : ¬ Plain (Text.zero :: t) := fun h => ht (List.cons.inj (h rfl)).2
    simp [hspare]
  | case4 c t _ hc => simp [Plain, hc]

/-! ### Signed numbers -/

/-- The bytes of a signed number are the hyphen and decimal digits. -/
theorem mem_ofInt {i : Int} {c : UInt8} (h : c ∈ ofInt i) : c ∈ Text.minus :: decimals := by
  have hwrite : ∀ n, c ∈ write 10 n → c ∈ decimals := fun n =>
    (standsFor_write (by omega) (by omega) n).mem_decimals
  cases i with
  | ofNat n => exact List.mem_cons_of_mem _ (hwrite n h)
  | negSucc n =>
    rcases List.mem_cons.1 h with rfl | h
    · exact List.mem_cons_self
    · exact List.mem_cons_of_mem _ (hwrite (n + 1) h)

/-- A numeral does not begin with the hyphen, which is no digit. -/
theorem write_ten_ne_minus_cons (n : Nat) (t : Text) : write 10 n ≠ Text.minus :: t := by
  intro h
  have hmem : Text.minus ∈ write 10 n := by
    rw [h]
    exact List.mem_cons_self
  exact (standsFor_write (by omega) (by omega) n).not_mem rfl hmem

/-- Signed numbers are told apart by their texts. -/
theorem ofInt_injective : Function.Injective ofInt := by
  intro i j h
  cases i with
  | ofNat m =>
    cases j with
    | ofNat n => exact congrArg Int.ofNat (write_injective (by omega) (by omega) h)
    | negSucc n => exact absurd h (write_ten_ne_minus_cons m _)
  | negSucc m =>
    cases j with
    | ofNat n => exact absurd h.symm (write_ten_ne_minus_cons n _)
    | negSucc n =>
      have hsucc : m + 1 = n + 1 := write_injective (by omega) (by omega) (List.cons.inj h).2
      exact congrArg Int.negSucc (Nat.succ.inj hsucc)

end Numeral

end Addressing
