import Addressing.Hex
import Addressing.Proofs.Numeral
import Mathlib.Data.List.Induction

/-!
# Hexadecimal text, in either direction

Bytes have one text, and a text in any case is that of one string of bytes at most: decoding finds
the bytes whose text it is in lower case, and refuses it if there are none
(`parse_eq_ok_iff_lower`). What is refused is told by the text alone.

* `byte?_eq_some_iff`, `digits_of_byte?`: one byte and its two digits.
* `decode?_lower`, `encode_of_decode?`: what decoding loses of a text is its case.
* `exists_decode?_iff`: a text of bytes is digits, and they pair up.
* `exists_decode?_length_iff`: how many bytes a text is of, by its length.
* `standsFor_encode`: the text of bytes as a numeral, which tells what it holds (`not_mem_encode`).
-/

namespace Addressing.Hex

open Digit

variable {t : Text} {bytes : Bytes}

/-! ## One byte -/

/-- Two digits are a byte, and the first of them counts sixteen times. -/
theorem byte?_eq_some_iff {high low b : UInt8} : byte? high low = some b ↔
    ∃ m n, value? high = some m ∧ value? low = some n ∧ UInt8.ofNat (16 * m + n) = b := by
  simp only [byte?, Option.bind_eq_bind, Option.bind_eq_some_iff, Option.pure_def,
    Option.some.injEq, exists_and_left]

/-- The byte of two digits is written with these digits, in lower case. -/
theorem digits_of_byte? {high low b : UInt8} (h : byte? high low = some b) :
    digits b = [Text.lowerByte high, Text.lowerByte low] := by
  obtain ⟨m, n, hm, hn, rfl⟩ := byte?_eq_some_iff.1 h
  have hm' := value?_lt hm
  have hn' := value?_lt hn
  have hb : (UInt8.ofNat (16 * m + n)).toNat = 16 * m + n := by
    rw [UInt8.toNat_ofNat', Nat.mod_eq_of_lt (by omega)]
  rw [digits, hb, show (16 * m + n) / 16 = m by omega, show (16 * m + n) % 16 = n by omega,
    lowerByte_eq_of_isDigit (value?_eq_some_iff.1 hm),
    lowerByte_eq_of_isDigit (value?_eq_some_iff.1 hn)]

/-- Two bytes of a text are a byte exactly if both are digits. -/
theorem exists_byte?_iff {high low : UInt8} :
    (∃ b, byte? high low = some b) ↔ (∃ d, IsDigit high d) ∧ ∃ d, IsDigit low d := by
  simp only [byte?_eq_some_iff, ← value?_eq_some_iff]
  constructor
  · rintro ⟨_, m, n, hm, hn, _⟩
    exact ⟨⟨m, hm⟩, n, hn⟩
  · rintro ⟨⟨m, hm⟩, n, hn⟩
    exact ⟨_, m, n, hm, hn, rfl⟩

/-! ## All bytes -/

/-- A text is decoded without regard to its case. -/
theorem decode?_lower (t : Text) : decode? t.lower = decode? t := by
  induction t using List.twoStepInduction with
  | nil => rfl
  | singleton c => rfl
  | cons_cons high low t ih _ =>
    have hlower : Text.lower (high :: low :: t) =
        Text.lowerByte high :: Text.lowerByte low :: Text.lower t := rfl
    rw [hlower, decode?_cons_cons, decode?_cons_cons, ih, byte?, byte?, value?_lowerByte,
      value?_lowerByte]

/-- Decoded bytes are encoded as the text that they were decoded from, in lower case. -/
theorem encode_of_decode? (h : decode? t = some bytes) : encode bytes = t.lower := by
  induction t using List.twoStepInduction generalizing bytes with
  | nil =>
    obtain rfl : [] = bytes := Option.some.inj h
    rfl
  | singleton c => cases h
  | cons_cons high low t ih _ =>
    rw [decode?_cons_cons] at h
    obtain ⟨b, hb, h⟩ := Option.bind_eq_some_iff.1 h
    obtain ⟨rest, hrest, rfl⟩ := Option.map_eq_some_iff.1 h
    rw [encode, List.flatMap_cons, digits_of_byte? hb, ← encode, ih hrest]
    rfl

/-- Bytes are encoded in lower case. -/
theorem lower_encode (bytes : Bytes) : (encode bytes).lower = encode bytes :=
  (encode_of_decode? (decode?_encode bytes)).symm

/-- A text is decoded to the bytes whose text it is, apart from its case. -/
theorem decode?_eq_some_iff : decode? t = some bytes ↔ t.lower = encode bytes := by
  refine ⟨fun h => (encode_of_decode? h).symm, fun h => ?_⟩
  rw [← decode?_lower, h, decode?_encode]

/-- A text is decoded exactly if all of it is digits and they pair up. -/
theorem exists_decode?_iff :
    (∃ bytes, decode? t = some bytes) ↔ t.length % 2 = 0 ∧ ∀ c ∈ t, ∃ d, IsDigit c d := by
  induction t using List.twoStepInduction with
  | nil => simp
  | singleton c => simp
  | cons_cons high low t ih _ =>
    have hsome : (∃ bytes, decode? (high :: low :: t) = some bytes) ↔
        (∃ b, byte? high low = some b) ∧ ∃ rest, decode? t = some rest := by
      simp only [decode?_cons_cons, Option.bind_eq_some_iff, Option.map_eq_some_iff]
      exact ⟨fun ⟨_, b, hb, rest, hrest, _⟩ => ⟨⟨b, hb⟩, rest, hrest⟩,
        fun ⟨⟨b, hb⟩, rest, hrest⟩ => ⟨b :: rest, b, hb, rest, hrest, rfl⟩⟩
    have hlen : (high :: low :: t).length % 2 = t.length % 2 := by
      rw [List.length_cons, List.length_cons]
      omega
    rw [hsome, ih, exists_byte?_iff, hlen, List.forall_mem_cons, List.forall_mem_cons]
    tauto

/-! ## The number of bytes -/

/-- A text of bytes: all of it is digits, in either case, and there are two for each byte. -/
def IsText (t : Text) : Prop := t.length % 2 = 0 ∧ ∀ c ∈ t, ∃ d, IsDigit c d

theorem isText_iff : IsText t ↔ ∃ bytes, decode? t = some bytes := exists_decode?_iff.symm

/-- A byte has two digits. -/
theorem length_encode (bytes : Bytes) : (encode bytes).length = 2 * bytes.length := by
  induction bytes with
  | nil => rfl
  | cons b bytes ih =>
    have hdigits : (digits b).length = 2 := rfl
    rw [encode, List.flatMap_cons, ← encode, List.length_append, ih, hdigits, List.length_cons]
    omega

/-- Two digits are a byte. -/
theorem length_of_decode? (h : decode? t = some bytes) : t.length = 2 * bytes.length := by
  rw [← Text.length_lower, ← encode_of_decode? h, length_encode]

/-- What is asked of the number of bytes is asked of the length of their text. -/
theorem exists_decode?_length_iff {p : Nat → Prop} :
    (∃ bytes, decode? t = some bytes ∧ p bytes.length) ↔ IsText t ∧ p (t.length / 2) := by
  constructor
  · rintro ⟨bytes, h, hp⟩
    refine ⟨isText_iff.2 ⟨bytes, h⟩, ?_⟩
    rwa [length_of_decode? h, Nat.mul_div_cancel_left _ (by omega)]
  · rintro ⟨ht, hp⟩
    obtain ⟨bytes, h⟩ := isText_iff.1 ht
    rw [length_of_decode? h, Nat.mul_div_cancel_left _ (by omega)] at hp
    exact ⟨bytes, h, hp⟩

/-! ## The number that is written -/

/-- The number that bytes are, with the first of them counting most. -/
def number (bytes : Bytes) : Nat := bytes.foldl (fun n b => 256 * n + b.toNat) 0

/-- The text of bytes is a numeral of the number that they are. -/
theorem standsFor_encode (bytes : Bytes) : Numeral.StandsFor 16 (encode bytes) (number bytes) := by
  -- From the right, as numerals are built.
  induction bytes using List.reverseRecOn with
  | nil => exact .nil
  | append_singleton bytes b ih =>
    have hb := b.toNat_lt
    have hhigh : b.toNat / 16 < 16 := by omega
    have hlow : b.toNat % 16 < 16 := by omega
    have htext : encode (bytes ++ [b]) =
        encode bytes ++ [ofNat (b.toNat / 16)] ++ [ofNat (b.toNat % 16)] := by
      simp [encode, digits]
    have hnumber : number (bytes ++ [b]) =
        16 * (16 * number bytes + b.toNat / 16) + b.toNat % 16 := by
      rw [number, List.foldl_append, List.foldl_cons, List.foldl_nil, ← number]
      omega
    rw [htext, hnumber]
    exact (ih.concat (isDigit_ofNat hhigh) hhigh).concat (isDigit_ofNat hlow) hlow

/-- A byte that is no digit is in no hexadecimal text. -/
theorem not_mem_encode {c : UInt8} (hc : value? c = none) : c ∉ encode bytes :=
  (standsFor_encode bytes).not_mem hc

/-- All bytes of a hexadecimal text are digits in small letters. -/
theorem mem_encode {c : UInt8} (h : c ∈ encode bytes) : c ∈ smalls := by
  obtain ⟨d, _, hd⟩ := (standsFor_encode bytes).isDigit h
  exact hd.mem_smalls (Text.lower_eq_iff.1 (lower_encode bytes) c h)

theorem encode_injective : Function.Injective encode := fun a b h =>
  Option.some.inj ((decode?_encode a).symm.trans (h ▸ decode?_encode b))

/-! ## Parsing -/

theorem parse_eq_ok_iff : parse t = .ok bytes ↔ decode? t = some bytes := by
  rw [parse]
  split
  · next b h => simp [h]
  · next h => simp [h]

/-- Parsing refuses the texts that cannot be decoded, all with one fault. -/
theorem parse_eq_error_iff : parse t = .error .invalidHex ↔ decode? t = none := by
  rw [parse]
  split
  · next b h => simp [h]
  · next h => simp [h]

/-- Encoded bytes are parsed to themselves. -/
theorem parse_encode (bytes : Bytes) : parse (encode bytes) = .ok bytes :=
  parse_eq_ok_iff.2 (decode?_encode bytes)

/-- A text is parsed to the bytes whose text it is in lower case, and refused if there are none,
    which is to say unless all of it is digits and they are even in number. All bytes are parsed
    from their text, and their text is a numeral of the number that they are. -/
theorem parse_eq_ok_iff_lower :
    (∀ t b, parse t = .ok b ↔ t.lower = encode b) ∧
    (∀ t, parse t = .error .invalidHex ↔ ∀ b, t.lower ≠ encode b) ∧
    (∀ t, (∃ b, parse t = .ok b) ↔ t.length % 2 = 0 ∧ ∀ c ∈ t, ∃ d, IsDigit c d) ∧
    (∀ b, parse (encode b) = .ok b) ∧
    ∀ b, Numeral.StandsFor 16 (encode b) (number b) := by
  refine ⟨fun t b => ?_, fun t => ?_, fun t => ?_, parse_encode, standsFor_encode⟩
  · rw [parse_eq_ok_iff, decode?_eq_some_iff]
  · rw [parse_eq_error_iff, Option.eq_none_iff_forall_ne_some]
    exact forall_congr' fun b => not_congr decode?_eq_some_iff
  · simp only [parse_eq_ok_iff, exists_decode?_iff]

/-- A byte above all ASCII is no digit, wherever it stands. -/
example : parse [0x30, 0x31, 0x66, 0xe6] = .error .invalidHex := by decide

end Addressing.Hex
