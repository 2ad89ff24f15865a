import Addressing.Digit
import Addressing.Fault

/-!
# Bytes as hexadecimal text

Two digits a byte, the high half first: written in lower case, read in either case, and refused
as a whole if the digits do not pair up or a byte of the text is no digit.

* `Hex.encode`, `Hex.decode?`: the text of bytes and the bytes of a text.
* `decode?_cons_cons`: how decoding goes on after its first two digits.
* `decode?_encode`: encoded bytes decode to themselves.
-/

namespace Addressing.Hex

/-- The two digits of a byte. -/
def digits (b : UInt8) : Text := [Digit.ofNat (b.toNat / 16), Digit.ofNat (b.toNat % 16)]

/-- The digits of all bytes, in order. -/
def encode (bytes : Bytes) : Text := bytes.flatMap digits

/-- The byte of two digits. -/
def byte? (high low : UInt8) : Option UInt8 := do
  let h ← Digit.value? high
  let l ← Digit.value? low
  return UInt8.ofNat (16 * h + l)

/-- Decodes the rest of a text behind the bytes read so far, which stand in reverse. -/
def decodeBehind (done : Bytes) : Text → Option Bytes
  | [] => some done.reverse
  | [_] => none
  | high :: low :: t =>
    match byte? high low with
    | some b => decodeBehind (b :: done) t
    | none => none

/-- The bytes of a text of digits in either case. -/
def decode? (t : Text) : Option Bytes := decodeBehind [] t

/-- What was read before only stands ahead of the rest. -/
theorem decodeBehind_eq (done : Bytes) (t : Text) :
    decodeBehind done t = (decode? t).map (done.reverse ++ ·) := by
  unfold decode?
  suffices ∀ done before : Bytes,
      decodeBehind (done ++ before) t = (decodeBehind done t).map (before.reverse ++ ·) by
    simpa using this [] done
  intro done before
  fun_induction decodeBehind done t with
  | case1 => simp [decodeBehind]
  | case2 => simp [decodeBehind]
  | case3 done high low t b hb ih => simpa [decodeBehind, hb] using ih
  | case4 done high low t hb => simp [decodeBehind, hb]

/-- No digits are no bytes. -/
@[simp] theorem decode?_nil : decode? [] = some [] := rfl

/-- One digit alone is half a byte. -/
@[simp] theorem decode?_singleton (c : UInt8) : decode? [c] = none := rfl

/-- Two digits are a byte, ahead of the bytes of the rest. -/
theorem decode?_cons_cons (high low : UInt8) (t : Text) :
    decode? (high :: low :: t) =
      (byte? high low).bind fun b => (decode? t).map (b :: ·) := by
  rw [decode?, decodeBehind]
  cases byte? high low with
  | none => rfl
  | some b => simpa using decodeBehind_eq [b] t

/-- The two digits of a byte read back. -/
theorem byte?_digits (b : UInt8) :
    byte? (Digit.ofNat (b.toNat / 16)) (Digit.ofNat (b.toNat % 16)) = some b := by
  have hb := b.toNat_lt
  rw [byte?, Digit.value?_ofNat (by omega), Digit.value?_ofNat (by omega)]
  show some (UInt8.ofNat (16 * (b.toNat / 16) + b.toNat % 16)) = some b
  rw [Nat.div_add_mod, UInt8.ofNat_toNat]

/-- Encoded bytes decode to themselves. -/
theorem decode?_encode (bytes : Bytes) : decode? (encode bytes) = some bytes := by
  induction bytes with
  | nil => rfl
  | cons b bytes ih =>
    simp only [encode, List.flatMap_cons, digits, List.cons_append, List.nil_append] at ih ⊢
    simp [decode?_cons_cons, byte?_digits, ih]

/-- Reads hexadecimal text, or says that it is none. -/
def parse (t : Text) : Except Fault Bytes :=
  match decode? t with
  | some bytes => .ok bytes
  | none => .error .invalidHex

end Addressing.Hex
