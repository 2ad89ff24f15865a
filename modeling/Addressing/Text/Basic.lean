/-!
# Text as bytes

All that the library reads or writes is a string of bytes: a name may hold any bytes at all, and
an address is its bytes before it is anything else. Bytes and text are the same lists; the two
names say which reading is meant.

* `Text.ofString`: the bytes of a string literal, for the library's own words.
* `Text.lower`: the text with its ASCII capitals replaced.
-/

namespace Addressing

/-- A string of bytes. -/
abbrev Bytes := List UInt8

/-- A string of bytes meant to be read. Nothing is assumed of it: it may hold zero bytes, and it
    need not be well-formed UTF-8. -/
abbrev Text := Bytes

namespace Text

/-- The bytes of a string, in UTF-8. -/
def ofString (s : String) : Text := s.toUTF8.data.toList

/-- The colon, which separates the groups of an address. -/
def colon : UInt8 := 0x3a

/-- The full stop, which separates the octets of an address. -/
def dot : UInt8 := 0x2e

/-- The hyphen, the sign of a negative number. -/
def minus : UInt8 := 0x2d

/-- The digit zero. -/
def zero : UInt8 := 0x30

/-- The small letter for an ASCII capital; any other byte is left as it is. -/
def lowerByte (c : UInt8) : UInt8 := if 0x41 ≤ c ∧ c ≤ 0x5a then c + 0x20 else c

/-- The text with small letters for its ASCII capitals. -/
def lower (t : Text) : Text := t.map lowerByte

/-- Lower case changes no length. -/
@[simp] theorem length_lower (t : Text) : t.lower.length = t.length := List.length_map _

/-- A text without capitals is left as it is. -/
theorem lower_eq_iff {t : Text} : t.lower = t ↔ ∀ c ∈ t, lowerByte c = c := by
  induction t with
  | nil => simp [lower]
  | cons c t ih => simpa [lower] using fun _ => ih

end Text

end Addressing
