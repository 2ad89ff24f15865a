import Addressing.Authority.Basic
import Addressing.Proofs.Hex
import Addressing.Proofs.Ip.Address

/-!
# The text of an authority

The text of an authority says all of it (`text_inj`). Its first two bytes tell the kind, so that
no designator passes for one of another kind, whatever bytes it has; and behind `ip:` a dot or a
colon tells an address from bytes that are none, which are digits.
-/

namespace Addressing

/-! ## Addresses and hexadecimal text -/

/-- Bytes in hexadecimal are never read as an address: they have neither a dot nor a colon. -/
theorem Ip.Address.ofText?_encode (b : Bytes) : ofText? (Hex.encode b) = none := by
  rw [Option.eq_none_iff_forall_ne_some]
  intro a h
  rcases dot_or_colon_mem h with hmem | hmem
  · exact Hex.not_mem_encode rfl hmem
  · exact Hex.not_mem_encode rfl hmem

/-- An address is never written like bytes in hexadecimal. -/
theorem Ip.Address.text_ne_encode (a : Ip.Address) (b : Bytes) : a.text ≠ Hex.encode b := by
  intro h
  have ha := a.ofText?_text
  rw [h, ofText?_encode] at ha
  cases ha

namespace Authority

/-! ## Printed addresses and ids -/

/-- Bytes that are an address are written as it. -/
theorem text_ip_bytes (a : Ip.Address) : (ip a.bytes).text = Kind.ip.label ++ a.text := by
  rw [text, Ip.render_bytes]

/-- Bytes that are no address are written in hexadecimal. -/
theorem text_ip_of_not_exists {b : Bytes} (h : ¬ ∃ a : Ip.Address, a.bytes = b) :
    (ip b).text = Kind.ip.label ++ Hex.encode b := by
  rw [text, Ip.render_eq_error_iff.2 ⟨rfl, h⟩]

/-- A text of an IP address is that of the address, or hexadecimal if the bytes are none. -/
theorem text_ip_eq (b : Bytes) :
    (∃ a : Ip.Address, a.bytes = b ∧ (ip b).text = Kind.ip.label ++ a.text) ∨
      (ip b).text = Kind.ip.label ++ Hex.encode b := by
  by_cases h : ∃ a : Ip.Address, a.bytes = b
  · obtain ⟨a, rfl⟩ := h
    exact .inl ⟨a, rfl, text_ip_bytes a⟩
  · exact .inr (text_ip_of_not_exists h)

/-- An id is written as the digits that it can be decoded from, in lower case. -/
theorem text_id_of_decode? {t : Text} {b : Bytes} (h : Hex.decode? t = some b) :
    (id b).text = Kind.id.label ++ t.lower := by
  rw [text, Hex.encode_of_decode? h]

/-! ## Kinds -/

/-- The first two bytes of a text. -/
def Kind.initials : Kind → Text
  | noRemote => Text.ofString "<l"
  | name => Text.ofString "na"
  | ip => Text.ofString "ip"
  | id => Text.ofString "id"

theorem Kind.initials_injective : Function.Injective initials := by
  intro k k' h
  revert h
  cases k <;> cases k' <;> decide

/-- A text begins with the initials of its kind. -/
theorem take_two_text (a : Authority) : a.text.take 2 = a.kind.initials := by
  cases a with
  | noRemote => rfl
  | name n => rfl
  | ip b =>
    rcases text_ip_eq b with ⟨a, _, h⟩ | h
    · rw [h]
      rfl
    · rw [h]
      rfl
  | id b => rfl

/-- Texts of two kinds are never the same. -/
theorem kind_eq_of_text_eq {a a' : Authority} (h : a.text = a'.text) : a.kind = a'.kind := by
  apply Kind.initials_injective
  rw [← take_two_text, ← take_two_text, h]

/-! ## Designators -/

/-- Bytes that print alike as IP addresses are the same, be they addresses or not. -/
theorem ip_text_injective {b b' : Bytes} (h : (ip b).text = (ip b').text) : b = b' := by
  -- Either is written as an address or in hexadecimal, and both in the same way.
  rcases text_ip_eq b with ⟨a, rfl, ha⟩ | hb <;> rcases text_ip_eq b' with ⟨a', rfl, ha'⟩ | hb'
  · rw [ha, ha'] at h
    rw [Ip.Address.text_injective (List.append_cancel_left h)]
  · rw [ha, hb'] at h
    exact absurd (List.append_cancel_left h) (a.text_ne_encode b')
  · rw [hb, ha'] at h
    exact absurd (List.append_cancel_left h).symm (a'.text_ne_encode b)
  · rw [hb, hb'] at h
    exact Hex.encode_injective (List.append_cancel_left h)

/-- Two authorities have the same text exactly if they are the same. -/
theorem text_inj (a a' : Authority) : a.text = a'.text ↔ a = a' := by
  refine ⟨fun h => ?_, fun h => h ▸ rfl⟩
  -- Texts of one kind have the same label, which leaves what is written of the designator.
  have hkind := kind_eq_of_text_eq h
  cases a with
  | noRemote => cases a' with
    | noRemote => rfl
    | _ => cases hkind
  | name n => cases a' with
    | name n' => exact congrArg name (List.append_cancel_left h)
    | _ => cases hkind
  | ip b => cases a' with
    | ip b' => exact congrArg ip (ip_text_injective h)
    | _ => cases hkind
  | id b => cases a' with
    | id b' => exact congrArg id (Hex.encode_injective (List.append_cancel_left h))
    | _ => cases hkind

/-- The device itself, and a device whose name is what is printed for that. -/
example : noRemote.text = Text.ofString "<local>" ∧
    (name (Text.ofString "<local>")).text = Text.ofString "name:<local>" := by decide

end Authority

end Addressing
