import Addressing.Proofs.Ip.Grammar

/-!
# Texts of IPv4 addresses

A text without a colon is read as an address exactly if it is four octets in decimal, none of them
with a zero to spare, with a dot between each two of them and nothing else (`IsDotted`). This says
of a text what is written for the address, so that reading such a text and writing four bytes undo
each other (`parse_eq_ok_iff_isDotted`).
-/

namespace Addressing.Ip

/-- Four octets and their text. -/
inductive IsDotted : Bytes → Text → Prop
  | mk {o₁ o₂ o₃ o₄ : UInt8} {f₁ f₂ f₃ f₄ : Text} :
      IsOctet o₁ f₁ → IsOctet o₂ f₂ → IsOctet o₃ f₃ → IsOctet o₄ f₄ →
      IsDotted [o₁, o₂, o₃, o₄]
        (f₁ ++ [Text.dot] ++ f₂ ++ [Text.dot] ++ f₃ ++ [Text.dot] ++ f₄)

variable {b : Bytes} {t : Text}

/-- The octets of an address have the text that is written for it, and no other. -/
theorem isDotted_iff : IsDotted b t ↔ ∃ a : V4, a.octets = b ∧ a.text = t := by
  constructor
  · rintro @⟨o₁, o₂, o₃, o₄, _, _, _, _, h₁, h₂, h₃, h₄⟩
    rw [isOctet_iff.1 h₁, isOctet_iff.1 h₂, isOctet_iff.1 h₃, isOctet_iff.1 h₄]
    exact ⟨⟨o₁, o₂, o₃, o₄⟩, rfl, V4.text_eq_append _⟩
  · rintro ⟨a, rfl, rfl⟩
    rw [a.text_eq_append]
    exact .mk (isOctet_iff.2 rfl) (isOctet_iff.2 rfl) (isOctet_iff.2 rfl) (isOctet_iff.2 rfl)

/-- An address whose text has no colon is one of four octets. -/
theorem exists_v4_of_ofText? {a : Address} (ht : Text.colon ∉ t) (h : Address.ofText? t = some a) :
    ∃ a' : V4, a = .v4 a' ∧ a'.text = t := by
  cases a with
  | v4 a => exact ⟨a, rfl, (Address.ofText?_eq_v4_iff.1 h).symm⟩
  | v6 a =>
    obtain ⟨s, hs, rfl⟩ := Address.ofText?_eq_v6_iff.1 h
    exact absurd (Spelling.colon_mem_text hs) ht

/-- Without a colon, the octets of a text are read from it and nothing else is. -/
theorem parse_eq_ok_iff_of_not_mem (ht : Text.colon ∉ t) : parse t = .ok b ↔ IsDotted b t := by
  rw [parse_eq_ok_iff, isDotted_iff]
  constructor
  · rintro ⟨a, ha, rfl⟩
    obtain ⟨a, rfl, rfl⟩ := exists_v4_of_ofText? ht ha
    exact ⟨a, rfl, rfl⟩
  · rintro ⟨a, rfl, rfl⟩
    exact ⟨.v4 a, Address.ofText?_eq_v4_iff.2 rfl, rfl⟩

/-- Four bytes are written as their octets. -/
theorem isDotted_iff_render : IsDotted b t ↔ b.length = 4 ∧ render b = .ok t := by
  rw [isDotted_iff, render_eq_ok_iff]
  constructor
  · rintro ⟨a, rfl, rfl⟩
    exact ⟨rfl, .v4 a, rfl, rfl⟩
  · rintro ⟨hlen, a | a, rfl, rfl⟩
    · exact ⟨a, rfl, rfl⟩
    · -- The bytes of the other family are too many.
      exact absurd (hlen.symm.trans a.length_bytes) (by decide)

/-- Four bytes have one text. -/
theorem IsDotted.unique {t' : Text} (h : IsDotted b t) (h' : IsDotted b t') : t = t' := by
  have hrender := (isDotted_iff_render.1 h).2
  rw [(isDotted_iff_render.1 h').2] at hrender
  exact (Except.ok.inj hrender).symm

/-- There is no colon between octets, nor in one. -/
theorem IsDotted.colon_not_mem (h : IsDotted b t) : Text.colon ∉ t := by
  obtain ⟨a, rfl, rfl⟩ := isDotted_iff.1 h
  exact a.colon_not_mem_text

/-- Texts without a colon are read as the four bytes that are written as that text, and these are
    the bytes of which it is the octets in decimal; any other text without a colon is refused.
    Four bytes are read from one such text and from no other. -/
theorem parse_eq_ok_iff_isDotted :
    (∀ t, Text.colon ∉ t → ∀ b, parse t = .ok b ↔ b.length = 4 ∧ render b = .ok t) ∧
    (∀ t, Text.colon ∉ t → ∀ b, parse t = .ok b ↔ IsDotted b t) ∧
    (∀ t, Text.colon ∉ t → (parse t = .error .invalidAddress ↔ ∀ b, ¬ IsDotted b t)) ∧
    ∀ b : Bytes, b.length = 4 → ∃! t, Text.colon ∉ t ∧ parse t = .ok b := by
  refine ⟨fun t ht b => ?_, fun t ht b => parse_eq_ok_iff_of_not_mem ht, fun t ht => ?_,
    fun b hb => ?_⟩
  · rw [parse_eq_ok_iff_of_not_mem ht, isDotted_iff_render]
  · rw [parse_eq_error_iff_forall]
    exact forall_congr' fun b => not_congr (parse_eq_ok_iff_of_not_mem ht)
  · obtain ⟨w, x, y, z, rfl⟩ := List.length_eq_four.1 hb
    have ht := isDotted_iff.2 ⟨⟨w, x, y, z⟩, rfl, rfl⟩
    refine ⟨_, ⟨ht.colon_not_mem, (parse_eq_ok_iff_of_not_mem ht.colon_not_mem).2 ht⟩, ?_⟩
    rintro t' ⟨hcolon, hp⟩
    exact ((parse_eq_ok_iff_of_not_mem hcolon).1 hp).unique ht

/-- A text with octets of one, two and three digits, and its four bytes. -/
theorem parse_eq_ok_iff_isDotted_octets :
    let t := Text.ofString "192.0.2.10"
    let b : Bytes := [192, 0, 2, 10]
    Text.colon ∉ t ∧ (parse t = .ok b ↔ b.length = 4 ∧ render b = .ok t) ∧
      (parse t = .ok b ↔ IsDotted b t) ∧
      (parse t = .error .invalidAddress ↔ ∀ b, ¬ IsDotted b t) ∧
      b.length = 4 ∧ ∃! t, Text.colon ∉ t ∧ parse t = .ok b := by
  intro t b
  have ht : Text.colon ∉ t := by decide
  exact ⟨ht, parse_eq_ok_iff_isDotted.1 t ht b, parse_eq_ok_iff_isDotted.2.1 t ht b,
    parse_eq_ok_iff_isDotted.2.2.1 t ht, rfl, parse_eq_ok_iff_isDotted.2.2.2 b rfl⟩

/-- A zero to spare in one octet, where the number itself would fit. -/
example : parse (Text.ofString "192.0.2.010") = .error .invalidAddress := by decide

end Addressing.Ip
