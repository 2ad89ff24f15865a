import Addressing.Proofs.Ip.Canonical

/-!
# The extent of address texts

How long the text is that is written for an address, and which bytes are in it. There is a shortest
and a longest text of either family, and both are within the room that there is for them, so that
no address is refused for want of room (`render_family`). The bytes of a text leave no doubt about
its family: octets have no colon between them, and groups have one.

* `V4.le_length_text`, `V4.mem_text`: four decimal numerals and three dots.
* `V6.le_length_text`, `V6.length_text_le`: from `::` alone to eight groups of four digits. Octets
  take more room than the groups that they fill, but behind a gap there is room to spare.
* `V6.mem_text`: small digits, colons and dots.
-/

namespace Addressing.Ip

/-! ## IPv4 addresses -/

namespace V4

/-- The shortest text is four numerals of one digit, with three dots between them. -/
theorem le_length_text (a : V4) : 7 ≤ a.text.length := by
  have hlen : ∀ o : UInt8, 1 ≤ (Numeral.write 10 o.toNat).length := fun o =>
    List.length_pos_iff.2 (Numeral.write_ne_nil 10 o.toNat)
  have h₁ := hlen a.first
  have h₂ := hlen a.second
  have h₃ := hlen a.third
  have h₄ := hlen a.fourth
  rw [text_eq_append]
  simp only [List.length_append, List.length_singleton]
  omega

/-- Other than dots, all bytes of the text are decimal digits. -/
theorem mem_text {a : V4} {c : UInt8} (h : c ∈ a.text) : c ∈ Text.dot :: Digit.decimals := by
  rcases Text.mem_of_mem_join (text_eq a ▸ h) with rfl | ⟨f, hf, hc⟩
  · exact List.mem_cons_self
  · obtain ⟨o, _, rfl⟩ := List.mem_map.1 hf
    have hnumeral : Numeral.StandsFor 10 (Numeral.write 10 o.toNat) o.toNat :=
      Numeral.standsFor_write (by omega) (by omega) _
    exact List.mem_cons_of_mem _ (hnumeral.mem_decimals hc)

end V4

/-! ## IPv6 addresses -/

/-- A group takes five bytes with its colon. Octets take sixteen at most, which is six more than
    the two groups that they fill. -/
theorem Chain.length_text_le_of_groups (c : Chain) :
    c.text.length ≤ 5 * c.groups.length + 6 * c.octets.toList.length - 1 := by
  have htext := c.length_text_le
  rw [c.length_groups]
  omega

/-- A gap takes two bytes, and the octets behind it five more than their groups at most. -/
theorem Spelling.length_text_gapped_le (ahead : List Hextet) (behind : Chain) :
    (gapped ahead behind).text.length ≤ 5 * (ahead.length + behind.groups.length) + 7 := by
  have hahead := (Chain.mk ahead none).length_text_le_of_groups
  have hbehind := behind.length_text_le_of_groups
  have hoctets : behind.octets.toList.length ≤ 1 := Option.length_toList_le
  rw [Chain.groups_none, List.length_map, Option.toList_none, List.length_nil] at hahead
  rw [text, List.length_append, List.length_append, show gap.length = 2 from rfl]
  omega

namespace V6

/-- The longest text is eight groups of four digits, with seven colons between them. -/
theorem length_text_le (a : V6) : a.text.length ≤ 39 := by
  rcases Nat.lt_or_ge (ZeroRun.longest a.groups).length 2 with hlt | hle
  · have hchain := (Chain.mk (a.groups.map .shortest) none).length_text_le_of_groups
    rw [Chain.groups_none, map_group_shortest, a.length_groups] at hchain
    rw [text, spelling_of_lt hlt]
    exact hchain
  · -- Two groups at least are left out, which makes up for the octets that may be written.
    have hrun := (ZeroRun.isFirstLongest_longest a.groups).isRun.add_le
    rw [a.length_groups] at hrun
    rw [text, spelling_of_le rfl hle]
    refine (Spelling.length_text_gapped_le _ _).trans ?_
    rw [List.length_map, List.length_take, Chain.groups_behind, List.length_drop, a.length_groups]
    omega

/-- The shortest text is a gap alone. -/
theorem le_length_text (a : V6) : 2 ≤ a.text.length := by
  rcases Nat.lt_or_ge (ZeroRun.longest a.groups).length 2 with hlt | hle
  · rw [text, spelling_of_lt hlt, Spelling.text, Chain.text, Text.length_join, Chain.fields_none,
      List.length_map, List.length_map, a.length_groups]
    omega
  · rw [text, spelling_of_le rfl hle, Spelling.text, List.length_append, List.length_append,
      show Spelling.gap.length = 2 from rfl]
    omega

/-- Other than colons and dots, all bytes of the text are digits in small letters. -/
theorem mem_text {a : V6} {c : UInt8} (h : c ∈ a.text) :
    c ∈ Text.colon :: Text.dot :: Digit.smalls := by
  rw [List.mem_cons, List.mem_cons]
  by_cases hcolon : c = Text.colon
  · exact .inl hcolon
  by_cases hdot : c = Text.dot
  · exact .inr (.inl hdot)
  -- What is left is a digit, and there are no capitals in a canonical text.
  obtain ⟨d, hd⟩ := Option.ne_none_iff_exists'.1 fun hnone =>
    Spelling.not_mem_text hnone hdot hcolon h
  have hlower := Text.lower_eq_iff.1 a.isCanonical_text.lower c h
  exact .inr (.inr ((Digit.value?_eq_some_iff.1 hd).mem_smalls hlower))

/-- The text holds a colon, which tells it from those of the other family. -/
theorem colon_mem_text (a : V6) : Text.colon ∈ a.text := Spelling.colon_mem_text a.address?_spelling

end V6

/-! ## Rendering -/

/-- The text `t` of the bytes `b` is made of certain bytes alone, and its length is between two
    bounds. There is room for it, and it is read back. -/
structure IsTextOf (b : Bytes) (least most : Nat) (alphabet t : Text) : Prop where
  render : render b = .ok t
  le_length : least ≤ t.length
  length_le : t.length ≤ most
  mem_alphabet : ∀ c ∈ t, c ∈ alphabet
  /-- Behind the text there is room for one more byte. -/
  room : t.length + 1 ≤ 46
  /-- The guards of reading do not refuse the text before it is looked at. -/
  guards : ¬ (Address.maxTextLength < t.length ∨ 0 ∈ t)
  parse : parse t = .ok b

/-- For the text of an address, only its length and its bytes are in question. -/
theorem isTextOf_bytes {a : Address} {least most : Nat} {alphabet : Text}
    (hle : least ≤ a.text.length) (hle' : a.text.length ≤ most)
    (halphabet : ∀ c ∈ a.text, c ∈ alphabet) : IsTextOf a.bytes least most alphabet a.text where
  render := render_bytes a
  le_length := hle
  length_le := hle'
  mem_alphabet := halphabet
  room := Nat.succ_le_succ a.length_text_le
  guards h := by
    -- What the guards refuse is not read.
    have hread := a.ofText?_text
    rw [Address.ofText?, if_pos h] at hread
    cases hread
  parse := parse_of_render (render_bytes a)

/-- Rendering fails for bytes that are neither four nor sixteen, and for nothing else, least of all
    for want of room. The text of four bytes is 7 to 15 bytes long, made of dots and decimal digits,
    and that of sixteen is 2 to 39 bytes long, made of colons, dots and small digits. Colons are in
    the latter only, and each is read in the family that it was rendered from. -/
theorem render_family (b : Bytes) :
    (∀ f, render b = .error f ↔ f = .invalidAddressLength ∧ ¬ (b.length = 4 ∨ b.length = 16)) ∧
    (b.length = 4 → ∃ t, IsTextOf b 7 15 (Text.dot :: Digit.decimals) t ∧ Text.colon ∉ t ∧
      ∃ a : V4, Address.ofText? t = some (.v4 a)) ∧
    (b.length = 16 → ∃ t, IsTextOf b 2 39 (Text.colon :: Text.dot :: Digit.smalls) t ∧
      Text.colon ∈ t ∧ ∃ a : V6, Address.ofText? t = some (.v6 a)) := by
  refine ⟨fun f => ?_, fun hb => ?_, fun hb => ?_⟩
  · rw [render_eq_error_iff, Address.exists_bytes_iff]
  · obtain ⟨w, x, y, z, rfl⟩ := List.length_eq_four.1 hb
    let a : V4 := ⟨w, x, y, z⟩
    refine ⟨a.text, ?_, a.colon_not_mem_text, a, (Address.v4 a).ofText?_text⟩
    exact isTextOf_bytes (a := .v4 a) a.le_length_text a.length_text_le fun c => V4.mem_text
  · obtain ⟨a | a, rfl⟩ := Address.exists_bytes_iff.2 (.inr hb)
    · -- The bytes of the other family are too few.
      exact absurd (show 4 = 16 from hb) (by decide)
    · refine ⟨a.text, ?_, a.colon_mem_text, a, (Address.v6 a).ofText?_text⟩
      exact isTextOf_bytes (a := .v6 a) a.le_length_text a.length_text_le fun c => V6.mem_text

/-- The bytes with the longest text of either family. -/
theorem render_family_longest :
    let b : Bytes := List.replicate 4 0xff
    let b' : Bytes := List.replicate 16 0xff
    (b.length = 4 ∧ ∃ t, IsTextOf b 7 15 (Text.dot :: Digit.decimals) t ∧ Text.colon ∉ t ∧
      ∃ a : V4, Address.ofText? t = some (.v4 a)) ∧
    b'.length = 16 ∧ ∃ t, IsTextOf b' 2 39 (Text.colon :: Text.dot :: Digit.smalls) t ∧
      Text.colon ∈ t ∧ ∃ a : V6, Address.ofText? t = some (.v6 a) :=
  ⟨⟨rfl, (render_family _).2.1 rfl⟩, rfl, (render_family _).2.2 rfl⟩

/-- The bounds are met: a gap alone, and eight groups of four digits. -/
example : (render (List.replicate 16 0)).map List.length = .ok 2 ∧
    (render (List.replicate 16 0xff)).map List.length = .ok 39 := by decide

end Addressing.Ip
