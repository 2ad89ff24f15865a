import Addressing.Ip.V4
import Addressing.Proofs.Numeral
import Addressing.Proofs.Separator

/-!
# The text of four octets

An IPv4 address is read from the text that is written for it, and from no other text
(`V4.ofText?_eq_some_iff`). What else is told of the text here is what its place among the groups
of a longer address asks for: which bytes it holds, and how long it can be.
-/

namespace Addressing.Ip.V4

/-- An octet is read from its written numeral only. -/
theorem octet?_eq_some_iff {t : Text} {o : UInt8} :
    octet? t = some o ↔ t = Numeral.write 10 o.toNat := by
  rw [octet?, Option.bind_eq_some_iff]
  constructor
  · rintro ⟨n, hn, h⟩
    split_ifs at h with hlt
    obtain rfl : UInt8.ofNat n = o := Option.some.inj h
    rw [UInt8.toNat_ofNat', Nat.mod_eq_of_lt hlt]
    exact Numeral.decimal?_eq_some_iff.1 hn
  · intro h
    refine ⟨o.toNat, Numeral.decimal?_eq_some_iff.2 h, ?_⟩
    rw [if_pos o.toNat_lt, UInt8.ofNat_toNat]

/-- The written numeral of an octet reads back. -/
theorem octet?_write (o : UInt8) : octet? (Numeral.write 10 o.toNat) = some o :=
  octet?_eq_some_iff.2 rfl

/-- The numerals that the dots join. -/
def fields (a : V4) : List Text := a.octets.map fun o => Numeral.write 10 o.toNat

theorem text_eq (a : V4) : a.text = [Text.dot].intercalate a.fields := rfl

/-- The text spelled out. -/
theorem text_eq_append (a : V4) :
    a.text = Numeral.write 10 a.first.toNat ++ [Text.dot] ++ Numeral.write 10 a.second.toNat ++
      [Text.dot] ++ Numeral.write 10 a.third.toNat ++ [Text.dot] ++
      Numeral.write 10 a.fourth.toNat := by
  simp [text_eq, fields, octets]

/-- A byte that is no digit is in no numeral of an octet. -/
theorem not_mem_field {a : V4} {c : UInt8} (hc : Digit.value? c = none) :
    ∀ f ∈ a.fields, c ∉ f := by
  intro f hf
  obtain ⟨o, _, rfl⟩ := List.mem_map.1 hf
  exact (Numeral.standsFor_write (by omega) (by omega) _).not_mem hc

/-- An address is read from its own text and from no other. -/
theorem ofText?_eq_some_iff {t : Text} {a : V4} : ofText? t = some a ↔ t = a.text := by
  rw [text_eq, ← Text.splitOn_eq_iff (by simp [fields, octets]) (not_mem_field rfl)]
  constructor
  · intro h
    rw [ofText?] at h
    split at h
    · next w x y z hs =>
      -- Each of the four parts is the numeral of the octet that it is read as.
      simp only [Option.bind_eq_bind, Option.bind_eq_some_iff, octet?_eq_some_iff] at h
      obtain ⟨o₁, rfl, o₂, rfl, o₃, rfl, o₄, rfl, h⟩ := h
      rw [hs, ← Option.some.inj h]
      rfl
    · contradiction
  · intro h
    simp only [ofText?, h, fields, octets, List.map_cons, List.map_nil, octet?_write]
    rfl

/-- The text holds a dot. -/
theorem dot_mem_text (a : V4) : Text.dot ∈ a.text := by
  simp [text_eq, fields, octets]

/-- Other than dots, all bytes of the text are digits. -/
theorem not_mem_text {a : V4} {c : UInt8} (hc : Digit.value? c = none) (hdot : c ≠ Text.dot) :
    c ∉ a.text :=
  Text.not_mem_join hdot (not_mem_field hc)

/-- There is no colon in the text, which tells it from those of the other family. -/
theorem colon_not_mem_text (a : V4) : Text.colon ∉ a.text := not_mem_text rfl (by decide)

/-- The text has no letters. -/
theorem lower_text (a : V4) : a.text.lower = a.text := by
  refine Text.lower_eq_iff.2 fun c hc => ?_
  rcases Text.mem_of_mem_join (text_eq a ▸ hc) with rfl | ⟨f, hf, hc⟩
  · rfl
  · obtain ⟨o, _, rfl⟩ := List.mem_map.1 hf
    exact Text.lower_eq_iff.1 (Numeral.lower_write (by omega) (by omega) _) c hc

/-- The longest text is four numerals of three digits, with three dots between them. -/
theorem length_text_le (a : V4) : a.text.length ≤ 15 := by
  have hlen : ∀ o : UInt8, (Numeral.write 10 o.toNat).length ≤ 3 := fun o =>
    (Numeral.length_write_le_iff (by omega) (by omega)).2
      (Nat.lt_of_lt_of_le o.toNat_lt (by decide))
  have h₁ := hlen a.first
  have h₂ := hlen a.second
  have h₃ := hlen a.third
  have h₄ := hlen a.fourth
  rw [text_eq, Text.length_join]
  simp only [fields, octets, List.map_cons, List.map_nil, List.flatten_cons, List.flatten_nil,
    List.length_append, List.length_cons, List.length_nil]
  omega

/-- Two groups are those of one address. -/
theorem groups_injective : Function.Injective groups := by
  intro a a' h
  obtain ⟨h₁, h₂⟩ := List.cons.inj h
  have h₂ := (List.cons.inj h₂).1
  have hhigh₁ := congrArg Group.high h₁
  have hlow₁ := congrArg Group.low h₁
  have hhigh₂ := congrArg Group.high h₂
  have hlow₂ := congrArg Group.low h₂
  simp only [Group.high_ofBytes, Group.low_ofBytes] at hhigh₁ hlow₁ hhigh₂ hlow₂
  cases a
  cases a'
  simp_all

end Addressing.Ip.V4
