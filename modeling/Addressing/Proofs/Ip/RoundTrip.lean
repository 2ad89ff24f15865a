import Addressing.Proofs.Ip.Address

/-!
# Bytes to text and back

The text that is written for an address says all of the address: it is read back as the same
bytes, whichever run of zeros was left out and whether or not the last groups were written as
octets. No other bytes have that text, be they as many or not.
-/

namespace Addressing.Ip

/-- Four bytes and sixteen bytes have a text, which is read back as these bytes, and which no
    other bytes have. -/
theorem exists_render_parse {b : Bytes} (h : b.length = 4 ∨ b.length = 16) :
    ∃ t, render b = .ok t ∧ parse t = .ok b ∧ ∀ b', render b' = .ok t → b' = b := by
  obtain ⟨a, rfl⟩ := Address.exists_bytes_iff.2 h
  refine ⟨a.text, render_bytes a, parse_of_render (render_bytes a), fun b' hb' => ?_⟩
  have hparse := parse_of_render hb'
  rw [parse_of_render (render_bytes a)] at hparse
  exact (Except.ok.inj hparse).symm

/-- Two runs of zeros in the bytes of one address, of which the second is the longer one. -/
theorem exists_render_parse_two_runs :
    let b : Bytes := [0x20, 0x01, 0, 0, 0, 0, 0x0d, 0xb8, 0, 0, 0, 0, 0, 0, 0, 0]
    (b.length = 4 ∨ b.length = 16) ∧
      ∃ t, render b = .ok t ∧ parse t = .ok b ∧ ∀ b', render b' = .ok t → b' = b :=
  ⟨by decide, exists_render_parse (by decide)⟩

end Addressing.Ip
