import Addressing.Proofs.Authority.Text
import Addressing.Proofs.MicroForm

/-!
# What an address is

Three answers depend on whether the bytes of an authority are an IP address: its address text, its
micro form, and the way it is printed. Each of them has a rule of its own, on the families that
there are, on lengths, and on the success of another answer; and all of them agree
(`ipText_iff_validate`).

* `ipText_cases`: an authority is designated otherwise, or its bytes are an address, or they are
  too few or too many. All answers are told by the case.
* `exists_ipText_iff`, `ipText_eq_error_iff`: when there is an address text, and which fault stands
  in its place.
* `text_ip_of_validate`, `text_ip_of_validate_eq_error`: the print of an address and of other bytes.
-/

namespace Addressing.Authority

open MicroForm (validate)

variable {a : Authority} {b : Bytes}

/-! ## The address text -/

/-- An authority that is designated otherwise has no address. -/
theorem ipText_of_kind_ne (h : a.kind ≠ .ip) : a.ipText = .error .invalidArgument := by
  cases a with
  | ip b => exact absurd rfl h
  | _ => rfl

/-- An authority has no address, or it has one, which fits the micro form, or it has bytes that are
    none, which do not fit. -/
theorem ipText_cases (a : Authority) :
    a.kind ≠ .ip ∧ a.ipText = .error .invalidArgument ∨
    (∃ x : Ip.Address, a = .ip x.bytes ∧ a.ipText = .ok x.text ∧ validate a = .ok ()) ∨
    ∃ b e, a = .ip b ∧ a.ipText = .error .invalidAddressLength ∧ validate a = .error e := by
  by_cases hkind : a.kind = .ip
  · cases a with
    | ip b =>
      by_cases hb : ∃ x : Ip.Address, x.bytes = b
      · obtain ⟨x, rfl⟩ := hb
        exact .inr (.inl ⟨x, rfl, Ip.render_bytes x, MicroForm.validate_ip_bytes x⟩)
      · obtain ⟨o, ho⟩ := Option.ne_none_iff_exists'.1 (mt MicroForm.objection?_ip_eq_none_iff.1 hb)
        exact .inr (.inr ⟨b, _, rfl, Ip.render_eq_error_iff.2 ⟨rfl, hb⟩,
          MicroForm.validate_of_eq_some ho⟩)
    | _ => cases hkind
  · exact .inl ⟨hkind, ipText_of_kind_ne hkind⟩

/-- There is an address text exactly if the designator is an IP address that fits the micro form. -/
theorem exists_ipText_iff : (∃ t, a.ipText = .ok t) ↔ a.kind = .ip ∧ validate a = .ok () := by
  rcases ipText_cases a with ⟨hkind, ht⟩ | ⟨x, rfl, ht, hv⟩ | ⟨b, e, rfl, ht, hv⟩
  · simp [ht, hkind]
  · exact iff_of_true ⟨_, ht⟩ ⟨rfl, hv⟩
  · simp [ht, hv]

/-- There are two faults: the one is of the kind of the designator, and the other of its length. -/
theorem ipText_eq_error_iff {f : Fault} : a.ipText = .error f ↔
    f = .invalidArgument ∧ a.kind ≠ .ip ∨
      f = .invalidAddressLength ∧ a.kind = .ip ∧ ∃ e, validate a = .error e := by
  rcases ipText_cases a with ⟨hkind, ht⟩ | ⟨x, rfl, ht, hv⟩ | ⟨b, e, rfl, ht, hv⟩
  · simp [ht, hkind, eq_comm]
  · simp [ht, hv, kind]
  · simp [ht, hv, kind, eq_comm]

/-! ## In print -/

/-- Bytes that fit are printed with a dot or a colon in them. -/
theorem text_ip_of_validate (h : validate (.ip b) = .ok ()) :
    ∃ r, (ip b).text = Text.ofString "ip:" ++ r ∧ (Text.dot ∈ r ∨ Text.colon ∈ r) := by
  obtain ⟨x, rfl⟩ := MicroForm.objection?_ip_eq_none_iff.1 (MicroForm.validate_eq_ok_iff.1 h)
  exact ⟨x.text, text_ip_bytes x, Ip.Address.dot_or_colon_mem x.ofText?_text⟩

/-- Bytes that do not fit are printed as their digits, with neither a dot nor a colon. -/
theorem text_ip_of_validate_eq_error {e : Report} (h : validate (.ip b) = .error e) :
    (ip b).text = Text.ofString "ip:" ++ Hex.encode b ∧
      ¬ (Text.dot ∈ Hex.encode b ∨ Text.colon ∈ Hex.encode b) := by
  refine ⟨text_ip_of_not_exists fun ⟨x, hx⟩ => ?_, ?_⟩
  · rw [← hx, MicroForm.validate_ip_bytes] at h
    cases h
  · exact not_or.2 ⟨Hex.not_mem_encode rfl, Hex.not_mem_encode rfl⟩

/-- There is an address text exactly if the designator is an IP address and fits the micro form. The
    length is the fault of one that does not fit, the kind is the fault of any other designator, and
    there is no third fault. An IP address is printed with a dot or a colon exactly if it fits, and
    as two small digits for each of its bytes if it does not. -/
theorem ipText_iff_validate (a : Authority) :
    ((∃ t, a.ipText = .ok t) ↔ a.kind = .ip ∧ validate a = .ok ()) ∧
    (a.ipText = .error .invalidAddressLength ↔ a.kind = .ip ∧ ∃ e, validate a = .error e) ∧
    (a.ipText = .error .invalidArgument ↔ a.kind ≠ .ip) ∧
    (∀ f, a.ipText = .error f → f = .invalidAddressLength ∨ f = .invalidArgument) ∧
    ∀ b, a = .ip b → ∃ r, a.text = Text.ofString "ip:" ++ r ∧
      ((Text.dot ∈ r ∨ Text.colon ∈ r) ↔ validate a = .ok ()) ∧
      ((∃ e, validate a = .error e) → r.length = 2 * b.length ∧ ∀ c ∈ r, c ∈ Digit.smalls) := by
  refine ⟨exists_ipText_iff, by simp [ipText_eq_error_iff], by simp [ipText_eq_error_iff],
    fun f hf => ?_, ?_⟩
  · exact (ipText_eq_error_iff.1 hf).elim (fun h => .inr h.1) (fun h => .inl h.1)
  · rintro b rfl
    rcases hv : validate (.ip b) with e | ⟨⟩
    · obtain ⟨htext, hmem⟩ := text_ip_of_validate_eq_error hv
      exact ⟨Hex.encode b, htext, iff_of_false hmem (by simp), fun _ =>
        ⟨Hex.length_encode b, fun c => Hex.mem_encode⟩⟩
    · obtain ⟨r, htext, hmem⟩ := text_ip_of_validate hv
      exact ⟨r, htext, iff_of_true hmem rfl, by simp⟩

/-- Five bytes, which begin like an IPv4 address. -/
theorem ipText_iff_validate_five_bytes :
    let b : Bytes := [10, 0, 0, 1, 0]
    (ip b).ipText = .error .invalidAddressLength ∧
      ∃ r, (ip b).text = Text.ofString "ip:" ++ r ∧
        ((Text.dot ∈ r ∨ Text.colon ∈ r) ↔ validate (ip b) = .ok ()) ∧
        (∃ e, validate (ip b) = .error e) ∧
        r.length = 2 * b.length ∧ ∀ c ∈ r, c ∈ Digit.smalls := by
  intro b
  have he : ∃ e, validate (ip b) = .error e := ⟨_, MicroForm.validate_of_eq_some rfl⟩
  obtain ⟨_, hlength, _, _, hprint⟩ := ipText_iff_validate (ip b)
  obtain ⟨r, htext, hmem, hdigits⟩ := hprint b rfl
  exact ⟨hlength.2 ⟨rfl, he⟩, r, htext, hmem, he, hdigits he⟩

end Addressing.Authority
