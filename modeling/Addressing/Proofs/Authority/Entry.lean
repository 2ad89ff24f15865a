import Addressing.Authority.Entry
import Addressing.Proofs.Authority.Text
import Addressing.Proofs.MicroForm

/-!
# Authorities, typed and printed

What is printed of an authority behind its label is what a person types for it. Names and ids come
back as they were, and so do addresses, in whichever way they were typed at first. Bytes that are
no address are printed all the same, in hexadecimal; these digits are never read as an address, not
even if they are all decimal.

A text is refused for what it is made of, and an authority is objected to for its length. Where both
could be said of what was typed for an id, the text is refused, and its length is not looked at.

* `check_of_authority`, `check_of_fault`: a check is a matter of the authority that is meant.
* `exists_reentry`: a printed authority is typed again.
* `check_ip`: an address text is refused, or it is checked to an address with a micro form, and so
  is the text that is printed for it.
* `check_id`: the texts of ids that have a micro form, of those that have none, and all others.
-/

namespace Addressing

/-- An entry of a kind. The device itself needs no text. -/
def Entry.ofKind : Authority.Kind → Text → Entry
  | .noRemote, _ => .noRemote
  | .name, t => .name t
  | .ip, t => .ip t
  | .id, t => .id t

namespace Entry

variable {e : Entry}

/-! ## What an entry means -/

/-- A text of an address means that address. -/
theorem authority_ip_of_ofText? {t : Text} {a : Ip.Address} (h : Ip.Address.ofText? t = some a) :
    (ip t).authority = .ok (.ip a.bytes) := by
  rw [authority, Ip.parse_eq_ok_iff.2 ⟨a, h, rfl⟩]
  rfl

/-- A text that is no address means none. -/
theorem authority_ip_of_eq_none {t : Text} (h : Ip.Address.ofText? t = none) :
    (ip t).authority = .error .invalidAddress := by
  rw [authority, Ip.parse_eq_error_iff.2 h]
  rfl

/-- A text means the id that it is decoded to. -/
theorem authority_id_eq_ok_iff {t : Text} {b : Bytes} :
    (id t).authority = .ok (.id b) ↔ Hex.decode? t = some b := by
  rw [authority, ← Hex.parse_eq_ok_iff]
  cases Hex.parse t <;> simp

/-- A text that is not hexadecimal means no id. -/
theorem authority_id_eq_error_iff {t : Text} :
    (id t).authority = .error .invalidHex ↔ Hex.decode? t = none := by
  rw [authority, ← Hex.parse_eq_error_iff]
  cases Hex.parse t <;> simp

/-- Bytes in hexadecimal mean the id that they are. -/
theorem authority_id_encode (b : Bytes) : (id (Hex.encode b)).authority = .ok (.id b) :=
  authority_id_eq_ok_iff.2 (Hex.decode?_encode b)

/-- What is found out about an entry is found out about the authority that it means. -/
theorem check_of_authority {a : Authority} (h : e.authority = .ok a) :
    e.check = .ok ⟨a.text, MicroForm.validate a⟩ := by
  rw [check, h]
  rfl

/-- An entry that means nothing is answered with its fault alone. -/
theorem check_of_fault {f : Fault} (h : e.authority = .error f) : e.check = .error f := by
  rw [check, h]
  rfl

/-- A check has no fault of its own: it is refused for the fault of the entry. -/
theorem check_eq_error_iff {f : Fault} : e.check = .error f ↔ e.authority = .error f := by
  rcases h : e.authority with f' | a
  · rw [check_of_fault h]
    simp
  · rw [check_of_authority h]
    simp

/-! ## Typing again what was printed -/

/-- The labels of the kinds that have a designator. -/
theorem label_mem {a : Authority} (h : a.hasRemote) :
    (a.kind, a.kind.label) ∈ [(Authority.Kind.name, Text.ofString "name:"),
      (.ip, Text.ofString "ip:"), (.id, Text.ofString "id:")] := by
  cases a with
  | noRemote => cases h
  | name n => exact .head _
  | ip b => exact .tail _ (.head _)
  | id b => exact .tail _ (.tail _ (.head _))

/-- The text of an authority, with its label removed, is the authority again when it is typed as
    an entry of the same kind, and the same is found out about it. The exception are bytes that are
    no address: they are printed in hexadecimal, which is refused. -/
theorem exists_reentry {a : Authority} (h : a.hasRemote) :
    ∃ p r, (a.kind, p) ∈ [(Authority.Kind.name, Text.ofString "name:"),
        (.ip, Text.ofString "ip:"), (.id, Text.ofString "id:")] ∧
      a.text = p ++ r ∧
      ((∀ b, a = .ip b → b.length = 4 ∨ b.length = 16) →
        (ofKind a.kind r).authority = .ok a ∧
          (ofKind a.kind r).check = .ok ⟨a.text, MicroForm.validate a⟩) ∧
      ∀ b, a = .ip b → ¬ (b.length = 4 ∨ b.length = 16) →
        r = Hex.encode b ∧ (ofKind a.kind r).authority = .error .invalidAddress ∧
          (ofKind a.kind r).check = .error .invalidAddress := by
  have hlabel := label_mem h
  cases a with
  | noRemote => cases h
  | name n =>
    exact ⟨_, n, hlabel, rfl, fun _ => ⟨rfl, check_of_authority rfl⟩, fun _ hb => by cases hb⟩
  | id b =>
    have hid : (id (Hex.encode b)).authority = .ok (.id b) := authority_id_encode b
    exact ⟨_, Hex.encode b, hlabel, rfl, fun _ => ⟨hid, check_of_authority hid⟩,
      fun _ hb => by cases hb⟩
  | ip b =>
    -- The lengths of addresses tell which of the two ways of printing was taken.
    by_cases hb : ∃ a : Ip.Address, a.bytes = b
    · obtain ⟨a, rfl⟩ := hb
      have hip := authority_ip_of_ofText? a.ofText?_text
      refine ⟨_, a.text, hlabel, Authority.text_ip_bytes a,
        fun _ => ⟨hip, check_of_authority hip⟩, ?_⟩
      rintro _ ⟨⟩ hlen
      exact absurd (Ip.Address.exists_bytes_iff.1 ⟨a, rfl⟩) hlen
    · have hip := authority_ip_of_eq_none (Ip.Address.ofText?_encode b)
      refine ⟨_, Hex.encode b, hlabel, Authority.text_ip_of_not_exists hb, fun hlen => ?_, ?_⟩
      · exact absurd (Ip.Address.exists_bytes_iff.2 (hlen b rfl)) hb
      · rintro _ ⟨⟩ _
        exact ⟨rfl, hip, check_of_fault hip⟩

/-- Eight bytes, whose digits in hexadecimal are all decimal. -/
theorem exists_reentry_decimal_digits :
    let a : Authority := .ip [0x10, 0x20, 0x30, 0x40, 0x19, 0x21, 0x68, 0x01]
    a.hasRemote ∧
      ∃ p r, (a.kind, p) ∈ [(Authority.Kind.name, Text.ofString "name:"),
          (.ip, Text.ofString "ip:"), (.id, Text.ofString "id:")] ∧
        a.text = p ++ r ∧
        ((∀ b, a = .ip b → b.length = 4 ∨ b.length = 16) →
          (ofKind a.kind r).authority = .ok a ∧
            (ofKind a.kind r).check = .ok ⟨a.text, MicroForm.validate a⟩) ∧
        ∀ b, a = .ip b → ¬ (b.length = 4 ∨ b.length = 16) →
          r = Hex.encode b ∧ (ofKind a.kind r).authority = .error .invalidAddress ∧
            (ofKind a.kind r).check = .error .invalidAddress :=
  ⟨rfl, exists_reentry rfl⟩

/-! ## Checking addresses -/

/-- What is found out about an address is its text, and that it has a micro form. -/
theorem check_of_authority_ip {a : Ip.Address} (h : e.authority = .ok (.ip a.bytes)) :
    e.check = .ok ⟨Text.ofString "ip:" ++ a.text, .ok ()⟩ := by
  rw [check_of_authority h, Authority.text_ip_bytes, MicroForm.validate_ip_bytes]
  rfl

/-- A text is refused where an address is asked for, or it is checked to an address, which has a
    micro form and is printed as an address text. That text is checked to the same. -/
theorem check_ip (t : Text) :
    Ip.parse t = .error .invalidAddress ∧ (ip t).check = .error .invalidAddress ∨
      ∃ b c, Ip.parse t = .ok b ∧ (ip t).authority = .ok (.ip b) ∧
        MicroForm.validate (.ip b) = .ok () ∧
        (Authority.ip b).ipText = .ok c ∧
        (Authority.ip b).text = Text.ofString "ip:" ++ c ∧ (∀ b', c ≠ Hex.encode b') ∧
        (ip t).check = .ok ⟨Text.ofString "ip:" ++ c, .ok ()⟩ ∧
        (ip c).authority = .ok (.ip b) ∧ (ip c).check = (ip t).check := by
  rcases ht : Ip.Address.ofText? t with _ | a
  · exact .inl ⟨Ip.parse_eq_error_iff.2 ht, check_of_fault (authority_ip_of_eq_none ht)⟩
  · have hfirst := authority_ip_of_ofText? ht
    have hagain := authority_ip_of_ofText? a.ofText?_text
    refine .inr ⟨a.bytes, a.text, Ip.parse_eq_ok_iff.2 ⟨a, ht, rfl⟩, hfirst,
      MicroForm.validate_ip_bytes a, Ip.render_bytes a, Authority.text_ip_bytes a,
      a.text_ne_encode, check_of_authority_ip hfirst, hagain, ?_⟩
    rw [check_of_authority_ip hfirst, check_of_authority_ip hagain]

/-! ## Checking ids -/

/-- What is found out about a text that means an id is what is found out about these bytes. -/
theorem exists_check_id_iff {t : Text} {r : Except Report Unit} :
    (∃ p, (id t).check = .ok ⟨p, r⟩) ↔
      ∃ b, Hex.decode? t = some b ∧ MicroForm.validate (.id b) = r := by
  rcases h : Hex.decode? t with _ | b
  · rw [check_of_fault (authority_id_eq_error_iff.2 h)]
    simp
  · rw [check_of_authority (authority_id_eq_ok_iff.2 h)]
    simp

/-- A text that means an id without a micro form is reported for the number of its bytes, and for
    nothing else. -/
theorem exists_check_id_error_iff {t : Text} :
    (∃ e, (∃ p, (id t).check = .ok ⟨p, .error e⟩) ∧
      e.reasons = [Text.ofString "ID doesn't fit in bytes allocated"]) ↔
      ∃ b, Hex.decode? t = some b ∧ ¬ (1 ≤ b.length ∧ b.length ≤ 255) := by
  simp only [exists_check_id_iff, ← MicroForm.exists_validate_id_iff]
  constructor
  · rintro ⟨e, ⟨b, hb, he⟩, hreasons⟩
    exact ⟨b, hb, e, he, hreasons⟩
  · rintro ⟨b, hb, e, he, hreasons⟩
    exact ⟨e, ⟨b, hb, he⟩, hreasons⟩

/-- A text is checked to an id with a micro form exactly if it is hexadecimal and its digits are
    those of one to 255 bytes. With no digits or with more it is checked to an id that is reported
    for its length, and for nothing else; any other text is refused before its length matters. The
    id is printed with the digits that were typed, in lower case. -/
theorem check_id (t : Text) :
    ((∃ p, (id t).check = .ok ⟨p, .ok ()⟩) ↔
      Hex.IsText t ∧ 2 ≤ t.length ∧ t.length ≤ 510) ∧
    ((∃ e, (∃ p, (id t).check = .ok ⟨p, .error e⟩) ∧
        e.reasons = [Text.ofString "ID doesn't fit in bytes allocated"]) ↔
      Hex.IsText t ∧ (t = [] ∨ 510 < t.length)) ∧
    ((id t).check = .error .invalidHex ↔ ¬ Hex.IsText t) ∧
    ∀ b, Hex.parse t = .ok b ↔ (id t).authority = .ok (.id b) ∧
      (Authority.id b).text = Text.ofString "id:" ++ t.lower := by
  refine ⟨?_, ?_, ?_, fun b => ?_⟩
  · simp only [exists_check_id_iff, MicroForm.validate_id_eq_ok_iff]
    rw [Hex.exists_decode?_length_iff (p := fun n => 1 ≤ n ∧ n ≤ 255)]
    -- The digits are even in number, so that 511 of them are out of the question.
    exact and_congr_right fun ⟨heven, _⟩ => by omega
  · rw [exists_check_id_error_iff,
      Hex.exists_decode?_length_iff (p := fun n => ¬ (1 ≤ n ∧ n ≤ 255)), ← List.length_eq_zero_iff]
    exact and_congr_right fun ⟨heven, _⟩ => by omega
  · rw [check_eq_error_iff, authority_id_eq_error_iff, Hex.isText_iff]
    simp [Option.eq_none_iff_forall_ne_some]
  · rw [Hex.parse_eq_ok_iff, authority_id_eq_ok_iff]
    exact (and_iff_left_of_imp Authority.text_id_of_decode?).symm

end Entry

end Addressing
