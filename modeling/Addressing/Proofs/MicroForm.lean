import Addressing.MicroForm
import Addressing.Proofs.Ip.Address

/-!
# What fits the micro form

The bytes of an IP address fit exactly if they are an address of either family, which is to say if
they have an address text (`validate_ip_bytes`). An id fits if it is neither empty nor too long, and
is reported for its length otherwise (`exists_validate_id_iff`). Nothing else fits.

All of a check is told by two relations on authorities: which of them fit (`Fits`), and in which
words each of the others is refused (`Refused`). Neither looks at a byte of the designator.

* `validate_eq_ok_iff_fits`, `exists_validate_error`: success, and the report of a failure.
* `refusal`: the words for an authority, by its kind alone.
* `gathered`, `validate_eq_gathered`: a check as it is made case by case. What was gathered is
  reported if it is not empty, so that success rests on there being no objection without words.
* `validate_congr`: authorities of one kind and one size fare alike.
-/

namespace Addressing

/-- The number of bytes of a designator. Where there is none, there are no bytes. -/
def Authority.size : Authority → Nat
  | .noRemote => 0
  | .name n => n.length
  | .ip b => b.length
  | .id b => b.length

namespace MicroForm

variable {b : Bytes}

/-! ## Addresses -/

/-- There is nothing against some bytes exactly if they are an address of either family. -/
theorem objection?_ip_eq_none_iff : objection? (.ip b) = none ↔ ∃ a : Ip.Address, a.bytes = b := by
  rw [Ip.Address.exists_bytes_iff, objection?]
  split_ifs with h
  · exact iff_of_true rfl h
  · exact iff_of_false (by simp) h

/-- An address has a micro form. -/
theorem validate_ip_bytes (a : Ip.Address) : validate (.ip a.bytes) = .ok () :=
  validate_of_eq_none (objection?_ip_eq_none_iff.2 ⟨a, rfl⟩)

/-! ## Ids -/

/-- An id has a micro form if it has one byte at least and 255 at most. -/
theorem validate_id_eq_ok_iff : validate (.id b) = .ok () ↔ 1 ≤ b.length ∧ b.length ≤ 255 := by
  rw [validate_eq_ok_iff, objection?]
  split_ifs with h
  · exact iff_of_true rfl h
  · exact iff_of_false (by simp) h

/-- An id of any other length is reported for it, and for nothing else. -/
theorem exists_validate_id_iff :
    (∃ e, validate (.id b) = .error e ∧
      e.reasons = [Text.ofString "ID doesn't fit in bytes allocated"]) ↔
      ¬ (1 ≤ b.length ∧ b.length ≤ 255) := by
  rw [← validate_id_eq_ok_iff]
  constructor
  · rintro ⟨e, he, _⟩ hok
    rw [hok] at he
    cases he
  · intro h
    have ho : objection? (.id b) = some .idLength := if_neg (mt validate_id_eq_ok_iff.2 h)
    exact ⟨_, validate_of_eq_some ho, Objection.reasons_report .idLength⟩

/-! ## All authorities -/

/-- The authorities that fit: an IP address of either family, and an id of one byte at least and 255
    at most. -/
inductive Fits : Authority → Prop
  | ip {b : Bytes} : b.length = 4 ∨ b.length = 16 → Fits (.ip b)
  | id {b : Bytes} : 1 ≤ b.length ∧ b.length ≤ 255 → Fits (.id b)

/-- The authorities that do not fit, and the words for each. -/
inductive Refused : Authority → Text → Prop
  | noRemote : Refused .noRemote (Text.ofString "Has Authority, but no remote")
  | name (n : Text) :
      Refused (.name n) (Text.ofString "Must use IP address or ID as UAuthority for micro form.")
  | ip {b : Bytes} : ¬ (b.length = 4 ∨ b.length = 16) →
      Refused (.ip b) (Text.ofString "IP address is not IPv4 (4 bytes) or IPv6 (16 bytes)")
  | id {b : Bytes} : ¬ (1 ≤ b.length ∧ b.length ≤ 255) →
      Refused (.id b) (Text.ofString "ID doesn't fit in bytes allocated")

instance : DecidablePred Fits
  | .noRemote => isFalse nofun
  | .name _ => isFalse nofun
  | .ip b => decidable_of_iff (b.length = 4 ∨ b.length = 16) ⟨.ip, fun | .ip h => h⟩
  | .id b => decidable_of_iff (1 ≤ b.length ∧ b.length ≤ 255) ⟨.id, fun | .id h => h⟩

/-- The words for an authority of a kind, should it not fit. -/
def refusal : Authority → Text
  | .noRemote => Text.ofString "Has Authority, but no remote"
  | .name _ => Text.ofString "Must use IP address or ID as UAuthority for micro form."
  | .ip _ => Text.ofString "IP address is not IPv4 (4 bytes) or IPv6 (16 bytes)"
  | .id _ => Text.ofString "ID doesn't fit in bytes allocated"

variable {a a' : Authority}

/-- There are no other words for an authority than those for its kind. -/
theorem Refused.eq_refusal {r : Text} (h : Refused a r) : r = refusal a := by
  cases h <;> rfl

/-- There is no objection to what fits. -/
theorem objection?_eq_none_iff : objection? a = none ↔ Fits a := by
  constructor
  · intro h
    cases a with
    | noRemote => cases h
    | name n => cases h
    | ip b => exact .ip (Ip.Address.exists_bytes_iff.1 (objection?_ip_eq_none_iff.1 h))
    | id b => exact .id (validate_id_eq_ok_iff.1 (validate_of_eq_none h))
  · rintro (h | h)
    · exact if_pos h
    · exact if_pos h

/-- What there is an objection to is refused in its words. -/
theorem refused_of_objection? {o : Objection} (h : objection? a = some o) :
    Refused a o.message := by
  cases a with
  | noRemote =>
    obtain rfl : .noRemote = o := Option.some.inj h
    exact .noRemote
  | name n =>
    obtain rfl : .name = o := Option.some.inj h
    exact .name n
  | ip b =>
    rw [objection?] at h
    split_ifs at h with hlen
    obtain rfl : .ipLength = o := Option.some.inj h
    exact .ip hlen
  | id b =>
    rw [objection?] at h
    split_ifs at h with hlen
    obtain rfl : .idLength = o := Option.some.inj h
    exact .id hlen

/-- A check succeeds for what fits. -/
theorem validate_eq_ok_iff_fits : validate a = .ok () ↔ Fits a :=
  validate_eq_ok_iff.trans objection?_eq_none_iff

/-- What does not fit is refused in some words, and these are the one reason that is reported. -/
theorem exists_validate_error (h : ¬ Fits a) :
    ∃ e r, validate a = .error e ∧ Refused a r ∧ e.reasons = [r] ∧ r ≠ [] := by
  obtain ⟨o, ho⟩ := Option.ne_none_iff_exists'.1 (mt objection?_eq_none_iff.1 h)
  have hreasons := o.reasons_report
  have hne : o.message ≠ [] := Report.ne_nil _ _ (hreasons ▸ List.mem_singleton_self o.message)
  exact ⟨_, _, validate_of_eq_some ho, refused_of_objection? ho, hreasons, hne⟩

/-! ## Gathering -/

/-- The report that is gathered of an authority: it is empty at first, and what does not fit adds
    its words. -/
def gathered : Authority → Report
  | .noRemote => Report.empty.add Objection.noRemote.message
  | .name _ => Report.empty.add Objection.name.message
  | .ip b =>
    if b.length = v4Length ∨ b.length = v6Length then .empty
    else Report.empty.add Objection.ipLength.message
  | .id b =>
    if minIdLength ≤ b.length ∧ b.length ≤ maxIdLength then .empty
    else Report.empty.add Objection.idLength.message

/-- What is gathered is the objection, if there is one. -/
theorem gathered_eq (a : Authority) :
    gathered a = (objection? a).elim .empty fun o => .ofReason o.message := by
  cases a with
  | noRemote => rfl
  | name n => rfl
  | ip b =>
    rw [gathered, objection?]
    split_ifs <;> rfl
  | id b =>
    rw [gathered, objection?]
    split_ifs <;> rfl

/-- A check succeeds exactly if nothing was gathered, since all words that are added stay. -/
theorem validate_eq_gathered (a : Authority) :
    validate a = if (gathered a).isEmpty then .ok () else .error (gathered a) := by
  rw [gathered_eq]
  rcases ho : objection? a with _ | o
  · exact validate_of_eq_none ho
  · have hsome : (Report.ofReason o.message).isEmpty = false := by
      rw [Report.isEmpty, o.reasons_report]
      rfl
    rw [validate_of_eq_some ho, Option.elim_some, hsome]
    rfl

/-! ## What a check looks at -/

/-- Authorities of one kind and one size fare alike, whatever their bytes. -/
theorem validate_congr (hkind : a.kind = a'.kind) (hsize : a.size = a'.size) :
    validate a = validate a' := by
  have h : objection? a = objection? a' := by
    cases a with
    | noRemote => cases a' with
      | noRemote => rfl
      | _ => cases hkind
    | name n => cases a' with
      | name n' => rfl
      | _ => cases hkind
    | ip b => cases a' with
      | ip b' => rw [objection?, objection?, show b.length = b'.length from hsize]
      | _ => cases hkind
    | id b => cases a' with
      | id b' => rw [objection?, objection?, show b.length = b'.length from hsize]
      | _ => cases hkind
  rw [validate, validate, h]

/-- A check succeeds for what fits, and fails for all else with a report of exactly one reason, in
    the words for its case. It comes down to whether anything is gathered case by case. Of the bytes
    of a designator nothing but their number matters, so that no name fits, be it an address or an
    id in print. -/
theorem validate_exact :
    (∀ a, validate a = .ok () ↔ Fits a) ∧
    (∀ a, ¬ Fits a → ∃ e r, validate a = .error e ∧ Refused a r ∧ e.reasons = [r] ∧ r ≠ []) ∧
    (∀ a, validate a = if (gathered a).isEmpty then .ok () else .error (gathered a)) ∧
    (∀ a a' : Authority, a.kind = a'.kind → a.size = a'.size → validate a = validate a') ∧
    ∀ n, ∃ e, validate (.name n) = .error e ∧
      e.reasons = [Text.ofString "Must use IP address or ID as UAuthority for micro form."] := by
  refine ⟨fun a => validate_eq_ok_iff_fits, fun a => exists_validate_error, validate_eq_gathered,
    fun a a' => validate_congr, fun n => ?_⟩
  exact ⟨_, validate_of_eq_some rfl, Objection.reasons_report .name⟩

/-- Two ids of one byte too many, and a name that is an address in print. -/
theorem validate_exact_id_too_long :
    let a := Authority.id (List.replicate 256 0x00)
    let a' := Authority.id (List.replicate 256 0xff)
    let n := Text.ofString "10.0.0.1"
    (¬ Fits a ∧ ∃ e r, validate a = .error e ∧ Refused a r ∧ e.reasons = [r] ∧ r ≠ []) ∧
      (a.kind = a'.kind ∧ a.size = a'.size ∧ validate a = validate a') ∧
      ∃ e, validate (.name n) = .error e ∧
        e.reasons = [Text.ofString "Must use IP address or ID as UAuthority for micro form."] := by
  intro a a' n
  have hfits : ¬ Fits (.id (List.replicate 256 0x00)) := by
    rintro (_ | h)
    rw [List.length_replicate] at h
    omega
  have hsize : a.size = a'.size := by
    rw [Authority.size, Authority.size, List.length_replicate, List.length_replicate]
  exact ⟨⟨hfits, validate_exact.2.1 a hfits⟩,
    ⟨rfl, hsize, validate_exact.2.2.2.1 a a' rfl hsize⟩, validate_exact.2.2.2.2 n⟩

end MicroForm

end Addressing
