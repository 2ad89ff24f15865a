import Addressing.Authority.Basic
import Addressing.Report.Basic

/-!
# The micro form

The micro form is a compact encoding of authorities with little room: it holds an IP address of
either family or a short id, and no name. An authority that does not fit is answered with a
report, which holds the one objection there is.

* `MicroForm.Objection`: why an authority does not fit.
* `MicroForm.objection?`: the objection to an authority.
* `MicroForm.validate`: success, or the report of the objection.
* `validate_eq_ok_iff`: what there is no objection to fits.
-/

namespace Addressing.MicroForm

/-- The bytes of an IPv4 address. -/
def v4Length : Nat := 4

/-- The bytes of an IPv6 address. -/
def v6Length : Nat := 16

/-- The least number of bytes of an id. -/
def minIdLength : Nat := 1

/-- The greatest number of bytes of an id: its length is held in one byte. -/
def maxIdLength : Nat := 255

/-- Why an authority does not fit. -/
inductive Objection
  /-- There is no remote device. -/
  | noRemote
  /-- The bytes are no IP address. -/
  | ipLength
  /-- The id is empty or too long. -/
  | idLength
  /-- There is no room for a name. -/
  | name
deriving DecidableEq

/-- The wording of an objection. -/
def Objection.message : Objection → Text
  | noRemote => Text.ofString "Has Authority, but no remote"
  | ipLength => Text.ofString "IP address is not IPv4 (4 bytes) or IPv6 (16 bytes)"
  | idLength => Text.ofString "ID doesn't fit in bytes allocated"
  | name => Text.ofString "Must use IP address or ID as UAuthority for micro form."

/-- The objection to an authority, by its kind and the length of its designator alone. -/
def objection? : Authority → Option Objection
  | .noRemote => some .noRemote
  | .name _ => some .name
  | .ip b => if b.length = v4Length ∨ b.length = v6Length then none else some .ipLength
  | .id b => if minIdLength ≤ b.length ∧ b.length ≤ maxIdLength then none else some .idLength

/-- Whether an authority fits, with the report of the objection if it does not. -/
def validate (a : Authority) : Except Report Unit :=
  match objection? a with
  | none => .ok ()
  | some o => .error (.ofReason o.message)

/-- An authority that nothing is said against fits. -/
theorem validate_of_eq_none {a : Authority} (h : objection? a = none) : validate a = .ok () := by
  rw [validate, h]

/-- An objection is all that is reported. -/
theorem validate_of_eq_some {a : Authority} {o : Objection} (h : objection? a = some o) :
    validate a = .error (.ofReason o.message) := by
  rw [validate, h]

/-- An authority fits exactly if there is no objection to it. -/
theorem validate_eq_ok_iff {a : Authority} : validate a = .ok () ↔ objection? a = none := by
  rcases ho : objection? a with _ | o
  · simp [validate_of_eq_none ho]
  · simp [validate_of_eq_some ho]

/-- No objection is without words, so that each is reported. -/
theorem Objection.reasons_report (o : Objection) :
    (Report.ofReason o.message).reasons = [o.message] := by
  rw [Report.reasons_ofReason]
  cases o <;> decide

end Addressing.MicroForm
