import Addressing.MicroForm

/-!
# Authorities as they are typed

A person who names a device types a text and says what kind of designator it is. An address is
typed as address text and an id in hexadecimal, while a name is any text at all.

* `Entry`: a kind and its text.
* `Entry.authority`: the authority that was meant, or the fault in its text.
* `Entry.check`: the authority in print, and whether it has a micro form.
-/

namespace Addressing

/-- A designator as it is typed. -/
inductive Entry
  /-- The device itself. -/
  | noRemote
  /-- A name. -/
  | name (text : Text)
  /-- The text of an address. -/
  | ip (text : Text)
  /-- An id in hexadecimal. -/
  | id (text : Text)
deriving DecidableEq

namespace Entry

/-- The authority that an entry means. -/
def authority : Entry → Except Fault Authority
  | noRemote => .ok .noRemote
  | name t => .ok (.name t)
  | ip t => .ip <$> Ip.parse t
  | id t => .id <$> Hex.parse t

/-- What is found out about an entry. -/
structure Finding where
  /-- The authority in print. -/
  authority : Text
  /-- Whether it has a micro form. -/
  micro : Except Report Unit

/-- Checks an entry, up to the first fault. -/
def check (e : Entry) : Except Fault Finding := do
  let a ← e.authority
  return ⟨a.text, MicroForm.validate a⟩

end Entry

end Addressing
