import Addressing.Report.Basic

/-!
# Reports in store

The reasons of a report are stored side by side, in a place with room for some number of them. When
there is no room for more, all of them move to a larger place. Nothing of this shows as long as what
is added comes from elsewhere, and a report is no more than its reasons (`Report`).

It shows when a report is merged into itself. Then the reasons to add are read from the very place
that is about to be left: if there is no room for them, the reasons have moved before they are read,
and a reason that has moved leaves an empty one behind.

* `Stored`: reasons, and the room for them.
* `Stored.extend`: reasons put at the end, in a larger place if need be.
* `Stored.add`, `Stored.merge`, `Stored.join`: as for any report, from another one.
* `Stored.mergeSelf`: a report merged into itself where it is stored.
-/

namespace Addressing.Report

/-- The reasons of a report where they are stored. -/
structure Stored where
  reasons : List Text
  /-- The number of reasons that there is room for. -/
  room : Nat
  length_le : reasons.length ≤ room
deriving DecidableEq

namespace Stored

/-- No reasons, and no room for any. -/
def empty : Stored := ⟨[], 0, Nat.le_refl 0⟩

/-- Puts reasons at the end. If there is no room for them, there will be room for twice as many
    reasons as there were, or for all that there are then, whichever is more. -/
def extend (s : Stored) (rs : List Text) : Stored where
  reasons := s.reasons ++ rs
  room :=
    if s.reasons.length + rs.length ≤ s.room then s.room
    else s.reasons.length + max s.reasons.length rs.length
  length_le := by
    rw [List.length_append]
    split <;> omega

/-- Adds a reason at the end, unless it is empty. -/
def add (s : Stored) (reason : Text) : Stored := if reason = [] then s else s.extend [reason]

/-- The report of one reason, or none if it is empty. -/
def ofReason (reason : Text) : Stored := empty.add reason

/-- A copy of a report, which is stored elsewhere and has just the room that it needs. -/
def copy (s : Stored) : Stored := ⟨s.reasons, s.reasons.length, Nat.le_refl _⟩

/-- Adds the reasons of another report at the end. -/
def merge (s other : Stored) : Stored := s.extend other.reasons

/-- What there is to read where some reasons are, when they are added once more: the reasons, or
    what they have left behind if they had to move. -/
def ownReasons (s : Stored) : List Text :=
  if s.reasons.length + s.reasons.length ≤ s.room then s.reasons else s.reasons.map fun _ => []

/-- Adds the reasons of a report to the report itself, reading them where they are stored. -/
def mergeSelf (s : Stored) : Stored := s.extend s.ownReasons

/-- All reports as one, in order, which is stored elsewhere than they are. -/
def join (reports : List Stored) : Stored := reports.foldl merge empty

/-- The reasons as one text. -/
def message (s : Stored) : Text := separator.intercalate s.reasons

/-! ## The reasons of each operation -/

@[simp] theorem reasons_empty : empty.reasons = [] := rfl

@[simp] theorem reasons_copy (s : Stored) : s.copy.reasons = s.reasons := rfl

/-- A reason comes last, unless it is empty. -/
theorem reasons_add (s : Stored) (r : Text) :
    (s.add r).reasons = s.reasons ++ [r].filter (· ≠ []) := by
  unfold add
  split <;> simp_all [extend]

/-- The reasons of another report come behind those that were there. -/
@[simp] theorem reasons_merge (s other : Stored) :
    (s.merge other).reasons = s.reasons ++ other.reasons := rfl

/-- The reasons of reports joined are theirs, in order. -/
theorem reasons_join (ss : List Stored) : (join ss).reasons = ss.flatMap (·.reasons) := by
  unfold join
  suffices ∀ s : Stored, (ss.foldl merge s).reasons = s.reasons ++ ss.flatMap (·.reasons) by
    simpa using this empty
  induction ss with
  | nil => simp
  | cons s' ss ih => intro s; simp [ih]

/-- With room for the reasons of a report a second time, merging it into itself doubles them. -/
theorem reasons_mergeSelf_of_le {s : Stored} (h : s.reasons.length + s.reasons.length ≤ s.room) :
    s.mergeSelf.reasons = s.reasons ++ s.reasons := by
  rw [mergeSelf, extend, ownReasons, if_pos h]

/-- Without that room, as many empty ones come behind them. -/
theorem reasons_mergeSelf_of_lt {s : Stored} (h : s.room < s.reasons.length + s.reasons.length) :
    s.mergeSelf.reasons = s.reasons ++ s.reasons.map fun _ => [] := by
  rw [mergeSelf, extend, ownReasons, if_neg (Nat.not_le.2 h)]

end Stored

end Addressing.Report
