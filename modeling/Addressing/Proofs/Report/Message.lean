import Addressing.Proofs.Pieces
import Addressing.Report.Basic

/-!
# Messages of reports

What a message says of its report. No reason is empty and the separator is unbordered, so that the
separator is never seen where none was written: at the ends of a message it is there only as the
first or the last reason has it, and where two reasons meet it is there once, whatever bytes the
reasons begin and end with.

* `message_eq_nil_iff`: the empty message is that of the empty report only.
* `separator_at_ends`: how a message begins and how it ends.
* `pieces_message`: the pieces of a message are those of its reasons, and reasons without a
  separator in them can be read back from the message.

All of this is said of every report, and there are no others than those that can be built: a report
is what adding its reasons to the empty one makes (`addAll_reasons`). Merging a report into itself
in place is left out here, since it may leave more behind than a report (`Report.Stored`).
-/

namespace Addressing.Report

variable {e e' : Report}

/-- A report is built by adding its reasons, none of which is dropped. -/
theorem addAll_reasons (e : Report) : empty.addAll e.reasons = e := by
  apply ext_reasons
  rw [reasons_addAll, reasons_empty, List.nil_append, List.filter_eq_self]
  exact fun r hr => decide_eq_true (e.ne_nil r hr)

/-- A report is empty if it has no reasons. -/
theorem isEmpty_iff : e.isEmpty ↔ e.reasons = [] := List.isEmpty_iff

/-- No part of the separator is both its beginning and its end. -/
theorem unbordered_separator : Text.Unbordered separator := by decide

/-! ## The ends of a message -/

/-- The empty message says that nothing is wrong. -/
theorem message_eq_nil_iff : e.message = [] ↔ e.reasons = [] :=
  Text.join_eq_nil_iff fun h => e.ne_nil _ (List.head_mem h)

/-- A message is empty exactly if nothing is wrong. If anything is, the message begins with the
    separator exactly if its first reason does, and ends with it exactly if its last reason does. -/
theorem separator_at_ends (e : Report) :
    (e.message = [] ↔ e.isEmpty) ∧
    ∀ h : e.reasons ≠ [],
      (separator <+: e.message ↔ separator <+: e.reasons.head h) ∧
      (separator <:+ e.message ↔ separator <:+ e.reasons.getLast h) :=
  ⟨message_eq_nil_iff.trans isEmpty_iff.symm, fun h =>
    ⟨unbordered_separator.prefix_join_iff h (e.ne_nil _ (List.head_mem h)),
      unbordered_separator.suffix_join_iff h (e.ne_nil _ (List.getLast_mem h))⟩⟩

/-- Reasons that are a byte of the separator each do not make up another one beside it. -/
example :
    let e := empty.addAll [Text.ofString ",", Text.ofString " "]
    e.message = Text.ofString ",,  " ∧ ¬ separator <+: e.message ∧ ¬ separator <:+ e.message := by
  decide

/-! ## The pieces of a message -/

/-- The pieces of a message are those of its reasons, in order. -/
theorem pieces_message_of_ne_nil (h : e.reasons ≠ []) :
    Text.pieces separator e.message = e.reasons.flatMap (Text.pieces separator) :=
  Text.pieces_join unbordered_separator h

/-- Reasons without a separator in them can be read back from the message, and it can be told that
    there are none. -/
theorem eq_of_message_eq (hfree : ∀ r ∈ e.reasons, ¬ separator <:+: r)
    (hfree' : ∀ r ∈ e'.reasons, ¬ separator <:+: r) (h : e.message = e'.message) : e = e' := by
  have hnil : e.reasons = [] ↔ e'.reasons = [] := by
    rw [← message_eq_nil_iff, h, message_eq_nil_iff]
  exact ext_reasons (Text.eq_of_join_eq unbordered_separator hnil hfree hfree' h)

/-- The pieces of a message between its separators `, ` are those of its reasons, if there are any.
    Reports of which no reason has a separator in it are equal if their messages are. -/
theorem pieces_message :
    (∀ e : Report, e.isEmpty = false →
      Text.pieces (Text.ofString ", ") e.message =
        e.reasons.flatMap (Text.pieces (Text.ofString ", "))) ∧
    ∀ e e' : Report, (∀ r ∈ e.reasons, ¬ Text.ofString ", " <:+: r) →
      (∀ r ∈ e'.reasons, ¬ Text.ofString ", " <:+: r) → e.message = e'.message → e = e' := by
  refine ⟨fun e he => pieces_message_of_ne_nil fun h => ?_, fun e e' => eq_of_message_eq⟩
  rw [isEmpty_iff.2 h] at he
  cases he

/-- A reason with a comma at its end and one with a space at its beginning, added and merged. -/
theorem pieces_message_comma_space :
    let e := empty.addAll [Text.ofString "a,", Text.ofString " b"]
    let e' := (ofReason (Text.ofString "a,")).merge (ofReason (Text.ofString " b"))
    (e.isEmpty = false ∧
      Text.pieces (Text.ofString ", ") e.message =
        e.reasons.flatMap (Text.pieces (Text.ofString ", "))) ∧
    (∀ r ∈ e.reasons, ¬ Text.ofString ", " <:+: r) ∧
      (∀ r ∈ e'.reasons, ¬ Text.ofString ", " <:+: r) ∧ e.message = e'.message ∧ e = e' :=
  ⟨⟨by decide, pieces_message.1 _ (by decide)⟩, by decide, by decide, by decide,
    pieces_message.2 _ _ (by decide) (by decide) (by decide)⟩

/-- A separator in a reason cannot be told from one between reasons. -/
example : (ofReason (Text.ofString "a, b")).message =
    (empty.addAll [Text.ofString "a", Text.ofString "b"]).message := by decide

end Addressing.Report
