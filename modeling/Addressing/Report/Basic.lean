import Addressing.Text.Basic

/-!
# Reports

A report lists the reasons why something was found wrong, in the order in which they were found.
A reason is never empty: an empty one says nothing, and would leave a separator in the message
with nothing beside it. A report without reasons says that nothing is wrong.

Reports are values here. What is merged into a report is another one, or a copy of its own value; a
report that is merged into itself in place, and is read while it grows, need not come out as one
(`Report.Stored`).

* `Report.add`, `Report.merge`, `Report.join`: reports put together.
* `Report.message`: the reasons as one text.
* `reasons_add`, `reasons_merge`, `reasons_join`: what each operation does to the reasons.
-/

namespace Addressing

/-- Reasons why something is wrong, none of them empty. -/
structure Report where
  reasons : List Text
  ne_nil : ∀ r ∈ reasons, r ≠ []
deriving DecidableEq

namespace Report

/-- The report that nothing is wrong. -/
def empty : Report := ⟨[], by simp⟩

/-- Adds a reason at the end, unless it is empty. -/
def add (e : Report) (reason : Text) : Report :=
  if h : reason = [] then e
  else
    { reasons := e.reasons ++ [reason]
      ne_nil := by
        intro r hr
        rcases List.mem_append.1 hr with hr | hr
        · exact e.ne_nil r hr
        · exact List.mem_singleton.1 hr ▸ h }

/-- The report of one reason, or none if it is empty. -/
def ofReason (reason : Text) : Report := empty.add reason

/-- Adds reasons at the end, one after the other. -/
def addAll (e : Report) (reasons : List Text) : Report := reasons.foldl add e

/-- Adds the reasons of another report, or of a copy, at the end. -/
def merge (e other : Report) : Report where
  reasons := e.reasons ++ other.reasons
  ne_nil r hr := (List.mem_append.1 hr).elim (e.ne_nil r) (other.ne_nil r)

/-- All reports as one, in order. -/
def join (reports : List Report) : Report := reports.foldl merge empty

/-- Whether nothing is wrong. -/
def isEmpty (e : Report) : Bool := e.reasons.isEmpty

/-- The number of reasons. -/
def size (e : Report) : Nat := e.reasons.length

/-- What stands between two reasons in a message. -/
def separator : Text := Text.ofString ", "

/-- The reasons as one text. -/
def message (e : Report) : Text := separator.intercalate e.reasons

/-! ## The reasons of each operation -/

/-- A report is its reasons. -/
theorem ext_reasons {e e' : Report} (h : e.reasons = e'.reasons) : e = e' := by
  cases e; cases e'; simp_all

@[simp] theorem reasons_empty : empty.reasons = [] := rfl

/-- A reason comes last, unless it is empty. -/
theorem reasons_add (e : Report) (r : Text) :
    (e.add r).reasons = e.reasons ++ [r].filter (· ≠ []) := by
  unfold add
  split <;> simp_all

/-- One reason is reported alone, unless it is empty. -/
theorem reasons_ofReason (r : Text) : (ofReason r).reasons = [r].filter (· ≠ []) :=
  reasons_add empty r

/-- Merged reasons come behind those that were there. -/
@[simp] theorem reasons_merge (e other : Report) :
    (e.merge other).reasons = e.reasons ++ other.reasons := rfl

/-- Added reasons come last, without the empty ones. -/
theorem reasons_addAll (e : Report) (rs : List Text) :
    (e.addAll rs).reasons = e.reasons ++ rs.filter (· ≠ []) := by
  unfold addAll
  induction rs generalizing e with
  | nil => simp
  | cons r rs ih =>
    rw [List.foldl_cons, ih, reasons_add, List.append_assoc, ← List.filter_append,
      List.singleton_append]

/-- The reasons of reports joined are theirs, in order. -/
theorem reasons_join (es : List Report) : (join es).reasons = es.flatMap (·.reasons) := by
  unfold join
  suffices ∀ e : Report, (es.foldl merge e).reasons = e.reasons ++ es.flatMap (·.reasons) by
    simpa using this empty
  induction es with
  | nil => simp
  | cons e' es ih => intro e; simp [ih]

end Report

end Addressing
