import Addressing.Proofs.MicroForm
import Addressing.Report.Session
import Mathlib.Data.List.Basic
import Mathlib.Logic.Function.Basic

/-!
# Reports and the ledger of all reasons

Beside a session on reports, a *ledger* can be kept: for each variable the plain list of all
reasons that were contributed to it. A ledger never asks whether a reason is empty, and its lists
are put together with `++` alone. Nor does it check an authority: one that does not fit contributes
the words for its kind (`MicroForm.Fits`, `MicroForm.refusal`).

At every step, the reasons of a report are those of the ledger without the empty ones, in the same
order and as often (`reasons_run`). Empty reasons are dropped where a reason comes in, while reports
that are merged, joined or copied are taken as they are; what makes up for it is that the ledger is
tracked (`Tracks`) in every variable, the ones that are taken from included.
-/

namespace Addressing.Report.Session

variable {ν : Type} [DecidableEq ν]

/-- All reasons that were contributed to each variable, in order. -/
abbrev Ledger (ν : Type) := ν → List Text

/-- The reports are the lists of the ledger without their empty reasons. -/
def Tracks (s : Slots ν Report) (l : Ledger ν) : Prop :=
  ∀ x, (s.get x).reasons = (l x).filter (· ≠ [])

namespace Ledger

/-- The ledger after a step. An authority that does not fit contributes the words for its kind. -/
def next (l : Ledger ν) (step : Step ν (Action ν)) : Ledger ν :=
  match step.action with
  | .new reason => Function.update l step.on reason.toList
  | .add reasons => Function.update l step.on (l step.on ++ reasons)
  | .merge x => Function.update l step.on (l step.on ++ l x)
  | .join xs => Function.update l step.on (xs.flatMap l)
  | .copy x => Function.update l step.on (l x)
  | .compare _ => l
  | .print _ => l
  | .validate a =>
    if MicroForm.Fits a then l
    else Function.update l step.on (l step.on ++ [MicroForm.refusal a])

/-- The ledger after some steps. It is empty at the start. -/
def run (steps : List (Step ν (Action ν))) : Ledger ν :=
  Addressing.Session.after next (fun _ => []) steps

end Ledger

/-! ## One step -/

namespace Tracks

variable {s : Slots ν Report} {l : Ledger ν}

/-- A variable and its list can be replaced together. -/
theorem set (h : Tracks s l) (x : ν) {e : Report} {rs : List Text}
    (he : e.reasons = rs.filter (· ≠ [])) : Tracks (s.set x e) (Function.update l x rs) := by
  intro y
  by_cases hy : y = x
  · rw [hy, Slots.get_set_same, Function.update_self, he]
  · rw [Slots.get_set_other _ _ hy, Function.update_of_ne hy, h y]

/-- Merging a report appends the reasons that it was made of. -/
theorem merge (h : Tracks s l) (x : ν) {e : Report} {rs : List Text}
    (he : e.reasons = rs.filter (· ≠ [])) :
    Tracks (s.set x ((s.get x).merge e)) (Function.update l x (l x ++ rs)) := by
  apply h.set
  rw [reasons_merge, h x, he, List.filter_append]

end Tracks

/-- Each step keeps the ledger tracked. -/
theorem tracks_next {s : Slots ν Report} {l : Ledger ν} (h : Tracks s l)
    (step : Step ν (Action ν)) : Tracks (next s step) (l.next step) := by
  obtain ⟨x, action⟩ := step
  cases action with
  | new reason =>
    cases reason with
    | none => exact h.set x rfl
    | some r => exact h.set x (reasons_ofReason r)
  | add rs =>
    apply h.set
    rw [reasons_addAll, h x, List.filter_append]
  | merge y => exact h.merge x (h y)
  | join ys =>
    apply h.set
    rw [reasons_join, List.flatMap_map, List.filter_flatMap]
    exact List.flatMap_congr fun y _ => h y
  | copy y => exact h.set x (h y)
  | compare y => exact h
  | print ys => exact h
  | validate a =>
    by_cases ha : MicroForm.Fits a
    · simpa only [next, Ledger.next, if_pos ha, MicroForm.validate_eq_ok_iff_fits.2 ha] using h
    · obtain ⟨e, r, he, hr, hreasons, hne⟩ := MicroForm.exists_validate_error ha
      have hfilter : e.reasons = [r].filter (· ≠ []) := by simp [hreasons, hne]
      simpa only [next, Ledger.next, if_neg ha, he, ← hr.eq_refusal] using h.merge x hfilter

/-! ## A session -/

/-- After any steps, the reasons of a report are all that were contributed to its variable but for
    the empty ones, in the same order and as often. -/
theorem reasons_run (steps : List (Step ν (Action ν))) (x : ν) :
    ((run steps).get x).reasons = (Ledger.run steps x).filter (· ≠ []) ∧
      [] ∉ ((run steps).get x).reasons ∧
      ((run steps).get x).size = (Ledger.run steps x).countP (· ≠ []) := by
  have h : Tracks (run steps) (Ledger.run steps) :=
    List.foldl_rel (fun _ => rfl) fun step _ s l h => tracks_next h step
  refine ⟨h x, ?_, ?_⟩
  · rw [h x]
    simp
  · rw [size, h x, List.countP_eq_length_filter]

/-- A report that is merged into itself has its reasons twice, and the empty one not at all. -/
example : ((run [⟨0, .add [[0x61], [], [0x62]]⟩, ⟨0, .merge 0⟩]).get 0).reasons =
    [[0x61], [0x62], [0x61], [0x62]] := by decide

end Addressing.Report.Session
