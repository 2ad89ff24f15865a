import Addressing.Outcome.Session
import Mathlib.Data.List.Basic

/-!
# Transformations in a session

A transformation reads one variable of a session. What comes out may go into another variable, into
the same one, or nowhere; in any case it is stored in one variable at most, and all others keep what
they hold.

* `tally_fst`, `tally_snd`: what comes out, and how often the function was called.
* `Transform.target?`: the variable with a number that takes what comes out.
* `get_after_of_target?_ne`: a variable that takes nothing keeps its outcome through any number of
  transformations, be it the one that they read.
-/

namespace Addressing.Outcome.Session

/-! ## Calls -/

section Calls

variable {α β : Type} (f : α → β) (o : Except Text α)

/-- Counting the calls of a function does not change what comes out. -/
theorem tally_fst : (tally f o).1 = (transform (m := Id) f o : Except Text β) := by
  cases o <;> rfl

/-- A value stays a value, and an error an error. -/
theorem isOk_tally_fst : (tally f o).1.isOk = o.isOk := by
  cases o <;> rfl

/-- A function is called once on a value, and not at all on an error. -/
theorem tally_snd : (tally f o).2 = if o.isOk then 1 else 0 := by
  cases o <;> rfl

end Calls

/-! ## Stores -/

variable {ν : Type}

/-- The variable with a number that takes what comes out of a transformation. -/
def Transform.target? : Transform ν → Option ν
  | number _ y => some y
  | discard _ => none
  | decimal => none

variable [DecidableEq ν] {b : Board ν} {x y : ν}

/-- What a function makes of the outcome of a variable goes into its target. -/
theorem get_next_number (f : Function) :
    (next b (.transform ⟨x, .number f y⟩)).numbers.get y = (tally f.apply (b.numbers.get x)).1 :=
  Slots.get_set_same _ _ _

/-- A transformation stores into its target only. -/
theorem Transform.get_next_of_target?_ne {t : Transform ν} (h : t.target? ≠ some y) :
    (t.next b x).numbers.get y = b.numbers.get y := by
  cases t with
  | number f z =>
    have hy : y ≠ z := fun hyz => h (hyz ▸ rfl)
    exact Slots.get_set_other _ _ hy
  | discard z => rfl
  | decimal => rfl

/-- A variable that is no target keeps its outcome, however often it is transformed. -/
theorem get_after_of_target?_ne {steps : List (Step ν (Transform ν))}
    (h : ∀ step ∈ steps, step.action.target? ≠ some y) :
    (Session.after next b (steps.map .transform)).numbers.get y = b.numbers.get y := by
  refine Session.after_frame (fun b' : Board ν => b'.numbers.get y) (fun t ht b' => ?_) b
  obtain ⟨step, hstep, rfl⟩ := List.mem_map.1 ht
  exact Transform.get_next_of_target?_ne (h step hstep)

end Addressing.Outcome.Session
