import Addressing.Text.Basic

/-!
# Outcomes

The outcome of a computation is a value, or the error that stands in its place: `Except ε α`. Here
are the ways to go on with an outcome.

* `Outcome.value`: its value; asking an error for one is a fault of its own.
* `Outcome.assign`, `Outcome.amend`: another value for a value, another error for an error.
* `Outcome.transform`: a function applied to the value, if there is one.
-/

namespace Addressing

/-- The fault of asking an error for a value. It carries the error. -/
structure BadAccess (ε : Type) where
  payload : ε
deriving DecidableEq

/-- The wording of a bad access, whatever the error. -/
def BadAccess.message : Text := Text.ofString "bad expected access"

namespace Outcome

variable {ε α β : Type}

/-- The value of an outcome. -/
def value : Except ε α → Except (BadAccess ε) α
  | .ok a => .ok a
  | .error e => .error ⟨e⟩

/-- Another value in the place of the value; an error stays. -/
def assign (b : α) : Except ε α → Except ε α
  | .ok _ => .ok b
  | .error e => .error e

/-- Another error in the place of the error; a value stays. -/
def amend (e' : ε) : Except ε α → Except ε α
  | .ok a => .ok a
  | .error _ => .error e'

/-- Applies a function to the value. An error is passed on, and the function is not called. -/
def transform {m : Type → Type} [Monad m] (f : α → m β) : Except ε α → m (Except ε β)
  | .ok a => Except.ok <$> f a
  | .error e => pure (.error e)

/-- Whether two outcomes are equal: both values or both errors, and the same. -/
def same [DecidableEq ε] [DecidableEq α] : Except ε α → Except ε α → Bool
  | .ok a, .ok b => a = b
  | .error e, .error e' => e = e'
  | _, _ => false

/-- Being the same is being equal. -/
theorem same_iff [DecidableEq ε] [DecidableEq α] {o o' : Except ε α} :
    same o o' = true ↔ o = o' := by
  cases o <;> cases o' <;> simp [same]

end Outcome

end Addressing
