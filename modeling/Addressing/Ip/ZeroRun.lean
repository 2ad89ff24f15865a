import Addressing.Ip.Group

/-!
# Runs of zero groups

An IPv6 address is shortened by leaving out one run of zero groups, and the run to leave out is
the longest one; of several that are equally long, the first.

* `ZeroRun.leading`: how many zeros some groups begin with.
* `ZeroRun.longest`: the first of the longest runs.
* `longest_length_ge`: no run is longer.
* `longest_zeros`: the run holds nothing but zeros.
-/

namespace Addressing.Ip

/-- A run of zeros among some groups: where it starts, and how many groups it takes. -/
structure ZeroRun where
  start : Nat
  length : Nat
deriving DecidableEq

namespace ZeroRun

/-- The number of zeros that the groups begin with. -/
def leading (gs : List Group) : Nat := (gs.takeWhile (· = 0)).length

/-- The first of the longest runs of zeros. Without any zero it is the empty run at the start. -/
def longest : List Group → ZeroRun
  | [] => ⟨0, 0⟩
  | g :: gs =>
    if (longest gs).length ≤ leading (g :: gs) then ⟨0, leading (g :: gs)⟩
    else ⟨(longest gs).start + 1, (longest gs).length⟩

/-- The zeros that begin anywhere in the groups are no more than those of the longest run. -/
theorem longest_length_ge (gs : List Group) (i : Nat) :
    leading (gs.drop i) ≤ (longest gs).length := by
  induction gs generalizing i with
  | nil => simp [leading]
  | cons g gs ih =>
    rw [longest]
    cases i with
    | zero =>
      split
      · exact Nat.le_refl _
      · next h => exact Nat.le_of_lt (Nat.not_le.1 h)
    | succ i =>
      split
      · next h => exact Nat.le_trans (ih i) h
      · exact ih i

/-- As many zeros as the longest run has begin where it starts. -/
theorem longest_zeros (gs : List Group) :
    leading (gs.drop (longest gs).start) = (longest gs).length := by
  induction gs with
  | nil => rfl
  | cons g gs ih =>
    rw [longest]
    split
    · simp
    · simpa using ih

end ZeroRun

end Addressing.Ip
