/-!
# Sessions

A session works on named variables, step by step. Every variable has a value from the start, and
each step is answered before the next one is taken.

* `Slots`: the variables and their values, with `Slots.get`, `Slots.set` and `Slots.swap`.
* `get_set_same`, `get_set_other`: what a variable has after another one was given a value.
* `Step`: something done on a variable.
* `Session.after`, `Session.answers`: the state after some steps, and the answers given to them.
* `Session.after_frame`: what no step changes, all steps leave as it is.
-/

namespace Addressing

/-- Named variables, each with a value: a variable that was never given one has the value that all
    have at the start. -/
structure Slots (ν α : Type) where
  /-- The value at the start. -/
  initial : α
  /-- The variables that were given a value. -/
  given : List (ν × α)
deriving DecidableEq

namespace Slots

variable {ν α : Type}

/-- Variables that all have the same value. -/
def fill (a : α) : Slots ν α := ⟨a, []⟩

variable [DecidableEq ν]

/-- The value that a list gives to a variable. -/
def find? (x : ν) : List (ν × α) → Option α
  | [] => none
  | (y, b) :: rest => if y = x then some b else find? x rest

/-- The value of a variable. -/
def get (s : Slots ν α) (x : ν) : α := (find? x s.given).getD s.initial

/-- The list with the value of one variable replaced, or added at the end. -/
def put (x : ν) (a : α) : List (ν × α) → List (ν × α)
  | [] => [(x, a)]
  | (y, b) :: rest => if y = x then (x, a) :: rest else (y, b) :: put x a rest

/-- Gives a variable a value. -/
def set (s : Slots ν α) (x : ν) (a : α) : Slots ν α := { s with given := put x a s.given }

/-- Exchanges the values of two variables. -/
def swap (s : Slots ν α) (x y : ν) : Slots ν α := (s.set x (s.get y)).set y (s.get x)

/-- A replaced value is found under its variable, and all others are found as before. -/
theorem find?_put (x y : ν) (a : α) (given : List (ν × α)) :
    find? y (put x a given) = if x = y then some a else find? y given := by
  induction given with
  | nil => rfl
  | cons p rest ih =>
    obtain ⟨z, b⟩ := p
    by_cases hz : z = x
    · subst hz; by_cases hy : z = y <;> simp [put, find?, hy]
    · by_cases hy : z = y
      · subst hy; simp [put, find?, hz, Ne.symm hz]
      · simp [put, find?, hz, hy, ih]

/-- Replacing a value by itself changes nothing. -/
theorem put_of_find?_eq {x : ν} {a : α} {given : List (ν × α)} (h : find? x given = some a) :
    put x a given = given := by
  induction given with
  | nil => cases h
  | cons p rest ih =>
    obtain ⟨y, b⟩ := p
    by_cases hy : y = x
    · subst hy
      obtain rfl : b = a := by simpa [find?] using h
      simp [put]
    · rw [put, if_neg hy, ih (by simpa [find?, hy] using h)]

/-- At the start all variables have the same value. -/
@[simp] theorem get_fill (a : α) (x : ν) : (fill a).get x = a := rfl

/-- A variable has the value it was given. -/
@[simp] theorem get_set_same (s : Slots ν α) (x : ν) (a : α) : (s.set x a).get x = a := by
  simp [get, set, find?_put]

/-- Giving a variable a value changes no other variable. -/
@[simp] theorem get_set_other (s : Slots ν α) {x y : ν} (a : α) (h : y ≠ x) :
    (s.set x a).get y = s.get y := by
  simp [get, set, find?_put, h.symm]

/-- Giving a variable the value that it has changes nothing, if that is another value than it had
    at the start. -/
theorem set_get_of_ne_initial (s : Slots ν α) {x : ν} (h : s.get x ≠ s.initial) :
    s.set x (s.get x) = s := by
  have hfind : find? x s.given = some (s.get x) := by
    cases hx : find? x s.given with
    | none => exact absurd (by simp [get, hx]) h
    | some a => simp [get, hx]
  rw [set, put_of_find?_eq hfind]

/-- A swapped variable has the value of the other. -/
@[simp] theorem get_swap_left (s : Slots ν α) (x y : ν) : (s.swap x y).get x = s.get y := by
  by_cases h : x = y
  · simp [swap, h]
  · simp [swap, h]

/-- A swapped variable has the value of the other. -/
@[simp] theorem get_swap_right (s : Slots ν α) (x y : ν) : (s.swap x y).get y = s.get x := by
  simp [swap]

/-- Swapping two variables changes no other variable. -/
@[simp] theorem get_swap_other (s : Slots ν α) {x y z : ν} (hx : z ≠ x) (hy : z ≠ y) :
    (s.swap x y).get z = s.get z := by
  simp [swap, hx, hy]

end Slots

/-- Something done on a variable. -/
structure Step (ν action : Type) where
  on : ν
  action : action
deriving DecidableEq

namespace Session

variable {σ τ ρ : Type}

/-- The state after some steps. -/
def after (next : σ → τ → σ) (s : σ) (steps : List τ) : σ := steps.foldl next s

/-- The answers to some steps. A step is answered from the states before it and after it. -/
def answers (next : σ → τ → σ) (answer : σ → τ → σ → ρ) : σ → List τ → List ρ
  | _, [] => []
  | s, t :: ts =>
    let s' := next s t
    answer s t s' :: answers next answer s' ts

/-- Steps are taken one after the other. -/
theorem after_cons (next : σ → τ → σ) (s : σ) (t : τ) (steps : List τ) :
    after next s (t :: steps) = after next (next s t) steps := rfl

/-- A session can be broken off and gone on with. -/
theorem after_append (next : σ → τ → σ) (s : σ) (before later : List τ) :
    after next s (before ++ later) = after next (after next s before) later :=
  List.foldl_append

/-- What no step changes is as it was after all of them. -/
theorem after_frame {β : Type} (view : σ → β) {next : σ → τ → σ} {steps : List τ}
    (h : ∀ t ∈ steps, ∀ s, view (next s t) = view s) (s : σ) :
    view (after next s steps) = view s :=
  List.foldlRecOn (motive := fun s' => view s' = view s) steps next rfl
    fun s' ih t ht => (h t ht s').trans ih

end Session

end Addressing
