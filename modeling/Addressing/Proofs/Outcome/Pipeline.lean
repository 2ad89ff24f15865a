import Addressing.Proofs.Outcome.Session

/-!
# Functions one after the other

A *pipeline* is a list of functions, each of which takes what the one before it returns. An outcome
can be transformed with each of them in turn (`Pipeline.transformEach`), or once with all of them
composed (`Pipeline.call`), and both are the same (`Pipeline.transformEach_eq`): the effects, too,
are those of the composition, whatever effects the functions have.

* `transform_pure`, `transform_bind`: transforming with no function, and with two.
* `Pipeline.traced`: functions that note their places when they are called, and
  `Pipeline.run_transformEach_traced_ok`, what they note.
* `Session.relay`: a pipeline in a session, where each outcome goes into a variable on its way.
-/

namespace Addressing.Outcome

variable {m : Type → Type} [Monad m] {ε α β γ : Type}

/-- Functions to call one after the other, each on what the one before it returned. The effects of
    the calls are in `m`. A function that returns nothing returns `()`. -/
inductive Pipeline (m : Type → Type) : Type → Type → Type 1
  /-- No function at all. -/
  | nil {α : Type} : Pipeline m α α
  /-- A function ahead of others. -/
  | cons {α β γ : Type} (f : α → m β) (rest : Pipeline m β γ) : Pipeline m α γ

namespace Pipeline

/-- The number of functions. -/
def length : {α β : Type} → Pipeline m α β → Nat
  | _, _, nil => 0
  | _, _, cons _ rest => rest.length + 1

/-- The functions composed: all of them are called. -/
def call : {α β : Type} → Pipeline m α β → α → m β
  | _, _, nil, a => pure a
  | _, _, cons f rest, a => f a >>= rest.call

/-- Transforms an outcome with each function in turn. -/
def transformEach : {α β : Type} → Pipeline m α β → Except ε α → m (Except ε β)
  | _, _, nil, o => pure o
  | _, _, cons f rest, o => transform f o >>= rest.transformEach

end Pipeline

/-! ## Composition -/

section Composition

variable [LawfulMonad m]

/-- Transforming with the function that returns its argument changes nothing. -/
theorem transform_pure (o : Except ε α) : transform (pure : α → m α) o = pure o := by
  cases o with
  | ok a => rw [transform, map_pure]
  | error e => rfl

/-- Transforming with two functions in turn is transforming with both composed. -/
theorem transform_bind (f : α → m β) (g : β → m γ) (o : Except ε α) :
    transform f o >>= transform g = transform (fun a => f a >>= g) o := by
  cases o with
  | ok a =>
    rw [transform, transform, map_bind, bind_map_left]
    rfl
  | error e => rw [transform, pure_bind, transform, transform]

/-- Transforming with each function in turn is transforming with all of them composed. -/
theorem Pipeline.transformEach_eq (p : Pipeline m α β) (o : Except ε α) :
    p.transformEach o = transform p.call o := by
  induction p with
  | nil => exact (transform_pure o).symm
  | cons f rest ih =>
    rw [transformEach, funext ih, transform_bind]
    rfl

end Composition

/-! ## Calls -/

/-- A function that notes a number ahead of its call. -/
def noting (i : Nat) (f : α → m β) (a : α) : StateT (List Nat) m β := do
  modify (· ++ [i])
  f a

/-- The functions, each of which notes its place when it is called; the first one has place `i`. -/
def Pipeline.traced : {α β : Type} → Pipeline m α β → Nat → Pipeline (StateT (List Nat) m) α β
  | _, _, nil, _ => nil
  | _, _, cons f rest, i => cons (noting i f) (rest.traced (i + 1))

variable [LawfulMonad m]

theorem run_noting (i : Nat) (f : α → m β) (a : α) (places : List Nat) :
    (noting i f a).run places = (fun b => (b, places ++ [i])) <$> f a := by
  simp [noting]

namespace Pipeline

/-- When all functions are called, each notes its place once, in the order of the places. -/
theorem run_call_traced (p : Pipeline m α β) (i : Nat) (a : α) (places : List Nat) :
    ((p.traced i).call a).run places =
      (fun b => (b, places ++ List.range' i p.length)) <$> p.call a := by
  induction p generalizing i places with
  | nil => simp [traced, call, length]
  | cons f rest ih =>
    rw [traced, call, StateT.run_bind, run_noting, bind_map_left, call, map_bind]
    -- The functions behind the first one note the places behind its own.
    refine bind_congr fun b => ?_
    rw [ih, length, List.range'_succ, List.append_assoc, List.singleton_append]

/-- A value is transformed into what the composition returns, by calling each function once. -/
theorem run_transformEach_traced_ok (p : Pipeline m α β) (a : α) :
    ((p.traced 0).transformEach (.ok a : Except ε α)).run [] =
      (fun b => (.ok b, List.range p.length)) <$> p.call a := by
  rw [transformEach_eq, transform, StateT.run_map, run_call_traced, Functor.map_map,
    List.range_eq_range']
  rfl

/-- An error is passed on, without calling any function. -/
theorem run_transformEach_traced_error (p : Pipeline m α β) (e : ε) :
    ((p.traced 0).transformEach (.error e : Except ε α)).run [] = pure (.error e, []) := by
  rw [transformEach_eq, transform, StateT.run_pure]

end Pipeline

/-! ## Sessions -/

namespace Session

/-- The functions of some links, which name a variable for each result. -/
def pipeline {ν : Type} : List (Function × ν) → Pipeline Id Int64 Int64
  | [] => .nil
  | (f, _) :: links => .cons f.apply (pipeline links)

/-- The steps that transform the outcome of a variable with one function after the other. Each step
    reads the variable that the one before it stored into. -/
def relay {ν : Type} (x : ν) : List (Function × ν) → List (Step ν (Transform ν))
  | [] => []
  | (f, y) :: links => ⟨x, .number f y⟩ :: relay y links

/-- The variable that holds the last result. -/
def goal {ν : Type} (x : ν) : List (Function × ν) → ν
  | [] => x
  | (_, y) :: links => goal y links

/-- How often a function was called for a reply. -/
def Reply.calls : Reply → Nat
  | transformed _ calls => calls
  | _ => 0

variable {ν : Type} [DecidableEq ν]

/-- What arrives is the outcome transformed with each function in turn. It does not matter whether
    variables are stored into more than once, since each is read before the next store. -/
theorem get_after_relay (b : Board ν) (x : ν) (links : List (Function × ν)) :
    (Session.after next b ((relay x links).map .transform)).numbers.get (goal x links) =
      ((pipeline links).transformEach (b.numbers.get x)).run := by
  induction links generalizing b x with
  | nil => rfl
  | cons link links ih =>
    obtain ⟨f, y⟩ := link
    let b' := next b (.transform ⟨x, .number f y⟩)
    have hnext : b'.numbers.get y = transform (m := Id) f.apply (b.numbers.get x) := by
      rw [get_next_number, tally_fst]
    show (Session.after next b' ((relay y links).map .transform)).numbers.get (goal y links) = _
    rw [ih, hnext]
    rfl

/-- On the way of a value, each step calls its function once; on the way of an error, none does. -/
theorem calls_relay (b : Board ν) (x : ν) (links : List (Function × ν)) :
    (Session.answers next (fun b t _ => (reply b t).calls) b ((relay x links).map .transform)) =
      List.replicate links.length (if (b.numbers.get x).isOk then 1 else 0) := by
  induction links generalizing b x with
  | nil => rfl
  | cons link links ih =>
    obtain ⟨f, y⟩ := link
    let b' := next b (.transform ⟨x, .number f y⟩)
    have hok : (b'.numbers.get y).isOk = (b.numbers.get x).isOk := by
      rw [get_next_number, isOk_tally_fst]
    show (tally f.apply (b.numbers.get x)).2 ::
      Session.answers next (fun b t _ => (reply b t).calls) b' ((relay y links).map .transform) = _
    rw [tally_snd, ih, hok]
    rfl

/-- Transforming an outcome with each function of a pipeline is transforming it once with all of
    them composed, and without any function it is the outcome as it was. A value becomes what the
    composition returns, which is `()` if the last function returns nothing, and each function is
    called once, in order; an error stays that error, and no function is called. In a session, a
    pipeline can be sent from variable to variable with the same result, and an outcome that is
    transformed into other variables stays in its own. -/
theorem transform_pipeline {ν : Type} [DecidableEq ν] :
    (∀ (p : Pipeline m α β) (o : Except ε α), p.transformEach o = transform p.call o) ∧
    (∀ o : Except ε α, transform (Pipeline.nil : Pipeline m α α).call o = pure o) ∧
    (∀ (p : Pipeline m α β) (a : α), ((p.traced 0).transformEach (.ok a : Except ε α)).run [] =
      (fun b => (.ok b, List.range p.length)) <$> p.call a) ∧
    (∀ (p : Pipeline m α Unit) (a : α), ((p.traced 0).transformEach (.ok a : Except ε α)).run [] =
      (fun _ => (.ok (), List.range p.length)) <$> p.call a) ∧
    (∀ (p : Pipeline m α β) (e : ε),
      ((p.traced 0).transformEach (.error e : Except ε α)).run [] = pure (.error e, [])) ∧
    (∀ (b : Board ν) (x : ν) (links : List (Function × ν)),
      let steps := (relay x links).map Task.transform
      (Session.after next b steps).numbers.get (goal x links) =
          ((pipeline links).transformEach (b.numbers.get x)).run ∧
        Session.answers next (fun b t _ => (reply b t).calls) b steps =
          List.replicate links.length (if (b.numbers.get x).isOk then 1 else 0)) ∧
    ∀ (b : Board ν) (steps : List (Step ν (Transform ν))) (x : ν),
      (∀ step ∈ steps, step.action.target? ≠ some x) →
        (Session.after next b (steps.map .transform)).numbers.get x = b.numbers.get x :=
  ⟨Pipeline.transformEach_eq, transform_pure, Pipeline.run_transformEach_traced_ok,
    Pipeline.run_transformEach_traced_ok, Pipeline.run_transformEach_traced_error,
    fun b x links => ⟨get_after_relay b x links, calls_relay b x links⟩,
    fun _ _ _ => get_after_of_target?_ne⟩

/-- A number that is doubled and written in decimal, and a number that is transformed into two other
    variables of either set. -/
theorem transform_pipeline_decimal :
    let p : Pipeline Id Int64 Text :=
      .cons Function.double.apply (.cons (fun a => Numeral.ofInt a.toInt) .nil)
    let steps : List (Step Nat (Transform Nat)) :=
      [⟨0, .number .double 1⟩, ⟨1, .number (.add 1) 1⟩, ⟨0, .discard 0⟩]
    let b : Board Nat := next start (.number ⟨0, .ok 21⟩)
    ((p.traced 0).transformEach (.ok 21 : Except Text Int64)).run [] =
        (.ok (Text.ofString "42"), [0, 1]) ∧
      (∀ step ∈ steps, step.action.target? ≠ some 0) ∧
      (Session.after next b (steps.map .transform)).numbers.get 0 = b.numbers.get 0 := by
  intro p steps b
  obtain ⟨_, _, hvalue, _, _, _, hstays⟩ :=
    transform_pipeline (m := Id) (ε := Text) (α := Int64) (β := Text) (ν := Nat)
  have htarget : ∀ step ∈ steps, step.action.target? ≠ some 0 := by decide
  exact ⟨(hvalue p 21).trans rfl, htarget, hstays b steps 0 htarget⟩

end Session

end Addressing.Outcome
