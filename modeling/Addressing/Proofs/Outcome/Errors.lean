import Addressing.Proofs.Outcome.Session

/-!
# Errors in a session

An error comes into a session by a step that names it, and is passed on as it is from there, be it
to a variable of the same set or of the other one. It is gone from a variable when that is assigned,
and by nothing else: to ask for the value in its place is answered by the error itself, and changes
nothing at all.

* `Place`, `Board.error?`: a variable of either set, and the error that it holds.
* `Task.error?`, `Task.target?`, `Takes`, `Task.asked?`: the error that a step names, the variable
  that it assigns, where it takes an outcome from, and the variable whose value it asks for.
* `error?_next_of_target?_ne`, `error?_next_of_takes`, `error?_next_cases`: what a step leaves, what
  it passes on, and that there is nothing else but the error that it names.
* `payload?_reply`, `next_run_of_payload?`: when a step is refused, and what comes of it.
* `errors_given_and_kept`: the errors of a whole session.
-/

namespace Addressing.Outcome

/-- The error of an outcome; `none` if it is a value. -/
def error? {ε α : Type} : Except ε α → Option ε
  | .ok _ => none
  | .error e => some e

section Error

variable {ε α β : Type}

theorem error?_eq_some_iff {o : Except ε α} {e : ε} : error? o = some e ↔ o = .error e := by
  cases o <;> simp [error?]

/-- What a function makes of an outcome has the same error. -/
theorem error?_map (f : α → β) (o : Except ε α) : error? (f <$> o) = error? o := by
  cases o <;> rfl

/-- Asking an outcome for its value fails with its error. -/
theorem error?_value (o : Except ε α) : (error? (value o)).map BadAccess.payload = error? o := by
  cases o <;> rfl

/-- No error is replaced by a value. -/
theorem error?_assign (a : α) (o : Except ε α) : error? (assign a o) = error? o := by
  cases o <;> rfl

/-- An error is replaced by another one, and no value is. -/
theorem error?_amend (e : ε) (o : Except ε α) : error? (amend e o) = (error? o).map fun _ => e := by
  cases o <;> rfl

end Error

namespace Session

/-- A transformed outcome has the same error. -/
theorem error?_tally_fst {α β : Type} (f : α → β) (o : Except Text α) :
    error? (tally f o).1 = error? o := by
  cases o <;> rfl

variable {ν : Type}

/-! ## What steps do -/

/-- The error that an action names. -/
def Action.error? {α : Type} : Action ν α → Option Text
  | err e => some e
  | setError e => some e
  | _ => none

/-- Whether an action replaces what its variable holds. To put a value in the place of a value is
    not among these actions, since it replaces no error. -/
def Action.assigns {α : Type} : Action ν α → Bool
  | reset | ok _ | err _ | copy _ | setError _ => true
  | compare _ | value | setValue _ => false

/-- Whether an action asks for the value of its variable, be it to put another one in its place. -/
def Action.asks {α : Type} : Action ν α → Bool
  | value | setValue _ => true
  | _ => false

/-- A variable of a session, of either set. -/
inductive Place (ν : Type)
  | number (x : ν)
  | blank (x : ν)
deriving DecidableEq

/-- The error that a step names. -/
def Task.error? : Task ν → Option Text
  | .number step => step.action.error?
  | .blank step => step.action.error?
  | .transform _ => none

/-- The variable that a step assigns. -/
def Task.target? : Task ν → Option (Place ν)
  | .number ⟨x, action⟩ => if action.assigns then some (.number x) else none
  | .blank ⟨x, action⟩ => if action.assigns then some (.blank x) else none
  | .transform ⟨_, .number _ y⟩ => some (.number y)
  | .transform ⟨_, .discard y⟩ => some (.blank y)
  | .transform ⟨_, .decimal⟩ => none

/-- The variable whose value a step asks for. -/
def Task.asked? : Task ν → Option (Place ν)
  | .number ⟨x, action⟩ => if action.asks then some (.number x) else none
  | .blank ⟨x, action⟩ => if action.asks then some (.blank x) else none
  | .transform _ => none

/-- A step gives one variable the outcome of another one, or what it makes of it. -/
inductive Takes : Task ν → Place ν → Place ν → Prop
  | copy (x y : ν) : Takes (.number ⟨x, .copy y⟩) (.number x) (.number y)
  | blank_copy (x y : ν) : Takes (.blank ⟨x, .copy y⟩) (.blank x) (.blank y)
  | transform (x y : ν) (f : Function) :
      Takes (.transform ⟨x, .number f y⟩) (.number y) (.number x)
  | discard (x y : ν) : Takes (.transform ⟨x, .discard y⟩) (.blank y) (.number x)

/-- The error that a reply refuses a step with. -/
def Reply.payload? : Reply → Option Text
  | number result => (Outcome.error? result).map BadAccess.payload
  | blank result => (Outcome.error? result).map BadAccess.payload
  | _ => none

variable [DecidableEq ν]

/-- The error that a variable holds. -/
def Board.error? (b : Board ν) : Place ν → Option Text
  | .number x => Outcome.error? (b.numbers.get x)
  | .blank x => Outcome.error? (b.blanks.get x)

/-! ## Actions on one set of variables -/

namespace Action

variable {α : Type} {s : Slots ν (Except Text α)} {x y : ν}

/-- An action is refused with the error of its variable if it asks for a value, and else not. -/
theorem payload?_reply [DecidableEq α] {answer : Except (BadAccess Text) α → Reply}
    (hanswer : ∀ r, (answer r).payload? = (Outcome.error? r).map BadAccess.payload)
    (action : Action ν α) :
    (action.reply answer s x).payload? =
      if action.asks then Outcome.error? (s.get x) else none := by
  cases action with
  | value => exact (hanswer _).trans (error?_value _)
  | setValue a =>
    exact (congrArg (Option.map BadAccess.payload) (error?_map _ _)).trans (error?_value _)
  | _ => rfl

variable [Inhabited α]

/-- An action leaves the error of a variable, unless it assigns that variable. -/
theorem error?_next_of_not_assigns (action : Action ν α) (h : action.assigns → y ≠ x) :
    Outcome.error? ((action.next s x).get y) = Outcome.error? (s.get y) := by
  cases action with
  | compare z => rfl
  | value => rfl
  | setValue a =>
    by_cases hy : y = x
    · rw [hy, next, Slots.get_set_same, error?_assign]
    · rw [next, Slots.get_set_other s _ hy]
  | _ => exact congrArg Outcome.error? (Slots.get_set_other s _ (h rfl))

/-- An error that is held after an action was held before it, or is named by the action. -/
theorem error?_next_cases {action : Action ν α} {e : Text}
    (h : Outcome.error? ((action.next s x).get y) = some e) :
    (∃ z, Outcome.error? (s.get z) = some e) ∨ action.error? = some e := by
  by_cases hkept : action.assigns → y ≠ x
  · rw [error?_next_of_not_assigns action hkept] at h
    exact .inl ⟨y, h⟩
  · obtain ⟨hassigns, rfl⟩ : action.assigns ∧ y = x := by simpa using hkept
    cases action with
    | reset | ok a =>
      rw [next, Slots.get_set_same] at h
      cases h
    | err e' =>
      rw [next, Slots.get_set_same] at h
      exact .inr h
    | copy z =>
      rw [next, Slots.get_set_same] at h
      exact .inl ⟨z, h⟩
    | setError e' =>
      rw [next, Slots.get_set_same, error?_amend] at h
      obtain ⟨_, _, rfl⟩ := Option.map_eq_some_iff.1 h
      exact .inr rfl
    | compare z | value | setValue a => cases hassigns

/-- An action that asks for the value of an error changes nothing. The variable was given the error,
    if it had none at the start. -/
theorem next_eq_self {action : Action ν α} {e : Text} (hs : Outcome.error? s.initial = none)
    (hasks : action.asks) (he : Outcome.error? (s.get x) = some e) : action.next s x = s := by
  cases action with
  | value => rfl
  | setValue a =>
    have hassign : assign a (s.get x) = s.get x := by
      rw [error?_eq_some_iff.1 he]
      rfl
    have hgiven : s.get x ≠ s.initial := by
      intro hx
      rw [hx, hs] at he
      cases he
    rw [next, hassign, Slots.set_get_of_ne_initial s hgiven]
  | _ => cases hasks

/-- An action leaves what the variables had at the start. -/
theorem initial_next (action : Action ν α) : (action.next s x).initial = s.initial := by
  cases action <;> rfl

end Action

/-! ## Steps -/

variable {b : Board ν} {t : Task ν} {p q : Place ν} {e : Text}

/-- A step leaves the errors of all variables but the one that it assigns. -/
theorem error?_next_of_target?_ne (h : t.target? ≠ some p) : (next b t).error? p = b.error? p := by
  cases t with
  | number step =>
    obtain ⟨x, action⟩ := step
    cases p with
    | number y =>
      refine action.error?_next_of_not_assigns fun hassigns hy => h ?_
      rw [Task.target?, if_pos hassigns, hy]
    | blank y => rfl
  | blank step =>
    obtain ⟨x, action⟩ := step
    cases p with
    | number y => rfl
    | blank y =>
      refine action.error?_next_of_not_assigns fun hassigns hy => h ?_
      rw [Task.target?, if_pos hassigns, hy]
  | transform step =>
    obtain ⟨x, transform⟩ := step
    cases transform with
    | number f z =>
      cases p with
      | number y =>
        exact congrArg Outcome.error? (Slots.get_set_other _ _ fun hy => h (hy ▸ rfl))
      | blank y => rfl
    | discard z =>
      cases p with
      | number y => rfl
      | blank y =>
        exact congrArg Outcome.error? (Slots.get_set_other _ _ fun hy => h (hy ▸ rfl))
    | decimal => rfl

/-- A variable that takes an outcome has the error of that outcome, or none if it has none. -/
theorem error?_next_of_takes (h : Takes t p q) : (next b t).error? p = b.error? q := by
  cases h with
  | copy x y => exact congrArg Outcome.error? (Slots.get_set_same _ _ _)
  | blank_copy x y => exact congrArg Outcome.error? (Slots.get_set_same _ _ _)
  | transform x y f =>
    exact (congrArg Outcome.error? (Slots.get_set_same _ _ _)).trans (error?_tally_fst _ _)
  | discard x y =>
    exact (congrArg Outcome.error? (Slots.get_set_same _ _ _)).trans (error?_tally_fst _ _)

/-- An error that is held after a step was held before it, or is named by the step. -/
theorem error?_next_cases (h : (next b t).error? p = some e) :
    (∃ q, b.error? q = some e) ∨ t.error? = some e := by
  cases t with
  | number step =>
    cases p with
    | number y => exact (Action.error?_next_cases h).imp_left fun ⟨z, hz⟩ => ⟨.number z, hz⟩
    | blank y => exact .inl ⟨.blank y, h⟩
  | blank step =>
    cases p with
    | number y => exact .inl ⟨.number y, h⟩
    | blank y => exact (Action.error?_next_cases h).imp_left fun ⟨z, hz⟩ => ⟨.blank z, hz⟩
  | transform step =>
    obtain ⟨x, transform⟩ := step
    by_cases htarget : (Task.transform ⟨x, transform⟩).target? = some p
    · refine .inl ⟨.number x, ?_⟩
      cases transform with
      | number f y =>
        obtain rfl := Option.some.inj htarget
        rwa [error?_next_of_takes (.transform x y f)] at h
      | discard y =>
        obtain rfl := Option.some.inj htarget
        rwa [error?_next_of_takes (.discard x y)] at h
      | decimal => cases htarget
    · rw [error?_next_of_target?_ne htarget] at h
      exact .inl ⟨p, h⟩

/-- A step is refused with the error of the variable whose value it asks for, and else not. -/
theorem payload?_reply (b : Board ν) (t : Task ν) :
    (reply b t).payload? = t.asked?.bind b.error? := by
  cases t with
  | number step =>
    obtain ⟨x, action⟩ := step
    refine (action.payload?_reply fun _ => rfl).trans ?_
    rw [Task.asked?]
    split <;> rfl
  | blank step =>
    obtain ⟨x, action⟩ := step
    refine (action.payload?_reply fun _ => rfl).trans ?_
    rw [Task.asked?]
    split <;> rfl
  | transform step => rfl

/-- A step that asks for the value of an error changes nothing. The variable was given the error,
    if none had one at the start. -/
theorem next_eq_self (hnumbers : error? b.numbers.initial = none)
    (hblanks : error? b.blanks.initial = none) (hasked : t.asked? = some p)
    (he : b.error? p = some e) : next b t = b := by
  cases t with
  | number step =>
    obtain ⟨x, action⟩ := step
    rw [Task.asked?, Option.ite_none_right_eq_some, Option.some.injEq] at hasked
    obtain ⟨hasks, rfl⟩ := hasked
    show { b with numbers := action.next b.numbers x } = b
    rw [action.next_eq_self hnumbers hasks he]
  | blank step =>
    obtain ⟨x, action⟩ := step
    rw [Task.asked?, Option.ite_none_right_eq_some, Option.some.injEq] at hasked
    obtain ⟨hasks, rfl⟩ := hasked
    show { b with blanks := action.next b.blanks x } = b
    rw [action.next_eq_self hblanks hasks he]
  | transform step => cases hasked

/-! ## Sessions -/

/-- No variable has an error at the start, and what they have at the start does not change. -/
theorem error?_initial_run (steps : List (Task ν)) :
    error? (run steps).numbers.initial = none ∧ error? (run steps).blanks.initial = none := by
  refine List.foldlRecOn (motive := fun b : Board ν => error? b.numbers.initial = none ∧
    error? b.blanks.initial = none) steps next ⟨rfl, rfl⟩ fun b ih t _ => ?_
  cases t with
  | number step => exact ⟨(congrArg error? step.action.initial_next).trans ih.1, ih.2⟩
  | blank step => exact ⟨ih.1, (congrArg error? step.action.initial_next).trans ih.2⟩
  | transform step =>
    obtain ⟨x, transform⟩ := step
    cases transform <;> exact ih

/-- All errors that are held in a session were named by one of its steps. -/
theorem exists_error?_of_run (steps : List (Task ν)) : ∀ p e, (run steps).error? p = some e →
    ∃ t ∈ steps, t.error? = some e := by
  -- What is taken was held by another variable, so it has to be said of all of them at once.
  refine List.foldlRecOn (b := start) (motive := fun b => ∀ p e, b.error? p = some e →
    ∃ t ∈ steps, t.error? = some e) steps next ?_ ?_
  · intro p e h
    cases p <;> cases h
  · intro b ih t ht p e h
    rcases error?_next_cases h with ⟨q, hq⟩ | hnamed
    · exact ih q e hq
    · exact ⟨t, ht, hnamed⟩

/-- A variable that is not assigned keeps its error through any number of steps. -/
theorem error?_after_of_target?_ne {steps : List (Task ν)} (h : ∀ t ∈ steps, t.target? ≠ some p) :
    (Session.after next b steps).error? p = b.error? p :=
  Session.after_frame (fun b' => b'.error? p) (fun t ht _ => error?_next_of_target?_ne (h t ht)) b

/-- A step of a session that is refused changes nothing. -/
theorem next_run_of_payload? {steps : List (Task ν)}
    (h : (reply (run steps) t).payload? = some e) : next (run steps) t = run steps := by
  obtain ⟨hnumbers, hblanks⟩ := error?_initial_run steps
  rw [payload?_reply] at h
  obtain ⟨p, hasked, he⟩ := Option.bind_eq_some_iff.1 h
  exact next_eq_self hnumbers hblanks hasked he

/-- A step that is refused in the middle of a session leaves no trace in what comes after it. -/
theorem run_append_of_payload? {before : List (Task ν)}
    (h : (reply (run before) t).payload? = some e) (later : List (Task ν)) :
    run (before ++ t :: later) = run (before ++ later) := by
  rw [run, Session.after_append, Session.after_cons, ← run, next_run_of_payload? h, run, run,
    Session.after_append]

/-- An error that is held in a session was named by one of its steps. A variable has the same error
    until it is assigned, and one that takes an outcome has the error of that outcome. A step is
    refused exactly if it asks for the value of an error, and with that error; it then changes
    nothing, and the session goes on as without it. -/
theorem errors_given_and_kept {ν : Type} [DecidableEq ν] :
    (∀ (steps : List (Task ν)) (p : Place ν) (e : Text), (run steps).error? p = some e →
      ∃ t ∈ steps, t.error? = some e) ∧
    (∀ (b : Board ν) (t : Task ν) (p : Place ν), t.target? ≠ some p →
      (next b t).error? p = b.error? p) ∧
    (∀ (b : Board ν) (steps : List (Task ν)) (p : Place ν), (∀ t ∈ steps, t.target? ≠ some p) →
      (Session.after next b steps).error? p = b.error? p) ∧
    (∀ (b : Board ν) (t : Task ν) (p q : Place ν), Takes t p q →
      (next b t).error? p = b.error? q) ∧
    (∀ (b : Board ν) (t : Task ν) (e : Text), (reply b t).payload? = some e ↔
      ∃ p, t.asked? = some p ∧ b.error? p = some e) ∧
    ∀ (before later : List (Task ν)) (t : Task ν) (e : Text),
      (reply (run before) t).payload? = some e →
        next (run before) t = run before ∧ run (before ++ t :: later) = run (before ++ later) := by
  refine ⟨exists_error?_of_run, fun _ _ _ => error?_next_of_target?_ne,
    fun _ _ _ => error?_after_of_target?_ne, fun _ _ _ _ => error?_next_of_takes, ?_, ?_⟩
  · intro b t e
    rw [payload?_reply, Option.bind_eq_some_iff]
  · intro before later t e h
    exact ⟨next_run_of_payload? h, run_append_of_payload? h later⟩

/-- An error that is passed on from one set of variables to the other, where it is copied and stays
    when all that it came from holds something else; and another one that cannot be replaced by a
    number. -/
theorem errors_given_and_kept_across_sets :
    let e := Text.ofString "nope"
    let e' := Text.ofString "worse"
    let before : List (Task Nat) :=
      [.number ⟨0, .err e⟩, .transform ⟨0, .number .double 1⟩, .transform ⟨1, .discard 0⟩,
        .blank ⟨2, .copy 0⟩, .number ⟨0, .setError e'⟩]
    let later : List (Task Nat) := [.number ⟨1, .ok 3⟩, .transform ⟨1, .discard 0⟩]
    let t : Task Nat := .number ⟨0, .setValue 5⟩
    (run before).error? (.blank 2) = some e ∧ (∃ t ∈ before, t.error? = some e) ∧
      (∀ t ∈ later, t.target? ≠ some (.blank 2)) ∧
      (Session.after next (run before) later).error? (.blank 2) = some e ∧
      t.asked? = some (.number 0) ∧ (run before).error? (.number 0) = some e' ∧
      (reply (run before) t).payload? = some e' ∧ next (run before) t = run before ∧
      run (before ++ t :: later) = run (before ++ later) := by
  intro e e' before later t
  obtain ⟨hnamed, _, hkept, _, hrefused, hunchanged⟩ := errors_given_and_kept (ν := Nat)
  have he : (run before).error? (.blank 2) = some e := by decide
  have hlater : ∀ t ∈ later, t.target? ≠ some (.blank 2) := by decide
  have hasked : t.asked? = some (.number 0) := by decide
  have he' : (run before).error? (.number 0) = some e' := by decide
  have hreply : (reply (run before) t).payload? = some e' :=
    (hrefused (run before) t e').2 ⟨.number 0, hasked, he'⟩
  exact ⟨he, hnamed before (.blank 2) e he, hlater,
    (hkept (run before) later (.blank 2) hlater).trans he, hasked, he', hreply,
    hunchanged before later t e' hreply⟩

end Session

end Addressing.Outcome
