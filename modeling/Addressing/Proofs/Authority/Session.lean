import Addressing.Authority.Session
import Addressing.Proofs.Authority.Text
import Addressing.Proofs.MicroForm

/-!
# What the variables of a session hold

A step of a session either makes an authority of what is given to it, or takes authorities from
variable to variable as they are, or changes nothing. Thus a variable holds what was made or taken
by the last step that wrote it, and nothing of what it held before (`last_write_stays`).

* `Makes`, `Takes`, `Idle`: what a step does, told without the state that it is taken in.
* `get_next_of_not_writes`, `get_after_of_not_writes`: a variable that is not written stays the
  same.
* `get_next_cases`, `exists_makes_run`: all that is held was made by a step.
* `ip_of_texts`: addresses that only come from texts have a micro form, wherever they went.
-/

namespace Addressing.Authority.Session

variable {ν : Type}

/-! ## Steps -/

/-- The authority that an action makes of what is given to it. -/
inductive Makes : Action ν → Authority → Prop
  | setName (n : Text) : Makes (.setName n) (.name n)
  | setIp (b : Bytes) : Makes (.setIp b) (.ip b)
  | setId (b : Bytes) : Makes (.setId b) (.id b)
  | clear : Makes .clear .noRemote
  | make (a : Authority) : Makes (.make a) a
  | setIpText {t : Text} {b : Bytes} : Ip.parse t = .ok b → Makes (.setIpText t) (.ip b)
  | setIdHex {t : Text} {b : Bytes} : Hex.parse t = .ok b → Makes (.setIdHex t) (.id b)

/-- A step gives one variable what another one holds. -/
inductive Takes : Step ν (Action ν) → ν → ν → Prop
  | copy (x y : ν) : Takes ⟨x, .copy y⟩ x y
  | swap (x y : ν) : Takes ⟨x, .swap y⟩ x y
  | swap_other (x y : ν) : Takes ⟨x, .swap y⟩ y x

/-- A step gives a variable an authority, be it one that is made or one that is taken. -/
inductive Writes : Step ν (Action ν) → ν → Prop
  | makes {x : ν} {action : Action ν} {a : Authority} : Makes action a → Writes ⟨x, action⟩ x
  | takes {step : Step ν (Action ν)} {x y : ν} : Takes step x y → Writes step x

/-- An action that changes nothing: a question, or a text that cannot be read. -/
inductive Idle : Action ν → Prop
  | compare (y : ν) : Idle (.compare y)
  | text : Idle .text
  | ipText : Idle .ipText
  | validate : Idle .validate
  | setIpText {t : Text} {f : Fault} : Ip.parse t = .error f → Idle (.setIpText t)
  | setIdHex {t : Text} {f : Fault} : Hex.parse t = .error f → Idle (.setIdHex t)

/-- There is nothing else that an action can do. -/
theorem makes_or_takes_or_idle (action : Action ν) :
    (∃ a, Makes action a) ∨ (∃ y, action = .copy y ∨ action = .swap y) ∨ Idle action := by
  cases action with
  | setName n => exact .inl ⟨_, .setName n⟩
  | setIp b => exact .inl ⟨_, .setIp b⟩
  | setId b => exact .inl ⟨_, .setId b⟩
  | clear => exact .inl ⟨_, .clear⟩
  | make a => exact .inl ⟨_, .make a⟩
  | setIpText t =>
    rcases h : Ip.parse t with f | b
    · exact .inr (.inr (.setIpText h))
    · exact .inl ⟨_, .setIpText h⟩
  | setIdHex t =>
    rcases h : Hex.parse t with f | b
    · exact .inr (.inr (.setIdHex h))
    · exact .inl ⟨_, .setIdHex h⟩
  | copy y => exact .inr (.inl ⟨y, .inl rfl⟩)
  | swap y => exact .inr (.inl ⟨y, .inr rfl⟩)
  | compare y => exact .inr (.inr (.compare y))
  | text => exact .inr (.inr .text)
  | ipText => exact .inr (.inr .ipText)
  | validate => exact .inr (.inr .validate)

/-- What makes an authority is not idle: a text is either read or not. -/
theorem not_idle_of_makes {action : Action ν} {a : Authority} (h : Makes action a) :
    ¬ Idle action := by
  intro hidle
  cases hidle with
  | setIpText hf =>
    cases h with
    | setIpText hb =>
      rw [hb] at hf
      cases hf
  | setIdHex hf =>
    cases h with
    | setIdHex hb =>
      rw [hb] at hf
      cases hf
  | _ => cases h

/-- A step writes its own variable, unless it is idle, and the other one of a swap. -/
theorem eq_of_writes {step : Step ν (Action ν)} {x : ν} (h : Writes step x) :
    x = step.on ∧ ¬ Idle step.action ∨ step.action = .swap x := by
  cases h with
  | makes h => exact .inl ⟨rfl, not_idle_of_makes h⟩
  | takes h =>
    cases h with
    | copy x y => exact .inl ⟨rfl, fun hidle => by cases hidle⟩
    | swap x y => exact .inl ⟨rfl, fun hidle => by cases hidle⟩
    | swap_other x y => exact .inr rfl

/-- An idle action writes no variable at all. -/
theorem not_writes_of_idle {x y : ν} {action : Action ν} (h : Idle action) :
    ¬ Writes ⟨y, action⟩ x := by
  intro hw
  rcases eq_of_writes hw with ⟨_, hidle⟩ | rfl
  · exact hidle h
  · cases h

/-- Other variables than that of the step are out of its reach, unless they are swapped. -/
theorem not_writes_of_ne {step : Step ν (Action ν)} {x : ν} (hon : x ≠ step.on)
    (hswap : step.action ≠ .swap x) : ¬ Writes step x :=
  fun h => (eq_of_writes h).elim (fun h => hon h.1) hswap

variable [DecidableEq ν] {s : Slots ν Authority} {step : Step ν (Action ν)} {x : ν}

/-- What is made is written. -/
theorem next_of_makes {action : Action ν} {a : Authority} (h : Makes action a) :
    next s ⟨x, action⟩ = s.set x a := by
  cases h with
  | setIpText h => simp [next, Action.written?, h, Except.toOption]
  | setIdHex h => simp [next, Action.written?, h, Except.toOption]
  | _ => rfl

/-- Nothing is written by an idle action. -/
theorem next_of_idle {action : Action ν} (h : Idle action) : next s ⟨x, action⟩ = s := by
  cases h with
  | setIpText h => simp [next, Action.written?, h, Except.toOption]
  | setIdHex h => simp [next, Action.written?, h, Except.toOption]
  | _ => rfl

/-- What is taken is what was held before the step. -/
theorem get_next_of_takes {y : ν} (h : Takes step x y) : (next s step).get x = s.get y := by
  cases h with
  | copy => exact Slots.get_set_same s x (s.get y)
  | swap => exact Slots.get_swap_left s x y
  | swap_other => exact Slots.get_swap_right s y x

/-- A variable that a step does not write holds what it held before. -/
theorem get_next_of_not_writes (h : ¬ Writes step x) : (next s step).get x = s.get x := by
  obtain ⟨z, action⟩ := step
  rcases makes_or_takes_or_idle action with ⟨a, ha⟩ | ⟨y, rfl | rfl⟩ | hidle
  · have hx : x ≠ z := by rintro rfl; exact h (.makes ha)
    rw [next_of_makes ha, Slots.get_set_other s a hx]
  · have hx : x ≠ z := by rintro rfl; exact h (.takes (.copy x y))
    exact Slots.get_set_other s (s.get y) hx
  · have hx : x ≠ z := by rintro rfl; exact h (.takes (.swap x y))
    have hy : x ≠ y := by rintro rfl; exact h (.takes (.swap_other z x))
    exact Slots.get_swap_other s hx hy
  · rw [next_of_idle hidle]

/-- What a variable holds after a step was held by some variable before it, or the step made it. -/
theorem get_next_cases (s : Slots ν Authority) (step : Step ν (Action ν)) (x : ν) :
    (∃ y, (next s step).get x = s.get y) ∨ Makes step.action ((next s step).get x) := by
  by_cases h : Writes step x
  · cases h with
    | makes h =>
      rw [next_of_makes h, Slots.get_set_same]
      exact .inr h
    | takes h => exact .inl ⟨_, get_next_of_takes h⟩
  · exact .inl ⟨x, get_next_of_not_writes h⟩

/-! ## Sessions -/

/-- A variable that no step writes holds what it held before all of them. -/
theorem get_after_of_not_writes {steps : List (Step ν (Action ν))}
    (h : ∀ step ∈ steps, ¬ Writes step x) : (Session.after next s steps).get x = s.get x :=
  Session.after_frame (fun s' => s'.get x) (fun step hstep _ =>
    get_next_of_not_writes (h step hstep)) s

/-- What a variable holds after a step that is the last one to write it is what the step gave it. -/
theorem get_run_of_not_writes {before later : List (Step ν (Action ν))}
    (h : ∀ step ∈ later, ¬ Writes step x) :
    (run (before ++ step :: later)).get x = (next (run before) step).get x := by
  rw [run, Session.after_append, Session.after_cons]
  exact get_after_of_not_writes h

/-- All that is held in a session was made by one of its steps, unless there is no remote. -/
theorem exists_makes_run (steps : List (Step ν (Action ν))) : ∀ x, (run steps).get x = .noRemote ∨
    ∃ step ∈ steps, Makes step.action ((run steps).get x) := by
  -- What is taken was held by another variable, so it has to be said of all of them at once.
  refine List.foldlRecOn (b := start) (motive := fun s => ∀ x, s.get x = .noRemote ∨
    ∃ step ∈ steps, Makes step.action (s.get x)) steps next (fun _ => .inl rfl) ?_
  intro s ih step hstep x
  rcases get_next_cases s step x with ⟨y, hy⟩ | hmade
  · rw [hy]
    exact ih y
  · exact .inr ⟨step, hstep, hmade⟩

/-- A step leaves all variables as they are but its own and the other one of a swap, and an idle
    step leaves these too. What a step makes of its own argument stays in its variable until that is
    written again, whatever was held before and wherever it is copied to; and so does what a step
    takes from another variable, whatever becomes of that one. -/
theorem last_write_stays :
    (∀ (s : Slots ν Authority) (step : Step ν (Action ν)) (x : ν),
      x ≠ step.on → step.action ≠ .swap x → (next s step).get x = s.get x) ∧
    (∀ (s : Slots ν Authority) (x : ν) (action : Action ν),
      Idle action → next s ⟨x, action⟩ = s) ∧
    (∀ (before later : List (Step ν (Action ν))) (x : ν) (action : Action ν) (a : Authority),
      Makes action a → (∀ step ∈ later, ¬ Writes step x) →
        (run (before ++ ⟨x, action⟩ :: later)).get x = a) ∧
    ∀ (before later : List (Step ν (Action ν))) (step : Step ν (Action ν)) (x y : ν),
      Takes step x y → (∀ step' ∈ later, ¬ Writes step' x) →
        (run (before ++ step :: later)).get x = (run before).get y := by
  refine ⟨?_, fun s x action h => next_of_idle h, ?_, ?_⟩
  · intro s step x hon hswap
    exact get_next_of_not_writes (not_writes_of_ne hon hswap)
  · intro before later x action a h hlater
    rw [get_run_of_not_writes hlater, next_of_makes h, Slots.get_set_same]
  · intro before later step x y h hlater
    rw [get_run_of_not_writes hlater, get_next_of_takes h]

/-- What is typed for an id is made of the text alone: the address that the variable held before,
    and had itself taken from another one, leaves no trace in it, and neither do the steps behind
    it that copy the id and write the copies. -/
theorem last_write_stays_between_swaps :
    let before : List (Step Nat (Action Nat)) :=
      [⟨0, .setIp [10, 0, 0, 1]⟩, ⟨1, .setName (Text.ofString "a")⟩, ⟨1, .swap 0⟩, ⟨0, .copy 1⟩]
    let later : List (Step Nat (Action Nat)) :=
      [⟨0, .setIdHex (Text.ofString "0")⟩, ⟨0, .text⟩, ⟨2, .copy 0⟩, ⟨2, .setIp []⟩, ⟨1, .swap 2⟩]
    let action : Action Nat := .setIdHex (Text.ofString "0aFF")
    Makes action (.id [0x0a, 0xff]) ∧ (∀ step ∈ later, ¬ Writes step 0) ∧
      (run (before ++ ⟨0, action⟩ :: later)).get 0 = .id [0x0a, 0xff] := by
  intro before later action
  have hmakes : Makes action (.id [0x0a, 0xff]) := .setIdHex (by decide)
  have hlater : ∀ step ∈ later, ¬ Writes step 0 := by
    simp only [later, List.forall_mem_cons]
    exact ⟨not_writes_of_idle (.setIdHex (f := .invalidHex) (by decide)), not_writes_of_idle .text,
      not_writes_of_ne (by decide) (by decide), not_writes_of_ne (by decide) (by decide),
      not_writes_of_ne (by decide) (by decide), List.forall_mem_nil _⟩
  exact ⟨hmakes, hlater, last_write_stays.2.2.1 before later 0 action _ hmakes hlater⟩

/-! ## Addresses that come from texts -/

/-- An action gives the bytes of an IP address, be they of an address or not. -/
inductive GivesIp : Action ν → Prop
  | setIp (b : Bytes) : GivesIp (.setIp b)
  | make (b : Bytes) : GivesIp (.make (.ip b))

/-- Where no step gives the bytes of an IP address, all that are held are those of an address. -/
theorem exists_bytes_of_not_givesIp {steps : List (Step ν (Action ν))}
    (h : ∀ step ∈ steps, ¬ GivesIp step.action) {b : Bytes} (hx : (run steps).get x = .ip b) :
    ∃ a : Ip.Address, a.bytes = b := by
  rcases exists_makes_run steps x with hx' | ⟨⟨y, action⟩, hstep, hmakes⟩
  · rw [hx] at hx'
    cases hx'
  · rw [hx] at hmakes
    have hgives := h _ hstep
    cases hmakes with
    | setIp => exact absurd (.setIp b) hgives
    | make => exact absurd (.make b) hgives
    | setIpText ht =>
      obtain ⟨a, _, ha⟩ := Ip.parse_eq_ok_iff.1 ht
      exact ⟨a, ha⟩

/-- If IP addresses only come from texts, each one that a variable holds has a micro form and an
    address text, which is read as these bytes and is what is printed for it. It does not matter
    from which variable it was taken, and which texts could not be read. -/
theorem ip_of_texts {steps : List (Step ν (Action ν))}
    (h : ∀ step ∈ steps, ¬ GivesIp step.action) {b : Bytes} (hx : (run steps).get x = .ip b) :
    MicroForm.validate ((run steps).get x) = .ok () ∧
      ∃ c, ((run steps).get x).ipText = .ok c ∧ Ip.parse c = .ok b ∧
        ((run steps).get x).text = Text.ofString "ip:" ++ c := by
  obtain ⟨a, rfl⟩ := exists_bytes_of_not_givesIp h hx
  rw [hx]
  exact ⟨MicroForm.validate_ip_bytes a, a.text, Ip.render_bytes a,
    Ip.parse_of_render (Ip.render_bytes a), Authority.text_ip_bytes a⟩

/-- An address that was swapped out of the variable it was typed for, among an id, a name and a
    text that is no address. -/
theorem ip_of_texts_swapped :
    let steps : List (Step Nat (Action Nat)) :=
      [⟨0, .setIpText (Text.ofString "::ffff:10.0.0.1")⟩, ⟨1, .setId [10, 0, 0]⟩, ⟨1, .swap 0⟩,
        ⟨1, .setIpText (Text.ofString "10.0.0.01")⟩, ⟨0, .make (.name [])⟩]
    let b : Bytes := [0, 0, 0, 0, 0, 0, 0, 0, 0, 0, 0xff, 0xff, 10, 0, 0, 1]
    (∀ step ∈ steps, ¬ GivesIp step.action) ∧ (run steps).get 1 = .ip b ∧
      MicroForm.validate ((run steps).get 1) = .ok () ∧
      ∃ c, ((run steps).get 1).ipText = .ok c ∧ Ip.parse c = .ok b ∧
        ((run steps).get 1).text = Text.ofString "ip:" ++ c := by
  intro steps b
  have h : ∀ step ∈ steps, ¬ GivesIp step.action := by
    simp only [steps, List.forall_mem_cons]
    refine ⟨?_, ?_, ?_, ?_, ?_, List.forall_mem_nil _⟩ <;> rintro ⟨⟩
  have hx : (run steps).get 1 = .ip b := by decide
  exact ⟨h, hx, ip_of_texts h hx⟩

end Addressing.Authority.Session
