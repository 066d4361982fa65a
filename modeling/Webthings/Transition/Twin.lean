import Webthings.Transition.Machine

namespace Webthings.Transition

/-- Two outcomes are one fault, or results that are related. -/
def Matched {Fault Result Other : Type} (related : Result → Other → Prop) : Except Fault Result → Except Fault Other → Prop
  | .ok result, .ok other => related result other
  | .error fault, .error fault' => fault = fault'
  | .ok _, .error _ | .error _, .ok _ => False

section Outcomes

variable {Fault Result Other : Type} {related : Result → Other → Prop}

@[simp] theorem matched_ok (result : Result) (other : Other) :
    Matched related (.ok result : Except Fault Result) (.ok other) ↔ related result other := Iff.rfl

@[simp] theorem matched_error (fault fault' : Fault) :
    Matched related (.error fault) (.error fault') ↔ fault = fault' := Iff.rfl

variable {outcome : Except Fault Result} {outcome' : Except Fault Other}

/-- Matched outcomes fail together or succeed together. -/
theorem Matched.cases (matched : Matched related outcome outcome') :
    (∃ fault, outcome = .error fault ∧ outcome' = .error fault) ∨
      ∃ result other, outcome = .ok result ∧ outcome' = .ok other ∧ related result other := by
  cases outcome with
  | error fault =>
      cases outcome' with
      | error fault' =>
          have same : fault = fault' := matched
          subst same
          exact Or.inl ⟨fault, rfl, rfl⟩
      | ok other => exact False.elim matched
  | ok result =>
      cases outcome' with
      | error fault => exact False.elim matched
      | ok other => exact Or.inr ⟨result, other, rfl, rfl, matched⟩

/-- Pure functions that keep related results related are passed through. -/
theorem Matched.map {Result' Other' : Type} {related' : Result' → Other' → Prop} {f : Result → Result'}
    {g : Other → Other'} (matched : Matched related outcome outcome')
    (kept : ∀ result other, outcome = .ok result → outcome' = .ok other → related result other →
      related' (f result) (g other)) :
    Matched related' (outcome.map f) (outcome'.map g) := by
  obtain ⟨fault, rfl, rfl⟩ | ⟨result, other, rfl, rfl, holds⟩ := matched.cases
  · rfl
  · exact kept result other rfl rfl holds

/-- Matched outcomes show the same when related results do. -/
theorem Matched.map_eq {Shown : Type} {f : Result → Shown} {g : Other → Shown} (matched : Matched related outcome outcome')
    (same : ∀ result other, related result other → f result = g other) : outcome.map f = outcome'.map g := by
  obtain ⟨fault, rfl, rfl⟩ | ⟨result, other, rfl, rfl, holds⟩ := matched.cases
  · rfl
  · exact congrArg Except.ok (same result other holds)

/-- Continuations that match on related results match after matched outcomes. -/
theorem Matched.bind {Result' Other' : Type} {related' : Result' → Other' → Prop} {f : Result → Except Fault Result'}
    {g : Other → Except Fault Other'} (matched : Matched related outcome outcome')
    (continued : ∀ result other, outcome = .ok result → outcome' = .ok other → related result other →
      Matched related' (f result) (g other)) :
    Matched related' (outcome.bind f) (outcome'.bind g) := by
  obtain ⟨fault, rfl, rfl⟩ | ⟨result, other, rfl, rfl, holds⟩ := matched.cases
  · rfl
  · exact continued result other rfl rfl holds

end Outcomes

variable {State Event Fault : Type}

/-- Two states of a machine side by side; the events of the second are renamed, and the pair stops at the first fault. -/
def Machine.twin (machine : Machine State Event Fault) (rename : Event → Event) :
    Machine (State × State) Event Fault where
  step pair event :=
    match machine.step pair.1 event, machine.step pair.2 (rename event) with
    | .ok next, .ok next' => .ok (next, next')
    | .error fault, _ => .error fault
    | .ok _, .error fault => .error fault

section Twin

variable {machine : Machine State Event Fault} {rename : Event → Event}

/-- A step of the pair is a step of each. -/
theorem Machine.twin_ok {pair next : State × State} {event : Event}
    (stepped : (machine.twin rename).step pair event = .ok next) :
    machine.step pair.1 event = .ok next.1 ∧ machine.step pair.2 (rename event) = .ok next.2 := by
  unfold twin at stepped
  dsimp only at stepped
  cases one : machine.step pair.1 event with
  | error fault =>
      rw [one] at stepped
      cases stepped
  | ok first =>
      cases other : machine.step pair.2 (rename event) with
      | error fault =>
          rw [one, other] at stepped
          cases stepped
      | ok second =>
          rw [one, other] at stepped
          cases stepped
          exact ⟨rfl, rfl⟩

/-- Two steps are a step of the pair. -/
theorem Machine.twin_step {state state' next next' : State} {event : Event} (one : machine.step state event = .ok next)
    (other : machine.step state' (rename event) = .ok next') :
    (machine.twin rename).step (state, state') event = .ok (next, next') := by
  unfold twin
  dsimp only
  rw [one, other]

/-- Matched steps lead a pair to related states. -/
theorem Machine.twin_related {related : State → State → Prop} {pair next : State × State} {event : Event}
    (matched : Matched related (machine.step pair.1 event) (machine.step pair.2 (rename event)))
    (stepped : (machine.twin rename).step pair event = .ok next) : related next.1 next.2 := by
  obtain ⟨one, other⟩ := machine.twin_ok stepped
  rw [one, other] at matched
  exact matched

/-- Related states whose guarded steps show the same and stay related show the same in all guarded runs. -/
theorem Machine.twin_shows {Shown : Type} (shows : State → Event → Except Fault Shown) (guard : State × State → Event → Prop)
    (related : State → State → Prop)
    (same : ∀ state state' event, related state state' → guard (state, state') event →
      shows state event = shows state' (rename event))
    (kept : ∀ state state' event, related state state' → guard (state, state') event →
      Matched related (machine.step state event) (machine.step state' (rename event)))
    {state state' : State} {events : List Event} (start : related state state')
    (guarded : (machine.twin rename).Meets guard (state, state') events) :
    (machine.twin rename).Meets (fun pair event => shows pair.1 event = shows pair.2 (rename event)) (state, state')
      events := by
  have preserved : ∀ pair event next, related pair.1 pair.2 → guard pair event →
      (machine.twin rename).step pair event = .ok next → related next.1 next.2 := by
    intro pair event next held careful stepped
    exact machine.twin_related (kept pair.1 pair.2 event held careful) stepped
  exact guarded.imp (fun pair => related pair.1 pair.2) _ preserved
    (fun pair event held careful => same pair.1 pair.2 event held careful) start

end Twin

end Webthings.Transition
