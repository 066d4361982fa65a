namespace Webthings.Transition

/-- A machine answers each event with its next state or with the fault that ends the run. -/
structure Machine (State Event Fault : Type) where
  step : State → Event → Except Fault State

variable {State Event Fault : Type}

/-- The run feeds the events in order and stops at the first fault. -/
def Machine.run (machine : Machine State Event Fault) : State → List Event → Except Fault State
  | state, [] => .ok state
  | state, event :: events =>
      match machine.step state event with
      | .ok next => machine.run next events
      | .error fault => .error fault

/-- Every step of the run is taken from a state and on an event that meet the guard. -/
def Machine.Meets (machine : Machine State Event Fault) (guard : State → Event → Prop) :
    State → List Event → Prop
  | _, [] => True
  | state, event :: events =>
      guard state event ∧ ∀ next, machine.step state event = .ok next → machine.Meets guard next events

@[simp] theorem Machine.run_nil (machine : Machine State Event Fault) (state : State) :
    machine.run state [] = .ok state := rfl

/-- A finished run splits at its first event. -/
theorem Machine.run_cons_ok (machine : Machine State Event Fault) {state final : State} {event : Event}
    {events : List Event} (finished : machine.run state (event :: events) = .ok final) :
    ∃ next, machine.step state event = .ok next ∧ machine.run next events = .ok final := by
  rw [run] at finished
  cases stepped : machine.step state event with
  | ok next => exact ⟨next, rfl, by simpa [stepped] using finished⟩
  | error fault => simp [stepped] at finished

/-- Every event list meets the guard that always holds. -/
theorem Machine.meets_true (machine : Machine State Event Fault) (state : State) (events : List Event) :
    machine.Meets (fun _ _ => True) state events := by
  induction events generalizing state with
  | nil => trivial
  | cons event events ih => exact ⟨trivial, fun next _ => ih next⟩

/-- A step that meets the guard goes on to a run that meets it. -/
theorem Machine.meets_cons_ok {machine : Machine State Event Fault} {guard : State → Event → Prop} {state next : State}
    {event : Event} {events : List Event} (allowed : guard state event) (stepped : machine.step state event = .ok next)
    (rest : machine.Meets guard next events) : machine.Meets guard state (event :: events) := by
  refine ⟨allowed, fun other reached => ?_⟩
  cases stepped.symm.trans reached
  exact rest

/-- A guard on the events alone is met when every event meets it. -/
theorem Machine.meets_each (machine : Machine State Event Fault) {kind : Event → Prop} {events : List Event}
    (kinds : ∀ event ∈ events, kind event) (state : State) : machine.Meets (fun _ event => kind event) state events := by
  induction events generalizing state with
  | nil => trivial
  | cons event events ih =>
      exact ⟨kinds event List.mem_cons_self, fun next _ =>
        ih (fun other member => kinds other (List.mem_cons_of_mem _ member)) next⟩

/-- Two guards are met together by the runs that meet each of them. -/
theorem Machine.meets_and_iff (machine : Machine State Event Fault) {guard guard' : State → Event → Prop} {state : State}
    {events : List Event} : machine.Meets (fun state event => guard state event ∧ guard' state event) state events ↔
      machine.Meets guard state events ∧ machine.Meets guard' state events := by
  induction events generalizing state with
  | nil => exact ⟨fun _ => ⟨trivial, trivial⟩, fun _ => trivial⟩
  | cons event events ih =>
      constructor
      · rintro ⟨⟨now, now'⟩, rest⟩
        exact ⟨⟨now, fun next stepped => (ih.mp (rest next stepped)).1⟩,
          now', fun next stepped => (ih.mp (rest next stepped)).2⟩
      · rintro ⟨⟨now, rest⟩, now', rest'⟩
        exact ⟨⟨now, now'⟩, fun next stepped => ih.mpr ⟨rest next stepped, rest' next stepped⟩⟩

/-- Guards that agree on the states that guarded steps keep are met by the same runs. -/
theorem Machine.meets_iff_kept (machine : Machine State Event Fault) (invariant : State → Prop)
    (guard guard' : State → Event → Prop)
    (kept : ∀ state event next, invariant state → guard' state event → machine.step state event = .ok next →
      invariant next)
    (agree : ∀ state event, invariant state → (guard state event ↔ guard' state event))
    {state : State} (events : List Event) (start : invariant state) :
    machine.Meets guard state events ↔ machine.Meets guard' state events := by
  induction events generalizing state with
  | nil => exact Iff.rfl
  | cons event events ih =>
      have later : guard' state event → ∀ next, machine.step state event = .ok next →
          (machine.Meets guard next events ↔ machine.Meets guard' next events) := fun allowed next stepped =>
        ih (kept state event next start allowed stepped)
      constructor
      · rintro ⟨now, rest⟩
        have allowed := (agree state event start).mp now
        exact ⟨allowed, fun next stepped => (later allowed next stepped).mp (rest next stepped)⟩
      · rintro ⟨allowed, rest⟩
        exact ⟨(agree state event start).mpr allowed, fun next stepped =>
          (later allowed next stepped).mpr (rest next stepped)⟩

/-- Guards that agree on the states of an invariant are met by the same runs. -/
theorem Machine.meets_iff (machine : Machine State Event Fault) (invariant : State → Prop)
    (guard guard' : State → Event → Prop)
    (preserved : ∀ state event next, invariant state → machine.step state event = .ok next → invariant next)
    (agree : ∀ state event, invariant state → (guard state event ↔ guard' state event))
    {state : State} (events : List Event) (start : invariant state) :
    machine.Meets guard state events ↔ machine.Meets guard' state events :=
  machine.meets_iff_kept invariant guard guard'
    (fun state event next held _ stepped => preserved state event next held stepped) agree events start

/-- Guards that agree everywhere are met by the same runs. -/
theorem Machine.meets_congr (machine : Machine State Event Fault) {guard guard' : State → Event → Prop}
    (agree : ∀ state event, guard state event ↔ guard' state event) (state : State) (events : List Event) :
    machine.Meets guard state events ↔ machine.Meets guard' state events := by
  have same : guard = guard' := by
    funext state event
    exact propext (agree state event)
  rw [same]

/-- On the states that guarded steps keep, one guard can imply another. -/
theorem Machine.Meets.imp {machine : Machine State Event Fault} {guard : State → Event → Prop}
    (invariant : State → Prop) (guard' : State → Event → Prop)
    (preserved : ∀ state event next, invariant state → guard state event → machine.step state event = .ok next →
      invariant next)
    (implies : ∀ state event, invariant state → guard state event → guard' state event)
    {state : State} {events : List Event} (start : invariant state) (guarded : machine.Meets guard state events) :
    machine.Meets guard' state events := by
  induction events generalizing state with
  | nil => trivial
  | cons event events ih =>
      exact ⟨implies state event start guarded.1, fun next stepped =>
        ih (preserved state event next start guarded.1 stepped) (guarded.2 next stepped)⟩

/-- What one guarded step preserves, a guarded run preserves. -/
theorem Machine.run_invariant (machine : Machine State Event Fault) (guard : State → Event → Prop)
    (invariant : State → Prop)
    (preserved : ∀ state event next, invariant state → guard state event →
      machine.step state event = .ok next → invariant next)
    {state final : State} {events : List Event} (start : invariant state)
    (guarded : machine.Meets guard state events) (finished : machine.run state events = .ok final) :
    invariant final := by
  induction events generalizing state with
  | nil =>
      have same : state = final := by simpa using finished
      exact same ▸ start
  | cons event events ih =>
      obtain ⟨next, stepped, rest⟩ := machine.run_cons_ok finished
      exact ih (preserved state event next start guarded.1 stepped) (guarded.2 next stepped) rest

/-- What every step preserves, every run preserves. -/
theorem Machine.run_preserves (machine : Machine State Event Fault) (invariant : State → Prop)
    (preserved : ∀ state event next, invariant state →
      machine.step state event = .ok next → invariant next)
    {state final : State} {events : List Event} (start : invariant state)
    (finished : machine.run state events = .ok final) : invariant final :=
  machine.run_invariant (fun _ _ => True) invariant
    (fun state event next held _ stepped => preserved state event next held stepped) start
    (machine.meets_true state events) finished

/-- What every step preserves of a state and the events before it, every run preserves. -/
theorem Machine.run_history (machine : Machine State Event Fault) (invariant : List Event → State → Prop)
    (preserved : ∀ past state event next, invariant past state →
      machine.step state event = .ok next → invariant (past ++ [event]) next)
    {past : List Event} {state final : State} {events : List Event} (start : invariant past state)
    (finished : machine.run state events = .ok final) : invariant (past ++ events) final := by
  induction events generalizing past state with
  | nil =>
      have same : state = final := by simpa using finished
      rw [List.append_nil]
      exact same ▸ start
  | cons event events ih =>
      obtain ⟨next, stepped, rest⟩ := machine.run_cons_ok finished
      have later := ih (preserved past state event next start stepped) rest
      rw [List.append_assoc] at later
      exact later

/-- A guard is met at every split of a run. -/
theorem Machine.Meets.at_split {machine : Machine State Event Fault} {guard : State → Event → Prop}
    {state middle : State} {before after : List Event} {event : Event}
    (guarded : machine.Meets guard state (before ++ event :: after)) (finished : machine.run state before = .ok middle) :
    guard middle event := by
  induction before generalizing state with
  | nil =>
      have same : state = middle := by simpa using finished
      exact same ▸ guarded.1
  | cons first before ih =>
      obtain ⟨next, stepped, rest⟩ := machine.run_cons_ok finished
      exact ih (guarded.2 next stepped) rest

/-- A guard that is met at every split of a run is met by the run. -/
theorem Machine.meets_of_splits (machine : Machine State Event Fault) {guard : State → Event → Prop} {state : State}
    {events : List Event} (splits : ∀ before event after middle, events = before ++ event :: after →
      machine.run state before = .ok middle → guard middle event) : machine.Meets guard state events := by
  induction events generalizing state with
  | nil => trivial
  | cons event events ih =>
      refine ⟨splits [] event events state rfl rfl, fun next stepped => ?_⟩
      apply ih
      intro before other after middle same reached
      apply splits (event :: before) other after middle (by rw [same]; rfl)
      rw [run, stepped]
      exact reached

/-- A computation that succeeds with a mapped result has a result of its own. -/
theorem map_ok {Result Other : Type} {outcome : Except Fault Result} {f : Result → Other} {result : Other}
    (finished : outcome.map f = .ok result) : ∃ inner, outcome = .ok inner ∧ f inner = result := by
  cases outcome with
  | ok inner => exact ⟨inner, rfl, Except.ok.inj finished⟩
  | error fault => cases finished

/-- The outcome is no forbidden fault, and a result meets the postcondition. -/
def Avoids {Result : Type} (forbidden : Fault → Prop) (post : Result → Prop) : Except Fault Result → Prop
  | .ok result => post result
  | .error fault => ¬ forbidden fault

section Outcomes

variable {Result Other : Type} {forbidden : Fault → Prop} {post : Result → Prop}

@[simp] theorem avoids_ok (result : Result) : Avoids forbidden post (.ok result) ↔ post result := Iff.rfl

@[simp] theorem avoids_error (fault : Fault) :
    Avoids forbidden post (.error fault : Except Fault Result) ↔ ¬ forbidden fault := Iff.rfl

/-- A postcondition can be weakened. -/
theorem Avoids.weaken {outcome : Except Fault Result} {weaker : Result → Prop}
    (holds : Avoids forbidden post outcome) (implied : ∀ result, post result → weaker result) :
    Avoids forbidden weaker outcome := by
  cases outcome with
  | ok result => exact implied result holds
  | error fault => exact holds

/-- A pure function after a computation is covered by its preimage of the postcondition. -/
theorem avoids_map {outcome : Except Fault Result} {f : Result → Other} {post : Other → Prop} :
    Avoids forbidden post (outcome.map f) ↔ Avoids forbidden (fun result => post (f result)) outcome := by
  cases outcome <;> exact Iff.rfl

/-- The result of an outcome that avoids the faults meets the postcondition. -/
theorem Avoids.of_ok {outcome : Except Fault Result} {result : Result} (holds : Avoids forbidden post outcome)
    (finished : outcome = .ok result) : post result := by
  subst finished
  exact holds

/-- A fault of an outcome that avoids some is none of them. -/
theorem Avoids.of_error {outcome : Except Fault Result} {fault : Fault} (holds : Avoids forbidden post outcome)
    (failed : outcome = .error fault) : ¬ forbidden fault := by
  subst failed
  exact holds

end Outcomes

/-- Guarded steps that keep an invariant and avoid some faults make up runs that do. -/
theorem Machine.run_avoids (machine : Machine State Event Fault) (guard : State → Event → Prop)
    (invariant : State → Prop) (forbidden : Fault → Prop)
    (safe : ∀ state event, invariant state → guard state event →
      Avoids forbidden invariant (machine.step state event))
    {state : State} {events : List Event} (start : invariant state) (guarded : machine.Meets guard state events) :
    Avoids forbidden invariant (machine.run state events) := by
  induction events generalizing state with
  | nil => exact start
  | cons event events ih =>
      have one := safe state event start guarded.1
      rw [run]
      cases stepped : machine.step state event with
      | ok next =>
          rw [stepped] at one
          exact ih one (guarded.2 next stepped)
      | error fault =>
          rw [stepped] at one
          exact one

/-- When the guard fails only where a step fails, the guarded runs are the ones that avoid the faults. -/
theorem Machine.run_fails_iff (machine : Machine State Event Fault) (guard : State → Event → Prop)
    (invariant : State → Prop) (forbidden : Fault → Prop)
    (safe : ∀ state event, invariant state → guard state event →
      Avoids forbidden invariant (machine.step state event))
    (sharp : ∀ state event, invariant state → ¬ guard state event →
      ∃ fault, machine.step state event = .error fault ∧ forbidden fault)
    {state : State} (events : List Event) (start : invariant state) :
    (∃ fault, machine.run state events = .error fault ∧ forbidden fault) ↔ ¬ machine.Meets guard state events := by
  constructor
  · rintro ⟨fault, failed, bad⟩ guarded
    have avoided := machine.run_avoids guard invariant forbidden safe start guarded
    rw [failed] at avoided
    exact avoided bad
  · induction events generalizing state with
    | nil => exact fun unguarded => absurd trivial unguarded
    | cons event events ih =>
        intro unguarded
        rw [run]
        rcases Classical.em (guard state event) with allowed | refused
        · have one := safe state event start allowed
          cases stepped : machine.step state event with
          | ok next =>
              rw [stepped] at one
              refine ih one fun rest => unguarded ⟨allowed, fun other same => ?_⟩
              rw [stepped] at same
              cases same
              exact rest
          | error fault =>
              refine absurd ⟨allowed, fun other same => ?_⟩ unguarded
              rw [stepped] at same
              cases same
        · obtain ⟨fault, failed, bad⟩ := sharp state event start refused
          rw [failed]
          exact ⟨fault, rfl, bad⟩

/-- Every state that the run passes through is good. -/
def Machine.Always (machine : Machine State Event Fault) (good : State → Prop) : State → List Event → Prop
  | state, [] => good state
  | state, event :: events =>
      good state ∧ ∀ next, machine.step state event = .ok next → machine.Always good next events

theorem Machine.Always.here {machine : Machine State Event Fault} {good : State → Prop} {state : State}
    {events : List Event} (always : machine.Always good state events) : good state := by
  cases events with
  | nil => exact always
  | cons event events => exact always.1

/-- What a run always keeps holds of the states that its beginnings lead to. -/
theorem Machine.Always.reached {machine : Machine State Event Fault} {good : State → Prop} {state middle : State}
    {first second : List Event} (always : machine.Always good state (first ++ second))
    (finished : machine.run state first = .ok middle) : good middle := by
  induction first generalizing state with
  | nil =>
      have same : state = middle := by simpa using finished
      exact same ▸ always.here
  | cons event events ih =>
      obtain ⟨next, stepped, rest⟩ := machine.run_cons_ok finished
      exact ih (always.2 next stepped) rest

/-- What guarded steps keep holds all along a guarded run. -/
theorem Machine.Meets.always {machine : Machine State Event Fault} {guard : State → Event → Prop}
    (strong good : State → Prop) (implies : ∀ state, strong state → good state)
    (keeps : ∀ state event next, strong state → guard state event → machine.step state event = .ok next →
      strong next)
    {state : State} {events : List Event} (start : strong state) (guarded : machine.Meets guard state events) :
    machine.Always good state events := by
  induction events generalizing state with
  | nil => exact implies state start
  | cons event events ih =>
      exact ⟨implies state start, fun next stepped =>
        ih (keeps state event next start guarded.1 stepped) (guarded.2 next stepped)⟩

/-- When guarded steps keep the strong states, any other step spoils them, and spoilt states stay so, the end of a run
tells whether it was guarded. -/
theorem Machine.run_tells (machine : Machine State Event Fault) (guard : State → Event → Prop)
    (strong spoilt : State → Prop)
    (keeps : ∀ state event next, strong state → guard state event → machine.step state event = .ok next → strong next)
    (spoils : ∀ state event next, strong state → ¬ guard state event → machine.step state event = .ok next →
      spoilt next)
    (stays : ∀ state event next, spoilt state → machine.step state event = .ok next → spoilt next)
    {state final : State} {events : List Event} (start : strong state) (finished : machine.run state events = .ok final) :
    (machine.Meets guard state events ∧ strong final) ∨ (¬ machine.Meets guard state events ∧ spoilt final) := by
  induction events generalizing state with
  | nil =>
      have same : state = final := by simpa using finished
      exact Or.inl ⟨trivial, same ▸ start⟩
  | cons event events ih =>
      obtain ⟨next, stepped, rest⟩ := machine.run_cons_ok finished
      by_cases allowed : guard state event
      · rcases ih (keeps state event next start allowed stepped) rest with ⟨guarded, kept⟩ | ⟨unguarded, lost⟩
        · exact Or.inl ⟨machine.meets_cons_ok allowed stepped guarded, kept⟩
        · exact Or.inr ⟨fun guarded => unguarded (guarded.2 next stepped), lost⟩
      · have lost := machine.run_preserves spoilt stays (spoils state event next start allowed stepped) rest
        exact Or.inr ⟨fun guarded => allowed guarded.1, lost⟩

/-- When the guard tells the steps to good states, and guarded steps keep the strong states that it tells them from,
the guarded runs are the ones that are always good; `side` is what is known of all events. -/
theorem Machine.always_iff_meets (machine : Machine State Event Fault) (guard side : State → Event → Prop)
    (strong good : State → Prop) (implies : ∀ state, strong state → good state)
    (exact : ∀ state event, strong state → side state event →
      (guard state event ↔ ∀ next, machine.step state event = .ok next → good next))
    (keeps : ∀ state event next, strong state → side state event → guard state event →
      machine.step state event = .ok next → strong next)
    {state : State} (events : List Event) (start : strong state) (known : machine.Meets side state events) :
    machine.Always good state events ↔ machine.Meets guard state events := by
  induction events generalizing state with
  | nil => exact ⟨fun _ => trivial, fun _ => implies state start⟩
  | cons event events ih =>
      have tells := exact state event start known.1
      have continued : guard state event → ∀ next, machine.step state event = .ok next →
          (machine.Always good next events ↔ machine.Meets guard next events) := fun allowed next stepped =>
        ih (keeps state event next start known.1 allowed stepped) (known.2 next stepped)
      constructor
      · rintro ⟨_, always⟩
        have allowed := tells.mpr fun next stepped => (always next stepped).here
        exact ⟨allowed, fun next stepped => (continued allowed next stepped).mp (always next stepped)⟩
      · rintro ⟨allowed, guarded⟩
        exact ⟨implies state start, fun next stepped => (continued allowed next stepped).mpr (guarded next stepped)⟩

/-- When guarded steps keep the strong states and avoid the faults, and any other step ends in one of the faults or in a
state that is not good, the guarded runs are the ones that are always good and avoid the faults. -/
theorem Machine.always_avoids_iff (machine : Machine State Event Fault) (guard : State → Event → Prop)
    (strong good : State → Prop) (forbidden : Fault → Prop) (implies : ∀ state, strong state → good state)
    (safe : ∀ state event, strong state → guard state event → Avoids forbidden strong (machine.step state event))
    (sharp : ∀ state event, strong state → ¬ guard state event →
      (∃ fault, machine.step state event = .error fault ∧ forbidden fault) ∨
        ∃ next, machine.step state event = .ok next ∧ ¬ good next)
    {state : State} (events : List Event) (start : strong state) :
    (machine.Always good state events ∧ ∀ fault, machine.run state events = .error fault → ¬ forbidden fault) ↔
      machine.Meets guard state events := by
  constructor
  · induction events generalizing state with
    | nil => exact fun _ => trivial
    | cons event events ih =>
        rintro ⟨⟨_, always⟩, avoids⟩
        have allowed : guard state event := by
          apply Classical.byContradiction
          intro refused
          rcases sharp state event start refused with ⟨fault, failed, bad⟩ | ⟨next, stepped, bad⟩
          · apply avoids fault ?_ bad
            rw [run, failed]
          · exact bad (always next stepped).here
        refine ⟨allowed, fun next stepped => ?_⟩
        apply ih ((safe state event start allowed).of_ok stepped)
        refine ⟨always next stepped, fun fault failed => avoids fault ?_⟩
        rw [run, stepped]
        exact failed
  · intro guarded
    constructor
    · apply guarded.always strong good implies ?_ start
      intro state event next held allowed stepped
      exact (safe state event held allowed).of_ok stepped
    · intro fault failed
      exact (machine.run_avoids guard strong forbidden safe start guarded).of_error failed

end Webthings.Transition
