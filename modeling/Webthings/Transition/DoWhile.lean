namespace Webthings.Transition

variable {State Fault : Type}

/-- A loop that tests its condition after each round; the rounds are numbered, and the fuel bounds how many are made. -/
def doWhile (body : Nat → State → Except Fault State) (again : State → Bool) :
    Nat → Nat → State → Except Fault (Option State)
  | 0, _, _ => .ok none
  | fuel + 1, n, state =>
      match body n state with
      | .error fault => .error fault
      | .ok next => if again next then doWhile body again fuel (n + 1) next else .ok (some next)

section Loop

variable {body : Nat → State → Except Fault State} {again : State → Bool}

theorem doWhile_again {n : Nat} {state next : State} (fuel : Nat) (ran : body n state = .ok next)
    (more : again next = true) :
    doWhile body again (fuel + 1) n state = doWhile body again fuel (n + 1) next := by
  rw [doWhile, ran]
  exact if_pos more

theorem doWhile_last {n : Nat} {state next : State} (fuel : Nat) (ran : body n state = .ok next)
    (done : again next = false) : doWhile body again (fuel + 1) n state = .ok (some next) := by
  rw [doWhile, ran]
  exact if_neg (by simp [done])

/-- The fuel does not change where a loop ends. -/
theorem doWhile_unique {fuel fuel' n : Nat} {state first second : State}
    (one : doWhile body again fuel n state = .ok (some first))
    (other : doWhile body again fuel' n state = .ok (some second)) : first = second := by
  induction fuel generalizing fuel' n state with
  | zero => cases one
  | succ fuel ih =>
      cases fuel' with
      | zero => cases other
      | succ fuel' =>
          cases ran : body n state with
          | error fault =>
              rw [doWhile, ran] at one
              cases one
          | ok next =>
              cases more : again next with
              | false =>
                  rw [doWhile_last fuel ran more] at one
                  rw [doWhile_last fuel' ran more] at other
                  cases one
                  cases other
                  rfl
              | true =>
                  rw [doWhile_again fuel ran more] at one
                  rw [doWhile_again fuel' ran more] at other
                  exact ih one other

/-- Rounds that keep an invariant and go on up to the last one make up a loop that ends as its last round does. -/
theorem doWhile_ends (invariant : Nat → State → Prop) (post : State → Prop) (last : Nat)
    (goes : ∀ n state, n < last → invariant n state →
      ∃ next, body n state = .ok next ∧ again next = true ∧ invariant (n + 1) next)
    (ends : ∀ state, invariant last state → ∃ next, body last state = .ok next ∧ again next = false ∧ post next)
    {n : Nat} {state : State} (before : n ≤ last) (held : invariant n state) :
    ∃ fuel final, doWhile body again fuel n state = .ok (some final) ∧ post final := by
  obtain ⟨left, rfl⟩ := Nat.exists_eq_add_of_le before
  induction left generalizing n state with
  | zero =>
      obtain ⟨next, ran, done, holds⟩ := ends state held
      exact ⟨1, next, doWhile_last 0 ran done, holds⟩
  | succ left ih =>
      obtain ⟨next, ran, more, kept⟩ := goes n state (by omega) held
      have same : n + 1 + left = n + (left + 1) := by omega
      rw [← same] at goes ends
      obtain ⟨fuel, final, ended, holds⟩ := ih kept goes ends (Nat.le_add_right _ _)
      exact ⟨fuel + 1, final, (doWhile_again fuel ran more).trans ended, holds⟩

end Loop

end Webthings.Transition
