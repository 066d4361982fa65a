import Webthings.Evcoap.Notifications

namespace Webthings.Network
open Webthings.Evcoap
open Webthings.Transition

/-- The client waits for notifications. -/
def Observes (w : CliWork) : Prop := w.cli.state = .waitNfy ∧ w.cli.observe.cancel = false

instance (w : CliWork) : Decidable (Observes w) := inferInstanceAs (Decidable (_ ∧ _))

/-- No observation has been established yet. -/
structure Unestablished (cli : EcClient) : Prop where
  elsewhere : cli.state ≠ .waitNfy
  off : cli.observe.on = false
  first : cli.observe.lastTs = 0
  empty : cli.resSet = []

/-- The observation has just been established, no notification has come in yet. -/
structure Established (cli : EcClient) : Prop where
  watching : cli.state = .waitNfy
  on : cli.observe.on = true
  first : cli.observe.lastTs = 0
  empty : cli.resSet = []

/-- The observation is not wanted any more, or its transaction has ended. -/
def Over (cli : EcClient) : Prop := cli.observe.cancel = true ∨ ecClientStateIsFinal cli.state = true

theorem Over.unobserved {w : CliWork} (gone : Over w.cli) : ¬ Observes w := by
  rintro ⟨watching, wanted⟩
  rcases gone with cancelled | final
  · cases wanted.symm.trans cancelled
  · rw [watching] at final
    cases final

/-- What the events without a response make of the observation of a client. -/
structure Fades (cli cli' : EcClient) : Prop where
  watching : cli'.state = .waitNfy → cli.state = .waitNfy
  on : cli'.observe.on = true → cli.observe.on = true
  lastTs : cli'.observe.lastTs = cli.observe.lastTs
  cancel : cli.observe.cancel = true → cli'.observe.cancel = true
  empty : cli.resSet = [] → cli'.resSet = []

theorem Fades.refl (cli : EcClient) : Fades cli cli := ⟨id, id, rfl, id, id⟩

section Frames

variable {platform : Platform} {w : CliWork} {next : EcCliState} {sent : Bool} {moved : CliWork × Bool}

/-- A transition leaves the observation state alone. -/
theorem ecClientSetState_observe (made : ecClientSetState platform sent w next = .ok moved) :
    moved.1.cli.observe = w.cli.observe := by
  obtain ⟨entered, log, entering, ⟨_, ended⟩ | ⟨_, _, goes⟩⟩ := ecClientSetState_made made
  · obtain ⟨_, _, _, _, framed⟩ := ecClientEnter_frame entering
    rw [ended, (ecClientFinish_kept _ _).2.1, framed]
    rfl
  · obtain ⟨_, _, _, _, framed⟩ := ecClientEnter_frame entering
    rw [goes, framed]
    rfl

theorem ecClientSetState_fades {cli : EcClient} (elsewhere : next ≠ .waitNfy)
    (made : ecClientSetState platform sent w next = .ok moved) (fades : Fades cli w.cli) : Fades cli moved.1.cli := by
  have observe := ecClientSetState_observe made
  refine ⟨fun watching => ?_, by rw [observe]; exact fades.on, by rw [observe]; exact fades.lastTs,
    by rw [observe]; exact fades.cancel, fun empty => ecClientSetState_resSet made (fades.empty empty)⟩
  rw [ecClientSetState_state made] at watching
  exact absurd watching elsewhere

theorem fades_kept (platform : Platform) (cli : EcClient) : KeptBySends platform (· ≠ .waitNfy) (Fades cli) where
  sends := by decide
  fails := by decide
  moves := fun _ _ _ _ elsewhere made fades => ecClientSetState_fades elsewhere made fades
  flow := fun _ _ _ fades => ⟨fades.watching, fades.on, fades.lastTs, fades.cancel, fades.empty⟩
  req := fun _ _ _ fades => ⟨fades.watching, fades.on, fades.lastTs, fades.cancel, fades.empty⟩
  log := fun _ _ _ fades => ⟨fades.watching, fades.on, fades.lastTs, fades.cancel, fades.empty⟩

end Frames

section Steps

variable {platform : Platform} {w w' : CliWork} {event : ClientEvent}

/-- What a client makes of a response that it takes in: it is left behind out of date, or moves the client. -/
structure Takes (platform : Platform) (w : CliWork) (input : Incoming) (h : EcHdr) (cli : EcClient) : Prop where
  hears : w.Hears platform input h
  code : h.code ≠ 0
  taken : w.cli.TakesIn h input
  judged : w.cli.judged platform.order h input = none ∧ cli = w.cli.added h input ∨
    ∃ observe, w.cli.judged platform.order h input = some observe ∧ w.cli.CanFollow observe.asks ∧
      w.cli.Answered platform.order h input observe cli

/-- A response that is heard is refused, or is taken in. -/
theorem clientStep_response {input : Incoming} {h : EcHdr} (hears : w.Hears platform input h) (code : h.code ≠ 0)
    (stepped : clientStep platform w (.datagram input) = .ok w') :
    ¬ w.cli.TakesIn h input ∧ w'.cli = w.cli ∨ Takes platform w input h w'.cli := by
  rw [clientStep_hears hears] at stepped
  obtain ⟨handled, handling, same⟩ := map_ok stepped
  subst same
  rcases ecClientHandleNew_response code handling with ⟨refused, left⟩ | ⟨taken, stale, left⟩ |
    ⟨observe, taken, judged, follows, _, became⟩
  · subst left
    exact Or.inl ⟨refused, rfl⟩
  · subst left
    exact Or.inr ⟨hears, code, taken, Or.inl ⟨stale, rfl⟩⟩
  · exact Or.inr ⟨hears, code, taken, Or.inr ⟨observe, judged, follows, became⟩⟩

/-- What an event makes of the observation: a response may be taken in, and any other event establishes nothing. -/
theorem clientStep_watches (stepped : clientStep platform w event = .ok w') : Fades w.cli w'.cli ∨
    ∃ input h, event = .datagram input ∧ Takes platform w input h w'.cli := by
  have whole := Fades.refl w.cli
  have frame := fades_kept platform w.cli
  have step := stepped
  cases clientStep_work stepped with
  | idle event => exact Or.inl whole
  | resolved env next worked =>
      left
      apply frame.resolved ?_ ?_ worked
      · intro next moved resolves made
        have elsewhere : next ≠ .waitNfy := by
          rcases resolves with failed | resolved
          · simp [failed]
          · simp [resolved]
        have fades : Fades w.cli _ := ecClientSetState_fades elsewhere made ⟨id, id, rfl, id, id⟩
        exact fades
      · exact fun cli fades => ⟨fades.watching, fades.on, fades.lastTs, fades.cancel, fades.empty⟩
  | heard input h handled hears worked =>
      by_cases code : h.code = 0
      · left
        rcases ecClientHandleNew_empty code worked with ⟨next, _, asked, made, moves⟩ | ⟨_, _, other⟩
        · subst moves
          have elsewhere : next ≠ .waitNfy := by
            rcases asked with ⟨_, ack⟩ | ⟨_, rst⟩
            · simp [ack]
            · simp [rst]
          have fades : Fades w.cli _ := ecClientSetState_fades elsewhere made whole
          exact fades
        · subst other
          exact whole
      · rcases clientStep_response hears code step with ⟨_, same⟩ | takes
        · left
          rw [same]
          exact whole
        · exact Or.inr ⟨input, h, rfl, takes⟩
  | appTimeout sent next worked =>
      obtain ⟨moved, made, same⟩ := map_ok worked
      subst same
      have fades : Fades w.cli _ := ecClientSetState_fades (by decide) made ⟨id, id, rfl, id, id⟩
      exact Or.inl fades
  | coapTimeout sent next worked =>
      left
      apply frame.retransmitted (by decide) (by decide) (by decide) ?_ worked
      exact ⟨id, id, rfl, id, id⟩
  | obsTimeout sent next worked =>
      obtain ⟨moved, made, same⟩ := map_ok worked
      subst same
      have fades : Fades w.cli _ := ecClientSetState_fades (by decide) made
        ⟨id, fun on => (by cases on), rfl, id, id⟩
      exact Or.inl fades
  | cancel => exact Or.inl ⟨id, id, rfl, fun _ => rfl, id⟩
  | shared dups => exact Or.inl whole

/-- The first response with an Observe option establishes the observation. -/
theorem clientStep_unestablished (fresh : Unestablished w.cli) (stepped : clientStep platform w event = .ok w') :
    Unestablished w'.cli ∨ Established w'.cli := by
  rcases clientStep_watches stepped with fades | ⟨input, h, _, takes⟩
  · left
    refine ⟨fun watching => fresh.elsewhere (fades.watching watching), ?_, fades.lastTs.trans fresh.first,
      fades.empty fresh.empty⟩
    apply Bool.eq_false_iff.mpr
    intro on
    cases fresh.off.symm.trans (fades.on on)
  · rcases takes.judged with ⟨stale, _⟩ | ⟨observe, judged, _, became⟩
    · unfold EcClient.judged EcCliObs.judge at stale
      rw [if_neg (by simp [fresh.off])] at stale
      cases stale
    · unfold EcClient.judged EcCliObs.judge at judged
      rw [if_neg (by simp [fresh.off])] at judged
      have first : observe.lastTs = 0 := by
        rw [← Option.some.inj judged]
        exact fresh.first
      cases on : observe.on with
      | false =>
          refine Or.inl ⟨fun watching => ?_, by rw [became.observe, on], by rw [became.observe, first], became.resSet⟩
          cases on.symm.trans (observe.asks_waitNfy.mp (became.state.symm.trans watching))
      | true =>
          exact Or.inr ⟨became.state.trans (observe.asks_waitNfy.mpr on), by rw [became.observe, on],
            by rw [became.observe, first], became.resSet⟩

theorem clientStep_cancelled (cancelled : w.cli.observe.cancel = true)
    (stepped : clientStep platform w event = .ok w') : w'.cli.observe.cancel = true := by
  rcases clientStep_watches stepped with fades | ⟨input, h, _, takes⟩
  · exact fades.cancel cancelled
  · rcases takes.judged with ⟨_, left⟩ | ⟨observe, judged, _, became⟩
    · rw [left]
      exact cancelled
    · rw [became.observe, EcCliObs.judge_cancel judged]
      exact cancelled

/-- A client that neither resolves nor retransmits stays in its state or makes one transition of the table. -/
theorem clientStep_state (answered : w.cli.dnsReq = false) (elsewhere : w.cli.state ≠ .reqSent)
    (stepped : clientStep platform w event = .ok w') : w'.cli.state = w.cli.state ∨
      ecClientCheckTransition w.cli.state w'.cli.state = true ∧ w'.cli.state ≠ .dnsOk := by
  have moves : ∀ {v : CliWork} {sent : Bool} {next : EcCliState} {moved : CliWork × Bool},
      v.cli.state = w.cli.state → next ≠ .dnsOk → ecClientSetState platform sent v next = .ok moved →
      ecClientCheckTransition w.cli.state moved.1.cli.state = true ∧ moved.1.cli.state ≠ .dnsOk := by
    intro v sent next moved same other made
    have permitted := ecClientSetState_permitted made
    rw [same] at permitted
    rw [ecClientSetState_state made]
    exact ⟨permitted, other⟩
  have whole := stepped
  cases clientStep_work stepped with
  | idle event => exact Or.inl rfl
  | resolved env next worked =>
      unfold clientStep at whole
      dsimp only at whole
      split at whole
      · cases whole
        exact Or.inl rfl
      · rw [if_neg (by simp [answered])] at whole
        cases whole
        exact Or.inl rfl
  | heard input h handled hears worked =>
      by_cases code : h.code = 0
      · rcases ecClientHandleNew_empty code worked with ⟨next, _, asked, made, same⟩ | ⟨_, _, other⟩
        · subst same
          right
          apply moves (v := w.seen platform input h) rfl ?_ made
          rcases asked with ⟨_, ack⟩ | ⟨_, rst⟩
          · simp [ack]
          · simp [rst]
        · subst other
          exact Or.inl rfl
      · rcases ecClientHandleNew_response code worked with ⟨_, refused⟩ | ⟨_, _, left⟩ |
          ⟨observe, _, _, follows, _, became⟩
        · subst refused
          exact Or.inl rfl
        · subst left
          exact Or.inl rfl
        · right
          rw [became.state]
          refine ⟨follows.permitted, ?_⟩
          rcases observe.asks_cases with watching | done
          · simp [watching]
          · simp [done]
  | appTimeout sent next worked =>
      obtain ⟨moved, made, same⟩ := map_ok worked
      subst same
      right
      exact moves (v := {w with cli := {w.cli with app := w.cli.app.fired}}) rfl (by decide) made
  | coapTimeout sent next worked =>
      have unsent : ∀ next, next = .coapTimeout ∨ next = .coapRetry →
          ecClientCheckTransition w.cli.state next = false := by
        rintro next (rfl | rfl)
        · simp [ecClientCheckTransition, elsewhere]
        · simp [ecClientCheckTransition, elsewhere]
      unfold ecCliCoapTimeout at worked
      split at worked
      · obtain ⟨moved, made, _⟩ := map_ok worked
        have permitted := ecClientSetState_permitted made
        cases (unsent _ (Or.inl rfl)).symm.trans permitted
      · split at worked
        · cases worked
        · rename_i made
          have permitted := ecClientSetState_permitted made
          cases (unsent _ (Or.inr rfl)).symm.trans permitted
  | obsTimeout sent next worked =>
      obtain ⟨moved, made, same⟩ := map_ok worked
      subst same
      right
      exact moves (v := {w with cli := {w.cli with
        obs := w.cli.obs.fired, observe := {w.cli.observe with on := false}}}) rfl (by decide) made
  | cancel => exact Or.inl rfl
  | shared dups => exact Or.inl rfl

/-- The transitions to other states than the first lead out of a final state, or out of the wait for notifications, into
a final state or back. -/
theorem check_settles {cur next : EcCliState} (settled : ecClientStateIsFinal cur = true ∨ cur = .waitNfy)
    (permitted : ecClientCheckTransition cur next = true) (other : next ≠ .dnsOk) :
    ecClientStateIsFinal next = true ∨ next = .waitNfy ∧ cur = .waitNfy := by
  cases cur <;> cases next <;> simp_all [ecClientCheckTransition, ecClientStateIsFinal]

/-- A client whose observation is going on or over lets it go on, or it is over. -/
theorem clientStep_settles (quiet : ClientQuiet w.cli)
    (settled : ecClientStateIsFinal w.cli.state = true ∨ w.cli.state = .waitNfy)
    (stepped : clientStep platform w event = .ok w') :
    ecClientStateIsFinal w'.cli.state = true ∨ w'.cli.state = .waitNfy ∧ w.cli.state = .waitNfy := by
  have answered : w.cli.dnsReq = false := by
    apply Bool.eq_false_iff.mpr
    intro asked
    rw [quiet.resolving asked] at settled
    rcases settled with final | watching
    · cases final
    · cases watching
  have elsewhere : w.cli.state ≠ .reqSent := by
    intro sent
    rw [sent] at settled
    rcases settled with final | watching
    · cases final
    · cases watching
  rcases clientStep_state answered elsewhere stepped with same | ⟨permitted, other⟩
  · rw [same]
    exact settled.imp id fun watching => ⟨watching, watching⟩
  · exact check_settles settled permitted other

/-- A client that has just been started has not established an observation. -/
theorem ecClientGo_unestablished {tout : Option TimeVal} {destination : Bool} {rc : Int} {start : CliWork}
    (fresh : Unestablished w.cli) (started : ecClientGo platform w tout destination = .ok (start, rc)) :
    Unestablished start.cli := by
  unfold ecClientGo at started
  split at started
  · cases started
    exact ⟨fresh.elsewhere, fresh.off, fresh.first, fresh.empty⟩
  · obtain ⟨moved, made, same⟩ := map_ok started
    cases same
    have fades := ecClientSetState_fades (by decide) made (Fades.refl w.cli)
    refine ⟨fun watching => fresh.elsewhere (fades.watching watching), ?_, fades.lastTs.trans fresh.first,
      fades.empty fresh.empty⟩
    rw [ecClientSetState_observe made]
    exact fresh.off

/-- A client that an event leaves running is quiet when it was before. -/
theorem clientStep_keepsQuiet (quiet : ClientQuiet w.cli) (stepped : clientStep platform w event = .ok w') :
    ClientQuiet w'.cli := by
  by_cases allowed : ClientAllowed platform w event
  · exact (clientStep_quiet platform w event quiet allowed).of_ok stepped
  · obtain ⟨fault, failed, _⟩ := clientStep_rejected platform w event allowed
    cases stepped.symm.trans failed

/-- An observation that is over does not start again. -/
theorem clientStep_over (quiet : ClientQuiet w.cli) (gone : Over w.cli)
    (stepped : clientStep platform w event = .ok w') : Over w'.cli := by
  rcases gone with cancelled | final
  · exact Or.inl (clientStep_cancelled cancelled stepped)
  · rcases clientStep_settles quiet (Or.inl final) stepped with still | ⟨_, watching⟩
    · exact Or.inr still
    · rw [watching] at final
      cases final

/-- An observing client goes on to observe, or its observation is over. -/
theorem clientStep_leaves (quiet : ClientQuiet w.cli) (observes : Observes w)
    (stepped : clientStep platform w event = .ok w') : Observes w' ∨ Over w'.cli := by
  rcases clientStep_settles quiet (Or.inr observes.1) stepped with final | ⟨watching, _⟩
  · exact Or.inr (Or.inr final)
  · cases cancelled : w'.cli.observe.cancel with
    | false => exact Or.inl ⟨watching, cancelled⟩
    | true => exact Or.inr (Or.inl cancelled)

end Steps

end Webthings.Network
