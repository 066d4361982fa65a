import Webthings.Evcoap.ServerLife

namespace Webthings.Evcoap
open Webthings.Transition

/-- No timer of a disposed server is armed. -/
def EcBase.Disarmed (b : EcBase) : Prop :=
  ∀ id srv, b.heap id = some srv → srv.freed = true → srv.coap.pending = false ∧ srv.resched.pending = false

/-- The events that leave no timer of a disposed server armed: an event that ends a transaction finds its reschedule
timer disarmed. -/
def Disarms (platform : Platform) (b : EcBase) (event : BaseEvent) : Prop :=
  match event with
  | .datagram input => ∀ h id srv, b.Controls platform input h →
      ecServersLookup b h.mid input.sd input.peer = some id → b.heap id = some srv → srv.resched.pending = false
  | .coapTimeout id env => ∀ srv, b.heap id = some srv → srv.freed = false → srv.coap.pending = true →
      srv.resched.pending = true → srv.coap.retriesLeft ≠ 0 ∧
        ∃ res isCon, {srv with coap := srv.coap.fired, state := .coapRetry}.Responds res isCon env.sent
  | .wakeup id calls env => ∀ srv, b.heap id = some srv → srv.freed = false → srv.resched.pending = true →
      ¬ (srv.state = .ackSent ∧ ∃ res, (applyCalls platform calls (b.work id srv)).srv.Responds res false env.sent)
  | .rescheduled _ _ | .countdown _ | .registry _ | .callbacks _ _ | .request _ _ _ | .client _ _ => True

section Steps

variable {platform : Platform} {b : EcBase}

/-- A step keeps the disposed servers disarmed when no work that it gives out disposes of a server whose reschedule
timer is left armed. -/
theorem baseStep_disarmed_iff (event : BaseEvent) (settled : b.Settled) (disarmed : b.Disarmed) :
    (∀ b', baseStep platform b event = .ok b' → b'.Disarmed) ↔
      ∀ id w, ServerWork platform b event id w → w.srv.freed = true → b.leftArmed event id = false := by
  constructor
  · intro keeps id w work freed
    obtain ⟨b', finished, worked⟩ := work.step
    have stored : b'.heap w.self = some w.srv := by rw [worked.heap, if_pos rfl]
    obtain ⟨_, quiet⟩ := keeps b' finished w.self w.srv stored freed
    rcases (work.done settled).outcome with ⟨_, _, _, left⟩ | ⟨pending, _⟩
    · exact left.symm.trans quiet
    · exact absurd (pending.live.symm.trans freed) (by decide)
  · intro quiet b' finished id srv stored freed
    rcases baseStep_effect finished with same | ⟨here, w, work, worked⟩
    · exact disarmed id srv (same.heap ▸ stored) freed
    · rw [worked.heap] at stored
      split at stored
      · cases stored
        have left := quiet here w work freed
        rcases (work.done settled).outcome with ⟨_, _, idle, armed⟩ | ⟨pending, _⟩
        · exact ⟨idle.2, armed.trans left⟩
        · exact absurd (pending.live.symm.trans freed) (by decide)
      · exact disarmed id srv stored freed

/-- The guard tells the events whose work leaves no timer of a disposed server armed. -/
theorem disarms_iff (event : BaseEvent) (settled : b.Settled) :
    Disarms platform b event ↔
      ∀ id w, ServerWork platform b event id w → w.srv.freed = true → b.leftArmed event id = false := by
  cases event with
  | datagram input =>
      constructor
      · intro quiet id w work freed
        cases work with
        | control _ h _ srv _ rc controls found stored worked =>
            simpa [EcBase.leftArmed, stored] using quiet h id srv controls found stored
        | request _ h _ rc accepts method worked =>
            simp [EcBase.leftArmed, settled.fresh.2]
      · intro quiet h id srv controls found stored
        obtain ⟨w, rc, worked, freed⟩ := ecServerControlled_ended platform h input
          ((b.seen platform input h).work id srv)
        have left := quiet id w (.control input h id srv w rc controls found stored worked) freed
        simpa [EcBase.leftArmed, stored] using left
  | rescheduled id env => exact ⟨fun _ _ _ _ _ => rfl, fun _ => trivial⟩
  | coapTimeout id env =>
      constructor
      · intro quiet id w work freed
        cases work with
        | coapTimeout _ _ srv _ stored armed live worked =>
            obtain ⟨_, waiting, present⟩ := settled.timedOut stored live armed
            obtain ⟨next, finished, ends⟩ := ecSrvCoapTimeout_ended platform env
              (b.work id {srv with coap := srv.coap.fired}) live waiting present
            rw [worked] at finished
            cases finished
            by_contra ringing
            have pending : srv.resched.pending = true := by simpa [EcBase.leftArmed, stored] using ringing
            exact absurd ((ends.mpr (quiet srv stored live armed pending)).symm.trans freed) (by decide)
      · intro quiet srv stored live armed ringing
        obtain ⟨_, waiting, present⟩ := settled.timedOut stored live armed
        obtain ⟨w, worked, ends⟩ := ecSrvCoapTimeout_ended platform env
          (b.work id {srv with coap := srv.coap.fired}) live waiting present
        refine ends.mp (Bool.eq_false_iff.mpr fun freed => ?_)
        have left := quiet id w (.coapTimeout id env srv w stored armed live worked) freed
        simp [EcBase.leftArmed, stored, ringing] at left
  | wakeup id calls env =>
      have state : ∀ srv, b.heap id = some srv → srv.freed = false → srv.state = .ackSent ∨ srv.state = .waitAck := by
        intro srv stored live
        rcases (settled.pending id srv stored live).2.state with ⟨acked, _⟩ | ⟨waiting, _⟩
        · exact Or.inl acked
        · exact Or.inr waiting
      constructor
      · intro quiet id w work freed
        cases work with
        | wakeup _ _ _ srv _ rc stored live worked =>
            obtain ⟨woken, other, finished, ends⟩ := ecServerWakeup_ended platform env calls (b.work id srv) live
              (state srv stored live)
            rw [worked] at finished
            cases finished
            by_contra ringing
            have pending : srv.resched.pending = true := by simpa [EcBase.leftArmed, stored] using ringing
            exact quiet srv stored live pending (ends.mp freed)
      · intro quiet srv stored live ringing ended
        obtain ⟨w, rc, worked, ends⟩ := ecServerWakeup_ended platform env calls (b.work id srv) live
          (state srv stored live)
        have left := quiet id w (.wakeup id calls env srv w rc stored live worked) (ends.mpr ended)
        simp [EcBase.leftArmed, stored, ringing] at left
  | countdown | registry | callbacks | request | client =>
      constructor
      · intro _ id w work
        cases work
      · exact fun _ => trivial

end Steps

/-- The runs that never leave a timer of a disposed server armed are the ones whose every event finds the reschedule
timer of the server that it disposes of disarmed. -/
theorem baseRun_disarmed_iff (platform : Platform) (events : List BaseEvent) :
    (baseMachine platform).Always EcBase.Disarmed ecInit events ↔
      (baseMachine platform).Meets (Disarms platform) ecInit events := by
  apply (baseMachine platform).always_iff_meets (Disarms platform) (fun _ _ => True)
    (fun b => b.Settled ∧ b.Disarmed) EcBase.Disarmed
  · exact fun b strong => strong.2
  · intro b event strong _
    exact (disarms_iff event strong.1).trans (baseStep_disarmed_iff event strong.1 strong.2).symm
  · intro b event b' strong _ allowed finished
    have quiet := (disarms_iff event strong.1).mp allowed
    exact ⟨baseStep_keeps_settled strong.1 finished,
      (baseStep_disarmed_iff event strong.1 strong.2).mpr quiet b' finished⟩
  · exact ⟨ecInit_settled, fun id srv stored => absurd stored (by simp [ecInit])⟩
  · exact (baseMachine platform).meets_true ecInit events

/-- A client resets its request, with MID zero, while the callback waits to be run again. -/
def waitingReset : List BaseEvent :=
  [.callbacks [] true, .datagram waitingGet, .datagram (loopbackInput [0x70, 0, 0, 0] waits 0)]

/-- The reset disposes of the server while its reschedule timer is armed. -/
theorem waitingReset_armed : ¬ ∀ platform events, (baseMachine platform).Always EcBase.Disarmed ecInit events := by
  intro always
  have run : ∃ b srv, (baseMachine serverPlatform).run ecInit waitingReset = .ok b ∧ b.heap 0 = some srv ∧
      srv.freed = true ∧ srv.resched.pending = true := ⟨_, _, rfl, rfl, rfl, rfl⟩
  obtain ⟨b, srv, finished, stored, freed, armed⟩ := run
  have start : (baseMachine serverPlatform).Always EcBase.Disarmed ecInit (waitingReset ++ []) := always _ _
  exact absurd ((start.reached finished 0 srv stored freed).2.symm.trans armed) (by decide)

end Webthings.Evcoap
