import Webthings.Evcoap.ClientFrame
import Webthings.Evcoap.ClientLife

namespace Webthings.Evcoap
open Webthings.Transition

/-- A property of a client that its transitions to some states keep, and that does not depend on what the events set
beside the transitions. -/
structure KeptThrough (platform : Platform) (reach : EcCliState → Prop) (kept : EcClient → Prop) : Prop
    extends KeptBySends platform reach kept where
  sets : ∀ cli observe resSet dnsReq registered, kept cli →
    kept {cli with observe := observe, resSet := resSet, dnsReq := dnsReq, registered := registered}
  tout : ∀ cli tout, kept cli → kept {cli with app := {cli.app with tout := tout}}
  appFired : ∀ cli, kept cli → kept {cli with app := cli.app.fired}
  coapFired : ∀ cli, kept cli → kept {cli with coap := cli.coap.fired}
  obsFired : ∀ cli, kept cli → kept {cli with obs := cli.obs.fired}

/-- A response that is taken in and makes the client wait for notifications. -/
structure EcClient.Watches (order : ByteOrder) (cli : EcClient) (h : EcHdr) (input : Incoming) (judgement : EcCliObs) :
    Prop where
  response : h.code ≠ 0
  taken : cli.TakesIn h input
  judged : cli.judged order h input = some judgement
  observing : judgement.on = true

/-- The event is a response that makes the client wait for notifications. -/
def ClientLife.Watches (platform : Platform) (life : ClientLife) (event : LifeEvent) : Prop :=
  match event with
  | .event (.datagram input) =>
      ∃ h judgement, life.work.Hears platform input h ∧ life.work.cli.Watches platform.order h input judgement
  | _ => False

section Through

variable {platform : Platform} {reach : EcCliState → Prop} {kept : EcClient → Prop} {w : CliWork}

theorem KeptThrough.dnsCb (frame : KeptThrough platform reach kept) (others : ∀ next, next ≠ .waitNfy → reach next)
    {env : DnsEnv} {next : CliWork} (start : kept w.cli) (done : ecClientDnsCb platform env w = .ok next) :
    kept next.cli := by
  have answered := frame.sets w.cli w.cli.observe w.cli.resSet false w.cli.registered start
  apply frame.resolved ?_ ?_ done
  · intro next moved resolves made
    have reached : reach next := by
      rcases resolves with failed | resolved
      · exact others next (by simp [failed])
      · exact others next (by simp [resolved])
    exact frame.moves _ _ _ _ reached made answered
  · intro cli held
    exact frame.sets cli cli.observe cli.resSet cli.dnsReq true held

/-- A response is added to the client before it moves it. -/
theorem KeptThrough.added (frame : KeptThrough platform reach kept) {cli : EcClient} (start : kept cli) (h : EcHdr)
    (input : Incoming) (observe : EcCliObs) : kept {cli.added h input with observe := observe} := by
  have coded := frame.flow cli {cli.flow with respCode := h.code.toNat} rfl start
  have answered := frame.sets _ observe (cli.resSet ++ [input.pdu h]) cli.dnsReq cli.registered coded
  exact answered

theorem KeptThrough.handled (frame : KeptThrough platform reach kept) (others : ∀ next, next ≠ .waitNfy → reach next)
    {h : EcHdr} {input : Incoming} {handled : CliWork × EcNetCbrc} (start : kept w.cli)
    (watches : ∀ judgement, w.cli.Watches platform.order h input judgement → reach .waitNfy)
    (done : ecClientHandleNew platform w h input = .ok handled) : kept handled.1.cli := by
  by_cases code : h.code = 0
  · rcases ecClientHandleNew_empty code done with ⟨next, moved, ends, made, same⟩ | ⟨_, _, same⟩
    · subst same
      have reached : reach next := by
        rcases ends with ⟨_, acknowledged⟩ | ⟨_, reset⟩
        · exact others next (by simp [acknowledged])
        · exact others next (by simp [reset])
      exact frame.moves _ _ _ _ reached made start
    · subst same
      exact start
  · by_cases taken : w.cli.TakesIn h input
    · cases judged : w.cli.judged platform.order h input with
      | none =>
          rw [ecClientHandleNew_stale platform code taken judged] at done
          cases done
          exact frame.added start h input w.cli.observe
      | some observe =>
          have reached : reach observe.asks := by
            rcases observe.asks_cases with waiting | done
            · rw [waiting]
              exact watches observe ⟨code, taken, judged, observe.asks_waitNfy.mp waiting⟩
            · rw [done]
              exact others .reqDone (by decide)
          unfold ecClientHandleNew at done
          rw [if_neg code, ecClientTakeResponse_taken platform taken, judged] at done
          dsimp only at done
          obtain ⟨moved, same, held⟩ := frame.mapped reached (by exact frame.added start h input observe) done
          subst same
          split
          · exact held
          · split
            · exact frame.sets moved.1.cli moved.1.cli.observe [] moved.1.cli.dnsReq moved.1.cli.registered held
            · exact held
    · rw [ecClientHandleNew_refused platform code taken] at done
      cases done
      exact start

theorem KeptThrough.clientStep (frame : KeptThrough platform reach kept) (others : ∀ next, next ≠ .waitNfy → reach next)
    {event : ClientEvent} {next : CliWork} (start : kept w.cli)
    (watches : ClientLife.Watches platform (.new w) (.event event) → reach .waitNfy)
    (stepped : clientStep platform w event = .ok next) : kept next.cli := by
  cases clientStep_work stepped with
  | idle event => exact start
  | heard input h handled hears worked =>
      apply frame.handled others ?_ ?_ worked
      · exact start
      · exact fun judgement watching => watches ⟨h, judgement, hears, watching⟩
  | resolved env next worked => exact frame.dnsCb others start worked
  | appTimeout sent next worked =>
      obtain ⟨moved, same, held⟩ := frame.mapped (others .appTimeout (by decide)) (by exact frame.appFired w.cli start) worked
      subst same
      exact held
  | coapTimeout sent next worked =>
      apply frame.retransmitted (others .coapTimeout (by decide)) (others .coapRetry (by decide))
        (others .sendFailed (by decide)) ?_ worked
      exact frame.coapFired w.cli start
  | obsTimeout sent next worked =>
      have off := frame.sets _ {w.cli.observe with on := false} w.cli.resSet w.cli.dnsReq w.cli.registered
        (frame.obsFired w.cli start)
      obtain ⟨moved, same, held⟩ := frame.mapped (others .obsTimeout (by decide)) (by exact off) worked
      subst same
      exact held
  | cancel =>
      exact frame.sets w.cli {w.cli.observe with cancel := true} w.cli.resSet w.cli.dnsReq w.cli.registered start
  | shared dups => exact start

/-- A step keeps what the transitions to some states keep, when it makes the client wait for notifications only if this
state is one of them. -/
theorem KeptThrough.lifeStep (frame : KeptThrough platform reach kept) (others : ∀ next, next ≠ .waitNfy → reach next)
    {life next : ClientLife} {event : LifeEvent} (start : kept life.work.cli)
    (watches : life.Watches platform event → reach .waitNfy) (stepped : lifeStep platform life event = .ok next) :
    kept next.work.cli := by
  cases lifeStep_work stepped with
  | disposed event freed => exact start
  | asked tout destination live goes =>
      have timed := frame.tout life.work.cli (tout.getD ⟨ecTimersAppTout, 0⟩) start
      exact frame.sets _ life.work.cli.observe life.work.cli.resSet true life.work.cli.registered timed
  | refused tout destination gone live stays ended =>
      obtain ⟨moved, same, held⟩ := frame.mapped frame.fails start ended
      subst same
      exact held
  | unasked env live answered => exact start
  | resolved env work live outstanding called => exact frame.dnsCb others start called
  | other event work live other worked =>
      apply frame.clientStep others start ?_ worked
      exact watches

end Through

/-- A property of a client that every event of its life keeps: it does not depend on what the events set beside the
transitions. -/
structure KeptForLife (platform : Platform) (kept : EcClient → Prop) : Prop
    extends KeptBySends platform (fun _ => True) kept where
  sets : ∀ cli observe resSet dnsReq registered, kept cli →
    kept {cli with observe := observe, resSet := resSet, dnsReq := dnsReq, registered := registered}
  tout : ∀ cli tout, kept cli → kept {cli with app := {cli.app with tout := tout}}
  appFired : ∀ cli, kept cli → kept {cli with app := cli.app.fired}
  coapFired : ∀ cli, kept cli → kept {cli with coap := cli.coap.fired}
  obsFired : ∀ cli, kept cli → kept {cli with obs := cli.obs.fired}

section Life

variable {platform : Platform} {kept : EcClient → Prop}

/-- What every event keeps is what the transitions to all states keep. -/
theorem KeptForLife.through (frame : KeptForLife platform kept) : KeptThrough platform (fun _ => True) kept :=
  ⟨frame.toKeptBySends, frame.sets, frame.tout, frame.appFired, frame.coapFired, frame.obsFired⟩

theorem KeptForLife.lifeStep (frame : KeptForLife platform kept) {life next : ClientLife} {event : LifeEvent}
    (start : kept life.work.cli) (stepped : lifeStep platform life event = .ok next) : kept next.work.cli :=
  frame.through.lifeStep (fun _ _ => trivial) start (fun _ => trivial) stepped

/-- What the events of a life keep holds after any of them. -/
theorem KeptForLife.lifeRun (frame : KeptForLife platform kept) {life final : ClientLife} {history : List LifeEvent}
    (start : kept life.work.cli) (lived : (lifeMachine platform).run life history = .ok final) : kept final.work.cli :=
  (lifeMachine platform).run_preserves (fun life => kept life.work.cli)
    (fun _ _ _ held stepped => frame.lifeStep held stepped) start lived

end Life

end Webthings.Evcoap
