import Webthings.Evcoap.ClientTimers
import Webthings.Evcoap.LifeFrame

namespace Webthings.Evcoap
open Webthings.Transition

section Sound

variable {platform : Platform} {w : CliWork}

/-- A transition that is made keeps the timers in order. -/
theorem ecClientSetState_keepsSound {sent : Bool} {next : EcCliState} {moved : CliWork × Bool}
    (sound : ClientSound w.cli.core) (made : ecClientSetState platform sent w next = .ok moved) :
    ClientSound moved.1.cli.core :=
  ((ecClientSetState_sound platform sent w next sound (ecClientSetState_permitted made)).of_ok made).1

/-- A timer that fires stays in order. -/
theorem ClientSound.fired {cli : EcClient} (sound : ClientSound cli.core) :
    ClientSound {cli with app := cli.app.fired}.core ∧ ClientSound {cli with coap := cli.coap.fired}.core ∧
      ClientSound {cli with obs := cli.obs.fired}.core :=
  ⟨⟨⟨EcTimer.fired_sound _, sound.coapExists, sound.obsExists, sound.confirmable⟩, sound.app, sound.coap, sound.obs⟩,
    ⟨⟨sound.appExists, EcTimer.fired_sound _, sound.obsExists, sound.confirmable⟩, sound.app, sound.coap, sound.obs⟩,
    ⟨⟨sound.appExists, sound.coapExists, EcTimer.fired_sound _, sound.confirmable⟩, sound.app, sound.coap, sound.obs⟩⟩

/-- Every event of a client's life keeps its timers in order. -/
theorem sound_kept (platform : Platform) : KeptForLife platform fun cli => ClientSound cli.core where
  sends := trivial
  fails := trivial
  moves := fun _ _ _ _ _ made sound => ecClientSetState_keepsSound sound made
  flow := by
    intro cli flow same sound
    have core : {cli with flow := flow}.core = cli.core := by simp [EcClient.core, same]
    rw [core]
    exact sound
  req := fun _ _ _ sound => sound
  log := fun _ _ _ sound => sound
  sets := fun _ _ _ _ _ sound => sound
  tout := fun _ _ sound =>
    ⟨⟨sound.appExists, sound.coapExists, sound.obsExists, sound.confirmable⟩, sound.app, sound.coap, sound.obs⟩
  appFired := fun _ sound => sound.fired.1
  coapFired := fun _ sound => sound.fired.2.1
  obsFired := fun _ sound => sound.fired.2.2

theorem EcClient.Fresh.sound {cli : EcClient} (fresh : cli.Fresh) : ClientSound cli.core := by
  obtain ⟨_, app, coap, obs, _⟩ := fresh
  apply ClientSound.of_idle
  · change cli.app.Idle
    rw [app]
    exact ⟨rfl, rfl⟩
  · change cli.coap.Idle
    rw [coap]
    exact ⟨rfl, rfl⟩
  · change cli.obs.Idle
    rw [obs]
    exact ⟨rfl, rfl⟩

/-- In every state of a client's life its timers are in order. -/
theorem lifeRun_sound {cli : EcClient} {dups : EcDups} {history : List LifeEvent} {life : ClientLife}
    (fresh : cli.Fresh) (lived : (lifeMachine platform).run (.new ⟨cli, dups⟩) history = .ok life) :
    ClientSound life.work.cli.core :=
  (sound_kept platform).lifeRun (by exact fresh.sound) lived

end Sound

/-- The request datagrams that a client has sent. -/
def EcClient.requests (cli : EcClient) : List Datagram :=
  (cli.sent.filter fun s => s.purpose = .request).map Sent.datagram

theorem EcClient.requests_sent (cli : EcClient) (datagram : Datagram) :
    (cli.log .request (some datagram)).requests = cli.requests ++ [datagram] := by
  simp [EcClient.requests, EcClient.log]

/-- A request that has been sent again `k` times waits for its acknowledgement, and its timer is armed. -/
structure EcClient.Awaits (k : Nat) (datagram : Datagram) (cli : EcClient) : Prop where
  state : cli.state = .reqSent
  live : cli.freed = false
  coap : cli.coap = ⟨ecCoapMaxRetransmit - k, true, true, ⟨ecCoapRespTimeout * 2 ^ k, 0⟩⟩
  request : ecNetSend true cli.req.hdr cli.req.opts.wire cli.req.payload cli.flow.conn.socket cli.flow.conn.peer =
    some datagram

theorem ecNetSend_again {sent : Bool} {hdr opts payload : List UInt8} {sd : Int} {peer : SockAddr}
    {datagram : Datagram} (handed : ecNetSend sent hdr opts payload sd peer = some datagram) :
    ecNetSend true hdr opts payload sd peer = some datagram := by
  have succeeded : sent = true := ((ecNetSend_isSome sent hdr opts payload sd peer).mp (by rw [handed]; rfl)).2.2
  rw [succeeded] at handed
  exact handed

/-- A client that is about to send its confirmable request for the first time. -/
structure EcClient.Ready (cli : EcClient) : Prop where
  state : cli.state = .dnsOk
  live : cli.freed = false
  confirmable : cli.flow.conn.isConfirmable = some true
  sound : ClientSound cli.core

/-- What the resolver's callback makes of a client that is about to send: it waits for the acknowledgement of the one
datagram that it has sent, or it does not wait. -/
def FirstSend (cli next : EcClient) : Prop :=
  (next.state = .dnsOk ∧ next.Ready ∨ next.state = .internalErr) ∨
    ∃ datagram, next.Awaits 0 datagram ∧ next.requests = cli.requests ++ [datagram]

section Sending

variable {platform : Platform} {w : CliWork}

/-- The first send of a confirmable request starts the retransmission timer. -/
theorem ecClientSetState_sends (ready : w.cli.Ready) : ∃ moved app, ecClientSetState platform false w .reqSent =
    .ok (moved, false) ∧ moved.cli = EcClient.enter {w.cli with
      app := app, coap := ⟨ecCoapMaxRetransmit, true, true, ⟨ecCoapRespTimeout, 0⟩⟩} .reqSent := by
  obtain ⟨noApp, noCoap, _⟩ := ready.sound.unsent (by simp [ready.state])
  have app := ecTimerStart_fresh w.cli.app 1 (by decide) noApp
  have coap := ecTimerStart_fresh {w.cli.coap with tout := ⟨ecCoapRespTimeout, 0⟩} ecCoapMaxRetransmit (by decide) noCoap
  unfold ecClientSetState ecClientEnter ecCliStartAppTimer ecCliStartCoapTimer coapTimerStart
  rw [if_neg (by simp [ecClientCheckTransition, ready.state]), ready.confirmable]
  dsimp only
  rw [if_pos ready.state, app, if_neg (by simp), coap]
  exact ⟨_, ⟨1, true, true, w.cli.app.tout⟩, rfl, rfl⟩

/-- A client that has just handed its request to the network awaits the acknowledgement. -/
theorem EcClient.Ready.sends {sent goesOn : Bool} {datagram : Datagram} (ready : w.cli.Ready)
    (handed : ecNetSend sent w.cli.req.hdr w.cli.req.opts.wire w.cli.req.payload w.cli.flow.conn.socket
      w.cli.flow.conn.peer = some datagram) (dups : EcDups) {opened : CliWork × Bool}
    (done : (ecClientSetState platform false ⟨w.cli.log .request (some datagram), dups⟩ .reqSent).map
      (fun moved => (moved.1, goesOn)) = .ok opened) :
    opened.1.cli.Awaits 0 datagram ∧ opened.1.cli.requests = w.cli.requests ++ [datagram] := by
  have logged : (w.cli.log .request (some datagram)).Ready := ⟨ready.state, ready.live, ready.confirmable, ready.sound⟩
  obtain ⟨moved, made, same⟩ := map_ok done
  have sending : ∃ moved app, ecClientSetState platform false ⟨w.cli.log .request (some datagram), dups⟩ .reqSent =
      .ok (moved, false) ∧ moved.cli = EcClient.enter {w.cli.log .request (some datagram) with
        app := app, coap := ⟨ecCoapMaxRetransmit, true, true, ⟨ecCoapRespTimeout, 0⟩⟩} .reqSent :=
    ecClientSetState_sends logged
  obtain ⟨waiting, app, reached, became⟩ := sending
  rw [made] at reached
  cases reached
  subst same
  dsimp only
  rw [became]
  exact ⟨⟨rfl, ready.live, rfl, ecNetSend_again handed⟩, w.cli.requests_sent datagram⟩

/-- A failed client does not wait for an acknowledgement. -/
theorem failed_of_map {Result : Type} {f : CliWork × Bool → Result} {result : Result}
    (done : (ecClientSetState platform false w .internalErr).map f = .ok result) :
    ∃ moved, f moved = result ∧ moved.1.cli.state = .internalErr := by
  obtain ⟨moved, made, same⟩ := map_ok done
  exact ⟨moved, same, ecClientSetState_state made⟩

/-- The addresses are tried until one takes the request. -/
theorem ecClientConnect_sends {ais : List AddrInfo} {opened : CliWork × Bool} (ready : w.cli.Ready)
    (done : ecClientConnect platform ais w = .ok opened) : FirstSend w.cli opened.1.cli := by
  induction ais generalizing w with
  | nil =>
      cases done
      exact Or.inl (Or.inl ⟨ready.state, ready⟩)
  | cons ai ais ih =>
      unfold ecClientConnect at done
      dsimp only at done
      split at done
      · have later := ih (by exact ⟨ready.state, ready.live, ready.confirmable, ready.sound⟩) done
        exact later
      · split at done
        · cases done
          exact Or.inl (Or.inl ⟨ready.state, ready.state, ready.live, ready.confirmable, ready.sound⟩)
        · rw [ecPduSend_datagram] at done
          split at done
          · have later := ih (by exact ⟨ready.state, ready.live, ready.confirmable, ready.sound⟩) done
            exact later
          · rename_i datagram handed
            split at done
            · right
              refine ⟨datagram, ?_⟩
              have connected : EcClient.Ready {w.cli with
                  flow := {w.cli.flow with conn := {w.cli.flow.conn with socket := ai.socket, peer := ai.addr}}} :=
                ⟨ready.state, ready.live, ready.confirmable, ready.sound⟩
              exact EcClient.Ready.sends (w := ⟨_, w.dups⟩) connected handed _ done
            · obtain ⟨moved, same, failed⟩ := failed_of_map done
              subst same
              exact Or.inl (Or.inr failed)

theorem ecClientOpen_sends {env : DnsEnv} {ais : List AddrInfo} {opened : CliWork × Bool} (ready : w.cli.Ready)
    (done : ecClientOpen platform env ais w = .ok opened) : FirstSend w.cli opened.1.cli := by
  unfold ecClientOpen at done
  dsimp only at done
  split at done
  · rw [ecPduSend_datagram] at done
    split at done
    · obtain ⟨moved, same, failed⟩ := failed_of_map done
      subst same
      exact Or.inl (Or.inr failed)
    · rename_i datagram handed
      right
      rw [handed] at done
      exact ⟨datagram, ready.sends handed _ done⟩
  · have sending := ecClientConnect_sends (by exact ⟨ready.state, ready.live, ready.confirmable, ready.sound⟩) done
    exact sending

/-- A client that the resolver has brought to wait for an acknowledgement has sent its request once. -/
theorem ecClientDnsCb_sends {env : DnsEnv} {next : CliWork} (live : w.cli.freed = false)
    (confirmable : w.cli.flow.conn.isConfirmable = some true) (sound : ClientSound w.cli.core)
    (done : ecClientDnsCb platform env w = .ok next) (waiting : next.cli.state = .reqSent) :
    ∃ datagram, next.cli.Awaits 0 datagram ∧ next.cli.requests = w.cli.requests ++ [datagram] := by
  cases ecClientDnsCb_work done with
  | unresolved absent ended =>
      obtain ⟨moved, made, same⟩ := map_ok ended
      subst same
      rw [ecClientSetState_state made] at waiting
      cases waiting
  | unencoded ais found permitted refused ended =>
      obtain ⟨moved, same, failed⟩ := failed_of_map ended
      subst same
      cases failed.symm.trans waiting
  | opened ais found permitted encoded opened goesOn opening ended =>
      have resolved : ecClientSetState platform false w .dnsOk = _ := ecClientSetState_idle (Or.inl rfl) permitted
      have still := ecClientSetState_keepsSound sound resolved
      have stored : (w.addressed platform env.rng).cli.Ready := ⟨rfl, live, confirmable, still⟩
      have sent : opened.cli.state = .reqSent →
          ∃ datagram, opened.cli.Awaits 0 datagram ∧ opened.cli.requests = w.cli.requests ++ [datagram] := by
        intro here
        rcases ecClientOpen_sends stored opening with (⟨early, _⟩ | failed) | sent
        · cases early.symm.trans here
        · cases failed.symm.trans here
        · exact sent
      rcases ended with ⟨_, same⟩ | ⟨_, _, failing⟩ | ⟨_, _, same⟩
      · subst same
        exact sent waiting
      · obtain ⟨moved, same, failed⟩ := failed_of_map failing
        subst same
        cases failed.symm.trans waiting
      · subst same
        obtain ⟨datagram, awaits, requests⟩ := sent waiting
        exact ⟨datagram, ⟨awaits.state, awaits.live, awaits.coap, awaits.request⟩, requests⟩

end Sending

/-- What an event leaves of a client when it does not change the state. -/
structure EcClient.Still (cli next : EcClient) : Prop where
  state : next.state = cli.state
  freed : next.freed = cli.freed
  coap : next.coap = cli.coap
  req : next.req = cli.req
  conn : next.flow.conn = cli.flow.conn
  sent : next.sent = cli.sent

theorem EcClient.Still.refl (cli : EcClient) : cli.Still cli := ⟨rfl, rfl, rfl, rfl, rfl, rfl⟩

theorem EcClient.Still.requests {cli next : EcClient} (still : cli.Still next) : next.requests = cli.requests := by
  unfold EcClient.requests
  rw [still.sent]

theorem EcClient.Still.awaits {cli next : EcClient} (still : cli.Still next) {k : Nat} {datagram : Datagram}
    (awaits : cli.Awaits k datagram) : next.Awaits k datagram where
  state := still.state.trans awaits.state
  live := still.freed.trans awaits.live
  coap := still.coap.trans awaits.coap
  request := by
    rw [still.req, still.conn]
    exact awaits.request

section Stillness

variable {platform : Platform} {w : CliWork}

/-- A transition to another state is seen. -/
theorem moved_of_map {Result : Type} {sent : Bool} {next : EcCliState} {f : CliWork × Bool → Result} {result : Result}
    (done : (ecClientSetState platform sent w next).map f = .ok result) :
    ∃ moved, f moved = result ∧ moved.1.cli.state = next ∧ ecClientCheckTransition w.cli.state next = true := by
  obtain ⟨moved, made, same⟩ := map_ok done
  exact ⟨moved, same, ecClientSetState_state made, ecClientSetState_permitted made⟩

/-- An event of its own that keeps the state of a client keeps all that a retransmission needs. -/
theorem clientStep_still {event : ClientEvent} {next : CliWork} (unobserved : w.cli.state ≠ .waitNfy)
    (noTimer : ∀ sent, event ≠ .coapTimeout sent) (noResolver : ∀ env, event ≠ .dns env)
    (stepped : clientStep platform w event = .ok next) (same : next.cli.state = w.cli.state) : w.cli.Still next.cli := by
  cases clientStep_work stepped with
  | idle event => exact EcClient.Still.refl _
  | heard input h handled hears worked =>
      by_cases code : h.code = 0
      · rcases ecClientHandleNew_empty code worked with ⟨state, moved, asked, made, outcome⟩ | ⟨_, _, outcome⟩
        · subst outcome
          have reached := (ecClientSetState_state made).symm.trans same
          have permitted := ecClientSetState_permitted made
          change ecClientCheckTransition w.cli.state state = true at permitted
          rw [← reached] at permitted
          rcases asked with ⟨_, rfl⟩ | ⟨_, rfl⟩ <;> cases permitted
        · subst outcome
          exact ⟨rfl, rfl, rfl, rfl, rfl, rfl⟩
      · rcases ecClientHandleNew_response code worked with ⟨_, outcome⟩ | ⟨_, _, outcome⟩ | ⟨observe, _, _, follows, _, became⟩
        · subst outcome
          exact ⟨rfl, rfl, rfl, rfl, rfl, rfl⟩
        · subst outcome
          exact ⟨rfl, rfl, rfl, rfl, rfl, rfl⟩
        · have reached := became.state.symm.trans same
          have permitted := follows.permitted
          change ecClientCheckTransition w.cli.state observe.asks = true at permitted
          rcases observe.asks_cases with waiting | done
          · exact absurd (reached.symm.trans waiting) unobserved
          · rw [← reached, done] at permitted
            cases permitted
  | resolved env next worked => exact absurd rfl (noResolver env)
  | coapTimeout sent next worked => exact absurd rfl (noTimer sent)
  | appTimeout sent next worked =>
      obtain ⟨moved, outcome, reached, permitted⟩ := moved_of_map worked
      subst outcome
      change ecClientCheckTransition w.cli.state .appTimeout = true at permitted
      rw [← same, reached] at permitted
      cases permitted
  | obsTimeout sent next worked =>
      obtain ⟨moved, outcome, reached, permitted⟩ := moved_of_map worked
      subst outcome
      change ecClientCheckTransition w.cli.state .obsTimeout = true at permitted
      rw [← same, reached] at permitted
      cases permitted
  | cancel => exact ⟨rfl, rfl, rfl, rfl, rfl, rfl⟩
  | shared dups => exact ⟨rfl, rfl, rfl, rfl, rfl, rfl⟩

/-- The transitions of a send do not lead to the end of the retransmissions. -/
theorem unexpired_kept (platform : Platform) :
    KeptBySends platform (· ≠ .coapTimeout) fun cli => cli.state ≠ .coapTimeout where
  sends := by decide
  fails := by decide
  moves := by
    intro sent w next moved other made _
    rw [ecClientSetState_state made]
    exact other
  flow := fun _ _ _ unexpired => unexpired
  req := fun _ _ _ unexpired => unexpired
  log := fun _ _ _ unexpired => unexpired

/-- The resolver's callback never ends where the retransmissions do. -/
theorem ecClientDnsCb_state {env : DnsEnv} {next : CliWork} (done : ecClientDnsCb platform env w = .ok next) :
    next.cli.state ≠ .coapTimeout := by
  apply (unexpired_kept platform).resolved ?_ (fun _ unexpired => unexpired) done
  intro next moved either made
  rw [ecClientSetState_state made]
  rcases either with failed | resolved
  · simp [failed]
  · simp [resolved]

/-- The resolver's callback does not meet a request that is on its way. -/
theorem ecClientDnsCb_early {env : DnsEnv} {next : CliWork} (done : ecClientDnsCb platform env w = .ok next) :
    w.cli.state ≠ .reqSent := by
  intro sent
  have early : ecClientCheckTransition w.cli.state .dnsOk ≠ true := by
    rw [sent]
    decide
  cases ecClientDnsCb_work done with
  | unresolved absent ended =>
      obtain ⟨moved, outcome, _, permitted⟩ := moved_of_map ended
      change ecClientCheckTransition w.cli.state .dnsFailed = true at permitted
      rw [sent] at permitted
      cases permitted
  | unencoded ais found permitted refused ended => exact early permitted
  | opened ais found permitted encoded opened goesOn opening ended => exact early permitted

/-- An event that keeps a client where its retransmissions are, or have ended, keeps all that they need. -/
theorem lifeStep_still {life next : ClientLife} {event : LifeEvent}
    (phase : life.work.cli.state = .reqSent ∨ life.work.cli.state = .coapTimeout)
    (noTimer : ∀ sent, event ≠ .event (.coapTimeout sent)) (stepped : lifeStep platform life event = .ok next)
    (same : next.work.cli.state = life.work.cli.state) : life.work.cli.Still next.work.cli := by
  cases lifeStep_work stepped with
  | disposed event freed => exact EcClient.Still.refl _
  | asked tout destination live goes => exact ⟨rfl, rfl, rfl, rfl, rfl, rfl⟩
  | refused tout destination gone live stays ended =>
      obtain ⟨moved, outcome, reached, _⟩ := moved_of_map ended
      subst outcome
      have failed := reached.symm.trans same
      rcases phase with sent | ended
      · cases failed.trans sent
      · cases failed.trans ended
  | unasked env live answered => exact EcClient.Still.refl _
  | resolved env work live outstanding called =>
      rcases phase with sent | ended
      · exact absurd sent (ecClientDnsCb_early called)
      · exact absurd (same.trans ended) (ecClientDnsCb_state called)
  | other event work live other worked =>
      refine clientStep_still ?_ (fun sent timer => noTimer sent (by rw [timer])) other worked same
      rcases phase with sent | ended
      · rw [sent]
        decide
      · rw [ended]
        decide

end Stillness

section Expirations

variable {platform : Platform} {w : CliWork} {k : Nat} {datagram : Datagram}

theorem EcTimer.fired_restarted {ti : EcTimer}
    (coap : ti = ⟨ecCoapMaxRetransmit - k, true, true, ⟨ecCoapRespTimeout * 2 ^ k, 0⟩⟩)
    (left : k < ecCoapMaxRetransmit) : coapTimerRestart ti.fired =
      some ⟨ecCoapMaxRetransmit - (k + 1), true, true, ⟨ecCoapRespTimeout * 2 ^ (k + 1), 0⟩⟩ := by
  subst coap
  have more : ecCoapMaxRetransmit - k ≠ 0 := by omega
  have doubled : ecCoapRespTimeout * 2 ^ k * 2 = ecCoapRespTimeout * 2 ^ (k + 1) := by
    rw [pow_succ, Nat.mul_assoc]
  have fewer : ecCoapMaxRetransmit - k - 1 = ecCoapMaxRetransmit - (k + 1) := by omega
  unfold coapTimerRestart EcTimer.fired ecTimerRestart
  dsimp only
  rw [if_neg more, if_pos rfl, doubled, fewer]

/-- An expiration with retries left sends the same datagram again, and doubles the timeout. -/
theorem EcClient.Awaits.retransmits (platform : Platform) (awaits : w.cli.Awaits k datagram) (left : k < ecCoapMaxRetransmit) :
    ∃ next, clientStep platform w (.coapTimeout true) = .ok next ∧ next.cli.Awaits (k + 1) datagram ∧
      next.cli.requests = w.cli.requests ++ [datagram] := by
  have more : w.cli.coap.fired.retriesLeft ≠ 0 := by
    rw [awaits.coap]
    change ecCoapMaxRetransmit - k ≠ 0
    omega
  obtain ⟨retried, retrying, same⟩ : ∃ retried : EcClient,
      ecClientSetState platform true {w with cli := {w.cli with coap := w.cli.coap.fired}} .coapRetry =
        .ok (⟨retried, w.dups⟩, false) ∧ retried = EcClient.enter {w.cli with coap := w.cli.coap.fired} .coapRetry :=
    ⟨_, ecClientSetState_idle (Or.inr rfl) (by simp [ecClientCheckTransition, awaits.state]), rfl⟩
  obtain ⟨again, restarted, renewed⟩ : ∃ again, coapTimerRestart retried.coap = some again ∧
      again = ⟨ecCoapMaxRetransmit - (k + 1), true, true, ⟨ecCoapRespTimeout * 2 ^ (k + 1), 0⟩⟩ := by
    rw [same]
    exact ⟨_, EcTimer.fired_restarted awaits.coap left, rfl⟩
  have resending : ∀ dups, ∃ moved, ecClientSetState platform true ⟨retried.log .request (some datagram), dups⟩ .reqSent =
      .ok (moved, false) ∧ moved.cli = EcClient.enter {retried.log .request (some datagram) with coap := again} .reqSent :=
    fun dups => ecClientSetState_resends platform true _ (by rw [same]; rfl) restarted
  have sends : ecNetSend true retried.req.hdr retried.req.opts.wire retried.req.payload retried.flow.conn.socket
      retried.flow.conn.peer = some datagram := by
    rw [same]
    exact awaits.request
  unfold clientStep
  rw [if_neg (by simp [awaits.live])]
  dsimp only
  rw [if_pos (by rw [awaits.coap])]
  unfold ecCliCoapTimeout
  rw [if_neg more, retrying]
  dsimp only
  rw [ecPduSend_datagram, sends]
  obtain ⟨moved, made, became⟩ := resending (ecPduSend platform true retried.flow retried.req w.dups true).dups
  rw [if_pos (by rfl), made]
  refine ⟨moved, rfl, ?_, ?_⟩
  · rw [became, same]
    exact ⟨rfl, awaits.live, renewed, awaits.request⟩
  · rw [became, same]
    exact w.cli.requests_sent datagram

/-- The requests that a client has sent are all that it has logged but for acknowledgements and resets. -/
theorem EcClient.requests_log {purpose : Purpose} (other : purpose ≠ .request) (cli : EcClient)
    (datagram : Option Datagram) : (cli.log purpose datagram).requests = cli.requests := by
  unfold EcClient.requests EcClient.log
  rw [List.filter_append, List.map_append]
  cases datagram with
  | none => simp
  | some datagram => simp [other]

/-- The expiration with no retries left ends the transaction, and sends no request. -/
theorem EcClient.Awaits.expires (platform : Platform) (sent : Bool) (awaits : w.cli.Awaits ecCoapMaxRetransmit datagram) :
    ∃ next, clientStep platform w (.coapTimeout sent) = .ok next ∧ next.cli.state = .coapTimeout ∧
      next.cli.coap.pending = false ∧ next.cli.requests = w.cli.requests := by
  have finished : ∀ (isCon : Bool) (cli : EcClient), cli.coap.pending = false → (ecClientFinish isCon cli).coap.pending = false ∧
      (ecClientFinish isCon cli).requests = cli.requests := by
    intro isCon cli fired
    have removed : (ecTimerRemove cli.coap).pending = false := by
      unfold ecTimerRemove
      split
      · rfl
      · exact fired
    unfold ecClientFinish
    cases isCon <;> cases cli.userown
    · exact ⟨fired, rfl⟩
    · exact ⟨fired, rfl⟩
    · exact ⟨removed, rfl⟩
    · exact ⟨removed, rfl⟩
  obtain ⟨rst, reset⟩ := ecClientRstPeer_log platform sent
    {w with cli := EcClient.enter {w.cli with coap := w.cli.coap.fired} .coapTimeout}
  have ending : ∃ moved, ecClientSetState platform sent {w with cli := {w.cli with coap := w.cli.coap.fired}} .coapTimeout =
      .ok (moved, true) ∧ moved.cli.coap.pending = false ∧ moved.cli.requests = w.cli.requests := by
    unfold ecClientSetState
    rw [if_neg (by simp [ecClientCheckTransition, awaits.state])]
    refine ⟨_, rfl, ?_⟩
    dsimp only
    split
    · rw [reset]
      obtain ⟨silent, kept⟩ := finished (w.cli.flow.conn.isConfirmable.getD false)
        ((EcClient.enter {w.cli with coap := w.cli.coap.fired} .coapTimeout).log .rst rst) rfl
      exact ⟨silent, kept.trans (EcClient.requests_log (by decide) _ rst)⟩
    · exact finished _ _ rfl
  obtain ⟨moved, made, silent, kept⟩ := ending
  unfold clientStep
  rw [if_neg (by simp [awaits.live])]
  dsimp only
  rw [if_pos (by rw [awaits.coap])]
  unfold ecCliCoapTimeout
  rw [if_pos (by rw [awaits.coap]; rfl), made]
  exact ⟨moved, rfl, ecClientSetState_state made, silent, kept⟩

/-- An expiration whose send fails moves the client on. -/
theorem EcClient.Awaits.unsent (awaits : w.cli.Awaits k datagram) (left : k < ecCoapMaxRetransmit) {next : CliWork}
    (stepped : clientStep platform w (.coapTimeout false) = .ok next) : next.cli.state = .sendFailed := by
  have more : w.cli.coap.fired.retriesLeft ≠ 0 := by
    rw [awaits.coap]
    change ecCoapMaxRetransmit - k ≠ 0
    omega
  unfold clientStep at stepped
  rw [if_neg (by simp [awaits.live])] at stepped
  dsimp only at stepped
  rw [if_pos (by rw [awaits.coap])] at stepped
  unfold ecCliCoapTimeout at stepped
  rw [if_neg more] at stepped
  split at stepped
  · cases stepped
  · dsimp only at stepped
    rename_i retried _ _
    have failed : (ecPduSend platform false retried.cli.flow retried.cli.req retried.dups true).datagram = none := by
      rw [ecPduSend_datagram]
      unfold ecNetSend
      split
      · rfl
      · split <;> rfl
    rw [failed] at stepped
    obtain ⟨moved, outcome, reached, _⟩ := moved_of_map stepped
    subst outcome
    exact reached

end Expirations

/-- The event is an expiration of the retransmission timer. -/
def LifeEvent.expiration (event : LifeEvent) : Bool :=
  match event with
  | .event (.coapTimeout _) => true
  | _ => false

/-- The retransmission timer expires, and the send succeeds if there is one; or the state of the client stays. -/
def Undisturbed (platform : Platform) (life : ClientLife) (event : LifeEvent) : Prop :=
  (∃ sent, event = .event (.coapTimeout sent) ∧ (sent = true ∨ life.work.cli.coap.retriesLeft = 0)) ∨
    ∃ next, lifeStep platform life event = .ok next ∧ next.work.cli.state = life.work.cli.state

/-- A client whose retransmission timer has expired `n` times since it has sent its request; `before` are the requests
that it had sent by then. -/
structure EcClient.Retransmitted (before : List Datagram) (datagram : Datagram) (n : Nat) (cli : EcClient) : Prop where
  requests : cli.requests = before ++ List.replicate (1 + min n ecCoapMaxRetransmit) datagram
  waiting : n ≤ ecCoapMaxRetransmit → cli.Awaits n datagram
  expired : ecCoapMaxRetransmit < n → cli.state = .coapTimeout ∧ cli.coap.pending = false

section Runs

variable {platform : Platform} {life : ClientLife} {before : List Datagram} {datagram : Datagram} {n : Nat}

/-- The expiration of the timer takes the client to the next retransmission, to its end, or leaves it there. -/
theorem lifeStep_expires {sent : Bool} (retransmitted : life.work.cli.Retransmitted before datagram n)
    (sends : n < ecCoapMaxRetransmit → sent = true) :
    ∃ next, lifeStep platform life (.event (.coapTimeout sent)) = .ok next ∧
      next.work.cli.Retransmitted before datagram (n + 1) := by
  change ∃ next, (clientStep platform life.work (.coapTimeout sent)).map _ = .ok next ∧ _
  rcases lt_trichotomy n ecCoapMaxRetransmit with left | last | beyond
  · have awaits := retransmitted.waiting left.le
    have succeeded := sends left
    subst succeeded
    obtain ⟨next, stepped, again, requests⟩ := awaits.retransmits platform left
    rw [stepped]
    refine ⟨_, rfl, ?_, fun _ => again, fun beyond => absurd left (by omega)⟩
    dsimp only
    rw [requests, retransmitted.requests, List.append_assoc, ← List.replicate_succ', Nat.min_eq_left left.le,
      Nat.min_eq_left left, Nat.add_assoc]
  · subst last
    obtain ⟨next, stepped, ended, silent, requests⟩ :=
      (retransmitted.waiting (Nat.le_refl _)).expires platform sent
    rw [stepped]
    refine ⟨_, rfl, ?_, fun few => absurd few (by omega), fun _ => ⟨ended, silent⟩⟩
    dsimp only
    rw [requests, retransmitted.requests, Nat.min_self, Nat.min_eq_right (Nat.le_succ _)]
  · obtain ⟨ended, silent⟩ := retransmitted.expired beyond
    have idle : clientStep platform life.work (.coapTimeout sent) = .ok life.work := by
      unfold clientStep
      split
      · rfl
      · dsimp only
        rw [if_neg (by simp [silent])]
    rw [idle]
    refine ⟨_, rfl, ?_, fun few => absurd few (by omega), fun _ => ⟨ended, silent⟩⟩
    dsimp only
    rw [retransmitted.requests, Nat.min_eq_right beyond.le, Nat.min_eq_right (by omega)]

/-- An event that keeps the state keeps the count of the retransmissions, unless the timer expires. -/
theorem lifeStep_undisturbed {event : LifeEvent} (retransmitted : life.work.cli.Retransmitted before datagram n)
    (undisturbed : Undisturbed platform life event) : ∃ next, lifeStep platform life event = .ok next ∧
      next.work.cli.Retransmitted before datagram (n + if event.expiration then 1 else 0) := by
  by_cases timer : ∃ sent, event = .event (.coapTimeout sent)
  · obtain ⟨sent, rfl⟩ := timer
    apply lifeStep_expires retransmitted
    intro left
    have awaits := retransmitted.waiting left.le
    rcases undisturbed with ⟨same, timer, sends⟩ | ⟨next, stepped, same⟩
    · cases timer
      apply sends.resolve_right
      rw [awaits.coap]
      change ecCoapMaxRetransmit - n ≠ 0
      omega
    · -- An expiration that has kept the state has not failed to send.
      cases sent with
      | true => rfl
      | false =>
          obtain ⟨work, worked, outcome⟩ := map_ok stepped
          subst outcome
          have failed := (awaits.unsent left worked).symm.trans same
          cases failed.trans awaits.state
  · have uncounted : event.expiration = false := by
      cases event with
      | send tout destination => rfl
      | event event =>
          cases event with
          | coapTimeout sent => exact absurd ⟨sent, rfl⟩ timer
          | dns | datagram | appTimeout | obsTimeout | cancel | shared => rfl
    rcases undisturbed with ⟨sent, same, _⟩ | ⟨next, stepped, same⟩
    · exact absurd ⟨sent, same⟩ timer
    · have phase : life.work.cli.state = .reqSent ∨ life.work.cli.state = .coapTimeout := by
        rcases Nat.lt_or_ge ecCoapMaxRetransmit n with beyond | left
        · exact Or.inr (retransmitted.expired beyond).1
        · exact Or.inl (retransmitted.waiting left).state
      have still := lifeStep_still phase (fun sent same => timer ⟨sent, same⟩) stepped same
      rw [uncounted]
      refine ⟨next, stepped, ?_, fun left => still.awaits (retransmitted.waiting left), fun beyond => ?_⟩
      · exact still.requests.trans retransmitted.requests
      · obtain ⟨ended, silent⟩ := retransmitted.expired beyond
        exact ⟨still.state.trans ended, by rw [still.coap]; exact silent⟩

/-- A run of such events counts the expirations. -/
theorem lifeRun_undisturbed {events : List LifeEvent} (retransmitted : life.work.cli.Retransmitted before datagram n)
    (undisturbed : (lifeMachine platform).Meets (Undisturbed platform) life events) :
    ∃ final, (lifeMachine platform).run life events = .ok final ∧
      final.work.cli.Retransmitted before datagram (n + events.countP LifeEvent.expiration) := by
  induction events generalizing life n with
  | nil => exact ⟨life, rfl, retransmitted⟩
  | cons event events ih =>
      obtain ⟨next, stepped, counted⟩ := lifeStep_undisturbed retransmitted undisturbed.1
      obtain ⟨final, ran, whole⟩ := ih counted (undisturbed.2 next stepped)
      refine ⟨final, ?_, ?_⟩
      · rw [Machine.run, show (lifeMachine platform).step life event = .ok next from stepped]
        exact ran
      · rw [List.countP_cons, Nat.add_comm (events.countP _), ← Nat.add_assoc]
        exact whole

end Runs

/-- What is seen of a client whose retransmission timer has expired `n` times since it has sent its request. -/
structure EcClient.OnSchedule (before : List Datagram) (datagram : Datagram) (n : Nat) (cli : EcClient) : Prop where
  requests : cli.requests = before ++ List.replicate (1 + min n ecCoapMaxRetransmit) datagram
  armed : n ≤ ecCoapMaxRetransmit → cli.state = .reqSent ∧ cli.coap.pending = true ∧
    cli.coap.tout = ⟨ecCoapRespTimeout * 2 ^ n, 0⟩
  expired : ecCoapMaxRetransmit < n → cli.state = .coapTimeout ∧ cli.coap.pending = false

theorem EcClient.Retransmitted.onSchedule {before : List Datagram} {datagram : Datagram} {n : Nat} {cli : EcClient}
    (retransmitted : cli.Retransmitted before datagram n) : cli.OnSchedule before datagram n where
  requests := retransmitted.requests
  armed := fun left => by
    have awaits := retransmitted.waiting left
    exact ⟨awaits.state, by rw [awaits.coap], by rw [awaits.coap]⟩
  expired := retransmitted.expired

/-- However the expirations of the retransmission timer are mixed with events that keep the state, a confirmable request
is sent once and once again after each of the first four, in the same datagram; the timeout is doubled each time, and
the fifth expiration ends the transaction. -/
theorem retransmissions_onSchedule (platform : Platform) (cli : EcClient) (dups : EcDups) (fresh : cli.Fresh)
    (history : List LifeEvent) (life : ClientLife)
    (lived : (lifeMachine platform).run (.new ⟨cli, dups⟩) history = .ok life)
    (confirmable : life.work.cli.flow.conn.isConfirmable = some true) (idle : life.work.cli.state ≠ .reqSent)
    (env : DnsEnv) (requested : ClientLife) (stepped : lifeStep platform life (.event (.dns env)) = .ok requested)
    (sent : requested.work.cli.state = .reqSent) (events : List LifeEvent)
    (undisturbed : (lifeMachine platform).Meets (Undisturbed platform) requested events) :
    ∃ datagram final, (lifeMachine platform).run requested events = .ok final ∧
      final.work.cli.OnSchedule life.work.cli.requests datagram (events.countP LifeEvent.expiration) := by
  have sound := lifeRun_sound fresh lived
  cases lifeStep_work stepped with
  | disposed event freed => exact absurd sent idle
  | unasked env live answered => exact absurd sent idle
  | resolved env work live outstanding called =>
      obtain ⟨datagram, awaits, requests⟩ := ecClientDnsCb_sends live confirmable sound called sent
      have first : (ClientLife.mk work (life.resolving - 1)).work.cli.Retransmitted life.work.cli.requests datagram 0 :=
        ⟨requests, fun _ => awaits, fun beyond => absurd beyond (by omega)⟩
      obtain ⟨final, ran, whole⟩ := lifeRun_undisturbed first undisturbed
      rw [Nat.zero_add] at whole
      exact ⟨datagram, final, ran, whole.onSchedule⟩
  | other event work live other worked => exact absurd rfl (other env)

/-- Nobody answers, and the user cancels in the middle. -/
def fiveExpirations : List LifeEvent :=
  [.event (.coapTimeout true), .event (.coapTimeout true), .event .cancel, .event (.coapTimeout true),
    .event (.coapTimeout true), .event (.coapTimeout true)]

/-- The request is sent five times and times out. -/
theorem fiveExpirations_onSchedule : ∃ life requested datagram final,
    (lifeMachine loopbackPlatform).run (.new ⟨confirmableGet, EcDups.empty⟩) [.send none true] = .ok life ∧
    lifeStep loopbackPlatform life (.event (.dns resolvedOnce)) = .ok requested ∧
    (lifeMachine loopbackPlatform).run requested fiveExpirations = .ok final ∧
    final.work.cli.OnSchedule life.work.cli.requests datagram 5 := by
  have underway : ∃ life requested,
      (lifeMachine loopbackPlatform).run (.new ⟨confirmableGet, EcDups.empty⟩) [.send none true] = .ok life ∧
      lifeStep loopbackPlatform life (.event (.dns resolvedOnce)) = .ok requested ∧
      life.work.cli.flow.conn.isConfirmable = some true ∧ life.work.cli.state ≠ .reqSent ∧
      requested.work.cli.state = .reqSent :=
    ⟨_, _, rfl, rfl, rfl, by decide, rfl⟩
  obtain ⟨life, requested, lived, stepped, confirmable, idle, sent⟩ := underway
  have expires : ∀ life : ClientLife, Undisturbed loopbackPlatform life (.event (.coapTimeout true)) :=
    fun _ => Or.inl ⟨true, rfl, Or.inl rfl⟩
  have cancels : ∀ life : ClientLife, Undisturbed loopbackPlatform life (.event .cancel) := by
    intro life
    right
    change ∃ next, (clientStep loopbackPlatform life.work .cancel).map _ = .ok next ∧ _
    unfold clientStep
    split
    · exact ⟨_, rfl, rfl⟩
    · exact ⟨_, rfl, rfl⟩
  obtain ⟨datagram, final, ran, schedule⟩ := retransmissions_onSchedule loopbackPlatform confirmableGet EcDups.empty
    ⟨rfl, rfl, rfl, rfl, rfl, rfl, rfl⟩ [.send none true] life lived confirmable idle resolvedOnce requested stepped sent
    fiveExpirations ⟨expires _, fun _ _ => ⟨expires _, fun _ _ => ⟨cancels _, fun _ _ => ⟨expires _, fun _ _ =>
      ⟨expires _, fun _ _ => ⟨expires _, fun _ _ => trivial⟩⟩⟩⟩⟩⟩
  exact ⟨life, requested, datagram, final, lived, stepped, ran, schedule⟩

end Webthings.Evcoap
