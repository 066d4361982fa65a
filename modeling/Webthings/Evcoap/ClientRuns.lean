import Webthings.Evcoap.Client
import Webthings.Transition.Machine

namespace Webthings.Evcoap
open Webthings.Transition

/-- What can happen to a client transaction; `shared` is any use of the duplicate map by others. -/
inductive ClientEvent where
  | dns (env : DnsEnv)
  | datagram (input : Incoming)
  | appTimeout (sent : Bool)
  | coapTimeout (sent : Bool)
  | obsTimeout (sent : Bool)
  | cancel
  | shared (dups : EcDups)

/-- The event loop calls back on what is registered with it, and on nothing of a disposed client. -/
def clientStep (platform : Platform) (w : CliWork) (event : ClientEvent) : Except EcFault CliWork :=
  if w.cli.freed then .ok w
  else
    match event with
    | .dns env => if w.cli.dnsReq then ecClientDnsCb platform env w else .ok w
    | .datagram input =>
        if w.cli.registered then (ecClientHandlePdu platform w input).map fun handled => handled.work else .ok w
    | .appTimeout sent =>
        if w.cli.app.pending then ecCliAppTimeout platform sent {w with cli := {w.cli with app := w.cli.app.fired}}
        else .ok w
    | .coapTimeout sent =>
        if w.cli.coap.pending then ecCliCoapTimeout platform sent {w with cli := {w.cli with coap := w.cli.coap.fired}}
        else .ok w
    | .obsTimeout sent =>
        if w.cli.obs.pending then ecCliObsTimeout platform sent {w with cli := {w.cli with obs := w.cli.obs.fired}}
        else .ok w
    | .cancel => .ok {w with cli := ecClientCancelObservation w.cli}
    | .shared dups => .ok {w with dups := dups}

def clientMachine (platform : Platform) : Machine CliWork ClientEvent EcFault := ⟨clientStep platform⟩

/-- The run of a transaction from the call of `ec_client_go` on. -/
def clientRun (platform : Platform) (w : CliWork) (tout : Option TimeVal) (destination : Bool)
    (events : List ClientEvent) : Except EcFault CliWork :=
  (ecClientGo platform w tout destination).bind fun started => (clientMachine platform).run started.1 events

/-- The faults that end the process through `errx`. -/
def EcFault.Exits : EcFault → Prop
  | .serverRejected _ _ | .clientRejected _ _ | .timerFailed => True
  | .nullEvent | .disposed | .overrun => False

/-- The zeroed memory that `ec_client_new` hands out, whatever request is set up in it. -/
def EcClient.Fresh (cli : EcClient) : Prop :=
  cli.state = .none ∧ cli.app = EcTimer.zero ∧ cli.coap = EcTimer.zero ∧ cli.obs = EcTimer.zero ∧
    cli.dnsReq = false ∧ cli.registered = false ∧ cli.freed = false

instance (cli : EcClient) : Decidable cli.Fresh := inferInstanceAs (Decidable (_ ∧ _))

/-- The states in which a transaction waits for an answer. -/
def EcCliState.Awaiting (state : EcCliState) : Prop := state = .reqSent ∨ state = .reqAckd ∨ state = .waitNfy

/-- The part of a client that the transitions depend on. -/
structure ClientCore where
  state : EcCliState
  app : EcTimer
  coap : EcTimer
  obs : EcTimer
  isConfirmable : Option Bool

def EcClient.core (cli : EcClient) : ClientCore :=
  ⟨cli.state, cli.app, cli.coap, cli.obs, cli.flow.conn.isConfirmable⟩

/-- Pending timers exist, and only confirmable transactions have a retransmission timer. -/
structure ClientTimers (core : ClientCore) : Prop where
  appExists : core.app.Sound
  coapExists : core.coap.Sound
  obsExists : core.obs.Sound
  confirmable : core.coap.evti = true → core.isConfirmable.getD false = true

/-- Each timer of a client exists only in the states that can react to it. -/
structure ClientSound (core : ClientCore) : Prop extends ClientTimers core where
  app : core.app.evti = true → core.state = .reqSent ∨ core.state = .reqAckd ∨ core.state = .coapRetry
  coap : core.coap.evti = true → core.state = .reqSent ∨ core.state = .coapRetry
  obs : core.obs.evti = true → core.state = .waitNfy

/-- Between events the retransmission is over, and the resolver is asked in the first state only. -/
structure ClientQuiet (cli : EcClient) : Prop where
  sound : ClientSound cli.core
  settled : cli.state ≠ .coapRetry
  resolving : cli.dnsReq = true → cli.state = .none

@[simp] theorem EcClient.log_core (cli : EcClient) (purpose : Purpose) (datagram : Option Datagram) :
    (cli.log purpose datagram).core = cli.core := rfl

/-- An acknowledgement changes the log of the client alone. -/
theorem ecClientSendAck_frame (platform : Platform) (sent : Bool) (w : CliWork) :
    ∃ log, (ecClientSendAck platform sent w).cli = {w.cli with sent := log} := by
  unfold ecClientSendAck
  dsimp only
  split
  · exact ⟨_, rfl⟩
  · split <;> exact ⟨_, rfl⟩

/-- A reset changes the log of the client alone. -/
theorem ecClientRstPeer_frame (platform : Platform) (sent : Bool) (w : CliWork) :
    ∃ log, (ecClientRstPeer platform sent w).cli = {w.cli with sent := log} := by
  unfold ecClientRstPeer
  dsimp only
  split
  · exact ⟨_, rfl⟩
  · split <;> exact ⟨_, rfl⟩

/-- A timer is idle when it does not exist and nothing waits for it. -/
def EcTimer.Idle (ti : EcTimer) : Prop := ti.evti = false ∧ ti.pending = false

theorem EcTimer.Sound.idle {ti : EcTimer} (sound : ti.Sound) (absent : ti.evti = false) : ti.Idle := by
  refine ⟨absent, ?_⟩
  cases armed : ti.pending with
  | false => rfl
  | true => exact absurd (sound armed) (by simp [absent])

theorem ecTimerRemove_idle {ti : EcTimer} (sound : ti.Sound) : (ecTimerRemove ti).Idle :=
  ⟨ecTimerRemove_evti ti, ecTimerRemove_pending ti sound⟩

/-- Idle timers are in order in every state. -/
theorem ClientSound.of_idle {core : ClientCore} (app : core.app.Idle) (coap : core.coap.Idle)
    (obs : core.obs.Idle) : ClientSound core where
  appExists := by simp [EcTimer.Sound, app.2]
  coapExists := by simp [EcTimer.Sound, coap.2]
  obsExists := by simp [EcTimer.Sound, obs.2]
  confirmable := by simp [coap.1]
  app := by simp [app.1]
  coap := by simp [coap.1]
  obs := by simp [obs.1]

/-- The retransmission timer is idle after the stop that only confirmable transactions make. -/
theorem ClientTimers.quenched {core : ClientCore} (timers : ClientTimers core) :
    (if core.isConfirmable.getD false then ecTimerRemove core.coap else core.coap).Idle := by
  split
  · exact ecTimerRemove_idle timers.coapExists
  · rename_i plain
    have absent : core.coap.evti = false := by
      cases found : core.coap.evti with
      | false => rfl
      | true => exact absurd (timers.confirmable found) plain
    exact timers.coapExists.idle absent

/-- The end of a transaction leaves no timer behind. -/
theorem ecClientFinish_idle (cli : EcClient) (timers : ClientTimers cli.core) :
    (ecClientFinish (cli.flow.conn.isConfirmable.getD false) cli).app.Idle ∧
      (ecClientFinish (cli.flow.conn.isConfirmable.getD false) cli).coap.Idle ∧
        (ecClientFinish (cli.flow.conn.isConfirmable.getD false) cli).obs.Idle := by
  have app := ecTimerRemove_idle timers.appExists
  have coap := timers.quenched
  have obs := ecTimerRemove_idle timers.obsExists
  unfold EcClient.core at coap
  unfold ecClientFinish
  cases con : cli.flow.conn.isConfirmable.getD false with
  | true =>
      simp only [con, if_true] at coap
      cases cli.userown <;> exact ⟨app, coap, obs⟩
  | false =>
      simp only [con, Bool.false_eq_true, if_false] at coap
      cases cli.userown <;> exact ⟨app, coap, obs⟩

theorem ecClientFinish_sound (cli : EcClient) (timers : ClientTimers cli.core) :
    ClientSound (ecClientFinish (cli.flow.conn.isConfirmable.getD false) cli).core := by
  obtain ⟨app, coap, obs⟩ := ecClientFinish_idle cli timers
  exact ClientSound.of_idle app coap obs

/-- The end of a transaction keeps the state that it has reached. -/
theorem ecClientFinish_frame (isCon : Bool) (cli : EcClient) :
    (ecClientFinish isCon cli).state = cli.state ∧ (ecClientFinish isCon cli).dnsReq = cli.dnsReq := by
  unfold ecClientFinish
  cases isCon <;> cases cli.userown <;> exact ⟨rfl, rfl⟩

/-- A start makes an absent timer exist. -/
theorem ecTimerStart_fresh (ti : EcTimer) (maxRetry : Nat) (positive : maxRetry ≠ 0) (absent : ti.evti = false) :
    ecTimerStart ti maxRetry = ({ti with retriesLeft := maxRetry, evti := true, pending := true}, 0) := by
  unfold ecTimerStart
  rw [if_neg positive, if_neg (by simp [absent])]

/-- A restarted timer exists before and after. -/
theorem coapTimerRestart_some {ti next : EcTimer} (sound : ti.Sound) (restarted : coapTimerRestart ti = some next) :
    next.evti = ti.evti ∧ next.Sound := by
  unfold coapTimerRestart at restarted
  split at restarted
  · cases restarted
    exact ⟨rfl, sound⟩
  · unfold ecTimerRestart at restarted
    split at restarted
    · rename_i found
      cases restarted
      exact ⟨rfl, fun _ => found⟩
    · cases restarted

/-- What a permitted entry into a state leaves; timers that the state has no use for go at the end. -/
structure ClientEntered (before : EcClient) (next : EcCliState) (entered : EcClient) : Prop where
  timers : ClientTimers entered.core
  sound : ecClientStateIsFinal next = false → ClientSound {entered.core with state := next}
  confirmable : entered.flow.conn.isConfirmable = before.flow.conn.isConfirmable
  dnsReq : entered.dnsReq = before.dnsReq

/-- A final state is entered without any further work on the timers. -/
theorem ClientEntered.of_final {cli entered : EcClient} {next : EcCliState} (sound : ClientSound cli.core)
    (final : ecClientStateIsFinal next = true) (same : ∃ log, entered = {cli with sent := log}) :
    ClientEntered cli next entered := by
  obtain ⟨log, rfl⟩ := same
  exact ⟨sound.toClientTimers, by simp [final], rfl, rfl⟩

/-- Before the first send no timer exists. -/
theorem ClientSound.unsent {cli : EcClient} (sound : ClientSound cli.core)
    (early : cli.state ≠ .reqSent ∧ cli.state ≠ .reqAckd ∧ cli.state ≠ .coapRetry ∧ cli.state ≠ .waitNfy) :
    cli.app.evti = false ∧ cli.coap.evti = false ∧ cli.obs.evti = false := by
  obtain ⟨notSent, notAckd, notRetry, notObserving⟩ := early
  refine ⟨Bool.eq_false_iff.mpr fun found => ?_, Bool.eq_false_iff.mpr fun found => ?_,
    Bool.eq_false_iff.mpr fun found => ?_⟩
  · rcases sound.app found with here | here | here
    · exact notSent here
    · exact notAckd here
    · exact notRetry here
  · rcases sound.coap found with here | here
    · exact notSent here
    · exact notRetry here
  · exact notObserving (sound.obs found)

/-- The observation timer exists for observers only. -/
theorem ClientSound.unobserved {cli : EcClient} (sound : ClientSound cli.core) (silent : cli.state ≠ .waitNfy) :
    cli.obs.evti = false :=
  Bool.eq_false_iff.mpr fun found => silent (sound.obs found)

/-- The first send starts the timers, and a retransmission arms the second one again. -/
theorem ecClientEnter_reqSent (platform : Platform) (sent : Bool) (w : CliWork) (sound : ClientSound w.cli.core)
    (allowed : ecClientCheckTransition w.cli.state .reqSent = true) :
    Avoids EcFault.Exits (fun entered => ClientEntered w.cli .reqSent entered.cli)
      (ecClientEnter platform sent (w.cli.flow.conn.isConfirmable.getD false) .reqSent w) := by
  have origin : w.cli.state = .dnsOk ∨ w.cli.state = .coapRetry := by
    simpa [ecClientCheckTransition] using allowed
  unfold ecClientEnter
  dsimp only
  rcases origin with resolved | retried
  · rw [if_pos resolved]
    obtain ⟨noApp, noCoap, noObs⟩ := sound.unsent (by simp [resolved])
    have app := ecTimerStart_fresh w.cli.app 1 (by decide) noApp
    have coap := ecTimerStart_fresh {w.cli.coap with tout := ⟨ecCoapRespTimeout, 0⟩} ecCoapMaxRetransmit (by decide)
      noCoap
    have idle := sound.obsExists.idle noObs
    have quiet := sound.coapExists.idle noCoap
    unfold ecCliStartAppTimer ecCliStartCoapTimer coapTimerStart
    rw [app, if_neg (by simp), coap]
    cases con : w.cli.flow.conn.isConfirmable.getD false with
    | true =>
        refine ⟨⟨fun _ => rfl, fun _ => rfl, sound.obsExists, fun _ => con⟩, fun _ => ⟨⟨fun _ => rfl, fun _ => rfl,
          sound.obsExists, fun _ => con⟩, fun _ => Or.inl rfl, fun _ => Or.inl rfl, fun found => ?_⟩, rfl, rfl⟩
        exact absurd found (by simp [EcClient.core, noObs])
    | false =>
        refine ⟨⟨fun _ => rfl, sound.coapExists, sound.obsExists, sound.confirmable⟩, fun _ => ⟨⟨fun _ => rfl,
          sound.coapExists, sound.obsExists, sound.confirmable⟩, fun _ => Or.inl rfl, fun _ => Or.inl rfl,
          fun found => ?_⟩, rfl, rfl⟩
        exact absurd found (by simp [EcClient.core, noObs])
  · rw [if_neg (by simp [retried]), if_pos retried]
    unfold ecCliRestartCoapTimer
    have noObs := sound.unobserved (by simp [retried])
    cases restarted : coapTimerRestart w.cli.coap with
    | none => exact fun exits => exits
    | some coap =>
        obtain ⟨same, kept⟩ := coapTimerRestart_some sound.coapExists restarted
        have timers : ClientTimers {w.cli with coap := coap}.core :=
          ⟨sound.appExists, kept, sound.obsExists, fun found => sound.confirmable (same ▸ found)⟩
        exact ⟨timers, fun _ => ⟨⟨timers.appExists, timers.coapExists, timers.obsExists, timers.confirmable⟩,
          fun _ => Or.inl rfl, fun _ => Or.inl rfl, fun found => absurd found (by simp [EcClient.core, noObs])⟩,
          rfl, rfl⟩

/-- An absent observation timer can be started. -/
theorem ecCliStartObsTimer_fresh (order : ByteOrder) (cli : EcClient) (absent : cli.obs.evti = false) :
    ∃ obs : EcTimer, ecCliStartObsTimer order cli = ({cli with obs := obs}, 0) ∧ obs.evti = true ∧
      obs.pending = true := by
  have started : ∀ tout : TimeVal, ecTimerStart {cli.obs with tout := tout} 1 =
      ({cli.obs with retriesLeft := 1, evti := true, pending := true, tout := tout}, 0) :=
    fun tout => ecTimerStart_fresh {cli.obs with tout := tout} 1 (by decide) absent
  unfold ecCliStartObsTimer
  dsimp only
  rw [started]
  exact ⟨_, rfl, rfl, rfl⟩

/-- The first notification takes the place of the running timers, and a later one arms its own again. -/
theorem ecClientEnter_waitNfy (platform : Platform) (sent : Bool) (w : CliWork) (sound : ClientSound w.cli.core)
    (allowed : ecClientCheckTransition w.cli.state .waitNfy = true) :
    Avoids EcFault.Exits (fun entered => ClientEntered w.cli .waitNfy entered.cli)
      (ecClientEnter platform sent (w.cli.flow.conn.isConfirmable.getD false) .waitNfy w) := by
  have origin : (w.cli.state = .reqSent ∨ w.cli.state = .reqAckd) ∨ w.cli.state = .waitNfy := by
    simpa [ecClientCheckTransition] using allowed
  unfold ecClientEnter
  dsimp only
  rcases origin with first | again
  · have silent : w.cli.state ≠ .waitNfy := by
      rcases first with here | here <;> simp [here]
    rw [if_neg silent]
    have app := ecTimerRemove_idle sound.appExists
    have coap := sound.quenched
    unfold EcClient.core at coap
    have idle : ∀ quenched : EcClient, quenched.app.Idle → quenched.coap.Idle → quenched.obs = w.cli.obs →
        quenched.flow = w.cli.flow → quenched.dnsReq = w.cli.dnsReq →
        Avoids EcFault.Exits (fun entered : CliWork => ClientEntered w.cli .waitNfy entered.cli)
          (if (ecCliStartObsTimer platform.order quenched).2 ≠ 0 then .error .timerFailed
            else .ok {w with cli := (ecCliStartObsTimer platform.order quenched).1}) := by
      intro quenched noApp noCoap sameObs sameFlow sameDns
      have absent : quenched.obs.evti = false := sameObs ▸ sound.unobserved silent
      obtain ⟨obs, started, present, _⟩ := ecCliStartObsTimer_fresh platform.order quenched absent
      simp only [started, ne_eq, not_true_eq_false, if_false, avoids_ok]
      have timers : ClientTimers {quenched with obs := obs}.core :=
        ⟨fun armed => absurd armed (by simp [EcClient.core, noApp.2]),
          fun armed => absurd armed (by simp [EcClient.core, noCoap.2]), fun _ => present,
          fun found => absurd found (by simp [EcClient.core, noCoap.1])⟩
      refine ⟨timers, fun _ => ⟨⟨timers.appExists, timers.coapExists, timers.obsExists, timers.confirmable⟩, ?_, ?_,
        fun _ => rfl⟩, congrArg (fun f => f.conn.isConfirmable) sameFlow, sameDns⟩
      · exact fun found => absurd found (by simp [EcClient.core, noApp.1])
      · exact fun found => absurd found (by simp [EcClient.core, noCoap.1])
    cases con : w.cli.flow.conn.isConfirmable.getD false with
    | true =>
        simp only [con, if_true] at coap
        exact idle (ecCliStopCoapTimer (ecCliStopAppTimer w.cli)) app coap rfl rfl rfl
    | false =>
        simp only [con, Bool.false_eq_true, if_false] at coap
        exact idle (ecCliStopAppTimer w.cli) app coap rfl rfl rfl
  · rw [if_pos again]
    unfold ecCliRestartObsTimer ecTimerRestart
    rcases Bool.eq_false_or_eq_true w.cli.obs.evti with found | absent
    · rw [if_pos found]
      have timers : ClientTimers {w.cli with obs := {w.cli.obs with pending := true}}.core :=
        ⟨sound.appExists, sound.coapExists, fun _ => found, sound.confirmable⟩
      refine ⟨timers, fun _ => ⟨⟨timers.appExists, timers.coapExists, timers.obsExists, timers.confirmable⟩,
        fun present => ?_, fun present => ?_, fun _ => rfl⟩, rfl, rfl⟩
      · exact absurd (sound.app present) (by simp [EcClient.core, again])
      · exact absurd (sound.coap present) (by simp [EcClient.core, again])
    · rw [if_neg (by simp [absent])]
      exact fun exits => exits

/-- A permitted entry into a state keeps the timers in order and ends in no fault that exits. -/
theorem ecClientEnter_sound (platform : Platform) (sent : Bool) (next : EcCliState) (w : CliWork)
    (sound : ClientSound w.cli.core) (allowed : ecClientCheckTransition w.cli.state next = true) :
    Avoids EcFault.Exits (fun entered => ClientEntered w.cli next entered.cli)
      (ecClientEnter platform sent (w.cli.flow.conn.isConfirmable.getD false) next w) := by
  cases next with
  | reqSent => exact ecClientEnter_reqSent platform sent w sound allowed
  | waitNfy => exact ecClientEnter_waitNfy platform sent w sound allowed
  | reqAckd =>
      have origin : w.cli.state = .reqSent := by simpa [ecClientCheckTransition] using allowed
      have noObs := sound.unobserved (by simp [origin])
      have coap := sound.quenched
      unfold EcClient.core at coap
      have kept : ∀ cli : EcClient, cli.coap.Idle → cli.app = w.cli.app → cli.obs = w.cli.obs →
          cli.flow = w.cli.flow → cli.dnsReq = w.cli.dnsReq → ClientEntered w.cli .reqAckd cli := by
        intro cli noCoap sameApp sameObs sameFlow sameDns
        have timers : ClientTimers cli.core :=
          ⟨by simpa [EcClient.core, sameApp] using sound.appExists,
            fun armed => absurd armed (by simp [EcClient.core, noCoap.2]),
            by simpa [EcClient.core, sameObs] using sound.obsExists,
            fun found => absurd found (by simp [EcClient.core, noCoap.1])⟩
        refine ⟨timers, fun _ => ⟨⟨timers.appExists, timers.coapExists, timers.obsExists, timers.confirmable⟩,
          fun _ => Or.inr (Or.inl rfl), ?_, ?_⟩, congrArg (fun f => f.conn.isConfirmable) sameFlow, sameDns⟩
        · exact fun found => absurd found (by simp [EcClient.core, noCoap.1])
        · exact fun found => absurd found (by simp [EcClient.core, sameObs, noObs])
      unfold ecClientEnter
      dsimp only
      cases con : w.cli.flow.conn.isConfirmable.getD false with
      | true =>
          simp only [con, if_true] at coap
          exact kept (ecCliStopCoapTimer w.cli) coap rfl rfl rfl rfl
      | false =>
          simp only [con, Bool.false_eq_true, if_false] at coap
          exact kept w.cli coap rfl rfl rfl rfl
  | reqDone =>
      refine ClientEntered.of_final sound rfl ?_
      split
      · exact ecClientSendAck_frame platform sent w
      · exact ⟨_, rfl⟩
  | dnsOk =>
      have early : w.cli.state ≠ .reqSent ∧ w.cli.state ≠ .reqAckd ∧ w.cli.state ≠ .coapRetry ∧
          w.cli.state ≠ .waitNfy := by
        refine ⟨?_, ?_, ?_, ?_⟩ <;> (intro here; simp [ecClientCheckTransition, ecClientStateIsFinal, here] at allowed)
      obtain ⟨noApp, noCoap, noObs⟩ := sound.unsent early
      exact ⟨sound.toClientTimers, fun _ => ClientSound.of_idle (sound.appExists.idle noApp)
        (sound.coapExists.idle noCoap) (sound.obsExists.idle noObs), rfl, rfl⟩
  | coapRetry =>
      have origin : w.cli.state = .reqSent := by simpa [ecClientCheckTransition] using allowed
      have noObs := sound.unobserved (by simp [origin])
      have timers := sound.toClientTimers
      exact ⟨timers, fun _ => ⟨⟨timers.appExists, timers.coapExists, timers.obsExists, timers.confirmable⟩,
        fun _ => Or.inr (Or.inr rfl), fun _ => Or.inr rfl,
        fun found => absurd found (by simp [EcClient.core, noObs])⟩, rfl, rfl⟩
  | none => exact absurd allowed (by simp [ecClientCheckTransition])
  | internalErr => exact ClientEntered.of_final sound rfl ⟨_, rfl⟩
  | dnsFailed => exact ClientEntered.of_final sound rfl ⟨_, rfl⟩
  | sendFailed => exact ClientEntered.of_final sound rfl ⟨_, rfl⟩
  | appTimeout => exact ClientEntered.of_final sound rfl ⟨_, rfl⟩
  | coapTimeout => exact ClientEntered.of_final sound rfl ⟨_, rfl⟩
  | reqRst => exact ClientEntered.of_final sound rfl ⟨_, rfl⟩
  | obsTimeout => exact ClientEntered.of_final sound rfl ⟨_, rfl⟩

/-- A permitted transition keeps the timers in order and reaches the state that it asks for. -/
theorem ecClientSetState_sound (platform : Platform) (sent : Bool) (w : CliWork) (next : EcCliState)
    (sound : ClientSound w.cli.core) (allowed : ecClientCheckTransition w.cli.state next = true) :
    Avoids EcFault.Exits (fun moved => ClientSound moved.1.cli.core ∧ moved.1.cli.state = next ∧
        moved.1.cli.dnsReq = w.cli.dnsReq) (ecClientSetState platform sent w next) := by
  have entering := ecClientEnter_sound platform sent next w sound allowed
  unfold ecClientSetState
  rw [if_neg (by simp [allowed])]
  dsimp only
  cases outcome : ecClientEnter platform sent (w.cli.flow.conn.isConfirmable.getD false) next w with
  | error fault =>
      rw [outcome] at entering
      exact entering
  | ok entered =>
      rw [outcome] at entering
      obtain ⟨timers, kept, con, dns⟩ := entering
      have finished : ∀ cli : EcClient, ClientTimers cli.core →
          cli.flow.conn.isConfirmable = w.cli.flow.conn.isConfirmable → cli.state = next →
          cli.dnsReq = w.cli.dnsReq →
          ClientSound (ecClientFinish (w.cli.flow.conn.isConfirmable.getD false) cli).core ∧
            (ecClientFinish (w.cli.flow.conn.isConfirmable.getD false) cli).state = next ∧
            (ecClientFinish (w.cli.flow.conn.isConfirmable.getD false) cli).dnsReq = w.cli.dnsReq := by
        intro cli existing sameCon state sameDns
        have done := ecClientFinish_sound cli existing
        obtain ⟨sameState, answered⟩ := ecClientFinish_frame (w.cli.flow.conn.isConfirmable.getD false) cli
        rw [sameCon] at done
        exact ⟨done, sameState.trans state, answered.trans sameDns⟩
      have moved : ClientTimers (entered.cli.enter next).core :=
        ⟨timers.appExists, timers.coapExists, timers.obsExists, timers.confirmable⟩
      obtain ⟨log, told⟩ := ecClientRstPeer_frame platform sent {entered with cli := entered.cli.enter next}
      dsimp only
      split
      · rename_i ends
        split
        · rw [told]
          exact finished _ moved con rfl dns
        · exact finished _ moved con rfl dns
      · rename_i continues
        have ongoing : ecClientStateIsFinal next = false := by
          cases final : ecClientStateIsFinal next with
          | false => rfl
          | true => simp [final] at continues
        split
        · rename_i cancelled
          simp [cancelled] at continues
        · exact ⟨kept ongoing, rfl, dns⟩

theorem ClientQuiet.resolved {cli : EcClient} (quiet : ClientQuiet cli) (later : cli.state ≠ .none) :
    cli.dnsReq = false :=
  Bool.eq_false_iff.mpr fun asked => later (quiet.resolving asked)

/-- A permitted transition of an answered client, but for the start of a retransmission, ends quiet. -/
theorem ecClientSetState_quiet (platform : Platform) (sent : Bool) (w : CliWork) (next : EcCliState)
    (sound : ClientSound w.cli.core) (answered : w.cli.dnsReq = false) (settles : next ≠ .coapRetry)
    (allowed : ecClientCheckTransition w.cli.state next = true) :
    Avoids EcFault.Exits (fun moved => ClientQuiet moved.1.cli ∧ moved.1.cli.state = next ∧ moved.1.cli.dnsReq = false)
      (ecClientSetState platform sent w next) := by
  refine (ecClientSetState_sound platform sent w next sound allowed).weaken fun moved held => ?_
  obtain ⟨kept, state, dns⟩ := held
  have still := dns.trans answered
  exact ⟨⟨kept, by rw [state]; exact settles, fun asked => absurd (still.symm.trans asked) (by decide)⟩, state, still⟩

/-- A request that the table does not hold is answered by `errx`. -/
theorem ecClientSetState_rejected (platform : Platform) (sent : Bool) (w : CliWork) (next : EcCliState)
    (refused : ecClientCheckTransition w.cli.state next = false) :
    ecClientSetState platform sent w next = .error (.clientRejected w.cli.state next) := by
  unfold ecClientSetState
  rw [if_pos refused]

theorem checkTransition_reqAckd (state : EcCliState) :
    ecClientCheckTransition state .reqAckd = true ↔ state = .reqSent := by
  simp [ecClientCheckTransition]

theorem checkTransition_reqRst (state : EcCliState) :
    ecClientCheckTransition state .reqRst = true ↔ state.Awaiting := by
  simp [ecClientCheckTransition, EcCliState.Awaiting, or_assoc]

/-- Both transitions that a response asks for are permitted in the same states. -/
theorem checkTransition_response (state : EcCliState) (on : Bool) :
    ecClientCheckTransition state (if on then .waitNfy else .reqDone) = true ↔ state.Awaiting := by
  cases on <;> simp [ecClientCheckTransition, EcCliState.Awaiting, or_assoc]

/-- The Observe counter and the clock show that a notification is out of date. -/
def EcClient.Stale (order : ByteOrder) (cli : EcClient) (rc : EcRc) (res : EcPdu) (now : Nat) : Prop :=
  cli.observe.on = true ∧ rc ≠ ecInternalServerError ∧ rc ≠ ecDeleted ∧
    ∃ oCnt, ecOptsGetObserve order res.opts = some oCnt ∧ cli.observe.lastCnt - oCnt < 0x8000 ∧
      now < cli.observe.lastTs + 0x4000

/-- A response is accepted when it decodes, has the token of the request and is not out of date. -/
def EcClient.Accepts (order : ByteOrder) (cli : EcClient) (h : EcHdr) (input : Incoming) : Prop :=
  let body := ecClientBody input.raw input.beyond
  body.decoded.rc = ecRcUnset ∧ (∀ t, ecOptsGet body.decoded.opts .token = some t → t.value = cli.flow.token) ∧
    ecIsRespCode h.code.toNat ∧
    ∀ res, (cli.resSet ++ [body.pdu input.raw h]).head? = some res → ¬ cli.Stale order h.code.toNat res input.now

/-- A client decides on an observation without any change to its timers or its state. -/
theorem ecClientHandleObservation_frame (order : ByteOrder) (cli : EcClient) (now : Nat) :
    ∃ observe, (ecClientHandleObservation order cli now).1 = {cli with observe := observe} := by
  unfold ecClientHandleObservation
  split
  · exact ⟨_, rfl⟩
  · dsimp only
    split
    · split
      · exact ⟨_, rfl⟩
      · split
        · exact ⟨_, rfl⟩
        · split
          · exact ⟨_, rfl⟩
          · split <;> exact ⟨_, rfl⟩
    · exact ⟨_, rfl⟩

/-- Only a stale notification fails. -/
theorem ecClientHandleObservation_ok_iff (order : ByteOrder) (cli : EcClient) (now : Nat) (res : EcPdu)
    (first : cli.resSet.head? = some res) :
    (ecClientHandleObservation order cli now).2 = 0 ↔ ¬ cli.Stale order cli.flow.respCode res now := by
  unfold ecClientHandleObservation ecClientGetResponsePdu EcClient.Stale
  rw [first]
  dsimp only
  rcases Bool.eq_false_or_eq_true cli.observe.on with on | off
  · rw [if_pos on]
    split
    · rename_i failed
      simp [failed]
    · rename_i notFailed
      cases counter : ecOptsGetObserve order res.opts with
      | none => simp
      | some oCnt =>
          dsimp only
          split
          · rename_i deleted
            simp [deleted]
          · rename_i notDeleted
            split
            · rename_i old
              have refuted : (-1 : Int) ≠ 0 := by decide
              exact ⟨fun zero => absurd zero refuted,
                fun fresh => absurd ⟨on, notFailed, notDeleted, oCnt, rfl, old⟩ fresh⟩
            · rename_i current
              refine ⟨fun _ stale => ?_, fun _ => rfl⟩
              obtain ⟨_, _, _, other, same, old⟩ := stale
              cases same
              exact current old
  · simp [off]

/-- A response is taken in without any change to the timers, the state or the resolver. -/
theorem ecClientTakeResponse_frame (platform : Platform) (cli : EcClient) (h : EcHdr) (input : Incoming) :
    (ecClientTakeResponse platform cli h input).1.core = cli.core ∧
      (ecClientTakeResponse platform cli h input).1.dnsReq = cli.dnsReq := by
  have coded : (ecFlowSetRespCode cli.flow h.code.toNat).1.conn = cli.flow.conn := by
    unfold ecFlowSetRespCode
    split <;> rfl
  unfold ecClientTakeResponse
  dsimp only
  split
  · exact ⟨rfl, rfl⟩
  · split
    · exact ⟨rfl, rfl⟩
    · split
      · exact ⟨rfl, rfl⟩
      · have observed := ecClientHandleObservation_frame platform.order {cli with
          flow := (ecFlowSetRespCode cli.flow h.code.toNat).1
          resSet := cli.resSet ++ [(ecClientBody input.raw input.beyond).pdu input.raw h]} input.now
        obtain ⟨observe, same⟩ := observed
        split <;> (dsimp only; rw [same]; exact ⟨by simp [EcClient.core, coded], rfl⟩)

/-- Exactly the accepted responses ask for a transition, and it is one of the two that a response can ask for. -/
theorem ecClientTakeResponse_next (platform : Platform) (cli : EcClient) (h : EcHdr) (input : Incoming) :
    (¬ cli.Accepts platform.order h input ∧ (ecClientTakeResponse platform cli h input).2 = none) ∨
      (cli.Accepts platform.order h input ∧ ∃ on : Bool,
        (ecClientTakeResponse platform cli h input).2 = some (if on then .waitNfy else .reqDone)) := by
  unfold ecClientTakeResponse EcClient.Accepts
  dsimp only
  split
  · rename_i undecoded
    exact Or.inl ⟨fun accepted => undecoded accepted.1, rfl⟩
  · rename_i decoded
    split
    · rename_i mismatch
      refine Or.inl ⟨fun accepted => ?_, rfl⟩
      cases token : ecOptsGet (ecClientBody input.raw input.beyond).decoded.opts .token with
      | none => simp [token] at mismatch
      | some t => simp [token, accepted.2.1 t token] at mismatch
    · rename_i matching
      have tokens : ∀ t, ecOptsGet (ecClientBody input.raw input.beyond).decoded.opts .token = some t →
          t.value = cli.flow.token := by
        intro t found
        simpa [found] using matching
      unfold ecFlowSetRespCode
      split
      · rename_i response
        dsimp only
        rw [if_neg (by simp)]
        have first : ∃ res, (cli.resSet ++ [(ecClientBody input.raw input.beyond).pdu input.raw h]).head? = some res := by
          cases cli.resSet with
          | nil => exact ⟨_, rfl⟩
          | cons res rest => exact ⟨res, rfl⟩
        obtain ⟨res, found⟩ := first
        have judged := ecClientHandleObservation_ok_iff platform.order {cli with
          flow := {cli.flow with respCode := h.code.toNat}
          resSet := cli.resSet ++ [(ecClientBody input.raw input.beyond).pdu input.raw h]} input.now res found
        split
        · rename_i failed
          refine Or.inl ⟨fun accepted => failed (judged.mpr ?_), rfl⟩
          exact accepted.2.2.2 res found
        · rename_i passed
          refine Or.inr ⟨⟨by simpa using decoded, tokens, response, fun other same => ?_⟩, _, rfl⟩
          rw [found] at same
          cases same
          exact judged.mp (by simpa using passed)
      · rename_i notResponse
        exact Or.inl ⟨fun accepted => notResponse accepted.2.2.1, rfl⟩

/-- The states in which a new message asks for permitted transitions only. -/
def EcClient.Welcomes (order : ByteOrder) (cli : EcClient) (h : EcHdr) (input : Incoming) : Prop :=
  if h.code = 0 then (h.t = .ack → cli.state = .reqSent) ∧ (h.t = .rst → cli.state.Awaiting)
  else cli.Accepts order h input → cli.state.Awaiting

/-- A message that the client welcomes leaves it quiet. -/
theorem ecClientHandleNew_quiet (platform : Platform) (w : CliWork) (h : EcHdr) (input : Incoming)
    (quiet : ClientQuiet w.cli) (welcome : w.cli.Welcomes platform.order h input) :
    Avoids EcFault.Exits (fun handled => ClientQuiet handled.1.cli) (ecClientHandleNew platform w h input) := by
  have later : w.cli.state.Awaiting → w.cli.dnsReq = false := by
    intro awaiting
    refine quiet.resolved ?_
    rcases awaiting with here | here | here <;> simp [here]
  unfold EcClient.Welcomes at welcome
  unfold ecClientHandleNew
  split
  · rename_i empty
    rw [if_pos empty] at welcome
    rw [avoids_map]
    unfold ecClientHandleEmptyPdu
    cases type : h.t with
    | ack =>
        have sent := welcome.1 type
        rw [avoids_map]
        exact (ecClientSetState_quiet platform input.sent w .reqAckd quiet.sound (later (Or.inl sent)) (by decide)
          ((checkTransition_reqAckd _).mpr sent)).weaken fun moved held => held.1
    | rst =>
        have awaiting := welcome.2 type
        rw [avoids_map]
        exact (ecClientSetState_quiet platform input.sent w .reqRst quiet.sound (later awaiting) (by decide)
          ((checkTransition_reqRst _).mpr awaiting)).weaken fun moved held => held.1
    | con => exact quiet
    | non => exact quiet
  · rename_i response
    rw [if_neg response] at welcome
    obtain ⟨core, dns⟩ := ecClientTakeResponse_frame platform w.cli h input
    have state : (ecClientTakeResponse platform w.cli h input).1.state = w.cli.state := congrArg ClientCore.state core
    rcases ecClientTakeResponse_next platform w.cli h input with ⟨_, refused⟩ | ⟨accepted, on, taken⟩
    · dsimp only
      rw [refused]
      exact ⟨core ▸ quiet.sound, by rw [state]; exact quiet.settled, fun asked => state.trans (quiet.resolving (dns ▸ asked))⟩
    · have awaiting := welcome accepted
      dsimp only
      rw [taken]
      rw [avoids_map]
      have moves := ecClientSetState_quiet platform input.sent
        {w with cli := (ecClientTakeResponse platform w.cli h input).1} (if on then .waitNfy else .reqDone)
        (core ▸ quiet.sound) (dns.trans (later awaiting)) (by cases on <;> decide)
        ((checkTransition_response _ on).mpr (by rw [state]; exact awaiting))
      refine moves.weaken fun moved held => ?_
      split
      · exact held.1
      · split
        · exact ⟨held.1.sound, held.1.settled, held.1.resolving⟩
        · exact held.1

/-- A message that the client does not welcome ends the process. -/
theorem ecClientHandleNew_rejected (platform : Platform) (w : CliWork) (h : EcHdr) (input : Incoming)
    (unwelcome : ¬ w.cli.Welcomes platform.order h input) :
    ∃ next, ecClientHandleNew platform w h input = .error (.clientRejected w.cli.state next) := by
  unfold EcClient.Welcomes at unwelcome
  unfold ecClientHandleNew
  split
  · rename_i empty
    rw [if_pos empty] at unwelcome
    unfold ecClientHandleEmptyPdu
    cases type : h.t with
    | ack =>
        have refused : ecClientCheckTransition w.cli.state .reqAckd = false := by
          refine Bool.eq_false_iff.mpr fun allowed => unwelcome ?_
          exact ⟨fun _ => (checkTransition_reqAckd _).mp allowed, fun other => by simp [type] at other⟩
        dsimp only
        rw [ecClientSetState_rejected platform input.sent w .reqAckd refused]
        exact ⟨_, rfl⟩
    | rst =>
        have refused : ecClientCheckTransition w.cli.state .reqRst = false := by
          refine Bool.eq_false_iff.mpr fun allowed => unwelcome ?_
          exact ⟨fun other => by simp [type] at other, fun _ => (checkTransition_reqRst _).mp allowed⟩
        dsimp only
        rw [ecClientSetState_rejected platform input.sent w .reqRst refused]
        exact ⟨_, rfl⟩
    | con => exact absurd ⟨fun other => by simp [type] at other, fun other => by simp [type] at other⟩ unwelcome
    | non => exact absurd ⟨fun other => by simp [type] at other, fun other => by simp [type] at other⟩ unwelcome
  · rename_i response
    rw [if_neg response] at unwelcome
    obtain ⟨core, _⟩ := ecClientTakeResponse_frame platform w.cli h input
    have state : (ecClientTakeResponse platform w.cli h input).1.state = w.cli.state := congrArg ClientCore.state core
    rcases ecClientTakeResponse_next platform w.cli h input with ⟨refused, _⟩ | ⟨accepted, on, taken⟩
    · exact absurd (fun accepted => absurd accepted refused) unwelcome
    · have refused : ecClientCheckTransition (ecClientTakeResponse platform w.cli h input).1.state
          (if on then .waitNfy else .reqDone) = false := by
        refine Bool.eq_false_iff.mpr fun allowed => unwelcome fun _ => ?_
        rw [← state]
        exact (checkTransition_response _ on).mp allowed
      dsimp only
      rw [taken]
      dsimp only
      rw [ecClientSetState_rejected platform input.sent _ _ refused]
      exact ⟨_, by rw [← state]; rfl⟩

/-- The condition on an event under which the client asks for permitted transitions only. -/
def ClientAllowed (platform : Platform) (w : CliWork) (event : ClientEvent) : Prop :=
  match event with
  | .datagram input =>
      w.cli.freed = false → w.cli.registered = true → ∀ h, ecClientHeader platform.order input.raw = some h →
        ecDupsSearch platform w.dups h.mid input.peer = none → w.cli.Welcomes platform.order h input
  | _ => True

/-- The postcondition of the resolver's callbacks while the transaction goes on. -/
def ClientOpened (opened : CliWork × Bool) : Prop :=
  ClientQuiet opened.1.cli ∧ opened.1.cli.dnsReq = false

/-- A permitted transition of the resolver's callbacks leaves a client that goes on. -/
theorem ecClientSetState_opens (platform : Platform) (v : CliWork) {next : EcCliState} (goesOn : Bool)
    (sound : ClientSound v.cli.core) (answered : v.cli.dnsReq = false) (settles : next ≠ .coapRetry)
    (allowed : ecClientCheckTransition v.cli.state next = true) :
    Avoids EcFault.Exits ClientOpened
      ((ecClientSetState platform false v next).map fun moved => (moved.1, goesOn)) := by
  rw [avoids_map]
  exact (ecClientSetState_quiet platform false v next sound answered settles allowed).weaken
    fun moved held => ⟨held.1, held.2.2⟩

/-- The first address that takes the request moves the client on from the resolved state. -/
theorem ecClientConnect_quiet (platform : Platform) (ais : List AddrInfo) (w : CliWork)
    (quiet : ClientQuiet w.cli) (answered : w.cli.dnsReq = false) (resolved : w.cli.state = .dnsOk) :
    Avoids EcFault.Exits ClientOpened (ecClientConnect platform ais w) := by
  induction ais generalizing w with
  | nil => exact ⟨quiet, answered⟩
  | cons ai ais ih =>
      have moved : ∀ cli : EcClient, cli.core = w.cli.core → cli.dnsReq = w.cli.dnsReq → cli.state = w.cli.state →
          ClientQuiet cli := by
        intro cli core dns state
        exact ⟨core ▸ quiet.sound, by rw [state]; exact quiet.settled, by rw [dns, state]; exact quiet.resolving⟩
      have permitted : ecClientCheckTransition w.cli.state .reqSent = true := by
        rw [resolved]
        rfl
      unfold ecClientConnect
      dsimp only
      split
      · exact ih _ (moved _ rfl rfl rfl) answered resolved
      · split
        · exact ⟨moved _ rfl rfl rfl, answered⟩
        · split
          · exact ih _ (moved _ rfl rfl rfl) answered resolved
          · split
            · exact ecClientSetState_opens platform _ true quiet.sound answered (by decide) permitted
            · exact ecClientSetState_opens platform _ false quiet.sound answered (by decide) rfl

theorem ecClientOpen_quiet (platform : Platform) (env : DnsEnv) (ais : List AddrInfo) (w : CliWork)
    (quiet : ClientQuiet w.cli) (answered : w.cli.dnsReq = false) (resolved : w.cli.state = .dnsOk) :
    Avoids EcFault.Exits ClientOpened (ecClientOpen platform env ais w) := by
  unfold ecClientOpen
  dsimp only
  split
  · have permitted : ecClientCheckTransition w.cli.state .reqSent = true := by
      rw [resolved]
      rfl
    split
    · exact ecClientSetState_opens platform _ false quiet.sound answered (by decide) rfl
    · exact ecClientSetState_opens platform _ true quiet.sound answered (by decide) permitted
  · exact ecClientConnect_quiet platform ais _ ⟨quiet.sound, quiet.settled, quiet.resolving⟩ answered resolved

/-- The answer of the resolver leaves a quiet client, whatever it is. -/
theorem ecClientDnsCb_quiet (platform : Platform) (env : DnsEnv) (w : CliWork) (quiet : ClientQuiet w.cli)
    (asked : w.cli.dnsReq = true) :
    Avoids EcFault.Exits (fun next => ClientQuiet next.cli) (ecClientDnsCb platform env w) := by
  have origin := quiet.resolving asked
  unfold ecClientDnsCb
  dsimp only
  cases env.ais with
  | none =>
      rw [avoids_map]
      refine Avoids.weaken (ecClientSetState_quiet platform false _ .dnsFailed ?_ rfl (by decide) ?_)
        fun moved held => held.1
      · exact quiet.sound
      change ecClientCheckTransition w.cli.state .dnsFailed = true
      rw [origin]
      rfl
  | some ais =>
      have resolving := ecClientSetState_quiet platform false
        {w with cli := {w.cli with dnsReq := false}} .dnsOk quiet.sound rfl (by decide) (by
          change ecClientCheckTransition w.cli.state .dnsOk = true
          rw [origin]
          rfl)
      dsimp only
      cases outcome : ecClientSetState platform false {w with cli := {w.cli with dnsReq := false}} .dnsOk with
      | error fault =>
          rw [outcome] at resolving
          exact resolving
      | ok resolved =>
          rw [outcome] at resolving
          obtain ⟨still, state, answered⟩ := resolving
          dsimp only
          split
          · rw [avoids_map]
            refine Avoids.weaken (ecClientSetState_quiet platform false _ .internalErr ?_ ?_ (by decide) rfl)
              fun moved held => held.1
            · exact still.sound
            · exact answered
          · have opening := ecClientOpen_quiet platform env ais {resolved.1 with cli := {resolved.1.cli with
              req := (ecPduEncodeRequest platform.order env.rng resolved.1.cli.flow resolved.1.cli.req).1}}
              ⟨still.sound, still.settled, still.resolving⟩ answered state
            split
            · rename_i fault failed
              rw [failed] at opening
              exact opening
            · rename_i opened goesOn finished
              rw [finished] at opening
              obtain ⟨calm, done⟩ := opening
              split
              · exact calm
              · split
                · rw [avoids_map]
                  exact (ecClientSetState_quiet platform false opened .internalErr calm.sound done (by decide)
                    rfl).weaken fun moved held => held.1
                · exact ⟨calm.sound, calm.settled, calm.resolving⟩

/-- A fired timer that was in order is in order. -/
theorem EcTimer.fired_sound (ti : EcTimer) : ti.fired.Sound := fun armed => absurd armed (by simp [EcTimer.fired])

/-- The application timer ends the transaction. -/
theorem ecCliAppTimeout_quiet (platform : Platform) (sent : Bool) (w : CliWork) (quiet : ClientQuiet w.cli)
    (armed : w.cli.app.pending = true) :
    Avoids EcFault.Exits (fun next => ClientQuiet next.cli)
      (ecCliAppTimeout platform sent {w with cli := {w.cli with app := w.cli.app.fired}}) := by
  have origin : w.cli.state = .reqSent ∨ w.cli.state = .reqAckd := by
    rcases quiet.sound.app (quiet.sound.appExists armed) with here | here | here
    · exact Or.inl here
    · exact Or.inr here
    · exact absurd here quiet.settled
  unfold ecCliAppTimeout
  rw [avoids_map]
  refine Avoids.weaken (ecClientSetState_quiet platform sent _ .appTimeout ?_ ?_ (by decide) ?_) fun moved held => held.1
  · exact ⟨⟨EcTimer.fired_sound _, quiet.sound.coapExists, quiet.sound.obsExists, quiet.sound.confirmable⟩,
      quiet.sound.app, quiet.sound.coap, quiet.sound.obs⟩
  · exact quiet.resolved (by rcases origin with here | here <;> simp [here])
  · change ecClientCheckTransition w.cli.state .appTimeout = true
    rcases origin with here | here <;> (rw [here]; rfl)

/-- The observation timer ends the transaction. -/
theorem ecCliObsTimeout_quiet (platform : Platform) (sent : Bool) (w : CliWork) (quiet : ClientQuiet w.cli)
    (armed : w.cli.obs.pending = true) :
    Avoids EcFault.Exits (fun next => ClientQuiet next.cli)
      (ecCliObsTimeout platform sent {w with cli := {w.cli with obs := w.cli.obs.fired}}) := by
  have origin : w.cli.state = .waitNfy := quiet.sound.obs (quiet.sound.obsExists armed)
  unfold ecCliObsTimeout
  dsimp only
  rw [avoids_map]
  refine Avoids.weaken (ecClientSetState_quiet platform sent _ .obsTimeout ?_ ?_ (by decide) ?_) fun moved held => held.1
  · exact ⟨⟨quiet.sound.appExists, quiet.sound.coapExists, EcTimer.fired_sound _, quiet.sound.confirmable⟩,
      quiet.sound.app, quiet.sound.coap, quiet.sound.obs⟩
  · exact quiet.resolved (by simp [origin])
  · change ecClientCheckTransition w.cli.state .obsTimeout = true
    rw [origin]
    rfl

/-- The retransmission timer ends the transaction or sends the request again. -/
theorem ecCliCoapTimeout_quiet (platform : Platform) (sent : Bool) (w : CliWork) (quiet : ClientQuiet w.cli)
    (armed : w.cli.coap.pending = true) :
    Avoids EcFault.Exits (fun next => ClientQuiet next.cli)
      (ecCliCoapTimeout platform sent {w with cli := {w.cli with coap := w.cli.coap.fired}}) := by
  have origin : w.cli.state = .reqSent := by
    rcases quiet.sound.coap (quiet.sound.coapExists armed) with here | here
    · exact here
    · exact absurd here quiet.settled
  have answered := quiet.resolved (by simp [origin])
  have sound : ClientSound {w.cli with coap := w.cli.coap.fired}.core :=
    ⟨⟨quiet.sound.appExists, EcTimer.fired_sound _, quiet.sound.obsExists, quiet.sound.confirmable⟩,
      quiet.sound.app, quiet.sound.coap, quiet.sound.obs⟩
  unfold ecCliCoapTimeout
  split
  · rw [avoids_map]
    refine Avoids.weaken (ecClientSetState_quiet platform sent _ .coapTimeout sound answered (by decide) ?_)
      fun moved held => held.1
    change ecClientCheckTransition w.cli.state .coapTimeout = true
    rw [origin]
    rfl
  · have retrying := ecClientSetState_sound platform sent {w with cli := {w.cli with coap := w.cli.coap.fired}}
      .coapRetry sound (by
        change ecClientCheckTransition w.cli.state .coapRetry = true
        rw [origin]
        rfl)
    split
    · rename_i fault failed
      rw [failed] at retrying
      exact retrying
    · rename_i retried _ finished
      rw [finished] at retrying
      obtain ⟨still, state, dns⟩ := retrying
      dsimp only
      rw [avoids_map]
      refine Avoids.weaken (ecClientSetState_quiet platform sent _ _ ?_ ?_ ?_ ?_) fun moved held => held.1
      · exact still
      · exact dns.trans answered
      · split <;> decide
      · change ecClientCheckTransition retried.cli.state _ = true
        have here : retried.cli.state = .coapRetry := state
        rw [here]
        split <;> rfl

/-- A message without a live record goes on to its handling, and has a record from then on. -/
theorem ecClientHandlePdu_new (platform : Platform) (w : CliWork) (input : Incoming) (h : EcHdr)
    (header : ecClientHeader platform.order input.raw = some h)
    (absent : ecDupsSearch platform w.dups h.mid input.peer = none) :
    ecClientHandlePdu platform w input =
      (ecClientHandleNew platform {w with dups := ecDupsInsert platform w.dups input.peer h.mid input.raw} h input).map
        fun handled => ⟨handled.1, handled.2, none⟩ := by
  unfold ecClientHandlePdu
  rw [header]
  dsimp only
  unfold ecDupsHandleIncomingSrvmsg
  rw [ecDupsHandleIncoming_new platform 1 w.dups h.mid input.sd input.peer input.raw input.resend absent]
  rw [if_neg (by simp), if_neg (by simp)]

/-- A message with a live record leaves the client and the records as they are. -/
theorem ecClientHandlePdu_duplicate (platform : Platform) (w : CliWork) (input : Incoming) (h : EcHdr)
    (header : ecClientHeader platform.order input.raw = some h) (recvd : EcRecvdPdu)
    (present : ecDupsSearch platform w.dups h.mid input.peer = some recvd) :
    ∃ rc resent, ecClientHandlePdu platform w input = .ok ⟨w, rc, resent⟩ := by
  have duplicate := (ecDupsHandleIncoming_duplicate platform 1 (by decide) w.dups h.mid input.sd input.peer
    input.raw input.resend recvd present).1
  unfold ecClientHandlePdu
  rw [header]
  dsimp only
  unfold ecDupsHandleIncomingSrvmsg
  split
  · exact ⟨_, _, rfl⟩
  · -- Here `split` has used `duplicate` to leave the error branch alone.
    exact ⟨_, _, rfl⟩

/-- A datagram that the client welcomes, or never gets to see, leaves it quiet. -/
theorem ecClientHandlePdu_quiet (platform : Platform) (w : CliWork) (input : Incoming) (quiet : ClientQuiet w.cli)
    (welcome : ∀ h, ecClientHeader platform.order input.raw = some h →
      ecDupsSearch platform w.dups h.mid input.peer = none → w.cli.Welcomes platform.order h input) :
    Avoids EcFault.Exits (fun handled => ClientQuiet handled.work.cli) (ecClientHandlePdu platform w input) := by
  cases header : ecClientHeader platform.order input.raw with
  | none =>
      unfold ecClientHandlePdu
      rw [header]
      exact quiet
  | some h =>
      cases found : ecDupsSearch platform w.dups h.mid input.peer with
      | some recvd =>
          obtain ⟨rc, resent, handled⟩ := ecClientHandlePdu_duplicate platform w input h header recvd found
          rw [handled]
          exact quiet
      | none =>
          rw [ecClientHandlePdu_new platform w input h header found, avoids_map]
          exact ecClientHandleNew_quiet platform _ h input quiet (welcome h header found)

/-- One allowed event leaves a quiet client quiet. -/
theorem clientStep_quiet (platform : Platform) (w : CliWork) (event : ClientEvent) (quiet : ClientQuiet w.cli)
    (allowed : ClientAllowed platform w event) :
    Avoids EcFault.Exits (fun next => ClientQuiet next.cli) (clientStep platform w event) := by
  unfold clientStep
  split
  · exact quiet
  · rename_i live
    cases event with
    | dns env =>
        dsimp only
        split
        · rename_i asked
          exact ecClientDnsCb_quiet platform env w quiet asked
        · exact quiet
    | datagram input =>
        dsimp only
        split
        · rename_i registered
          rw [avoids_map]
          exact ecClientHandlePdu_quiet platform w input quiet (allowed (by simpa using live) registered)
        · exact quiet
    | appTimeout sent =>
        dsimp only
        split
        · rename_i armed
          exact ecCliAppTimeout_quiet platform sent w quiet armed
        · exact quiet
    | coapTimeout sent =>
        dsimp only
        split
        · rename_i armed
          exact ecCliCoapTimeout_quiet platform sent w quiet armed
        · exact quiet
    | obsTimeout sent =>
        dsimp only
        split
        · rename_i armed
          exact ecCliObsTimeout_quiet platform sent w quiet armed
        · exact quiet
    | cancel => exact ⟨quiet.sound, quiet.settled, quiet.resolving⟩
    | shared dups => exact quiet

/-- One event that is not allowed ends the process. -/
theorem clientStep_rejected (platform : Platform) (w : CliWork) (event : ClientEvent)
    (refused : ¬ ClientAllowed platform w event) :
    ∃ fault, clientStep platform w event = .error fault ∧ fault.Exits := by
  cases event with
  | datagram input =>
      unfold ClientAllowed at refused
      simp only [not_forall] at refused
      obtain ⟨live, registered, h, header, found, unwelcome⟩ := refused
      unfold clientStep
      rw [if_neg (by simp [live])]
      dsimp only
      rw [if_pos registered]
      rw [ecClientHandlePdu_new platform w input h header found]
      obtain ⟨next, ended⟩ := ecClientHandleNew_rejected platform
        {w with dups := ecDupsInsert platform w.dups input.peer h.mid input.raw} h input unwelcome
      rw [ended]
      exact ⟨_, rfl, trivial⟩
  | dns env => exact absurd trivial refused
  | appTimeout sent => exact absurd trivial refused
  | coapTimeout sent => exact absurd trivial refused
  | obsTimeout sent => exact absurd trivial refused
  | cancel => exact absurd trivial refused
  | shared dups => exact absurd trivial refused

/-- A fresh client is quiet once it has been started, or has failed to start. -/
theorem ecClientGo_quiet (platform : Platform) (w : CliWork) (tout : Option TimeVal) (destination : Bool)
    (fresh : w.cli.Fresh) :
    Avoids EcFault.Exits (fun started => ClientQuiet started.1.cli) (ecClientGo platform w tout destination) := by
  obtain ⟨state, app, coap, obs, dns, _⟩ := fresh
  have sound : ClientSound w.cli.core := ClientSound.of_idle (by simp [EcClient.core, app, EcTimer.Idle, EcTimer.zero])
    (by simp [EcClient.core, coap, EcTimer.Idle, EcTimer.zero]) (by simp [EcClient.core, obs, EcTimer.Idle, EcTimer.zero])
  unfold ecClientGo
  split
  · refine ⟨?_, by simp [state], fun _ => state⟩
    exact ClientSound.of_idle (by simp [EcClient.core, app, EcTimer.Idle, EcTimer.zero])
      (by simp [EcClient.core, coap, EcTimer.Idle, EcTimer.zero]) (by simp [EcClient.core, obs, EcTimer.Idle, EcTimer.zero])
  · rw [avoids_map]
    exact (ecClientSetState_quiet platform false w .internalErr sound dns (by decide) rfl).weaken fun moved held => held.1

/-- A run ends the process exactly when it has an event that asks for a transition the table does not hold. -/
theorem clientRun_exits_iff (platform : Platform) (w : CliWork) (tout : Option TimeVal) (destination : Bool)
    (fresh : w.cli.Fresh) (events : List ClientEvent) :
    (∃ fault, clientRun platform w tout destination events = .error fault ∧ fault.Exits) ↔
      ¬ ∀ start rc, ecClientGo platform w tout destination = .ok (start, rc) →
        (clientMachine platform).Meets (ClientAllowed platform) start events := by
  have going := ecClientGo_quiet platform w tout destination fresh
  unfold clientRun
  cases outcome : ecClientGo platform w tout destination with
  | error fault =>
      rw [outcome] at going
      constructor
      · rintro ⟨other, same, exits⟩
        cases same
        exact absurd exits going
      · intro unguarded
        refine absurd (fun start rc same => ?_) unguarded
        cases same
  | ok started =>
      rw [outcome] at going
      have sharp := (clientMachine platform).run_fails_iff (ClientAllowed platform) (fun w => ClientQuiet w.cli)
        EcFault.Exits (fun w event quiet allowed => clientStep_quiet platform w event quiet allowed)
        (fun w event _ refused => clientStep_rejected platform w event refused) events going
      refine sharp.trans (not_congr ⟨fun guarded start rc same => ?_, fun guarded => guarded started.1 started.2 rfl⟩)
      cases same
      exact guarded

/-- A confirmable GET that `ec_client_new` has just made, for the engine to dispose of. -/
def confirmableGet : EcClient where
  userown := false
  state := .none
  observe := EcCliObs.zero
  flow := {EcFlow.zero with method := .get, conn := {EcConn.zero with isConfirmable := some true}}
  req := ecPduNewEmpty
  resSet := []
  dnsReq := false
  registered := false
  app := EcTimer.zero
  coap := EcTimer.zero
  obs := EcTimer.zero
  freed := false
  sent := []
  entered := []

def loopback : SockAddr := ⟨.inet, [127, 0, 0, 1], 5683⟩

/-- A little-endian host with one IPv4 address. -/
def loopbackPlatform : Platform where
  order := .little
  isAbsolute := fun _ => false
  formatSockaddrPort := fun _ => "127.0.0.1:5683".toList
  getsockname := fun _ => some loopback
  composeUrl := fun _ _ => some ([], false)

/-- An acknowledgement of version 1 with no options. -/
def emptyAck (low : UInt8) : Incoming := ⟨[0x60, 0, 0, low], fun _ => 0, 5, loopback, 0, true, true⟩

/-- The resolver finds one address, and the request goes out with MID 1. -/
def resolvedOnce : DnsEnv := ⟨some [⟨loopback, 5, true, true⟩], 1, true, true⟩

/-- One peer acknowledges the request and then sends an acknowledgement with another MID. -/
def acknowledgedTwice : List ClientEvent := [.dns resolvedOnce, .datagram (emptyAck 1), .datagram (emptyAck 2)]

/-- The second acknowledgement asks for a transition that the table does not hold. -/
theorem acknowledgedTwice_run : clientRun loopbackPlatform ⟨confirmableGet, EcDups.empty⟩ none true acknowledgedTwice =
    .error (.clientRejected .reqAckd .reqAckd) := by
  rfl

/-- A peer ends the process of a client. -/
theorem acknowledgedTwice_exits : ∃ events fault,
    clientRun loopbackPlatform ⟨confirmableGet, EcDups.empty⟩ none true events = .error fault ∧ fault.Exits :=
  ⟨acknowledgedTwice, _, acknowledgedTwice_run, trivial⟩

/-- The run of the two acknowledgements has an event that is not allowed. -/
theorem acknowledgedTwice_unguarded :
    ¬ ∀ start rc, ecClientGo loopbackPlatform ⟨confirmableGet, EcDups.empty⟩ none true = .ok (start, rc) →
      (clientMachine loopbackPlatform).Meets (ClientAllowed loopbackPlatform) start acknowledgedTwice :=
  (clientRun_exits_iff loopbackPlatform ⟨confirmableGet, EcDups.empty⟩ none true
    ⟨rfl, rfl, rfl, rfl, rfl, rfl, rfl⟩ acknowledgedTwice).mp
      ⟨_, acknowledgedTwice_run, trivial⟩

end Webthings.Evcoap
