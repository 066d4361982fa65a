import Webthings.Evcoap.ClientLife
import Webthings.Evcoap.Notifications

namespace Webthings.Evcoap
open Webthings.Transition

/-- The application timer runs while the request waits for its response. -/
def EcCliState.runsApp (state : EcCliState) : Bool := state == .reqSent || state == .reqAckd

/-- The retransmission timer runs while a confirmable request waits for its acknowledgement. -/
def EcCliState.runsCoap (isCon : Bool) (state : EcCliState) : Bool := isCon && state == .reqSent

/-- The observation timer runs while the client waits for notifications. -/
def EcCliState.runsObs (state : EcCliState) : Bool := state == .waitNfy

/-- The timers that are armed are the ones that the state calls for. -/
structure TimersArmed (core : ClientCore) : Prop where
  app : core.app.pending = core.state.runsApp
  coap : core.coap.pending = core.state.runsCoap (core.isConfirmable.getD false)
  obs : core.obs.pending = core.state.runsObs

/-- A client has the timers armed that its state calls for, and a disposed one has none. -/
structure EcClient.Timed (cli : EcClient) : Prop where
  live : cli.freed = false → TimersArmed cli.core
  disposed : cli.freed = true → cli.app.pending = false ∧ cli.coap.pending = false ∧ cli.obs.pending = false

/-- The timer exists and is armed, or neither. -/
def EcTimer.Is (ti : EcTimer) (running : Bool) : Prop := ti.evti = running ∧ ti.pending = running

theorem EcTimer.Is.sound {ti : EcTimer} {running : Bool} (kept : ti.Is running) : ti.Sound :=
  fun armed => kept.1.trans (kept.2.symm.trans armed)

/-- The timers that exist are the ones that the state calls for, and all of them are armed. -/
structure TimersKept (core : ClientCore) : Prop where
  app : core.app.Is core.state.runsApp
  coap : core.coap.Is (core.state.runsCoap (core.isConfirmable.getD false))
  obs : core.obs.Is core.state.runsObs

/-- No timer of the client exists. -/
structure EcClient.Quenched (cli : EcClient) : Prop where
  app : cli.app.Idle
  coap : cli.coap.Idle
  obs : cli.obs.Idle

/-- Between events a client has exactly the timers of its state, and a disposed one has none. -/
structure EcClient.Clocked (cli : EcClient) : Prop where
  live : cli.freed = false → TimersKept cli.core
  disposed : cli.freed = true → cli.Quenched

theorem EcClient.Clocked.timed {cli : EcClient} (clocked : cli.Clocked) : cli.Timed where
  live := fun live => ⟨(clocked.live live).app.2, (clocked.live live).coap.2, (clocked.live live).obs.2⟩
  disposed := fun freed => ⟨(clocked.disposed freed).app.2, (clocked.disposed freed).coap.2, (clocked.disposed freed).obs.2⟩

/-- Timers that are kept are in order. -/
theorem TimersKept.timers {core : ClientCore} (kept : TimersKept core) : ClientTimers core where
  appExists := kept.app.sound
  coapExists := kept.coap.sound
  obsExists := kept.obs.sound
  confirmable := fun found => by
    have runs := kept.coap.1.symm.trans found
    unfold EcCliState.runsCoap at runs
    exact (Bool.and_eq_true _ _ ▸ runs).1

/-- In the states that call for no timer, the timers that are kept do not exist. -/
theorem EcClient.quenched_of_kept {cli : EcClient} (kept : TimersKept cli.core) (noApp : cli.state.runsApp = false)
    (noObs : cli.state.runsObs = false) : cli.Quenched where
  app := by
    have app := kept.app
    change cli.app.Is cli.state.runsApp at app
    rw [noApp] at app
    exact app
  coap := by
    have unsent : (cli.state == .reqSent) = false := (Bool.or_eq_false_iff.mp noApp).1
    have coap := kept.coap
    change cli.coap.Is (cli.flow.conn.isConfirmable.getD false && cli.state == .reqSent) at coap
    rw [unsent, Bool.and_false] at coap
    exact coap
  obs := by
    have obs := kept.obs
    change cli.obs.Is cli.state.runsObs at obs
    rw [noObs] at obs
    exact obs

/-- A client without timers keeps the timers of any state that calls for none. -/
theorem EcClient.Quenched.kept {cli : EcClient} (quenched : cli.Quenched) (noApp : cli.state.runsApp = false)
    (noObs : cli.state.runsObs = false) : TimersKept cli.core where
  app := by
    change cli.app.Is cli.state.runsApp
    rw [noApp]
    exact quenched.app
  coap := by
    have unsent : (cli.state == .reqSent) = false := (Bool.or_eq_false_iff.mp noApp).1
    change cli.coap.Is (cli.flow.conn.isConfirmable.getD false && cli.state == .reqSent)
    rw [unsent, Bool.and_false]
    exact quenched.coap
  obs := by
    change cli.obs.Is cli.state.runsObs
    rw [noObs]
    exact quenched.obs

theorem EcClient.Quenched.clocked {cli : EcClient} (quenched : cli.Quenched) (noApp : cli.state.runsApp = false)
    (noObs : cli.state.runsObs = false) : cli.Clocked :=
  ⟨fun _ => quenched.kept noApp noObs, fun _ => quenched⟩

/-- No timer runs in a final state. -/
theorem final_runs {state : EcCliState} (final : ecClientStateIsFinal state = true) :
    state.runsApp = false ∧ state.runsObs = false := by
  cases state with
  | none | dnsOk | reqSent | reqAckd | coapRetry | waitNfy => cases final
  | internalErr | dnsFailed | sendFailed | coapTimeout | appTimeout | reqDone | reqRst | obsTimeout => exact ⟨rfl, rfl⟩

/-- The end of a transaction leaves no timer, and frees the client that the engine owns. -/
theorem ecClientFinish_quenched (cli : EcClient) (timers : ClientTimers cli.core) :
    (ecClientFinish (cli.flow.conn.isConfirmable.getD false) cli).Quenched ∧
      (ecClientFinish (cli.flow.conn.isConfirmable.getD false) cli).freed = (cli.freed || !cli.userown) := by
  obtain ⟨app, coap, obs⟩ := ecClientFinish_idle cli timers
  exact ⟨⟨app, coap, obs⟩, ecClientFinish_freed _ cli⟩

/-- A final state is entered with the timers as they are. -/
theorem ecClientEnter_final (platform : Platform) (sent isCon : Bool) {next : EcCliState} (w : CliWork)
    (final : ecClientStateIsFinal next = true) :
    ∃ entered log, ecClientEnter platform sent isCon next w = .ok entered ∧ entered.cli = {w.cli with sent := log} := by
  unfold ecClientEnter
  cases next with
  | none | dnsOk | reqSent | reqAckd | coapRetry | waitNfy => cases final
  | reqDone =>
      dsimp only
      split
      · obtain ⟨log, framed⟩ := ecClientSendAck_frame platform sent w
        exact ⟨_, log, rfl, framed⟩
      · exact ⟨w, w.cli.sent, rfl, rfl⟩
  | internalErr | dnsFailed | sendFailed | coapTimeout | appTimeout | reqRst | obsTimeout => exact ⟨w, w.cli.sent, rfl, rfl⟩

/-- A final state is reached without timers, whatever timers there were. -/
theorem ecClientSetState_ends (platform : Platform) (sent : Bool) {next : EcCliState} (w : CliWork)
    (timers : ClientTimers w.cli.core) (final : ecClientStateIsFinal next = true) :
    Avoids (· = .nullEvent) (fun moved => moved.1.cli.Clocked) (ecClientSetState platform sent w next) := by
  obtain ⟨entered, log, entering, framed⟩ := ecClientEnter_final platform sent
    (w.cli.flow.conn.isConfirmable.getD false) w final
  have finished : ∀ log, (ecClientFinish (w.cli.flow.conn.isConfirmable.getD false)
      (EcClient.enter {w.cli with sent := log} next)).Clocked := by
    intro log
    have quenched : EcClient.Quenched (ecClientFinish (w.cli.flow.conn.isConfirmable.getD false)
        (EcClient.enter {w.cli with sent := log} next)) :=
      (ecClientFinish_quenched (EcClient.enter {w.cli with sent := log} next)
        ⟨timers.appExists, timers.coapExists, timers.obsExists, timers.confirmable⟩).1
    have state := (ecClientFinish_frame (w.cli.flow.conn.isConfirmable.getD false)
      (EcClient.enter {w.cli with sent := log} next)).1
    obtain ⟨noApp, noObs⟩ := final_runs final
    exact quenched.clocked (by rw [state]; exact noApp) (by rw [state]; exact noObs)
  obtain ⟨rst, reset⟩ := ecClientRstPeer_frame platform sent {entered with cli := entered.cli.enter next}
  unfold ecClientSetState
  split
  · exact fun same => by cases same
  · dsimp only
    rw [entering, final]
    dsimp only
    rw [Bool.true_or, if_pos rfl]
    apply (avoids_ok _).mpr
    dsimp only at reset ⊢
    split
    · rw [reset, framed]
      exact finished rst
    · rw [framed]
      exact finished log

/-- Before the request is sent there is no timer, and the first send starts those of the state. -/
theorem ecClientEnter_sends (platform : Platform) (sent : Bool) (w : CliWork) (quenched : w.cli.Quenched)
    (origin : w.cli.state = .dnsOk) : ∃ entered app coap obs,
      ecClientEnter platform sent (w.cli.flow.conn.isConfirmable.getD false) .reqSent w = .ok entered ∧
      entered.cli = {w.cli with app := app, coap := coap, obs := obs} ∧
      TimersKept ⟨.reqSent, app, coap, obs, w.cli.flow.conn.isConfirmable⟩ := by
  have app := ecTimerStart_fresh w.cli.app 1 (by decide) quenched.app.1
  have coap := ecTimerStart_fresh {w.cli.coap with tout := ⟨ecCoapRespTimeout, 0⟩} ecCoapMaxRetransmit (by decide)
    quenched.coap.1
  unfold ecClientEnter ecCliStartAppTimer ecCliStartCoapTimer coapTimerStart
  dsimp only
  rw [if_pos origin, app, if_neg (by simp), coap]
  cases con : w.cli.flow.conn.isConfirmable.getD false with
  | true =>
      refine ⟨_, _, _, w.cli.obs, rfl, rfl, ⟨rfl, rfl⟩, ?_, quenched.obs⟩
      unfold EcCliState.runsCoap
      rw [con]
      exact ⟨rfl, rfl⟩
  | false =>
      refine ⟨_, _, w.cli.coap, w.cli.obs, rfl, rfl, ⟨rfl, rfl⟩, ?_, quenched.obs⟩
      unfold EcCliState.runsCoap
      rw [con]
      exact quenched.coap

/-- The retransmission timer is idle after the stop that only confirmable requests make, and the rest is as it was. -/
theorem stopCoap_idle (cli : EcClient) (timers : ClientTimers cli.core) :
    ∃ coap : EcTimer, (if cli.flow.conn.isConfirmable.getD false then ecCliStopCoapTimer cli else cli) =
      {cli with coap := coap} ∧ coap.Idle := by
  have coap := timers.quenched
  unfold EcClient.core at coap
  cases con : cli.flow.conn.isConfirmable.getD false with
  | true =>
      rw [con] at coap
      exact ⟨ecTimerRemove cli.coap, rfl, coap⟩
  | false =>
      rw [con] at coap
      exact ⟨cli.coap, rfl, coap⟩

/-- The acknowledgement stops the retransmission timer alone. -/
theorem ecClientEnter_acknowledged (platform : Platform) (sent : Bool) (w : CliWork) (kept : TimersKept w.cli.core)
    (origin : w.cli.state = .reqSent) : ∃ entered app coap obs,
      ecClientEnter platform sent (w.cli.flow.conn.isConfirmable.getD false) .reqAckd w = .ok entered ∧
      entered.cli = {w.cli with app := app, coap := coap, obs := obs} ∧
      TimersKept ⟨.reqAckd, app, coap, obs, w.cli.flow.conn.isConfirmable⟩ := by
  obtain ⟨coap, stopped, idle⟩ := stopCoap_idle w.cli kept.timers
  have app := kept.app
  have obs := kept.obs
  change w.cli.app.Is w.cli.state.runsApp at app
  change w.cli.obs.Is w.cli.state.runsObs at obs
  rw [origin] at app obs
  unfold ecClientEnter
  dsimp only
  rw [stopped]
  refine ⟨_, w.cli.app, coap, w.cli.obs, rfl, rfl, app, ?_, obs⟩
  unfold EcCliState.runsCoap
  rw [show ((EcCliState.reqAckd == .reqSent) = false) from rfl, Bool.and_false]
  exact idle

/-- The observation timer takes the place of the others, or is armed again. -/
theorem ecClientEnter_watches (platform : Platform) (sent : Bool) (w : CliWork)
    (kept : TimersKept w.cli.core) : ∃ entered app coap obs,
      ecClientEnter platform sent (w.cli.flow.conn.isConfirmable.getD false) .waitNfy w = .ok entered ∧
      entered.cli = {w.cli with app := app, coap := coap, obs := obs} ∧
      TimersKept ⟨.waitNfy, app, coap, obs, w.cli.flow.conn.isConfirmable⟩ := by
  have noCoap : ∀ coap : EcTimer, coap.Idle →
      coap.Is (EcCliState.waitNfy.runsCoap (w.cli.flow.conn.isConfirmable.getD false)) := by
    intro coap idle
    unfold EcCliState.runsCoap
    rw [show ((EcCliState.waitNfy == .reqSent) = false) from rfl, Bool.and_false]
    exact idle
  have obs := kept.obs
  change w.cli.obs.Is w.cli.state.runsObs at obs
  unfold ecClientEnter
  dsimp only
  by_cases watching : w.cli.state = .waitNfy
  · rw [watching] at obs
    have quiet := kept.app
    have silent := kept.coap
    change w.cli.app.Is w.cli.state.runsApp at quiet
    change w.cli.coap.Is (w.cli.state.runsCoap (w.cli.flow.conn.isConfirmable.getD false)) at silent
    rw [watching] at quiet silent
    unfold ecCliRestartObsTimer ecTimerRestart
    have present : w.cli.obs.evti = true := obs.1
    rw [if_pos watching, if_pos present]
    exact ⟨_, w.cli.app, w.cli.coap, {w.cli.obs with pending := true}, rfl, rfl, quiet, silent, obs.1, rfl⟩
  · have absent : w.cli.obs.evti = false := by
      rw [obs.1]
      exact beq_eq_false_iff_ne.mpr watching
    have app := ecTimerRemove_idle kept.timers.appExists
    have timers : ClientTimers (ecCliStopAppTimer w.cli).core :=
      ⟨EcTimer.Is.sound app, kept.timers.coapExists, kept.timers.obsExists, kept.timers.confirmable⟩
    obtain ⟨coap, stopped, idle⟩ := stopCoap_idle (ecCliStopAppTimer w.cli) timers
    change (if w.cli.flow.conn.isConfirmable.getD false then ecCliStopCoapTimer (ecCliStopAppTimer w.cli)
      else ecCliStopAppTimer w.cli) = _ at stopped
    obtain ⟨obs, started, present, running⟩ := ecCliStartObsTimer_fresh platform.order
      {ecCliStopAppTimer w.cli with coap := coap} absent
    rw [if_neg watching, stopped, started, if_neg (by simp)]
    exact ⟨_, ecTimerRemove w.cli.app, coap, obs, rfl, rfl, app, noCoap coap idle, present, running⟩

/-- A transition to a state that is neither final nor the start of a retransmission, nor one that calls the user,
enters its state and changes the timers alone. -/
theorem ecClientSetState_goes (platform : Platform) (sent : Bool) {next : EcCliState} (w : CliWork)
    (kept : TimersKept w.cli.core) (ongoing : next = .dnsOk ∨ next = .reqSent ∨ next = .reqAckd)
    (steady : w.cli.state ≠ .coapRetry) (permitted : ecClientCheckTransition w.cli.state next = true) :
    ∃ moved app coap obs, ecClientSetState platform sent w next = .ok (moved, false) ∧
      moved.cli = EcClient.enter {w.cli with app := app, coap := coap, obs := obs} next ∧
      TimersKept ⟨next, app, coap, obs, w.cli.flow.conn.isConfirmable⟩ := by
  have entering : ∃ entered app coap obs,
      ecClientEnter platform sent (w.cli.flow.conn.isConfirmable.getD false) next w = .ok entered ∧
      entered.cli = {w.cli with app := app, coap := coap, obs := obs} ∧
      TimersKept ⟨next, app, coap, obs, w.cli.flow.conn.isConfirmable⟩ := by
    rcases ongoing with rfl | rfl | rfl
    · have origin : w.cli.state = .none ∨ ecClientStateIsFinal w.cli.state = true := by
        simpa [ecClientCheckTransition] using permitted
      have silent : w.cli.state.runsApp = false ∧ w.cli.state.runsObs = false := by
        rcases origin with first | ended
        · rw [first]
          exact ⟨rfl, rfl⟩
        · exact final_runs ended
      have quenched := EcClient.quenched_of_kept kept silent.1 silent.2
      have resolved : EcClient.Quenched {w.cli with state := .dnsOk} := ⟨quenched.app, quenched.coap, quenched.obs⟩
      exact ⟨w, w.cli.app, w.cli.coap, w.cli.obs, rfl, rfl, resolved.kept rfl rfl⟩
    · have origin : w.cli.state = .dnsOk := by
        have either : w.cli.state = .dnsOk ∨ w.cli.state = .coapRetry := by
          simpa [ecClientCheckTransition] using permitted
        exact either.resolve_right steady
      exact ecClientEnter_sends platform sent w (EcClient.quenched_of_kept kept (by rw [origin]; rfl) (by rw [origin]; rfl))
        origin
    · exact ecClientEnter_acknowledged platform sent w kept (by simpa [ecClientCheckTransition] using permitted)
  obtain ⟨entered, app, coap, obs, entering, framed, running⟩ := entering
  have silent : (ecClientStateIsFinal next || next == .waitNfy) = false ∧ ecClientStateIsFinal next = false := by
    rcases ongoing with rfl | rfl | rfl <;> exact ⟨rfl, rfl⟩
  unfold ecClientSetState
  rw [if_neg (by simp [permitted])]
  dsimp only
  rw [entering]
  dsimp only
  rw [silent.1, silent.2, Bool.false_and, Bool.or_self, if_neg Bool.false_ne_true, if_neg Bool.false_ne_true]
  refine ⟨_, app, coap, obs, rfl, ?_, running⟩
  dsimp only
  rw [framed]

/-- A notification keeps the timers of an observation, unless it is cancelled: then no timer is left, and a client that
the user owns stays where it is. -/
theorem ecClientSetState_watches (platform : Platform) (sent : Bool) (w : CliWork) (live : w.cli.freed = false)
    (kept : TimersKept w.cli.core) (awaiting : w.cli.state.Awaiting) :
    ∃ moved, ecClientSetState platform sent w .waitNfy = .ok moved ∧ moved.1.cli.state = .waitNfy ∧
      (w.cli.observe.cancel = true ∧ moved.1.cli.Quenched ∧ moved.1.cli.freed = !w.cli.userown ∨
        w.cli.observe.cancel = false ∧ moved.1.cli.Clocked) := by
  obtain ⟨entered, app, coap, obs, entering, framed, running⟩ := ecClientEnter_watches platform sent w kept
  have permitted : ecClientCheckTransition w.cli.state .waitNfy = true := by
    rcases awaiting with here | here | here <;> (rw [here]; rfl)
  obtain ⟨log, reset⟩ := ecClientRstPeer_frame platform sent {entered with cli := entered.cli.enter .waitNfy}
  unfold ecClientSetState
  rw [if_neg (by simp [permitted])]
  dsimp only
  rw [entering]
  dsimp only at reset ⊢
  have asked : (entered.cli.enter .waitNfy).observe.cancel = w.cli.observe.cancel := by
    rw [framed]
    rfl
  rw [show (ecClientStateIsFinal .waitNfy || EcCliState.waitNfy == .waitNfy) = true from rfl, Bool.true_and, asked,
    show ecClientStateIsFinal .waitNfy = false from rfl, Bool.false_or]
  cases cancelled : w.cli.observe.cancel with
  | true =>
      rw [if_pos rfl, if_pos rfl, reset, framed]
      refine ⟨_, rfl, (ecClientFinish_frame _ _).1, Or.inl ⟨rfl, ?_⟩⟩
      have ended := ecClientFinish_quenched
        (EcClient.enter {w.cli with app := app, coap := coap, obs := obs, sent := log} .waitNfy) running.timers
      refine ⟨ended.1, ended.2.trans ?_⟩
      change (w.cli.freed || !w.cli.userown) = !w.cli.userown
      rw [live, Bool.false_or]
  | false =>
      rw [if_neg Bool.false_ne_true, if_neg Bool.false_ne_true, framed]
      exact ⟨_, rfl, rfl, Or.inr ⟨rfl, fun _ => running, fun freed => absurd (live.symm.trans freed) (by decide)⟩⟩

/-- A fired timer leaves the timers in order. -/
theorem TimersKept.fired {cli : EcClient} (kept : TimersKept cli.core) :
    ClientTimers {cli with app := cli.app.fired}.core ∧ ClientTimers {cli with coap := cli.coap.fired}.core ∧
      ClientTimers {cli with obs := cli.obs.fired}.core :=
  ⟨⟨EcTimer.fired_sound _, kept.timers.coapExists, kept.timers.obsExists, kept.timers.confirmable⟩,
    ⟨kept.timers.appExists, EcTimer.fired_sound _, kept.timers.obsExists, kept.timers.confirmable⟩,
    ⟨kept.timers.appExists, kept.timers.coapExists, EcTimer.fired_sound _, kept.timers.confirmable⟩⟩

/-- What the resolver's callback leaves on its way: a client in order, which lives on if the callback goes on. -/
def Connected (opened : CliWork × Bool) : Prop :=
  opened.1.cli.Clocked ∧ (opened.2 = true → opened.1.cli.freed = false)

/-- The send to a resolved address. -/
theorem ecClientSetState_connected (platform : Platform) (goesOn : Bool) (w : CliWork) (live : w.cli.freed = false)
    (kept : TimersKept w.cli.core) (resolved : w.cli.state = .dnsOk) :
    Avoids (· = .nullEvent) Connected ((ecClientSetState platform false w .reqSent).map fun moved => (moved.1, goesOn)) := by
  obtain ⟨moved, app, coap, obs, made, same, running⟩ := ecClientSetState_goes platform false w kept
    (Or.inr (Or.inl rfl)) (by rw [resolved]; decide) (by rw [resolved]; rfl)
  rw [made]
  refine ⟨⟨fun _ => ?_, fun freed => ?_⟩, fun _ => ?_⟩
  · change TimersKept moved.cli.core
    rw [same]
    exact running
  · change moved.cli.freed = true at freed
    rw [same] at freed
    exact absurd (live.symm.trans freed) (by decide)
  · change moved.cli.freed = false
    rw [same]
    exact live

/-- A client that fails does not go on. -/
theorem ecClientSetState_failed (platform : Platform) (w : CliWork) (timers : ClientTimers w.cli.core) :
    Avoids (· = .nullEvent) Connected ((ecClientSetState platform false w .internalErr).map fun moved => (moved.1, false)) := by
  rw [avoids_map]
  apply (ecClientSetState_ends platform false w timers rfl).weaken
  exact fun moved clocked => ⟨clocked, fun on => absurd on Bool.false_ne_true⟩

theorem ecClientConnect_clocked (platform : Platform) (ais : List AddrInfo) (w : CliWork) (live : w.cli.freed = false)
    (kept : TimersKept w.cli.core) (resolved : w.cli.state = .dnsOk) :
    Avoids (· = .nullEvent) Connected (ecClientConnect platform ais w) := by
  induction ais generalizing w with
  | nil => exact ⟨⟨fun _ => kept, fun freed => absurd (live.symm.trans freed) (by decide)⟩, fun _ => live⟩
  | cons ai ais ih =>
      have here : ∀ flow : EcFlow, flow.conn.isConfirmable = w.cli.flow.conn.isConfirmable →
          TimersKept {w.cli with flow := flow}.core := by
        intro flow model
        unfold EcClient.core
        dsimp only
        rw [model]
        exact kept
      unfold ecClientConnect
      dsimp only
      split
      · exact ih _ live (here _ rfl) resolved
      · split
        · exact ⟨⟨fun _ => here _ rfl, fun freed => absurd (live.symm.trans freed) (by decide)⟩,
            fun on => absurd on Bool.false_ne_true⟩
        · split
          · exact ih _ live (here _ rfl) resolved
          · split
            · exact ecClientSetState_connected platform true _ live (here _ rfl) resolved
            · exact ecClientSetState_failed platform _ (here _ rfl).timers

theorem ecClientOpen_clocked (platform : Platform) (env : DnsEnv) (ais : List AddrInfo) (w : CliWork)
    (live : w.cli.freed = false) (kept : TimersKept w.cli.core) (resolved : w.cli.state = .dnsOk) :
    Avoids (· = .nullEvent) Connected (ecClientOpen platform env ais w) := by
  unfold ecClientOpen
  dsimp only
  split
  · split
    · exact ecClientSetState_failed platform _ kept.timers
    · exact ecClientSetState_connected platform true _ live kept resolved
  · exact ecClientConnect_clocked platform ais _ live kept resolved

/-- The resolver's callback keeps a client in order. -/
theorem ecClientDnsCb_clocked (platform : Platform) (env : DnsEnv) (w : CliWork) (live : w.cli.freed = false)
    (kept : TimersKept w.cli.core) :
    Avoids (· = .nullEvent) (fun next => next.cli.Clocked) (ecClientDnsCb platform env w) := by
  unfold ecClientDnsCb
  dsimp only
  split
  · rw [avoids_map]
    exact ecClientSetState_ends platform false _ kept.timers rfl
  · rename_i ais answered
    cases permitted : ecClientCheckTransition w.cli.state .dnsOk with
    | false =>
        have rejected := ecClientSetState_rejected platform false {w with cli := {w.cli with dnsReq := false}} .dnsOk permitted
        rw [rejected]
        exact fun same => by cases same
    | true =>
        have steady : w.cli.state ≠ .coapRetry := by
          intro retrying
          rw [retrying] at permitted
          cases permitted
        obtain ⟨resolved, app, coap, obs, made, same, running⟩ := ecClientSetState_goes platform false
          {w with cli := {w.cli with dnsReq := false}} kept (Or.inl rfl) steady permitted
        have state : resolved.cli.state = .dnsOk := by
          rw [same]
          rfl
        have alive : resolved.cli.freed = false := by
          rw [same]
          exact live
        have still : TimersKept resolved.cli.core := by
          rw [same]
          exact running
        rw [made]
        dsimp only
        have opening := ecClientOpen_clocked platform env ais
          {resolved with cli := {resolved.cli with
            req := (ecPduEncodeRequest platform.order env.rng resolved.cli.flow resolved.cli.req).1}} alive still state
        split
        · rw [avoids_map]
          exact ecClientSetState_ends platform false _ still.timers rfl
        · split
          · rename_i fault failed
            rw [failed] at opening
            exact opening
          · rename_i opened goesOn finished
            rw [finished] at opening
            obtain ⟨clocked, lives⟩ := opening
            split
            · exact clocked
            · rename_i on
              have going : goesOn = true := by simpa using on
              have continued := clocked.live (lives going)
              split
              · rw [avoids_map]
                exact ecClientSetState_ends platform false _ continued.timers rfl
              · exact ⟨fun _ => continued, fun freed => absurd ((lives going).symm.trans freed) (by decide)⟩

/-- A retransmission timer with retries left is armed again. -/
theorem coapTimerRestart_armed {ti : EcTimer} (left : ¬ ti.retriesLeft = 0) (present : ti.evti = true) :
    ∃ next, coapTimerRestart ti = some next ∧ next.Is true := by
  unfold coapTimerRestart ecTimerRestart
  rw [if_neg left, if_pos present]
  exact ⟨_, rfl, present, rfl⟩

/-- A request that is sent again enters its state and changes the retransmission timer alone. -/
theorem ecClientSetState_resends (platform : Platform) (sent : Bool) (w : CliWork) {coap : EcTimer}
    (retrying : w.cli.state = .coapRetry) (restarted : coapTimerRestart w.cli.coap = some coap) :
    ∃ moved, ecClientSetState platform sent w .reqSent = .ok (moved, false) ∧
      moved.cli = EcClient.enter {w.cli with coap := coap} .reqSent := by
  unfold ecClientSetState ecClientEnter ecCliRestartCoapTimer
  rw [if_neg (by simp [ecClientCheckTransition, retrying])]
  dsimp only
  rw [if_neg (by simp [retrying]), if_pos retrying, restarted]
  exact ⟨_, rfl, rfl⟩

/-- The retransmission timer is armed again, or the transaction ends. -/
theorem ecCliCoapTimeout_clocked (platform : Platform) (sent : Bool) (w : CliWork) (live : w.cli.freed = false)
    (kept : TimersKept w.cli.core) (armed : w.cli.coap.pending = true) :
    Avoids (· = .nullEvent) (fun next => next.cli.Clocked)
      (ecCliCoapTimeout platform sent {w with cli := {w.cli with coap := w.cli.coap.fired}}) := by
  have running : w.cli.state.runsCoap (w.cli.flow.conn.isConfirmable.getD false) = true := kept.coap.2.symm.trans armed
  obtain ⟨con, origin⟩ := (Bool.and_eq_true _ _).mp running
  have origin : w.cli.state = .reqSent := by simpa using origin
  have app := kept.app
  have obs := kept.obs
  change w.cli.app.Is w.cli.state.runsApp at app
  change w.cli.obs.Is w.cli.state.runsObs at obs
  rw [origin] at app obs
  unfold ecCliCoapTimeout
  split
  · rw [avoids_map]
    exact ecClientSetState_ends platform sent _ kept.fired.2.1 rfl
  · rename_i left
    have retrying : ecClientSetState platform sent {w with cli := {w.cli with coap := w.cli.coap.fired}} .coapRetry =
        .ok ({w with cli := EcClient.enter {w.cli with coap := w.cli.coap.fired} .coapRetry}, false) := by
      exact ecClientSetState_idle (Or.inr rfl) (by simp [ecClientCheckTransition, origin])
    have present : w.cli.coap.evti = true := kept.coap.1.trans running
    obtain ⟨coap, restarted, again⟩ := coapTimerRestart_armed left present
    have resending : ∀ log dups, Avoids (· = .nullEvent) (fun moved : CliWork × Bool => moved.1.cli.Clocked)
        (ecClientSetState platform sent
          ⟨EcClient.enter {w.cli with coap := w.cli.coap.fired, sent := log} .coapRetry, dups⟩ .reqSent) := by
      intro log dups
      obtain ⟨moved, made, same⟩ := ecClientSetState_resends platform sent
        ⟨EcClient.enter {w.cli with coap := w.cli.coap.fired, sent := log} .coapRetry, dups⟩ rfl restarted
      rw [made]
      refine ⟨fun _ => ?_, fun freed => ?_⟩
      · change TimersKept moved.cli.core
        rw [same]
        refine ⟨app, ?_, obs⟩
        change coap.Is (w.cli.flow.conn.isConfirmable.getD false && EcCliState.reqSent == .reqSent)
        rw [con]
        exact again
      · change moved.cli.freed = true at freed
        rw [same] at freed
        exact absurd (live.symm.trans freed) (by decide)
    rw [retrying]
    dsimp only
    rw [avoids_map]
    split
    · exact resending _ _
    · exact ecClientSetState_ends platform sent _
        ⟨kept.fired.2.1.appExists, kept.fired.2.1.coapExists, kept.fired.2.1.obsExists, kept.fired.2.1.confirmable⟩ rfl

/-- A response that is taken in while the user has cancelled the observation of a client that he owns, and that asks to
go on with the observation. -/
structure EcClient.Overtaken (order : ByteOrder) (cli : EcClient) (h : EcHdr) (input : Incoming) : Prop where
  response : h.code ≠ 0
  awaiting : cli.state.Awaiting
  taken : cli.TakesIn h input
  observing : ∃ observe, cli.judged order h input = some observe ∧ observe.on = true
  owned : cli.userown = true
  cancelled : cli.observe.cancel = true

/-- A clocked client is left clocked by what follows a transition. -/
theorem EcClient.Clocked.cleared {w : CliWork} (clocked : w.cli.Clocked) :
    (if w.cli.observe.on then {w with cli := {w.cli with resSet := []}} else w).cli.Clocked := by
  split
  · exact ⟨clocked.live, fun freed => ⟨(clocked.disposed freed).app, (clocked.disposed freed).coap,
      (clocked.disposed freed).obs⟩⟩
  · exact clocked

section Messages

variable {platform : Platform} {w : CliWork} {h : EcHdr} {input : Incoming}

/-- A message keeps a client clocked, unless it overtakes the cancellation of its observation. -/
theorem ecClientHandleNew_clocked (live : w.cli.freed = false) (kept : TimersKept w.cli.core)
    (current : ¬ w.cli.Overtaken platform.order h input) :
    Avoids (· = .nullEvent) (fun handled => handled.1.cli.Clocked) (ecClientHandleNew platform w h input) := by
  have still : w.cli.Clocked := ⟨fun _ => kept, fun freed => absurd (live.symm.trans freed) (by decide)⟩
  by_cases code : h.code = 0
  · unfold ecClientHandleNew ecClientHandleEmptyPdu
    rw [if_pos code, avoids_map]
    cases h.t with
    | ack =>
        dsimp only
        rw [avoids_map]
        cases permitted : ecClientCheckTransition w.cli.state .reqAckd with
        | false =>
            rw [ecClientSetState_rejected platform input.sent w .reqAckd permitted]
            exact fun same => by cases same
        | true =>
            have origin := (checkTransition_reqAckd w.cli.state).mp permitted
            obtain ⟨moved, app, coap, obs, made, same, running⟩ := ecClientSetState_goes platform input.sent w kept
              (Or.inr (Or.inr rfl)) (by rw [origin]; decide) permitted
            rw [made]
            change moved.cli.Clocked
            rw [same]
            exact ⟨fun _ => running, fun freed => absurd (live.symm.trans freed) (by decide)⟩
    | rst =>
        dsimp only
        rw [avoids_map]
        exact ecClientSetState_ends platform input.sent w kept.timers rfl
    | con => exact still
    | non => exact still
  · by_cases taken : w.cli.TakesIn h input
    · cases judged : w.cli.judged platform.order h input with
      | none =>
          rw [ecClientHandleNew_stale platform code taken judged]
          exact ⟨still.live, fun freed => absurd (live.symm.trans freed) (by decide)⟩
      | some observe =>
          have timers : TimersKept {w.cli.added h input with observe := observe}.core := kept
          unfold ecClientHandleNew
          rw [if_neg code, ecClientTakeResponse_taken platform taken, judged]
          dsimp only
          rw [avoids_map]
          have moving : Avoids (· = .nullEvent) (fun moved : CliWork × Bool => moved.1.cli.Clocked)
              (ecClientSetState platform input.sent {w with cli := {w.cli.added h input with observe := observe}}
                observe.asks) := by
            rcases observe.asks_cases with waiting | done
            · rw [waiting]
              by_cases awaiting : w.cli.state.Awaiting
              · obtain ⟨moved, made, _, either⟩ := ecClientSetState_watches platform input.sent
                  {w with cli := {w.cli.added h input with observe := observe}} live timers awaiting
                rw [made]
                rcases either with ⟨cancelled, quenched, freed⟩ | ⟨_, clocked⟩
                · have engine : w.cli.userown = false := by
                    cases owned : w.cli.userown with
                    | false => rfl
                    | true => exact absurd ⟨code, awaiting, taken, ⟨observe, judged, observe.asks_waitNfy.mp waiting⟩,
                        owned, (EcCliObs.judge_cancel judged).symm.trans cancelled⟩ current
                  have gone : moved.1.cli.freed = true := freed.trans (by
                    change (!w.cli.userown) = true
                    rw [engine]
                    rfl)
                  exact ⟨fun alive => absurd (alive.symm.trans gone) (by decide), fun _ => quenched⟩
                · exact clocked
              · have refused : ecClientCheckTransition w.cli.state .waitNfy = false := by
                  cases permitted : ecClientCheckTransition w.cli.state .waitNfy with
                  | false => rfl
                  | true => exact absurd ((checkTransition_response w.cli.state true).mp permitted) awaiting
                rw [ecClientSetState_rejected platform input.sent
                  {w with cli := {w.cli.added h input with observe := observe}} .waitNfy refused]
                exact fun same => by cases same
            · rw [done]
              exact ecClientSetState_ends platform input.sent _ timers.timers rfl
          apply moving.weaken
          intro moved clocked
          split
          · exact clocked
          · exact clocked.cleared
    · rw [ecClientHandleNew_refused platform code taken]
      exact still

/-- A response that overtakes the cancellation leaves the client in the observation, without its timer. -/
theorem ecClientHandleNew_overtaken (live : w.cli.freed = false) (kept : TimersKept w.cli.core)
    (overtaken : w.cli.Overtaken platform.order h input) :
    ∃ handled, ecClientHandleNew platform w h input = .ok handled ∧ ¬ handled.1.cli.Timed := by
  obtain ⟨code, awaiting, taken, ⟨observe, judged, on⟩, owned, cancelled⟩ := overtaken
  have waiting : observe.asks = .waitNfy := observe.asks_waitNfy.mpr on
  obtain ⟨moved, made, state, either⟩ := ecClientSetState_watches platform input.sent
    {w with cli := {w.cli.added h input with observe := observe}} live kept awaiting
  rcases either with ⟨_, quenched, freed⟩ | ⟨wanted, _⟩
  · have alive : moved.1.cli.freed = false := freed.trans (by
      change (!w.cli.userown) = false
      rw [owned]
      rfl)
    have untimed : ∀ cli : EcClient, cli.freed = false → cli.state = .waitNfy → cli.obs.pending = false → ¬ cli.Timed := by
      intro cli alive state idle timed
      have armed : cli.obs.pending = cli.state.runsObs := (timed.live alive).obs
      rw [idle, state] at armed
      cases armed
    unfold ecClientHandleNew
    rw [if_neg code, ecClientTakeResponse_taken platform taken, judged]
    dsimp only
    rw [waiting, made]
    refine ⟨_, rfl, ?_⟩
    dsimp only
    split
    · exact untimed _ alive state quenched.obs.2
    · split
      · exact untimed _ alive state quenched.obs.2
      · exact untimed _ alive state quenched.obs.2
  · exact absurd ((EcCliObs.judge_cancel judged).trans cancelled) (by rw [wanted]; decide)

end Messages

/-- The event is a response that overtakes the cancellation of the observation. -/
def CliWork.OvertakenBy (platform : Platform) (w : CliWork) (event : ClientEvent) : Prop :=
  match event with
  | .datagram input => ∃ h, w.Hears platform input h ∧ w.cli.Overtaken platform.order h input
  | _ => False

/-- An event without the resolver keeps a client clocked, unless it overtakes a cancellation. -/
theorem clientStep_clocked (platform : Platform) (w : CliWork) {event : ClientEvent} (clocked : w.cli.Clocked)
    (other : ∀ env, event ≠ .dns env) (current : ¬ w.OvertakenBy platform event) :
    Avoids (· = .nullEvent) (fun next => next.cli.Clocked) (clientStep platform w event) := by
  cases freed : w.cli.freed with
  | true =>
      unfold clientStep
      rw [if_pos freed]
      exact clocked
  | false =>
      have kept := clocked.live freed
      cases event with
      | dns env => exact absurd rfl (other env)
      | datagram input =>
          by_cases heard : ∃ h, w.Hears platform input h
          · obtain ⟨h, hears⟩ := heard
            rw [clientStep_hears hears, avoids_map]
            exact ecClientHandleNew_clocked (w := w.seen platform input h) freed kept
              fun overtaken => current ⟨h, hears, overtaken⟩
          · rw [clientStep_unheard fun h hears => heard ⟨h, hears⟩]
            exact clocked
      | appTimeout sent =>
          unfold clientStep
          rw [if_neg (by simp [freed])]
          dsimp only
          split
          · unfold ecCliAppTimeout
            rw [avoids_map]
            exact ecClientSetState_ends platform sent _ kept.fired.1 rfl
          · exact clocked
      | coapTimeout sent =>
          unfold clientStep
          rw [if_neg (by simp [freed])]
          dsimp only
          split
          · rename_i armed
            exact ecCliCoapTimeout_clocked platform sent w freed kept armed
          · exact clocked
      | obsTimeout sent =>
          unfold clientStep
          rw [if_neg (by simp [freed])]
          dsimp only
          split
          · unfold ecCliObsTimeout
            dsimp only
            rw [avoids_map]
            exact ecClientSetState_ends platform sent _ kept.fired.2.2 rfl
          · exact clocked
      | cancel =>
          unfold clientStep
          rw [if_neg (by simp [freed])]
          exact ⟨fun _ => kept, fun gone => absurd (freed.symm.trans gone) (by decide)⟩
      | shared dups =>
          unfold clientStep
          rw [if_neg (by simp [freed])]
          exact clocked

/-- The step is a response that overtakes the cancellation of the observation. -/
def Overtakes (platform : Platform) (life : ClientLife) (event : LifeEvent) : Prop :=
  match event with
  | .event event => life.work.OvertakenBy platform event
  | .send _ _ => False

/-- A step keeps a client clocked and restarts no timer that does not exist, unless it overtakes a cancellation. -/
theorem lifeStep_clocked (platform : Platform) (life : ClientLife) (event : LifeEvent) (clocked : life.work.cli.Clocked)
    (current : ¬ Overtakes platform life event) :
    Avoids (· = .nullEvent) (fun next => next.work.cli.Clocked) (lifeStep platform life event) := by
  cases event with
  | send tout destination =>
      cases freed : life.work.cli.freed with
      | true =>
          unfold lifeStep
          dsimp only
          rw [if_pos freed]
          exact clocked
      | false =>
          rw [lifeStep_send tout destination freed, avoids_map]
          unfold ecClientGo
          split
          · have kept := clocked.live freed
            exact ⟨fun _ => ⟨kept.app, kept.coap, kept.obs⟩, fun gone => absurd (freed.symm.trans gone) (by decide)⟩
          · rw [avoids_map]
            exact ecClientSetState_ends platform false _ (clocked.live freed).timers rfl
  | event event =>
      by_cases resolver : ∃ env, event = .dns env
      · obtain ⟨env, rfl⟩ := resolver
        unfold lifeStep
        dsimp only
        split
        · exact clocked
        · split
          · exact fun same => by cases same
          · rename_i alive
            have live : life.work.cli.freed = false := by simpa using alive
            rw [avoids_map]
            exact ecClientDnsCb_clocked platform env life.work live (clocked.live live)
      · have other : ∀ env, event ≠ .dns env := fun env same => resolver ⟨env, same⟩
        rw [lifeStep_event other, avoids_map]
        exact clientStep_clocked platform life.work clocked other current

/-- A step that overtakes a cancellation is made, and leaves a client whose timers are not those of its state. -/
theorem lifeStep_overtakes (platform : Platform) (life : ClientLife) (event : LifeEvent)
    (clocked : life.work.cli.Clocked) (overtakes : Overtakes platform life event) :
    ∃ next, lifeStep platform life event = .ok next ∧ ¬ next.work.cli.Timed := by
  cases event with
  | send tout destination => exact absurd overtakes id
  | event event =>
      cases event with
      | datagram input =>
          obtain ⟨h, hears, overtaken⟩ := overtakes
          obtain ⟨handled, made, untimed⟩ := ecClientHandleNew_overtaken (w := life.work.seen platform input h) hears.live
            (clocked.live hears.live) overtaken
          rw [lifeStep_hears hears, made]
          exact ⟨_, rfl, untimed⟩
      | dns | appTimeout | coapTimeout | obsTimeout | cancel | shared => exact absurd overtakes id

theorem EcClient.Fresh.clocked {cli : EcClient} (fresh : cli.Fresh) : cli.Clocked := by
  obtain ⟨state, app, coap, obs, _, _, _⟩ := fresh
  have quenched : cli.Quenched := by
    refine ⟨?_, ?_, ?_⟩
    · rw [app]
      exact ⟨rfl, rfl⟩
    · rw [coap]
      exact ⟨rfl, rfl⟩
    · rw [obs]
      exact ⟨rfl, rfl⟩
  exact quenched.clocked (by rw [state]; rfl) (by rw [state]; rfl)

/-- In all states of a run the timers are those of the client's state, and no timer that does not exist is restarted,
exactly when no response overtakes the cancellation of an observation. -/
theorem clientTimers_iff (platform : Platform) (cli : EcClient) (dups : EcDups) (fresh : cli.Fresh)
    (events : List LifeEvent) :
    ((lifeMachine platform).Always (fun life => life.work.cli.Timed) (.new ⟨cli, dups⟩) events ∧
        (lifeMachine platform).run (.new ⟨cli, dups⟩) events ≠ .error .nullEvent) ↔
      (lifeMachine platform).Meets (fun life event => ¬ Overtakes platform life event) (.new ⟨cli, dups⟩) events := by
  have sharp := (lifeMachine platform).always_avoids_iff (fun life event => ¬ Overtakes platform life event)
    (fun life => life.work.cli.Clocked) (fun life => life.work.cli.Timed) (· = .nullEvent)
    (fun life clocked => clocked.timed)
    (fun life event clocked current => lifeStep_clocked platform life event clocked current)
    (fun life event clocked overtakes =>
      Or.inr (lifeStep_overtakes platform life event clocked (Classical.not_not.mp overtakes)))
    events (show (ClientLife.new ⟨cli, dups⟩).work.cli.Clocked from fresh.clocked)
  apply Iff.trans ?_ sharp
  apply and_congr_right
  intro _
  constructor
  · intro avoided fault failed same
    exact avoided (same ▸ failed)
  · exact fun avoided failed => avoided .nullEvent failed rfl

/-- A confirmable request is sent twice, and times out. -/
def unansweredRequest : List LifeEvent :=
  [.send none true, .event (.dns resolvedOnce), .event (.coapTimeout true), .event (.appTimeout true)]

theorem unansweredRequest_timed : (lifeMachine loopbackPlatform).Always (fun life => life.work.cli.Timed)
    (.new ⟨confirmableGet, EcDups.empty⟩) unansweredRequest :=
  ((clientTimers_iff loopbackPlatform confirmableGet EcDups.empty ⟨rfl, rfl, rfl, rfl, rfl, rfl, rfl⟩
    unansweredRequest).mpr ⟨id, fun _ _ => ⟨id, fun _ _ => ⟨id, fun _ _ => ⟨id, fun _ _ => trivial⟩⟩⟩⟩).1

/-- An observation is established, then cancelled by the user who owns the client, and two notifications follow. -/
def cancelledNotifications : List LifeEvent :=
  [.send none true, .event (.dns resolvedOnce), .event (.datagram (observedContent 0x61 1 5 1700000000)), .event .cancel,
    .event (.datagram (observedContent 0x51 2 6 1700000010)), .event (.datagram (observedContent 0x51 3 7 1700000020))]

/-- The second notification restarts a timer that the first one has removed. -/
theorem cancelledNotifications_run : (lifeMachine loopbackPlatform).run
    (.new ⟨{observingGet with userown := true}, EcDups.empty⟩) cancelledNotifications = .error .nullEvent := by
  rfl

/-- The timers are not always those of the client's state, and one that does not exist is restarted. -/
theorem cancelledNotifications_untimed : ¬ ∀ platform cli dups events, cli.Fresh →
    (lifeMachine platform).Always (fun life => life.work.cli.Timed) (.new ⟨cli, dups⟩) events ∧
      (lifeMachine platform).run (.new ⟨cli, dups⟩) events ≠ .error .nullEvent := by
  intro always
  apply (always loopbackPlatform {observingGet with userown := true} EcDups.empty cancelledNotifications
    ⟨rfl, rfl, rfl, rfl, rfl, rfl, rfl⟩).2
  exact cancelledNotifications_run

end Webthings.Evcoap
