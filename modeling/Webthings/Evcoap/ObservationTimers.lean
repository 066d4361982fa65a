import Webthings.Evcoap.ClientTrace
import Webthings.Evcoap.LifeFrame
import Webthings.Evcoap.Notifications
import Webthings.Evcoap.TypedGetters

namespace Webthings.Evcoap
open Webthings.Transition

/-- The lifetime that a message advertises. -/
def EcOpts.lifetime (order : ByteOrder) (opts : EcOpts) : Nat :=
  match ecOptsGet opts .maxAge with
  | none => ecCoapDefaultMaxAge
  | some o => o.integer order

/-- The lifetime that the start of the observation timer reads from a message. -/
def EcOpts.readLifetime (order : ByteOrder) (opts : EcOpts) : Nat :=
  match ecOptsGetMaxAge order opts with
  | none => ecCoapDefaultMaxAge
  | some maxAge => maxAge.toNat

/-- The lifetime is read from a Max-Age option of at most eight bytes that has 32 bits; an option that is absent, and
one that is longer, passes for an hour. -/
theorem EcOpts.readLifetime_iff (order : ByteOrder) (opts : EcOpts) :
    opts.readLifetime order = opts.lifetime order ↔
      ∃ o, ecOptsGet opts .maxAge = some o ∧ (o.l ≤ 8 ∨ o.integer order = 3600) ∧ o.integer order ≤ 0xffffffff := by
  unfold readLifetime lifetime ecOptsGetMaxAge
  cases found : ecOptsGet opts .maxAge with
  | none =>
      have unread : ecOptsGetUint order opts .maxAge = none := by simp [ecOptsGetUint, found]
      rw [unread]
      refine iff_of_false ?_ fun ⟨o, impossible, _⟩ => ?_
      · change ¬ (3600 : UInt32).toNat = 60
        decide
      · cases impossible
  | some o =>
      have read := ecOptsGetUint_eq order (by decide) found
      have hour : (3600 : UInt32).toNat = 3600 := rfl
      rw [read]
      by_cases short : o.l ≤ 8
      · rw [if_pos short]
        by_cases large : o.integer order > 0xffffffff
        · simp only [if_pos large, ecCoapDefaultMaxAge, Option.some.injEq, exists_eq_left']
          omega
        · have back : (o.integer order).toUInt32.toNat = o.integer order := Nat.mod_eq_of_lt (by omega)
          simp only [if_neg large, back, true_iff]
          exact ⟨o, rfl, Or.inl short, by omega⟩
      · simp only [if_neg short, hour, Option.some.injEq, exists_eq_left']
        omega

/-- A response that has made a client wait for notifications: when it came, and the lifetime that it advertises. -/
structure Notice where
  time : Nat
  lifetime : Nat

/-- An event and the time, in microseconds, at which it happens. -/
structure Moment where
  time : Nat
  event : LifeEvent

def TimeVal.usecs (tv : TimeVal) : Nat := tv.sec * 1000000 + tv.usec

/-- A client with the time at which the event loop was last given its observation timer, and with the last response that
has made it wait for notifications. -/
structure ObsWatch where
  life : ClientLife
  armed : Nat
  latest : Option Notice

/-- A client that the user has just made. -/
def ObsWatch.new (w : CliWork) : ObsWatch := ⟨.new w, 0, none⟩

namespace ObsWatch

/-- The event loop does not call the observation timer back before its time. -/
def early (s : ObsWatch) (m : Moment) : Bool :=
  match m.event with
  | .event (.obsTimeout _) => m.time < s.armed + s.life.work.cli.obs.tout.usecs
  | _ => false

def entries (platform : Platform) (s : ObsWatch) (m : Moment) : List Entry :=
  if s.early m then [] else s.life.entries platform m.event

/-- The response of the event, if it makes the client wait for notifications and its user is told. -/
def notice (platform : Platform) (s : ObsWatch) (m : Moment) : Option Notice :=
  match m.event with
  | .event (.datagram input) =>
      if (s.entries platform m).any fun entry => entry.state == .waitNfy && entry.told.isSome then
        some ⟨m.time, input.opts.lifetime platform.order⟩
      else none
  | _ => none

end ObsWatch

/-- The timer is given to the event loop whenever the client begins to wait for notifications, or goes on to. -/
def obsStep (platform : Platform) (s : ObsWatch) (m : Moment) : Except EcFault ObsWatch :=
  if s.early m then .ok s
  else
    (lifeStep platform s.life m.event).map fun life =>
      ⟨life, if (s.entries platform m).any fun entry => entry.state == .waitNfy then m.time else s.armed,
        (s.notice platform m).or s.latest⟩

def obsMachine (platform : Platform) : Machine ObsWatch Moment EcFault := ⟨obsStep platform⟩

/-- A response that makes the client wait for notifications leaves the observation timer armed, from now on, for one
second more than the lifetime that the response advertises. -/
def ArmedAnew (platform : Platform) (s : ObsWatch) (m : Moment) : Prop :=
  ∀ notice next, s.notice platform m = some notice → obsStep platform s m = .ok next →
    next.life.work.cli.obs.pending = true ∧ next.life.work.cli.obs.tout = ⟨notice.lifetime + 1, 0⟩ ∧
      next.armed = m.time

/-- The observation times out only when the lifetime of the last response is over. -/
def TimesOutLate (platform : Platform) (s : ObsWatch) (m : Moment) : Prop :=
  ∀ entry ∈ s.entries platform m, entry.state = .obsTimeout →
    ∃ notice, s.latest = some notice ∧ notice.time + (notice.lifetime + 1) * 1000000 ≤ m.time

/-- What establishes an observation has a lifetime that is read as it is advertised from the first response of the set,
and a notification has the lifetime of the response before it. -/
def SteadyLifetime (platform : Platform) (s : ObsWatch) (m : Moment) : Prop :=
  ∀ input h judgement, m.event = .event (.datagram input) → s.life.work.Hears platform input h →
    s.life.work.cli.Watches platform.order h input judgement → s.life.work.cli.CanFollow .waitNfy →
    s.life.work.cli.observe.cancel = false →
    if s.life.work.cli.state = .waitNfy then ∃ prev, s.latest = some prev ∧ prev.lifetime = input.opts.lifetime platform.order
    else (s.life.work.cli.shown h input).opts.readLifetime platform.order = input.opts.lifetime platform.order

/-- A timer that exists was armed by the last response, for its lifetime. -/
def ObsWatch.Armed (s : ObsWatch) (ti : EcTimer) : Prop :=
  ti.evti = true ∨ ti.pending = true →
    ∃ notice, s.latest = some notice ∧ ti.tout = ⟨notice.lifetime + 1, 0⟩ ∧ s.armed = notice.time

section Timers

variable {platform : Platform} {w : CliWork}

theorem ecClientFinish_obs (isCon : Bool) (cli : EcClient) : (ecClientFinish isCon cli).obs = ecTimerRemove cli.obs := by
  unfold ecClientFinish
  cases isCon <;> cases cli.userown <;> rfl

/-- No other state than the one that waits for notifications touches their timer. -/
theorem ecClientEnter_obs {sent isCon : Bool} {next : EcCliState} {entered : CliWork} (other : next ≠ .waitNfy)
    (entering : ecClientEnter platform sent isCon next w = .ok entered) : entered.cli.obs = w.cli.obs := by
  obtain ⟨_, _, obs, _, framed, kept⟩ := ecClientEnter_timers entering
  rw [framed]
  exact kept other

theorem ecClientSetState_obs {sent : Bool} {next : EcCliState} {moved : CliWork × Bool} (other : next ≠ .waitNfy)
    (made : ecClientSetState platform sent w next = .ok moved) :
    moved.1.cli.obs = w.cli.obs ∨ moved.1.cli.obs = ecTimerRemove w.cli.obs := by
  obtain ⟨entered, log, entering, ⟨_, ended⟩ | ⟨_, _, goes⟩⟩ := ecClientSetState_made made
  · have same := ecClientEnter_obs other entering
    right
    rw [ended, ecClientFinish_obs]
    exact congrArg ecTimerRemove same
  · have same := ecClientEnter_obs other entering
    left
    rw [goes]
    exact same

/-- What holds of the observation timer, and of it when it has fired or is removed, is kept by the events that do not
make the client wait for notifications. -/
theorem obs_kept (platform : Platform) {kept : EcTimer → Prop} (removes : ∀ ti, kept ti → kept (ecTimerRemove ti))
    (fires : ∀ ti, kept ti → kept ti.fired) : KeptThrough platform (· ≠ .waitNfy) fun cli => kept cli.obs where
  sends := by decide
  fails := by decide
  moves := by
    intro sent w next moved other made held
    rcases ecClientSetState_obs other made with same | removed
    · rw [same]
      exact held
    · rw [removed]
      exact removes _ held
  flow := fun _ _ _ held => held
  req := fun _ _ _ held => held
  log := fun _ _ _ held => held
  sets := fun _ _ _ _ _ held => held
  tout := fun _ _ held => held
  appFired := fun _ held => held
  coapFired := fun _ held => held
  obsFired := fun cli held => fires cli.obs held

/-- The timer that a client waits for notifications with: the one that it has, or a new one for the lifetime that is
read from the first response of its set. -/
def EcClient.obsTimer (order : ByteOrder) (cli : EcClient) (res : EcPdu) : EcTimer :=
  if cli.state = .waitNfy then {cli.obs with pending := true}
  else ⟨1, true, true, ⟨res.opts.readLifetime order + 1, 0⟩⟩

theorem ecCliStartObsTimer_obs (order : ByteOrder) (cli : EcClient) {res : EcPdu} (first : cli.resSet.head? = some res)
    (started : (ecCliStartObsTimer order cli).2 = 0) :
    (ecCliStartObsTimer order cli).1.obs = ⟨1, true, true, ⟨res.opts.readLifetime order + 1, 0⟩⟩ := by
  have got : ecClientGetResponsePdu cli = some res := first
  unfold ecCliStartObsTimer ecTimerStart at started ⊢
  rw [got] at started ⊢
  dsimp only [Option.bind_some] at started ⊢
  unfold EcOpts.readLifetime
  split at started
  · cases started
  · split at started
    · cases started
    · rename_i positive absent
      rw [if_neg positive]
      exact congrArg Prod.fst (if_neg absent)

theorem ecClientEnter_waits {sent isCon : Bool} {entered : CliWork} {res : EcPdu} (first : w.cli.resSet.head? = some res)
    (entering : ecClientEnter platform sent isCon .waitNfy w = .ok entered) :
    entered.cli.obs = w.cli.obsTimer platform.order res ∧ entered.cli.obs.evti = true ∧
      entered.cli.observe = w.cli.observe := by
  unfold ecClientEnter at entering
  dsimp only at entering
  unfold EcClient.obsTimer
  by_cases watching : w.cli.state = .waitNfy
  · rw [if_pos watching] at entering ⊢
    split at entering
    · cases entering
    · rename_i restarted
      cases entering
      obtain ⟨obs, armed, same⟩ := Option.map_eq_some_iff.mp restarted
      unfold ecTimerRestart at armed
      split at armed
      · rename_i present
        cases armed
        rw [← same]
        exact ⟨rfl, present, rfl⟩
      · cases armed
  · rw [if_neg watching] at entering ⊢
    cases isCon with
    | true =>
        rw [if_pos rfl] at entering
        split at entering
        · cases entering
        · rename_i started
          cases entering
          have armed := ecCliStartObsTimer_obs platform.order (ecCliStopCoapTimer (ecCliStopAppTimer w.cli)) first
            (Decidable.not_not.mp started)
          exact ⟨armed, congrArg EcTimer.evti armed, rfl⟩
    | false =>
        rw [if_neg Bool.false_ne_true] at entering
        split at entering
        · cases entering
        · rename_i started
          cases entering
          have armed := ecCliStartObsTimer_obs platform.order (ecCliStopAppTimer w.cli) first
            (Decidable.not_not.mp started)
          exact ⟨armed, congrArg EcTimer.evti armed, rfl⟩

/-- A client that goes on to wait for notifications has the timer armed, and none when its user has cancelled. -/
theorem ecClientSetState_waits {sent : Bool} {moved : CliWork × Bool} {res : EcPdu}
    (first : w.cli.resSet.head? = some res) (made : ecClientSetState platform sent w .waitNfy = .ok moved) :
    (w.cli.observe.cancel = true ∧ moved.1.cli.obs.evti = false ∧ moved.1.cli.obs.pending = false) ∨
      (w.cli.observe.cancel = false ∧ moved.1.cli.obs = w.cli.obsTimer platform.order res) := by
  unfold ecClientSetState at made
  split at made
  · cases made
  · dsimp only at made
    split at made
    · cases made
    · rename_i entered entering
      obtain ⟨armed, present, observe⟩ := ecClientEnter_waits first entering
      have asked : (entered.cli.enter .waitNfy).observe.cancel = w.cli.observe.cancel :=
        congrArg EcCliObs.cancel observe
      have waits : (ecClientStateIsFinal .waitNfy || EcCliState.waitNfy == .waitNfy) = true := rfl
      have lasting : ecClientStateIsFinal .waitNfy = false := rfl
      rw [waits, lasting, Bool.true_and, Bool.false_or, asked] at made
      cases cancelled : w.cli.observe.cancel with
      | true =>
          left
          obtain ⟨log, reset⟩ := ecClientRstPeer_frame platform sent {entered with cli := entered.cli.enter .waitNfy}
          rw [cancelled, if_pos rfl, if_pos rfl, reset] at made
          cases made
          refine ⟨rfl, ?_⟩
          dsimp only
          rw [ecClientFinish_obs]
          unfold ecTimerRemove
          rw [if_pos (by exact present)]
          exact ⟨rfl, rfl⟩
      | false =>
          right
          rw [cancelled, if_neg Bool.false_ne_true, if_neg Bool.false_ne_true] at made
          cases made
          exact ⟨rfl, armed⟩

/-- The timer after a response that makes the client wait for notifications. -/
theorem ecClientHandleNew_waits {h : EcHdr} {input : Incoming} {judgement : EcCliObs} {handled : CliWork × EcNetCbrc}
    (watches : w.cli.Watches platform.order h input judgement)
    (done : ecClientHandleNew platform w h input = .ok handled) :
    w.cli.CanFollow .waitNfy ∧
      ((w.cli.observe.cancel = true ∧ handled.1.cli.obs.evti = false ∧ handled.1.cli.obs.pending = false) ∨
        (w.cli.observe.cancel = false ∧ handled.1.cli.obs = w.cli.obsTimer platform.order (w.cli.shown h input))) := by
  obtain ⟨code, taken, judged, on⟩ := watches
  have waiting := judgement.asks_waitNfy.mpr on
  have follows : w.cli.CanFollow .waitNfy := by
    apply Classical.byContradiction
    intro stuck
    obtain ⟨fault, failed⟩ := ecClientHandleNew_unfollowed platform code taken judged (waiting ▸ stuck)
    cases failed.symm.trans done
  refine ⟨follows, ?_⟩
  unfold ecClientHandleNew at done
  rw [if_neg code, ecClientTakeResponse_taken platform taken, judged] at done
  dsimp only at done
  rw [waiting] at done
  obtain ⟨moved, made, same⟩ := map_ok done
  have armed := ecClientSetState_waits (w := {w with cli := {w.cli.added h input with observe := judgement}})
    (w.cli.added_shown h input) made
  have cancel : judgement.cancel = w.cli.observe.cancel := EcCliObs.judge_cancel judged
  have kept : handled.1.cli.obs = moved.1.cli.obs := by
    rw [← same]
    split
    · rfl
    · dsimp only
      split <;> rfl
  rw [kept, ← cancel]
  exact armed

end Timers

section Entering

variable {platform : Platform}

theorem ecClientConnectStates_sends (registers : Bool) (ais : List AddrInfo) :
    ∀ state ∈ ecClientConnectStates registers ais, state ≠ .waitNfy ∧ state ≠ .obsTimeout := by
  induction ais with
  | nil => simp [ecClientConnectStates]
  | cons ai ais ih =>
      unfold ecClientConnectStates
      split
      · exact ih
      · split
        · simp
        · split
          · exact ih
          · split
            · simp
            · cases registers <;> simp

theorem ecClientDnsCbStates_sends (platform : Platform) (env : DnsEnv) (cli : EcClient) :
    ∀ state ∈ ecClientDnsCbStates platform env cli, state ≠ .waitNfy ∧ state ≠ .obsTimeout := by
  unfold ecClientDnsCbStates
  cases env.ais with
  | none => simp
  | some ais =>
      dsimp only
      intro state entered
      rcases List.mem_cons.mp entered with rfl | later
      · exact ⟨by decide, by decide⟩
      · split at later
        · rw [List.mem_singleton.mp later]
          exact ⟨by decide, by decide⟩
        · split at later
          · split at later
            · rw [List.mem_singleton.mp later]
              exact ⟨by decide, by decide⟩
            · have sends : state = .reqSent ∨ state = .internalErr := by
                revert later
                cases env.registers <;> simp +contextual
              rcases sends with rfl | rfl <;> exact ⟨by decide, by decide⟩
          · exact ecClientConnectStates_sends env.registers ais state later

theorem ecCliCoapTimeoutStates_sends (sent : Bool) (cli : EcClient) :
    ∀ state ∈ ecCliCoapTimeoutStates sent cli, state ≠ .waitNfy ∧ state ≠ .obsTimeout := by
  unfold ecCliCoapTimeoutStates
  split
  · simp
  · split <;> simp

/-- A message enters no other state than the one in which notifications are waited for, and none that has to do with
them, unless it makes the client wait. -/
theorem ecClientHandleNewEntries_cases {cli : EcClient} {h : EcHdr} {input : Incoming} {entry : Entry}
    (entered : entry ∈ ecClientHandleNewEntries platform cli h input) :
    entry.state ≠ .obsTimeout ∧
      (entry.state = .waitNfy → ∃ judgement, cli.Watches platform.order h input judgement) := by
  unfold ecClientHandleNewEntries at entered
  by_cases code : h.code = 0
  · rw [if_pos code] at entered
    cases type : h.t with
    | ack =>
        rw [type] at entered
        rw [List.mem_singleton.mp entered]
        exact ⟨fun same => (by cases same), fun same => (by cases same)⟩
    | rst =>
        rw [type] at entered
        rw [List.mem_singleton.mp entered]
        exact ⟨fun same => (by cases same), fun same => (by cases same)⟩
    | con | non =>
        rw [type] at entered
        cases entered
  · rw [if_neg code] at entered
    by_cases taken : cli.TakesIn h input
    · rw [ecClientTakeResponse_taken platform taken] at entered
      cases judged : cli.judged platform.order h input with
      | none =>
          rw [judged] at entered
          cases entered
      | some judgement =>
          rw [judged] at entered
          rw [List.mem_singleton.mp entered]
          rcases judgement.asks_cases with waiting | done
          · refine ⟨?_, fun _ => ⟨judgement, code, taken, judged, judgement.asks_waitNfy.mp waiting⟩⟩
            change judgement.asks ≠ .obsTimeout
            rw [waiting]
            decide
          · change judgement.asks ≠ .obsTimeout ∧ (judgement.asks = .waitNfy → _)
            rw [done]
            exact ⟨by decide, fun same => (by cases same)⟩
    · rw [ecClientTakeResponse_refused platform taken] at entered
      cases entered

/-- A response that makes a client wait for notifications enters this state, and tells the user, unless he has
cancelled. -/
theorem ClientLife.entries_watches {life : ClientLife} {input : Incoming} {h : EcHdr} {judgement : EcCliObs}
    (hears : life.work.Hears platform input h) (watches : life.work.cli.Watches platform.order h input judgement) :
    life.entries platform (.event (.datagram input)) =
      [⟨.waitNfy, if life.work.cli.observe.cancel then none else some (some (life.work.cli.shown h input))⟩] := by
  obtain ⟨code, taken, judged, on⟩ := watches
  have cancel : judgement.cancel = life.work.cli.observe.cancel := EcCliObs.judge_cancel judged
  have first : ecClientGetResponsePdu {life.work.cli.added h input with observe := judgement} =
      some (life.work.cli.shown h input) := life.work.cli.added_shown h input
  rw [ClientLife.entries_hears hears]
  unfold ecClientHandleNewEntries
  rw [if_neg code, ecClientTakeResponse_taken platform taken, judged]
  dsimp only
  rw [judgement.asks_waitNfy.mpr on]
  unfold EcClient.entry
  dsimp only
  rw [first, cancel]
  cases life.work.cli.observe.cancel <;> rfl

/-- The observation times out by its timer alone, and notifications are waited for after a response alone. -/
theorem ClientLife.entries_cases {life : ClientLife} {event : LifeEvent} {entry : Entry}
    (entered : entry ∈ life.entries platform event) :
    (entry.state = .waitNfy → life.Watches platform event) ∧
      (entry.state = .obsTimeout → life.work.cli.obs.pending = true ∧ ∃ sent, event = .event (.obsTimeout sent)) := by
  have mapped : ∀ states : List EcCliState, (∀ state ∈ states, state ≠ .waitNfy ∧ state ≠ .obsTimeout) →
      entry ∈ states.map life.work.cli.entry → (entry.state = .waitNfy → life.Watches platform event) ∧
        (entry.state = .obsTimeout → life.work.cli.obs.pending = true ∧ ∃ sent, event = .event (.obsTimeout sent)) := by
    intro states sends member
    obtain ⟨state, among, same⟩ := List.mem_map.mp member
    subst same
    exact ⟨fun waits => absurd waits (sends state among).1, fun ends => absurd ends (sends state among).2⟩
  have live : life.work.cli.freed = false := by
    cases freed : life.work.cli.freed with
    | false => rfl
    | true =>
        unfold ClientLife.entries at entered
        rw [if_pos freed] at entered
        cases entered
  have alive : ¬ life.work.cli.freed = true := by simp [live]
  cases event with
  | send tout destination =>
      apply mapped [.internalErr] (by simp)
      rw [ClientLife.entries, if_neg alive] at entered
      split at entered
      · cases entered
      · exact entered
  | event event =>
      cases event with
      | dns env =>
          apply mapped _ (ecClientDnsCbStates_sends platform env life.work.cli)
          rw [ClientLife.entries, if_neg alive] at entered
          split at entered
          · cases entered
          · exact entered
      | datagram input =>
          by_cases heard : ∃ h, life.work.Hears platform input h
          · obtain ⟨h, hears⟩ := heard
            rw [ClientLife.entries_hears hears] at entered
            obtain ⟨lasts, waits⟩ := ecClientHandleNewEntries_cases entered
            refine ⟨fun waiting => ?_, fun ends => absurd ends lasts⟩
            obtain ⟨judgement, watches⟩ := waits waiting
            exact ⟨h, judgement, hears, watches⟩
          · rw [ClientLife.entries_unheard fun h hears => heard ⟨h, hears⟩] at entered
            cases entered
      | appTimeout sent =>
          apply mapped [.appTimeout] (by simp)
          rw [ClientLife.entries, if_neg alive] at entered
          split at entered
          · exact entered
          · cases entered
      | coapTimeout sent =>
          apply mapped _ (ecCliCoapTimeoutStates_sends sent life.work.cli)
          rw [ClientLife.entries, if_neg alive] at entered
          split at entered
          · exact entered
          · cases entered
      | obsTimeout sent =>
          rw [ClientLife.entries, if_neg alive] at entered
          split at entered
          · rename_i armed
            rw [List.mem_singleton.mp entered]
            exact ⟨fun same => (by cases same), fun _ => ⟨armed, sent, rfl⟩⟩
          · cases entered
      | cancel | shared =>
          rw [ClientLife.entries, if_neg alive] at entered
          cases entered

end Entering

section Steps

variable {platform : Platform} {s next : ObsWatch} {m : Moment}

theorem ObsWatch.entries_datagram (platform : Platform) {input : Incoming} (event : m.event = .event (.datagram input)) :
    s.early m = false ∧ s.entries platform m = s.life.entries platform m.event := by
  have due : s.early m = false := by
    unfold early
    rw [event]
  unfold entries
  rw [due]
  exact ⟨rfl, rfl⟩

/-- The entries of a step are what the log of the client has gained. -/
theorem obsStep_enteredSince (stepped : obsStep platform s m = .ok next) :
    next.life.work.cli.enteredSince s.life.work.cli = s.entries platform m := by
  unfold obsStep at stepped
  unfold ObsWatch.entries
  split at stepped
  · rename_i early
    cases stepped
    rw [if_pos early]
    exact List.drop_length
  · rename_i due
    obtain ⟨life, lived, same⟩ := map_ok stepped
    subst same
    rw [if_neg due]
    exact lifeStep_enteredSince lived

/-- A response that makes the client wait for notifications is the last one from then on, unless its user has
cancelled: then the timer is gone. -/
theorem obsStep_watches {input : Incoming} {h : EcHdr} {judgement : EcCliObs}
    (event : m.event = .event (.datagram input)) (hears : s.life.work.Hears platform input h)
    (watches : s.life.work.cli.Watches platform.order h input judgement) (stepped : obsStep platform s m = .ok next) :
    s.life.work.cli.CanFollow .waitNfy ∧
      ((s.life.work.cli.observe.cancel = true ∧ s.notice platform m = none ∧ next.life.work.cli.obs.evti = false ∧
          next.life.work.cli.obs.pending = false) ∨
        (s.life.work.cli.observe.cancel = false ∧
          s.notice platform m = some ⟨m.time, input.opts.lifetime platform.order⟩ ∧
          next.life.work.cli.obs = s.life.work.cli.obsTimer platform.order (s.life.work.cli.shown h input) ∧
          next.armed = m.time ∧ next.latest = some ⟨m.time, input.opts.lifetime platform.order⟩)) := by
  obtain ⟨due, entering⟩ := ObsWatch.entries_datagram platform (s := s) event
  rw [event, ClientLife.entries_watches hears watches] at entering
  have noticed : s.notice platform m =
      if s.life.work.cli.observe.cancel then none else some ⟨m.time, input.opts.lifetime platform.order⟩ := by
    unfold ObsWatch.notice
    rw [event]
    dsimp only
    rw [entering]
    cases s.life.work.cli.observe.cancel <;> rfl
  unfold obsStep at stepped
  rw [if_neg (by simp [due]), entering, noticed, event, lifeStep_hears hears] at stepped
  obtain ⟨life, lived, same⟩ := map_ok stepped
  obtain ⟨handled, done, made⟩ := map_ok lived
  have seen : (s.life.work.seen platform input h).cli.Watches platform.order h input judgement := watches
  obtain ⟨follows, armed⟩ := ecClientHandleNew_waits seen done
  refine ⟨follows, ?_⟩
  subst same made
  rcases armed with ⟨cancelled, absent, idle⟩ | ⟨wanted, armed⟩
  · have asked : s.life.work.cli.observe.cancel = true := cancelled
    left
    rw [noticed, asked]
    exact ⟨rfl, rfl, absent, idle⟩
  · have asked : s.life.work.cli.observe.cancel = false := wanted
    right
    rw [noticed, asked]
    exact ⟨rfl, rfl, armed, rfl, rfl⟩

/-- Any other event leaves the last response and the time of the timer as they are. -/
theorem obsStep_unwatched (other : ¬ s.life.Watches platform m.event) (stepped : obsStep platform s m = .ok next) :
    s.notice platform m = none ∧ next.armed = s.armed ∧ next.latest = s.latest ∧
      (s.Armed s.life.work.cli.obs → s.Armed next.life.work.cli.obs) := by
  have unentered : (s.entries platform m).any (fun entry => entry.state == .waitNfy) = false := by
    apply List.any_eq_false.mpr
    intro entry entered waits
    unfold ObsWatch.entries at entered
    split at entered
    · cases entered
    · exact other ((ClientLife.entries_cases entered).1 (beq_iff_eq.mp waits))
  have untold : s.notice platform m = none := by
    unfold ObsWatch.notice
    split
    · apply if_neg
      intro told
      obtain ⟨entry, entered, both⟩ := List.any_eq_true.mp told
      have waits := List.any_eq_false.mp unentered entry entered
      exact waits (Bool.and_eq_true _ _ ▸ both).1
    · rfl
  unfold obsStep at stepped
  split at stepped
  · cases stepped
    exact ⟨untold, rfl, rfl, id⟩
  · rw [unentered, untold] at stepped
    obtain ⟨life, lived, same⟩ := map_ok stepped
    subst same
    refine ⟨untold, rfl, rfl, fun armed => ?_⟩
    have frame : KeptThrough platform (· ≠ .waitNfy) fun cli => s.Armed cli.obs := by
      apply obs_kept
      · intro ti held
        unfold ecTimerRemove
        split
        · exact fun running => by simp at running
        · exact held
      · intro ti held running
        have still : ti.evti = true ∨ ti.pending = true := by simpa [EcTimer.fired] using Or.inl running
        exact held still
    exact frame.lifeStep (fun _ away => away) armed (fun watches => absurd watches other) lived

theorem ClientLife.Watches.datagram {life : ClientLife} {event : LifeEvent} (watching : life.Watches platform event) :
    ∃ input h judgement, event = .event (.datagram input) ∧ life.work.Hears platform input h ∧
      life.work.cli.Watches platform.order h input judgement := by
  cases event with
  | send => exact absurd watching id
  | event event =>
      cases event with
      | datagram input =>
          obtain ⟨h, judgement, hears, watches⟩ := watching
          exact ⟨input, h, judgement, rfl, hears, watches⟩
      | dns | appTimeout | coapTimeout | obsTimeout | cancel | shared => exact absurd watching id

/-- The timer of a client that can go on is armed for a lifetime exactly when the last response had it, or it is read
from the first one. -/
theorem ObsWatch.Armed.tout_iff (armed : s.Armed s.life.work.cli.obs) (follows : s.life.work.cli.CanFollow .waitNfy)
    (res : EcPdu) (lifetime : Nat) :
    (s.life.work.cli.obsTimer platform.order res).tout = ⟨lifetime + 1, 0⟩ ↔
      if s.life.work.cli.state = .waitNfy then ∃ prev, s.latest = some prev ∧ prev.lifetime = lifetime
      else res.opts.readLifetime platform.order = lifetime := by
  unfold EcClient.obsTimer
  by_cases watching : s.life.work.cli.state = .waitNfy
  · rw [if_pos watching, if_pos watching]
    obtain ⟨prev, latest, tout, _⟩ := armed (Or.inl ((follows.timer rfl).mpr watching))
    simp [latest, tout]
  · rw [if_neg watching, if_neg watching]
    simp

/-- Steady lifetimes keep the timer armed for the last response. -/
theorem obsStep_armed (armed : s.Armed s.life.work.cli.obs) (steady : SteadyLifetime platform s m)
    (stepped : obsStep platform s m = .ok next) : next.Armed next.life.work.cli.obs := by
  by_cases watching : s.life.Watches platform m.event
  · obtain ⟨input, h, judgement, event, hears, watches⟩ := watching.datagram
    obtain ⟨follows, after⟩ := obsStep_watches event hears watches stepped
    rcases after with ⟨_, _, absent, idle⟩ | ⟨wanted, _, timer, time, latest⟩
    · exact fun running => by simp [absent, idle] at running
    · have tout := (armed.tout_iff follows (s.life.work.cli.shown h input) (input.opts.lifetime platform.order)).mpr
        (steady input h judgement event hears watches follows wanted)
      exact fun _ => ⟨_, latest, timer ▸ tout, time⟩
  · obtain ⟨_, time, latest, kept⟩ := obsStep_unwatched watching stepped
    have still := kept armed
    unfold ObsWatch.Armed at still ⊢
    rw [time, latest]
    exact still

/-- A timer that is armed for the last response fires when its lifetime is over. -/
theorem ObsWatch.Armed.late (armed : s.Armed s.life.work.cli.obs) : TimesOutLate platform s m := by
  intro entry entered ends
  unfold entries at entered
  split at entered
  · cases entered
  · rename_i due
    obtain ⟨pending, sent, event⟩ := (ClientLife.entries_cases entered).2 ends
    obtain ⟨notice, latest, tout, time⟩ := armed (Or.inr pending)
    unfold early at due
    rw [event, tout, time] at due
    refine ⟨notice, latest, ?_⟩
    simpa [TimeVal.usecs] using due

/-- While the timer is armed for the last response, the next one is armed for exactly when its lifetime is steady. -/
theorem ObsWatch.Armed.anew_iff (armed : s.Armed s.life.work.cli.obs) :
    ArmedAnew platform s m ↔ SteadyLifetime platform s m := by
  constructor
  · intro anew input h judgement event hears watches follows wanted
    have asked : s.life.work.cli.CanFollow judgement.asks := judgement.asks_waitNfy.mpr watches.observing ▸ follows
    obtain ⟨w', rc, answered, _, _⟩ := ecClientHandleNew_answered platform (w := s.life.work.seen platform input h)
      watches.response watches.taken watches.judged asked
    obtain ⟨next, stepped⟩ : ∃ next, obsStep platform s m = .ok next := by
      unfold obsStep
      rw [if_neg (by simp [(entries_datagram platform event).1]), event, lifeStep_hears hears, answered]
      exact ⟨_, rfl⟩
    obtain ⟨_, after⟩ := obsStep_watches event hears watches stepped
    rcases after with ⟨cancelled, _⟩ | ⟨_, noticed, timer, _⟩
    · exact absurd (wanted.symm.trans cancelled) Bool.false_ne_true
    · have tout := (anew _ next noticed stepped).2.1
      rw [timer] at tout
      exact (armed.tout_iff follows _ _).mp tout
  · intro steady notice next noticed stepped
    by_cases watching : s.life.Watches platform m.event
    · obtain ⟨input, h, judgement, event, hears, watches⟩ := watching.datagram
      obtain ⟨follows, after⟩ := obsStep_watches event hears watches stepped
      rcases after with ⟨_, untold, _⟩ | ⟨wanted, told, timer, time, _⟩
      · cases untold.symm.trans noticed
      · cases told.symm.trans noticed
        have tout := (armed.tout_iff follows (s.life.work.cli.shown h input) (input.opts.lifetime platform.order)).mpr
          (steady input h judgement event hears watches follows wanted)
        refine ⟨?_, timer ▸ tout, time⟩
        rw [timer]
        unfold EcClient.obsTimer
        split <;> rfl
    · cases (obsStep_unwatched watching stepped).1.symm.trans noticed

end Steps

/-- In a run the observation timer is always armed for the response or notification that has just come, and times out
only after its lifetime, exactly when the lifetimes are steady. -/
theorem obsTimers_iff (platform : Platform) (cli : EcClient) (dups : EcDups) (fresh : cli.Fresh)
    (moments : List Moment) :
    (obsMachine platform).Meets (fun s m => ArmedAnew platform s m ∧ TimesOutLate platform s m)
        (.new ⟨cli, dups⟩) moments ↔
      (obsMachine platform).Meets (SteadyLifetime platform) (.new ⟨cli, dups⟩) moments := by
  apply (obsMachine platform).meets_iff_kept fun s => s.Armed s.life.work.cli.obs
  · exact fun s m next armed steady stepped => obsStep_armed armed steady stepped
  · exact fun s m armed => ⟨fun both => armed.anew_iff.mp both.1, fun steady => ⟨armed.anew_iff.mpr steady, armed.late⟩⟩
  · have idle : cli.obs = EcTimer.zero := fresh.2.2.2.1
    intro running
    change cli.obs.evti = true ∨ cli.obs.pending = true at running
    rw [idle] at running
    simp [EcTimer.zero] at running

/-- A 2.05 response that lives for some seconds and has an Observe option; `first` is its first header byte. -/
def agingContent (first low age count : UInt8) (now : Nat) : Incoming :=
  ⟨[first, 0x45, 0, low, 0x21, age, 0x81, count], fun _ => 0, 5, loopback, now, true, true⟩

/-- An observation is established for a lifetime, and is notified ten seconds later for another one. -/
def agingNotifications (age age' : UInt8) : List Moment :=
  [⟨0, .send none true⟩, ⟨1, .event (.dns resolvedOnce)⟩,
    ⟨2, .event (.datagram (agingContent 0x62 1 age 5 1700000000))⟩,
    ⟨10000002, .event (.datagram (agingContent 0x52 2 age' 6 1700000010))⟩]

/-- The states of an observation that is established and notified. -/
theorem agingNotifications_run (age age' : UInt8) (known : (age, age') = (10, 10) ∨ (age, age') = (10, 60)) :
    ∃ sent resolved established next,
      obsStep loopbackPlatform (.new ⟨observingGet, EcDups.empty⟩) ⟨0, .send none true⟩ = .ok sent ∧
      obsStep loopbackPlatform sent ⟨1, .event (.dns resolvedOnce)⟩ = .ok resolved ∧
      obsStep loopbackPlatform resolved ⟨2, .event (.datagram (agingContent 0x62 1 age 5 1700000000))⟩ =
        .ok established ∧
      obsStep loopbackPlatform established ⟨10000002, .event (.datagram (agingContent 0x52 2 age' 6 1700000010))⟩ =
        .ok next ∧
      resolved.life.work.cli.state = .reqSent ∧ resolved.life.work.cli.resSet = [] ∧
      established.life.work.cli.state = .waitNfy ∧ established.latest = some ⟨2, age.toNat⟩ ∧
      established.notice loopbackPlatform ⟨10000002, .event (.datagram (agingContent 0x52 2 age' 6 1700000010))⟩ =
        some ⟨10000002, age'.toNat⟩ ∧
      next.life.work.cli.obs.tout = ⟨11, 0⟩ := by
  obtain ⟨rfl, rfl⟩ | ⟨rfl, rfl⟩ := known.imp Prod.mk.inj Prod.mk.inj
  · exact ⟨_, _, _, _, rfl, rfl, rfl, rfl, rfl, rfl, rfl, rfl, rfl, rfl⟩
  · exact ⟨_, _, _, _, rfl, rfl, rfl, rfl, rfl, rfl, rfl, rfl, rfl, rfl⟩

/-- A notification with the lifetime of the response before it arms the timer anew. -/
theorem steadyNotifications_kept : (obsMachine loopbackPlatform).Meets
    (fun s m => ArmedAnew loopbackPlatform s m ∧ TimesOutLate loopbackPlatform s m) (.new ⟨observingGet, EcDups.empty⟩)
    (agingNotifications 10 10) := by
  apply (obsTimers_iff loopbackPlatform observingGet EcDups.empty ⟨rfl, rfl, rfl, rfl, rfl, rfl, rfl⟩ _).mpr
  obtain ⟨sent, resolved, established, next, sends, resolves, establishes, notifies, requested, empty, waiting, latest,
    _, _⟩ := agingNotifications_run 10 10 (Or.inl rfl)
  apply Machine.meets_cons_ok ?_ sends
  · apply Machine.meets_cons_ok ?_ resolves
    · apply Machine.meets_cons_ok ?_ establishes
      · apply Machine.meets_cons_ok ?_ notifies
        · trivial
        · intro input h judgement event
          cases event
          intro _ _ _ _
          rw [if_pos waiting]
          exact ⟨_, latest, rfl⟩
      · intro input h judgement event
        cases event
        intro _ _ _ _
        rw [if_neg (by rw [requested]; decide)]
        unfold EcClient.shown
        rw [empty]
        rfl
    · exact fun input h judgement event => by cases event
  · exact fun input h judgement event => by cases event

/-- A notification that lives for a minute, after a response that lived for ten seconds, leaves the timer at eleven. -/
theorem longerNotification_missed : ¬ ∀ platform cli dups moments, cli.Fresh →
    (obsMachine platform).Meets (fun s m => ArmedAnew platform s m ∧ TimesOutLate platform s m)
      (.new ⟨cli, dups⟩) moments := by
  intro always
  obtain ⟨sent, resolved, established, next, sends, resolves, establishes, notifies, _, _, _, _, noticed, eleven⟩ :=
    agingNotifications_run 10 60 (Or.inr rfl)
  have meets := always loopbackPlatform observingGet EcDups.empty (agingNotifications 10 60)
    ⟨rfl, rfl, rfl, rfl, rfl, rfl, rfl⟩
  have anew := (((meets.2 sent sends).2 resolved resolves).2 established establishes).1.1
  have minute := (anew _ next noticed notifies).2.1
  cases eleven.symm.trans minute

end Webthings.Evcoap
