import Webthings.Evcoap.Base

namespace Webthings.Evcoap
open Webthings.Transition

/-- The part of a working server that its transitions and its place in the list depend on. -/
structure ServerCore where
  self : SrvId
  servers : List SrvId
  state : EcSrvState
  conn : EcConn
  isSep : Bool
  token : List UInt8
  req : Option EcPdu
  parent : Bool
  coap : EcTimer
  resched : EcTimer
  freed : Bool

def EcWork.core (w : EcWork) : ServerCore :=
  ⟨w.self, w.servers, w.srv.state, w.srv.flow.conn, w.srv.flow.isSep, w.srv.flow.token, w.srv.req, w.srv.parent,
    w.srv.coap, w.srv.resched, w.srv.freed⟩

@[simp] theorem EcServer.log_state (srv : EcServer) (purpose : Purpose) (datagram : Option Datagram) :
    (srv.log purpose datagram).state = srv.state := rfl

/-- Sending a response changes nothing that a transition depends on. -/
theorem ecServerSendResp_core (platform : Platform) (env : SendEnv) (purpose : Purpose) (w : EcWork) :
    (ecServerSendResp platform env purpose w).1.core = w.core := by
  unfold ecServerSendResp
  split
  · rfl
  · dsimp only
    split
    · rfl
    · split
      · rfl
      · split
        · rfl
        · split <;> rfl

theorem ecFlowSetRespCode_frame (flow : EcFlow) (rc : EcRc) :
    ∃ code, (ecFlowSetRespCode flow rc).1 = {flow with respCode := code} := by
  unfold ecFlowSetRespCode
  split <;> exact ⟨_, rfl⟩

theorem ecServerReply_core (platform : Platform) (env : SendEnv) (rc : EcRc) (w : EcWork) :
    (ecServerReply platform env rc w).1.core = w.core := by
  unfold ecServerReply
  split
  · rfl
  · dsimp only
    split
    · rfl
    · rw [ecServerSendResp_core]
      obtain ⟨code, same⟩ := ecFlowSetRespCode_frame w.srv.flow rc
      rw [same]
      rfl

theorem ecServerSendSeparateAck_core (platform : Platform) (sent : Bool) (w : EcWork) :
    (ecServerSendSeparateAck platform sent w).1.core = w.core := by
  unfold ecServerSendSeparateAck
  split
  · rfl
  · split
    · rfl
    · dsimp only
      split
      · rfl
      · split
        · rfl
        · split <;> rfl

/-- A callback cannot change what the transitions of its server depend on. -/
theorem applyCalls_core (platform : Platform) (calls : List SrvApi) (w : EcWork) :
    (applyCalls platform calls w).core = w.core := by
  unfold applyCalls
  induction calls generalizing w with
  | nil => rfl
  | cons call calls ih =>
      rw [List.foldl_cons, ih]
      cases call with
      | setCode rc =>
          obtain ⟨code, same⟩ := ecFlowSetRespCode_frame w.srv.flow rc
          simp only [SrvApi.apply, same]
          rfl
      | setPayload payload => rfl
      | add call => rfl
      | observe observing => rfl

/-- The end of a transaction in a final state. -/
def EcWork.ended (w : EcWork) (next : EcSrvState) : EcWork :=
  ecServerFree {w with srv := ecSrvStopCoapTimer {w.srv with state := next}}

theorem ecServerSetState_final (w : EcWork) (next : EcSrvState)
    (allowed : ecServerCheckTransition w.srv.state next = true) (final : ecServerStateIsFinal next = true) :
    ecServerSetState w next = .ok (w.ended next) := by
  have entered : ecServerEnter w.srv next = some w.srv := by
    unfold ecServerEnter
    rw [if_neg]
    intro wait
    subst wait
    exact absurd final (by decide)
  unfold ecServerSetState
  rw [if_neg (by simp [allowed]), entered]
  dsimp only
  rw [if_pos final]
  rfl

/-- A state that starts no timer is only assigned. -/
theorem ecServerSetState_stay (w : EcWork) (next : EcSrvState)
    (allowed : ecServerCheckTransition w.srv.state next = true) (stays : ecServerStateIsFinal next = false)
    (untimed : next ≠ .waitAck) : ecServerSetState w next = .ok {w with srv := {w.srv with state := next}} := by
  unfold ecServerSetState ecServerEnter
  rw [if_neg (by simp [allowed]), if_neg untimed]
  dsimp only
  rw [if_neg (by simp [stays])]

/-- The separate response starts the retransmission timer. -/
theorem ecServerSetState_waitAck (w : EcWork) (acked : w.srv.state = .ackSent) :
    ecServerSetState w .waitAck = .ok {w with srv := {w.srv with
      state := .waitAck
      flow := {w.srv.flow with isSep := true}
      coap := (coapTimerStart w.srv.coap).1}} := by
  unfold ecServerSetState ecServerEnter
  rw [if_neg (by rw [acked]; decide), if_pos rfl, if_pos acked]
  dsimp only
  rw [if_neg (by decide)]
  rfl

/-- A retransmission arms the timer again. -/
theorem ecServerSetState_again (w : EcWork) (retried : w.srv.state = .coapRetry) (coap : EcTimer)
    (restarted : coapTimerRestart w.srv.coap = some coap) :
    ecServerSetState w .waitAck = .ok {w with srv := {w.srv with state := .waitAck, coap := coap}} := by
  unfold ecServerSetState ecServerEnter ecSrvRestartCoapTimer
  rw [if_neg (by rw [retried]; decide), if_pos rfl, if_neg (by simp [retried]), if_pos retried, restarted]
  rfl

/-- The faults of a transition request that the server's table does not hold. -/
def EcFault.ServerRejected : EcFault → Prop
  | .serverRejected _ _ => True
  | .clientRejected _ _ | .timerFailed | .nullEvent | .disposed | .overrun => False

/-- A working server is live, and its list, its timers and its state agree; `armed` is its reschedule timer. -/
structure WorkSound (here : SrvId) (before : List SrvId) (armed : Bool) (core : ServerCore) : Prop where
  same : core.self = here
  beside : ∀ id, id ≠ here → (id ∈ core.servers ↔ id ∈ before)
  once : core.servers.Nodup
  member : here ∈ core.servers ↔ core.parent = true
  live : core.freed = false
  timer : core.coap.Sound
  timed : core.coap.evti = true → core.state = .waitAck ∨ core.state = .coapRetry
  listed : core.state = .ackSent ∨ core.state = .waitAck ∨ core.state = .coapRetry → core.parent = true
  early : core.state = .none ∨ core.state = .reqOk → core.parent = false ∧ core.resched.evti = false
  armed : core.resched.pending = armed

/-- What a pending server is between events. -/
structure ServerPending (core : ServerCore) : Prop where
  live : core.freed = false
  parent : core.parent = true
  state : core.state = .ackSent ∧ core.coap.Idle ∨
    core.state = .waitAck ∧ core.coap.evti = true ∧ core.coap.pending = true

/-- At the end of its work a server is pending or has been disposed of. -/
structure WorkDone (here : SrvId) (before : List SrvId) (armed : Bool) (core : ServerCore) : Prop where
  same : core.self = here
  beside : ∀ id, id ≠ here → (id ∈ core.servers ↔ id ∈ before)
  once : core.servers.Nodup
  outcome : core.freed = true ∧ here ∉ core.servers ∧ core.coap.Idle ∧ core.resched.pending = armed ∨
    ServerPending core ∧ here ∈ core.servers

/-- The end of a transaction takes the server off the list and stops its retransmission timer. -/
theorem EcWork.ended_done {here : SrvId} {before : List SrvId} {armed : Bool} (w : EcWork) (next : EcSrvState)
    (sound : WorkSound here before armed w.core) : WorkDone here before armed (w.ended next).core := by
  have same : w.self = here := sound.same
  have member : here ∈ w.servers ↔ w.srv.parent = true := sound.member
  have once : w.servers.Nodup := sound.once
  have beside : ∀ id, id ≠ here → (id ∈ w.servers ↔ id ∈ before) := sound.beside
  have idle := ecTimerRemove_idle sound.timer
  have servers : (w.ended next).core.servers = if w.srv.parent then w.servers.erase here else w.servers := by
    rw [← same]
    rfl
  refine ⟨same, ?_, ?_, Or.inl ⟨rfl, ?_, idle, sound.armed⟩⟩
  · intro id other
    rw [servers]
    split
    · rw [List.mem_erase_of_ne other]
      exact beside id other
    · exact beside id other
  · rw [servers]
    split
    · exact once.erase here
    · exact once
  · rw [servers]
    split
    · exact once.not_mem_erase
    · rename_i orphan
      exact fun listed => orphan (member.mp listed)

/-- The retransmission timer of a server that has sent no separate response does not exist. -/
theorem WorkSound.untimed {here : SrvId} {before : List SrvId} {armed : Bool} {core : ServerCore}
    (sound : WorkSound here before armed core) (silent : core.state ≠ .waitAck ∧ core.state ≠ .coapRetry) :
    core.coap.Idle := by
  refine sound.timer.idle (Bool.eq_false_iff.mpr fun found => ?_)
  rcases sound.timed found with waiting | retrying
  · exact silent.1 waiting
  · exact silent.2 retrying

section Handlers

variable (platform : Platform) {here : SrvId} {before : List SrvId} {armed : Bool}

/-- A server that answers is done: it waits for the ACK of a confirmable response, or for nothing. -/
theorem ecServerReady_done (env : SendEnv) (isCon : Bool) (w : EcWork) (sound : WorkSound here before armed w.core) :
    Avoids EcFault.ServerRejected (fun ready => if ready.2 = 0 then WorkDone here before armed ready.1.core
      else ready.1.core = w.core) (ecServerReady platform env isCon w) := by
  have core := ecServerSendResp_core platform env .response w
  have state : (ecServerSendResp platform env .response w).1.srv.state = w.srv.state := congrArg ServerCore.state core
  unfold ecServerReady
  split
  · rename_i ready
    dsimp only
    split
    · exact core
    · have answered : WorkSound here before armed (ecServerSendResp platform env .response w).1.core := by
        rw [core]
        exact sound
      rw [avoids_map]
      split
      · rename_i separate
        obtain ⟨_, acked⟩ := separate
        have idle := answered.untimed (by simp [EcWork.core, acked])
        have listed := answered.listed (Or.inl acked)
        rw [ecServerSetState_waitAck _ acked]
        refine ⟨answered.same, answered.beside, answered.once, Or.inr ⟨⟨answered.live, listed, Or.inr ⟨rfl, ?_⟩⟩,
          answered.member.mpr listed⟩⟩
        have started := ecTimerStart_fresh {(ecServerSendResp platform env .response w).1.srv.coap with
          tout := ⟨ecCoapRespTimeout, 0⟩} ecCoapMaxRetransmit (by decide) idle.1
        change (coapTimerStart _).1.evti = true ∧ (coapTimerStart _).1.pending = true
        unfold coapTimerStart
        rw [started]
        exact ⟨rfl, rfl⟩
      · rw [ecServerSetState_final _ .respDone ?_ rfl]
        · exact EcWork.ended_done _ .respDone answered
        · rw [state]
          rcases ready with acked | accepted
          · rw [acked]
            rfl
          · rw [accepted]
            rfl
  · rfl

omit platform in
/-- An accepted server that goes on the list is pending. -/
theorem ecServerAdd_done (w : EcWork) (resched : EcTimer) (sound : WorkSound here before armed w.core)
    (accepted : w.srv.state = .reqOk) :
    WorkDone here before armed (EcWork.core {ecServerAdd w with srv := {(ecServerAdd w).srv with
      state := .ackSent, resched := resched}}) := by
  have same : w.self = here := sound.same
  have fresh : here ∉ w.servers := by
    intro listed
    have parent : w.srv.parent = true := sound.member.mp listed
    have orphan : w.srv.parent = false := (sound.early (Or.inr accepted)).1
    exact absurd (parent.symm.trans orphan) (by decide)
  have idle : w.srv.coap.Idle := sound.untimed (by simp [EcWork.core, accepted])
  refine ⟨same, ?_, ?_, Or.inr ⟨⟨sound.live, rfl, Or.inl ⟨rfl, idle⟩⟩, ?_⟩⟩
  · intro id other
    change id ∈ w.servers ++ [w.self] ↔ id ∈ before
    rw [List.mem_append, List.mem_singleton, same]
    exact ⟨fun listed => (sound.beside id other).mp (listed.resolve_right other),
      fun listed => Or.inl ((sound.beside id other).mpr listed)⟩
  · change (w.servers ++ [w.self]).Nodup
    rw [same]
    exact List.nodup_append.mpr ⟨sound.once, List.nodup_singleton _, fun a first b second => by
      have last : b = here := List.mem_singleton.mp second
      intro equal
      exact fresh (last ▸ equal ▸ first)⟩
  · change here ∈ w.servers ++ [w.self]
    rw [same]
    exact List.mem_append_right _ List.mem_cons_self

omit platform in
/-- Rescheduling the callback changes the timer for it alone. -/
theorem ecServerRescheduleUserfn_frame (tv : TimeVal) (w : EcWork) :
    ∃ resched code, (if w.srv.flow.proxyUri then (w, 0) else ecServerRescheduleUserfn tv w) =
      ({w with srv := {w.srv with resched := resched}}, code) := by
  split
  · exact ⟨_, _, rfl⟩
  · exact ⟨_, _, rfl⟩

omit platform in
/-- The first reschedule of a callback cannot fail. -/
theorem ecServerRescheduleUserfn_fresh (tv : TimeVal) (w : EcWork) (absent : w.srv.resched.evti = false) :
    ecServerRescheduleUserfn tv w = ({w with srv := {w.srv with
      resched := ⟨1, true, true, tv⟩}}, 0) := by
  have started := ecTimerStart_fresh {w.srv.resched with tout := tv} 1 (by decide) absent
  unfold ecServerRescheduleUserfn
  dsimp only
  rw [started]

/-- A server that waits for its user is on the list and has acknowledged a confirmable request. -/
theorem ecServerWait_done (env : HandlerEnv) (isCon : Bool) (w : EcWork) (sound : WorkSound here before armed w.core) :
    Avoids EcFault.ServerRejected (fun waited => if waited.2 = 0 then WorkDone here before armed waited.1.core
      else WorkSound here before armed waited.1.core) (ecServerWait platform env isCon w) := by
  unfold ecServerWait
  split
  · rename_i accepted
    have acking : ∀ acked : EcWork × Int,
        acked = (if isCon then ecServerSendSeparateAck platform env.ack w else (w, 0)) → acked.1.core = w.core := by
      intro acked same
      subst same
      split
      · exact ecServerSendSeparateAck_core platform env.ack w
      · rfl
    generalize outcome : (if isCon then ecServerSendSeparateAck platform env.ack w else (w, 0)) = acked
    have core := acking acked outcome.symm
    have still : WorkSound here before armed acked.1.core := by
      rw [core]
      exact sound
    have state : acked.1.srv.state = .reqOk := (congrArg ServerCore.state core).trans accepted
    have absent : acked.1.srv.resched.evti = false := (still.early (Or.inr state)).2
    dsimp only
    split
    · rename_i failed
      rw [avoids_ok, if_neg (by simp)]
      exact still
    · cases proxied : (ecServerAdd acked.1).srv.flow.proxyUri with
      | true =>
          rw [if_pos rfl, if_neg (by simp), avoids_map, ecServerSetState_stay _ .ackSent ?_ rfl (by decide)]
          · exact ecServerAdd_done acked.1 _ still state
          · change ecServerCheckTransition acked.1.srv.state .ackSent = true
            rw [state]
            rfl
      | false =>
          have rescheduled := ecServerRescheduleUserfn_fresh env.run.tv (ecServerAdd acked.1) absent
          rw [if_neg Bool.false_ne_true, rescheduled, if_neg (by simp), avoids_map,
            ecServerSetState_stay _ .ackSent ?_ rfl (by decide)]
          · exact ecServerAdd_done acked.1 _ still state
          · change ecServerCheckTransition acked.1.srv.state .ackSent = true
            rw [state]
            rfl
  · rw [avoids_ok, if_neg (by simp)]
    exact sound

/-- A callback's outcome is either carried out, or reported as a failure with the server still at work. -/
theorem ecServerUserfn_done (env : HandlerEnv) (w : EcWork) (sound : WorkSound here before armed w.core) :
    Avoids EcFault.ServerRejected (fun run => if run.2 = 0 then WorkDone here before armed run.1.core
      else WorkSound here before armed run.1.core) (ecServerUserfn platform env w) := by
  unfold ecServerUserfn
  split
  · rw [avoids_ok, if_neg (by simp)]
    exact sound
  · rename_i isCon _
    have core := applyCalls_core platform env.run.calls {w with invoked := w.invoked + 1}
    have called : WorkSound here before armed
        (applyCalls platform env.run.calls {w with invoked := w.invoked + 1}).core := by
      rw [core]
      exact sound
    dsimp only
    split
    · refine (ecServerReady_done platform env.response isCon _ called).weaken fun ready held => ?_
      split
      · rename_i zero
        rw [if_pos zero] at held
        exact held
      · rename_i failed
        rw [if_neg failed] at held
        rw [held]
        exact called
    · exact ecServerWait_done platform env isCon _ called
    · rw [avoids_ok, if_neg (by simp)]
      exact called
    · rw [avoids_ok, if_neg (by simp)]
      exact called

/-- The error exit of a handler disposes of the server. -/
theorem ecServerFail_done (env : SendEnv) (rc : EcRc) (w : EcWork) (sound : WorkSound here before armed w.core) :
    Avoids EcFault.ServerRejected (fun failed => WorkDone here before armed failed.core)
      (ecServerFail platform env rc w) := by
  unfold ecServerFail
  rw [ecServerSetState_final _ .internalErr rfl rfl]
  refine EcWork.ended_done _ .internalErr ?_
  rw [ecServerReply_core]
  exact sound

/-- A callback that is run again leaves a pending server, or none. -/
theorem reschedUserfn_done (env : HandlerEnv) (w : EcWork) (sound : WorkSound here before armed w.core) :
    Avoids EcFault.ServerRejected (fun next => WorkDone here before armed next.core) (reschedUserfn platform env w) := by
  have running := ecServerUserfn_done platform env w sound
  unfold reschedUserfn
  split
  · rename_i fault failed
    rw [failed] at running
    exact running
  · rename_i run rc finished
    rw [finished] at running
    split
    · rename_i failed
      have still : WorkSound here before armed run.core := by
        have held := running
        rw [avoids_ok, if_neg failed] at held
        exact held
      rw [ecServerSetState_final _ .internalErr rfl rfl]
      exact EcWork.ended_done _ .internalErr still
    · rename_i zero
      have held := running
      rw [avoids_ok, if_pos (by simpa using zero)] at held
      exact held

/-- The retransmission timer leaves a server that waits again, or none. -/
theorem ecSrvCoapTimeout_done (env : SendEnv) (w : EcWork) (sound : WorkSound here before armed w.core)
    (waiting : w.srv.state = .waitAck) (fired : w.srv.coap.evti = true) :
    Avoids EcFault.ServerRejected (fun next => WorkDone here before armed next.core) (ecSrvCoapTimeout platform env w) := by
  have listed : w.srv.parent = true := sound.listed (Or.inr (Or.inl waiting))
  unfold ecSrvCoapTimeout
  split
  · rw [ecServerSetState_final _ .respAckTimeout (by rw [waiting]; rfl) rfl]
    exact EcWork.ended_done _ .respAckTimeout sound
  · rename_i left
    rw [ecServerSetState_stay _ .coapRetry (by rw [waiting]; rfl) rfl (by decide)]
    dsimp only
    have core := ecServerSendResp_core platform env .retransmission {w with srv := {w.srv with state := .coapRetry}}
    generalize ecServerSendResp platform env .retransmission {w with srv := {w.srv with state := .coapRetry}} =
      responded at core ⊢
    have still : WorkSound here before armed responded.1.core := by
      rw [core]
      exact ⟨sound.same, sound.beside, sound.once, sound.member, sound.live, sound.timer, fun _ => Or.inr rfl,
        fun _ => listed, by simp [EcWork.core], sound.armed⟩
    have state : responded.1.srv.state = .coapRetry := congrArg ServerCore.state core
    have timer : responded.1.srv.coap = w.srv.coap := congrArg ServerCore.coap core
    split
    · rw [ecServerSetState_final _ .internalErr rfl rfl]
      exact EcWork.ended_done _ .internalErr still
    · have restarted : ∃ coap, coapTimerRestart responded.1.srv.coap = some coap ∧ coap.evti = true ∧
          coap.pending = true := by
        unfold coapTimerRestart ecTimerRestart
        rw [timer, if_neg left, if_pos fired]
        exact ⟨_, rfl, fired, rfl⟩
      obtain ⟨coap, again, present, armed⟩ := restarted
      rw [ecServerSetState_again _ state coap again]
      have parent : responded.1.srv.parent = true := (congrArg ServerCore.parent core).trans listed
      exact ⟨still.same, still.beside, still.once, Or.inr ⟨⟨still.live, parent, Or.inr ⟨rfl, present, armed⟩⟩,
        still.member.mpr parent⟩⟩

/-- A pending server is sound at the start of its work. -/
theorem WorkSound.of_pending {core : ServerCore} (same : core.self = here) (once : core.servers.Nodup)
    (listed : here ∈ core.servers) (pending : ServerPending core) :
    WorkSound here core.servers core.resched.pending core where
  same := same
  beside := fun _ _ => Iff.rfl
  once := once
  member := ⟨fun _ => pending.parent, fun _ => listed⟩
  live := pending.live
  timer := by
    rcases pending.state with ⟨_, idle⟩ | ⟨_, present, _⟩
    · exact fun armed => absurd armed (by simp [idle.2])
    · exact fun _ => present
  timed := by
    rcases pending.state with ⟨_, idle⟩ | ⟨state, _, _⟩
    · exact fun found => absurd found (by simp [idle.1])
    · exact fun _ => Or.inl state
  listed := fun _ => pending.parent
  early := by
    rcases pending.state with ⟨state, _⟩ | ⟨state, _, _⟩ <;> simp [state]
  armed := rfl

/-- A server that is not woken up stays as it is, and one that is woken up answers. -/
theorem ecServerWakeup_done (env : SendEnv) (calls : List SrvApi) (w : EcWork)
    (once : w.servers.Nodup) (listed : w.self ∈ w.servers) (pending : ServerPending w.core) :
    Avoids EcFault.ServerRejected (fun woken => WorkDone w.self w.servers w.srv.resched.pending woken.1.core)
      (ecServerWakeup platform env calls w) := by
  have core := applyCalls_core platform calls w
  have start : WorkSound w.self w.servers w.srv.resched.pending w.core := WorkSound.of_pending rfl once listed pending
  have idle : WorkDone w.self w.servers w.srv.resched.pending w.core :=
    ⟨rfl, fun _ _ => Iff.rfl, once, Or.inr ⟨pending, listed⟩⟩
  unfold ecServerWakeup
  dsimp only
  split
  · rw [avoids_ok, core]
    exact idle
  · rename_i isCon _
    have called : WorkSound w.self w.servers w.srv.resched.pending (applyCalls platform calls w).core := by
      rw [core]
      exact start
    refine (ecServerReady_done platform env isCon _ called).weaken fun ready held => ?_
    split at held
    · exact held
    · rw [held, core]
      exact idle

/-- A control message disposes of its server. -/
theorem ecServerControlled_done (h : EcHdr) (input : ServerInput) (w : EcWork)
    (sound : WorkSound here before armed w.core) :
    Avoids EcFault.ServerRejected (fun handled => WorkDone here before armed handled.1.core)
      (ecServerControlled platform h input w) := by
  unfold ecServerControlled
  split
  · rw [avoids_map, ecServerSetState_final _ .clientRst rfl rfl]
    exact EcWork.ended_done _ .clientRst sound
  · split
    · rw [avoids_map]
      exact ecServerFail_done platform input.env.reply ecBadRequest w sound
    · rename_i waiting
      rw [avoids_map, ecServerSetState_final _ .respDone ?_ rfl]
      · exact EcWork.ended_done _ .respDone sound
      · have state : w.srv.state = .waitAck := by simpa using waiting
        rw [state]
        rfl
  · rw [avoids_map]
    exact ecServerFail_done platform input.env.reply _ w sound
  · rw [avoids_map]
    exact ecServerFail_done platform input.env.reply _ w sound

/-- The dispatch of an accepted request leaves a pending server, or none. -/
theorem ecServerDispatch_done (resources : List (List UInt8)) (fb : Bool) (env : HandlerEnv) (w : EcWork)
    (sound : WorkSound here before armed w.core) (accepted : w.srv.state = .reqOk) :
    Avoids EcFault.ServerRejected (fun handled => WorkDone here before armed handled.1.core)
      (ecServerDispatch platform resources fb env w) := by
  unfold ecServerDispatch
  split
  · have running := ecServerUserfn_done platform env w sound
    split
    · rename_i fault failed
      rw [failed] at running
      exact running
    · rename_i run rc finished
      rw [finished, avoids_ok] at running
      split
      · rename_i failed
        rw [if_neg failed] at running
        rw [avoids_map]
        exact ecServerFail_done platform env.reply ecRcUnset run running
      · rename_i zero
        rw [if_pos (by simpa using zero)] at running
        exact running
  · have core := ecServerReply_core platform env.reply ecNotFound w
    rw [avoids_map, ecServerSetState_final _ .respDone ?_ rfl]
    · refine EcWork.ended_done _ .respDone ?_
      rw [core]
      exact sound
    · have state : (ecServerReply platform env.reply ecNotFound w).1.srv.state = w.srv.state :=
        congrArg ServerCore.state core
      rw [state, accepted]
      rfl

/-- A new server without timers is not on the list. -/
theorem WorkSound.of_new {core : ServerCore} (same : core.self = here) (list : core.servers = before)
    (once : before.Nodup) (fresh : here ∉ before) (live : core.freed = false) (orphan : core.parent = false)
    (coap : core.coap = EcTimer.zero) (resched : core.resched = EcTimer.zero)
    (first : core.state = .none ∨ core.state = .reqOk) : WorkSound here before false core where
  same := same
  beside := fun _ _ => by rw [list]
  once := list ▸ once
  member := ⟨fun listed => absurd (list ▸ listed) fresh, fun parent => absurd (parent.symm.trans orphan) (by decide)⟩
  live := live
  timer := by simp [coap, EcTimer.Sound, EcTimer.zero]
  timed := by simp [coap, EcTimer.zero]
  listed := by rcases first with state | state <;> simp [state]
  early := fun _ => ⟨orphan, by simp [resched, EcTimer.zero]⟩
  armed := by simp [resched, EcTimer.zero]

/-- A request leaves the server that it has created pending, or disposed of. -/
theorem ecServerProcess_done (resources : List (List UInt8)) (fb : Bool) (h : EcHdr) (input : ServerInput)
    (w : EcWork) (created : w.srv = ecServerNew) (once : w.servers.Nodup) (fresh : w.self ∉ w.servers) :
    Avoids EcFault.ServerRejected (fun handled => WorkDone w.self w.servers false handled.1.core)
      (ecServerProcess platform resources fb h input w) := by
  have failing : ∀ flow rc, Avoids EcFault.ServerRejected
      (fun handled : EcWork × EcNetCbrc => WorkDone w.self w.servers false handled.1.core)
      ((ecServerFail platform input.env.reply rc {w with srv := {w.srv with flow := flow}}).map fun failed =>
        (failed, .error)) := by
    intro flow rc
    rw [avoids_map, created]
    exact ecServerFail_done platform input.env.reply rc _
      (WorkSound.of_new rfl rfl once fresh rfl rfl rfl rfl (Or.inl rfl))
  unfold ecServerProcess
  dsimp only
  split
  · exact failing _ _
  · split
    · exact failing _ _
    · split
      · exact id
      · rename_i flow rc _
        split
        · exact failing _ _
        · rw [ecServerSetState_stay _ .reqOk (by rw [created]; rfl) rfl (by decide)]
          refine ecServerDispatch_done platform resources fb input.env _ ?_ rfl
          rw [created]
          exact WorkSound.of_new rfl rfl once fresh rfl rfl rfl rfl (Or.inr rfl)

end Handlers

/-- Between events the list holds exactly the live servers, and all of them are pending. -/
structure EcBase.Settled (b : EcBase) : Prop where
  once : b.servers.Nodup
  allocated : ∀ id srv, b.heap id = some srv → id < b.nextSrv
  listed : ∀ id ∈ b.servers, ∃ srv, b.heap id = some srv ∧ srv.freed = false
  pending : ∀ id srv, b.heap id = some srv → srv.freed = false →
    id ∈ b.servers ∧ ServerPending (b.work id srv).core

theorem ecInit_settled : ecInit.Settled where
  once := List.nodup_nil
  allocated := fun _ _ found => absurd found (by simp [ecInit])
  listed := fun _ member => absurd member List.not_mem_nil
  pending := fun _ _ found => absurd found (by simp [ecInit])

/-- The base stores a server that is done, whether it is new or has been there before. -/
theorem EcBase.Settled.store {b : EcBase} {here : SrvId} {armed : Bool} {w : EcWork} (settled : b.Settled)
    (next : SrvId) (grows : b.nextSrv ≤ next) (bound : here < next) (done : WorkDone here b.servers armed w.core) :
    (EcBase.store {b with nextSrv := next} w).Settled := by
  have self : w.self = here := done.same
  have found : ∀ id, (EcBase.store {b with nextSrv := next} w).heap id = if id = here then some w.srv else b.heap id := by
    intro id
    rw [← self]
    rfl
  refine ⟨done.once, fun id srv stored => ?_, fun id member => ?_, fun id srv stored live => ?_⟩
  · rw [found] at stored
    split at stored
    · rename_i same
      exact same ▸ bound
    · exact lt_of_lt_of_le (settled.allocated id srv stored) grows
  · rw [found]
    split
    · rename_i same
      rcases done.outcome with ⟨_, absent, _, _⟩ | ⟨pending, _⟩
      · exact absurd (same ▸ member) absent
      · exact ⟨w.srv, rfl, pending.live⟩
    · rename_i other
      exact settled.listed id ((done.beside id other).mp member)
  · rw [found] at stored
    split at stored
    · rename_i same
      cases stored
      rcases done.outcome with ⟨freed, _, _, _⟩ | ⟨pending, member⟩
      · exact absurd (live.symm.trans freed) (by decide)
      · exact ⟨same ▸ member, pending.live, pending.parent, pending.state⟩
    · rename_i other
      obtain ⟨member, pending⟩ := settled.pending id srv stored live
      exact ⟨(done.beside id other).mpr member, pending.live, pending.parent, pending.state⟩

/-- A server that is live between events is sound at the start of its work. -/
theorem EcBase.Settled.sound {b : EcBase} (settled : b.Settled) {id : SrvId} {srv : EcServer}
    (found : b.heap id = some srv) (live : srv.freed = false) :
    WorkSound id b.servers srv.resched.pending (b.work id srv).core := by
  obtain ⟨member, pending⟩ := settled.pending id srv found live
  exact WorkSound.of_pending rfl settled.once member pending

/-- A callback is run again for a sound server, whose reschedule timer is no longer armed. -/
theorem EcBase.Settled.rescheduled {b : EcBase} (settled : b.Settled) {id : SrvId} {srv : EcServer}
    (found : b.heap id = some srv) (live : srv.freed = false) :
    WorkSound id b.servers false (b.work id {srv with resched := srv.resched.fired}).core := by
  obtain ⟨_, pending⟩ := settled.pending id srv found live
  have sound := settled.sound found live
  refine ⟨sound.same, sound.beside, sound.once, sound.member, sound.live, sound.timer, sound.timed, sound.listed, ?_, rfl⟩
  rcases pending.state with ⟨state, _⟩ | ⟨state, _, _⟩
  · have acked : srv.state = .ackSent := state
    simp [EcWork.core, EcBase.work, acked]
  · have waiting : srv.state = .waitAck := state
    simp [EcWork.core, EcBase.work, waiting]

/-- The retransmission timer fires for a sound server that waits for an ACK. -/
theorem EcBase.Settled.timedOut {b : EcBase} (settled : b.Settled) {id : SrvId} {srv : EcServer}
    (found : b.heap id = some srv) (live : srv.freed = false) (armed : srv.coap.pending = true) :
    WorkSound id b.servers srv.resched.pending (b.work id {srv with coap := srv.coap.fired}).core ∧
      srv.state = .waitAck ∧ srv.coap.evti = true := by
  obtain ⟨_, pending⟩ := settled.pending id srv found live
  have sound := settled.sound found live
  rcases pending.state with ⟨_, idle⟩ | ⟨waiting, present, _⟩
  · exact absurd (armed.symm.trans idle.2) (by decide)
  · exact ⟨⟨sound.same, sound.beside, sound.once, sound.member, sound.live, EcTimer.fired_sound _, sound.timed,
      sound.listed, sound.early, sound.armed⟩, waiting, present⟩

/-- Only the shared parts of a base matter for its pending servers. -/
theorem EcBase.Settled.share {b b' : EcBase} (settled : b.Settled) (heap : b'.heap = b.heap)
    (servers : b'.servers = b.servers) (nextSrv : b'.nextSrv = b.nextSrv) : b'.Settled := by
  refine ⟨servers ▸ settled.once, fun id srv found => ?_, fun id member => ?_, fun id srv found live => ?_⟩
  · rw [nextSrv]
    exact settled.allocated id srv (heap ▸ found)
  · rw [heap]
    exact settled.listed id (servers ▸ member)
  · rw [servers]
    obtain ⟨member, pending⟩ := settled.pending id srv (heap ▸ found) live
    exact ⟨member, pending.live, pending.parent, pending.state⟩

/-- The lookup finds a server of the list. -/
theorem ecServersLookup_mem {b : EcBase} {mid : UInt16} {sd : Int} {peer : SockAddr} {id : SrvId}
    (found : ecServersLookup b mid sd peer = some id) : id ∈ b.servers ∧ b.lookupMatch mid sd peer id = true := by
  unfold ecServersLookup at found
  split at found
  · cases found
  · exact ⟨List.mem_of_find?_eq_some found, List.find?_some found⟩

section Clients

variable (platform : Platform)

/-- Whatever a client does, no request to the server's table comes of it. -/
abbrev NoServer {Result : Type} (outcome : Except EcFault Result) : Prop :=
  Avoids EcFault.ServerRejected (fun _ => True) outcome

theorem ecClientEnter_noServer (sent isCon : Bool) (next : EcCliState) (w : CliWork) :
    NoServer (ecClientEnter platform sent isCon next w) := by
  unfold ecClientEnter
  split
  · split
    · dsimp only
      split
      · exact id
      · trivial
    · split
      · split
        · exact id
        · trivial
      · trivial
  · split
    · split
      · exact id
      · trivial
    · dsimp only
      split
      · split
        · exact id
        · trivial
      · split
        · exact id
        · trivial
  · trivial
  · trivial
  · trivial

theorem ecClientSetState_noServer (sent : Bool) (w : CliWork) (next : EcCliState) :
    NoServer (ecClientSetState platform sent w next) := by
  have entering := ecClientEnter_noServer platform sent (w.cli.flow.conn.isConfirmable.getD false) next w
  unfold ecClientSetState
  split
  · exact id
  · dsimp only
    split
    · rename_i fault failed
      exact entering.of_error failed
    · split <;> trivial

theorem NoServer.map {Result Other : Type} {outcome : Except EcFault Result} (f : Result → Other)
    (held : NoServer outcome) : NoServer (outcome.map f) := by
  cases outcome with
  | ok result => trivial
  | error fault => exact held

theorem ecClientHandlePdu_noServer (w : CliWork) (input : Incoming) :
    NoServer (ecClientHandlePdu platform w input) := by
  unfold ecClientHandlePdu
  split
  · trivial
  · dsimp only
    split
    · trivial
    · split
      · trivial
      · refine NoServer.map _ ?_
        unfold ecClientHandleNew
        split
        · refine NoServer.map _ ?_
          unfold ecClientHandleEmptyPdu
          split
          · exact (ecClientSetState_noServer platform _ _ _).map _
          · exact (ecClientSetState_noServer platform _ _ _).map _
          · trivial
          · trivial
        · dsimp only
          split
          · trivial
          · exact (ecClientSetState_noServer platform _ _ _).map _

theorem ecClientConnect_noServer (ais : List AddrInfo) (w : CliWork) : NoServer (ecClientConnect platform ais w) := by
  induction ais generalizing w with
  | nil => trivial
  | cons ai ais ih =>
      unfold ecClientConnect
      dsimp only
      split
      · exact ih _
      · split
        · trivial
        · split
          · exact ih _
          · split <;> exact (ecClientSetState_noServer platform _ _ _).map _

theorem ecClientDnsCb_noServer (env : DnsEnv) (w : CliWork) : NoServer (ecClientDnsCb platform env w) := by
  have opening : ∀ ais w, NoServer (ecClientOpen platform env ais w) := by
    intro ais w
    unfold ecClientOpen
    split
    · dsimp only
      split <;> exact (ecClientSetState_noServer platform _ _ _).map _
    · exact ecClientConnect_noServer platform ais _
  unfold ecClientDnsCb
  dsimp only
  split
  · exact (ecClientSetState_noServer platform _ _ _).map _
  · rename_i ais _
    split
    · rename_i fault failed
      exact (ecClientSetState_noServer platform _ _ _).of_error failed
    · split
      · exact (ecClientSetState_noServer platform _ _ _).map _
      · split
        · rename_i fault failed
          exact (opening _ _).of_error failed
        · split
          · trivial
          · split
            · exact (ecClientSetState_noServer platform _ _ _).map _
            · trivial

theorem clientStep_noServer (w : CliWork) (event : ClientEvent) : NoServer (clientStep platform w event) := by
  unfold clientStep
  split
  · trivial
  · split
    · split
      · exact ecClientDnsCb_noServer platform _ w
      · trivial
    · split
      · exact (ecClientHandlePdu_noServer platform w _).map _
      · trivial
    · split
      · exact (ecClientSetState_noServer platform _ _ _).map _
      · trivial
    · split
      · unfold ecCliCoapTimeout
        split
        · exact (ecClientSetState_noServer platform _ _ _).map _
        · split
          · rename_i fault failed
            exact (ecClientSetState_noServer platform _ _ _).of_error failed
          · exact (ecClientSetState_noServer platform _ _ _).map _
      · trivial
    · split
      · exact (ecClientSetState_noServer platform _ _ _).map _
      · trivial
    · trivial
    · trivial

theorem ecClientGo_noServer (w : CliWork) (tout : Option TimeVal) (destination : Bool) :
    NoServer (ecClientGo platform w tout destination) := by
  unfold ecClientGo
  split
  · trivial
  · exact (ecClientSetState_noServer platform _ _ _).map _

end Clients

section Steps

variable (platform : Platform)

/-- The post that the handlers of a base share. -/
abbrev Handled (handled : EcBase × EcNetCbrc) : Prop := handled.1.Settled

theorem ecServerMatched_settled (b : EcBase) (h : EcHdr) (input : ServerInput) (settled : b.Settled) :
    Avoids EcFault.ServerRejected Handled (ecServerMatched platform b h input) := by
  unfold ecServerMatched
  split
  · exact settled
  · rename_i id found
    obtain ⟨srv, stored, live⟩ := settled.listed id (ecServersLookup_mem found).1
    rw [stored]
    dsimp only
    rw [avoids_map]
    refine (ecServerControlled_done platform h input (b.work id srv) (settled.sound stored live)).weaken
      fun handled done => ?_
    exact settled.store b.nextSrv (le_refl _) (settled.allocated id srv stored) done

/-- The address of the next server is on no list and points to nothing. -/
theorem EcBase.Settled.fresh {b : EcBase} (settled : b.Settled) :
    b.nextSrv ∉ b.servers ∧ b.heap b.nextSrv = none := by
  have absent : b.heap b.nextSrv = none := by
    cases stored : b.heap b.nextSrv with
    | none => rfl
    | some srv => exact absurd (settled.allocated _ srv stored) (Nat.lt_irrefl _)
  refine ⟨fun member => ?_, absent⟩
  obtain ⟨srv, stored, _⟩ := settled.listed _ member
  rw [absent] at stored
  cases stored

/-- A new message leaves a settled base settled. -/
theorem ecServerHandleNew_settled (b : EcBase) (h : EcHdr) (input : ServerInput) (settled : b.Settled) :
    Avoids EcFault.ServerRejected Handled (ecServerHandleNew platform b h input) := by
  unfold ecServerHandleNew
  split
  · unfold ecServerControl
    split
    · dsimp only
      split
      · exact settled
      · split
        · exact settled.share rfl rfl rfl
        · exact ecServerMatched_settled platform b h input settled
    · exact ecServerMatched_settled platform b h input settled
  · split
    · unfold ecServerRequest
      dsimp only
      rw [avoids_map]
      refine (ecServerProcess_done platform b.resources b.fb h input (b.work b.nextSrv ecServerNew) rfl settled.once
        settled.fresh.1).weaken fun handled done => ?_
      exact settled.store (b.nextSrv + 1) (Nat.le_succ _) (Nat.lt_succ_self _) done
    · exact settled

theorem ecServerHandlePdu_settled (b : EcBase) (input : ServerInput) (settled : b.Settled) :
    Avoids EcFault.ServerRejected Handled (ecServerHandlePdu platform b input) := by
  unfold ecServerHandlePdu
  split
  · exact settled
  · split
    · exact settled
    · rename_i h _
      dsimp only
      split
      · exact settled.share rfl rfl rfl
      · split
        · exact settled.share rfl rfl rfl
        · exact ecServerHandleNew_settled platform _ h input (settled.share rfl rfl rfl)

/-- A timer's handler that leaves its server done leaves the base settled. -/
theorem EcBase.fire_settled (b : EcBase) (id : SrvId) (armed : EcServer → Bool)
    (handler : EcWork → Except EcFault EcWork) (fired : EcServer → EcServer) (settled : b.Settled)
    (handled : ∀ srv, b.heap id = some srv → armed srv = true → srv.freed = false →
      ∃ armed, Avoids EcFault.ServerRejected (fun w => WorkDone id b.servers armed w.core)
        (handler (b.work id (fired srv)))) :
    Avoids EcFault.ServerRejected EcBase.Settled (b.fire id armed handler fired) := by
  unfold EcBase.fire
  split
  · exact settled
  · rename_i srv stored
    split
    · exact settled
    · rename_i ready
      split
      · exact fun rejected => rejected
      · rename_i live
        rw [avoids_map]
        obtain ⟨resched, worked⟩ := handled srv stored (by simpa using ready) (by simpa using live)
        refine worked.weaken fun w done => ?_
        exact settled.store b.nextSrv (le_refl _) (settled.allocated id srv stored) done

/-- Clients share the duplicate map with the servers, and nothing that a transition depends on. -/
theorem EcBase.clientStep_settled (b : EcBase) (cid : Nat) (event : ClientEvent) (settled : b.Settled) :
    Avoids EcFault.ServerRejected EcBase.Settled (b.clientStep platform cid event) := by
  unfold EcBase.clientStep
  split
  · exact settled
  · exact settled
  · rw [avoids_map]
    exact (clientStep_noServer platform _ _).weaken fun w _ => settled.share rfl rfl rfl

/-- One event leaves a settled base settled and asks for no transition that the server's table does not hold. -/
theorem baseStep_settled (b : EcBase) (event : BaseEvent) (settled : b.Settled) :
    Avoids EcFault.ServerRejected EcBase.Settled (baseStep platform b event) := by
  cases event with
  | datagram input =>
      unfold baseStep
      rw [avoids_map]
      exact ecServerHandlePdu_settled platform b input settled
  | rescheduled id env =>
      exact b.fire_settled id _ _ _ settled fun srv stored _ live =>
        ⟨false, reschedUserfn_done platform env _ (settled.rescheduled stored live)⟩
  | coapTimeout id env =>
      refine b.fire_settled id _ _ _ settled fun srv stored armed live => ?_
      obtain ⟨sound, waiting, present⟩ := settled.timedOut stored live armed
      exact ⟨srv.resched.pending, ecSrvCoapTimeout_done platform env _ sound waiting present⟩
  | wakeup id calls env =>
      dsimp only [baseStep]
      split
      · exact settled
      · rename_i srv stored
        split
        · exact settled
        · rename_i live
          obtain ⟨member, pending⟩ := settled.pending id srv stored (by simpa using live)
          rw [avoids_map]
          refine (ecServerWakeup_done platform env calls (b.work id srv) settled.once member pending).weaken
            fun woken done => ?_
          exact settled.store b.nextSrv (le_refl _) (settled.allocated id srv stored) done
  | countdown key => exact settled.share rfl rfl rfl
  | registry observing => exact settled.share rfl rfl rfl
  | callbacks resources fb => exact settled.share rfl rfl rfl
  | request cli tout destination =>
      dsimp only [baseStep]
      split
      · rw [avoids_map]
        exact (ecClientGo_noServer platform ⟨cli, b.dups⟩ tout destination).weaken fun started _ =>
          settled.share rfl rfl rfl
      · exact settled
  | client cid event => exact b.clientStep_settled platform cid event settled

end Steps

/-- In every run no server transition is rejected, and between events every live server is on the list once, has been
acknowledged or waits for an ACK, and has its retransmission timer armed exactly in the second case. -/
theorem baseRun_pending (platform : Platform) (events : List BaseEvent) :
    Avoids EcFault.ServerRejected
      (fun b => ∀ id srv, b.heap id = some srv → srv.freed = false →
        b.servers.count id = 1 ∧ (srv.state = .ackSent ∨ srv.state = .waitAck) ∧
          (srv.coap.pending = true ↔ srv.state = .waitAck))
      ((baseMachine platform).run ecInit events) := by
  have settles := (baseMachine platform).run_avoids (fun _ _ => True) EcBase.Settled EcFault.ServerRejected
    (fun b event settled _ => baseStep_settled platform b event settled) ecInit_settled
    ((baseMachine platform).meets_true ecInit events)
  refine settles.weaken fun b settled id srv stored live => ?_
  obtain ⟨member, pending⟩ := settled.pending id srv stored live
  refine ⟨List.count_eq_one_of_mem settled.once member, ?_⟩
  rcases pending.state with ⟨state, idle⟩ | ⟨state, _, armed⟩
  · have acked : srv.state = .ackSent := state
    have quiet : srv.coap.pending = false := idle.2
    simp [acked, quiet]
  · have waiting : srv.state = .waitAck := state
    have ringing : srv.coap.pending = true := armed
    simp [waiting, ringing]

end Webthings.Evcoap
