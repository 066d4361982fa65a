import Webthings.Evcoap.ServerLife

namespace Webthings.Evcoap
open Webthings.Transition

/-- What a transaction has said, in order. -/
def EcServer.said (srv : EcServer) : List Purpose := srv.sent.map Sent.purpose

/-- What a transaction says of its own accord: nothing, the ACK of its request, or also the separate response and as
many retransmissions of it as it has retries. -/
inductive Opening : List Purpose → Prop where
  | silent : Opening []
  | acked : Opening [.ack]
  | separate (k : Nat) (within : k ≤ ecCoapMaxRetransmit) :
      Opening (.ack :: .response :: List.replicate k .retransmission)

/-- All that a transaction says: an error reply comes last, and so does a response that nobody acknowledges. -/
inductive Conversation : List Purpose → Prop where
  | opening (said : List Purpose) (opens : Opening said) : Conversation said
  | replied (said : List Purpose) (opens : Opening said) : Conversation (said ++ [.reply])
  | answered : Conversation [.response]

/-- The separate response has been sent again `k` times, and the timer is armed for the next time. -/
structure EcServer.Retries (k : Nat) (srv : EcServer) : Prop where
  within : k ≤ ecCoapMaxRetransmit
  said : srv.said = .ack :: .response :: List.replicate k .retransmission
  coap : srv.coap = ⟨ecCoapMaxRetransmit - k, true, true, ⟨ecCoapRespTimeout * 2 ^ k, 0⟩⟩

/-- What a transaction has said in each of its states. -/
structure EcServer.Converses (srv : EcServer) : Prop where
  whole : Conversation srv.said
  acked : srv.freed = false → srv.state = .ackSent →
    srv.flow.conn.isConfirmable = some true ∧ srv.said = [.ack] ∨
      srv.flow.conn.isConfirmable = some false ∧ srv.said = []
  waiting : srv.freed = false → srv.state = .waitAck → ∃ k, srv.Retries k

theorem EcServer.said_log (srv : EcServer) (purpose : Purpose) (datagram : Datagram) :
    (srv.log purpose (some datagram)).said = srv.said ++ [purpose] := by
  simp [EcServer.said, EcServer.log]

theorem EcServer.Called.said {srv called : EcServer} (call : srv.Called called) : called.said = srv.said := by
  obtain ⟨⟨code, res, same⟩, _, _⟩ := call
  rw [same]
  rfl

/-- What is said ahead of the end of a transaction: nothing more, or an error reply. -/
def EcServer.Closes (old new : EcServer) : Prop := new.said = old.said ∨ new.said = old.said ++ [.reply]

theorem Opening.closes {old new : EcServer} (opens : Opening old.said) (closes : old.Closes new) :
    Conversation new.said := by
  rcases closes with same | replied
  · rw [same]
    exact .opening _ opens
  · rw [replied]
    exact .replied _ opens

section Handlers

variable {platform : Platform}

theorem ecServerSendResp_said (platform : Platform) (env : SendEnv) (purpose : Purpose) (w : EcWork) :
    (ecServerSendResp platform env purpose w).2 ≠ 0 ∧
      (ecServerSendResp platform env purpose w).1.srv.said = w.srv.said ∨
    (ecServerSendResp platform env purpose w).2 = 0 ∧
      (ecServerSendResp platform env purpose w).1.srv.said = w.srv.said ++ [purpose] := by
  by_cases sent : (ecServerSendResp platform env purpose w).2 = 0
  · obtain ⟨res, isCon, responds⟩ := ecServerSendResp_ok platform env purpose w sent
    rw [ecServerSendResp_responds platform env purpose w res isCon responds]
    exact Or.inr ⟨rfl, EcServer.said_log _ purpose _⟩
  · obtain ⟨res, dups, same⟩ := ecServerSendResp_fails platform env purpose w sent
    refine Or.inl ⟨sent, ?_⟩
    rw [same]
    rfl

theorem ecServerReply_closes (platform : Platform) (env : SendEnv) (rc : EcRc) (w : EcWork) :
    w.srv.Closes (ecServerReply platform env rc w).1.srv := by
  unfold ecServerReply
  split
  · exact Or.inl rfl
  · dsimp only
    split
    · exact Or.inl rfl
    · rcases ecServerSendResp_said platform env .reply
        {w with srv := {w.srv with flow := (ecFlowSetRespCode w.srv.flow rc).1}} with ⟨_, same⟩ | ⟨_, replied⟩
      · exact Or.inl same
      · exact Or.inr replied

theorem ecServerFail_closes {env : SendEnv} {rc : EcRc} {w failed : EcWork}
    (finished : ecServerFail platform env rc w = .ok failed) : w.srv.Closes failed.srv := by
  unfold ecServerFail at finished
  rw [ecServerSetState_final _ .internalErr rfl rfl] at finished
  cases finished
  exact ecServerReply_closes platform env (if rc = ecRcUnset then ecInternalServerError else rc) w

theorem ecServerControlled_closes {h : EcHdr} {input : ServerInput} {w ended : EcWork} {rc : EcNetCbrc}
    (finished : ecServerControlled platform h input w = .ok (ended, rc)) : w.srv.Closes ended.srv := by
  have failing : ∀ code, (ecServerFail platform input.env.reply code w).map (fun failed => (failed, EcNetCbrc.error)) =
      .ok (ended, rc) → w.srv.Closes ended.srv := by
    intro code failing
    obtain ⟨failed, ends, same⟩ := map_ok failing
    cases same
    exact ecServerFail_closes ends
  unfold ecServerControlled at finished
  split at finished
  · obtain ⟨moved, ends, same⟩ := map_ok finished
    cases same
    rw [ecServerSetState_final _ .clientRst rfl rfl] at ends
    cases ends
    exact Or.inl rfl
  · split at finished
    · exact failing _ finished
    · rename_i waiting
      have state : w.srv.state = .waitAck := by simpa using waiting
      obtain ⟨moved, ends, same⟩ := map_ok finished
      cases same
      rw [ecServerSetState_final _ .respDone (by rw [state]; rfl) rfl] at ends
      cases ends
      exact Or.inl rfl
  · exact failing _ finished
  · exact failing _ finished

/-- An answer that is ready says nothing when it fails, and is a response otherwise. -/
theorem ecServerReady_said {env : SendEnv} {isCon : Bool} {w w' : EcWork} {rc : Int} (live : w.srv.freed = false)
    (finished : ecServerReady platform env isCon w = .ok (w', rc)) :
    (rc ≠ 0 ∧ w'.srv.said = w.srv.said ∧ w'.srv.freed = false) ∨
    (rc = 0 ∧ w'.srv.said = w.srv.said ++ [.response] ∧
      (w'.srv.freed = true → w.srv.state = .reqOk ∨ w.srv.state = .ackSent ∧ isCon = false)) := by
  rcases ecServerReady_cases finished with ⟨failed, _, _, same⟩ | ⟨failed, _, _, _, res, dups, same⟩ |
    ⟨zero, ready, res, other, responds, entered⟩
  · exact Or.inl ⟨failed, by rw [same], by rw [same]; exact live⟩
  · exact Or.inl ⟨failed, by rw [same]; rfl, by rw [same]; exact live⟩
  · refine Or.inr ⟨zero, ?_⟩
    split at entered
    · rename_i separate
      have moved := ecServerSetState_waitAck
        (w.respondedWith platform env .response (w.srv.encodedResp platform.order env other res)) separate.2
      rw [moved] at entered
      cases entered
      exact ⟨EcServer.said_log _ .response _, fun freed => absurd (live.symm.trans freed) (by decide)⟩
    · rename_i immediate
      rw [ecServerSetState_final _ .respDone ?_ rfl] at entered
      · cases entered
        refine ⟨EcServer.said_log _ .response _, fun _ => ?_⟩
        rcases ready with acked | accepted
        · exact Or.inr ⟨acked, Bool.eq_false_iff.mpr fun con => immediate ⟨con, acked⟩⟩
        · exact Or.inl accepted
      · change ecServerCheckTransition w.srv.state .respDone = true
        rcases ready with acked | accepted
        · rw [acked]
          rfl
        · rw [accepted]
          rfl

/-- A wait that fails has acknowledged the request at most; a server that waits is live. -/
theorem ecServerWait_said {env : HandlerEnv} {isCon : Bool} {w w' : EcWork} {rc : Int} (live : w.srv.freed = false)
    (finished : ecServerWait platform env isCon w = .ok (w', rc)) :
    w'.srv.freed = false ∧ (w'.srv.said = w.srv.said ∨ w.srv.state = .reqOk ∧ w'.srv.said = w.srv.said ++ [.ack]) := by
  unfold ecServerWait at finished
  split at finished
  · rename_i accepted
    have acking : ∀ acked : EcWork × Int,
        (if isCon then ecServerSendSeparateAck platform env.ack w else (w, 0)) = acked →
        acked.1.srv.freed = false ∧ acked.1.srv.state = .reqOk ∧
          (acked.1.srv.said = w.srv.said ∨ acked.1.srv.said = w.srv.said ++ [.ack]) := by
      rintro acked rfl
      split
      · rcases ecServerSendSeparateAck_cases platform env.ack w with ⟨dups, failed⟩ | ⟨req, dups, _, sent⟩
        · rw [failed]
          exact ⟨live, accepted, Or.inl rfl⟩
        · rw [sent]
          exact ⟨live, accepted, Or.inr (EcServer.said_log _ .ack _)⟩
      · exact ⟨live, accepted, Or.inl rfl⟩
    obtain ⟨acked, sent⟩ : ∃ acked, (if isCon then ecServerSendSeparateAck platform env.ack w else (w, 0)) = acked :=
      ⟨_, rfl⟩
    obtain ⟨alive, state, said⟩ := acking acked sent
    have spoken : acked.1.srv.said = w.srv.said ∨ w.srv.state = .reqOk ∧ acked.1.srv.said = w.srv.said ++ [.ack] :=
      said.imp_right fun acknowledged => ⟨accepted, acknowledged⟩
    rw [sent] at finished
    dsimp only at finished
    split at finished
    · cases finished
      exact ⟨alive, spoken⟩
    · obtain ⟨resched, code, same⟩ := ecServerRescheduleUserfn_frame env.run.tv (ecServerAdd acked.1)
      rw [same] at finished
      dsimp only at finished
      split at finished
      · cases finished
        exact ⟨alive, spoken⟩
      · rw [ecServerSetState_stay _ .ackSent ?_ rfl (by decide)] at finished
        · cases finished
          exact ⟨alive, spoken⟩
        · change ecServerCheckTransition acked.1.srv.state .ackSent = true
          rw [state]
          rfl
  · cases finished
    exact ⟨live, Or.inl rfl⟩

/-- What a callback makes a transaction say: nothing, the ACK of its request, or a response. -/
theorem ecServerUserfn_said {env : HandlerEnv} {w w' : EcWork} {rc : Int} (live : w.srv.freed = false)
    (finished : ecServerUserfn platform env w = .ok (w', rc)) :
    (w'.srv.freed = false ∧
      (w'.srv.said = w.srv.said ∨ w.srv.state = .reqOk ∧ w'.srv.said = w.srv.said ++ [.ack])) ∨
    (rc = 0 ∧ w'.srv.said = w.srv.said ++ [.response] ∧ (w'.srv.freed = true →
      w.srv.state = .reqOk ∨ w.srv.state = .ackSent ∧ w.srv.flow.conn.isConfirmable = some false)) := by
  unfold ecServerUserfn at finished
  split at finished
  · cases finished
    exact Or.inl ⟨live, Or.inl rfl⟩
  · rename_i isCon model
    have call := applyCalls_called platform env.run.calls {w with invoked := w.invoked + 1}
    have alive : (applyCalls platform env.run.calls {w with invoked := w.invoked + 1}).srv.freed = false := by
      obtain ⟨⟨code, res, same⟩, _, _⟩ := call
      rw [same]
      exact live
    have said := call.said
    have state := call.state
    change _ = w.srv.said at said
    change _ = w.srv.state at state
    dsimp only at finished
    split at finished
    · rcases ecServerReady_said alive finished with ⟨_, same, awake⟩ | ⟨zero, response, ends⟩
      · exact Or.inl ⟨awake, Or.inl (same.trans said)⟩
      · refine Or.inr ⟨zero, by rw [response, said], fun freed => ?_⟩
        rcases ends freed with accepted | ⟨acked, non⟩
        · exact Or.inl (state.symm.trans accepted)
        · exact Or.inr ⟨state.symm.trans acked, by rw [model, non]⟩
    · obtain ⟨awake, spoken⟩ := ecServerWait_said alive finished
      rw [said, state] at spoken
      exact Or.inl ⟨awake, spoken⟩
    · cases finished
      exact Or.inl ⟨alive, Or.inl said⟩
    · cases finished
      exact Or.inl ⟨alive, Or.inl said⟩

/-- A dispatched request that ends its transaction has been answered, or its conversation is closed. -/
theorem ecServerDispatch_said {resources : List (List UInt8)} {fb : Bool} {env : HandlerEnv} {w w' : EcWork}
    {rc : EcNetCbrc} (live : w.srv.freed = false) (unsaid : w.srv.said = [])
    (finished : ecServerDispatch platform resources fb env w = .ok (w', rc)) (freed : w'.srv.freed = true) :
    Conversation w'.srv.said := by
  unfold ecServerDispatch at finished
  split at finished
  · split at finished
    · cases finished
    · rename_i run code ran
      rcases ecServerUserfn_said live ran with ⟨alive, spoken⟩ | ⟨zero, response, _⟩
      · split at finished
        · obtain ⟨failed, ends, same⟩ := map_ok finished
          cases same
          have opens : Opening run.srv.said := by
            rcases spoken with same | ⟨_, acked⟩
            · rw [same, unsaid]
              exact .silent
            · rw [acked, unsaid]
              exact .acked
          exact opens.closes (ecServerFail_closes ends)
        · cases finished
          exact absurd (alive.symm.trans freed) (by decide)
      · rw [if_neg (by simp [zero])] at finished
        cases finished
        rw [response, unsaid]
        exact .answered
  · obtain ⟨ended, moved, same⟩ := map_ok finished
    cases same
    have closes := ecServerReply_closes platform env.reply ecNotFound w
    have opens : Opening w.srv.said := by
      rw [unsaid]
      exact .silent
    by_cases allowed :
        ecServerCheckTransition (ecServerReply platform env.reply ecNotFound w).1.srv.state .respDone = true
    · rw [ecServerSetState_final _ .respDone allowed rfl] at moved
      cases moved
      exact opens.closes closes
    · unfold ecServerSetState at moved
      rw [if_pos (by simpa using allowed)] at moved
      cases moved

/-- A request that ends its transaction at once leaves a whole conversation. -/
theorem ecServerProcess_said {resources : List (List UInt8)} {fb : Bool} {h : EcHdr} {input : ServerInput}
    {w w' : EcWork} {rc : EcNetCbrc} (created : w.srv = ecServerNew)
    (finished : ecServerProcess platform resources fb h input w = .ok (w', rc)) (freed : w'.srv.freed = true) :
    Conversation w'.srv.said := by
  have unsaid : w.srv.said = [] := by rw [created]; rfl
  have opens : Opening w.srv.said := by
    rw [unsaid]
    exact .silent
  have failing : ∀ flow code, (ecServerFail platform input.env.reply code
      {w with srv := {w.srv with flow := flow}}).map (fun failed => (failed, EcNetCbrc.error)) = .ok (w', rc) →
      Conversation w'.srv.said := by
    intro flow code failed
    obtain ⟨ended, reply, same⟩ := map_ok failed
    cases same
    have fails := ecServerFail_closes reply
    have closes : w.srv.Closes w'.srv := fails
    exact opens.closes closes
  unfold ecServerProcess at finished
  dsimp only at finished
  split at finished
  · exact failing _ _ finished
  · split at finished
    · exact failing _ _ finished
    · split at finished
      · cases finished
      · split at finished
        · exact failing _ _ finished
        · rw [ecServerSetState_stay _ .reqOk (by rw [created]; rfl) rfl (by decide)] at finished
          dsimp only at finished
          have dispatched := fun live unsaid => ecServerDispatch_said live unsaid finished freed
          apply dispatched
          · change w.srv.freed = false
            rw [created]
            rfl
          · exact unsaid

/-- A callback that is run again ends the transaction with nothing said, or with a response that needs no ACK. -/
theorem reschedUserfn_said {env : HandlerEnv} {w next : EcWork} (live : w.srv.freed = false)
    (pending : w.srv.state ≠ .reqOk) (finished : reschedUserfn platform env w = .ok next)
    (freed : next.srv.freed = true) : next.srv.said = w.srv.said ∨
      w.srv.state = .ackSent ∧ w.srv.flow.conn.isConfirmable = some false ∧
        next.srv.said = w.srv.said ++ [.response] := by
  unfold reschedUserfn at finished
  split at finished
  · cases finished
  · rename_i run rc ran
    rcases ecServerUserfn_said live ran with ⟨alive, spoken⟩ | ⟨zero, response, ends⟩
    · have same : run.srv.said = w.srv.said := spoken.resolve_right fun acked => pending acked.1
      split at finished
      · rw [ecServerSetState_final _ .internalErr rfl rfl] at finished
        cases finished
        exact Or.inl same
      · cases finished
        exact Or.inl same
    · rw [if_neg (by simp [zero])] at finished
      cases finished
      obtain ⟨acked, non⟩ := (ends freed).resolve_left pending
      exact Or.inr ⟨acked, non, response⟩

/-- The retransmission timer ends the transaction in silence, or the response is said again and the timer doubled. -/
theorem ecSrvCoapTimeout_said {env : SendEnv} {w next : EcWork} (waiting : w.srv.state = .waitAck)
    (finished : ecSrvCoapTimeout platform env w = .ok next) :
    (next.srv.freed = true ∧ next.srv.said = w.srv.said) ∨
      (w.srv.coap.retriesLeft ≠ 0 ∧ next.srv.said = w.srv.said ++ [.retransmission] ∧
        coapTimerRestart w.srv.coap = some next.srv.coap) := by
  unfold ecSrvCoapTimeout at finished
  split at finished
  · rw [ecServerSetState_final _ .respAckTimeout (by rw [waiting]; rfl) rfl] at finished
    cases finished
    exact Or.inl ⟨rfl, rfl⟩
  · rename_i left
    rw [ecServerSetState_stay _ .coapRetry (by rw [waiting]; rfl) rfl (by decide)] at finished
    dsimp only at finished
    have core := ecServerSendResp_core platform env .retransmission {w with srv := {w.srv with state := .coapRetry}}
    have said := ecServerSendResp_said platform env .retransmission {w with srv := {w.srv with state := .coapRetry}}
    generalize ecServerSendResp platform env .retransmission {w with srv := {w.srv with state := .coapRetry}} =
      responded at core said finished
    have state : responded.1.srv.state = .coapRetry := congrArg ServerCore.state core
    have timer : responded.1.srv.coap = w.srv.coap := congrArg ServerCore.coap core
    rcases said with ⟨failed, same⟩ | ⟨sent, again⟩
    · rw [if_pos failed, ecServerSetState_final _ .internalErr rfl rfl] at finished
      cases finished
      exact Or.inl ⟨rfl, same⟩
    · rw [if_neg (by simp [sent])] at finished
      cases restarted : coapTimerRestart responded.1.srv.coap with
      | none =>
          unfold ecServerSetState ecServerEnter ecSrvRestartCoapTimer at finished
          rw [if_neg (by rw [state]; decide), if_pos rfl, if_neg (by simp [state]), if_pos state, restarted] at finished
          cases finished
      | some coap =>
          rw [ecServerSetState_again _ state coap restarted] at finished
          cases finished
          exact Or.inr ⟨left, again, by rw [← timer]; exact restarted⟩

/-- A server that is woken up ends its transaction with a response that needs no ACK. -/
theorem ecServerWakeup_said {env : SendEnv} {calls : List SrvApi} {w woken : EcWork} {rc : Int}
    (live : w.srv.freed = false) (pending : w.srv.state ≠ .reqOk)
    (finished : ecServerWakeup platform env calls w = .ok (woken, rc)) (freed : woken.srv.freed = true) :
    w.srv.state = .ackSent ∧ w.srv.flow.conn.isConfirmable = some false ∧
      woken.srv.said = w.srv.said ++ [.response] := by
  have call := applyCalls_called platform calls w
  have alive : (applyCalls platform calls w).srv.freed = false := by
    obtain ⟨⟨code, res, same⟩, _, _⟩ := call
    rw [same]
    exact live
  unfold ecServerWakeup at finished
  dsimp only at finished
  split at finished
  · cases finished
    exact absurd (alive.symm.trans freed) (by decide)
  · rename_i isCon model
    rcases ecServerReady_said alive finished with ⟨_, _, awake⟩ | ⟨_, response, ends⟩
    · exact absurd (awake.symm.trans freed) (by decide)
    · rw [call.state] at ends
      obtain ⟨acked, non⟩ := (ends freed).resolve_left pending
      rw [call.conn, non] at model
      exact ⟨acked, model, by rw [response, call.said]⟩

end Handlers

section Servers

variable {platform : Platform} {b : EcBase} {event : BaseEvent} {id : SrvId} {srv : EcServer} {w : EcWork}

/-- A server that is the same in all that a conversation depends on. -/
theorem EcServer.Converses.congr {other : EcServer} (converses : srv.Converses) (said : other.said = srv.said)
    (freed : other.freed = srv.freed) (state : other.state = srv.state) (conn : other.flow.conn = srv.flow.conn)
    (coap : other.coap = srv.coap) : other.Converses := by
  refine ⟨by rw [said]; exact converses.whole, ?_, ?_⟩
  · rw [freed, state, conn, said]
    exact converses.acked
  · rw [freed, state]
    intro live waiting
    obtain ⟨k, retries⟩ := converses.waiting live waiting
    exact ⟨k, retries.within, said.trans retries.said, coap.trans retries.coap⟩

theorem EcServer.Called.converses {called : EcServer} (call : srv.Called called) (converses : srv.Converses) :
    called.Converses := by
  obtain ⟨⟨code, res, same⟩, _, _⟩ := call
  apply converses.congr
  all_goals rw [same]
  rfl

/-- A live transaction has said of its own accord all that it has said. -/
theorem EcServer.Converses.opens (converses : srv.Converses) (live : srv.freed = false)
    (pending : srv.state = .ackSent ∨ srv.state = .waitAck) : Opening srv.said := by
  rcases pending with acked | waiting
  · rcases converses.acked live acked with ⟨_, said⟩ | ⟨_, said⟩
    · rw [said]
      exact .acked
    · rw [said]
      exact .silent
  · obtain ⟨k, retries⟩ := converses.waiting live waiting
    rw [retries.said]
    exact .separate k retries.within

/-- A response that needs no ACK is all that its transaction says. -/
theorem EcServer.Converses.answers (converses : srv.Converses) (live : srv.freed = false) (acked : srv.state = .ackSent)
    (non : srv.flow.conn.isConfirmable = some false) : Conversation (srv.said ++ [.response]) := by
  rcases converses.acked live acked with ⟨con, _⟩ | ⟨_, said⟩
  · cases non.symm.trans con
  · rw [said]
    exact .answered

/-- The separate response starts the timer for its first retransmission. -/
theorem EcServer.answered_retries (order : ByteOrder) (env : SendEnv) (res : EcPdu) (said : srv.said = [.ack])
    (idle : srv.coap.Idle) : (srv.answered order env res).Retries 0 := by
  refine ⟨Nat.zero_le _, ?_, ?_⟩
  · have log := EcServer.said_log {srv with res := some (srv.encodedResp order env true res)} .response
      ((srv.encodedResp order env true res).datagram srv.flow.conn)
    exact log.trans (congrArg (· ++ [Purpose.response]) said)
  · change (coapTimerStart srv.coap).1 = _
    unfold coapTimerStart ecTimerStart
    rw [if_neg (by decide), if_neg (by simp [idle.1])]
    rfl

/-- A retransmission uses up one retry and doubles the timeout. -/
theorem EcServer.Retries.again {next : EcServer} {k : Nat} (retries : srv.Retries k)
    (left : srv.coap.fired.retriesLeft ≠ 0) (said : next.said = srv.said ++ [.retransmission])
    (restarted : coapTimerRestart srv.coap.fired = some next.coap) : next.Retries (k + 1) := by
  have timer := retries.coap
  rw [timer] at left restarted
  change ecCoapMaxRetransmit - k ≠ 0 at left
  refine ⟨by omega, ?_, ?_⟩
  · rw [said, retries.said, List.replicate_succ']
    rfl
  · unfold coapTimerRestart ecTimerRestart EcTimer.fired at restarted
    rw [if_neg left, if_pos rfl] at restarted
    rw [← Option.some.inj restarted, pow_succ, ← Nat.mul_assoc, Nat.sub_sub]

/-- The servers of a base, each with its conversation. -/
structure EcBase.Converses (b : EcBase) : Prop where
  settled : b.Settled
  servers : ∀ id srv, b.heap id = some srv → srv.Converses

theorem EcBase.Settled.state (settled : b.Settled) (stored : b.heap id = some srv) (live : srv.freed = false) :
    srv.state = .ackSent ∧ srv.coap.Idle ∨ srv.state = .waitAck := by
  rcases (settled.pending id srv stored live).2.state with acked | ⟨waiting, _⟩
  · exact Or.inl acked
  · exact Or.inr waiting

/-- Whatever ends a transaction leaves a whole conversation. -/
theorem ServerWork.closing (converses : b.Converses) (work : ServerWork platform b event id w)
    (freed : w.srv.freed = true) : Conversation w.srv.said := by
  have pending : ∀ srv, b.heap id = some srv → srv.freed = false → srv.state = .ackSent ∨ srv.state = .waitAck :=
    fun srv stored live => (converses.settled.state stored live).imp_left And.left
  have accepted : ∀ srv, b.heap id = some srv → srv.freed = false → srv.state ≠ .reqOk := by
    intro srv stored live reqOk
    rcases pending srv stored live with state | state
    · cases reqOk.symm.trans state
    · cases reqOk.symm.trans state
  cases work with
  | control input h id srv w rc controls found stored worked =>
      obtain ⟨held, same, live⟩ := converses.settled.listed id (ecServersLookup_mem found).1
      rw [stored] at same
      cases same
      have opens := (converses.servers id srv stored).opens live (pending srv stored live)
      have closes : srv.Closes w.srv := ecServerControlled_closes worked
      exact opens.closes closes
  | request input h w rc accepts method worked => exact ecServerProcess_said rfl worked freed
  | rescheduled id env srv w stored armed live worked =>
      have conversation := converses.servers id srv stored
      rcases reschedUserfn_said live (accepted srv stored live) worked freed with same | ⟨acked, non, response⟩
      · rw [same]
        exact conversation.whole
      · rw [response]
        exact conversation.answers live acked non
  | coapTimeout id env srv w stored armed live worked =>
      have conversation := converses.servers id srv stored
      obtain ⟨_, waiting, present⟩ := converses.settled.timedOut stored live armed
      rcases ecSrvCoapTimeout_said waiting worked with ⟨_, same⟩ | ⟨left, again, restarted⟩
      · rw [same]
        exact conversation.whole
      · obtain ⟨k, retries⟩ := conversation.waiting live waiting
        have next := retries.again left again restarted
        rw [next.said]
        exact .opening _ (.separate _ next.within)
  | wakeup id calls env srv w rc stored live worked =>
      obtain ⟨acked, non, response⟩ := ecServerWakeup_said live (accepted srv stored live) worked freed
      rw [response]
      exact (converses.servers id srv stored).answers live acked non

/-- What becomes of a transaction carries on its conversation. -/
theorem ServerLife.converses (converses : b.Converses) (closing : srv.freed = true → Conversation srv.said)
    (restarted : ∀ env old, event = .coapTimeout id env → b.heap id = some old → srv.freed = false →
      coapTimerRestart old.coap.fired = some srv.coap) (life : ServerLife platform b event id srv) : srv.Converses := by
  have ended : ∀ {srv : EcServer}, srv.freed = true → Conversation srv.said → srv.Converses := by
    intro srv freed whole
    exact ⟨whole, fun live => absurd (live.symm.trans freed) (by decide),
      fun live => absurd (live.symm.trans freed) (by decide)⟩
  cases life with
  | ended _ _ old srv stored live freed logs => exact ended freed (closing freed)
  | refused input srv freed logs => exact ended freed (closing freed)
  | waits input h srv accepts method waiting =>
      have state := waiting.state
      have said : srv.flow.conn.isConfirmable = some true ∧ srv.said = [.ack] ∨
          srv.flow.conn.isConfirmable = some false ∧ srv.said = [] := by
        unfold EcServer.said
        rcases waiting.acked with ⟨con, _, sent⟩ | ⟨non, _, sent⟩
        · exact Or.inl ⟨con, by rw [sent]; rfl⟩
        · exact Or.inr ⟨non, by rw [sent]; rfl⟩
      refine ⟨?_, fun _ _ => said, fun _ waiting => by cases state.symm.trans waiting⟩
      rcases said with ⟨_, said⟩ | ⟨_, said⟩
      · rw [said]
        exact .opening _ .acked
      · rw [said]
        exact .opening _ .silent
  | answers _ _ env srv called res stored live acked call responds =>
      have con : srv.flow.conn.isConfirmable = some true := by rw [← responds.model, call.conn]
      have said : called.said = [.ack] := by
        rcases (converses.servers id srv stored).acked live acked with ⟨_, said⟩ | ⟨non, _⟩
        · rw [call.said]
          exact said
        · cases con.symm.trans non
      have idle : called.coap.Idle := by
        obtain ⟨⟨code, response, same⟩, _, _⟩ := call
        rcases converses.settled.state stored live with ⟨_, idle⟩ | waiting
        · rw [same]
          exact idle
        · cases acked.symm.trans waiting
      have retries := called.answered_retries platform.order env res said idle
      refine ⟨?_, fun _ acked => (nomatch acked), fun _ _ => ⟨0, retries⟩⟩
      rw [retries.said]
      exact .opening _ (.separate 0 retries.within)
  | repeats _ env old isCon res coap stored live armed waiting left responds =>
      obtain ⟨k, retries⟩ := (converses.servers id old stored).waiting live waiting
      have timer := restarted env old rfl stored live
      have next := retries.again left ?_ timer
      · refine ⟨?_, fun _ acked => (nomatch acked), fun _ _ => ⟨k + 1, next⟩⟩
        rw [next.said]
        exact .opening _ (.separate _ next.within)
      · exact EcServer.said_log _ .retransmission _
  | fails _ calls env old w stored live acked called silent =>
      have call := applyCalls_called platform calls (b.work id old)
      rw [← called] at call
      have spoken := EcServer.Called.converses call (converses.servers id old stored)
      exact spoken.congr rfl rfl rfl rfl rfl
  | idle _ calls env old stored live quiet =>
      have call := applyCalls_called platform calls (b.work id old)
      exact EcServer.Called.converses call (converses.servers id old stored)

theorem ServerWork.restarted (settled : b.Settled) (work : ServerWork platform b event id w) {env : SendEnv}
    {old : EcServer} (timeout : event = .coapTimeout id env) (stored : b.heap id = some old)
    (live : w.srv.freed = false) : coapTimerRestart old.coap.fired = some w.srv.coap := by
  subst timeout
  cases work with
  | coapTimeout _ _ srv _ held armed alive worked =>
      cases held.symm.trans stored
      obtain ⟨_, waiting, present⟩ := settled.timedOut held alive armed
      rcases ecSrvCoapTimeout_said waiting worked with ⟨freed, _⟩ | ⟨_, _, timer⟩
      · exact absurd (live.symm.trans freed) (by decide)
      · exact timer

/-- A step carries on the conversations of all transactions. -/
theorem baseStep_converses {b' : EcBase} (converses : b.Converses) (finished : baseStep platform b event = .ok b') :
    b'.Converses := by
  refine ⟨baseStep_keeps_settled converses.settled finished, fun id srv stored => ?_⟩
  rcases baseStep_effect finished with same | ⟨here, w, work, worked⟩
  · exact converses.servers id srv (same.heap ▸ stored)
  · rw [worked.heap] at stored
    split at stored
    · cases stored
      exact (work.life converses.settled).converses converses (work.closing converses)
        fun env old timeout held live => work.restarted converses.settled timeout held live
    · exact converses.servers id srv stored

end Servers

/-- In every run of a base each transaction acknowledges its request at most once, answers it at most once, says its
answer again as often as it has retries and no more, and says nothing after an error reply; while it waits for an ACK,
its timer is armed for the response timeout, doubled for each retransmission so far. -/
theorem baseRun_converses (platform : Platform) (events : List BaseEvent) {b : EcBase}
    (finished : (baseMachine platform).run ecInit events = .ok b) {id : SrvId} {srv : EcServer}
    (stored : b.heap id = some srv) : srv.Converses := by
  have converses : b.Converses := (baseMachine platform).run_preserves EcBase.Converses
    (fun _ _ _ held stepped => baseStep_converses held stepped)
    ⟨ecInit_settled, fun id srv stored => absurd stored (by simp [ecInit])⟩ finished
  exact converses.servers id srv stored

/-- A GET whose user answers when it is called again; the answer is sent again once. -/
def retriedGet : List BaseEvent :=
  [.callbacks [] true, .datagram waitingGet,
    .rescheduled 0 ⟨⟨[.setCode ecContent], .ready, ⟨0, 0⟩⟩, true, true, ⟨1, 0, true⟩, ⟨1, 0, true⟩⟩,
    .coapTimeout 0 ⟨0, 1, true⟩]

theorem retriedGet_converses : ∃ b srv, (baseMachine serverPlatform).run ecInit retriedGet = .ok b ∧
    b.heap 0 = some srv ∧ srv.said = [.ack, .response, .retransmission] ∧ srv.Converses := by
  have run : ∃ b srv, (baseMachine serverPlatform).run ecInit retriedGet = .ok b ∧ b.heap 0 = some srv ∧
      srv.said = [.ack, .response, .retransmission] := ⟨_, _, rfl, rfl, rfl⟩
  obtain ⟨b, srv, finished, stored, said⟩ := run
  exact ⟨b, srv, finished, stored, said, baseRun_converses serverPlatform retriedGet finished stored⟩

end Webthings.Evcoap
