import Webthings.Evcoap.BaseSteps

namespace Webthings.Evcoap
open Webthings.Transition

/-- What the calls of a user make of a server: they set its code, and the payload and the options of its response. -/
structure EcServer.Called (srv called : EcServer) : Prop where
  frame : ∃ code res, called = {srv with flow := {srv.flow with respCode := code}, res := res}
  bits : called.res.map (fun pdu => pdu.hdrBits) = srv.res.map fun pdu => pdu.hdrBits
  header : called.res.map (fun pdu => pdu.hdr) = srv.res.map fun pdu => pdu.hdr

theorem EcServer.Called.refl (srv : EcServer) : srv.Called srv := ⟨⟨srv.flow.respCode, srv.res, rfl⟩, rfl, rfl⟩

theorem EcServer.Called.trans {srv middle called : EcServer} (first : srv.Called middle) (second : middle.Called called) :
    srv.Called called := by
  obtain ⟨⟨code, res, same⟩, bits, header⟩ := first
  obtain ⟨⟨code', res', same'⟩, bits', header'⟩ := second
  refine ⟨⟨code', res', ?_⟩, bits'.trans bits, header'.trans header⟩
  rw [same', same]

theorem EcServer.Called.state {srv called : EcServer} (call : srv.Called called) : called.state = srv.state := by
  obtain ⟨⟨code, res, same⟩, _, _⟩ := call
  rw [same]

theorem EcServer.Called.conn {srv called : EcServer} (call : srv.Called called) :
    called.flow.conn = srv.flow.conn := by
  obtain ⟨⟨code, res, same⟩, _, _⟩ := call
  rw [same]

/-- The calls of a user leave the reschedule timer alone. -/
theorem EcServer.Called.again {srv called : EcServer} {resched : EcTimer}
    (call : {srv with resched := resched}.Called called) : {srv with resched := called.resched}.Called called := by
  have same : called.resched = resched := by
    obtain ⟨⟨code, res, equal⟩, _, _⟩ := call
    rw [equal]
  rw [same]
  exact call

theorem SrvApi.apply_called (platform : Platform) (w : EcWork) (call : SrvApi) :
    w.srv.Called (SrvApi.apply platform w call).srv := by
  have payload : ∀ (res : EcPdu) (bytes : List UInt8), (ecPduSetPayload res bytes).1.hdrBits = res.hdrBits ∧
      (ecPduSetPayload res bytes).1.hdr = res.hdr := by
    intro res bytes
    unfold ecPduSetPayload
    split <;> exact ⟨rfl, rfl⟩
  cases call with
  | setCode rc =>
      obtain ⟨code, same⟩ := ecFlowSetRespCode_frame w.srv.flow rc
      exact ⟨⟨code, w.srv.res, by simp only [SrvApi.apply, same]⟩, rfl, rfl⟩
  | setPayload bytes =>
      refine ⟨⟨w.srv.flow.respCode, _, rfl⟩, ?_, ?_⟩
      · simp only [SrvApi.apply, Option.map_map]
        apply Option.map_congr
        exact fun res _ => (payload res bytes).1
      · simp only [SrvApi.apply, Option.map_map]
        apply Option.map_congr
        exact fun res _ => (payload res bytes).2
  | add call =>
      refine ⟨⟨w.srv.flow.respCode, _, rfl⟩, ?_, ?_⟩
      · simp only [SrvApi.apply, Option.map_map]
        rfl
      · simp only [SrvApi.apply, Option.map_map]
        rfl
  | observe observing => exact EcServer.Called.refl w.srv

theorem applyCalls_called (platform : Platform) (calls : List SrvApi) (w : EcWork) :
    w.srv.Called (applyCalls platform calls w).srv := by
  unfold applyCalls
  induction calls generalizing w with
  | nil => exact EcServer.Called.refl w.srv
  | cons call calls ih =>
      rw [List.foldl_cons]
      exact (SrvApi.apply_called platform w call).trans (ih _)

/-- A failed response changes at most the response itself and what is cached of it. -/
theorem ecServerSendResp_fails (platform : Platform) (env : SendEnv) (purpose : Purpose) (w : EcWork)
    (failed : (ecServerSendResp platform env purpose w).2 ≠ 0) :
    ∃ res dups, (ecServerSendResp platform env purpose w).1 = {w with srv := {w.srv with res := res}, dups := dups} := by
  unfold ecServerSendResp at failed ⊢
  split
  · exact ⟨w.srv.res, w.dups, rfl⟩
  · rename_i res held
    dsimp only
    split
    · exact ⟨_, w.dups, rfl⟩
    · rename_i paired
      split
      · exact ⟨_, w.dups, rfl⟩
      · rename_i code
        split
        · exact ⟨_, w.dups, rfl⟩
        · rename_i isCon model
          split
          · exact ⟨_, w.dups, rfl⟩
          · rename_i encoded
            rw [held] at failed
            dsimp only at failed
            rw [if_neg paired, if_neg code, model] at failed
            dsimp only at failed
            rw [if_neg encoded] at failed
            unfold EcServer.log
            generalize ecServerEncodeResp platform.order env w.srv isCon (ecServerPairResp w.srv res).1 = response at failed ⊢
            generalize ecPduSend platform env.sent w.srv.flow response.1 w.dups true = handed at failed ⊢
            obtain ⟨dups, datagram⟩ := handed
            cases datagram with
            | none => exact ⟨some response.1, dups, by simp⟩
            | some datagram => simp at failed

/-- Without a response code nothing is encoded in a message of its own. -/
theorem ecServerSendResp_uncoded (platform : Platform) (env : SendEnv) (purpose : Purpose) (w : EcWork)
    (acked : w.srv.state = .ackSent) (uncoded : ¬ ecIsRespCode w.srv.flow.respCode) :
    ecServerSendResp platform env purpose w = (w, -1) := by
  unfold ecServerSendResp
  split
  · rfl
  · rename_i res held
    have paired : ecServerPairResp w.srv res = (res, 0) := by
      unfold ecServerPairResp
      rw [if_neg (by simp [acked])]
    dsimp only
    rw [paired, if_neg (by simp), if_pos uncoded, ← held]

/-- An answer to the user that is ready is sent and moves the server on, or changes at most the response. -/
theorem ecServerReady_cases {platform : Platform} {env : SendEnv} {isCon : Bool} {w w' : EcWork} {rc : Int}
    (finished : ecServerReady platform env isCon w = .ok (w', rc)) :
    (rc ≠ 0 ∧ w.srv.state ≠ .ackSent ∧ w.srv.state ≠ .reqOk ∧ w' = w) ∨
    (rc ≠ 0 ∧ (w.srv.state = .ackSent ∨ w.srv.state = .reqOk) ∧ (¬ ∃ res other, w.srv.Responds res other env.sent) ∧
      w' = (ecServerSendResp platform env .response w).1 ∧
      ∃ res dups, w' = {w with srv := {w.srv with res := res}, dups := dups}) ∨
    (rc = 0 ∧ (w.srv.state = .ackSent ∨ w.srv.state = .reqOk) ∧ ∃ res other, w.srv.Responds res other env.sent ∧
      ecServerSetState (w.respondedWith platform env .response (w.srv.encodedResp platform.order env other res))
        (if isCon = true ∧ w.srv.state = .ackSent then .waitAck else .respDone) = .ok w') := by
  unfold ecServerReady at finished
  split at finished
  · rename_i ready
    dsimp only at finished
    split at finished
    · rename_i failed
      cases finished
      refine Or.inr (Or.inl ⟨by decide, ready, fun ⟨res, other, responds⟩ => ?_, rfl,
        ecServerSendResp_fails platform env .response w failed⟩)
      rw [ecServerSendResp_responds platform env .response w res other responds] at failed
      exact absurd rfl failed
    · rename_i sent
      obtain ⟨res, other, responds⟩ := ecServerSendResp_ok platform env .response w (by simpa using sent)
      rw [ecServerSendResp_responds platform env .response w res other responds] at finished
      obtain ⟨moved, entered, same⟩ := map_ok finished
      cases same
      exact Or.inr (Or.inr ⟨rfl, ready, res, other, responds, entered⟩)
  · rename_i other
    cases finished
    exact Or.inl ⟨by decide, fun acked => other (Or.inl acked), fun accepted => other (Or.inr accepted), rfl⟩

/-- A separate ACK is sent and kept, or nothing of it is. -/
theorem ecServerSendSeparateAck_cases (platform : Platform) (sent : Bool) (w : EcWork) :
    (∃ dups, ecServerSendSeparateAck platform sent w = ({w with dups := dups}, -1)) ∨
    (∃ req dups, w.srv.req = some req ∧
      ecServerSendSeparateAck platform sent w =
        ({w with
            srv := {w.srv with octrl := some (separateAck platform.order req.hdrBits.mid)}.log .ack
              (some ((separateAck platform.order req.hdrBits.mid).datagram w.srv.flow.conn))
            dups := dups}, 0)) := by
  unfold ecServerSendSeparateAck
  split
  · exact Or.inl ⟨w.dups, rfl⟩
  · split
    · exact Or.inl ⟨w.dups, rfl⟩
    · cases request : w.srv.req with
      | none =>
          rw [Option.map_none, if_pos (by decide)]
          exact Or.inl ⟨w.dups, rfl⟩
      | some req =>
          have paired : ecPduSetSibling ecPduNewEmpty (some req.hdrBits.mid) =
              ({ecPduNewEmpty with sibling := some req.hdrBits.mid}, 0) := rfl
          have encoded : ecPduEncodeResponseAck platform.order w.srv.flow
              {ecPduNewEmpty with sibling := some req.hdrBits.mid} =
              (separateAck platform.order req.hdrBits.mid, 0) := rfl
          rw [Option.map_some, paired]
          dsimp only
          rw [if_neg (by decide), encoded]
          dsimp only
          rw [if_neg (by decide)]
          have handed := ecPduSend_datagram platform sent w.srv.flow (separateAck platform.order req.hdrBits.mid) w.dups true
          generalize ecPduSend platform sent w.srv.flow (separateAck platform.order req.hdrBits.mid) w.dups true = ack
            at handed ⊢
          obtain ⟨dups, datagram⟩ := ack
          cases datagram with
          | none => exact Or.inl ⟨dups, rfl⟩
          | some datagram =>
              have same := ecNetSend_some handed.symm
              subst same
              exact Or.inr ⟨req, dups, rfl, rfl⟩

/-- The log grows by ACKs and replies, and by a response unless one waits for its ACK already. -/
def EcServer.Logs (old new : EcServer) : Prop :=
  ∃ more, new.sent = old.sent ++ more ∧ ∀ s ∈ more, s.purpose = .ack ∨ s.purpose = .reply ∨
    (s.purpose = .response ∧ old.state ≠ .waitAck)

theorem EcServer.Logs.of_same {old new : EcServer} (same : new.sent = old.sent) : old.Logs new :=
  ⟨[], by simp [same], by simp⟩

theorem EcServer.Logs.of_one {old new : EcServer} {s : Sent} (same : new.sent = old.sent ++ [s])
    (purpose : s.purpose = .ack ∨ s.purpose = .reply ∨ (s.purpose = .response ∧ old.state ≠ .waitAck)) :
    old.Logs new :=
  ⟨[s], same, fun other member => by
    have here : other = s := List.mem_singleton.mp member
    exact here ▸ purpose⟩

theorem EcServer.Logs.trans {old middle new : EcServer} (first : old.Logs middle)
    (state : old.state = .waitAck → middle.state = .waitAck) (second : middle.Logs new) : old.Logs new := by
  obtain ⟨before, same, allowed⟩ := first
  obtain ⟨after, same', allowed'⟩ := second
  refine ⟨before ++ after, by rw [same', same, List.append_assoc], fun s member => ?_⟩
  rcases List.mem_append.mp member with early | late
  · exact allowed s early
  · rcases allowed' s late with ack | reply | ⟨response, other⟩
    · exact Or.inl ack
    · exact Or.inr (Or.inl reply)
    · exact Or.inr (Or.inr ⟨response, fun waiting => other (state waiting)⟩)

theorem EcServer.Called.logs {srv called : EcServer} (call : srv.Called called) : srv.Logs called := by
  obtain ⟨⟨code, res, same⟩, _, _⟩ := call
  exact EcServer.Logs.of_same (by rw [same])

/-- A server whose separate response waits for its ACK. -/
def EcServer.answered (order : ByteOrder) (env : SendEnv) (srv : EcServer) (res : EcPdu) : EcServer :=
  {({srv with res := some (srv.encodedResp order env true res)}.log .response
      (some ((srv.encodedResp order env true res).datagram srv.flow.conn))) with
    state := .waitAck
    flow := {srv.flow with isSep := true}
    coap := (coapTimerStart srv.coap).1}

/-- The server before and after the separate ACK that a confirmable request gets. -/
def EcServer.Acks (order : ByteOrder) (srv : EcServer) : Bool → EcServer → Prop
  | true, acked => ∃ req, srv.req = some req ∧
      acked = {srv with octrl := some (separateAck order req.hdrBits.mid)}.log .ack
        (some ((separateAck order req.hdrBits.mid).datagram srv.flow.conn))
  | false, acked => acked = srv

theorem EcServer.Acks.logs {order : ByteOrder} {srv acked : EcServer} {isCon : Bool} (acks : srv.Acks order isCon acked) :
    srv.Logs acked := by
  cases isCon with
  | true =>
      obtain ⟨req, _, same⟩ := acks
      exact EcServer.Logs.of_one (by rw [same]; rfl) (Or.inl rfl)
  | false => exact EcServer.Logs.of_same (congrArg EcServer.sent acks)

section Ends

variable (platform : Platform)

theorem ecServerFail_ended (env : SendEnv) (rc : EcRc) (w : EcWork) :
    ∃ failed, ecServerFail platform env rc w = .ok failed ∧ failed.srv.freed = true := by
  unfold ecServerFail
  rw [ecServerSetState_final _ .internalErr rfl rfl]
  exact ⟨_, rfl, rfl⟩

/-- A control message ends its transaction in whatever state it is. -/
theorem ecServerControlled_ended (h : EcHdr) (input : ServerInput) (w : EcWork) :
    ∃ ended rc, ecServerControlled platform h input w = .ok (ended, rc) ∧ ended.srv.freed = true := by
  have failing : ∀ rc, ∃ ended outcome, ((ecServerFail platform input.env.reply rc w).map fun failed =>
      (failed, EcNetCbrc.error)) = .ok (ended, outcome) ∧ ended.srv.freed = true := by
    intro rc
    obtain ⟨failed, same, freed⟩ := ecServerFail_ended platform input.env.reply rc w
    rw [same]
    exact ⟨failed, .error, rfl, freed⟩
  unfold ecServerControlled
  split
  · rw [ecServerSetState_final _ .clientRst rfl rfl]
    exact ⟨_, _, rfl, rfl⟩
  · split
    · exact failing _
    · rename_i waiting
      have state : w.srv.state = .waitAck := by simpa using waiting
      rw [ecServerSetState_final _ .respDone (by rw [state]; rfl) rfl]
      exact ⟨_, _, rfl, rfl⟩
  · exact failing _
  · exact failing _

/-- The retransmission timer ends a transaction when no retry is left, or when the response cannot be sent again. -/
theorem ecSrvCoapTimeout_ended (env : SendEnv) (w : EcWork) (live : w.srv.freed = false)
    (waiting : w.srv.state = .waitAck) (present : w.srv.coap.evti = true) :
    ∃ next, ecSrvCoapTimeout platform env w = .ok next ∧
      (next.srv.freed = false ↔ w.srv.coap.retriesLeft ≠ 0 ∧
        ∃ res isCon, {w.srv with state := .coapRetry}.Responds res isCon env.sent) := by
  unfold ecSrvCoapTimeout
  split
  · rename_i exhausted
    rw [ecServerSetState_final _ .respAckTimeout (by rw [waiting]; rfl) rfl]
    exact ⟨_, rfl, by simp [EcWork.ended, ecServerFree, exhausted]⟩
  · rename_i left
    rw [ecServerSetState_stay _ .coapRetry (by rw [waiting]; rfl) rfl (by decide)]
    dsimp only
    have core := ecServerSendResp_core platform env .retransmission {w with srv := {w.srv with state := .coapRetry}}
    by_cases sent : (ecServerSendResp platform env .retransmission {w with srv := {w.srv with state := .coapRetry}}).2 = 0
    · have responds := ecServerSendResp_ok platform env .retransmission _ sent
      generalize ecServerSendResp platform env .retransmission {w with srv := {w.srv with state := .coapRetry}} =
        responded at core sent ⊢
      have state : responded.1.srv.state = .coapRetry := congrArg ServerCore.state core
      have timer : responded.1.srv.coap = w.srv.coap := congrArg ServerCore.coap core
      have freed : responded.1.srv.freed = false := (congrArg ServerCore.freed core).trans live
      obtain ⟨coap, again⟩ : ∃ coap, coapTimerRestart responded.1.srv.coap = some coap := by
        unfold coapTimerRestart ecTimerRestart
        rw [timer, if_neg left, if_pos present]
        exact ⟨_, rfl⟩
      rw [if_neg (by simp [sent]), ecServerSetState_again _ state coap again]
      exact ⟨_, rfl, fun _ => ⟨left, responds⟩, fun _ => freed⟩
    · rw [if_pos sent, ecServerSetState_final _ .internalErr rfl rfl]
      refine ⟨_, rfl, fun dead => absurd dead (by simp [EcWork.ended, ecServerFree]), fun ⟨_, res, isCon, responds⟩ => ?_⟩
      rw [ecServerSendResp_responds platform env .retransmission _ res isCon responds] at sent
      exact absurd rfl sent

/-- A server that is woken up ends its transaction with a non-confirmable response. -/
theorem ecServerWakeup_ended (env : SendEnv) (calls : List SrvApi) (w : EcWork) (live : w.srv.freed = false)
    (pending : w.srv.state = .ackSent ∨ w.srv.state = .waitAck) :
    ∃ woken rc, ecServerWakeup platform env calls w = .ok (woken, rc) ∧
      (woken.srv.freed = true ↔ w.srv.state = .ackSent ∧
        ∃ res, (applyCalls platform calls w).srv.Responds res false env.sent) := by
  have core := applyCalls_core platform calls w
  have state : (applyCalls platform calls w).srv.state = w.srv.state := congrArg ServerCore.state core
  have freed : (applyCalls platform calls w).srv.freed = false := (congrArg ServerCore.freed core).trans live
  unfold ecServerWakeup
  dsimp only
  generalize applyCalls platform calls w = called at core state freed ⊢
  cases model : called.srv.flow.conn.isConfirmable with
  | none =>
      refine ⟨called, -1, rfl, fun dead => absurd (freed.symm.trans dead) (by decide), fun ⟨_, res, responds⟩ => ?_⟩
      exact absurd (model.symm.trans responds.model) (by simp)
  | some isCon =>
      dsimp only
      unfold ecServerReady
      rcases pending with acked | waiting
      · rw [if_pos (Or.inl (state.trans acked))]
        dsimp only
        have sending := ecServerSendResp_core platform env .response called
        by_cases sent : (ecServerSendResp platform env .response called).2 = 0
        · obtain ⟨res, other, responds⟩ := ecServerSendResp_ok platform env .response called sent
          have same : other = isCon := Option.some.inj (responds.model.symm.trans model)
          generalize ecServerSendResp platform env .response called = responded at sending sent ⊢
          have again : responded.1.srv.state = .ackSent :=
            (congrArg ServerCore.state sending).trans (state.trans acked)
          have alive : responded.1.srv.freed = false := (congrArg ServerCore.freed sending).trans freed
          rw [if_neg (by simp [sent])]
          cases isCon with
          | true =>
              rw [if_pos ⟨rfl, again⟩, ecServerSetState_waitAck _ again]
              refine ⟨_, 0, rfl, fun dead => absurd (alive.symm.trans dead) (by decide), fun ⟨_, res, responds⟩ => ?_⟩
              exact absurd (model.symm.trans responds.model) (by simp)
          | false =>
              rw [if_neg (by simp), ecServerSetState_final _ .respDone (by rw [again]; rfl) rfl]
              exact ⟨_, 0, rfl, fun _ => ⟨acked, res, same ▸ responds⟩, fun _ => rfl⟩
        · rw [if_pos sent]
          refine ⟨_, -1, rfl, fun dead => ?_, fun ⟨_, res, responds⟩ => ?_⟩
          · exact absurd (((congrArg ServerCore.freed sending).trans freed).symm.trans dead) (by decide)
          · rw [ecServerSendResp_responds platform env .response called res false responds] at sent
            exact absurd rfl sent
      · rw [if_neg (by rw [state, waiting]; decide)]
        refine ⟨called, -1, rfl, fun dead => absurd (freed.symm.trans dead) (by decide), fun ⟨acked, _⟩ => ?_⟩
        rw [waiting] at acked
        cases acked

end Ends

section Inversions

variable {platform : Platform}

/-- What a server becomes that answers: it ends, it waits for an ACK, or at most its response has changed. -/
theorem ecServerReady_life {env : SendEnv} {isCon : Bool} {w w' : EcWork} {rc : Int}
    (model : w.srv.flow.conn.isConfirmable = some isCon) (finished : ecServerReady platform env isCon w = .ok (w', rc)) :
    (rc ≠ 0 ∧ w.srv.state ≠ .ackSent ∧ w' = w) ∨
    (rc ≠ 0 ∧ (w.srv.state = .ackSent ∨ w.srv.state = .reqOk) ∧ (¬ ∃ res other, w.srv.Responds res other env.sent) ∧
      w' = (ecServerSendResp platform env .response w).1 ∧
      ∃ res dups, w' = {w with srv := {w.srv with res := res}, dups := dups}) ∨
    (rc = 0 ∧ w'.srv.freed = true ∧ w.srv.Logs w'.srv) ∨
    (rc = 0 ∧ w.srv.state = .ackSent ∧ ∃ res, w.srv.Responds res true env.sent ∧
      w'.srv = w.srv.answered platform.order env res) := by
  rcases ecServerReady_cases finished with ⟨failed, acked, _, same⟩ | failing |
    ⟨zero, ready, res, other, responds, entered⟩
  · exact Or.inl ⟨failed, acked, same⟩
  · exact Or.inr (Or.inl failing)
  · have con : other = isCon := Option.some.inj (responds.model.symm.trans model)
    subst con
    split at entered
    · rename_i separate
      obtain ⟨confirmable, acked⟩ := separate
      subst confirmable
      have moved := ecServerSetState_waitAck
        (w.respondedWith platform env .response (w.srv.encodedResp platform.order env true res)) acked
      rw [moved] at entered
      cases entered
      exact Or.inr (Or.inr (Or.inr ⟨zero, acked, res, responds, rfl⟩))
    · rw [ecServerSetState_final _ .respDone ?_ rfl] at entered
      · cases entered
        refine Or.inr (Or.inr (Or.inl ⟨zero, rfl, EcServer.Logs.of_one rfl (Or.inr (Or.inr ⟨rfl, ?_⟩))⟩))
        rcases ready with acked | accepted
        · rw [acked]
          decide
        · rw [accepted]
          decide
      · change ecServerCheckTransition w.srv.state .respDone = true
        rcases ready with acked | accepted
        · rw [acked]
          rfl
        · rw [accepted]
          rfl

/-- What a server becomes whose user cannot answer yet: it waits on the list, or the wait has failed. -/
theorem ecServerWait_life {env : HandlerEnv} {isCon : Bool} {w w' : EcWork} {rc : Int}
    (finished : ecServerWait platform env isCon w = .ok (w', rc)) :
    (rc ≠ 0 ∧ w.srv.Logs w'.srv) ∨
    (rc = 0 ∧ w.srv.state = .reqOk ∧ ∃ acked resched, w.srv.Acks platform.order isCon acked ∧
      w'.srv = {acked with parent := true, resched := resched, state := .ackSent}) := by
  unfold ecServerWait at finished
  split at finished
  · rename_i accepted
    have acking : (∃ dups, (if isCon then ecServerSendSeparateAck platform env.ack w else (w, 0)) =
        ({w with dups := dups}, -1)) ∨ (∃ acked : EcWork,
        (if isCon then ecServerSendSeparateAck platform env.ack w else (w, 0)) = (acked, 0) ∧
          w.srv.Acks platform.order isCon acked.srv) := by
      cases isCon with
      | true =>
          rcases ecServerSendSeparateAck_cases platform env.ack w with ⟨dups, failed⟩ | ⟨req, dups, request, sent⟩
          · exact Or.inl ⟨dups, failed⟩
          · exact Or.inr ⟨_, sent, req, request, rfl⟩
      | false => exact Or.inr ⟨w, rfl, rfl⟩
    have state : ∀ acked : EcServer, w.srv.Acks platform.order isCon acked → acked.state = .reqOk := by
      intro acked acks
      cases isCon with
      | true =>
          obtain ⟨_, _, same⟩ := acks
          rw [same]
          exact accepted
      | false => exact (congrArg EcServer.state acks).trans accepted
    rcases acking with ⟨dups, failed⟩ | ⟨acked, sent, acks⟩
    · rw [failed] at finished
      dsimp only at finished
      rw [if_pos (by decide)] at finished
      cases finished
      exact Or.inl ⟨by decide, EcServer.Logs.of_same rfl⟩
    · rw [sent] at finished
      dsimp only at finished
      rw [if_neg (by simp)] at finished
      obtain ⟨resched, code, same⟩ := ecServerRescheduleUserfn_frame env.run.tv (ecServerAdd acked)
      rw [same] at finished
      dsimp only at finished
      split at finished
      · cases finished
        obtain ⟨more, log, allowed⟩ := acks.logs
        exact Or.inl ⟨by decide, more, log, allowed⟩
      · rw [ecServerSetState_stay _ .ackSent ?_ rfl (by decide)] at finished
        · cases finished
          exact Or.inr ⟨rfl, accepted, acked.srv, resched, acks, rfl⟩
        · change ecServerCheckTransition acked.srv.state .ackSent = true
          rw [state acked.srv acks]
          rfl
  · cases finished
    exact Or.inl ⟨by decide, EcServer.Logs.of_same rfl⟩

/-- What a server becomes whose callback has run. -/
theorem ecServerUserfn_life {env : HandlerEnv} {w w' : EcWork} {rc : Int}
    (finished : ecServerUserfn platform env w = .ok (w', rc)) :
    ((rc ≠ 0 ∨ w'.srv.freed = true) ∧ w.srv.Logs w'.srv) ∨
    (rc = 0 ∧ w.srv.state = .ackSent ∧ ∃ called res, w.srv.Called called ∧
      called.Responds res true env.response.sent ∧ w'.srv = called.answered platform.order env.response res) ∨
    (rc = 0 ∧ w.srv.state = .reqOk ∧ ∃ called isCon acked resched, w.srv.Called called ∧
      called.flow.conn.isConfirmable = some isCon ∧ called.Acks platform.order isCon acked ∧
      w'.srv = {acked with parent := true, resched := resched, state := .ackSent}) := by
  unfold ecServerUserfn at finished
  split at finished
  · cases finished
    exact Or.inl ⟨Or.inl (by decide), EcServer.Logs.of_same rfl⟩
  · rename_i isCon model
    have call := applyCalls_called platform env.run.calls {w with invoked := w.invoked + 1}
    have conn : (applyCalls platform env.run.calls {w with invoked := w.invoked + 1}).srv.flow.conn.isConfirmable =
        some isCon := by
      obtain ⟨⟨code, res, same⟩, _, _⟩ := call
      rw [same]
      exact model
    have logs : ∀ new : EcServer, (applyCalls platform env.run.calls {w with invoked := w.invoked + 1}).srv.Logs new →
        w.srv.Logs new := fun new later => call.logs.trans (fun waiting => call.state.trans waiting) later
    dsimp only at finished
    split at finished
    · rcases ecServerReady_life conn finished with ⟨failed, _, same⟩ | ⟨failed, _, _, _, same⟩ | ⟨_, freed, later⟩ |
        ⟨zero, acked, res, responds, same⟩
      · exact Or.inl ⟨Or.inl failed, logs _ (EcServer.Logs.of_same (by rw [same]))⟩
      · obtain ⟨res, dups, same⟩ := same
        exact Or.inl ⟨Or.inl failed, logs _ (EcServer.Logs.of_same (by rw [same]))⟩
      · exact Or.inl ⟨Or.inr freed, logs _ later⟩
      · exact Or.inr (Or.inl ⟨zero, call.state.symm.trans acked, _, res, call, responds, same⟩)
    · rcases ecServerWait_life finished with ⟨failed, later⟩ | ⟨zero, accepted, acked, resched, acks, same⟩
      · exact Or.inl ⟨Or.inl failed, logs _ later⟩
      · exact Or.inr (Or.inr ⟨zero, call.state.symm.trans accepted, _, isCon, acked, resched, call, conn, acks, same⟩)
    · cases finished
      exact Or.inl ⟨Or.inl (by decide), call.logs⟩
    · cases finished
      exact Or.inl ⟨Or.inl (by decide), call.logs⟩

/-- A response adds at most one datagram to the log. -/
theorem ecServerSendResp_sent (platform : Platform) (env : SendEnv) (purpose : Purpose) (w : EcWork) :
    ∃ more, (ecServerSendResp platform env purpose w).1.srv.sent = w.srv.sent ++ more ∧
      ∀ s ∈ more, s.purpose = purpose := by
  by_cases sent : (ecServerSendResp platform env purpose w).2 = 0
  · obtain ⟨res, isCon, responds⟩ := ecServerSendResp_ok platform env purpose w sent
    rw [ecServerSendResp_responds platform env purpose w res isCon responds]
    exact ⟨_, rfl, by simp⟩
  · obtain ⟨res, dups, same⟩ := ecServerSendResp_fails platform env purpose w sent
    rw [same]
    exact ⟨[], by simp, by simp⟩

theorem ecServerReply_logs (platform : Platform) (env : SendEnv) (rc : EcRc) (w : EcWork) :
    w.srv.Logs (ecServerReply platform env rc w).1.srv := by
  unfold ecServerReply
  split
  · exact EcServer.Logs.of_same rfl
  · dsimp only
    split
    · exact EcServer.Logs.of_same rfl
    · obtain ⟨more, log, purposes⟩ := ecServerSendResp_sent platform env .reply
        {w with srv := {w.srv with flow := (ecFlowSetRespCode w.srv.flow rc).1}}
      exact ⟨more, log, fun s member => Or.inr (Or.inl (purposes s member))⟩

/-- The error exit ends a transaction, with a reply in the log at most. -/
theorem ecServerFail_logs {env : SendEnv} {rc : EcRc} {w failed : EcWork}
    (finished : ecServerFail platform env rc w = .ok failed) : failed.srv.freed = true ∧ w.srv.Logs failed.srv := by
  unfold ecServerFail at finished
  rw [ecServerSetState_final _ .internalErr rfl rfl] at finished
  cases finished
  have logs := ecServerReply_logs platform env (if rc = ecRcUnset then ecInternalServerError else rc) w
  exact ⟨rfl, logs⟩

/-- A control message ends a transaction, with a reply in the log at most. -/
theorem ecServerControlled_logs {h : EcHdr} {input : ServerInput} {w ended : EcWork} {rc : EcNetCbrc}
    (finished : ecServerControlled platform h input w = .ok (ended, rc)) :
    ended.srv.freed = true ∧ w.srv.Logs ended.srv := by
  unfold ecServerControlled at finished
  split at finished
  · rw [ecServerSetState_final _ .clientRst rfl rfl] at finished
    cases finished
    exact ⟨rfl, EcServer.Logs.of_same rfl⟩
  · split at finished
    · obtain ⟨failed, ended, same⟩ := map_ok finished
      cases same
      exact ecServerFail_logs ended
    · rename_i waiting
      have state : w.srv.state = .waitAck := by simpa using waiting
      rw [ecServerSetState_final _ .respDone (by rw [state]; rfl) rfl] at finished
      cases finished
      exact ⟨rfl, EcServer.Logs.of_same rfl⟩
  · obtain ⟨failed, ended, same⟩ := map_ok finished
    cases same
    exact ecServerFail_logs ended
  · obtain ⟨failed, ended, same⟩ := map_ok finished
    cases same
    exact ecServerFail_logs ended

/-- A server whose separate response was sent again. -/
def EcServer.repeated (order : ByteOrder) (env : SendEnv) (srv : EcServer) (isCon : Bool) (res : EcPdu) (coap : EcTimer) :
    EcServer :=
  {({srv with res := some (srv.encodedResp order env isCon res)}.log .retransmission
      (some ((srv.encodedResp order env isCon res).datagram srv.flow.conn))) with
    state := .waitAck
    coap := coap}

/-- A retransmission that finishes has armed the timer again. -/
theorem ecServerSetState_retried {w next : EcWork} (retried : w.srv.state = .coapRetry)
    (moved : ecServerSetState w .waitAck = .ok next) :
    ∃ coap, next = {w with srv := {w.srv with state := .waitAck, coap := coap}} := by
  cases restarted : coapTimerRestart w.srv.coap with
  | none =>
      unfold ecServerSetState ecServerEnter ecSrvRestartCoapTimer at moved
      rw [if_neg (by rw [retried]; decide), if_pos rfl, if_neg (by simp [retried]), if_pos retried, restarted] at moved
      cases moved
  | some coap =>
      rw [ecServerSetState_again w retried coap restarted] at moved
      exact ⟨coap, (Except.ok.inj moved).symm⟩

/-- The retransmission timer ends a transaction, or the response was sent again. -/
theorem ecSrvCoapTimeout_life {env : SendEnv} {w next : EcWork} (waiting : w.srv.state = .waitAck)
    (finished : ecSrvCoapTimeout platform env w = .ok next) :
    (next.srv.freed = true ∧ w.srv.Logs next.srv) ∨
    (w.srv.coap.retriesLeft ≠ 0 ∧ ∃ res isCon coap, {w.srv with state := .coapRetry}.Responds res isCon env.sent ∧
      next.srv = {w.srv with state := .coapRetry}.repeated platform.order env isCon res coap) := by
  unfold ecSrvCoapTimeout at finished
  split at finished
  · rw [ecServerSetState_final _ .respAckTimeout (by rw [waiting]; rfl) rfl] at finished
    cases finished
    exact Or.inl ⟨rfl, EcServer.Logs.of_same rfl⟩
  · rename_i left
    rw [ecServerSetState_stay _ .coapRetry (by rw [waiting]; rfl) rfl (by decide)] at finished
    dsimp only at finished
    split at finished
    · rename_i failed
      rw [ecServerSetState_final _ .internalErr rfl rfl] at finished
      cases finished
      obtain ⟨res, dups, same⟩ := ecServerSendResp_fails platform env .retransmission _ failed
      refine Or.inl ⟨rfl, EcServer.Logs.of_same ?_⟩
      change (ecServerSendResp platform env .retransmission _).1.srv.sent = w.srv.sent
      rw [same]
    · rename_i sent
      obtain ⟨res, isCon, responds⟩ := ecServerSendResp_ok platform env .retransmission _ (by simpa using sent)
      rw [ecServerSendResp_responds platform env .retransmission _ res isCon responds] at finished
      obtain ⟨coap, same⟩ := ecServerSetState_retried rfl finished
      exact Or.inr ⟨left, res, isCon, coap, responds, congrArg EcWork.srv same⟩

/-- A dispatched request ends, or its server waits for the user. -/
theorem ecServerDispatch_life {resources : List (List UInt8)} {fb : Bool} {env : HandlerEnv} {w w' : EcWork}
    {rc : EcNetCbrc} (accepted : w.srv.state = .reqOk)
    (finished : ecServerDispatch platform resources fb env w = .ok (w', rc)) :
    (w'.srv.freed = true ∧ w.srv.Logs w'.srv) ∨
    (∃ called isCon acked resched, w.srv.Called called ∧ called.flow.conn.isConfirmable = some isCon ∧
      called.Acks platform.order isCon acked ∧
      w'.srv = {acked with parent := true, resched := resched, state := .ackSent}) := by
  unfold ecServerDispatch at finished
  split at finished
  · split at finished
    · cases finished
    · rename_i run code ran
      have life := ecServerUserfn_life ran
      split at finished
      · rename_i nonzero
        obtain ⟨failed, ended, same⟩ := map_ok finished
        cases same
        obtain ⟨freed, later⟩ := ecServerFail_logs ended
        rcases life with ⟨_, logs⟩ | ⟨zero, _⟩ | ⟨zero, _⟩
        · exact Or.inl ⟨freed, logs.trans (fun waiting => absurd (accepted.symm.trans waiting) (by decide)) later⟩
        · exact absurd zero nonzero
        · exact absurd zero nonzero
      · rename_i zero
        cases finished
        rcases life with ⟨failed | freed, logs⟩ | ⟨_, acked, _⟩ | ⟨_, _, waiting⟩
        · exact absurd failed zero
        · exact Or.inl ⟨freed, logs⟩
        · rw [accepted] at acked
          cases acked
        · exact Or.inr waiting
  · obtain ⟨ended, moved, same⟩ := map_ok finished
    cases same
    have logs := ecServerReply_logs platform env.reply ecNotFound w
    have state : (ecServerReply platform env.reply ecNotFound w).1.srv.state = w.srv.state :=
      congrArg ServerCore.state (ecServerReply_core platform env.reply ecNotFound w)
    rw [ecServerSetState_final _ .respDone (by rw [state, accepted]; rfl) rfl] at moved
    cases moved
    exact Or.inl ⟨rfl, logs⟩

/-- What a request leaves that its user cannot answer yet: a confirmable one has got its ACK, and nothing else was
sent. -/
structure EcServer.Waits (order : ByteOrder) (h : EcHdr) (srv : EcServer) : Prop where
  state : srv.state = .ackSent
  request : ∃ req, srv.req = some req ∧ req.hdrBits = h
  response : ∃ res, srv.res = some res ∧ res.hdrBits = EcHdr.zero
  acked : srv.flow.conn.isConfirmable = some true ∧ srv.octrl = some (separateAck order h.mid) ∧
      srv.sent = [⟨.ack, (separateAck order h.mid).datagram srv.flow.conn⟩] ∨
    srv.flow.conn.isConfirmable = some false ∧ srv.octrl = none ∧ srv.sent = []

/-- A request ends its server at once, or leaves it waiting. -/
theorem ecServerProcess_life {resources : List (List UInt8)} {fb : Bool} {h : EcHdr} {input : ServerInput}
    {w w' : EcWork} {rc : EcNetCbrc} (created : w.srv = ecServerNew)
    (finished : ecServerProcess platform resources fb h input w = .ok (w', rc)) :
    (w'.srv.freed = true ∧ ecServerNew.Logs w'.srv) ∨ w'.srv.Waits platform.order h := by
  have failing : ∀ flow code, (ecServerFail platform input.env.reply code
      {w with srv := {w.srv with flow := flow}}).map (fun failed => (failed, EcNetCbrc.error)) = .ok (w', rc) →
      w'.srv.freed = true ∧ ecServerNew.Logs w'.srv := by
    intro flow code failed
    obtain ⟨ended, reply, same⟩ := map_ok failed
    cases same
    obtain ⟨freed, more, log, allowed⟩ := ecServerFail_logs reply
    rw [created] at log allowed
    exact ⟨freed, more, log, allowed⟩
  unfold ecServerProcess at finished
  dsimp only at finished
  split at finished
  · exact Or.inl (failing _ _ finished)
  · split at finished
    · exact Or.inl (failing _ _ finished)
    · split at finished
      · cases finished
      · rename_i flow code _
        split at finished
        · exact Or.inl (failing _ _ finished)
        · rw [ecServerSetState_stay _ .reqOk (by rw [created]; rfl) rfl (by decide)] at finished
          dsimp only at finished
          rcases ecServerDispatch_life rfl finished with ⟨freed, more, log, allowed⟩ |
            ⟨called, isCon, acked, resched, call, model, acks, same⟩
          · rw [created] at log
            refine Or.inl ⟨freed, more, log, fun s member => ?_⟩
            rcases allowed s member with ack | reply | ⟨response, _⟩
            · exact Or.inl ack
            · exact Or.inr (Or.inl reply)
            · exact Or.inr (Or.inr ⟨response, by decide⟩)
          · refine Or.inr ?_
            rw [created] at call
            obtain ⟨⟨respCode, res, calledSame⟩, bits, _⟩ := call
            obtain ⟨response, held, zero⟩ := Option.map_eq_some_iff.mp bits
            cases isCon with
            | true =>
                obtain ⟨req, request, ackedSame⟩ := acks
                subst ackedSame
                subst calledSame
                have sole : (ecServerBody input.raw input.beyond).pdu input.raw h = req := Option.some.inj request
                subst sole
                rw [same]
                exact ⟨rfl, ⟨_, rfl, rfl⟩, ⟨response, held, zero⟩, Or.inl ⟨model, rfl, rfl⟩⟩
            | false =>
                have unacked : acked = called := acks
                subst unacked
                subst calledSame
                rw [same]
                exact ⟨rfl, ⟨_, rfl, rfl⟩, ⟨response, held, zero⟩, Or.inr ⟨model, rfl, rfl⟩⟩

/-- What an event makes of the server that it gives work to: everything that can happen to a transaction. -/
inductive ServerLife (platform : Platform) (b : EcBase) : BaseEvent → SrvId → EcServer → Prop where
  | ended (event : BaseEvent) (id : SrvId) (old srv : EcServer) (stored : b.heap id = some old)
      (live : old.freed = false) (freed : srv.freed = true) (logs : old.Logs srv) : ServerLife platform b event id srv
  | refused (input : ServerInput) (srv : EcServer) (freed : srv.freed = true) (logs : ecServerNew.Logs srv) :
      ServerLife platform b (.datagram input) b.nextSrv srv
  | waits (input : ServerInput) (h : EcHdr) (srv : EcServer) (accepts : b.Accepts platform input h)
      (method : ecIsMethod h.code.toNat) (waiting : srv.Waits platform.order h) :
      ServerLife platform b (.datagram input) b.nextSrv srv
  | answers (event : BaseEvent) (id : SrvId) (env : SendEnv) (srv called : EcServer) (res : EcPdu)
      (stored : b.heap id = some srv) (live : srv.freed = false) (acked : srv.state = .ackSent)
      (call : {srv with resched := called.resched}.Called called) (responds : called.Responds res true env.sent) :
      ServerLife platform b event id (called.answered platform.order env res)
  | repeats (id : SrvId) (env : SendEnv) (srv : EcServer) (isCon : Bool) (res : EcPdu) (coap : EcTimer)
      (stored : b.heap id = some srv) (live : srv.freed = false) (armed : srv.coap.pending = true)
      (waiting : srv.state = .waitAck) (left : srv.coap.retriesLeft ≠ 0)
      (responds : {srv with coap := srv.coap.fired, state := .coapRetry}.Responds res isCon env.sent) :
      ServerLife platform b (.coapTimeout id env) id
        ({srv with coap := srv.coap.fired, state := .coapRetry}.repeated platform.order env isCon res coap)
  | fails (id : SrvId) (calls : List SrvApi) (env : SendEnv) (srv : EcServer) (w : EcWork)
      (stored : b.heap id = some srv) (live : srv.freed = false) (acked : srv.state = .ackSent)
      (called : w = applyCalls platform calls (b.work id srv))
      (silent : ¬ ∃ res isCon, w.srv.Responds res isCon env.sent) :
      ServerLife platform b (.wakeup id calls env) id
        {w.srv with res := (ecServerSendResp platform env .response w).1.srv.res}
  | idle (id : SrvId) (calls : List SrvApi) (env : SendEnv) (srv : EcServer)
      (stored : b.heap id = some srv) (live : srv.freed = false)
      (quiet : srv.state ≠ .ackSent ∨ srv.flow.conn.isConfirmable = none) :
      ServerLife platform b (.wakeup id calls env) id (applyCalls platform calls (b.work id srv)).srv

/-- A callback that is run again ends the transaction or answers. -/
theorem reschedUserfn_life {env : HandlerEnv} {w next : EcWork}
    (pending : w.srv.state = .ackSent ∨ w.srv.state = .waitAck)
    (finished : reschedUserfn platform env w = .ok next) :
    (next.srv.freed = true ∧ w.srv.Logs next.srv) ∨
    (w.srv.state = .ackSent ∧ ∃ called res, w.srv.Called called ∧ called.Responds res true env.response.sent ∧
      next.srv = called.answered platform.order env.response res) := by
  unfold reschedUserfn at finished
  split at finished
  · cases finished
  · rename_i run rc ran
    have life := ecServerUserfn_life ran
    split at finished
    · rename_i nonzero
      rw [ecServerSetState_final _ .internalErr rfl rfl] at finished
      cases finished
      rcases life with ⟨_, logs⟩ | ⟨zero, _⟩ | ⟨zero, _⟩
      · exact Or.inl ⟨rfl, logs⟩
      · exact absurd zero nonzero
      · exact absurd zero nonzero
    · rename_i zero
      cases finished
      rcases life with ⟨failed | freed, logs⟩ | ⟨_, acked, answers⟩ | ⟨_, accepted, _⟩
      · exact absurd failed zero
      · exact Or.inl ⟨freed, logs⟩
      · exact Or.inr ⟨acked, answers⟩
      · rw [accepted] at pending
        rcases pending with acked | waiting
        · cases acked
        · cases waiting

/-- The work of an event on a settled base makes of its server what the life of a transaction permits. -/
theorem ServerWork.life {b : EcBase} {event : BaseEvent} {id : SrvId} {w : EcWork} (settled : b.Settled)
    (work : ServerWork platform b event id w) : ServerLife platform b event id w.srv := by
  have state : ∀ srv, b.heap id = some srv → srv.freed = false → srv.state = .ackSent ∨ srv.state = .waitAck := by
    intro srv stored live
    rcases (settled.pending id srv stored live).2.state with ⟨acked, _⟩ | ⟨waiting, _⟩
    · exact Or.inl acked
    · exact Or.inr waiting
  cases work with
  | control input h id srv w rc controls found stored worked =>
      obtain ⟨held, same, live⟩ := settled.listed id (ecServersLookup_mem found).1
      rw [stored] at same
      cases same
      obtain ⟨freed, logs⟩ := ecServerControlled_logs worked
      exact .ended _ _ srv _ stored live freed logs
  | request input h w rc accepts method worked =>
      rcases ecServerProcess_life rfl worked with ⟨freed, logs⟩ | waiting
      · exact .refused input w.srv freed logs
      · exact .waits input h w.srv accepts method waiting
  | rescheduled id env srv w stored armed live worked =>
      rcases reschedUserfn_life (state srv stored live) worked with ⟨freed, logs⟩ |
        ⟨acked, called, res, call, responds, same⟩
      · exact .ended _ _ srv _ stored live freed logs
      · rw [same]
        exact .answers _ id env.response srv called res stored live acked call.again responds
  | coapTimeout id env srv w stored armed live worked =>
      obtain ⟨_, waiting, _⟩ := settled.timedOut stored live armed
      rcases ecSrvCoapTimeout_life waiting worked with ⟨freed, logs⟩ | ⟨left, res, isCon, coap, responds, same⟩
      · exact .ended _ _ srv _ stored live freed logs
      · rw [same]
        exact .repeats id env srv isCon res coap stored live armed waiting left responds
  | wakeup id calls env srv w rc stored live worked =>
      have call := applyCalls_called platform calls (b.work id srv)
      unfold ecServerWakeup at worked
      dsimp only at worked
      split at worked
      · rename_i model
        cases worked
        exact .idle id calls env srv stored live (Or.inr (by rw [call.conn] at model; exact model))
      · rename_i isCon model
        rcases ecServerReady_life model worked with ⟨_, acked, same⟩ | ⟨_, ready, silent, same, res, dups, frame⟩ |
          ⟨_, freed, logs⟩ | ⟨_, acked, res, responds, same⟩
        · rw [same]
          exact .idle id calls env srv stored live (Or.inl fun state => acked (call.state.trans state))
        · have acked : srv.state = .ackSent := by
            rcases ready with acked | accepted
            · exact call.state.symm.trans acked
            · rcases state srv stored live with acked | waiting
              · exact acked
              · rw [call.state.trans waiting] at accepted
                cases accepted
          have failing := ServerLife.fails id calls env srv _ stored live acked rfl silent
          rw [← same, frame] at failing
          rw [frame]
          exact failing
        · exact .ended _ _ srv _ stored live freed (call.logs.trans (fun waiting => call.state.trans waiting) logs)
        · rw [same]
          exact .answers _ id env srv _ res stored live (call.state.symm.trans acked) call.again responds

end Inversions

end Webthings.Evcoap
