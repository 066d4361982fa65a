import Webthings.Evcoap.Caching

namespace Webthings.Evcoap
open Webthings.Transition

/-- The pieces of a datagram that a record keeps. -/
def Datagram.cached (datagram : Datagram) : EcCachedPdu := ⟨datagram.hdr, datagram.opts, datagram.payload⟩

/-- An accepted request of a peer whose server has sent nothing yet. -/
structure EcWork.Unanswered (platform : Platform) (mid : UInt16) (peer : SockAddr) (w : EcWork) : Prop where
  state : w.srv.state = .reqOk
  silent : w.srv.sent = []
  request : w.srv.req.map (fun req => req.hdrBits.mid) = some mid
  conn : w.srv.flow.conn.peer = peer
  unscheduled : w.srv.resched.evti = false
  recorded : (ecNetSocklen peer).isSome → ∃ recvd, w.dups (ecDupKeyNew platform mid peer) = some recvd

/-- A server that has sent nothing, or one datagram that the record of its request has kept. -/
def EcWork.Cached (platform : Platform) (mid : UInt16) (peer : SockAddr) (w : EcWork) : Prop :=
  w.srv.sent = [] ∨ ∃ s recvd, w.srv.sent = [s] ∧ (ecNetSocklen peer).isSome ∧
    w.dups (ecDupKeyNew platform mid peer) = some recvd ∧ recvd.cachedPdu = some s.datagram.cached

section Replies

variable {platform : Platform} {mid : UInt16} {peer : SockAddr}

theorem ecPduSend_caches (sent : Bool) {flow : EcFlow} {pdu : EcPdu} {dups : EcDups} {recvd : EcRecvdPdu}
    (sibling : pdu.sibling = some mid) (present : dups (ecDupKeyNew platform mid flow.conn.peer) = some recvd) :
    (ecPduSend platform sent flow pdu dups true).dups (ecDupKeyNew platform mid flow.conn.peer) =
      some (ecRecvdPduUpdate recvd pdu.hdr pdu.opts.wire pdu.payload) := by
  have found : ecDupsSearch platform dups mid flow.conn.peer = some recvd := present
  unfold ecPduSend
  rw [sibling]
  dsimp only
  rw [found]
  exact EcDups.put_self dups _ _

/-- A send that answers the request is cached in its record. -/
theorem EcWork.Unanswered.sends {w : EcWork} (unanswered : w.Unanswered platform mid peer) {sent : Bool} {pdu : EcPdu}
    {datagram : Datagram} (sibling : pdu.sibling = some mid)
    (handed : (ecPduSend platform sent w.srv.flow pdu w.dups true).datagram = some datagram) :
    (ecNetSocklen peer).isSome ∧ ∃ recvd, (ecPduSend platform sent w.srv.flow pdu w.dups true).dups
      (ecDupKeyNew platform mid peer) = some recvd ∧ recvd.cachedPdu = some datagram.cached := by
  rw [ecPduSend_datagram] at handed
  have same := ecNetSend_some handed
  have taken := (ecNetSend_isSome sent pdu.hdr pdu.opts.wire pdu.payload w.srv.flow.conn.socket
    w.srv.flow.conn.peer).mp (by rw [handed]; rfl)
  rw [unanswered.conn] at taken
  obtain ⟨recvd, present⟩ := unanswered.recorded taken.2.1
  rw [← unanswered.conn] at present
  have caches := ecPduSend_caches sent sibling present
  rw [unanswered.conn] at caches
  exact ⟨taken.2.1, _, caches, by rw [same]; rfl⟩

/-- The work of a server that has sent nothing yet leaves it so. -/
theorem EcWork.Unanswered.silent_step {w w' : EcWork} (unanswered : w.Unanswered platform mid peer)
    (recaches : w.Recaches platform w') (silent : w'.srv.sent = []) (unscheduled : w'.srv.resched = w.srv.resched) :
    w'.Unanswered platform mid peer where
  state := recaches.alike.state.trans unanswered.state
  silent := silent
  request := recaches.alike.req ▸ unanswered.request
  conn := recaches.alike.conn ▸ unanswered.conn
  unscheduled := unscheduled ▸ unanswered.unscheduled
  recorded := fun known => by
    obtain ⟨recvd, present⟩ := unanswered.recorded known
    obtain ⟨recvd', kept, _⟩ := recaches.dups.kept present
    exact ⟨recvd', kept⟩

/-- A response to a request that is not acknowledged answers the request. -/
theorem ecServerPairResp_answers {w : EcWork} (unanswered : w.Unanswered platform mid peer) {res : EcPdu}
    (paired : (ecServerPairResp w.srv res).2 = 0) : (ecServerPairResp w.srv res).1.sibling = some mid := by
  have state : w.srv.state ≠ .ackSent := by
    rw [unanswered.state]
    decide
  have request := unanswered.request
  unfold ecServerPairResp ecPduSetSibling at paired ⊢
  rw [if_pos state, request] at paired ⊢
  dsimp only at paired ⊢
  split
  · rename_i other
    rw [if_pos other] at paired
    cases paired
  · rfl

theorem ecServerSendResp_caches (env : SendEnv) (purpose : Purpose) {w : EcWork}
    (unanswered : w.Unanswered platform mid peer) :
    (ecServerSendResp platform env purpose w).1.Cached platform mid peer ∧
      ((ecServerSendResp platform env purpose w).2 ≠ 0 →
        (ecServerSendResp platform env purpose w).1.Unanswered platform mid peer) := by
  have recaches := ecServerSendResp_recaches platform env purpose w
  have core := ecServerSendResp_core platform env purpose w
  by_cases sent : (ecServerSendResp platform env purpose w).2 = 0
  · refine ⟨?_, fun failed => absurd sent failed⟩
    obtain ⟨res, isCon, responds⟩ := ecServerSendResp_ok platform env purpose w sent
    have paired := ecServerPairResp_answers unanswered ((ecServerPairResp_ok_iff w.srv res).mpr responds.pairs)
    have sibling : (w.srv.encodedResp platform.order env isCon res).sibling = some mid :=
      (ecServerEncodeResp_sibling platform.order env w.srv isCon _).trans paired
    have handed := responds.handed platform (w.srv.encodedResp platform.order env isCon res) w.dups
    obtain ⟨known, recvd, present, kept⟩ := unanswered.sends sibling handed
    rw [ecServerSendResp_responds platform env purpose w res isCon responds]
    have log : w.srv.sent ++ [⟨purpose, (w.srv.encodedResp platform.order env isCon res).datagram w.srv.flow.conn⟩] =
        [⟨purpose, (w.srv.encodedResp platform.order env isCon res).datagram w.srv.flow.conn⟩] := by
      rw [unanswered.silent]
      rfl
    exact Or.inr ⟨_, recvd, log, known, present, kept⟩
  · have silent : (ecServerSendResp platform env purpose w).1.srv.sent = [] := by
      obtain ⟨res, dups, same⟩ := ecServerSendResp_fails platform env purpose w sent
      rw [same]
      exact unanswered.silent
    exact ⟨Or.inl silent, fun _ => unanswered.silent_step recaches silent (congrArg ServerCore.resched core)⟩

theorem ecServerReply_caches (env : SendEnv) (rc : EcRc) {w : EcWork} (unanswered : w.Unanswered platform mid peer) :
    (ecServerReply platform env rc w).1.Cached platform mid peer := by
  unfold ecServerReply
  split
  · exact Or.inl unanswered.silent
  · dsimp only
    split
    · exact Or.inl unanswered.silent
    · obtain ⟨code, same⟩ := ecFlowSetRespCode_frame w.srv.flow rc
      have coded : EcWork.Unanswered platform mid peer
          {w with srv := {w.srv with flow := (ecFlowSetRespCode w.srv.flow rc).1}} :=
        ⟨unanswered.state, unanswered.silent, unanswered.request, by rw [same]; exact unanswered.conn,
          unanswered.unscheduled, unanswered.recorded⟩
      exact (ecServerSendResp_caches env .reply coded).1

/-- A transition sends nothing and caches nothing. -/
theorem ecServerSetState_caches {w moved : EcWork} {next : EcSrvState} (cached : w.Cached platform mid peer)
    (finished : ecServerSetState w next = .ok moved) : moved.Cached platform mid peer := by
  have log : moved.srv.sent = w.srv.sent := ecServerSetState_sent finished
  have dups := ecServerSetState_dups finished
  unfold EcWork.Cached
  rw [log, dups]
  exact cached

theorem ecServerFail_caches {env : SendEnv} {rc : EcRc} {w failed : EcWork} (unanswered : w.Unanswered platform mid peer)
    (finished : ecServerFail platform env rc w = .ok failed) : failed.Cached platform mid peer :=
  ecServerSetState_caches (ecServerReply_caches env _ unanswered) finished

theorem ecServerSendSeparateAck_caches (sent : Bool) {w : EcWork} (unanswered : w.Unanswered platform mid peer) :
    (ecServerSendSeparateAck platform sent w).1.Cached platform mid peer ∧
      ((ecServerSendSeparateAck platform sent w).2 ≠ 0 →
        (ecServerSendSeparateAck platform sent w).1.Unanswered platform mid peer) := by
  have recaches := ecServerSendSeparateAck_recaches platform sent w
  by_cases failed : (ecServerSendSeparateAck platform sent w).2 ≠ 0
  · have silent : (ecServerSendSeparateAck platform sent w).1.srv = w.srv := by
      rcases ecServerSendSeparateAck_cases platform sent w with ⟨dups, same⟩ | ⟨req, dups, _, same⟩
      · rw [same]
      · rw [same] at failed
        exact absurd rfl failed
    refine ⟨Or.inl (silent ▸ unanswered.silent), fun _ => ?_⟩
    exact unanswered.silent_step recaches (silent ▸ unanswered.silent) (congrArg EcServer.resched silent)
  · refine ⟨Or.inr ?_, fun other => absurd other failed⟩
    unfold ecServerSendSeparateAck at failed ⊢
    rw [if_neg (by simp [unanswered.state])] at failed ⊢
    split
    · rename_i held
      rw [if_pos held] at failed
      exact absurd (show (-1 : Int) ≠ 0 by decide) failed
    · rename_i free
      rw [if_neg free, unanswered.request] at failed
      rw [unanswered.request]
      have paired : ecPduSetSibling ecPduNewEmpty (some mid) = ({ecPduNewEmpty with sibling := some mid}, 0) := rfl
      have encoded : ecPduEncodeResponseAck platform.order w.srv.flow {ecPduNewEmpty with sibling := some mid} =
          (separateAck platform.order mid, 0) := rfl
      rw [paired] at failed ⊢
      dsimp only at failed ⊢
      rw [if_neg (by decide), encoded] at failed ⊢
      dsimp only at failed ⊢
      rw [if_neg (by decide)] at failed ⊢
      cases handed : (ecPduSend platform sent w.srv.flow (separateAck platform.order mid) w.dups true).datagram with
      | none =>
          rw [handed] at failed
          exact absurd (show (-1 : Int) ≠ 0 by decide) failed
      | some datagram =>
          obtain ⟨known, recvd, present, kept⟩ := unanswered.sends rfl handed
          have log : w.srv.sent ++ [Sent.mk .ack datagram] = [Sent.mk .ack datagram] := by
            rw [unanswered.silent]
            rfl
          exact ⟨⟨.ack, datagram⟩, recvd, log, known, present, kept⟩

/-- A response that the user has ready ends the server of an unacknowledged request. -/
theorem ecServerReady_caches {env : SendEnv} {isCon : Bool} {w w' : EcWork} {rc : Int}
    (unanswered : w.Unanswered platform mid peer) (finished : ecServerReady platform env isCon w = .ok (w', rc)) :
    w'.Cached platform mid peer ∧ (rc ≠ 0 → w'.Unanswered platform mid peer) ∧ (rc = 0 → w'.srv.freed = true) := by
  obtain ⟨cached, failing⟩ := ecServerSendResp_caches env .response unanswered
  have core := ecServerSendResp_core platform env .response w
  have state : (ecServerSendResp platform env .response w).1.srv.state = .reqOk :=
    (congrArg ServerCore.state core).trans unanswered.state
  unfold ecServerReady at finished
  rw [if_pos (Or.inr unanswered.state)] at finished
  dsimp only at finished
  split at finished
  · rename_i failed
    cases finished
    exact ⟨cached, fun _ => failing failed, fun zero => absurd zero (by decide)⟩
  · obtain ⟨moved, entered, same⟩ := map_ok finished
    cases same
    refine ⟨ecServerSetState_caches cached entered, fun nonzero => absurd rfl nonzero, fun _ => ?_⟩
    rw [if_neg (by simp [state]), ecServerSetState_final _ .respDone (by rw [state]; rfl) rfl] at entered
    cases entered
    rfl

/-- The separate ACK is no response. -/
theorem ecServerSendSeparateAck_pairedMid (sent : Bool) (w : EcWork) :
    (ecServerSendSeparateAck platform sent w).1.srv.pairedMid = w.srv.pairedMid := by
  rcases ecServerSendSeparateAck_cases platform sent w with ⟨dups, same⟩ | ⟨req, dups, _, same⟩
  · rw [same]
  · rw [same]
    rfl

/-- A server that waits for its user has sent at most the ACK, which its record has kept. -/
theorem ecServerWait_caches {env : HandlerEnv} {isCon : Bool} {w w' : EcWork} {rc : Int}
    (unanswered : w.Unanswered platform mid peer) (finished : ecServerWait platform env isCon w = .ok (w', rc)) :
    w'.Cached platform mid peer ∧ (rc ≠ 0 → w'.Unanswered platform mid peer) ∧
      (rc = 0 → w'.srv.pairedMid = w.srv.pairedMid) := by
  have acking : ∀ acked : EcWork × Int,
      acked = (if isCon then ecServerSendSeparateAck platform env.ack w else (w, 0)) →
      acked.1.Cached platform mid peer ∧ (acked.2 ≠ 0 → acked.1.Unanswered platform mid peer) ∧
        acked.1.srv.pairedMid = w.srv.pairedMid ∧ acked.1.core = w.core := by
    intro acked same
    subst same
    split
    · obtain ⟨cached, failing⟩ := ecServerSendSeparateAck_caches env.ack unanswered
      exact ⟨cached, failing, ecServerSendSeparateAck_pairedMid env.ack w,
        ecServerSendSeparateAck_core platform env.ack w⟩
    · exact ⟨Or.inl unanswered.silent, fun nonzero => absurd rfl nonzero, rfl, rfl⟩
  unfold ecServerWait at finished
  rw [if_pos unanswered.state] at finished
  generalize outcome : (if isCon then ecServerSendSeparateAck platform env.ack w else (w, 0)) = acked at finished
  obtain ⟨cached, failing, paired, core⟩ := acking acked outcome.symm
  dsimp only at finished
  split at finished
  · rename_i failed
    cases finished
    exact ⟨cached, fun _ => failing failed, fun zero => absurd zero (by decide)⟩
  · have absent : (ecServerAdd acked.1).srv.resched.evti = false :=
      (congrArg (fun core => core.resched.evti) core).trans unanswered.unscheduled
    have waiting : ∀ (resched : EcTimer) (moved : EcWork), ecServerSetState
        {ecServerAdd acked.1 with srv := {(ecServerAdd acked.1).srv with resched := resched}} .ackSent = .ok moved →
        moved.Cached platform mid peer ∧ moved.srv.pairedMid = w.srv.pairedMid := by
      intro resched moved entered
      have state : (ecServerAdd acked.1).srv.state = .reqOk := (congrArg ServerCore.state core).trans unanswered.state
      have added : EcWork.Cached platform mid peer
          {ecServerAdd acked.1 with srv := {(ecServerAdd acked.1).srv with resched := resched}} := cached
      refine ⟨ecServerSetState_caches added entered, ?_⟩
      rw [ecServerSetState_stay _ .ackSent (by rw [state]; rfl) rfl (by decide)] at entered
      cases entered
      exact paired
    cases proxied : (ecServerAdd acked.1).srv.flow.proxyUri with
    | true =>
        rw [proxied, if_pos rfl, if_neg (by simp)] at finished
        obtain ⟨moved, entered, same⟩ := map_ok finished
        cases same
        obtain ⟨kept, unpaired⟩ := waiting (ecServerAdd acked.1).srv.resched w' entered
        exact ⟨kept, fun nonzero => absurd rfl nonzero, fun _ => unpaired⟩
    | false =>
        rw [proxied, if_neg Bool.false_ne_true, ecServerRescheduleUserfn_fresh env.run.tv _ absent,
          if_neg (by simp)] at finished
        obtain ⟨moved, entered, same⟩ := map_ok finished
        cases same
        obtain ⟨kept, unpaired⟩ := waiting _ w' entered
        exact ⟨kept, fun nonzero => absurd rfl nonzero, fun _ => unpaired⟩

/-- A callback's outcome is cached, and a server that outlives it has a response that answers nothing yet. -/
theorem ecServerUserfn_caches {env : HandlerEnv} {w w' : EcWork} {rc : Int}
    (unanswered : w.Unanswered platform mid peer) (unpaired : w.srv.pairedMid = none)
    (finished : ecServerUserfn platform env w = .ok (w', rc)) :
    w'.Cached platform mid peer ∧ (rc ≠ 0 → w'.Unanswered platform mid peer) ∧
      (rc = 0 → w'.srv.freed = true ∨ w'.srv.pairedMid = none) := by
  unfold ecServerUserfn at finished
  split at finished
  · cases finished
    exact ⟨Or.inl unanswered.silent, fun _ => unanswered, fun zero => absurd zero (by decide)⟩
  · have counted : EcWork.Unanswered platform mid peer {w with invoked := w.invoked + 1} :=
      ⟨unanswered.state, unanswered.silent, unanswered.request, unanswered.conn, unanswered.unscheduled,
        unanswered.recorded⟩
    have recaches := applyCalls_recaches platform env.run.calls {w with invoked := w.invoked + 1}
    have paired := applyCalls_pairedMid platform env.run.calls {w with invoked := w.invoked + 1}
    have core := applyCalls_core platform env.run.calls {w with invoked := w.invoked + 1}
    obtain ⟨⟨code, res, frame⟩, _, _⟩ := applyCalls_called platform env.run.calls {w with invoked := w.invoked + 1}
    have called := counted.silent_step recaches (by rw [frame]; exact unanswered.silent)
      (congrArg ServerCore.resched core)
    dsimp only at finished
    generalize applyCalls platform env.run.calls {w with invoked := w.invoked + 1} = after at called paired finished
    have still : after.srv.pairedMid = none := paired.trans unpaired
    split at finished
    · obtain ⟨cached, failing, freed⟩ := ecServerReady_caches called finished
      exact ⟨cached, failing, fun zero => Or.inl (freed zero)⟩
    · obtain ⟨cached, failing, kept⟩ := ecServerWait_caches called finished
      exact ⟨cached, failing, fun zero => Or.inr ((kept zero).trans still)⟩
    · cases finished
      exact ⟨Or.inl called.silent, fun _ => called, fun zero => absurd zero (by decide)⟩
    · cases finished
      exact ⟨Or.inl called.silent, fun _ => called, fun zero => absurd zero (by decide)⟩

/-- The first reply to a dispatched request is cached in its record. -/
theorem ecServerDispatch_caches {resources : List (List UInt8)} {fb : Bool} {env : HandlerEnv} {w w' : EcWork}
    {rc : EcNetCbrc} (unanswered : w.Unanswered platform mid peer) (unpaired : w.srv.pairedMid = none)
    (finished : ecServerDispatch platform resources fb env w = .ok (w', rc)) :
    w'.Cached platform mid peer ∧ (w'.srv.freed = true ∨ w'.srv.pairedMid = none) := by
  unfold ecServerDispatch at finished
  split at finished
  · split at finished
    · cases finished
    · rename_i run code ran
      obtain ⟨cached, failing, outcome⟩ := ecServerUserfn_caches unanswered unpaired ran
      split at finished
      · rename_i nonzero
        obtain ⟨failed, ended, same⟩ := map_ok finished
        cases same
        exact ⟨ecServerFail_caches (failing nonzero) ended, Or.inl (ecServerFail_logs ended).1⟩
      · rename_i zero
        cases finished
        exact ⟨cached, outcome (by simpa using zero)⟩
  · obtain ⟨ended, moved, same⟩ := map_ok finished
    cases same
    have state : (ecServerReply platform env.reply ecNotFound w).1.srv.state = .reqOk :=
      (congrArg ServerCore.state (ecServerReply_core platform env.reply ecNotFound w)).trans unanswered.state
    refine ⟨ecServerSetState_caches (ecServerReply_caches env.reply ecNotFound unanswered) moved, Or.inl ?_⟩
    rw [ecServerSetState_final _ .respDone (by rw [state]; rfl) rfl] at moved
    cases moved
    rfl

/-- A server without a response sends no reply. -/
theorem ecServerReply_mute (env : SendEnv) (rc : EcRc) {w : EcWork} (absent : w.srv.res = none) :
    (ecServerReply platform env rc w).1.srv.sent = w.srv.sent := by
  unfold ecServerReply
  split
  · rfl
  · dsimp only
    split
    · rfl
    · unfold ecServerSendResp
      dsimp only
      rw [absent]

theorem ecServerFail_mute {env : SendEnv} {rc : EcRc} {w failed : EcWork} (absent : w.srv.res = none)
    (finished : ecServerFail platform env rc w = .ok failed) : failed.srv.sent = w.srv.sent :=
  (ecServerSetState_sent finished).trans (ecServerReply_mute env _ absent)

/-- The first reply to a request is cached in its record, whatever comes of the request. -/
theorem ecServerProcess_caches {resources : List (List UInt8)} {fb : Bool} {h : EcHdr} {input : ServerInput}
    {w w' : EcWork} {rc : EcNetCbrc} (created : w.srv = ecServerNew)
    (recorded : ∃ recvd, w.dups (ecDupKeyNew platform h.mid input.peer) = some recvd)
    (finished : ecServerProcess platform resources fb h input w = .ok (w', rc)) :
    w'.Cached platform h.mid input.peer ∧ (w'.srv.freed = true ∨ w'.srv.pairedMid = none) := by
  rcases ecServerProcess_cases created finished with ⟨_, flow, code, failed⟩ | ⟨flow, prepares, dispatched⟩
  · exact ⟨Or.inl (ecServerFail_mute rfl failed), Or.inl (ecServerFail_logs failed).1⟩
  · have known : (ecNetSocklen flow.conn.peer).isSome →
        ∃ recvd, w.dups (ecDupKeyNew platform h.mid flow.conn.peer) = some recvd := by
      intro family
      rcases prepares.peer with same | ⟨_, zero⟩
      · exact same ▸ recorded
      · rw [zero] at family
        cases family
    have unanswered : (w.accepting h input flow).Unanswered platform h.mid flow.conn.peer :=
      ⟨rfl, rfl, rfl, rfl, rfl, known⟩
    obtain ⟨cached, outcome⟩ := ecServerDispatch_caches unanswered rfl dispatched
    refine ⟨?_, outcome⟩
    rcases prepares.peer with same | ⟨_, zero⟩
    · rw [← same]
      exact cached
    · rcases cached with silent | ⟨s, recvd, _, family, _⟩
      · exact Or.inl silent
      · rw [zero] at family
        cases family

end Replies

end Webthings.Evcoap
