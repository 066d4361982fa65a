import Webthings.Evcoap.FirstReplies
import Webthings.Evcoap.Reencode

namespace Webthings.Evcoap
open Webthings.Transition

/-- Something can be sent over a connection. -/
def EcConn.Reachable (conn : EcConn) : Prop := conn.socket ≠ -1 ∧ (ecNetSocklen conn.peer).isSome

/-- The response of a server finds room for its options and the token of the request. -/
def EcServer.Fits (srv : EcServer) : Prop := ∃ res, srv.res = some res ∧ res.opts.Encodes srv.flow.token

/-- A datagram over this connection with this response code. -/
structure Sent.Carries (s : Sent) (conn : EcConn) (code : EcRc) : Prop where
  sd : s.datagram.sd = conn.socket
  peer : s.datagram.peer = conn.peer
  code : s.datagram.hdr.getD 1 0 = rcByte code

/-- A server that owes the answer to a request and has sent nothing: its response belongs to that request or to none. -/
structure EcServer.Owing (mid : UInt16) (conn : EcConn) (token : List UInt8) (srv : EcServer) : Prop where
  state : srv.state = .reqOk
  silent : srv.sent = []
  request : ∃ req, srv.req = some req ∧ req.hdrBits.mid = mid
  conn : srv.flow.conn = conn
  token : srv.flow.token = token
  response : ∃ res, srv.res = some res ∧ (res.sibling = none ∨ res.sibling = some mid)
  unacked : srv.octrl = none
  unscheduled : srv.resched.evti = false

section Responses

variable {mid : UInt16} {conn : EcConn} {token : List UInt8} {isCon : Bool}

/-- The code byte of a response that was encoded is the code of its flow, in whichever message it goes out. -/
theorem EcServer.encodedResp_code (order : ByteOrder) (env : SendEnv) {srv : EcServer} {res : EcPdu}
    (responds : srv.Responds res isCon env.sent) :
    (srv.encodedResp order env isCon res).hdr.getD 1 0 = rcByte srv.flow.respCode := by
  by_cases separate : srv.flow.isSep = true ∨ srv.state = .ackSent ∨ isCon = false
  · obtain ⟨_, _, _, hdr⟩ := srv.encodedResp_parts order env isCon res responds separate
    rw [hdr]
    rfl
  · obtain ⟨unseparated, state, con⟩ : srv.flow.isSep = false ∧ srv.state ≠ .ackSent ∧ isCon = true := by
      simpa using separate
    have encoded := (ecServerEncodeResp_ok_iff order env srv isCon res responds.code responds.model responds.pairs).mpr
      responds.encodes
    obtain ⟨sibling, same⟩ := ecServerPairResp_frame srv res
    unfold encodedResp
    unfold ecServerEncodeResp at encoded ⊢
    rw [if_pos ⟨con, unseparated, state⟩] at encoded ⊢
    unfold ecPduEncodeResponsePiggyback at encoded ⊢
    rw [if_neg (by simpa using responds.code)] at encoded ⊢
    split
    · rename_i absent
      rw [absent] at encoded
      cases encoded
    · rw [encodeResponse_fits order srv.flow _ .ack _ (by decide) responds.code (by rw [same]; exact responds.encodes)]
      rfl

/-- A server that owes an answer can respond when its code is one and its options find room. -/
theorem EcServer.Owing.responds {srv : EcServer} (owing : srv.Owing mid conn token)
    (model : conn.isConfirmable = some isCon) (reachable : conn.Reachable) (code : ecIsRespCode srv.flow.respCode)
    (fits : srv.Fits) : ∃ res, srv.Responds res isCon true := by
  obtain ⟨res, held, sibling⟩ := owing.response
  obtain ⟨other, same, encodes⟩ := fits
  cases held.symm.trans same
  obtain ⟨req, request, own⟩ := owing.request
  refine ⟨res, held, fun _ => ⟨req, request, ?_⟩, code, by rw [owing.conn]; exact model, encodes, rfl, ?_, ?_⟩
  · rw [own]
    exact sibling
  · rw [owing.conn]
    exact reachable.1
  · rw [owing.conn]
    exact reachable.2

/-- A response that was sent ends the debt. -/
theorem EcServer.Owing.sends (platform : Platform) (env : SendEnv) (purpose : Purpose) {w : EcWork} {res : EcPdu}
    (owing : w.srv.Owing mid conn token) (responds : w.srv.Responds res isCon env.sent) :
    (ecServerSendResp platform env purpose w).2 = 0 ∧
      ∃ s, (ecServerSendResp platform env purpose w).1.srv.sent = [s] ∧ s.Carries conn w.srv.flow.respCode := by
  rw [ecServerSendResp_responds platform env purpose w res isCon responds]
  refine ⟨rfl, ⟨purpose, (w.srv.encodedResp platform.order env isCon res).datagram w.srv.flow.conn⟩, ?_, ?_⟩
  · change w.srv.sent ++ [_] = [_]
    rw [owing.silent]
    rfl
  · rw [owing.conn]
    exact ⟨rfl, rfl, EcServer.encodedResp_code platform.order env responds⟩

/-- The response of such a server is paired with the request. -/
theorem EcServer.Owing.pairs {srv : EcServer} {res : EcPdu} (owing : srv.Owing mid conn token)
    (sibling : res.sibling = none ∨ res.sibling = some mid) :
    ecServerPairResp srv res = ({res with sibling := some mid}, 0) := by
  obtain ⟨req, request, own⟩ := owing.request
  have free : ¬ (res.sibling ≠ none ∧ res.sibling ≠ some mid) := by
    rintro ⟨present, other⟩
    rcases sibling with absent | same
    · exact present absent
    · exact other same
  unfold ecServerPairResp ecPduSetSibling
  rw [if_pos (by rw [owing.state]; decide), request, Option.map_some, own]
  dsimp only
  rw [if_neg free]

/-- Another response to the same request leaves the debt as it is. -/
theorem EcServer.Owing.of_response {srv : EcServer} {res : EcPdu} (code : EcRc) (owing : srv.Owing mid conn token)
    (sibling : res.sibling = none ∨ res.sibling = some mid) :
    {srv with res := some res, flow := {srv.flow with respCode := code}}.Owing mid conn token :=
  ⟨owing.state, owing.silent, owing.request, owing.conn, owing.token, ⟨res, rfl, sibling⟩, owing.unacked,
    owing.unscheduled⟩

/-- A response without room has none after an encoding was tried. -/
theorem ecServerEncodeResp_stays_full (order : ByteOrder) (env : SendEnv) {srv : EcServer} {res : EcPdu}
    (paired : res.sibling = some mid) (code : ecIsRespCode srv.flow.respCode)
    (model : srv.flow.conn.isConfirmable = some isCon) (full : ¬ res.opts.Encodes srv.flow.token) :
    ¬ (ecServerEncodeResp order env srv isCon res).1.opts.Encodes srv.flow.token := by
  unfold ecServerEncodeResp
  split
  · unfold ecPduEncodeResponsePiggyback
    rw [if_neg (by simpa using code), paired]
    exact encodeResponse_stays_full order srv.flow res .ack mid (by decide) code full
  · rw [ecPduEncodeResponseSeparate_some order env srv.flow res isCon model]
    apply encodeResponse_stays_full order srv.flow _ _ _ (separateType_ne_rst isCon) code
    rw [EcPdu.drawn_opts]
    exact full

/-- A response that was not sent leaves the debt, with room for another try where there was room before. -/
theorem EcServer.Owing.fails (platform : Platform) (env : SendEnv) (purpose : Purpose) {w : EcWork}
    (owing : w.srv.Owing mid conn token) (model : conn.isConfirmable = some isCon)
    (failed : (ecServerSendResp platform env purpose w).2 ≠ 0) :
    (ecServerSendResp platform env purpose w).1.srv.Owing mid conn token ∧
      (conn.Reachable → env.sent = true →
        ((ecServerSendResp platform env purpose w).1.srv.Fits ↔ w.srv.Fits)) := by
  obtain ⟨res, held, sibling⟩ := owing.response
  have paired := owing.pairs sibling
  have alone : ∀ res', w.srv.res = some res' → res' = res := fun res' same => Option.some.inj (same.symm.trans held)
  have same : w.srv.flow.conn.isConfirmable = some isCon := by
    rw [owing.conn]
    exact model
  unfold ecServerSendResp at failed ⊢
  rw [held] at failed ⊢
  dsimp only at failed ⊢
  rw [paired] at failed ⊢
  dsimp only at failed ⊢
  rw [if_neg (by simp)] at failed ⊢
  by_cases code : ecIsRespCode w.srv.flow.respCode
  · rw [if_neg (by simpa using code), same] at failed ⊢
    dsimp only at failed ⊢
    have pairs := (ecServerPairResp_ok_iff w.srv res).mp (by rw [paired])
    have encodes := ecServerEncodeResp_ok_iff platform.order env w.srv isCon res code same pairs
    have kept := ecServerEncodeResp_sibling platform.order env w.srv isCon {res with sibling := some mid}
    rw [paired] at encodes
    dsimp only at encodes kept
    by_cases room : res.opts.Encodes w.srv.flow.token
    · -- The encoding is done, so that the send itself has failed.
      rw [if_neg (by simpa using encodes.mpr room)] at failed ⊢
      have handed := ecPduSend_datagram platform env.sent w.srv.flow
        (ecServerEncodeResp platform.order env w.srv isCon {res with sibling := some mid}).1 w.dups true
      generalize ecServerEncodeResp platform.order env w.srv isCon {res with sibling := some mid} = encoded
        at kept handed failed ⊢
      cases datagram : (ecPduSend platform env.sent w.srv.flow encoded.1 w.dups true).datagram with
      | some datagram =>
          rw [datagram] at failed
          exact absurd rfl failed
      | none =>
          have silent : EcServer.log {w.srv with res := some encoded.1} purpose none =
              {w.srv with res := some encoded.1, flow := {w.srv.flow with respCode := w.srv.flow.respCode}} := by
            unfold EcServer.log
            simp
          refine ⟨?_, fun reachable taken => ?_⟩
          · dsimp only
            rw [silent]
            exact owing.of_response w.srv.flow.respCode (Or.inr kept)
          · rw [datagram] at handed
            have sent := (ecNetSend_isSome env.sent encoded.1.hdr encoded.1.opts.wire encoded.1.payload
              w.srv.flow.conn.socket w.srv.flow.conn.peer).mpr
              ⟨by rw [owing.conn]; exact reachable.1, by rw [owing.conn]; exact reachable.2, taken⟩
            rw [← handed] at sent
            cases sent
    · have own : ({res with sibling := some mid} : EcPdu).sibling = some mid := rfl
      have stays := ecServerEncodeResp_stays_full platform.order env own code same room
      rw [if_pos (fun zero => room (encodes.mp zero))]
      refine ⟨owing.of_response w.srv.flow.respCode (Or.inr kept), fun _ _ => ⟨?_, ?_⟩⟩
      · rintro ⟨other, here, fits⟩
        cases here
        exact absurd fits stays
      · rintro ⟨other, here, fits⟩
        exact absurd (alone other here ▸ fits) room
  · rw [if_pos code]
    refine ⟨owing.of_response w.srv.flow.respCode (Or.inr rfl), fun _ _ => ⟨?_, ?_⟩⟩
    · rintro ⟨other, here, fits⟩
      cases here
      exact ⟨res, held, fits⟩
    · rintro ⟨other, here, fits⟩
      cases alone other here
      exact ⟨_, rfl, fits⟩

/-- A response that owes nothing but its send goes out exactly when it has a code and room and the peer is there. -/
theorem EcServer.Owing.sent_iff (platform : Platform) (env : SendEnv) (purpose : Purpose) {w : EcWork}
    (owing : w.srv.Owing mid conn token) (model : conn.isConfirmable = some isCon) (taken : env.sent = true) :
    (ecServerSendResp platform env purpose w).2 = 0 ↔
      ecIsRespCode w.srv.flow.respCode ∧ w.srv.Fits ∧ conn.Reachable := by
  constructor
  · intro sent
    obtain ⟨res, other, responds⟩ := ecServerSendResp_ok platform env purpose w sent
    refine ⟨responds.code, ⟨res, responds.held, responds.encodes⟩, ?_, ?_⟩
    · rw [← owing.conn]
      exact responds.socket
    · rw [← owing.conn]
      exact responds.peer
  · rintro ⟨code, fits, reachable⟩
    obtain ⟨res, responds⟩ := owing.responds model reachable code fits
    exact (owing.sends platform env purpose (by rw [taken]; exact responds)).1

/-- A server that is not pending has sent one reply with this code if there was room for it, and nothing otherwise. -/
structure EcServer.Answered (conn : EcConn) (code : EcRc) (room : Prop) (srv : EcServer) : Prop where
  final : srv.state ≠ .ackSent
  replied : room → ∃ s, srv.sent = [s] ∧ s.Carries conn code
  silent : ¬ room → srv.sent = []

/-- A reply with a response code goes out when there is room for it. -/
theorem EcServer.Owing.replies (platform : Platform) (env : SendEnv) {w : EcWork} {rc : EcRc}
    (owing : w.srv.Owing mid conn token) (model : conn.isConfirmable = some isCon) (taken : env.sent = true)
    (code : ecIsRespCode rc) :
    (ecServerReply platform env rc w).1.srv.Answered conn rc (w.srv.Fits ∧ conn.Reachable) := by
  have state : (ecServerReply platform env rc w).1.srv.state = .reqOk :=
    (congrArg ServerCore.state (ecServerReply_core platform env rc w)).trans owing.state
  have coded : {w.srv with flow := {w.srv.flow with respCode := rc}}.Owing mid conn token :=
    ⟨owing.state, owing.silent, owing.request, owing.conn, owing.token, owing.response, owing.unacked,
      owing.unscheduled⟩
  have replying : ecServerReply platform env rc w =
      ecServerSendResp platform env .reply {w with srv := {w.srv with flow := {w.srv.flow with respCode := rc}}} := by
    unfold ecServerReply ecFlowSetRespCode
    rw [if_neg (by simpa using code), if_pos code]
    dsimp only
    rw [if_neg (by simp)]
  refine ⟨by rw [state]; decide, ?_, ?_⟩
  · rintro ⟨fits, reachable⟩
    obtain ⟨res, responds⟩ := coded.responds model reachable code fits
    rw [replying]
    exact (EcServer.Owing.sends platform env .reply coded (by rw [taken]; exact responds)).2
  · intro full
    have failed : (ecServerSendResp platform env .reply
        {w with srv := {w.srv with flow := {w.srv.flow with respCode := rc}}}).2 ≠ 0 := fun sent =>
      full ((EcServer.Owing.sent_iff platform env .reply coded model taken).mp sent).2
    rw [replying]
    exact (EcServer.Owing.fails platform env .reply coded model failed).1.silent

/-- The error exit ends the transaction after its reply. -/
theorem EcServer.Owing.errs (platform : Platform) (env : SendEnv) (rc : EcRc) {w : EcWork} (owing : w.srv.Owing mid conn token)
    (model : conn.isConfirmable = some isCon) (taken : env.sent = true)
    (code : ecIsRespCode (if rc = ecRcUnset then ecInternalServerError else rc)) :
    ∃ failed, ecServerFail platform env rc w = .ok failed ∧ failed.self = w.self ∧
      failed.srv.Answered conn (if rc = ecRcUnset then ecInternalServerError else rc) (w.srv.Fits ∧ conn.Reachable) := by
  have replies := owing.replies platform env model taken code
  have self := congrArg ServerCore.self (ecServerReply_core platform env
    (if rc = ecRcUnset then ecInternalServerError else rc) w)
  unfold ecServerFail
  rw [ecServerSetState_final _ .internalErr rfl rfl]
  have other : EcSrvState.internalErr ≠ .ackSent := by decide
  exact ⟨_, rfl, self, ⟨other, replies.replied, replies.silent⟩⟩

/-- A user that is ready gets the response out, or leaves the debt to the error exit. -/
theorem EcServer.Owing.ready (platform : Platform) (env : SendEnv) {w : EcWork} (owing : w.srv.Owing mid conn token)
    (model : conn.isConfirmable = some isCon) (taken : env.sent = true) :
    ∃ w' rc, ecServerReady platform env isCon w = .ok (w', rc) ∧ w'.self = w.self ∧
      ((rc = 0 ∧ (ecIsRespCode w.srv.flow.respCode ∧ w.srv.Fits ∧ conn.Reachable) ∧
          w'.srv.Answered conn w.srv.flow.respCode True) ∨
        (rc ≠ 0 ∧ ¬ (ecIsRespCode w.srv.flow.respCode ∧ w.srv.Fits ∧ conn.Reachable) ∧
          w'.srv.Owing mid conn token ∧ (conn.Reachable → (w'.srv.Fits ↔ w.srv.Fits)))) := by
  have core := ecServerSendResp_core platform env .response w
  have state : (ecServerSendResp platform env .response w).1.srv.state = .reqOk :=
    (congrArg ServerCore.state core).trans owing.state
  have self : (ecServerSendResp platform env .response w).1.self = w.self := congrArg ServerCore.self core
  have outcome := owing.sent_iff platform env .response model taken
  unfold ecServerReady
  rw [if_pos (Or.inr owing.state)]
  dsimp only
  by_cases sent : (ecServerSendResp platform env .response w).2 = 0
  · have goes := outcome.mp sent
    obtain ⟨res, responds⟩ := owing.responds model goes.2.2 goes.1 goes.2.1
    obtain ⟨s, log, carries⟩ := (owing.sends platform env .response (by rw [taken]; exact responds)).2
    rw [if_neg (by simp [sent]), if_neg (by simp [state]), ecServerSetState_final _ .respDone (by rw [state]; rfl) rfl]
    have other : EcSrvState.respDone ≠ .ackSent := by decide
    exact ⟨_, _, rfl, self, Or.inl ⟨rfl, goes, ⟨other, fun _ => ⟨s, log, carries⟩, fun never => absurd trivial never⟩⟩⟩
  · obtain ⟨still, room⟩ := owing.fails platform env .response model sent
    rw [if_pos sent]
    exact ⟨_, _, rfl, self, Or.inr ⟨by decide, fun goes => sent (outcome.mpr goes), still, fun there => room there taken⟩⟩

/-- The separate ACK of a request goes out when its peer is there, and changes nothing otherwise. -/
theorem EcServer.Owing.acks (platform : Platform) {w : EcWork} (owing : w.srv.Owing mid conn token) :
    (conn.Reachable → (ecServerSendSeparateAck platform true w).2 = 0) ∧
      (¬ conn.Reachable → (ecServerSendSeparateAck platform true w).2 ≠ 0 ∧
        (ecServerSendSeparateAck platform true w).1.srv = w.srv) := by
  obtain ⟨req, request, own⟩ := owing.request
  have taken := ecNetSend_isSome true (separateAck platform.order mid).hdr (separateAck platform.order mid).opts.wire
    (separateAck platform.order mid).payload conn.socket conn.peer
  have handed := ecPduSend_datagram platform true w.srv.flow (separateAck platform.order mid) w.dups true
  have paired : ecPduSetSibling ecPduNewEmpty (some mid) = ({ecPduNewEmpty with sibling := some mid}, 0) := rfl
  have encoded : ecPduEncodeResponseAck platform.order w.srv.flow {ecPduNewEmpty with sibling := some mid} =
      (separateAck platform.order mid, 0) := rfl
  rw [owing.conn] at handed
  unfold ecServerSendSeparateAck
  rw [if_neg (by simp [owing.state]), if_neg (by simp [owing.unacked]), request, Option.map_some, own, paired]
  dsimp only
  rw [if_neg (by decide), encoded]
  dsimp only
  rw [if_neg (by decide)]
  generalize ecPduSend platform true w.srv.flow (separateAck platform.order mid) w.dups true = ack at handed ⊢
  obtain ⟨dups, datagram⟩ := ack
  dsimp only at handed
  rw [← handed] at taken
  cases datagram with
  | none => exact ⟨fun there => absurd (taken.mpr ⟨there.1, there.2, rfl⟩) (by simp), fun _ => ⟨by simp, rfl⟩⟩
  | some datagram =>
      have there := taken.mp rfl
      exact ⟨fun _ => rfl, fun gone => absurd ⟨there.1, there.2.1⟩ gone⟩

/-- The first reschedule of a server on the list sets its timer at most, whether or not the URL is a proxy's. -/
theorem ecServerAdd_rescheduled (tv : TimeVal) {acked : EcWork} (absent : acked.srv.resched.evti = false) :
    ∃ resched, (if (ecServerAdd acked).srv.flow.proxyUri then (ecServerAdd acked, (0 : Int)) else
      ecServerRescheduleUserfn tv (ecServerAdd acked)) =
      ({ecServerAdd acked with srv := {(ecServerAdd acked).srv with resched := resched}}, 0) := by
  split
  · exact ⟨acked.srv.resched, rfl⟩
  · exact ⟨_, ecServerRescheduleUserfn_fresh tv (ecServerAdd acked) absent⟩

/-- A user that has to wait leaves the server pending once a confirmable request has got its ACK. -/
theorem EcServer.Owing.waits (platform : Platform) (env : HandlerEnv) (isCon : Bool) {w : EcWork}
    (owing : w.srv.Owing mid conn token) (taken : env.ack = true) :
    ∃ w' rc, ecServerWait platform env isCon w = .ok (w', rc) ∧ w'.self = w.self ∧
      ((rc = 0 ∧ (isCon = true → conn.Reachable) ∧ w'.srv.state = .ackSent ∧ w'.self ∈ w'.servers) ∨
        (rc ≠ 0 ∧ ¬ (isCon = true → conn.Reachable) ∧ w'.srv = w.srv)) := by
  have acking : ∀ acked : EcWork × Int,
      acked = (if isCon then ecServerSendSeparateAck platform env.ack w else (w, 0)) → acked.1.core = w.core ∧
      ((isCon = true → conn.Reachable) → acked.2 = 0) ∧
      (¬ (isCon = true → conn.Reachable) → acked.2 ≠ 0 ∧ acked.1.srv = w.srv) := by
    intro acked same
    subst same
    obtain ⟨goes, stays⟩ := owing.acks platform
    rw [taken]
    cases isCon with
    | true =>
        refine ⟨ecServerSendSeparateAck_core platform true w, fun there => goes (there rfl), fun gone => stays ?_⟩
        exact fun there => gone fun _ => there
    | false => exact ⟨rfl, fun _ => rfl, fun gone => absurd (fun con => absurd con Bool.false_ne_true) gone⟩
  unfold ecServerWait
  rw [if_pos owing.state]
  generalize outcome : (if isCon then ecServerSendSeparateAck platform env.ack w else (w, 0)) = acked
  obtain ⟨core, goes, stays⟩ := acking acked outcome.symm
  have self : acked.1.self = w.self := congrArg ServerCore.self core
  have state : acked.1.srv.state = .reqOk := (congrArg ServerCore.state core).trans owing.state
  have absent : acked.1.srv.resched.evti = false :=
    (congrArg (fun core => core.resched.evti) core).trans owing.unscheduled
  dsimp only
  by_cases there : isCon = true → conn.Reachable
  · obtain ⟨resched, added⟩ := ecServerAdd_rescheduled env.run.tv absent
    rw [if_neg (by simp [goes there]), added, if_neg (by simp),
      ecServerSetState_stay _ .ackSent (by change ecServerCheckTransition acked.1.srv.state .ackSent = true; rw [state]; rfl)
        rfl (by decide)]
    have listed : acked.1.self ∈ acked.1.servers ++ [acked.1.self] := List.mem_append_right _ List.mem_cons_self
    exact ⟨_, _, rfl, self, Or.inl ⟨rfl, there, rfl, listed⟩⟩
  · obtain ⟨failed, same⟩ := stays there
    rw [if_pos failed]
    exact ⟨_, _, rfl, self, Or.inr ⟨by decide, there, same⟩⟩

/-- The server as it is when the callback of a request has made its calls. -/
def EcWork.called (platform : Platform) (env : HandlerEnv) (w : EcWork) : EcServer :=
  (applyCalls platform env.run.calls {w with invoked := w.invoked + 1}).srv

/-- The calls of a user leave the debt as it is. -/
theorem EcServer.Owing.called (platform : Platform) (env : HandlerEnv) {w : EcWork}
    (owing : w.srv.Owing mid conn token) : (w.called platform env).Owing mid conn token := by
  have call := applyCalls_called platform env.run.calls {w with invoked := w.invoked + 1}
  have paired := applyCalls_pairedMid platform env.run.calls {w with invoked := w.invoked + 1}
  change w.srv.Called (w.called platform env) at call
  change (w.called platform env).pairedMid = w.srv.pairedMid at paired
  obtain ⟨⟨code, response, same⟩, bits, _⟩ := call
  obtain ⟨res, held, sibling⟩ := owing.response
  rw [held] at bits
  obtain ⟨res', held', _⟩ := Option.map_eq_some_iff.mp bits
  have siblings : res'.sibling = res.sibling := by
    unfold EcServer.pairedMid at paired
    rw [held, held'] at paired
    exact paired
  refine ⟨?_, ?_, ?_, ?_, ?_, ⟨res', held', siblings ▸ sibling⟩, ?_, ?_⟩
  all_goals rw [same]
  · exact owing.state
  · exact owing.silent
  · exact owing.request
  · exact owing.conn
  · exact owing.token
  · exact owing.unacked
  · exact owing.unscheduled

/-- The user is ready with a response that has a code and room. -/
structure EcWork.UserReplies (platform : Platform) (env : HandlerEnv) (w : EcWork) : Prop where
  ready : env.run.ret = .ready
  code : ecIsRespCode (w.called platform env).flow.respCode
  fits : (w.called platform env).Fits

/-- A callback leaves its server pending, has it answered, or leaves the debt to the error exit. -/
theorem EcServer.Owing.runs (platform : Platform) (env : HandlerEnv) {w : EcWork} (owing : w.srv.Owing mid conn token)
    (model : conn.isConfirmable = some isCon) (ack : env.ack = true) (response : env.response.sent = true) :
    ∃ run rc, ecServerUserfn platform env w = .ok (run, rc) ∧ run.self = w.self ∧
      ((rc = 0 ∧ env.run.ret = .wait ∧ (isCon = true → conn.Reachable) ∧ run.srv.state = .ackSent ∧
          run.self ∈ run.servers) ∨
        (rc = 0 ∧ w.UserReplies platform env ∧ conn.Reachable ∧
          run.srv.Answered conn (w.called platform env).flow.respCode True) ∨
        (rc ≠ 0 ∧ ¬ (env.run.ret = .wait ∧ (isCon = true → conn.Reachable)) ∧
          (conn.Reachable → ¬ w.UserReplies platform env) ∧ run.srv.Owing mid conn token ∧
          (conn.Reachable → (run.srv.Fits ↔ (w.called platform env).Fits)))) := by
  have called := owing.called platform env
  have self : (applyCalls platform env.run.calls {w with invoked := w.invoked + 1}).self = w.self :=
    congrArg ServerCore.self (applyCalls_core platform env.run.calls {w with invoked := w.invoked + 1})
  have parts : w.UserReplies platform env ↔ env.run.ret = .ready ∧
      ecIsRespCode (w.called platform env).flow.respCode ∧ (w.called platform env).Fits :=
    ⟨fun replies => ⟨replies.ready, replies.code, replies.fits⟩, fun ⟨ready, code, fits⟩ => ⟨ready, code, fits⟩⟩
  rw [parts]
  unfold EcWork.called at called ⊢
  unfold ecServerUserfn
  rw [owing.conn, model]
  dsimp only
  generalize applyCalls platform env.run.calls {w with invoked := w.invoked + 1} = after at called self ⊢
  cases ret : env.run.ret with
  | ready =>
      obtain ⟨w', rc, finished, same, ⟨zero, goes, answered⟩ | ⟨failed, stays, still, room⟩⟩ :=
        called.ready platform env.response model response
      · exact ⟨w', rc, finished, same.trans self,
          Or.inr (Or.inl ⟨zero, ⟨rfl, goes.1, goes.2.1⟩, goes.2.2, answered⟩)⟩
      · exact ⟨w', rc, finished, same.trans self, Or.inr (Or.inr ⟨failed, fun ⟨wait, _⟩ => absurd wait (by decide),
          fun there ⟨_, code, fits⟩ => stays ⟨code, fits, there⟩, still, room⟩)⟩
  | wait =>
      obtain ⟨w', rc, finished, same, ⟨zero, there, state, listed⟩ | ⟨failed, gone, still⟩⟩ :=
        called.waits platform env isCon ack
      · exact ⟨w', rc, finished, same.trans self, Or.inl ⟨zero, rfl, there, state, listed⟩⟩
      · exact ⟨w', rc, finished, same.trans self, Or.inr (Or.inr ⟨failed, fun ⟨_, there⟩ => gone there,
          fun _ ⟨ready, _⟩ => absurd ready (by decide), still ▸ called, fun _ => still ▸ Iff.rfl⟩)⟩
  | poll =>
      exact ⟨after, -1, rfl, self, Or.inr (Or.inr ⟨by decide, fun ⟨wait, _⟩ => absurd wait (by decide),
        fun _ ⟨ready, _⟩ => absurd ready (by decide), called, fun _ => Iff.rfl⟩)⟩
  | error =>
      exact ⟨after, -1, rfl, self, Or.inr (Or.inr ⟨by decide, fun ⟨wait, _⟩ => absurd wait (by decide),
        fun _ ⟨ready, _⟩ => absurd ready (by decide), called, fun _ => Iff.rfl⟩)⟩

/-- The code that a request gets in answer which is not left pending: the user's, the one of an error, or the one of a
missing resource. -/
inductive EcWork.Owes (platform : Platform) (serves : Prop) (env : HandlerEnv) (w : EcWork) : EcRc → Prop where
  | user (served : serves) (replies : w.UserReplies platform env) :
      w.Owes platform serves env (w.called platform env).flow.respCode
  | error (served : serves) (silent : ¬ w.UserReplies platform env) : w.Owes platform serves env ecInternalServerError
  | missing (unserved : ¬ serves) : w.Owes platform serves env ecNotFound

/-- A dispatched request leaves its server pending, or gets the answer that it is owed if there is room for it. -/
theorem EcServer.Owing.dispatched (platform : Platform) (resources : List (List UInt8)) (fb : Bool) (env : HandlerEnv)
    {w : EcWork} (owing : w.srv.Owing mid conn token) (model : conn.isConfirmable = some isCon) (fits : w.srv.Fits)
    (ack : env.ack = true) (response : env.response.sent = true) (reply : env.reply.sent = true) (serves : Prop)
    (served : (resources.any (fun path => asciiStrcaseEqual path w.srv.flow.urlstr) ∨ fb = true) ↔ serves) :
    ∃ w' rc, ecServerDispatch platform resources fb env w = .ok (w', rc) ∧ w'.self = w.self ∧
      ((serves ∧ env.run.ret = .wait ∧ (isCon = true → conn.Reachable) ∧ w'.srv.state = .ackSent ∧
          w'.self ∈ w'.servers) ∨
        (¬ (serves ∧ env.run.ret = .wait ∧ (isCon = true → conn.Reachable)) ∧ ∃ code, w.Owes platform serves env code ∧
          w'.srv.Answered conn code ((serves → (w.called platform env).Fits) ∧ conn.Reachable))) := by
  unfold ecServerDispatch
  by_cases serving : serves
  · rw [if_pos (served.mpr serving)]
    obtain ⟨run, rc, ran, self, ⟨zero, wait, there, state, listed⟩ | ⟨zero, replies, there, answered⟩ |
      ⟨nonzero, busy, silent, still, room⟩⟩ := owing.runs platform env model ack response
    · rw [ran]
      dsimp only
      rw [if_neg (by simp [zero])]
      exact ⟨run, _, rfl, self, Or.inl ⟨serving, wait, there, state, listed⟩⟩
    · rw [ran]
      dsimp only
      rw [if_neg (by simp [zero])]
      refine ⟨run, _, rfl, self, Or.inr ⟨fun ⟨_, wait, _⟩ => absurd (replies.ready.symm.trans wait) (by decide),
        _, .user serving replies, answered.final, fun _ => answered.replied trivial, fun full => ?_⟩⟩
      exact absurd ⟨fun _ => replies.fits, there⟩ full
    · obtain ⟨failed, ended, same, answered⟩ := still.errs platform env.reply ecRcUnset model reply (by decide)
      rw [ran]
      dsimp only
      rw [if_pos nonzero, ended]
      refine ⟨failed, _, rfl, same.trans self, Or.inr ⟨fun ⟨_, wait⟩ => busy wait, ?_⟩⟩
      by_cases replies : w.UserReplies platform env
      · refine ⟨_, .user serving replies, answered.final, fun there => absurd replies (silent there.2), fun _ => ?_⟩
        exact answered.silent fun there => silent there.2 replies
      · refine ⟨_, .error serving replies, answered.final, fun there => ?_, fun full => ?_⟩
        · exact answered.replied ⟨(room there.2).mpr (there.1 serving), there.2⟩
        · exact answered.silent fun there => full ⟨fun _ => (room there.2).mp there.1, there.2⟩
  · have state : (ecServerReply platform env.reply ecNotFound w).1.srv.state = .reqOk :=
      (congrArg ServerCore.state (ecServerReply_core platform env.reply ecNotFound w)).trans owing.state
    have self : (ecServerReply platform env.reply ecNotFound w).1.self = w.self :=
      congrArg ServerCore.self (ecServerReply_core platform env.reply ecNotFound w)
    have answered : (ecServerReply platform env.reply ecNotFound w).1.srv.Answered conn ecNotFound
        (w.srv.Fits ∧ conn.Reachable) := owing.replies platform env.reply model reply (by decide)
    have other : EcSrvState.respDone ≠ .ackSent := by decide
    rw [if_neg fun serving' => serving (served.mp serving'),
      ecServerSetState_final _ .respDone (by rw [state]; rfl) rfl]
    refine ⟨_, _, rfl, self, Or.inr ⟨fun ⟨serving', _⟩ => serving serving', ecNotFound, .missing serving, other, ?_, ?_⟩⟩
    · exact fun there => answered.replied ⟨fits, there.2⟩
    · exact fun full => answered.silent fun there => full ⟨fun serving' => absurd serving' serving, there.2⟩

end Responses

/-- A callback of a base is there for the URL of a flow. -/
def EcBase.Serves (b : EcBase) (flow : EcFlow) : Prop :=
  b.resources.any (fun path => asciiStrcaseEqual path flow.urlstr) ∨ b.fb = true

/-- The server of a new request as it is dispatched. -/
def EcBase.dispatching (platform : Platform) (b : EcBase) (h : EcHdr) (input : ServerInput) (flow : EcFlow) : EcWork :=
  ((b.seen platform input h).work b.nextSrv ecServerNew).accepting h input flow

/-- A reply with this code was sent to the peer of a request. -/
def EcServer.Replied (srv : EcServer) (input : ServerInput) (code : EcRc) : Prop :=
  ∃ s ∈ srv.sent, s.datagram.sd = input.sd ∧ s.datagram.peer = input.peer ∧ s.datagram.hdr.getD 1 0 = rcByte code

/-- The codes that the error paths of the handler select once it has created a server. -/
inductive EcBase.Selects (platform : Platform) (b : EcBase) (h : EcHdr) (input : ServerInput) : EcRc → Prop where
  | unsaved (failed : (ecServerSaveConn platform EcConn.zero input.sd input.peer).2 ≠ 0) :
      b.Selects platform h input ecInternalServerError
  | undecoded (saved : (ecServerSaveConn platform EcConn.zero input.sd input.peer).2 = 0)
      (failed : (ecServerBody input.raw input.beyond).decoded.rc ≠ ecRcUnset) :
      b.Selects platform h input (ecServerBody input.raw input.beyond).decoded.rc
  | unrequested (saved : (ecServerSaveConn platform EcConn.zero input.sd input.peer).2 = 0)
      (decoded : (ecServerBody input.raw input.beyond).decoded.rc = ecRcUnset) (flow : EcFlow) (rc : Int)
      (request : ecServerSaveRequest platform {EcFlow.zero with conn := requestConn platform h input} h.code.toNat
        (ecServerBody input.raw input.beyond).decoded.opts = some (flow, rc)) (failed : rc ≠ 0) :
      b.Selects platform h input ecInternalServerError
  | uncalled (flow : EcFlow) (prepares : input.Prepares platform h flow) (served : b.Serves flow)
      (refused : input.env.run.ret ≠ .wait)
      (silent : ¬ (b.dispatching platform h input flow).UserReplies platform input.env) :
      b.Selects platform h input ecInternalServerError
  | missing (flow : EcFlow) (prepares : input.Prepares platform h flow) (unserved : ¬ b.Serves flow) :
      b.Selects platform h input ecNotFound

/-- After the handling of a request its peer has got a reply with a response code, or its server is pending; where an
error path has selected a code, the peer has got that one. -/
structure EcBase.Answers (platform : Platform) (b b' : EcBase) (h : EcHdr) (input : ServerInput) : Prop where
  answered : ∃ srv, b'.heap b.nextSrv = some srv ∧
    ((∃ code, ecIsRespCode code ∧ srv.Replied input code) ∨ b.nextSrv ∈ b'.servers ∧ srv.state = .ackSent)
  selected : ∀ code, b.Selects platform h input code →
    ∃ srv, b'.heap b.nextSrv = some srv ∧ srv.Replied input code

/-- The requests that are answered: all of the request can be saved before there is a response to send, and either the
user waits, or the response has room for what the user has put into it and for the token. -/
def EcBase.Answerable (platform : Platform) (b : EcBase) (h : EcHdr) (input : ServerInput) : Prop :=
  ∃ flow, input.Prepares platform h flow ∧
    ((b.Serves flow ∧ input.env.run.ret = .wait ∧ (h.t = .con → input.sd ≠ 0)) ∨
      (¬ (b.Serves flow ∧ input.env.run.ret = .wait) ∧ input.sd ≠ 0 ∧
        (b.Serves flow → ((b.dispatching platform h input flow).called platform input.env).Fits)))

section Requests

variable {platform : Platform} {b : EcBase} {h : EcHdr} {input : ServerInput} {flow : EcFlow}

/-- A request has one flow. -/
theorem ServerInput.Prepares.unique {other : EcFlow} (prepares : input.Prepares platform h flow)
    (again : input.Prepares platform h other) : other = flow := by
  have same := again.request.symm.trans prepares.request
  cases same
  rfl

/-- The token of a flow fits its array. -/
theorem ServerInput.Prepares.short (prepares : input.Prepares platform h flow) : flow.token.length ≤ ecFlowTokenMax := by
  have request := prepares.request
  unfold ecServerSaveRequest at request
  dsimp only at request
  split at request
  · cases request
  · obtain ⟨tokened, token, url⟩ := Option.map_eq_some_iff.mp request
    unfold ecFlowSaveToken at token
    split at token
    · rename_i short
      cases token
      unfold ecFlowSaveUrl at url
      split at url
      · cases url
      · cases url
        exact short
    · cases token

/-- The flow of a request leads back to its peer, unless the request came in by the descriptor of zeroed memory. -/
theorem ServerInput.Prepares.leads (prepares : input.Prepares platform h flow) (socket : input.sd ≠ -1) :
    (flow.conn.Reachable ↔ input.sd ≠ 0) ∧
      (input.sd ≠ 0 → flow.conn.socket = input.sd ∧ flow.conn.peer = input.peer) ∧
      flow.conn.isConfirmable = some (h.t == .con) := by
  have saved := prepares.saved
  have zero : EcConn.zero.socket = 0 := rfl
  rw [prepares.conn]
  unfold requestConn
  unfold ecServerSaveConn at saved ⊢
  by_cases other : EcConn.zero.socket ≠ input.sd
  · rw [if_pos other] at saved ⊢
    have nonzero : input.sd ≠ 0 := fun same => other (zero.trans same.symm)
    cases named : platform.getsockname input.sd with
    | none =>
        unfold ecConnSaveUs at saved
        rw [if_neg socket, named] at saved
        cases saved
    | some us =>
        have bound : ecConnSaveUs platform EcConn.zero input.sd = ({EcConn.zero with us := us, socket := input.sd}, 0) := by
          unfold ecConnSaveUs
          rw [if_neg socket, named]
        rw [bound] at saved ⊢
        dsimp only at saved ⊢
        rw [if_neg (by simp)] at saved ⊢
        unfold ecConnSavePeer at saved ⊢
        cases known : ecNetSocklen input.peer with
        | none =>
            rw [known] at saved
            cases saved
        | some length =>
            refine ⟨⟨fun _ => nonzero, fun _ => ⟨socket, ?_⟩⟩, fun _ => ⟨rfl, rfl⟩, rfl⟩
            change (ecNetSocklen input.peer).isSome = true
            rw [known]
            rfl
  · rw [if_neg other]
    have same : input.sd = 0 := (not_not.mp other).symm
    refine ⟨⟨fun there => ?_, fun nonzero => absurd same nonzero⟩, fun nonzero => absurd same nonzero, rfl⟩
    have unknown : (ecNetSocklen SockAddr.zero).isSome = true := there.2
    exact absurd unknown (by decide)

/-- The server of a request that is dispatched owes its answer, and an answer without options has room. -/
theorem ServerInput.Prepares.owing (prepares : input.Prepares platform h flow) :
    (b.dispatching platform h input flow).srv.Owing h.mid flow.conn flow.token ∧
      (b.dispatching platform h input flow).srv.Fits :=
  ⟨⟨rfl, rfl, ⟨_, rfl, rfl⟩, rfl, rfl, ⟨_, rfl, Or.inl rfl⟩, rfl, rfl⟩,
    ⟨_, rfl, ecOptsInit_encodes prepares.short⟩⟩

/-- A dispatched request selects no other code than the one that it is owed. -/
theorem EcBase.Selects.owed {code owed : EcRc} (prepares : input.Prepares platform h flow)
    (owes : (b.dispatching platform h input flow).Owes platform (b.Serves flow) input.env owed)
    (selects : b.Selects platform h input code) : code = owed := by
  cases selects with
  | unsaved failed => exact absurd prepares.saved failed
  | undecoded saved failed => exact absurd prepares.decoded failed
  | unrequested saved decoded other rc request failed =>
      cases request.symm.trans prepares.request
      exact absurd rfl failed
  | uncalled other again served refused silent =>
      cases prepares.unique again
      cases owes with
      | user _ replies => exact absurd replies silent
      | error _ _ => rfl
      | missing unserved => exact absurd served unserved
  | missing other again unserved =>
      cases prepares.unique again
      cases owes with
      | user served _ => exact absurd served unserved
      | error served _ => exact absurd served unserved
      | missing _ => rfl

theorem EcWork.Owes.code {serves : Prop} {env : HandlerEnv} {w : EcWork} {code : EcRc}
    (owes : w.Owes platform serves env code) : ecIsRespCode code := by
  cases owes with
  | user _ replies => exact replies.code
  | error _ _ => decide
  | missing _ => decide

/-- A request whose user waits selects no code. -/
theorem EcBase.Selects.waits {code : EcRc} (prepares : input.Prepares platform h flow) (serves : b.Serves flow)
    (wait : input.env.run.ret = .wait) : ¬ b.Selects platform h input code := by
  intro selects
  cases selects with
  | unsaved failed => exact failed prepares.saved
  | undecoded saved failed => exact failed prepares.decoded
  | unrequested saved decoded other rc request failed =>
      cases request.symm.trans prepares.request
      exact failed rfl
  | uncalled other again served refused silent => exact refused wait
  | missing other again unserved =>
      cases prepares.unique again
      exact unserved serves

omit platform in
/-- The error exit leaves its server in the final state of an internal error. -/
theorem ecServerFail_final {platform : Platform} {env : SendEnv} {rc : EcRc} {w failed : EcWork}
    (finished : ecServerFail platform env rc w = .ok failed) : failed.srv.state = .internalErr ∧ failed.self = w.self := by
  have self := congrArg ServerCore.self (ecServerReply_core platform env
    (if rc = ecRcUnset then ecInternalServerError else rc) w)
  unfold ecServerFail at finished
  rw [ecServerSetState_final _ .internalErr rfl rfl] at finished
  cases finished
  exact ⟨rfl, self⟩

/-- A request is answered, or left pending, exactly when it is answerable. -/
theorem request_answered_iff (accepts : b.Accepts platform input h) (method : ecIsMethod h.code.toNat)
    (ack : input.env.ack = true) (response : input.env.response.sent = true) (reply : input.env.reply.sent = true) :
    (∃ b', baseStep platform b (.datagram input) = .ok b' ∧ b.Answers platform b' h input) ↔
      b.Answerable platform h input := by
  rw [baseStep_request platform b input h accepts method]
  by_cases prepared : ∃ flow, input.Prepares platform h flow
  · obtain ⟨flow, prepares⟩ := prepared
    obtain ⟨reachable, endpoints, model⟩ := prepares.leads accepts.socket
    obtain ⟨owing, fits⟩ := prepares.owing (b := b)
    obtain ⟨w', rc, dispatched, self, outcome⟩ := owing.dispatched platform b.resources b.fb input.env model fits ack
      response reply (b.Serves flow) Iff.rfl
    have here : w'.self = b.nextSrv := self
    have stored : (EcBase.store {b.seen platform input h with nextSrv := b.nextSrv + 1} w').heap b.nextSrv =
        some w'.srv := if_pos here.symm
    rw [ecServerProcess_prepared rfl prepares]
    change (∃ b', (ecServerDispatch platform b.resources b.fb input.env (b.dispatching platform h input flow)).map _ =
      .ok b' ∧ _) ↔ _
    rw [dispatched]
    have only : (∃ b', Except.map (fun handled : EcWork × EcNetCbrc =>
        EcBase.store {b.seen platform input h with nextSrv := b.nextSrv + 1} handled.1)
        (.ok (w', rc) : Except EcFault (EcWork × EcNetCbrc)) = .ok b' ∧ b.Answers platform b' h input) ↔
        b.Answers platform (EcBase.store {b.seen platform input h with nextSrv := b.nextSrv + 1} w') h input := by
      constructor
      · rintro ⟨b', same, answers⟩
        cases same
        exact answers
      · exact fun answers => ⟨_, rfl, answers⟩
    refine only.trans ?_
    rcases outcome with ⟨serves, wait, there, state, listed⟩ | ⟨busy, code, owes, answered⟩
    · have pending : b.nextSrv ∈ w'.servers := here ▸ listed
      refine iff_of_true ⟨⟨w'.srv, stored, Or.inr ⟨pending, state⟩⟩, fun code selects => ?_⟩
        ⟨flow, prepares, Or.inl ⟨serves, wait, fun con => reachable.mp (there (by simp [con]))⟩⟩
      exact absurd selects (EcBase.Selects.waits prepares serves wait)
    · constructor
      · rintro ⟨⟨srv, held, outcome⟩, _⟩
        cases stored.symm.trans held
        have room : (b.Serves flow → ((b.dispatching platform h input flow).called platform input.env).Fits) ∧
            flow.conn.Reachable := by
          by_contra full
          rcases outcome with ⟨other, _, s, member, _⟩ | ⟨_, state⟩
          · rw [answered.silent full] at member
            cases member
          · exact answered.final state
        exact ⟨flow, prepares, Or.inr ⟨fun ⟨serves, wait⟩ => busy ⟨serves, wait, fun _ => room.2⟩,
          reachable.mp room.2, room.1⟩⟩
      · rintro ⟨other, again, ⟨serves, wait, con⟩ | ⟨_, nonzero, room⟩⟩
        · cases prepares.unique again
          exact absurd ⟨serves, wait, fun confirmable => reachable.mpr (con (by simpa using confirmable))⟩ busy
        · cases prepares.unique again
          obtain ⟨s, log, carries⟩ := answered.replied ⟨room, reachable.mpr nonzero⟩
          obtain ⟨sd, peer⟩ := endpoints nonzero
          have replied : w'.srv.Replied input code := ⟨s, by rw [log]; exact List.mem_cons_self, carries.sd.trans sd,
            carries.peer.trans peer, carries.code⟩
          exact ⟨⟨w'.srv, stored, Or.inl ⟨code, owes.code, replied⟩⟩,
            fun other selects => ⟨w'.srv, stored, selects.owed prepares owes ▸ replied⟩⟩
  · refine iff_of_false ?_ (fun ⟨flow, prepares, _⟩ => prepared ⟨flow, prepares⟩)
    rintro ⟨b', handled, answers⟩
    obtain ⟨⟨w', rc⟩, worked, same⟩ := map_ok handled
    cases same
    rcases ecServerProcess_cases rfl worked with ⟨_, flow, code, failed⟩ | ⟨flow, prepares, _⟩
    · obtain ⟨state, self⟩ := ecServerFail_final failed
      have here : w'.self = b.nextSrv := self
      have silent : w'.srv.sent = [] := ecServerFail_mute rfl failed
      have stored : (EcBase.store {b.seen platform input h with nextSrv := b.nextSrv + 1} w').heap b.nextSrv =
          some w'.srv := if_pos here.symm
      obtain ⟨srv, held, outcome⟩ := answers.answered
      cases stored.symm.trans held
      rcases outcome with ⟨other, _, s, member, _⟩ | ⟨_, acked⟩
      · rw [silent] at member
        cases member
      · rw [state] at acked
        cases acked
    · exact absurd ⟨flow, prepares⟩ prepared

end Requests

/-- A confirmable GET of `/a` with MID 7 whose user answers at once. -/
def promptGet : ServerInput := loopbackInput [0x41, 1, 0, 7, 0x91, 0x61] ⟨[.setCode ecContent], .ready, ⟨0, 0⟩⟩ 0

theorem promptGet_answered : ∃ b', baseStep serverPlatform {ecInit with fb := true} (.datagram promptGet) = .ok b' ∧
    EcBase.Answers serverPlatform {ecInit with fb := true} b' ⟨.con, 1, 1, 0x0700⟩ promptGet := by
  have accepts : EcBase.Accepts serverPlatform {ecInit with fb := true} promptGet ⟨.con, 1, 1, 0x0700⟩ :=
    ⟨by decide, by decide, by decide, rfl⟩
  have prepared : ∃ flow, promptGet.Prepares serverPlatform ⟨.con, 1, 1, 0x0700⟩ flow ∧ flow.token = [] :=
    ⟨_, ⟨rfl, rfl, rfl⟩, rfl⟩
  obtain ⟨flow, prepares, untokened⟩ := prepared
  apply (request_answered_iff accepts (by decide) rfl rfl rfl).mpr
  refine ⟨flow, prepares, Or.inr ⟨fun ⟨_, wait⟩ => absurd wait (by decide), by decide, fun _ => ⟨ecPduNewEmpty, rfl, ?_⟩⟩⟩
  change ecOptsInit.Encodes flow.token
  rw [untokened]
  decide

/-- A confirmable GET with MID 7 whose only option, behind a fencepost, is a critical one of number 25. -/
def criticalGet : ServerInput := loopbackInput [0x42, 1, 0, 7, 0xe0, 0xb0] waits 0

/-- It selects 4.02, and nothing is sent. -/
theorem criticalGet_silent : ¬ ∀ (platform : Platform) (b b' : EcBase) (h : EcHdr) (input : ServerInput),
    b.Accepts platform input h → ecIsMethod h.code.toNat → input.env.ack = true → input.env.response.sent = true →
    input.env.reply.sent = true → baseStep platform b (.datagram input) = .ok b' → b.Answers platform b' h input := by
  intro always
  have run : ∃ b' srv, baseStep serverPlatform {ecInit with fb := true} (.datagram criticalGet) = .ok b' ∧
      b'.heap 0 = some srv ∧ srv.sent = [] := ⟨_, _, rfl, rfl, rfl⟩
  obtain ⟨b', srv, handled, stored, silent⟩ := run
  have answers := always serverPlatform {ecInit with fb := true} b' ⟨.con, 2, 1, 0x0700⟩ criticalGet
    ⟨by decide, by decide, by decide, rfl⟩ (by decide) rfl rfl rfl handled
  have code : (ecServerBody criticalGet.raw criticalGet.beyond).decoded.rc = ecBadOption := rfl
  have selects : EcBase.Selects serverPlatform {ecInit with fb := true} ⟨.con, 2, 1, 0x0700⟩ criticalGet ecBadOption :=
    code ▸ .undecoded rfl (by decide)
  obtain ⟨other, held, s, member, _⟩ := answers.selected _ selects
  cases stored.symm.trans held
  rw [silent] at member
  cases member

end Webthings.Evcoap
