import Webthings.Evcoap.Answers
import Webthings.Evcoap.ClientPosts
import Webthings.Evcoap.PromptReplies

namespace Webthings.Evcoap
open Webthings.Transition

/-- Whatever a work adds to the log of its server and whatever reply it puts into a record is of this kind. -/
structure EcWork.Utters (kind : Datagram → Prop) (w w' : EcWork) : Prop where
  sent : ∃ more, w'.srv.sent = w.srv.sent ++ more ∧ ∀ s ∈ more, kind s.datagram
  cached : ∀ key recvd reply, w'.dups key = some recvd → recvd.cachedPdu = some reply →
    (∃ old, w.dups key = some old ∧ old.cachedPdu = some reply) ∨ ∃ d, kind d ∧ d.cached = reply

/-- What a server makes of its response, whether the socket takes it or not. -/
def EcServer.Composed (order : ByteOrder) (env : SendEnv) (srv : EcServer) (d : Datagram) : Prop :=
  ∃ res isCon, srv.res = some res ∧ srv.Pairs res ∧ ecIsRespCode srv.flow.respCode ∧
    srv.flow.conn.isConfirmable = some isCon ∧ res.opts.Encodes srv.flow.token ∧
    d = (srv.encodedResp order env isCon res).datagram srv.flow.conn

/-- A datagram has the code of a client error or of a server error. -/
def Datagram.Fails (d : Datagram) : Prop := 0x80 ≤ (d.hdr.getD 1 0).toNat

namespace EcWork.Utters

variable {kind wider : Datagram → Prop} {w middle w' : EcWork}

theorem of_quiet (sent : w'.srv.sent = w.srv.sent) (dups : w'.dups = w.dups) : w.Utters kind w' := by
  refine ⟨⟨[], by rw [sent, List.append_nil], by simp⟩, fun key recvd reply present cached => ?_⟩
  rw [dups] at present
  exact Or.inl ⟨recvd, present, cached⟩

theorem refl (w : EcWork) : w.Utters kind w := of_quiet rfl rfl

theorem trans (first : w.Utters kind middle) (second : middle.Utters kind w') : w.Utters kind w' := by
  obtain ⟨more, log, said⟩ := first.sent
  obtain ⟨more', log', said'⟩ := second.sent
  refine ⟨⟨more ++ more', by rw [log', log, List.append_assoc], List.forall_mem_append.mpr ⟨said, said'⟩⟩, ?_⟩
  intro key recvd reply present cached
  rcases second.cached key recvd reply present cached with ⟨old, held, same⟩ | new
  · exact first.cached key old reply held same
  · exact Or.inr new

theorem mono (utters : w.Utters kind w') (within : ∀ d, kind d → wider d) : w.Utters wider w' := by
  obtain ⟨more, log, said⟩ := utters.sent
  refine ⟨⟨more, log, fun s member => within _ (said s member)⟩, fun key recvd reply present cached => ?_⟩
  exact (utters.cached key recvd reply present cached).imp_right fun ⟨d, new, same⟩ => ⟨d, within d new, same⟩

/-- What was said before a change of a work that neither logs nor caches anything. -/
theorem ahead (utters : w.Utters kind middle) (sent : w'.srv.sent = middle.srv.sent) (dups : w'.dups = middle.dups) :
    w.Utters kind w' := utters.trans (of_quiet sent dups)

end EcWork.Utters

section Decoding

/-- The decoder of the options refuses with an error, if at all. -/
theorem decodeLoop_refuses (pdu : Nat → UInt8) (n : Nat) (d : Decoder) :
    (decodeLoop pdu n d).2 = ecRcUnset ∨ (decodeLoop pdu n d).2 = ecBadOption ∨
      (decodeLoop pdu n d).2 = ecInternalServerError := by
  induction n generalizing d with
  | zero => exact Or.inl rfl
  | succ n ih =>
      rw [decodeLoop]
      split
      · exact ih _
      · rename_i stopped
        rcases decodeOpt_cases pdu d with ⟨_, same⟩ | ⟨_, _, same⟩ | ⟨_, o, _, _, ⟨_, same⟩ | ⟨_, same⟩⟩
        · exact Or.inr (Or.inl (by rw [same]))
        · exact absurd (by rw [same]) stopped
        · exact absurd (by rw [same]) stopped
        · exact Or.inr (Or.inr (by rw [same]))

theorem ecServerBody_refuses (raw : List UInt8) (beyond : Nat → UInt8)
    (response : ecIsRespCode (ecServerBody raw beyond).decoded.rc) : 0x80 ≤ (ecServerBody raw beyond).decoded.rc := by
  have decoded : (ecServerBody raw beyond).decoded.rc = -1 ∨ (ecServerBody raw beyond).decoded.rc = ecRcUnset ∨
      (ecServerBody raw beyond).decoded.rc = ecBadOption ∨
      (ecServerBody raw beyond).decoded.rc = ecInternalServerError := by
    unfold ecServerBody
    dsimp only
    split
    · rename_i announced
      unfold ecOptsDecode
      by_cases short : raw.length < ecCoapHdrSize
      · rw [if_pos short]
        exact Or.inl rfl
      · rw [if_neg short, if_neg announced]
        exact Or.inr (decodeLoop_refuses _ _ _)
    · exact Or.inr (Or.inl rfl)
  rcases decoded with same | same | same | same
  all_goals
    rw [same] at response ⊢
    revert response
    decide

end Decoding

section Invocations

variable {platform : Platform}

theorem ecServerSendResp_invoked (env : SendEnv) (purpose : Purpose) (w : EcWork) :
    (ecServerSendResp platform env purpose w).1.invoked = w.invoked := by
  unfold ecServerSendResp
  dsimp only
  split
  · rfl
  · split
    · rfl
    · split
      · rfl
      · split
        · rfl
        · split <;> rfl

theorem ecServerSetState_invoked {w moved : EcWork} {next : EcSrvState}
    (finished : ecServerSetState w next = .ok moved) : moved.invoked = w.invoked := by
  unfold ecServerSetState at finished
  split at finished
  · cases finished
  · split at finished
    · cases finished
    · dsimp only at finished
      split at finished <;> cases finished <;> rfl

theorem ecServerReply_invoked (env : SendEnv) (rc : EcRc) (w : EcWork) :
    (ecServerReply platform env rc w).1.invoked = w.invoked := by
  unfold ecServerReply
  split
  · rfl
  · dsimp only
    split
    · rfl
    · rw [ecServerSendResp_invoked]

theorem ecServerFail_invoked {env : SendEnv} {rc : EcRc} {w failed : EcWork}
    (finished : ecServerFail platform env rc w = .ok failed) : failed.invoked = w.invoked := by
  rw [ecServerSetState_invoked finished, ecServerReply_invoked]

theorem ecServerReady_invoked {env : SendEnv} {isCon : Bool} {w w' : EcWork} {rc : Int}
    (finished : ecServerReady platform env isCon w = .ok (w', rc)) : w'.invoked = w.invoked := by
  have responded : (ecServerSendResp platform env .response w).1.invoked = w.invoked :=
    ecServerSendResp_invoked env .response w
  unfold ecServerReady at finished
  dsimp only at finished
  split at finished
  · split at finished
    · cases finished
      exact responded
    · obtain ⟨moved, entered, same⟩ := map_ok finished
      cases same
      rw [ecServerSetState_invoked entered, responded]
  · cases finished
    rfl

theorem ecServerWait_invoked {env : HandlerEnv} {isCon : Bool} {w w' : EcWork} {rc : Int}
    (finished : ecServerWait platform env isCon w = .ok (w', rc)) : w'.invoked = w.invoked := by
  have acked : (if isCon then ecServerSendSeparateAck platform env.ack w else (w, 0)).1.invoked = w.invoked := by
    split
    · rcases ecServerSendSeparateAck_cases platform env.ack w with ⟨dups, same⟩ | ⟨req, dups, _, same⟩
      · rw [same]
      · rw [same]
    · rfl
  unfold ecServerWait at finished
  split at finished
  · generalize (if isCon then ecServerSendSeparateAck platform env.ack w else (w, 0)) = ack at acked finished
    dsimp only at finished
    split at finished
    · cases finished
      exact acked
    · obtain ⟨resched, code, same⟩ := ecServerRescheduleUserfn_frame env.run.tv (ecServerAdd ack.1)
      rw [same] at finished
      dsimp only at finished
      split at finished
      · cases finished
        exact acked
      · obtain ⟨moved, entered, same⟩ := map_ok finished
        cases same
        rw [ecServerSetState_invoked entered]
        exact acked
  · cases finished
    rfl

/-- A callback that is found is invoked once. -/
theorem ecServerUserfn_invoked {env : HandlerEnv} {w w' : EcWork} {rc : Int}
    (finished : ecServerUserfn platform env w = .ok (w', rc)) :
    rc ≠ 0 ∧ w' = w ∨ w'.invoked = w.invoked + 1 := by
  unfold ecServerUserfn at finished
  split at finished
  · cases finished
    exact Or.inl ⟨by decide, rfl⟩
  · have called : (applyCalls platform env.run.calls {w with invoked := w.invoked + 1}).invoked = w.invoked + 1 :=
      applyCalls_invoked env.run.calls {w with invoked := w.invoked + 1}
    dsimp only at finished
    right
    split at finished
    · rw [ecServerReady_invoked finished, called]
    · rw [ecServerWait_invoked finished, called]
    · cases finished
      exact called
    · cases finished
      exact called

end Invocations

section Handlers

variable {platform : Platform}

/-- A message that is handed to the socket is logged if it goes out, and cached in any case. -/
theorem ecPduSend_utters (platform : Platform) (sent : Bool) (pdu : EcPdu) (purpose : Purpose) {w w' : EcWork}
    (log : w'.srv.sent = w.srv.sent ++
      ((ecPduSend platform sent w.srv.flow pdu w.dups true).datagram.toList.map (Sent.mk purpose)))
    (dups : w'.dups = (ecPduSend platform sent w.srv.flow pdu w.dups true).dups) :
    w.Utters (· = pdu.datagram w.srv.flow.conn) w' := by
  refine ⟨⟨_, log, fun s member => ?_⟩, fun key recvd reply present cached => ?_⟩
  · obtain ⟨d, handed, rfl⟩ := List.mem_map.mp member
    rw [ecPduSend_datagram] at handed
    exact ecNetSend_some (Option.mem_toList.mp handed)
  · rw [dups] at present
    unfold ecPduSend at present
    dsimp only at present
    split at present
    · rename_i mid _ _
      split at present
      · exact Or.inl ⟨recvd, present, cached⟩
      · rename_i old _
        dsimp only at present
        by_cases own : key = ecDupKeyNew platform mid w.srv.flow.conn.peer
        · subst own
          rw [EcDups.put_self] at present
          cases present
          cases cached
          exact Or.inr ⟨_, rfl, rfl⟩
        · rw [EcDups.put_other _ _ own] at present
          exact Or.inl ⟨recvd, present, cached⟩
    · exact Or.inl ⟨recvd, present, cached⟩

/-- A server utters nothing but what it makes of its response. -/
theorem ecServerSendResp_utters (platform : Platform) (env : SendEnv) (purpose : Purpose) (w : EcWork) :
    w.Utters (w.srv.Composed platform.order env) (ecServerSendResp platform env purpose w).1 := by
  unfold ecServerSendResp
  split
  · exact EcWork.Utters.refl w
  · rename_i res held
    dsimp only
    split
    · exact EcWork.Utters.of_quiet rfl rfl
    · rename_i paired
      have pairs := (ecServerPairResp_ok_iff w.srv res).mp (by simpa using paired)
      split
      · exact EcWork.Utters.of_quiet rfl rfl
      · rename_i code
        have response : ecIsRespCode w.srv.flow.respCode := by simpa using code
        split
        · exact EcWork.Utters.of_quiet rfl rfl
        · rename_i isCon model
          split
          · exact EcWork.Utters.of_quiet rfl rfl
          · rename_i encoded
            have encodes := (ecServerEncodeResp_ok_iff platform.order env w.srv isCon res response model pairs).mp
              (by simpa using encoded)
            refine EcWork.Utters.mono (ecPduSend_utters platform env.sent
              (w.srv.encodedResp platform.order env isCon res) purpose ?_ ?_) fun d same =>
                ⟨res, isCon, held, pairs, response, model, encodes, same⟩
            · rfl
            · rfl

/-- What an encoded response is made of, in whichever message it goes out: its code, its options with the token, and
its payload. -/
theorem EcServer.encodedResp_whole (order : ByteOrder) (env : SendEnv) {srv : EcServer} {res : EcPdu} {isCon : Bool}
    (pairs : srv.Pairs res) (code : ecIsRespCode srv.flow.respCode)
    (model : srv.flow.conn.isConfirmable = some isCon) (encodes : res.opts.Encodes srv.flow.token) :
    (srv.encodedResp order env isCon res).opts = (mirrorToken res.opts srv.flow.token).1.encoded ∧
      (srv.encodedResp order env isCon res).payload = res.payload ∧
      ∃ t mid, (srv.encodedResp order env isCon res).hdr =
        headerBytes order (mirrorToken res.opts srv.flow.token).1.encoded.noptions (rcByte srv.flow.respCode) t
          mid := by
  have encoded := (ecServerEncodeResp_ok_iff order env srv isCon res code model pairs).mpr encodes
  obtain ⟨sibling, paired⟩ := ecServerPairResp_frame srv res
  unfold encodedResp
  rw [paired] at encoded ⊢
  unfold ecServerEncodeResp at encoded ⊢
  split at encoded
  · rename_i piggyback
    rw [if_pos piggyback]
    obtain ⟨_, opts, payload, hdr⟩ := PduEncoding.piggyback.encode_whole (fun _ _ => code) encoded
    exact ⟨opts, payload, _, _, hdr⟩
  · rename_i separate
    rw [if_neg separate]
    obtain ⟨_, opts, payload, hdr⟩ := (PduEncoding.separate env).encode_whole (fun _ _ => code) encoded
    exact ⟨opts, payload, _, _, hdr⟩

theorem EcServer.Composed.code {order : ByteOrder} {env : SendEnv} {srv : EcServer} {d : Datagram}
    (composed : srv.Composed order env d) : d.hdr.getD 1 0 = rcByte srv.flow.respCode := by
  obtain ⟨res, isCon, _, pairs, code, model, encodes, same⟩ := composed
  obtain ⟨_, _, t, mid, hdr⟩ := EcServer.encodedResp_whole order env pairs code model encodes
  rw [same]
  show (srv.encodedResp order env isCon res).hdr.getD 1 0 = _
  rw [hdr]
  rfl

/-- An error reply has its code. -/
theorem ecServerReply_utters (platform : Platform) (env : SendEnv) (rc : EcRc) (w : EcWork)
    (error : ecIsRespCode rc → 0x80 ≤ rc) : w.Utters Datagram.Fails (ecServerReply platform env rc w).1 := by
  unfold ecServerReply
  split
  · exact EcWork.Utters.refl w
  · rename_i valid
    have response : ecIsRespCode rc := not_not.mp valid
    have coded : ecFlowSetRespCode w.srv.flow rc = ({w.srv.flow with respCode := rc}, 0) := if_pos response
    rw [coded]
    dsimp only
    rw [if_neg (by simp)]
    have begun : w.Utters Datagram.Fails {w with srv := {w.srv with flow := {w.srv.flow with respCode := rc}}} :=
      EcWork.Utters.of_quiet rfl rfl
    refine begun.trans ((ecServerSendResp_utters platform env .reply _).mono fun d composed => ?_)
    have code : d.hdr.getD 1 0 = rcByte rc := composed.code
    have lower := error response
    have upper := response.2
    have fits : rc.toNat < 2 ^ 8 :=
      (Int.toNat_lt (Int.le_trans (by decide) lower)).mpr (Int.lt_of_le_of_lt upper (by decide))
    unfold Datagram.Fails
    rw [code]
    unfold rcByte
    rw [UInt8.toNat_ofNat', Nat.mod_eq_of_lt fits]
    exact Int.toNat_le_toNat lower

theorem ecServerSetState_utters {kind : Datagram → Prop} {w moved : EcWork} {next : EcSrvState}
    (finished : ecServerSetState w next = .ok moved) : w.Utters kind moved :=
  EcWork.Utters.of_quiet (ecServerSetState_sent finished) (ecServerSetState_dups finished)

theorem ecServerFail_utters {env : SendEnv} {rc : EcRc} {w failed : EcWork} (error : ecIsRespCode rc → 0x80 ≤ rc)
    (finished : ecServerFail platform env rc w = .ok failed) : w.Utters Datagram.Fails failed := by
  refine (ecServerReply_utters platform env _ w ?_).trans (ecServerSetState_utters finished)
  split
  · intro _
    decide
  · exact error

theorem ecServerSendSeparateAck_utters (sent : Bool) (w : EcWork) :
    w.Utters (Datagram.Empty platform.order) (ecServerSendSeparateAck platform sent w).1 := by
  unfold ecServerSendSeparateAck
  split
  · exact EcWork.Utters.refl w
  · split
    · exact EcWork.Utters.refl w
    · cases w.srv.req with
      | none => exact EcWork.Utters.refl w
      | some req =>
          have empty : ∀ d, d = (separateAck platform.order req.hdrBits.mid).datagram w.srv.flow.conn →
              d.Empty platform.order := by
            rintro d rfl
            exact ⟨.ack, req.hdrBits.mid, rfl, rfl, rfl⟩
          have encoded : ecPduEncodeResponseAck platform.order w.srv.flow
              {ecPduNewEmpty with sibling := some req.hdrBits.mid} =
              (separateAck platform.order req.hdrBits.mid, 0) := rfl
          have paired : ecPduSetSibling ecPduNewEmpty (some req.hdrBits.mid) =
              ({ecPduNewEmpty with sibling := some req.hdrBits.mid}, 0) := rfl
          rw [Option.map_some, paired]
          dsimp only
          rw [if_neg (by decide), encoded]
          dsimp only
          rw [if_neg (by decide)]
          split
          · rename_i silent
            refine EcWork.Utters.mono (ecPduSend_utters platform sent (separateAck platform.order req.hdrBits.mid) .ack
              ?_ ?_) empty
            · rw [silent]
              simp
            · rfl
          · rename_i datagram handed
            refine EcWork.Utters.mono (ecPduSend_utters platform sent (separateAck platform.order req.hdrBits.mid) .ack
              ?_ ?_) empty
            · rw [handed]
              rfl
            · rfl

/-- An answer of the user that is ready says what the server makes of it. -/
theorem ecServerReady_utters {env : SendEnv} {isCon : Bool} {w w' : EcWork} {rc : Int}
    (finished : ecServerReady platform env isCon w = .ok (w', rc)) :
    w.Utters (fun d => (w.srv.state = .ackSent ∨ w.srv.state = .reqOk) ∧ w.srv.Composed platform.order env d) w' := by
  unfold ecServerReady at finished
  split at finished
  · rename_i ready
    have responded := (ecServerSendResp_utters platform env .response w).mono fun d composed => And.intro ready composed
    dsimp only at finished
    split at finished
    · cases finished
      exact responded
    · obtain ⟨moved, entered, same⟩ := map_ok finished
      cases same
      exact responded.trans (ecServerSetState_utters entered)
  · cases finished
    exact EcWork.Utters.refl w

theorem ecServerWait_utters {env : HandlerEnv} {isCon : Bool} {w w' : EcWork} {rc : Int}
    (finished : ecServerWait platform env isCon w = .ok (w', rc)) :
    w.Utters (fun d => w.srv.state = .reqOk ∧ d.Empty platform.order) w' := by
  unfold ecServerWait at finished
  split at finished
  · rename_i accepted
    have acked : w.Utters (fun d => w.srv.state = .reqOk ∧ d.Empty platform.order)
        (if isCon then ecServerSendSeparateAck platform env.ack w else (w, 0)).1 := by
      split
      · exact (ecServerSendSeparateAck_utters env.ack w).mono fun d empty => And.intro accepted empty
      · exact EcWork.Utters.refl w
    generalize (if isCon then ecServerSendSeparateAck platform env.ack w else (w, 0)) = ack at acked finished
    dsimp only at finished
    split at finished
    · cases finished
      exact acked
    · obtain ⟨resched, code, same⟩ := ecServerRescheduleUserfn_frame env.run.tv (ecServerAdd ack.1)
      rw [same] at finished
      dsimp only at finished
      have added : w.Utters (fun d => w.srv.state = .reqOk ∧ d.Empty platform.order)
          {ecServerAdd ack.1 with srv := {(ecServerAdd ack.1).srv with resched := resched}} := acked.ahead rfl rfl
      split at finished
      · cases finished
        exact added
      · obtain ⟨moved, entered, same⟩ := map_ok finished
        cases same
        exact added.trans (ecServerSetState_utters entered)
  · cases finished
    exact EcWork.Utters.refl w

/-- What a callback can have its server say: an ACK of a new request, or a response while there is none. -/
def EcWork.Speech (platform : Platform) (env : HandlerEnv) (w : EcWork) (d : Datagram) : Prop :=
  w.srv.state = .reqOk ∧ d.Empty platform.order ∨
    (w.srv.state = .ackSent ∨ w.srv.state = .reqOk) ∧ (w.called platform env).Composed platform.order env.response d

theorem ecServerUserfn_utters {env : HandlerEnv} {w w' : EcWork} {rc : Int}
    (finished : ecServerUserfn platform env w = .ok (w', rc)) : w.Utters (w.Speech platform env) w' := by
  unfold ecServerUserfn at finished
  split at finished
  · cases finished
    exact EcWork.Utters.refl w
  · dsimp only at finished
    have quiet := applyCalls_quiet platform env.run.calls {w with invoked := w.invoked + 1}
    have state := (applyCalls_called platform env.run.calls {w with invoked := w.invoked + 1}).state
    have called : w.Utters (w.Speech platform env)
        (applyCalls platform env.run.calls {w with invoked := w.invoked + 1}) :=
      EcWork.Utters.of_quiet quiet.sent quiet.dups
    change _ = w.srv.state at state
    split at finished
    · have ready := ecServerReady_utters finished
      rw [state] at ready
      exact called.trans (ready.mono fun d composed => Or.inr composed)
    · have waits := ecServerWait_utters finished
      rw [state] at waits
      exact called.trans (waits.mono fun d empty => Or.inl empty)
    · cases finished
      exact called
    · cases finished
      exact called

theorem reschedUserfn_utters {env : HandlerEnv} {w next : EcWork} (finished : reschedUserfn platform env w = .ok next) :
    w.Utters (w.Speech platform env) next := by
  unfold reschedUserfn at finished
  split at finished
  · cases finished
  · rename_i run rc ran
    have called := ecServerUserfn_utters ran
    split at finished
    · exact called.trans (ecServerSetState_utters finished)
    · cases finished
      exact called

theorem ecServerWakeup_utters {env : SendEnv} {calls : List SrvApi} {w w' : EcWork} {rc : Int}
    (finished : ecServerWakeup platform env calls w = .ok (w', rc)) :
    w.Utters (fun d => (w.srv.state = .ackSent ∨ w.srv.state = .reqOk) ∧
      (applyCalls platform calls w).srv.Composed platform.order env d) w' := by
  have quiet := applyCalls_quiet platform calls w
  have state := (applyCalls_called platform calls w).state
  unfold ecServerWakeup at finished
  dsimp only at finished
  split at finished
  · cases finished
    exact EcWork.Utters.of_quiet quiet.sent quiet.dups
  · have ready := ecServerReady_utters finished
    rw [state] at ready
    exact (EcWork.Utters.of_quiet quiet.sent quiet.dups).trans ready

theorem ecSrvCoapTimeout_utters {env : SendEnv} {w next : EcWork}
    (finished : ecSrvCoapTimeout platform env w = .ok next) :
    w.Utters (fun d => w.srv.coap.retriesLeft ≠ 0 ∧ {w.srv with state := .coapRetry}.Composed platform.order env d)
      next := by
  unfold ecSrvCoapTimeout at finished
  split at finished
  · exact ecServerSetState_utters finished
  · rename_i left
    split at finished
    · cases finished
    · rename_i retried entered
      have same : retried = {w with srv := {w.srv with state := .coapRetry}} := by
        unfold ecServerSetState at entered
        split at entered
        · cases entered
        · cases entered
          rfl
      subst same
      have retrying := ecServerSendResp_utters platform env .retransmission
        {w with srv := {w.srv with state := .coapRetry}}
      have responded :=
        (ecServerSetState_utters entered).trans (retrying.mono fun d composed => And.intro left composed)
      dsimp only at finished
      split at finished
      · exact responded.trans (ecServerSetState_utters finished)
      · exact responded.trans (ecServerSetState_utters finished)

theorem ecServerControlled_utters {h : EcHdr} {input : ServerInput} {w ended : EcWork} {rc : EcNetCbrc}
    (finished : ecServerControlled platform h input w = .ok (ended, rc)) : w.Utters Datagram.Fails ended := by
  have failing : ∀ code, (ecIsRespCode code → 0x80 ≤ code) →
      (ecServerFail platform input.env.reply code w).map (fun failed => (failed, EcNetCbrc.error)) = .ok (ended, rc) →
      w.Utters Datagram.Fails ended := by
    intro code error failing
    obtain ⟨failed, ends, same⟩ := map_ok failing
    cases same
    exact ecServerFail_utters error ends
  unfold ecServerControlled at finished
  split at finished
  · obtain ⟨moved, ends, same⟩ := map_ok finished
    cases same
    exact ecServerSetState_utters ends
  · split at finished
    · exact failing _ (by decide) finished
    · obtain ⟨moved, ends, same⟩ := map_ok finished
      cases same
      exact ecServerSetState_utters ends
  · exact failing _ (ecServerBody_refuses input.raw input.beyond) finished
  · exact failing _ (ecServerBody_refuses input.raw input.beyond) finished

end Handlers

end Webthings.Evcoap
