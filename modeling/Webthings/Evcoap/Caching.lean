import Webthings.Evcoap.ClientPairing
import Webthings.Evcoap.Requests
import Webthings.Evcoap.ServerLife

namespace Webthings.Evcoap
open Webthings.Transition

/-- The message that a record stands for: its sender, its MID and its bytes. -/
def EcRecvdPdu.origin (recvd : EcRecvdPdu) : SockAddr × UInt16 × List UInt8 := (recvd.who, recvd.mid, recvd.raw)

/-- The messages that a map has records of. -/
def EcDups.origins (dups : EcDups) (key : DupKey) : Option (SockAddr × UInt16 × List UInt8) :=
  (dups key).map EcRecvdPdu.origin

/-- No record comes or goes, and the touched ones alone may have got another reply. -/
structure EcDups.Recached (touched : DupKey → Prop) (dups dups' : EcDups) : Prop where
  origins : dups'.origins = dups.origins
  frame : ∀ key, ¬ touched key → dups' key = dups key

theorem EcDups.Recached.refl (touched : DupKey → Prop) (dups : EcDups) : dups.Recached touched dups :=
  ⟨rfl, fun _ _ => rfl⟩

theorem EcDups.Recached.trans {touched touched' : DupKey → Prop} {dups middle dups' : EcDups}
    (first : dups.Recached touched middle) (within : ∀ key, touched' key → touched key)
    (second : middle.Recached touched' dups') : dups.Recached touched dups' where
  origins := second.origins.trans first.origins
  frame := fun key outside =>
    (second.frame key fun inside => outside (within key inside)).trans (first.frame key outside)

theorem EcDups.Recached.mono {touched touched' : DupKey → Prop} {dups dups' : EcDups}
    (recached : dups.Recached touched dups') (within : ∀ key, touched key → touched' key) :
    dups.Recached touched' dups' :=
  ⟨recached.origins, fun key outside => recached.frame key fun inside => outside (within key inside)⟩

/-- A live record stays live. -/
theorem EcDups.Recached.kept {touched : DupKey → Prop} {dups dups' : EcDups} (recached : dups.Recached touched dups')
    {key : DupKey} {recvd : EcRecvdPdu} (present : dups key = some recvd) :
    ∃ recvd', dups' key = some recvd' ∧ recvd'.origin = recvd.origin := by
  have same : (dups' key).map EcRecvdPdu.origin = (dups key).map EcRecvdPdu.origin := congrFun recached.origins key
  rw [present] at same
  exact Option.map_eq_some_iff.mp same

/-- A send touches the record of the message that it answers. -/
theorem ecPduSend_recached (platform : Platform) (sent : Bool) (flow : EcFlow) (pdu : EcPdu) (dups : EcDups)
    (cache : Bool) : dups.Recached (fun key => cache = true ∧ ∃ mid, pdu.sibling = some mid ∧
      key = ecDupKeyNew platform mid flow.conn.peer) (ecPduSend platform sent flow pdu dups cache).dups := by
  refine ⟨?_, fun key outside => ?_⟩
  · funext key
    have same := ecPduSend_dups platform sent flow pdu dups cache key
    exact same
  · unfold ecPduSend
    dsimp only
    split
    · rename_i mid sibling
      have other : key ≠ ecDupKeyNew platform mid flow.conn.peer := fun same => outside ⟨rfl, mid, sibling, same⟩
      split
      · rfl
      · exact EcDups.put_other dups _ other
    · rfl

/-- The MID of the message that the response of a server answers. -/
def EcServer.pairedMid (srv : EcServer) : Option UInt16 := srv.res.bind fun res => res.sibling

/-- The records that the replies of a server are cached in. -/
def EcServer.Touches (platform : Platform) (srv : EcServer) (key : DupKey) : Prop :=
  ∃ mid, key = ecDupKeyNew platform mid srv.flow.conn.peer ∧
    (srv.pairedMid = some mid ∨ srv.state ≠ .ackSent ∧ srv.req.map (fun req => req.hdrBits.mid) = some mid)

/-- The records that an answer touches which the server still owes. -/
def EcServer.Owes (platform : Platform) (srv : EcServer) (key : DupKey) : Prop :=
  (srv.state = .ackSent ∨ srv.state = .reqOk) ∧ srv.Touches platform key

/-- A server in the same state of the same request, whose response answers nothing else. -/
structure EcServer.Alike (srv srv' : EcServer) : Prop where
  state : srv'.state = srv.state
  req : srv'.req = srv.req
  conn : srv'.flow.conn = srv.flow.conn
  paired : ∀ mid, srv'.pairedMid = some mid → srv.pairedMid = some mid ∨
    srv.state ≠ .ackSent ∧ srv.req.map (fun req => req.hdrBits.mid) = some mid

theorem EcServer.Alike.refl (srv : EcServer) : srv.Alike srv := ⟨rfl, rfl, rfl, fun _ paired => Or.inl paired⟩

theorem EcServer.Alike.trans {srv middle srv' : EcServer} (first : srv.Alike middle) (second : middle.Alike srv') :
    srv.Alike srv' where
  state := second.state.trans first.state
  req := second.req.trans first.req
  conn := second.conn.trans first.conn
  paired := fun mid paired => by
    rcases second.paired mid paired with before | ⟨state, request⟩
    · exact first.paired mid before
    · exact Or.inr ⟨first.state ▸ state, first.req ▸ request⟩

theorem EcServer.Alike.touches {platform : Platform} {srv srv' : EcServer} (alike : srv.Alike srv') {key : DupKey}
    (touched : srv'.Touches platform key) : srv.Touches platform key := by
  obtain ⟨mid, same, paired | ⟨state, request⟩⟩ := touched
  · exact ⟨mid, alike.conn ▸ same, alike.paired mid paired⟩
  · exact ⟨mid, alike.conn ▸ same, Or.inr ⟨alike.state ▸ state, alike.req ▸ request⟩⟩

theorem EcServer.Alike.owes {platform : Platform} {srv srv' : EcServer} (alike : srv.Alike srv') {key : DupKey}
    (owed : srv'.Owes platform key) : srv.Owes platform key := ⟨alike.state ▸ owed.1, alike.touches owed.2⟩

/-- Work in one state of a server: it leaves the server alike, and caches replies where the server does. -/
structure EcWork.Recaches (platform : Platform) (w w' : EcWork) : Prop where
  alike : w.srv.Alike w'.srv
  dups : w.dups.Recached (w.srv.Touches platform) w'.dups

theorem EcWork.Recaches.refl (platform : Platform) (w : EcWork) : w.Recaches platform w :=
  ⟨EcServer.Alike.refl w.srv, EcDups.Recached.refl _ _⟩

theorem EcWork.Recaches.trans {platform : Platform} {w middle w' : EcWork} (first : w.Recaches platform middle)
    (second : middle.Recaches platform w') : w.Recaches platform w' :=
  ⟨first.alike.trans second.alike, first.dups.trans (fun _ => first.alike.touches) second.dups⟩

section Sends

variable (platform : Platform)

/-- The pairing gives a response the MID of its request, unless the request has been acknowledged before. -/
theorem ecServerPairResp_sibling {srv : EcServer} {res : EcPdu} (held : srv.res = some res) {mid : UInt16}
    (paired : (ecServerPairResp srv res).1.sibling = some mid) :
    srv.pairedMid = some mid ∨ srv.state ≠ .ackSent ∧ srv.req.map (fun req => req.hdrBits.mid) = some mid := by
  have before : res.sibling = some mid → srv.pairedMid = some mid := by
    intro sibling
    unfold EcServer.pairedMid
    rw [held]
    exact sibling
  unfold ecServerPairResp ecPduSetSibling at paired
  split at paired
  · rename_i unacked
    split at paired
    · exact Or.inl (before paired)
    · rename_i other request
      split at paired
      · exact Or.inl (before paired)
      · cases paired
        exact Or.inr ⟨unacked, request⟩
  · exact Or.inl (before paired)

/-- An encoding keeps the message that a response answers. -/
theorem ecServerEncodeResp_sibling (order : ByteOrder) (env : SendEnv) (srv : EcServer) (isCon : Bool) (res : EcPdu) :
    (ecServerEncodeResp order env srv isCon res).1.sibling = res.sibling := by
  unfold ecServerEncodeResp
  split
  · unfold ecPduEncodeResponsePiggyback
    split
    · rfl
    · split
      · rfl
      · exact (encodeResponse_frame order srv.flow res _ _ _).2.2
  · unfold ecPduEncodeResponseSeparate
    have stored : ∀ mid : UInt16, (if res.hdrBits.mid = 0 then {res with hdrBits := {res.hdrBits with mid := mid}}
        else res).sibling = res.sibling := by
      intro mid
      split <;> rfl
    dsimp only
    split
    · exact stored env.rng
    · exact (encodeResponse_frame order srv.flow _ _ _ _).2.2.trans (stored env.rng)

theorem EcServer.Alike.of_response {srv : EcServer} {res' : EcPdu} {sent : List Sent}
    (paired : ∀ mid, res'.sibling = some mid → srv.pairedMid = some mid ∨
      srv.state ≠ .ackSent ∧ srv.req.map (fun req => req.hdrBits.mid) = some mid) :
    srv.Alike {srv with res := some res', sent := sent} :=
  ⟨rfl, rfl, rfl, fun mid same => paired mid same⟩

theorem ecServerSendResp_recaches (env : SendEnv) (purpose : Purpose) (w : EcWork) :
    w.Recaches platform (ecServerSendResp platform env purpose w).1 := by
  unfold ecServerSendResp
  split
  · exact EcWork.Recaches.refl platform w
  · rename_i res held
    have paired : ∀ mid, (ecServerPairResp w.srv res).1.sibling = some mid → w.srv.pairedMid = some mid ∨
        w.srv.state ≠ .ackSent ∧ w.srv.req.map (fun req => req.hdrBits.mid) = some mid :=
      fun mid same => ecServerPairResp_sibling held same
    have unsent : ∀ res' : EcPdu, (∀ mid, res'.sibling = some mid → w.srv.pairedMid = some mid ∨
        w.srv.state ≠ .ackSent ∧ w.srv.req.map (fun req => req.hdrBits.mid) = some mid) →
        w.Recaches platform {w with srv := {w.srv with res := some res'}} :=
      fun res' sibling => ⟨EcServer.Alike.of_response sibling, EcDups.Recached.refl _ _⟩
    dsimp only
    split
    · exact unsent _ paired
    · split
      · exact unsent _ paired
      · split
        · exact unsent _ paired
        · rename_i isCon model
          have encoded : ∀ mid, (ecServerEncodeResp platform.order env w.srv isCon
              (ecServerPairResp w.srv res).1).1.sibling = some mid → w.srv.pairedMid = some mid ∨
              w.srv.state ≠ .ackSent ∧ w.srv.req.map (fun req => req.hdrBits.mid) = some mid := by
            intro mid same
            rw [ecServerEncodeResp_sibling] at same
            exact paired mid same
          split
          · exact unsent _ encoded
          · refine ⟨EcServer.Alike.of_response encoded, ?_⟩
            apply (ecPduSend_recached platform env.sent w.srv.flow _ w.dups true).mono
            rintro key ⟨_, mid, sibling, same⟩
            exact ⟨mid, same, encoded mid sibling⟩

theorem ecServerReply_recaches (env : SendEnv) (rc : EcRc) (w : EcWork) :
    w.Recaches platform (ecServerReply platform env rc w).1 := by
  unfold ecServerReply
  split
  · exact EcWork.Recaches.refl platform w
  · dsimp only
    split
    · exact EcWork.Recaches.refl platform w
    · obtain ⟨code, same⟩ := ecFlowSetRespCode_frame w.srv.flow rc
      have coded : w.Recaches platform {w with srv := {w.srv with flow := (ecFlowSetRespCode w.srv.flow rc).1}} := by
        refine ⟨⟨rfl, rfl, ?_, fun mid paired => Or.inl paired⟩, EcDups.Recached.refl _ _⟩
        rw [same]
      exact coded.trans (ecServerSendResp_recaches platform env .reply _)

theorem ecServerSendSeparateAck_recaches (sent : Bool) (w : EcWork) :
    w.Recaches platform (ecServerSendSeparateAck platform sent w).1 := by
  unfold ecServerSendSeparateAck
  split
  · exact EcWork.Recaches.refl platform w
  · rename_i accepted
    have state : w.srv.state ≠ .ackSent := by
      intro acked
      exact accepted (by rw [acked]; decide)
    split
    · exact EcWork.Recaches.refl platform w
    · cases request : w.srv.req with
      | none => exact EcWork.Recaches.refl platform w
      | some req =>
          have paired : ecPduSetSibling ecPduNewEmpty (some req.hdrBits.mid) =
              ({ecPduNewEmpty with sibling := some req.hdrBits.mid}, 0) := rfl
          have encoded : ecPduEncodeResponseAck platform.order w.srv.flow
              {ecPduNewEmpty with sibling := some req.hdrBits.mid} =
              (separateAck platform.order req.hdrBits.mid, 0) := rfl
          have handed := ecPduSend_recached platform sent w.srv.flow (separateAck platform.order req.hdrBits.mid)
            w.dups true
          have within : w.dups.Recached (w.srv.Touches platform) (ecPduSend platform sent w.srv.flow
              (separateAck platform.order req.hdrBits.mid) w.dups true).dups := by
            apply handed.mono
            rintro key ⟨_, mid, sibling, same⟩
            have answered : some req.hdrBits.mid = some mid := sibling
            exact ⟨mid, same, Or.inr ⟨state, by rw [request]; exact answered⟩⟩
          rw [Option.map_some, paired]
          dsimp only
          rw [if_neg (by decide), encoded]
          dsimp only
          rw [if_neg (by decide)]
          generalize ecPduSend platform sent w.srv.flow (separateAck platform.order req.hdrBits.mid) w.dups true = ack
            at within ⊢
          obtain ⟨dups, datagram⟩ := ack
          cases datagram with
          | none => exact ⟨EcServer.Alike.refl w.srv, within⟩
          | some datagram => exact ⟨⟨rfl, rfl, rfl, fun mid same => Or.inl same⟩, within⟩

theorem SrvApi.apply_pairedMid (w : EcWork) (call : SrvApi) :
    (SrvApi.apply platform w call).srv.pairedMid = w.srv.pairedMid := by
  cases call with
  | setCode rc => rfl
  | setPayload bytes =>
      unfold SrvApi.apply EcServer.pairedMid
      cases w.srv.res with
      | none => rfl
      | some res =>
          dsimp only [Option.map_some, Option.bind_some]
          unfold ecPduSetPayload
          split <;> rfl
  | add call =>
      unfold SrvApi.apply EcServer.pairedMid
      cases w.srv.res <;> rfl
  | observe observing => rfl

/-- The calls of a user keep the message that the response answers. -/
theorem applyCalls_pairedMid (calls : List SrvApi) (w : EcWork) :
    (applyCalls platform calls w).srv.pairedMid = w.srv.pairedMid := by
  unfold applyCalls
  induction calls generalizing w with
  | nil => rfl
  | cons call calls ih =>
      rw [List.foldl_cons, ih]
      exact SrvApi.apply_pairedMid platform w call

theorem applyCalls_dups (calls : List SrvApi) (w : EcWork) : (applyCalls platform calls w).dups = w.dups := by
  unfold applyCalls
  induction calls generalizing w with
  | nil => rfl
  | cons call calls ih =>
      rw [List.foldl_cons, ih]
      cases call <;> rfl

theorem applyCalls_recaches (calls : List SrvApi) (w : EcWork) : w.Recaches platform (applyCalls platform calls w) := by
  have core := applyCalls_core platform calls w
  have paired := applyCalls_pairedMid platform calls w
  refine ⟨⟨congrArg ServerCore.state core, congrArg ServerCore.req core, congrArg ServerCore.conn core, ?_⟩, ?_⟩
  · intro mid same
    exact Or.inl (paired ▸ same)
  · rw [applyCalls_dups]
    exact EcDups.Recached.refl _ _

theorem ecServerEnter_sent {srv entered : EcServer} {next : EcSrvState} (enters : ecServerEnter srv next = some entered) :
    entered.sent = srv.sent := by
  unfold ecServerEnter at enters
  split at enters
  · split at enters
    · cases enters
      rfl
    · split at enters
      · obtain ⟨coap, _, same⟩ := Option.map_eq_some_iff.mp enters
        exact same ▸ rfl
      · cases enters
        rfl
  · cases enters
    rfl

theorem ecServerSetState_sent {w moved : EcWork} {next : EcSrvState} (finished : ecServerSetState w next = .ok moved) :
    moved.srv.sent = w.srv.sent := by
  unfold ecServerSetState at finished
  split at finished
  · cases finished
  · split at finished
    · cases finished
    · rename_i entered enters
      have same := ecServerEnter_sent enters
      dsimp only at finished
      split at finished <;> cases finished <;> exact same

theorem ecServerSetState_dups {w moved : EcWork} {next : EcSrvState} (finished : ecServerSetState w next = .ok moved) :
    moved.dups = w.dups := by
  unfold ecServerSetState at finished
  split at finished
  · cases finished
  · split at finished
    · cases finished
    · dsimp only at finished
      split at finished <;> cases finished <;> rfl

end Sends

section Servers

variable {platform : Platform}

theorem ecServerFail_recached {env : SendEnv} {rc : EcRc} {w failed : EcWork}
    (finished : ecServerFail platform env rc w = .ok failed) :
    w.dups.Recached (w.srv.Touches platform) failed.dups := by
  unfold ecServerFail at finished
  rw [ecServerSetState_dups finished]
  exact (ecServerReply_recaches platform env _ w).dups

/-- An answer that the user has ready touches nothing unless the server still owes it. -/
theorem ecServerReady_recached {env : SendEnv} {isCon : Bool} {w w' : EcWork} {rc : Int}
    (finished : ecServerReady platform env isCon w = .ok (w', rc)) :
    w.dups.Recached (w.srv.Owes platform) w'.dups ∧
      (rc ≠ 0 → w.Recaches platform w') := by
  have responded := ecServerSendResp_recaches platform env .response w
  unfold ecServerReady at finished
  split at finished
  · rename_i ready
    have within : w.dups.Recached (w.srv.Owes platform) (ecServerSendResp platform env .response w).1.dups :=
      responded.dups.mono fun key touched => ⟨ready, touched⟩
    dsimp only at finished
    split at finished
    · cases finished
      exact ⟨within, fun _ => responded⟩
    · obtain ⟨moved, entered, same⟩ := map_ok finished
      cases same
      rw [ecServerSetState_dups entered]
      exact ⟨within, fun nonzero => absurd rfl nonzero⟩
  · cases finished
    exact ⟨EcDups.Recached.refl _ _, fun _ => EcWork.Recaches.refl platform w⟩

theorem ecServerWait_recached {env : HandlerEnv} {isCon : Bool} {w w' : EcWork} {rc : Int}
    (finished : ecServerWait platform env isCon w = .ok (w', rc)) :
    w.dups.Recached (w.srv.Owes platform) w'.dups ∧
      (rc ≠ 0 → w.Recaches platform w') := by
  unfold ecServerWait at finished
  split at finished
  · rename_i accepted
    have acked : w.Recaches platform
        (if isCon then ecServerSendSeparateAck platform env.ack w else (w, 0)).1 := by
      split
      · exact ecServerSendSeparateAck_recaches platform env.ack w
      · exact EcWork.Recaches.refl platform w
    generalize (if isCon then ecServerSendSeparateAck platform env.ack w else (w, 0)) = ack at acked finished
    have within : w.dups.Recached (w.srv.Owes platform) ack.1.dups :=
      acked.dups.mono fun key touched => ⟨Or.inr accepted, touched⟩
    dsimp only at finished
    split at finished
    · cases finished
      exact ⟨within, fun _ => acked⟩
    · obtain ⟨resched, code, same⟩ := ecServerRescheduleUserfn_frame env.run.tv (ecServerAdd ack.1)
      rw [same] at finished
      dsimp only at finished
      split at finished
      · cases finished
        exact ⟨within, fun _ => acked.trans ⟨⟨rfl, rfl, rfl, fun _ paired => Or.inl paired⟩, EcDups.Recached.refl _ _⟩⟩
      · obtain ⟨moved, entered, same⟩ := map_ok finished
        cases same
        rw [ecServerSetState_dups entered]
        exact ⟨within, fun nonzero => absurd rfl nonzero⟩
  · cases finished
    exact ⟨EcDups.Recached.refl _ _, fun _ => EcWork.Recaches.refl platform w⟩

/-- A callback touches nothing unless its server owes an answer. -/
theorem ecServerUserfn_recached {env : HandlerEnv} {w w' : EcWork} {rc : Int}
    (finished : ecServerUserfn platform env w = .ok (w', rc)) :
    w.dups.Recached (w.srv.Owes platform) w'.dups ∧
      (rc ≠ 0 → w.Recaches platform w') := by
  unfold ecServerUserfn at finished
  split at finished
  · cases finished
    exact ⟨EcDups.Recached.refl _ _, fun _ => EcWork.Recaches.refl platform w⟩
  · rename_i isCon model
    have counted := applyCalls_recaches platform env.run.calls {w with invoked := w.invoked + 1}
    have call : w.Recaches platform (applyCalls platform env.run.calls {w with invoked := w.invoked + 1}) :=
      ⟨counted.alike, counted.dups⟩
    have same : (applyCalls platform env.run.calls {w with invoked := w.invoked + 1}).dups = w.dups :=
      applyCalls_dups platform env.run.calls {w with invoked := w.invoked + 1}
    dsimp only at finished
    generalize applyCalls platform env.run.calls {w with invoked := w.invoked + 1} = called at call same finished
    split at finished
    · obtain ⟨within, failing⟩ := ecServerReady_recached finished
      exact ⟨same ▸ within.mono fun _ owed => call.alike.owes owed, fun nonzero => call.trans (failing nonzero)⟩
    · obtain ⟨within, failing⟩ := ecServerWait_recached finished
      exact ⟨same ▸ within.mono fun _ owed => call.alike.owes owed, fun nonzero => call.trans (failing nonzero)⟩
    · cases finished
      rw [same]
      exact ⟨EcDups.Recached.refl _ _, fun _ => call⟩
    · cases finished
      rw [same]
      exact ⟨EcDups.Recached.refl _ _, fun _ => call⟩

theorem ecServerDispatch_recached {resources : List (List UInt8)} {fb : Bool} {env : HandlerEnv} {w w' : EcWork}
    {rc : EcNetCbrc} (finished : ecServerDispatch platform resources fb env w = .ok (w', rc)) :
    w.dups.Recached (w.srv.Touches platform) w'.dups := by
  unfold ecServerDispatch at finished
  split at finished
  · split at finished
    · cases finished
    · rename_i run code ran
      obtain ⟨within, failing⟩ := ecServerUserfn_recached ran
      split at finished
      · rename_i nonzero
        obtain ⟨failed, ended, same⟩ := map_ok finished
        cases same
        have before := failing nonzero
        exact before.dups.trans (fun _ => before.alike.touches) (ecServerFail_recached ended)
      · cases finished
        exact within.mono fun _ touched => touched.2
  · obtain ⟨ended, moved, same⟩ := map_ok finished
    cases same
    rw [ecServerSetState_dups moved]
    exact (ecServerReply_recaches platform env.reply ecNotFound w).dups

/-- A callback that is run again touches nothing unless its server owes an answer. -/
theorem reschedUserfn_recached {env : HandlerEnv} {w next : EcWork}
    (finished : reschedUserfn platform env w = .ok next) :
    w.dups.Recached (w.srv.Owes platform) next.dups := by
  unfold reschedUserfn at finished
  split at finished
  · cases finished
  · rename_i run rc ran
    obtain ⟨within, _⟩ := ecServerUserfn_recached ran
    split at finished
    · rw [ecServerSetState_dups finished]
      exact within
    · cases finished
      exact within

theorem ecServerWakeup_recached {env : SendEnv} {calls : List SrvApi} {w w' : EcWork} {rc : Int}
    (finished : ecServerWakeup platform env calls w = .ok (w', rc)) :
    w.dups.Recached (w.srv.Owes platform) w'.dups := by
  have call := applyCalls_recaches platform calls w
  have same := applyCalls_dups platform calls w
  unfold ecServerWakeup at finished
  dsimp only at finished
  generalize applyCalls platform calls w = called at call same finished
  split at finished
  · cases finished
    rw [same]
    exact EcDups.Recached.refl _ _
  · obtain ⟨within, _⟩ := ecServerReady_recached finished
    rw [← same]
    exact within.mono fun _ owed => call.alike.owes owed

/-- The retransmission timer touches nothing unless a retry is left. -/
theorem ecSrvCoapTimeout_recached {env : SendEnv} {w next : EcWork}
    (finished : ecSrvCoapTimeout platform env w = .ok next) :
    w.dups.Recached (fun key => w.srv.coap.retriesLeft ≠ 0 ∧ w.srv.Touches platform key) next.dups := by
  unfold ecSrvCoapTimeout at finished
  split at finished
  · rw [ecServerSetState_dups finished]
    exact EcDups.Recached.refl _ _
  · rename_i left
    split at finished
    · cases finished
    · rename_i retried moved
      have waiting : w.srv.state = .waitAck := by
        unfold ecServerSetState at moved
        split at moved
        · cases moved
        · rename_i permitted
          simpa [ecServerCheckTransition] using permitted
      rw [ecServerSetState_stay _ .coapRetry (by rw [waiting]; rfl) rfl (by decide)] at moved
      cases moved
      have responded := ecServerSendResp_recaches platform env .retransmission
        {w with srv := {w.srv with state := .coapRetry}}
      have within : w.dups.Recached (fun key => w.srv.coap.retriesLeft ≠ 0 ∧ w.srv.Touches platform key)
          (ecServerSendResp platform env .retransmission {w with srv := {w.srv with state := .coapRetry}}).1.dups := by
        apply responded.dups.mono
        rintro key ⟨mid, same, paired | ⟨_, request⟩⟩
        · exact ⟨left, mid, same, Or.inl paired⟩
        · exact ⟨left, mid, same, Or.inr ⟨by rw [waiting]; decide, request⟩⟩
      dsimp only at finished
      split at finished
      · rw [ecServerSetState_dups finished]
        exact within
      · rw [ecServerSetState_dups finished]
        exact within

/-- The control messages that are answered with an error, whatever state the server is in. -/
def ControlFails (h : EcHdr) (srv : EcServer) : Prop :=
  match h.t with
  | .rst => False
  | .ack => srv.state ≠ .waitAck
  | .con | .non => True

theorem ControlFails.of_ack {h : EcHdr} {srv : EcServer} (ack : h.t = .ack) (other : srv.state ≠ .waitAck) :
    ControlFails h srv := by
  unfold ControlFails
  rw [ack]
  exact other

theorem ControlFails.of_own {h : EcHdr} {srv : EcServer} (own : h.t = .con ∨ h.t = .non) : ControlFails h srv := by
  unfold ControlFails
  rcases own with con | non
  · rw [con]
    trivial
  · rw [non]
    trivial

/-- A control message touches nothing unless it is answered with an error. -/
theorem ecServerControlled_recached {h : EcHdr} {input : ServerInput} {w ended : EcWork} {rc : EcNetCbrc}
    (finished : ecServerControlled platform h input w = .ok (ended, rc)) :
    w.dups.Recached (fun key => ControlFails h w.srv ∧ w.srv.Touches platform key) ended.dups := by
  have failing : ∀ code, (ecServerFail platform input.env.reply code w).map (fun failed => (failed, EcNetCbrc.error)) =
      .ok (ended, rc) → w.dups.Recached (w.srv.Touches platform) ended.dups := by
    intro code failed
    obtain ⟨replied, reply, same⟩ := map_ok failed
    cases same
    exact ecServerFail_recached reply
  unfold ecServerControlled at finished
  split at finished
  · obtain ⟨moved, entered, same⟩ := map_ok finished
    cases same
    rw [ecServerSetState_dups entered]
    exact EcDups.Recached.refl _ _
  · rename_i ack
    split at finished
    · rename_i other
      exact (failing _ finished).mono fun key touched => ⟨ControlFails.of_ack ack other, touched⟩
    · obtain ⟨moved, entered, same⟩ := map_ok finished
      cases same
      rw [ecServerSetState_dups entered]
      exact EcDups.Recached.refl _ _
  · rename_i con
    exact (failing _ finished).mono fun key touched => ⟨ControlFails.of_own (Or.inl con), touched⟩
  · rename_i non
    exact (failing _ finished).mono fun key touched => ⟨ControlFails.of_own (Or.inr non), touched⟩

/-- A request touches at most the records of its own MID. -/
theorem ecServerProcess_recached {resources : List (List UInt8)} {fb : Bool} {h : EcHdr} {input : ServerInput}
    {w w' : EcWork} {rc : EcNetCbrc} (created : w.srv = ecServerNew)
    (finished : ecServerProcess platform resources fb h input w = .ok (w', rc)) :
    w.dups.Recached (fun key => ∃ peer, key = ecDupKeyNew platform h.mid peer ∧
      (peer = input.peer ∨ input.sd = 0 ∧ peer = SockAddr.zero)) w'.dups := by
  rcases ecServerProcess_cases created finished with ⟨_, flow, code, ended⟩ | ⟨flow, prepares, dispatched⟩
  · apply (ecServerFail_recached ended).mono
    -- A server without a request and a response has nothing to cache.
    rintro key ⟨mid, _, paired | ⟨_, request⟩⟩
    · cases paired
    · cases request
  · apply (ecServerDispatch_recached dispatched).mono
    rintro key ⟨mid, same, paired | ⟨_, request⟩⟩
    · cases paired
    · have own : h.mid = mid := Option.some.inj request
      exact ⟨_, own ▸ same, prepares.peer⟩

end Servers

/-- Work of a client: its request answers what it did, and no other records than the touched ones got a reply. -/
structure CliWork.Recaches (touched : DupKey → Prop) (w w' : CliWork) : Prop where
  sibling : w'.cli.req.sibling = w.cli.req.sibling
  dups : w.dups.Recached (fun key => w.cli.req.sibling ≠ none ∨ touched key) w'.dups

/-- The record of the response that the end of a transaction acknowledges. -/
def EcClient.Acked (platform : Platform) (cli : EcClient) (next : EcCliState) (key : DupKey) : Prop :=
  next = .reqDone ∧ (cli.state = .reqAckd ∧ cli.flow.conn.isConfirmable.getD false = true) ∧
    ∃ res, ecClientGetResponsePdu cli = some res ∧ key = ecDupKeyNew platform res.hdrBits.mid cli.flow.conn.peer

theorem CliWork.Recaches.of_same {touched : DupKey → Prop} {w w' : CliWork} (req : w'.cli.req = w.cli.req)
    (dups : w'.dups = w.dups) : w.Recaches touched w' :=
  ⟨congrArg EcPdu.sibling req, dups ▸ EcDups.Recached.refl _ _⟩

theorem CliWork.Recaches.trans {touched : DupKey → Prop} {w middle w' : CliWork} (first : w.Recaches touched middle)
    (second : middle.Recaches touched w') : w.Recaches touched w' where
  sibling := second.sibling.trans first.sibling
  dups := first.dups.trans (fun _ inside => first.sibling ▸ inside) second.dups

theorem CliWork.Recaches.mono {touched touched' : DupKey → Prop} {w w' : CliWork} (recaches : w.Recaches touched w')
    (within : ∀ key, touched key → touched' key) : w.Recaches touched' w' :=
  ⟨recaches.sibling, recaches.dups.mono fun key inside => inside.imp id (within key)⟩

/-- What is left of an outcome when it is a result: the faults do not matter here. -/
abbrev CliWork.Leaves {Result : Type} (work : Result → CliWork) (touched : DupKey → Prop) (w : CliWork)
    (outcome : Except EcFault Result) : Prop :=
  Avoids (fun _ => False) (fun result => w.Recaches touched (work result)) outcome

section Clients

variable (platform : Platform)

theorem ecClientSendAck_recaches (sent : Bool) (w : CliWork) :
    w.Recaches (fun key => ∃ res, ecClientGetResponsePdu w.cli = some res ∧
      key = ecDupKeyNew platform res.hdrBits.mid w.cli.flow.conn.peer) (ecClientSendAck platform sent w) := by
  unfold ecClientSendAck
  cases shown : ecClientGetResponsePdu w.cli with
  | none => exact CliWork.Recaches.of_same rfl rfl
  | some res =>
      have paired : ecPduSetSibling ecPduNewEmpty (some res.hdrBits.mid) =
          ({ecPduNewEmpty with sibling := some res.hdrBits.mid}, 0) := rfl
      have encoded : ecPduEncodeResponseAck platform.order (ecClientAdHocFlow w.cli)
          {ecPduNewEmpty with sibling := some res.hdrBits.mid} = (separateAck platform.order res.hdrBits.mid, 0) := rfl
      rw [Option.map_some, paired]
      dsimp only
      rw [if_neg (by decide), encoded]
      dsimp only
      rw [if_neg (by decide)]
      refine ⟨rfl, ?_⟩
      apply (ecPduSend_recached platform sent (ecClientAdHocFlow w.cli) (separateAck platform.order res.hdrBits.mid)
        w.dups true).mono
      rintro key ⟨_, mid, sibling, same⟩
      have own : some res.hdrBits.mid = some mid := sibling
      exact Or.inr ⟨res, rfl, by rw [Option.some.inj own]; exact same⟩

theorem ecClientRstPeer_recaches (sent : Bool) (w : CliWork) :
    w.Recaches (fun _ => False) (ecClientRstPeer platform sent w) := by
  unfold ecClientRstPeer
  dsimp only
  split
  · exact CliWork.Recaches.of_same rfl rfl
  · split
    · exact CliWork.Recaches.of_same rfl rfl
    · exact CliWork.Recaches.of_same rfl rfl

theorem ecClientEnter_recaches (sent : Bool) (next : EcCliState) (w : CliWork) :
    w.Leaves id (w.cli.Acked platform next)
      (ecClientEnter platform sent (w.cli.flow.conn.isConfirmable.getD false) next w) := by
  have timed : ∀ cli : EcClient, cli.req = w.cli.req → w.Recaches (w.cli.Acked platform next) {w with cli := cli} :=
    fun cli req => CliWork.Recaches.of_same req rfl
  unfold ecClientEnter
  split
  · split
    · dsimp only
      split
      · exact id
      · exact timed _ (by split <;> rfl)
    · split
      · unfold ecCliRestartCoapTimer
        cases coapTimerRestart w.cli.coap with
        | none => exact id
        | some coap => exact timed _ rfl
      · exact timed _ rfl
  · split
    · unfold ecCliRestartObsTimer
      cases ecTimerRestart w.cli.obs with
      | none => exact id
      | some obs => exact timed _ rfl
    · dsimp only
      split
      · split
        · exact id
        · exact timed _ rfl
      · split
        · exact id
        · exact timed _ rfl
  · exact timed _ (by split <;> rfl)
  · split
    · rename_i acked
      exact (ecClientSendAck_recaches platform sent w).mono fun key found => ⟨rfl, acked, found⟩
    · exact timed _ rfl
  · exact timed _ rfl

theorem ecClientSetState_recaches (sent : Bool) (w : CliWork) (next : EcCliState) :
    w.Leaves Prod.fst (w.cli.Acked platform next) (ecClientSetState platform sent w next) := by
  have entering := ecClientEnter_recaches platform sent next w
  unfold ecClientSetState
  split
  · exact id
  · dsimp only
    split
    · exact id
    · rename_i entered stepped
      have first : w.Recaches (w.cli.Acked platform next) entered := entering.of_ok stepped
      have moved : w.Recaches (w.cli.Acked platform next) {entered with cli := entered.cli.enter next} :=
        first.trans (CliWork.Recaches.of_same rfl rfl)
      have told : ∀ cancelled : Bool, w.Recaches (w.cli.Acked platform next)
          (if cancelled then ecClientRstPeer platform sent {entered with cli := entered.cli.enter next}
            else {entered with cli := entered.cli.enter next}) := by
        intro cancelled
        split
        · exact moved.trans ((ecClientRstPeer_recaches platform sent _).mono fun _ => False.elim)
        · exact moved
      have finished : ∀ (isCon : Bool) (cli : EcClient), (ecClientFinish isCon cli).req = cli.req := by
        intro isCon cli
        unfold ecClientFinish
        cases isCon <;> cases cli.userown <;> rfl
      split
      · exact (told _).trans (CliWork.Recaches.of_same (finished _ _) rfl)
      · exact told _

/-- A transition to any state but the end of a transaction sends nothing that answers a message. -/
theorem ecClientSetState_leaves (sent : Bool) (w : CliWork) (next : EcCliState) (other : next ≠ .reqDone) :
    w.Leaves Prod.fst (fun _ => False) (ecClientSetState platform sent w next) :=
  (ecClientSetState_recaches platform sent w next).weaken fun _ recaches =>
    recaches.mono fun _ acked => other acked.1

/-- A request in a message of its own touches nothing when it answers none. -/
theorem ecPduSend_request (sent : Bool) (flow : EcFlow) (w : CliWork) (touched : DupKey → Prop) :
    w.dups.Recached (fun key => w.cli.req.sibling ≠ none ∨ touched key)
      (ecPduSend platform sent flow w.cli.req w.dups true).dups := by
  apply (ecPduSend_recached platform sent flow w.cli.req w.dups true).mono
  rintro key ⟨_, mid, sibling, _⟩
  exact Or.inl (by rw [sibling]; exact Option.some_ne_none mid)

theorem ecClientConnect_recaches (ais : List AddrInfo) (w : CliWork) :
    w.Leaves Prod.fst (fun _ => False) (ecClientConnect platform ais w) := by
  induction ais generalizing w with
  | nil => exact CliWork.Recaches.of_same rfl rfl
  | cons ai ais ih =>
      have continued : ∀ start : CliWork, w.Recaches (fun _ => False) start →
          w.Leaves Prod.fst (fun _ => False) (ecClientConnect platform ais start) := fun start before =>
        (ih start).weaken fun _ after => before.trans after
      unfold ecClientConnect
      dsimp only
      split
      · exact continued _ (CliWork.Recaches.of_same rfl rfl)
      · split
        · exact CliWork.Recaches.of_same rfl rfl
        · split
          · exact continued _ ⟨rfl, ecPduSend_request platform _ _ w _⟩
          · rename_i datagram _
            have logged : w.Recaches (fun _ => False) ⟨EcClient.log {w.cli with flow := {w.cli.flow with
                conn := {w.cli.flow.conn with socket := ai.socket, peer := ai.addr}}} .request (some datagram),
                (ecPduSend platform ai.sent {w.cli.flow with
                  conn := {w.cli.flow.conn with socket := ai.socket, peer := ai.addr}} w.cli.req w.dups true).dups⟩ :=
              ⟨rfl, ecPduSend_request platform _ _ w _⟩
            split
            · rw [CliWork.Leaves, avoids_map]
              exact (ecClientSetState_leaves platform false _ .reqSent (by decide)).weaken fun _ after =>
                logged.trans after
            · rw [CliWork.Leaves, avoids_map]
              exact (ecClientSetState_leaves platform false _ .internalErr (by decide)).weaken fun _ after =>
                logged.trans after

theorem ecClientOpen_recaches (env : DnsEnv) (ais : List AddrInfo) (w : CliWork) :
    w.Leaves Prod.fst (fun _ => False) (ecClientOpen platform env ais w) := by
  unfold ecClientOpen
  split
  · have logged : ∀ datagram, w.Recaches (fun _ => False) ⟨w.cli.log .request datagram,
        (ecPduSend platform env.sent w.cli.flow w.cli.req w.dups true).dups⟩ := fun _ =>
      ⟨rfl, ecPduSend_request platform _ _ w _⟩
    dsimp only
    split
    · rw [CliWork.Leaves, avoids_map]
      exact (ecClientSetState_leaves platform false _ .internalErr (by decide)).weaken fun _ after =>
        (logged _).trans after
    · rw [CliWork.Leaves, avoids_map]
      exact (ecClientSetState_leaves platform false _ .reqSent (by decide)).weaken fun _ after =>
        (logged _).trans after
  · have closed : ∀ flow, w.Recaches (fun _ => False) {w with cli := {w.cli with flow := flow}} := fun _ =>
      CliWork.Recaches.of_same rfl rfl
    exact (ecClientConnect_recaches platform ais _).weaken fun _ after => (closed _).trans after

theorem ecClientDnsCb_recaches (env : DnsEnv) (w : CliWork) :
    w.Leaves id (fun _ => False) (ecClientDnsCb platform env w) := by
  have answered : w.Recaches (fun _ => False) {w with cli := {w.cli with dnsReq := false}} :=
    CliWork.Recaches.of_same rfl rfl
  have ended : ∀ (start : CliWork) (next : EcCliState), next ≠ .reqDone → w.Recaches (fun _ => False) start →
      w.Leaves id (fun _ => False) ((ecClientSetState platform false start next).map fun moved => moved.1) := by
    intro start next other before
    rw [CliWork.Leaves, avoids_map]
    exact (ecClientSetState_leaves platform false start next other).weaken fun _ after => before.trans after
  unfold ecClientDnsCb
  dsimp only
  split
  · exact ended _ _ (by decide) answered
  · rename_i ais _
    split
    · exact id
    · rename_i resolved final moved
      have before : w.Recaches (fun _ => False) resolved :=
        answered.trans ((ecClientSetState_leaves platform false _ .dnsOk (by decide)).of_ok moved)
      have stored : w.Recaches (fun _ => False) {resolved with cli := {resolved.cli with
          req := (ecPduEncodeRequest platform.order env.rng resolved.cli.flow resolved.cli.req).1}} :=
        before.trans ⟨ecPduEncodeRequest_sibling platform.order env.rng _ _, EcDups.Recached.refl _ _⟩
      split
      · exact ended _ _ (by decide) stored
      · split
        · exact id
        · rename_i opened goesOn sent
          have opening : w.Recaches (fun _ => False) opened :=
            stored.trans ((ecClientOpen_recaches platform env ais _).of_ok sent)
          split
          · exact opening
          · split
            · exact ended _ _ (by decide) opening
            · exact opening.trans (CliWork.Recaches.of_same rfl rfl)

theorem ecCliCoapTimeout_recaches (sent : Bool) (w : CliWork) :
    w.Leaves id (fun _ => False) (ecCliCoapTimeout platform sent w) := by
  unfold ecCliCoapTimeout
  split
  · rw [CliWork.Leaves, avoids_map]
    exact ecClientSetState_leaves platform sent w .coapTimeout (by decide)
  · split
    · exact id
    · rename_i retried final moved
      have before : w.Recaches (fun _ => False) retried :=
        (ecClientSetState_leaves platform sent w .coapRetry (by decide)).of_ok moved
      have logged : ∀ datagram, w.Recaches (fun _ => False) ⟨retried.cli.log .request datagram,
          (ecPduSend platform sent retried.cli.flow retried.cli.req retried.dups true).dups⟩ := fun _ =>
        before.trans ⟨rfl, ecPduSend_request platform _ _ retried _⟩
      dsimp only
      rw [CliWork.Leaves, avoids_map]
      refine (ecClientSetState_leaves platform sent _ _ ?_).weaken fun _ after => (logged _).trans after
      split <;> decide

/-- The record that the handling of a response touches: the one of the response that the user gets to see. -/
def EcClient.Answers (platform : Platform) (cli : EcClient) (h : EcHdr) (input : Incoming) (key : DupKey) : Prop :=
  cli.TakesIn h input ∧ (∃ observe, cli.judged platform.order h input = some observe ∧ observe.asks = .reqDone) ∧
    (cli.state = .reqAckd ∧ cli.flow.conn.isConfirmable.getD false = true) ∧
    key = ecDupKeyNew platform (cli.shown h input).hdrBits.mid cli.flow.conn.peer

theorem ecClientHandleNew_recaches (w : CliWork) (h : EcHdr) (input : Incoming) :
    w.Leaves Prod.fst (fun key => h.code ≠ 0 ∧ w.cli.Answers platform h input key)
      (ecClientHandleNew platform w h input) := by
  by_cases code : h.code = 0
  · unfold ecClientHandleNew
    rw [if_pos code, CliWork.Leaves, avoids_map]
    have quiet : ∀ next, next ≠ .reqDone → w.Leaves Prod.fst (fun key => h.code ≠ 0 ∧ w.cli.Answers platform h input key)
        (ecClientSetState platform input.sent w next) := fun next other =>
      (ecClientSetState_leaves platform input.sent w next other).weaken fun _ after => after.mono fun _ => False.elim
    unfold ecClientHandleEmptyPdu
    split
    · rw [avoids_map]
      exact quiet .reqAckd (by decide)
    · rw [avoids_map]
      exact quiet .reqRst (by decide)
    · exact CliWork.Recaches.of_same rfl rfl
    · exact CliWork.Recaches.of_same rfl rfl
  · by_cases taken : w.cli.TakesIn h input
    · cases judged : w.cli.judged platform.order h input with
      | none =>
          rw [ecClientHandleNew_stale platform code taken judged]
          exact CliWork.Recaches.of_same rfl rfl
      | some observe =>
          have moving := ecClientSetState_recaches platform input.sent
            {w with cli := {w.cli.added h input with observe := observe}} observe.asks
          have within : ∀ key, EcClient.Acked platform {w.cli.added h input with observe := observe} observe.asks key →
              h.code ≠ 0 ∧ w.cli.Answers platform h input key := by
            rintro key ⟨done, acked, res, shown, same⟩
            have first : w.cli.shown h input = res := Option.some.inj ((w.cli.added_shown h input).symm.trans shown)
            exact ⟨code, taken, ⟨observe, judged, done⟩, acked, by rw [first]; exact same⟩
          have added : w.Recaches (fun key => h.code ≠ 0 ∧ w.cli.Answers platform h input key)
              {w with cli := {w.cli.added h input with observe := observe}} := CliWork.Recaches.of_same rfl rfl
          unfold ecClientHandleNew
          rw [if_neg code, ecClientTakeResponse_taken platform taken, judged]
          dsimp only
          rw [CliWork.Leaves, avoids_map]
          apply moving.weaken
          intro moved after
          have before := added.trans (after.mono within)
          split
          · exact before
          · split
            · exact before.trans (CliWork.Recaches.of_same rfl rfl)
            · exact before
    · rw [ecClientHandleNew_refused platform code taken]
      exact CliWork.Recaches.of_same rfl rfl

end Clients

/-- What an event does to the records that a client shares: it takes a message in, or nothing but the answers to its
own request are at stake. -/
theorem clientStep_recaches (platform : Platform) {w next : CliWork} {event : ClientEvent}
    (alone : ∀ dups, event ≠ .shared dups) (finished : clientStep platform w event = .ok next) :
    w.Recaches (fun _ => False) next ∨
      ∃ input h, event = .datagram input ∧ w.Hears platform input h ∧
        (w.seen platform input h).Recaches (fun key => h.code ≠ 0 ∧ w.cli.Answers platform h input key) next := by
  have timed : ∀ cli : EcClient, cli.req = w.cli.req → w.Recaches (fun _ => False) {w with cli := cli} :=
    fun _ req => CliWork.Recaches.of_same req rfl
  have quiet : w.Recaches (fun _ => False) w := timed w.cli rfl
  cases clientStep_work finished with
  | idle event => exact Or.inl quiet
  | resolved env next worked => exact Or.inl ((ecClientDnsCb_recaches platform env w).of_ok worked)
  | heard input h handled hears worked =>
      have heard := (ecClientHandleNew_recaches platform (w.seen platform input h) h input).of_ok worked
      exact Or.inr ⟨input, h, rfl, hears, heard⟩
  | appTimeout sent next worked =>
      obtain ⟨moved, entered, same⟩ := map_ok worked
      subst same
      have after := (ecClientSetState_leaves platform sent _ .appTimeout (by decide)).of_ok entered
      exact Or.inl ((timed _ (by rfl)).trans after)
  | coapTimeout sent next worked =>
      have after := (ecCliCoapTimeout_recaches platform sent _).of_ok worked
      exact Or.inl ((timed _ (by rfl)).trans after)
  | obsTimeout sent next worked =>
      obtain ⟨moved, entered, same⟩ := map_ok worked
      subst same
      have after := (ecClientSetState_leaves platform sent _ .obsTimeout (by decide)).of_ok entered
      exact Or.inl ((timed _ (by rfl)).trans after)
  | cancel => exact Or.inl (CliWork.Recaches.of_same rfl rfl)
  | shared dups => exact absurd rfl (alone dups)

section Events

variable {platform : Platform} {b b' : EcBase}

/-- The records whose replies an event can replace, told from the base before it. -/
def EcBase.Touches (platform : Platform) (b : EcBase) (event : BaseEvent) (key : DupKey) : Prop :=
  match event with
  | .datagram input => ∃ h, b.Accepts platform input h ∧
      ((∃ id srv, h.code = 0 ∧ ecServersLookup b h.mid input.sd input.peer = some id ∧ b.heap id = some srv ∧
          ControlFails h srv ∧ srv.Touches platform key) ∨
        (ecIsMethod h.code.toNat ∧ ∃ peer, key = ecDupKeyNew platform h.mid peer ∧
          (peer = input.peer ∨ input.sd = 0 ∧ peer = SockAddr.zero)))
  | .rescheduled id _ | .wakeup id _ _ =>
      ∃ srv, b.heap id = some srv ∧ srv.freed = false ∧ srv.Owes platform key
  | .coapTimeout id _ => ∃ srv, b.heap id = some srv ∧ srv.freed = false ∧ srv.coap.pending = true ∧
      srv.coap.retriesLeft ≠ 0 ∧ srv.Touches platform key
  | .request cli _ _ => cli.req.sibling ≠ none
  | .client cid event => ∃ cli, b.clients[cid]? = some cli ∧ (cli.req.sibling ≠ none ∨
      ∃ input h, event = .datagram input ∧ CliWork.Hears platform ⟨cli, b.dups⟩ input h ∧ h.code ≠ 0 ∧
        cli.Answers platform h input key)
  | .countdown _ | .registry _ | .callbacks _ _ => False

/-- What an event does to the records: one may come, and one may go, and some may get another reply. -/
inductive EcBase.Records (platform : Platform) (b : EcBase) : BaseEvent → EcDups → Prop where
  | kept (event : BaseEvent) (dups : EcDups) (same : b.dups.Recached (b.Touches platform event) dups) :
      b.Records platform event dups
  | received (input : ServerInput) (h : EcHdr) (dups : EcDups) (accepts : b.Accepts platform input h)
      (same : (b.seen platform input h).dups.Recached (b.Touches platform (.datagram input)) dups) :
      b.Records platform (.datagram input) dups
  | heard (cid : Nat) (cli : EcClient) (input : Incoming) (h : EcHdr) (dups : EcDups)
      (stored : b.clients[cid]? = some cli) (hears : CliWork.Hears platform ⟨cli, b.dups⟩ input h)
      (same : (ecDupsInsert platform b.dups input.peer h.mid input.raw).Recached
        (b.Touches platform (.client cid (.datagram input))) dups) :
      b.Records platform (.client cid (.datagram input)) dups
  | zapped (key : DupKey) : b.Records platform (.countdown key) (ecDupZap b.dups key)

theorem ecServerMatched_recached {h : EcHdr} {input : ServerInput} {rc : EcNetCbrc}
    (accepts : b.Accepts platform input h) (empty : h.code = 0)
    (finished : ecServerMatched platform (b.seen platform input h) h input = .ok (b', rc)) :
    (b.seen platform input h).dups.Recached (b.Touches platform (.datagram input)) b'.dups := by
  unfold ecServerMatched at finished
  split at finished
  · cases finished
    exact EcDups.Recached.refl _ _
  · rename_i id found
    split at finished
    · cases finished
    · rename_i srv stored
      obtain ⟨⟨w, outcome⟩, worked, same⟩ := map_ok finished
      cases same
      exact (ecServerControlled_recached worked).mono fun key touched =>
        ⟨h, accepts, Or.inl ⟨id, srv, empty, found, stored, touched.1, touched.2⟩⟩

/-- A message that is accepted gets its record before anything else happens to the map. -/
theorem ecServerHandlePdu_received {h : EcHdr} {input : ServerInput} {rc : EcNetCbrc}
    (accepts : b.Accepts platform input h) (finished : ecServerHandlePdu platform b input = .ok (b', rc)) :
    (b.seen platform input h).dups.Recached (b.Touches platform (.datagram input)) b'.dups := by
  rw [ecServerHandlePdu_new platform b input h accepts] at finished
  unfold ecServerHandleNew at finished
  split at finished
  · rename_i empty
    unfold ecServerControl at finished
    split at finished
    · dsimp only at finished
      split at finished
      · cases finished
        exact EcDups.Recached.refl _ _
      · split at finished
        · cases finished
          exact EcDups.Recached.refl _ _
        · exact ecServerMatched_recached accepts empty finished
    · exact ecServerMatched_recached accepts empty finished
  · split at finished
    · rename_i method
      unfold ecServerRequest at finished
      dsimp only at finished
      obtain ⟨⟨w, outcome⟩, worked, same⟩ := map_ok finished
      cases same
      exact (ecServerProcess_recached rfl worked).mono fun key touched => ⟨h, accepts, Or.inr ⟨method, touched⟩⟩
    · cases finished
      exact EcDups.Recached.refl _ _

theorem ecServerHandlePdu_records {input : ServerInput} {rc : EcNetCbrc}
    (finished : ecServerHandlePdu platform b input = .ok (b', rc)) : b.Records platform (.datagram input) b'.dups := by
  rcases ecServerHandlePdu_cases platform b input with ⟨resent, other, quiet⟩ | ⟨h, accepts⟩
  · rw [quiet] at finished
    cases finished
    exact .kept _ _ (EcDups.Recached.refl _ _)
  · exact .received input h _ accepts (ecServerHandlePdu_received accepts finished)

theorem EcBase.clientStep_records {cid : Nat} {event : ClientEvent}
    (finished : b.clientStep platform cid event = .ok b') : b.Records platform (.client cid event) b'.dups := by
  unfold clientStep at finished
  split at finished
  · cases finished
    exact .kept _ _ (EcDups.Recached.refl _ _)
  · cases finished
    exact .kept _ _ (EcDups.Recached.refl _ _)
  · rename_i cli stored unshared
    obtain ⟨w, stepped, same⟩ := map_ok finished
    subst same
    rcases clientStep_recaches platform unshared stepped with recaches | ⟨input, h, same, hears, recaches⟩
    · exact .kept _ _ (recaches.dups.mono fun key inside => ⟨cli, stored, inside.imp id False.elim⟩)
    · subst same
      exact .heard cid cli input h _ stored hears (recaches.dups.mono fun key inside =>
        ⟨cli, stored, inside.imp id fun answers => ⟨input, h, rfl, hears, answers⟩⟩)

/-- What one event can do to the records of a base. -/
theorem baseStep_records {event : BaseEvent} (finished : baseStep platform b event = .ok b') :
    b.Records platform event b'.dups := by
  have unchanged : b.Records platform event b.dups := .kept _ _ (EcDups.Recached.refl _ _)
  cases event with
  | datagram input =>
      obtain ⟨⟨handled, rc⟩, stepped, same⟩ := map_ok finished
      cases same
      exact ecServerHandlePdu_records stepped
  | rescheduled id env =>
      rcases EcBase.fire_ok finished with same | ⟨srv, w, stored, armed, live, worked, same⟩
      · exact same ▸ unchanged
      · subst same
        exact .kept _ _ ((reschedUserfn_recached worked).mono fun key owed => ⟨srv, stored, live, owed⟩)
  | coapTimeout id env =>
      rcases EcBase.fire_ok finished with same | ⟨srv, w, stored, armed, live, worked, same⟩
      · exact same ▸ unchanged
      · subst same
        exact .kept _ _ ((ecSrvCoapTimeout_recached worked).mono fun key touched =>
          ⟨srv, stored, live, armed, touched.1, touched.2⟩)
  | wakeup id calls env =>
      dsimp only [baseStep] at finished
      split at finished
      · cases finished
        exact unchanged
      · rename_i srv stored
        split at finished
        · cases finished
          exact unchanged
        · rename_i live
          obtain ⟨⟨w, rc⟩, worked, same⟩ := map_ok finished
          subst same
          exact .kept _ _ ((ecServerWakeup_recached worked).mono fun key owed =>
            ⟨srv, stored, by simpa using live, owed⟩)
  | countdown key =>
      cases finished
      exact .zapped key
  | registry observing =>
      cases finished
      exact unchanged
  | callbacks resources fb =>
      cases finished
      exact unchanged
  | request cli tout destination =>
      dsimp only [baseStep] at finished
      split at finished
      · obtain ⟨⟨started, rc⟩, go, same⟩ := map_ok finished
        subst same
        unfold ecClientGo at go
        split at go
        · cases go
          exact unchanged
        · obtain ⟨moved, entered, same⟩ := map_ok go
          cases same
          have after := (ecClientSetState_leaves platform false ⟨cli, b.dups⟩ .internalErr (by decide)).of_ok entered
          exact .kept _ _ (after.dups.mono fun key inside => inside.elim id False.elim)
      · cases finished
        exact unchanged
  | client cid event => exact EcBase.clientStep_records finished

end Events

end Webthings.Evcoap
