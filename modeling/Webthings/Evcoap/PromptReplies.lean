import Webthings.Evcoap.Replay
import Webthings.Evcoap.Wire

namespace Webthings.Evcoap
open Webthings.Transition

/-- A new request for a callback that is ready at once, with a response that can be sent and that a receiver reads
whole. -/
structure EcBase.Prompt (platform : Platform) (b : EcBase) (input : ServerInput) (h : EcHdr) : Prop extends
    b.Immediate platform input h where
  short : (requestToken (ecServerBody input.raw input.beyond).decoded.opts).length ≤ ecFlowTokenMax
  connected : input.sd ≠ 0
  taken : input.env.response.sent = true
  encodes : (calledPdu platform input.env.run.calls ecPduNewEmpty).opts.Encodes
    (requestToken (ecServerBody input.raw input.beyond).decoded.opts)
  faithful : WireFaithful (mirrorToken (calledPdu platform input.env.run.calls ecPduNewEmpty).opts
    (requestToken (ecServerBody input.raw input.beyond).decoded.opts)).1.bundle.list
  few : (mirrorToken (calledPdu platform input.env.run.calls ecPduNewEmpty).opts
      (requestToken (ecServerBody input.raw input.beyond).decoded.opts)).1.bundle.list.length +
    fencepostCount 0 (mirrorToken (calledPdu platform input.env.run.calls ecPduNewEmpty).opts
      (requestToken (ecServerBody input.raw input.beyond).decoded.opts)).1.bundle.list ≤ ecProtoMaxOptions

/-- A message has the response code, the options and the payload that a callback has given its response, with the
token of the request. -/
structure EcPdu.Tells (platform : Platform) (run : CallbackRun) (token : List UInt8) (pdu : EcPdu) : Prop where
  code : pdu.hdrBits.code = rcByte (calledCode run.calls ecRcUnset)
  options : WithToken (calledPdu platform run.calls ecPduNewEmpty).opts token pdu.opts.bundle.list
  payload : pdu.payload = (calledPdu platform run.calls ecPduNewEmpty).payload

/-- Whoever receives a datagram, a host of either byte order, reads the response of a callback from it. -/
def Datagram.Bears (platform : Platform) (run : CallbackRun) (token : List UInt8) (d : Datagram) : Prop :=
  ∃ os, WithToken (calledPdu platform run.calls ecPduNewEmpty).opts token os ∧ ∀ order beyond, ∃ h,
    h.code = rcByte (calledCode run.calls ecRcUnset) ∧
    Survives order d.bytes beyond h os (calledPdu platform run.calls ecPduNewEmpty).payload

/-- What a handler makes of a message that it reads whole. -/
theorem EcBody.Carries.pdu {body : EcBody} {raw : List UInt8} {os : List EcOpt} {payload : List UInt8}
    (carries : body.Carries raw os payload) (h : EcHdr) : (body.pdu raw h).hdrBits = h ∧
      (body.pdu raw h).opts.bundle.list = os ∧ (body.pdu raw h).payload = payload :=
  ⟨rfl, carries.options, carries.payload⟩

section Calls

variable {platform : Platform}

theorem applyCalls_invoked (calls : List SrvApi) (w : EcWork) : (applyCalls platform calls w).invoked = w.invoked := by
  unfold applyCalls
  induction calls generalizing w with
  | nil => rfl
  | cons call calls ih =>
      rw [List.foldl_cons, ih]
      cases call <;> rfl

/-- The options of a callback's response have not been encoded yet. -/
theorem calledPdu_unencoded (calls : List SrvApi) {res : EcPdu} (unencoded : res.opts.Unencoded) :
    (calledPdu platform calls res).opts.Unencoded := by
  unfold calledPdu
  induction calls generalizing res with
  | nil => exact unencoded
  | cons call calls ih =>
      rw [List.foldl_cons]
      apply ih
      cases call with
      | setCode rc => exact unencoded
      | setPayload payload =>
          unfold ecPduSetPayload
          dsimp only
          split <;> exact unencoded
      | add call => exact unencoded_adderInvariant.apply platform.order platform.isAbsolute res.opts call unencoded
      | observe observing => exact unencoded

end Calls

section Requests

variable {platform : Platform} {b : EcBase} {input : ServerInput} {h : EcHdr}

/-- A response to a request that is not acknowledged is encoded as a piggybacked one, or as a message of its own. -/
theorem EcServer.Owing.encoded {srv : EcServer} {conn : EcConn} {mid : UInt16} {token : List UInt8} {env : SendEnv}
    {isCon : Bool} {res : EcPdu} (owing : srv.Owing mid conn token) (responds : srv.Responds res isCon env.sent)
    (sibling : res.sibling = none ∨ res.sibling = some mid) (order : ByteOrder) : ∃ encoding : PduEncoding,
      encoding.encode order srv.flow {res with sibling := some mid} = (srv.encodedResp order env isCon res, 0) ∧
      encoding.optionSet srv.flow res.opts = (mirrorToken res.opts token).1 ∧
      (encoding.header srv.flow {res with sibling := some mid}).code = rcByte srv.flow.respCode := by
  have encoded := (ecServerEncodeResp_ok_iff order env srv isCon res responds.code responds.model responds.pairs).mpr
    responds.encodes
  have paired := owing.pairs sibling
  have made : ecServerEncodeResp order env srv isCon {res with sibling := some mid} =
      (srv.encodedResp order env isCon res, 0) := by
    rw [paired] at encoded
    unfold EcServer.encodedResp
    rw [paired]
    exact Prod.ext rfl encoded
  unfold ecServerEncodeResp at made
  split at made
  · exact ⟨.piggyback, made, by rw [← owing.token]; rfl, rfl⟩
  · exact ⟨.separate env, made, by rw [← owing.token]; rfl, rfl⟩

/-- The response of a callback is read from the datagram in which it is sent. -/
theorem EcServer.Owing.bears {srv : EcServer} {conn : EcConn} {mid : UInt16} {token : List UInt8} {env : SendEnv}
    {isCon : Bool} {run : CallbackRun} (owing : srv.Owing mid conn token)
    (responds : srv.Responds (calledPdu platform run.calls ecPduNewEmpty) isCon env.sent)
    (code : srv.flow.respCode = calledCode run.calls ecRcUnset)
    (faithful : WireFaithful (mirrorToken (calledPdu platform run.calls ecPduNewEmpty).opts token).1.bundle.list)
    (few : (mirrorToken (calledPdu platform run.calls ecPduNewEmpty).opts token).1.bundle.list.length +
      fencepostCount 0 (mirrorToken (calledPdu platform run.calls ecPduNewEmpty).opts token).1.bundle.list ≤
        ecProtoMaxOptions) :
    ((srv.encodedResp platform.order env isCon (calledPdu platform run.calls ecPduNewEmpty)).datagram conn).Bears
      platform run token := by
  obtain ⟨res, held, sibling⟩ := owing.response
  cases held.symm.trans responds.held
  obtain ⟨encoding, encoded, set, header⟩ := owing.encoded responds sibling platform.order
  have mirrored := responds.encodes.1
  rw [owing.token] at mirrored
  refine ⟨_, (withToken_iff mirrored).mpr rfl, fun order beyond => ?_⟩
  have survives := encode_survives_iff platform.order srv.flow
    {calledPdu platform run.calls ecPduNewEmpty with sibling := some mid} encoding conn beyond
    (fun _ _ => responds.code)
    (calledPdu_unencoded run.calls ecOptsInit_unencoded) (by rw [encoded])
  rw [encoded] at survives
  dsimp only at survives
  rw [set] at survives
  have read := (survives.mpr ⟨faithful, few⟩).ordered order
  refine ⟨_, ?_, read⟩
  exact header.trans (by rw [code])

/-- The server of a request that was answered at once: it has ended, and has sent the response of its callback. -/
structure EcWork.Prompted (platform : Platform) (b : EcBase) (input : ServerInput) (h : EcHdr) (d : Datagram)
    (w : EcWork) : Prop where
  self : w.self = b.nextSrv
  freed : w.srv.freed = true
  sent : w.srv.sent = [⟨.response, d⟩]
  peer : w.srv.flow.conn.peer = input.peer
  invoked : w.invoked = b.invoked + 1
  addressee : d.peer = input.peer
  bears : d.Bears platform input.env.run (requestToken (ecServerBody input.raw input.beyond).decoded.opts)

theorem EcBase.Prompt.answers (prompt : b.Prompt platform input h) : ∃ w d, w.Prompted platform b input h d ∧
    ecServerProcess platform b.resources b.fb h input ((b.seen platform input h).work b.nextSrv ecServerNew) =
      .ok (w, .success) := by
  obtain ⟨flow, prepares, serves, uncoded, _, token⟩ := prompt.toImmediate.prepares prompt.short
  obtain ⟨reachable, endpoints, model⟩ := prepares.leads prompt.accepts.socket
  obtain ⟨called, made⟩ : ∃ called, applyCalls platform input.env.run.calls {b.dispatching platform h input flow with
    invoked := (b.dispatching platform h input flow).invoked + 1} = called := ⟨_, rfl⟩
  have owing : called.srv.Owing h.mid flow.conn flow.token :=
    made ▸ prepares.owing.1.called platform input.env
  have srv : called.srv = {EcServer.accepted flow ((ecServerBody input.raw input.beyond).pdu input.raw h) with
      flow := {flow with respCode := calledCode input.env.run.calls ecRcUnset}
      res := some (calledPdu platform input.env.run.calls ecPduNewEmpty)} := by
    rw [← made, applyCalls_srv, ← uncoded]
    rfl
  have code : called.srv.flow.respCode = calledCode input.env.run.calls ecRcUnset := by rw [srv]
  have held : called.srv.res = some (calledPdu platform input.env.run.calls ecPduNewEmpty) := by rw [srv]
  have fits : called.srv.Fits := ⟨_, held, by rw [owing.token, token]; exact prompt.encodes⟩
  have response : ecIsRespCode called.srv.flow.respCode := by
    rw [code]
    exact prompt.code
  obtain ⟨res, responds⟩ := owing.responds model (reachable.mpr prompt.connected) response fits
  cases held.symm.trans responds.held
  obtain ⟨res, same, sibling⟩ := owing.response
  cases held.symm.trans same
  have taken : called.srv.Responds (calledPdu platform input.env.run.calls ecPduNewEmpty) (h.t == .con)
      input.env.response.sent := by
    rw [prompt.taken]
    exact responds
  have sent := ecServerSendResp_responds platform input.env.response .response called _ _ taken
  have served : b.resources.any (fun path =>
      asciiStrcaseEqual path (b.dispatching platform h input flow).srv.flow.urlstr) ∨ b.fb = true := serves
  have dispatched := ecServerDispatch_ready platform served model prompt.ready called made owing.state
  rw [sent, if_pos rfl] at dispatched
  have bears := owing.bears taken code (by rw [token]; exact prompt.faithful) (by rw [token]; exact prompt.few)
  rw [token] at bears
  have self : called.self = b.nextSrv :=
    congrArg ServerCore.self (made ▸ applyCalls_core platform input.env.run.calls _)
  have silent : called.srv.sent = [] := owing.silent
  have invoked : called.invoked = b.invoked + 1 := by
    rw [← made, applyCalls_invoked]
    rfl
  have peer : called.srv.flow.conn.peer = input.peer := by
    rw [owing.conn]
    exact (endpoints prompt.connected).2
  refine ⟨_, (called.srv.encodedResp platform.order input.env.response (h.t == .con)
    (calledPdu platform input.env.run.calls ecPduNewEmpty)).datagram flow.conn, ?_,
    (ecServerProcess_prepared rfl prepares).trans dispatched⟩
  refine {
    self := self
    freed := rfl
    sent := ?_
    peer := peer
    invoked := invoked
    addressee := (endpoints prompt.connected).2
    bears := bears
  }
  show called.srv.sent ++ _ = _
  rw [silent, owing.conn]
  rfl

end Requests

end Webthings.Evcoap
