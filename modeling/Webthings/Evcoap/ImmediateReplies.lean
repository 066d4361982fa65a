import Webthings.Evcoap.Answers
import Webthings.Evcoap.EncodingSpace
import Webthings.Evcoap.TokenCapacity

namespace Webthings.Evcoap
open Webthings.Transition

/-- The response code after the calls of a callback. -/
def calledCode (calls : List SrvApi) (rc : EcRc) : EcRc :=
  calls.foldl (fun rc call =>
    match call with
    | .setCode new => if ecIsRespCode new then new else rc
    | .setPayload _ | .add _ | .observe _ => rc) rc

/-- The response after the calls of a callback. -/
def calledPdu (platform : Platform) (calls : List SrvApi) (res : EcPdu) : EcPdu :=
  calls.foldl (fun res call =>
    match call with
    | .setPayload payload => (ecPduSetPayload res payload).1
    | .add call => {res with opts := (call.apply platform.order platform.isAbsolute res.opts).1}
    | .setCode _ | .observe _ => res) res

/-- A callback can change the code and the response of its server, and nothing else. -/
theorem applyCalls_srv (platform : Platform) (calls : List SrvApi) (w : EcWork) :
    (applyCalls platform calls w).srv = {w.srv with
      flow := {w.srv.flow with respCode := calledCode calls w.srv.flow.respCode}
      res := w.srv.res.map (calledPdu platform calls)} := by
  induction calls generalizing w with
  | nil =>
      have same : w.srv.res.map (calledPdu platform []) = w.srv.res := Option.map_id'
      rw [same]
      rfl
  | cons call calls ih =>
      change (applyCalls platform calls (call.apply platform w)).srv = _
      rw [ih]
      cases call with
      | setCode rc =>
          simp only [SrvApi.apply, ecFlowSetRespCode, calledCode, List.foldl_cons]
          split <;> rfl
      | setPayload payload =>
          simp only [SrvApi.apply, calledCode, List.foldl_cons, Option.map_map]
          rfl
      | add call =>
          simp only [SrvApi.apply, calledCode, List.foldl_cons, Option.map_map]
          rfl
      | observe observing => rfl

/-- The options of a set with the token of a request among them, if it has one. -/
inductive WithToken (opts : EcOpts) (token : List UInt8) : List EcOpt → Prop where
  | absent (none : token = []) : WithToken opts token opts.bundle.list
  | mirrored (present : token ≠ []) (o : EcOpt) (symbol : o.sym = .token) (value : o.value = token) :
      WithToken opts token (opts.bundle.insert o).list

/-- A reply to the sender of a request, with its type, its MID and its token, and what the callback has put into it. -/
structure Datagram.Replies (platform : Platform) (input : ServerInput) (h : EcHdr) (d : Datagram) : Prop where
  socket : d.sd = input.sd
  peer : d.peer = input.peer
  type : EcMsgModel.ofValue ((d.hdr.getD 0 0 &&& 0x30) >>> 4).toNat = if h.t = .con then .ack else .non
  mid : h.t = .con → d.hdr.getD 2 0 = input.raw.getD 2 0 ∧ d.hdr.getD 3 0 = input.raw.getD 3 0
  code : d.hdr.getD 1 0 = rcByte (calledCode input.env.run.calls ecRcUnset)
  options : ∃ os, WithToken (calledPdu platform input.env.run.calls ecPduNewEmpty).opts
    (requestToken (ecServerBody input.raw input.beyond).decoded.opts) os ∧ d.opts = (encodedRecords 0 os).flatten
  payload : d.payload = (calledPdu platform input.env.run.calls ecPduNewEmpty).payload

/-- A new request for a callback that sets a response code and is ready at once. -/
structure EcBase.Immediate (platform : Platform) (b : EcBase) (input : ServerInput) (h : EcHdr) : Prop extends
    b.CopiesToken platform input h where
  called : ∃ urlstr isProxy, platform.composeUrl (ecServerBody input.raw input.beyond).decoded.opts.bundle.list
      (requestConn platform h input).us = some (urlstr, isProxy) ∧
    (b.resources.any (fun path => asciiStrcaseEqual path urlstr) ∨ b.fb = true)
  ready : input.env.run.ret = .ready
  code : ecIsRespCode (calledCode input.env.run.calls ecRcUnset)

/-- The handler of a request has disposed of its server, and a response that it has sent is the right one. -/
def EcBase.RepliesAtOnce (platform : Platform) (b : EcBase) (input : ServerInput) (h : EcHdr) : Prop :=
  ∃ b' rc srv, ecServerHandlePdu platform b input = .ok (b', rc) ∧ b'.heap b.nextSrv = some srv ∧ srv.freed = true ∧
    ∀ s ∈ srv.sent, s.purpose = .response → s.datagram.Replies platform input h

/-- The set with the token is the one that the encoder makes. -/
theorem withToken_iff {opts : EcOpts} {token : List UInt8} {os : List EcOpt} (mirrored : (mirrorToken opts token).2 = 0) :
    WithToken opts token os ↔ os = (mirrorToken opts token).1.bundle.list := by
  unfold mirrorToken at mirrored ⊢
  by_cases present : token ≠ []
  · rw [if_pos present] at mirrored ⊢
    obtain ⟨o, created, added⟩ := ecOptsAddToken_ok mirrored
    obtain ⟨symbol, length, bytes⟩ := ecOptNew_some created
    have whole : o.value.length = o.l := EcOpt.value_whole (by rw [symbol]; decide)
    have value : o.value = token := by
      unfold EcOpt.value at whole ⊢
      cases held : o.v with
      | some v => exact bytes v held
      | none =>
          rw [held] at whole
          have zero : token.length = 0 := by
            rw [← length, ← whole]
            rfl
          exact (List.eq_nil_of_length_eq_zero zero).symm
    rw [added]
    constructor
    · intro with_
      cases with_ with
      | absent none => exact absurd none present
      | mirrored _ o' symbol' value' =>
          have whole' : o'.value.length = o'.l := EcOpt.value_whole (by rw [symbol']; decide)
          have again : ecOptNew o'.sym token = some o' := by
            apply ecOptNew_again o' token (by rw [← value']; exact whole')
            intro v held
            rw [← value', EcOpt.value, held]
            rfl
          rw [symbol', created] at again
          rw [Option.some.inj again]
    · intro same
      rw [same]
      exact .mirrored present o symbol value
  · rw [if_neg present]
    have none : token = [] := not_not.mp present
    constructor
    · intro with_
      cases with_ with
      | absent _ => rfl
      | mirrored present' => exact absurd none present'
    · intro same
      rw [same]
      exact .absent none

/-- The option bytes are those of the options exactly when no If-None-Match was added with a value. -/
theorem mirrored_wire_iff {opts : EcOpts} {token : List UInt8} (mirrored : (mirrorToken opts token).2 = 0) :
    (∃ os, WithToken opts token os ∧ (mirrorToken opts token).1.encoded.wire = (encodedRecords 0 os).flatten) ↔
      ∀ o ∈ opts.bundle.list, o.sym = .ifNoneMatch → o.l = 0 := by
  have members : (∀ o ∈ (mirrorToken opts token).1.bundle.list, o.sym = .ifNoneMatch → o.l = 0) ↔
      ∀ o ∈ opts.bundle.list, o.sym = .ifNoneMatch → o.l = 0 := by
    unfold mirrorToken at mirrored ⊢
    split
    · rename_i present
      rw [if_pos present] at mirrored
      obtain ⟨o, created, added⟩ := ecOptsAddToken_ok mirrored
      have symbol : o.sym = .token := (ecOptNew_some created).1
      rw [added]
      simp only [Bundle.mem_insert, forall_eq_or_imp, symbol]
      simp
    · exact Iff.rfl
  rw [← members, ← whole_iff, ← encodedBytes_length_iff 0]
  constructor
  · rintro ⟨os, with_, bytes⟩
    rw [(withToken_iff mirrored).mp with_, encodedRecords_flatten] at bytes
    rw [← bytes, EcOpts.encoded_wire_length]
  · intro length
    refine ⟨_, (withToken_iff mirrored).mpr rfl, ?_⟩
    rw [encodedRecords_flatten]
    exact EcOpts.encoded_wire_whole _ ((encodedBytes_length_iff 0 _).mp length)

/-- The header of a message shows its type. -/
theorem headerBytes_type (order : ByteOrder) (noptions : Nat) (code : UInt8) (t : EcMsgModel) (mid : UInt16) :
    EcMsgModel.ofValue (((headerBytes order noptions code t mid).getD 0 0 &&& 0x30) >>> 4).toNat = t := by
  have mask : noptions &&& 0x0f = noptions % 16 := Nat.and_two_pow_sub_one_eq_mod noptions 4
  have table : ∀ t : Fin 4, ∀ n : Fin 16,
      ((UInt8.ofNat ((1 <<< 6) ||| (t.val <<< 4) ||| n.val) &&& 0x30) >>> 4).toNat = t.val := by decide +kernel
  have value : t.value < 4 := by cases t <;> decide
  have bits := table ⟨t.value, value⟩ ⟨noptions % 16, Nat.mod_lt _ (by decide)⟩
  change EcMsgModel.ofValue ((UInt8.ofNat ((1 <<< 6) ||| (t.value <<< 4) ||| (noptions &&& 0x0f)) &&& 0x30) >>> 4).toNat = t
  rw [mask, bits]
  exact EcMsgModel.ofValue_value t

/-- The header of a message with the MID of another one has its MID bytes. -/
theorem headerBytes_mid (order : ByteOrder) (noptions : Nat) (code : UInt8) (t : EcMsgModel) (raw : List UInt8) :
    (headerBytes order noptions code t (headerMid order raw)).getD 2 0 = raw.getD 2 0 ∧
      (headerBytes order noptions code t (headerMid order raw)).getD 3 0 = raw.getD 3 0 := by
  have high := (raw.getD 2 0).toNat_lt
  have low := (raw.getD 3 0).toNat_lt
  have word : (htons order (headerMid order raw)).toNat = (raw.getD 2 0).toNat * 256 + (raw.getD 3 0).toNat := by
    unfold headerMid ntohs
    rw [htons_htons, word_toNat _ _ (by rw [UInt8.toNat_toUInt16]; exact high)
      (by rw [UInt8.toNat_toUInt16]; exact low), UInt8.toNat_toUInt16, UInt8.toNat_toUInt16]
  refine ⟨?_, ?_⟩
  · apply UInt8.toNat_inj.mp
    change ((htons order (headerMid order raw) &&& 0xff00) >>> 8).toUInt8.toNat = _
    rw [highByte_toNat, word]
    omega
  · apply UInt8.toNat_inj.mp
    change (htons order (headerMid order raw) &&& 0x00ff).toUInt8.toNat = _
    rw [lowByte_toNat, word]
    omega

/-- The response to a request that is not acknowledged is the ACK of a confirmable one, or a message of its own. -/
theorem EcServer.encodedResp_immediate (order : ByteOrder) (env : SendEnv) {srv : EcServer} {isCon : Bool} {res : EcPdu}
    {mid : UInt16} (responds : srv.Responds res isCon env.sent) (state : srv.state = .reqOk)
    (unseparated : srv.flow.isSep = false) (paired : ecServerPairResp srv res = ({res with sibling := some mid}, 0)) :
    (srv.encodedResp order env isCon res).opts = (mirrorToken res.opts srv.flow.token).1.encoded ∧
      (srv.encodedResp order env isCon res).payload = res.payload ∧
      ∃ noptions own, (srv.encodedResp order env isCon res).hdr =
        headerBytes order noptions (rcByte srv.flow.respCode) (if isCon then .ack else .non) own ∧
        (isCon = true → own = mid) := by
  cases isCon with
  | false =>
      obtain ⟨opts, payload, _, hdr⟩ := srv.encodedResp_parts order env false res responds (Or.inr (Or.inr rfl))
      exact ⟨opts, payload, _, _, hdr, fun con => absurd con Bool.false_ne_true⟩
  | true =>
      have encoded : srv.encodedResp order env true res =
          ({res with sibling := some mid} : EcPdu).responded order srv.flow .ack mid := by
        unfold EcServer.encodedResp ecServerEncodeResp ecPduEncodeResponsePiggyback
        rw [paired, if_pos ⟨rfl, unseparated, by rw [state]; decide⟩, if_neg (by simpa using responds.code)]
        dsimp only
        have encodes : ({res with sibling := some mid} : EcPdu).opts.Encodes srv.flow.token := responds.encodes
        rw [encodeResponse_fits order srv.flow _ .ack mid (by decide) responds.code encodes]
      rw [encoded]
      exact ⟨rfl, rfl, _, mid, rfl, fun _ => rfl⟩

/-- A ready callback has its response sent at once and its server disposed of, or ends in the error exit. -/
theorem ecServerDispatch_ready (platform : Platform) {resources : List (List UInt8)} {fb : Bool} {env : HandlerEnv}
    {w : EcWork} {isCon : Bool}
    (served : resources.any (fun path => asciiStrcaseEqual path w.srv.flow.urlstr) ∨ fb = true)
    (model : w.srv.flow.conn.isConfirmable = some isCon) (ready : env.run.ret = .ready)
    (called : EcWork) (calls : applyCalls platform env.run.calls {w with invoked := w.invoked + 1} = called)
    (state : called.srv.state = .reqOk) :
    ecServerDispatch platform resources fb env w =
      if (ecServerSendResp platform env.response .response called).2 = 0 then
        .ok ((ecServerSendResp platform env.response .response called).1.ended .respDone, .success)
      else (ecServerFail platform env.reply ecRcUnset (ecServerSendResp platform env.response .response called).1).map
        fun failed => (failed, .error) := by
  have core := ecServerSendResp_core platform env.response .response called
  have after : (ecServerSendResp platform env.response .response called).1.srv.state = .reqOk :=
    (congrArg ServerCore.state core).trans state
  unfold ecServerDispatch ecServerUserfn
  rw [if_pos served, model]
  dsimp only
  rw [ready, calls]
  dsimp only
  unfold ecServerReady
  rw [if_pos (Or.inr state)]
  dsimp only
  by_cases sent : (ecServerSendResp platform env.response .response called).2 = 0
  · rw [if_pos sent, if_neg (not_not.mpr sent), if_neg (by simp [after]),
      ecServerSetState_final _ .respDone (by rw [after]; rfl) rfl]
    rfl
  · rw [if_neg sent, if_pos sent]
    rfl

theorem ecServerReply_replies (platform : Platform) (env : SendEnv) (rc : EcRc) (w : EcWork) (silent : w.srv.sent = []) :
    ∀ s ∈ (ecServerReply platform env rc w).1.srv.sent, s.purpose = .reply := by
  unfold ecServerReply
  split
  · simp [silent]
  · dsimp only
    split
    · simp [silent]
    · obtain ⟨more, log, purposes⟩ := ecServerSendResp_sent platform env .reply
        {w with srv := {w.srv with flow := (ecFlowSetRespCode w.srv.flow rc).1}}
      rw [log]
      simpa [silent] using purposes

/-- The error exit disposes of its server and sends replies only. -/
theorem ecServerFail_ends (platform : Platform) (env : SendEnv) (rc : EcRc) (w : EcWork) (silent : w.srv.sent = []) :
    ∃ failed, ecServerFail platform env rc w = .ok failed ∧ failed.self = w.self ∧ failed.srv.freed = true ∧
      ∀ s ∈ failed.srv.sent, s.purpose = .reply := by
  have core := ecServerReply_core platform env (if rc = ecRcUnset then ecInternalServerError else rc) w
  have replies := ecServerReply_replies platform env (if rc = ecRcUnset then ecInternalServerError else rc) w silent
  unfold ecServerFail
  rw [ecServerSetState_final _ .internalErr rfl rfl]
  exact ⟨_, rfl, congrArg ServerCore.self core, rfl, replies⟩

section Requests

variable {platform : Platform} {b : EcBase} {input : ServerInput} {h : EcHdr}

/-- A request for a ready callback is dispatched to it when its token fits. -/
theorem EcBase.Immediate.prepares (immediate : b.Immediate platform input h)
    (short : (requestToken (ecServerBody input.raw input.beyond).decoded.opts).length ≤ ecFlowTokenMax) :
    ∃ flow, input.Prepares platform h flow ∧ b.Serves flow ∧ flow.respCode = ecRcUnset ∧ flow.isSep = false ∧
      flow.token = requestToken (ecServerBody input.raw input.beyond).decoded.opts := by
  obtain ⟨urlstr, isProxy, composed, served⟩ := immediate.called
  obtain ⟨m, known⟩ := (ecIsMethod_iff h.code.toNat).mp immediate.method
  have request : ecServerSaveRequest platform {EcFlow.zero with conn := requestConn platform h input} h.code.toNat
      (ecServerBody input.raw input.beyond).decoded.opts = some ({EcFlow.zero with
        conn := requestConn platform h input
        method := m
        token := requestToken (ecServerBody input.raw input.beyond).decoded.opts
        urlstr := urlstr
        proxyUri := isProxy}, 0) := by
    unfold ecServerSaveRequest ecFlowSetMethod ecFlowSaveToken
    rw [known]
    dsimp only
    rw [if_neg (by simp), if_pos short, Option.map_some]
    dsimp only
    rw [composed]
    rfl
  exact ⟨_, ⟨immediate.endpoints, immediate.options, request⟩, served, rfl, rfl, rfl⟩

/-- What a request has made of its server is what the base has stored. -/
theorem ecServerRequest_stores {b : EcBase} {w : EcWork} {rc : EcNetCbrc} (post : EcServer → Prop)
    (worked : ecServerProcess platform b.resources b.fb h input (b.work b.nextSrv ecServerNew) = .ok (w, rc))
    (self : w.self = b.nextSrv) :
    (∃ b' rc srv, ecServerRequest platform b h input = .ok (b', rc) ∧ b'.heap b.nextSrv = some srv ∧ post srv) ↔
      post w.srv := by
  have stored : (EcBase.store {b with nextSrv := b.nextSrv + 1} w).heap b.nextSrv = some w.srv := if_pos self.symm
  unfold ecServerRequest
  dsimp only
  rw [worked]
  constructor
  · rintro ⟨b', rc', srv, finished, held, holds⟩
    cases finished
    cases stored.symm.trans held
    exact holds
  · exact fun holds => ⟨_, _, _, rfl, stored, holds⟩

/-- A response that is sent to a request is the right reply exactly when its options are written whole. -/
theorem EcServer.Responds.replies_iff {srv : EcServer} {conn : EcConn} {env : SendEnv}
    (responds : srv.Responds (calledPdu platform input.env.run.calls ecPduNewEmpty) (h.t == .con) env.sent)
    (owes : srv.Owing h.mid conn (requestToken (ecServerBody input.raw input.beyond).decoded.opts))
    (endpoints : conn.socket = input.sd ∧ conn.peer = input.peer) (unseparated : srv.flow.isSep = false)
    (code : srv.flow.respCode = calledCode input.env.run.calls ecRcUnset)
    (header : h.mid = headerMid platform.order input.raw) :
    ((srv.encodedResp platform.order env (h.t == .con) (calledPdu platform input.env.run.calls ecPduNewEmpty)).datagram
        srv.flow.conn).Replies platform input h ↔
      ∀ o ∈ (calledPdu platform input.env.run.calls ecPduNewEmpty).opts.bundle.list, o.sym = .ifNoneMatch → o.l = 0 := by
  obtain ⟨res, held, sibling⟩ := owes.response
  cases held.symm.trans responds.held
  obtain ⟨opts, payload, noptions, own, hdr, mirrors⟩ := EcServer.encodedResp_immediate platform.order env responds
    owes.state unseparated (owes.pairs sibling)
  have mirrored := responds.encodes.1
  rw [owes.token] at mirrored opts
  rw [← mirrored_wire_iff mirrored]
  unfold EcPdu.datagram
  rw [opts, payload, hdr, owes.conn, code]
  constructor
  · exact fun replies => replies.options
  · intro options
    refine ⟨endpoints.1, endpoints.2, ?_, ?_, rfl, options, rfl⟩
    · change EcMsgModel.ofValue (((headerBytes _ _ _ _ _).getD 0 0 &&& 0x30) >>> 4).toNat = _
      rw [headerBytes_type]
      by_cases con : h.t = .con
      · rw [if_pos con, if_pos (by simp [con])]
      · rw [if_neg con, if_neg (by simp [con])]
    · intro con
      rw [mirrors (by simp [con]), header]
      exact headerBytes_mid platform.order _ _ _ input.raw

/-- The work of a request behind the calls of its callback. -/
structure EcWork.Called (called : EcWork) (platform : Platform) (b : EcBase) (input : ServerInput) (h : EcHdr)
    (conn : EcConn) : Prop where
  owes : called.srv.Owing h.mid conn (requestToken (ecServerBody input.raw input.beyond).decoded.opts)
  self : called.self = b.nextSrv
  code : called.srv.flow.respCode = calledCode input.env.run.calls ecRcUnset
  res : called.srv.res = some (calledPdu platform input.env.run.calls ecPduNewEmpty)
  unseparated : called.srv.flow.isSep = false
  model : conn.isConfirmable = some (h.t == .con)
  reachable : conn.Reachable ↔ input.sd ≠ 0
  endpoints : input.sd ≠ 0 → conn.socket = input.sd ∧ conn.peer = input.peer

/-- The callback of a request whose token fits is called, and then its response is sent or the request fails. -/
theorem EcBase.Immediate.calls (immediate : b.Immediate platform input h)
    (short : (requestToken (ecServerBody input.raw input.beyond).decoded.opts).length ≤ ecFlowTokenMax) :
    ∃ called conn, called.Called platform b input h conn ∧
      ecServerProcess platform (b.seen platform input h).resources (b.seen platform input h).fb h input
        ((b.seen platform input h).work (b.seen platform input h).nextSrv ecServerNew) =
        if (ecServerSendResp platform input.env.response .response called).2 = 0 then
          .ok ((ecServerSendResp platform input.env.response .response called).1.ended .respDone, .success)
        else (ecServerFail platform input.env.reply ecRcUnset
          (ecServerSendResp platform input.env.response .response called).1).map fun failed => (failed, .error) := by
  obtain ⟨flow, prepares, serves, uncoded, unseparated, token⟩ := immediate.prepares short
  obtain ⟨reachable, endpoints, model⟩ := prepares.leads immediate.accepts.socket
  obtain ⟨called, made⟩ : ∃ called, applyCalls platform input.env.run.calls {b.dispatching platform h input flow with
    invoked := (b.dispatching platform h input flow).invoked + 1} = called := ⟨_, rfl⟩
  have owing : (b.dispatching platform h input flow).srv.Owing h.mid flow.conn flow.token := prepares.owing.1
  have owes : called.srv.Owing h.mid flow.conn flow.token := made ▸ owing.called platform input.env
  have self : called.self = b.nextSrv :=
    made ▸ congrArg ServerCore.self (applyCalls_core platform input.env.run.calls _)
  have srv : called.srv = {EcServer.accepted flow ((ecServerBody input.raw input.beyond).pdu input.raw h) with
      flow := {flow with respCode := calledCode input.env.run.calls ecRcUnset}
      res := some (calledPdu platform input.env.run.calls ecPduNewEmpty)} := by
    rw [← made, applyCalls_srv, ← uncoded]
    rfl
  have served : b.resources.any (fun path =>
      asciiStrcaseEqual path (b.dispatching platform h input flow).srv.flow.urlstr) ∨ b.fb = true := serves
  have dispatched := ecServerDispatch_ready platform served model immediate.ready called made owes.state
  exact ⟨called, flow.conn, ⟨token ▸ owes, self, by rw [srv], by rw [srv], by rw [srv]; exact unseparated, model,
    reachable, endpoints⟩, (ecServerProcess_prepared rfl prepares).trans dispatched⟩

/-- A response that is sent is the right one when the callback has added no If-None-Match with a value. -/
theorem EcWork.Called.sent_iff {called : EcWork} {conn : EcConn} (ready : called.Called platform b input h conn)
    (immediate : b.Immediate platform input h)
    (sent : (ecServerSendResp platform input.env.response .response called).2 = 0) :
    (∀ s ∈ ((ecServerSendResp platform input.env.response .response called).1.ended .respDone).srv.sent,
        s.purpose = .response → s.datagram.Replies platform input h) ↔
      (input.env.response.sent = true → input.sd ≠ 0 →
        (calledPdu platform input.env.run.calls ecPduNewEmpty).opts.Encodes
          (requestToken (ecServerBody input.raw input.beyond).decoded.opts) →
        ∀ o ∈ (calledPdu platform input.env.run.calls ecPduNewEmpty).opts.bundle.list, o.sym = .ifNoneMatch → o.l = 0) := by
  obtain ⟨res', isCon, responds⟩ := ecServerSendResp_ok platform input.env.response .response called sent
  cases ready.res.symm.trans responds.held
  have confirmable : called.srv.flow.conn.isConfirmable = some (h.t == .con) := ready.owes.conn ▸ ready.model
  cases confirmable.symm.trans responds.model
  have reached : conn.Reachable := by
    rw [← ready.owes.conn]
    exact ⟨responds.socket, responds.peer⟩
  have socket : input.sd ≠ 0 := ready.reachable.mp reached
  have mid : h.mid = headerMid platform.order input.raw := by
    have header := immediate.accepts.header
    unfold ecPduDecodeHeader at header
    split at header
    · cases header
    · split at header
      · cases header
      · cases header
        rfl
  have right := responds.replies_iff ready.owes (ready.endpoints socket) ready.unseparated ready.code mid
  have log : ((ecServerSendResp platform input.env.response .response called).1.ended .respDone).srv.sent =
      [⟨.response, (called.srv.encodedResp platform.order input.env.response (h.t == .con)
        (calledPdu platform input.env.run.calls ecPduNewEmpty)).datagram called.srv.flow.conn⟩] := by
    rw [ecServerSendResp_responds platform input.env.response .response called _ _ responds]
    change called.srv.sent ++ [_] = [_]
    rw [ready.owes.silent]
    rfl
  rw [log, List.forall_mem_singleton]
  constructor
  · exact fun replies _ _ _ => right.mp (replies rfl)
  · intro empty _
    have encodes := responds.encodes
    rw [ready.owes.token] at encodes
    exact right.mpr (empty responds.taken socket encodes)

/-- A response that can be encoded and sent is sent. -/
theorem EcWork.Called.sends {called : EcWork} {conn : EcConn} (ready : called.Called platform b input h conn)
    (immediate : b.Immediate platform input h) (taken : input.env.response.sent = true) (socket : input.sd ≠ 0)
    (encodes : (calledPdu platform input.env.run.calls ecPduNewEmpty).opts.Encodes
      (requestToken (ecServerBody input.raw input.beyond).decoded.opts)) :
    (ecServerSendResp platform input.env.response .response called).2 = 0 := by
  refine (ready.owes.sent_iff platform input.env.response .response ready.model taken).mpr ⟨?_, ?_, ?_⟩
  · rw [ready.code]
    exact immediate.code
  · refine ⟨_, ready.res, ?_⟩
    rw [ready.owes.token]
    exact encodes
  · exact ready.reachable.mpr socket

/-- The replies of ready callbacks are right and their servers end exactly when the token of the request fits its array
and, where the response can be sent, the callback has added no If-None-Match with a value. -/
theorem repliesAtOnce_iff (immediate : b.Immediate platform input h) :
    b.RepliesAtOnce platform input h ↔
      (requestToken (ecServerBody input.raw input.beyond).decoded.opts).length ≤ ecFlowTokenMax ∧
      (input.env.response.sent = true → input.sd ≠ 0 →
        (calledPdu platform input.env.run.calls ecPduNewEmpty).opts.Encodes
          (requestToken (ecServerBody input.raw input.beyond).decoded.opts) →
        ∀ o ∈ (calledPdu platform input.env.run.calls ecPduNewEmpty).opts.bundle.list, o.sym = .ifNoneMatch → o.l = 0) := by
  unfold EcBase.RepliesAtOnce
  rw [ecServerHandlePdu_request platform b input h immediate.accepts immediate.method]
  by_cases short : (requestToken (ecServerBody input.raw input.beyond).decoded.opts).length ≤ ecFlowTokenMax
  · obtain ⟨called, conn, ready, process⟩ := immediate.calls short
    have core := ecServerSendResp_core platform input.env.response .response called
    have after : (ecServerSendResp platform input.env.response .response called).1.self = b.nextSrv :=
      (congrArg ServerCore.self core).trans ready.self
    by_cases sent : (ecServerSendResp platform input.env.response .response called).2 = 0
    · rw [if_pos sent] at process
      refine (ecServerRequest_stores (fun srv => srv.freed = true ∧ ∀ s ∈ srv.sent, s.purpose = .response →
        s.datagram.Replies platform input h) process after).trans ?_
      rw [ready.sent_iff immediate sent, and_iff_right short]
      exact and_iff_right rfl
    · obtain ⟨failed, ended, same, freed, replies⟩ := ecServerFail_ends platform input.env.reply ecRcUnset
        (ecServerSendResp platform input.env.response .response called).1
        (ready.owes.fails platform input.env.response .response ready.model sent).1.silent
      rw [if_neg sent, ended] at process
      refine (ecServerRequest_stores (fun srv => srv.freed = true ∧ ∀ s ∈ srv.sent, s.purpose = .response →
        s.datagram.Replies platform input h) process (same.trans after)).trans ?_
      refine iff_of_true ⟨freed, fun s member response => ?_⟩ ⟨short, fun taken socket encodes => ?_⟩
      · exact absurd ((replies s member).symm.trans response) (by decide)
      · exact absurd (ready.sends immediate taken socket encodes) sent
  · refine iff_of_false ?_ fun fits => short fits.1
    rintro ⟨b', rc, srv, finished, _⟩
    unfold ecServerRequest at finished
    rw [ecServerProcess_overruns rfl immediate.method immediate.endpoints immediate.options
      (Nat.lt_of_not_le short)] at finished
    cases finished

end Requests

/-- A callback that answers at once with a Max-Age and two bytes. -/
def answering : CallbackRun := ⟨[.setCode ecContent, .add (.maxAge 30), .setPayload [0x68, 0x69]], .ready, ⟨0, 0⟩⟩

/-- A confirmable GET of `/a` with a token of two bytes for such a callback. -/
def answeredGet : ServerInput := loopbackInput [0x42, 1, 0, 7, 0x91, 0x61, 0x22, 0xaa, 0xbb] answering 0

/-- It gets the answer of the callback. -/
theorem answeredGet_replied : EcBase.RepliesAtOnce serverPlatform {ecInit with fb := true} answeredGet
    ⟨.con, 2, 1, 0x0700⟩ := by
  have immediate : EcBase.Immediate serverPlatform {ecInit with fb := true} answeredGet ⟨.con, 2, 1, 0x0700⟩ :=
    ⟨⟨⟨by decide, by decide, by decide, rfl⟩, by decide, by decide, by decide⟩, ⟨_, _, rfl, Or.inr rfl⟩, rfl, by decide⟩
  exact (repliesAtOnce_iff immediate).mpr ⟨by decide, fun _ _ _ => by decide⟩

/-- A confirmable GET of `/a` with a token of sixty bytes for such a callback. -/
def longTokenGet : ServerInput :=
  loopbackInput ([0x42, 1, 0, 7, 0x91, 0x61, 0x2f, 45] ++ List.replicate 60 0xaa) answering 0

/-- It gets no answer. -/
theorem longTokenGet_unanswered : ¬ ∀ (platform : Platform) (b : EcBase) (input : ServerInput) (h : EcHdr), b.Settled →
    b.Immediate platform input h → b.RepliesAtOnce platform input h := by
  intro always
  have immediate : EcBase.Immediate serverPlatform {ecInit with fb := true} longTokenGet ⟨.con, 2, 1, 0x0700⟩ :=
    ⟨⟨⟨by decide, by decide, by decide, rfl⟩, by decide, by decide, by decide⟩, ⟨_, _, rfl, Or.inr rfl⟩, rfl, by decide⟩
  have settled : EcBase.Settled {ecInit with fb := true} := ecInit_settled.share rfl rfl rfl
  obtain ⟨b', rc, srv, finished, _⟩ := always serverPlatform _ longTokenGet ⟨.con, 2, 1, 0x0700⟩ settled immediate
  have overruns : ecServerHandlePdu serverPlatform {ecInit with fb := true} longTokenGet = .error .overrun := rfl
  rw [overruns] at finished
  cases finished

end Webthings.Evcoap
