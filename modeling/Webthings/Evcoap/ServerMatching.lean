import Webthings.Evcoap.ServerLife
import Mathlib.Data.List.Find

namespace Webthings.Evcoap
open Webthings.Transition

/-- The server has sent a separate ACK or a separate response with the MID on the wire. -/
def EcServer.HasSent (order : ByteOrder) (srv : EcServer) (sd : Int) (peer : SockAddr) (mid : UInt16) : Prop :=
  ∃ s ∈ srv.sent, (s.purpose = .ack ∨ s.purpose = .response ∨ s.purpose = .retransmission) ∧ s.datagram.sd = sd ∧
    s.datagram.peer = peer ∧ headerMid order s.datagram.hdr = mid

/-- A message without a code that arrives at the server and that no observer takes. -/
structure EcBase.Arrives (platform : Platform) (b : EcBase) (input : ServerInput) (h : EcHdr) : Prop where
  socket : input.sd ≠ -1
  family : (ecNetSocklen input.peer).isSome
  header : ecPduDecodeHeader platform.order input.raw = some h
  empty : h.code = 0
  unconsumed : h.t = .rst → (ecServerRstConn platform input.sd input.peer).2 = 0 →
    ecObserveCanceledByRst b.observing (ecServerRstConn platform input.sd input.peer).1 h.mid = none

/-- The message affects exactly the pending servers that have sent its MID, and the lookup returns such a server. -/
def EcBase.Matches (platform : Platform) (b : EcBase) (input : ServerInput) (h : EcHdr) : Prop :=
  ∀ id srv, b.heap id = some srv → srv.freed = false →
    ((∃ b', baseStep platform b (.datagram input) = .ok b' ∧ b'.heap id ≠ some srv) ↔
      srv.HasSent platform.order input.sd input.peer h.mid) ∧
    (srv.HasSent platform.order input.sd input.peer h.mid →
      ecServersLookup b h.mid input.sd input.peer = some id)

/-- A retransmission happens on the stored MID, and a wakeup either sends the response or does not come to draw a MID. -/
def MidsAgree (platform : Platform) (b : EcBase) (event : BaseEvent) : Prop :=
  match event with
  | .coapTimeout id env => ∀ (srv : EcServer) (res : EcPdu) (isCon : Bool), b.heap id = some srv →
      srv.freed = false → srv.coap.pending = true →
      srv.coap.retriesLeft ≠ 0 → {srv with coap := srv.coap.fired, state := .coapRetry}.Responds res isCon env.sent →
      res.hdrBits.mid ≠ 0 → env.junk = res.hdrBits.mid
  | .wakeup id calls env => ∀ srv, b.heap id = some srv → srv.freed = false → srv.state = .ackSent →
      env.rng = 0 ∨ ¬ ecIsRespCode (applyCalls platform calls (b.work id srv)).srv.flow.respCode ∨
        ∃ res isCon, (applyCalls platform calls (b.work id srv)).srv.Responds res isCon env.sent
  | .datagram _ | .rescheduled _ _ | .countdown _ | .registry _ | .callbacks _ _ | .request _ _ _ | .client _ _ => True

/-- A pending server of the socket and the peer. -/
def EcBase.Faces (b : EcBase) (sd : Int) (peer : SockAddr) (id : SrvId) (srv : EcServer) : Prop :=
  b.heap id = some srv ∧ srv.freed = false ∧ srv.flow.conn.socket = sd ∧ srv.flow.conn.peer = peer

/-- The server waits for the ACK of a separate response whose MID is `mid`. -/
def EcServer.Awaits (srv : EcServer) (mid : UInt16) : Prop :=
  srv.state = .waitAck ∧ ∃ res, srv.res = some res ∧ res.hdrBits.mid = mid

/-- The server has acknowledged a request whose MID is `mid`. -/
def EcServer.Acknowledged (srv : EcServer) (mid : UInt16) : Prop :=
  srv.octrl.isSome ∧ ∃ req, srv.req = some req ∧ req.hdrBits.mid = mid

/-- The servers of the socket and the peer do not mix up the MID: one other than zero belongs to one separate response
at most, and to no acknowledged request apart from that; with zero, the first of the pending servers and no other has
sent it. -/
def EcBase.Unmixed (order : ByteOrder) (b : EcBase) (sd : Int) (peer : SockAddr) (mid : UInt16) : Prop :=
  (mid ≠ 0 → (∀ id srv, b.Faces sd peer id srv → srv.Acknowledged mid → srv.Awaits mid) ∧
    ∀ id srv id' srv', b.Faces sd peer id srv → b.Faces sd peer id' srv' → srv.Awaits mid → srv'.Awaits mid → id = id') ∧
  (mid = 0 → ∀ id srv, b.Faces sd peer id srv →
    (b.servers.find? (fun other => (b.heap other).any fun srv => srv.flow.conn.socket == sd && srv.flow.conn.peer == peer)
      = some id ↔ srv.HasSent order sd peer 0))

/-- The message is no duplicate and its socket has a name, and the MID is not mixed up; or no pending server has sent
its MID. -/
def EcBase.Matchable (platform : Platform) (b : EcBase) (input : ServerInput) (h : EcHdr) : Prop :=
  b.Controls platform input h ∧ b.Unmixed platform.order input.sd input.peer h.mid ∨
  ¬ b.Controls platform input h ∧
    ∀ id srv, b.heap id = some srv → srv.freed = false → ¬ srv.HasSent platform.order input.sd input.peer h.mid

/-- What the log of a pending server has to do with its cached header bits. -/
structure EcServer.Ledger (order : ByteOrder) (srv : EcServer) : Prop where
  purposes : ∀ s ∈ srv.sent, s.purpose = .ack ∨ s.purpose = .response ∨ s.purpose = .retransmission
  endpoints : ∀ s ∈ srv.sent, s.datagram.sd = srv.flow.conn.socket ∧ s.datagram.peer = srv.flow.conn.peer
  request : ∃ req, srv.req = some req ∧
    ∀ s ∈ srv.sent, s.purpose = .ack → headerMid order s.datagram.hdr = req.hdrBits.mid
  control : srv.flow.conn.isConfirmable = some true ∧ (∃ pdu, srv.octrl = some pdu ∧ pdu.hdrBits.mid = 0) ∧
      (∃ s ∈ srv.sent, s.purpose = .ack) ∨
    srv.flow.conn.isConfirmable = some false ∧ srv.octrl = none ∧ ∀ s ∈ srv.sent, s.purpose ≠ .ack
  acked : srv.state = .ackSent → (∀ s ∈ srv.sent, s.purpose = .ack) ∧ ∃ res, srv.res = some res ∧ res.hdrBits.mid = 0
  separate : srv.state = .waitAck → srv.flow.isSep = true
  waiting : srv.state = .waitAck → srv.flow.conn.isConfirmable = some true ∧ ∃ res, srv.res = some res ∧
    (∀ s ∈ srv.sent, s.purpose ≠ .ack → headerMid order s.datagram.hdr = res.hdrBits.mid ∨
      headerMid order s.datagram.hdr = 0) ∧
    ∃ s ∈ srv.sent, headerMid order s.datagram.hdr = res.hdrBits.mid

/-- A request that waits for its user has a ledger: its ACK has the request's MID, and no response was sent. -/
theorem EcServer.Waits.ledger {order : ByteOrder} {h : EcHdr} {srv : EcServer} (waits : srv.Waits order h) :
    srv.Ledger order := by
  obtain ⟨state, ⟨req, request, bits⟩, ⟨res, held, zero⟩, acked⟩ := waits
  have mid : res.hdrBits.mid = 0 := by rw [zero]; rfl
  have early : srv.state ≠ .waitAck := by
    rw [state]
    decide
  rcases acked with ⟨model, control, sent⟩ | ⟨model, control, sent⟩
  · have sole : ∀ s ∈ srv.sent, s = ⟨.ack, (separateAck order h.mid).datagram srv.flow.conn⟩ := by
      intro s member
      rw [sent] at member
      exact List.mem_singleton.mp member
    refine ⟨fun s member => ?_, fun s member => ?_, ⟨req, request, fun s member _ => ?_⟩, Or.inl ⟨model, ?_, ?_⟩,
      fun _ => ⟨fun s member => ?_, res, held, mid⟩, fun waiting => absurd waiting early,
      fun waiting => absurd waiting early⟩
    · rw [sole s member]
      exact Or.inl rfl
    · rw [sole s member]
      exact ⟨rfl, rfl⟩
    · rw [sole s member, bits]
      exact separateAck_headerMid order h.mid
    · exact ⟨_, control, rfl⟩
    · exact ⟨_, by rw [sent]; exact List.mem_cons_self, rfl⟩
    · rw [sole s member]
  · have none : ∀ s, s ∉ srv.sent := by
      intro s member
      rw [sent] at member
      cases member
    exact ⟨fun s member => absurd member (none s), fun s member => absurd member (none s),
      ⟨req, request, fun s member => absurd member (none s)⟩,
      Or.inr ⟨model, control, fun s member => absurd member (none s)⟩,
      fun _ => ⟨fun s member => absurd member (none s), res, held, mid⟩, fun waiting => absurd waiting early,
      fun waiting => absurd waiting early⟩

/-- Calls of the user, and a change of the timers, leave the ledger of a server as it is. -/
theorem EcServer.Ledger.called {order : ByteOrder} {srv called : EcServer} {resched : EcTimer}
    (ledger : srv.Ledger order) (call : {srv with resched := resched}.Called called) : called.Ledger order := by
  obtain ⟨⟨code, response, same⟩, bits, _⟩ := call
  have mids : ∀ res, srv.res = some res → ∃ res', called.res = some res' ∧ res'.hdrBits.mid = res.hdrBits.mid := by
    intro res held
    rw [held, Option.map_some] at bits
    obtain ⟨res', held', equal⟩ := Option.map_eq_some_iff.mp bits
    exact ⟨res', held', by rw [equal]⟩
  have res : called.res = response := by rw [same]
  have frame : called.sent = srv.sent ∧ called.flow.conn = srv.flow.conn ∧ called.req = srv.req ∧
      called.octrl = srv.octrl ∧ called.state = srv.state ∧ called.flow.isSep = srv.flow.isSep := by
    rw [same]
    exact ⟨rfl, rfl, rfl, rfl, rfl, rfl⟩
  obtain ⟨sent, conn, req, octrl, state, isSep⟩ := frame
  refine ⟨?_, ?_, ?_, ?_, fun acked => ?_, fun waiting => ?_, fun waiting => ?_⟩
  · rw [sent]
    exact ledger.purposes
  · rw [sent, conn]
    exact ledger.endpoints
  · rw [sent, req]
    exact ledger.request
  · rw [sent, conn, octrl]
    exact ledger.control
  · rw [state] at acked
    obtain ⟨acks, res, held, zero⟩ := ledger.acked acked
    obtain ⟨res', held', equal⟩ := mids res held
    rw [sent]
    exact ⟨acks, res', held', equal.trans zero⟩
  · rw [isSep]
    exact ledger.separate (state.symm.trans waiting)
  · rw [state] at waiting
    obtain ⟨model, res, held, entries, latest⟩ := ledger.waiting waiting
    obtain ⟨res', held', equal⟩ := mids res held
    rw [sent, conn]
    refine ⟨model, res', held', ?_, ?_⟩
    · rw [equal]
      exact entries
    · rw [equal]
      exact latest

/-- A zero MID stays zero when zero is drawn, whatever comes of the response. -/
theorem ecServerSendResp_zero (platform : Platform) (env : SendEnv) (purpose : Purpose) (w : EcWork) (res : EcPdu)
    (held : w.srv.res = some res) (zero : res.hdrBits.mid = 0) (drawn : env.rng = 0) :
    ∃ res', (ecServerSendResp platform env purpose w).1.srv.res = some res' ∧ res'.hdrBits.mid = 0 := by
  obtain ⟨sibling, paired⟩ := ecServerPairResp_frame w.srv res
  have bits : (ecServerPairResp w.srv res).1.hdrBits.mid = 0 := by rw [paired]; exact zero
  have encoding : ∀ isCon, (ecServerEncodeResp platform.order env w.srv isCon
      (ecServerPairResp w.srv res).1).1.hdrBits.mid = 0 := by
    intro isCon
    unfold ecServerEncodeResp
    split
    · unfold ecPduEncodeResponsePiggyback
      split
      · exact bits
      · split
        · exact bits
        · rw [(encodeResponse_frame _ _ _ _ _ _).1]
          exact bits
    · unfold ecPduEncodeResponseSeparate
      dsimp only
      split
      · rw [if_pos bits]
        exact drawn
      · rw [(encodeResponse_frame _ _ _ _ _ _).1, if_pos bits]
        exact drawn
  unfold ecServerSendResp
  rw [held]
  dsimp only
  split
  · exact ⟨_, rfl, bits⟩
  · split
    · exact ⟨_, rfl, bits⟩
    · split
      · exact ⟨_, rfl, bits⟩
      · rename_i isCon _
        split
        · exact ⟨_, rfl, encoding isCon⟩
        · exact ⟨_, rfl, encoding isCon⟩

/-- A first separate response goes out on the MID that it draws. -/
theorem EcServer.Ledger.answered {order : ByteOrder} {srv : EcServer} {env : SendEnv} {res : EcPdu}
    (ledger : srv.Ledger order) (acked : srv.state = .ackSent) (responds : srv.Responds res true env.sent) :
    (srv.answered order env res).Ledger order := by
  obtain ⟨_, _, mid, hdr⟩ := srv.encodedResp_parts order env true res responds (Or.inr (Or.inl acked))
  obtain ⟨acks, held, response, zero⟩ := ledger.acked acked
  have same : held = res := Option.some.inj (response.symm.trans responds.held)
  subst same
  rw [if_pos zero] at mid
  have wire : headerMid order (srv.encodedResp order env true held).hdr = env.rng := by
    rw [hdr, headerMid_headerBytes]
    exact if_pos zero
  have log : ∀ s ∈ (srv.answered order env held).sent, s ∈ srv.sent ∨
      s = ⟨.response, (srv.encodedResp order env true held).datagram srv.flow.conn⟩ := by
    intro s member
    rcases List.mem_append.mp member with before | now
    · exact Or.inl before
    · exact Or.inr (List.mem_singleton.mp now)
  have newest : (⟨.response, (srv.encodedResp order env true held).datagram srv.flow.conn⟩ : Sent) ∈
      (srv.answered order env held).sent := List.mem_append_right _ List.mem_cons_self
  refine ⟨fun s member => ?_, fun s member => ?_, ?_, ?_, fun state => (by cases state), fun _ => rfl, fun _ =>
    ⟨responds.model, _, rfl, fun s member other => ?_, _, newest, ?_⟩⟩
  · rcases log s member with before | now
    · exact ledger.purposes s before
    · rw [now]
      exact Or.inr (Or.inl rfl)
  · rcases log s member with before | now
    · exact ledger.endpoints s before
    · rw [now]
      exact ⟨rfl, rfl⟩
  · obtain ⟨req, request, acknowledged⟩ := ledger.request
    refine ⟨req, request, fun s member purpose => ?_⟩
    rcases log s member with before | now
    · exact acknowledged s before purpose
    · rw [now] at purpose
      cases purpose
  · rcases ledger.control with ⟨model, control, s, member, purpose⟩ | ⟨model, _, _⟩
    · exact Or.inl ⟨model, control, s, List.mem_append_left _ member, purpose⟩
    · exact absurd (model.symm.trans responds.model) (by simp)
  · rcases log s member with before | now
    · exact absurd (acks s before) other
    · rw [now]
      exact Or.inl (wire.trans mid.symm)
  · exact wire.trans mid.symm

/-- A retransmission goes out on the stored MID, or draws one when that is zero. -/
theorem EcServer.Ledger.repeated {order : ByteOrder} {srv retried : EcServer} {env : SendEnv} {isCon : Bool} {res : EcPdu}
    (ledger : srv.Ledger order) (waiting : srv.state = .waitAck)
    (responds : retried.Responds res isCon env.sent) (coap : EcTimer)
    (frame : retried = {srv with coap := srv.coap.fired, state := .coapRetry})
    (agrees : res.hdrBits.mid ≠ 0 → env.junk = res.hdrBits.mid) :
    (retried.repeated order env isCon res coap).Ledger order := by
  have flow : retried.flow = srv.flow := by rw [frame]
  have sent : retried.sent = srv.sent := by rw [frame]
  have separate : retried.flow.isSep = true := by
    rw [flow]
    exact ledger.separate waiting
  obtain ⟨_, _, mid, hdr⟩ := retried.encodedResp_parts order env isCon res responds (Or.inl separate)
  obtain ⟨model, held, response, entries, _⟩ := ledger.waiting waiting
  have same : held = res := by
    have stored := responds.held
    rw [frame] at stored
    exact Option.some.inj (response.symm.trans stored)
  subst same
  have wire : headerMid order (retried.encodedResp order env isCon held).hdr =
      (retried.encodedResp order env isCon held).hdrBits.mid := by
    rw [hdr, headerMid_headerBytes, mid]
    unfold SendEnv.wireMid
    split
    · rfl
    · rename_i stored
      exact agrees stored
  have log : ∀ s ∈ (retried.repeated order env isCon held coap).sent, s ∈ srv.sent ∨
      s = ⟨.retransmission, (retried.encodedResp order env isCon held).datagram retried.flow.conn⟩ := by
    intro s member
    rcases List.mem_append.mp member with before | now
    · exact Or.inl (sent ▸ before)
    · exact Or.inr (List.mem_singleton.mp now)
  have newest : (⟨.retransmission, (retried.encodedResp order env isCon held).datagram retried.flow.conn⟩ : Sent) ∈
      (retried.repeated order env isCon held coap).sent := List.mem_append_right _ List.mem_cons_self
  have kept : ∀ s ∈ srv.sent, s ∈ (retried.repeated order env isCon held coap).sent := fun s member =>
    List.mem_append_left _ (by rw [sent]; exact member)
  refine ⟨fun s member => ?_, fun s member => ?_, ?_, ?_, fun state => (by cases state), fun _ => separate, fun _ =>
    ⟨by rw [← model, ← flow]; rfl, _, rfl, fun s member other => ?_, _, newest, wire⟩⟩
  · rcases log s member with before | now
    · exact ledger.purposes s before
    · rw [now]
      exact Or.inr (Or.inr rfl)
  · rcases log s member with before | now
    · change s.datagram.sd = retried.flow.conn.socket ∧ s.datagram.peer = retried.flow.conn.peer
      rw [flow]
      exact ledger.endpoints s before
    · rw [now]
      exact ⟨rfl, rfl⟩
  · obtain ⟨req, request, acknowledged⟩ := ledger.request
    refine ⟨req, ?_, fun s member purpose => ?_⟩
    · change retried.req = some req
      rw [frame]
      exact request
    · rcases log s member with before | now
      · exact acknowledged s before purpose
      · rw [now] at purpose
        cases purpose
  · change retried.flow.conn.isConfirmable = some true ∧ (∃ pdu, retried.octrl = some pdu ∧ pdu.hdrBits.mid = 0) ∧ _ ∨ _
    rcases ledger.control with ⟨_, control, s, member, purpose⟩ | ⟨other, _, _⟩
    · rw [flow]
      refine Or.inl ⟨model, ?_, s, kept s member, purpose⟩
      rw [frame]
      exact control
    · exact absurd (model.symm.trans other) (by simp)
  · rcases log s member with before | now
    · rcases entries s before other with stored | zero
      · by_cases drawn : held.hdrBits.mid = 0
        · exact Or.inr (stored.trans drawn)
        · exact Or.inl (stored.trans (by rw [mid, if_neg drawn]))
      · exact Or.inr zero
    · rw [now]
      exact Or.inl wire

section Runs

variable {platform : Platform} {b : EcBase}

/-- The base with a ledger for each pending server. -/
structure EcBase.Kept (order : ByteOrder) (b : EcBase) : Prop where
  settled : b.Settled
  ledgers : ∀ id srv, b.heap id = some srv → srv.freed = false → srv.Ledger order

/-- An event that meets the guard keeps the ledger of the server that it gives work to. -/
theorem ServerLife.ledger {event : BaseEvent} {id : SrvId} {srv : EcServer} (kept : b.Kept platform.order)
    (agrees : MidsAgree platform b event) (life : ServerLife platform b event id srv) (live : srv.freed = false) :
    srv.Ledger platform.order := by
  cases life with
  | ended _ _ old _ stored _ freed logs => exact absurd (live.symm.trans freed) (by decide)
  | refused input _ freed logs => exact absurd (live.symm.trans freed) (by decide)
  | waits input h _ accepts method waiting => exact waiting.ledger
  | answers _ _ env old called res stored alive acked call responds =>
      exact ((kept.ledgers id old stored alive).called call).answered (call.state.trans acked) responds
  | repeats _ env old isCon res coap stored alive armed waiting left responds =>
      exact (kept.ledgers id old stored alive).repeated waiting responds coap rfl
        (agrees old res isCon stored alive armed left responds)
  | fails _ calls env old w stored alive acked called silent =>
      have call := applyCalls_called platform calls (b.work id old)
      rw [← called] at call
      have ledger := (kept.ledgers id old stored alive).called call
      have state : w.srv.state = .ackSent := call.state.trans acked
      obtain ⟨acks, res, held, zero⟩ := ledger.acked state
      have response : ∃ res, (ecServerSendResp platform env .response w).1.srv.res = some res ∧ res.hdrBits.mid = 0 := by
        rcases agrees old stored alive acked with drawn | uncoded | responds
        · exact ecServerSendResp_zero platform env .response w res held zero drawn
        · rw [← called] at uncoded
          rw [ecServerSendResp_uncoded platform env .response w state uncoded]
          exact ⟨res, held, zero⟩
        · rw [← called] at responds
          exact absurd responds silent
      exact ⟨ledger.purposes, ledger.endpoints, ledger.request, ledger.control, fun _ => ⟨acks, response⟩,
        fun waiting => absurd (state.symm.trans waiting) (by decide),
        fun waiting => absurd (state.symm.trans waiting) (by decide)⟩
  | idle _ calls env old stored alive quiet =>
      exact (kept.ledgers id old stored alive).called
        (applyCalls_called platform calls (b.work id old))

theorem ecInit_kept (order : ByteOrder) : ecInit.Kept order :=
  ⟨ecInit_settled, fun _ _ stored => absurd stored (by simp [ecInit])⟩

/-- A guarded step keeps the ledgers. -/
theorem baseStep_kept {event : BaseEvent} {b' : EcBase} (kept : b.Kept platform.order)
    (agrees : MidsAgree platform b event) (finished : baseStep platform b event = .ok b') : b'.Kept platform.order := by
  refine ⟨baseStep_keeps_settled kept.settled finished, fun id srv stored live => ?_⟩
  rcases baseStep_effect finished with same | ⟨here, w, work, worked⟩
  · exact kept.ledgers id srv (same.heap ▸ stored) live
  · rw [worked.heap] at stored
    split at stored
    · cases stored
      exact (work.life kept.settled).ledger kept agrees live
    · exact kept.ledgers id srv stored live

/-- A message without a code affects the server that the lookup returns, when it gets that far. -/
theorem EcBase.Arrives.affects_iff {input : ServerInput} {h : EcHdr} (arrives : b.Arrives platform input h)
    (settled : b.Settled) (id : SrvId) (srv : EcServer) (stored : b.heap id = some srv) (live : srv.freed = false) :
    (∃ b', baseStep platform b (.datagram input) = .ok b' ∧ b'.heap id ≠ some srv) ↔
      b.Controls platform input h ∧ ecServersLookup b h.mid input.sd input.peer = some id := by
  constructor
  · rintro ⟨b', finished, changed⟩
    rcases baseStep_effect finished with same | ⟨here, w, work, worked⟩
    · exact absurd (by rw [same.heap]; exact stored) changed
    · have self : w.self = here := (work.done settled).same
      have affected : id = here := by
        by_contra other
        exact changed (by rw [worked.heap, self, if_neg other]; exact stored)
      subst affected
      cases work with
      | control _ h' _ srv' _ rc controls found stored' worked' =>
          have same : h' = h := Option.some.inj (controls.header.symm.trans arrives.header)
          exact same ▸ ⟨controls, found⟩
      | request _ h' _ rc accepts method worked' =>
          have same : h' = h := Option.some.inj (accepts.header.symm.trans arrives.header)
          rw [same, arrives.empty] at method
          exact absurd method.1 (by decide)
  · rintro ⟨controls, found⟩
    obtain ⟨w, rc, ended, freed⟩ := ecServerControlled_ended platform h input ((b.seen platform input h).work id srv)
    have work : ServerWork platform b (.datagram input) id w := .control input h id srv w rc controls found stored ended
    obtain ⟨b', finished, worked⟩ := work.step
    refine ⟨b', finished, fun same => ?_⟩
    have self : w.self = id := (work.done settled).same
    rw [worked.heap, self, if_pos rfl] at same
    cases same
    exact absurd (live.symm.trans freed) (by decide)

/-- A server has sent a MID to the endpoints of its flow only. -/
theorem EcServer.Ledger.hasSent_iff {order : ByteOrder} {srv : EcServer} (ledger : srv.Ledger order) (sd : Int)
    (peer : SockAddr) (mid : UInt16) : srv.HasSent order sd peer mid ↔
      (srv.flow.conn.socket = sd ∧ srv.flow.conn.peer = peer) ∧ ∃ s ∈ srv.sent, headerMid order s.datagram.hdr = mid := by
  constructor
  · rintro ⟨s, member, _, socket, address, wire⟩
    obtain ⟨same, equal⟩ := ledger.endpoints s member
    exact ⟨⟨same.symm.trans socket, equal.symm.trans address⟩, s, member, wire⟩
  · rintro ⟨⟨socket, address⟩, s, member, wire⟩
    obtain ⟨same, equal⟩ := ledger.endpoints s member
    exact ⟨s, member, ledger.purposes s member, same.trans socket, equal.trans address, wire⟩

/-- A MID other than zero was sent in the ACK of a request, or in the separate response that waits. -/
theorem EcServer.Ledger.sent_iff {order : ByteOrder} {srv : EcServer} (ledger : srv.Ledger order)
    (state : srv.state = .ackSent ∨ srv.state = .waitAck) (mid : UInt16) (nonzero : mid ≠ 0) :
    (∃ s ∈ srv.sent, headerMid order s.datagram.hdr = mid) ↔ srv.Acknowledged mid ∨ srv.Awaits mid := by
  obtain ⟨req, request, acknowledged⟩ := ledger.request
  constructor
  · rintro ⟨s, member, wire⟩
    by_cases ack : s.purpose = .ack
    · rcases ledger.control with ⟨_, ⟨pdu, control, _⟩, _⟩ | ⟨_, _, unacked⟩
      · exact Or.inl ⟨by rw [control]; rfl, req, request, (acknowledged s member ack).symm.trans wire⟩
      · exact absurd ack (unacked s member)
    · rcases state with acked | waiting
      · exact absurd ((ledger.acked acked).1 s member) ack
      · obtain ⟨_, res, held, entries, _⟩ := ledger.waiting waiting
        rcases entries s member ack with stored | zero
        · exact Or.inr ⟨waiting, res, held, stored.symm.trans wire⟩
        · exact absurd (wire.symm.trans zero) nonzero
  · rintro (⟨control, req', request', same⟩ | ⟨waiting, res, held, same⟩)
    · rcases ledger.control with ⟨_, _, s, member, ack⟩ | ⟨_, none, _⟩
      · have equal : req = req' := Option.some.inj (request.symm.trans request')
        exact ⟨s, member, (acknowledged s member ack).trans (by rw [equal]; exact same)⟩
      · rw [none] at control
        cases control
    · obtain ⟨_, res', held', _, s, member, latest⟩ := ledger.waiting waiting
      have equal : res' = res := Option.some.inj (held'.symm.trans held)
      exact ⟨s, member, latest.trans (by rw [equal]; exact same)⟩

/-- The cached header bits of a pending server hold zero, and the MID of the separate response that waits. -/
theorem EcServer.Ledger.hasMid_iff {order : ByteOrder} {srv : EcServer} (ledger : srv.Ledger order)
    (state : srv.state = .ackSent ∨ srv.state = .waitAck) (mid : UInt16) :
    srv.hasMid mid = true ↔ mid = 0 ∨ srv.Awaits mid := by
  have control : (srv.octrl.any fun pdu => pdu.hdrBits.mid == mid) = true ↔ srv.octrl.isSome ∧ mid = 0 := by
    rcases ledger.control with ⟨_, ⟨pdu, found, zero⟩, _⟩ | ⟨_, none, _⟩
    · rw [found, Option.any_some, zero, beq_iff_eq, Option.isSome_some]
      exact ⟨fun same => ⟨rfl, same.symm⟩, fun same => same.2.symm⟩
    · rw [none]
      simp
  have response : ∀ res, srv.res = some res → ((srv.res.any fun pdu => pdu.hdrBits.mid == mid) = true ↔
      res.hdrBits.mid = mid) := by
    intro res held
    rw [held, Option.any_some]
    simp
  unfold EcServer.hasMid
  rw [Bool.or_eq_true, control]
  rcases state with acked | waiting
  · obtain ⟨_, res, held, zero⟩ := ledger.acked acked
    rw [response res held, zero]
    constructor
    · rintro (⟨_, same⟩ | same)
      · exact Or.inl same
      · exact Or.inl same.symm
    · rintro (same | ⟨waiting, _⟩)
      · exact Or.inr same.symm
      · exact absurd (acked.symm.trans waiting) (by decide)
  · obtain ⟨model, res, held, _⟩ := ledger.waiting waiting
    have acknowledged : srv.octrl.isSome := by
      rcases ledger.control with ⟨_, ⟨pdu, found, _⟩, _⟩ | ⟨other, _, _⟩
      · rw [found]
        rfl
      · exact absurd (model.symm.trans other) (by simp)
    rw [response res held]
    constructor
    · rintro (⟨_, same⟩ | same)
      · exact Or.inl same
      · exact Or.inr ⟨waiting, res, held, same⟩
    · rintro (same | ⟨_, res', held', same⟩)
      · exact Or.inl ⟨acknowledged, same⟩
      · have equal : res' = res := Option.some.inj (held'.symm.trans held)
        exact Or.inr (equal ▸ same)

theorem EcBase.Kept.state {order : ByteOrder} (kept : b.Kept order) {id : SrvId} {srv : EcServer}
    (stored : b.heap id = some srv) (live : srv.freed = false) : srv.state = .ackSent ∨ srv.state = .waitAck := by
  rcases (kept.settled.pending id srv stored live).2.state with ⟨acked, _⟩ | ⟨waiting, _⟩
  · exact Or.inl acked
  · exact Or.inr waiting

/-- The lookup takes the first pending server of the endpoints that has the MID. -/
theorem EcBase.Kept.lookupMatch_iff {order : ByteOrder} (kept : b.Kept order) (mid : UInt16) (sd : Int)
    (peer : SockAddr) (id : SrvId) (member : id ∈ b.servers) : b.lookupMatch mid sd peer id = true ↔
      ∃ srv, b.Faces sd peer id srv ∧ (mid = 0 ∨ srv.Awaits mid) := by
  obtain ⟨srv, stored, live⟩ := kept.settled.listed id member
  have cached := (kept.ledgers id srv stored live).hasMid_iff (kept.state stored live) mid
  unfold lookupMatch
  rw [stored]
  dsimp only
  rw [Bool.and_eq_true, Bool.and_eq_true, beq_iff_eq, beq_iff_eq, cached]
  constructor
  · rintro ⟨⟨socket, address⟩, hit⟩
    exact ⟨srv, ⟨stored, live, socket, address⟩, hit⟩
  · rintro ⟨srv', ⟨stored', _, socket, address⟩, hit⟩
    have same : srv = srv' := Option.some.inj (stored.symm.trans stored')
    subst same
    exact ⟨⟨socket, address⟩, hit⟩

/-- With the MID zero, every pending server of the endpoints matches. -/
theorem EcBase.Kept.lookup_zero {order : ByteOrder} (kept : b.Kept order) (sd : Int) (peer : SockAddr)
    (family : (ecNetSocklen peer).isSome) : ecServersLookup b 0 sd peer = b.servers.find? fun other =>
      (b.heap other).any fun srv => srv.flow.conn.socket == sd && srv.flow.conn.peer == peer := by
  obtain ⟨length, known⟩ := Option.isSome_iff_exists.mp family
  unfold ecServersLookup
  rw [known]
  apply List.find?_congr
  intro id member
  obtain ⟨srv, stored, live⟩ := kept.settled.listed id member
  have cached := ((kept.ledgers id srv stored live).hasMid_iff (kept.state stored live) 0).mpr (Or.inl rfl)
  unfold lookupMatch
  rw [stored]
  dsimp only
  rw [cached]
  simp

/-- The lookup returns the pending servers that have sent the MID, and these alone, exactly when it is not mixed up. -/
theorem EcBase.Kept.unmixed_iff {order : ByteOrder} (kept : b.Kept order) (mid : UInt16) (sd : Int) (peer : SockAddr)
    (family : (ecNetSocklen peer).isSome) : b.Unmixed order sd peer mid ↔
      ∀ id srv, b.heap id = some srv → srv.freed = false →
        (ecServersLookup b mid sd peer = some id ↔ srv.HasSent order sd peer mid) := by
  by_cases zero : mid = 0
  · subst zero
    rw [kept.lookup_zero sd peer family]
    constructor
    · rintro ⟨_, first⟩ id srv stored live
      by_cases faces : srv.flow.conn.socket = sd ∧ srv.flow.conn.peer = peer
      · exact first rfl id srv ⟨stored, live, faces.1, faces.2⟩
      · constructor
        · intro found
          have hit := List.find?_some found
          rw [stored] at hit
          exact absurd (by simpa using hit) faces
        · intro sent
          exact absurd (((kept.ledgers id srv stored live).hasSent_iff sd peer 0).mp sent).1 faces
    · intro returns
      exact ⟨fun nonzero => absurd rfl nonzero, fun _ id srv faces => returns id srv faces.1 faces.2.1⟩
  · have sent : ∀ id srv, b.Faces sd peer id srv →
        (srv.HasSent order sd peer mid ↔ srv.Acknowledged mid ∨ srv.Awaits mid) := by
      intro id srv faces
      obtain ⟨stored, live, socket, address⟩ := faces
      have ledger := kept.ledgers id srv stored live
      rw [ledger.hasSent_iff, ledger.sent_iff (kept.state stored live) mid zero]
      exact ⟨fun both => both.2, fun either => ⟨⟨socket, address⟩, either⟩⟩
    have lookup : ∀ id, ecServersLookup b mid sd peer = some id → ∃ srv, b.Faces sd peer id srv ∧ srv.Awaits mid := by
      intro id found
      obtain ⟨member, hit⟩ := ecServersLookup_mem found
      obtain ⟨srv, faces, matched⟩ := (kept.lookupMatch_iff mid sd peer id member).mp hit
      exact ⟨srv, faces, matched.resolve_left zero⟩
    constructor
    · rintro ⟨unmixed, _⟩ id srv stored live
      obtain ⟨apart, unique⟩ := unmixed zero
      constructor
      · intro found
        obtain ⟨srv', faces, awaits⟩ := lookup id found
        have same : srv = srv' := Option.some.inj (stored.symm.trans faces.1)
        subst same
        exact (sent id srv faces).mpr (Or.inr awaits)
      · intro hasSent
        obtain ⟨⟨socket, address⟩, _⟩ := ((kept.ledgers id srv stored live).hasSent_iff sd peer mid).mp hasSent
        have faces : b.Faces sd peer id srv := ⟨stored, live, socket, address⟩
        have awaits : srv.Awaits mid := by
          rcases (sent id srv faces).mp hasSent with acknowledged | awaits
          · exact apart id srv faces acknowledged
          · exact awaits
        have member := (kept.settled.pending id srv stored live).1
        have hit := (kept.lookupMatch_iff mid sd peer id member).mpr ⟨srv, faces, Or.inr awaits⟩
        obtain ⟨length, known⟩ := Option.isSome_iff_exists.mp family
        have some : (ecServersLookup b mid sd peer).isSome := by
          unfold ecServersLookup
          rw [known]
          exact List.find?_isSome.mpr ⟨id, member, hit⟩
        obtain ⟨other, found⟩ := Option.isSome_iff_exists.mp some
        obtain ⟨srv', faces', awaits'⟩ := lookup other found
        rw [found, unique id srv other srv' faces faces' awaits awaits']
    · intro returns
      refine ⟨fun _ => ⟨fun id srv faces acknowledged => ?_, fun id srv id' srv' faces faces' awaits awaits' => ?_⟩,
        fun same => absurd same zero⟩
      · have found := (returns id srv faces.1 faces.2.1).mpr ((sent id srv faces).mpr (Or.inl acknowledged))
        obtain ⟨srv', faces', awaits⟩ := lookup id found
        have same : srv = srv' := Option.some.inj (faces.1.symm.trans faces'.1)
        exact same ▸ awaits
      · have found := (returns id srv faces.1 faces.2.1).mpr ((sent id srv faces).mpr (Or.inr awaits))
        have found' := (returns id' srv' faces'.1 faces'.2.1).mpr ((sent id' srv' faces').mpr (Or.inr awaits'))
        exact Option.some.inj (found.symm.trans found')

/-- A message affects exactly the servers that have sent its MID when it is matchable, and only then. -/
theorem EcBase.Kept.matches_iff (kept : b.Kept platform.order) {input : ServerInput} {h : EcHdr}
    (arrives : b.Arrives platform input h) : b.Matches platform input h ↔ b.Matchable platform input h := by
  have affects := arrives.affects_iff kept.settled
  by_cases controls : b.Controls platform input h
  · have unmixed := kept.unmixed_iff h.mid input.sd input.peer arrives.family
    constructor
    · intro matching
      refine Or.inl ⟨controls, unmixed.mpr fun id srv stored live => ?_⟩
      obtain ⟨affected, returned⟩ := matching id srv stored live
      rw [affects id srv stored live] at affected
      exact ⟨fun found => affected.mp ⟨controls, found⟩, returned⟩
    · rintro (⟨_, apart⟩ | ⟨other, _⟩) id srv stored live
      · have returns := unmixed.mp apart id srv stored live
        rw [affects id srv stored live]
        exact ⟨⟨fun both => returns.mp both.2, fun sent => ⟨controls, returns.mpr sent⟩⟩, returns.mpr⟩
      · exact absurd controls other
  · constructor
    · intro matching
      refine Or.inr ⟨controls, fun id srv stored live sent => ?_⟩
      obtain ⟨affected, _⟩ := matching id srv stored live
      rw [affects id srv stored live] at affected
      exact controls (affected.mpr sent).1
    · rintro (⟨other, _⟩ | ⟨_, silent⟩) id srv stored live
      · exact absurd other controls
      · rw [affects id srv stored live]
        exact ⟨⟨fun both => absurd both.1 controls, fun sent => absurd sent (silent id srv stored live)⟩,
          fun sent => absurd sent (silent id srv stored live)⟩

end Runs

/-- In every state of a run whose responses go out on their stored MIDs, a message without a code affects exactly the
servers that have sent its MID when it is matchable, and only then. -/
theorem baseRun_matches_iff (platform : Platform) (events : List BaseEvent) (b : EcBase)
    (guarded : (baseMachine platform).Meets (MidsAgree platform) ecInit events)
    (finished : (baseMachine platform).run ecInit events = .ok b) (input : ServerInput) (h : EcHdr)
    (arrives : b.Arrives platform input h) : b.Matches platform input h ↔ b.Matchable platform input h := by
  have kept : b.Kept platform.order := (baseMachine platform).run_invariant (MidsAgree platform)
    (EcBase.Kept platform.order) (fun _ _ _ kept agrees stepped => baseStep_kept kept agrees stepped)
    (ecInit_kept platform.order) guarded finished
  exact kept.matches_iff arrives

/-- A GET that its user makes wait. -/
def acknowledgedGet : List BaseEvent := [.callbacks [] true, .datagram waitingGet]

/-- A reset from the same client on the MID zero, which was never sent to it. -/
def strayReset : ServerInput := loopbackInput [0x70, 0, 0, 0] waits 0

/-- The reset takes the server, whose only message was the ACK of the request on MID 7. -/
theorem strayReset_mismatch : ∃ b h, (baseMachine serverPlatform).run ecInit acknowledgedGet = .ok b ∧
    b.Arrives serverPlatform strayReset h ∧ ¬ b.Matches serverPlatform strayReset h := by
  have run : ∃ b srv b' h, (baseMachine serverPlatform).run ecInit acknowledgedGet = .ok b ∧
      b.heap 0 = some srv ∧ srv.freed = false ∧
      srv.sent.all (fun s => headerMid .little s.datagram.hdr != 0) = true ∧
      b.Arrives serverPlatform strayReset h ∧ h.mid = 0 ∧
      baseStep serverPlatform b (.datagram strayReset) = .ok b' ∧ b'.heap 0 ≠ some srv := by
    refine ⟨_, _, _, ⟨.rst, 0, 0, 0⟩, rfl, rfl, rfl, rfl, ⟨?_, rfl, rfl, rfl, fun _ _ => rfl⟩, rfl, rfl, ?_⟩
    · decide
    · intro same
      have freed := congrArg (fun stored => stored.map EcServer.freed) same
      exact absurd freed (by decide)
  obtain ⟨b, srv, b', h, finished, stored, live, silent, arrives, mid, stepped, changed⟩ := run
  refine ⟨b, h, finished, arrives, fun matching => ?_⟩
  obtain ⟨s, member, _, _, _, wire⟩ := (matching 0 srv stored live).1.mp ⟨b', stepped, changed⟩
  have other := List.all_eq_true.mp silent s member
  rw [bne_iff_ne, ← mid] at other
  exact other wire

/-- The run before the reset draws no MID on a wakeup and retransmits nothing. -/
theorem acknowledgedGet_meets :
    (baseMachine serverPlatform).Meets (MidsAgree serverPlatform) ecInit acknowledgedGet :=
  ⟨trivial, fun _ _ => ⟨trivial, fun _ _ => trivial⟩⟩

/-- A reset disposes of a server that has sent nothing on its MID. -/
theorem strayReset_unmatched : ¬ ∀ (platform : Platform) (events : List BaseEvent) (b : EcBase),
    (baseMachine platform).run ecInit events = .ok b →
      ∀ input h, b.Arrives platform input h → b.Matches platform input h := by
  intro always
  obtain ⟨b, h, finished, arrives, mismatch⟩ := strayReset_mismatch
  exact mismatch (always serverPlatform acknowledgedGet b finished strayReset h arrives)

/-- The reset on the MID zero is not matchable after the run. -/
theorem strayReset_unmatchable : ∃ b h, (baseMachine serverPlatform).run ecInit acknowledgedGet = .ok b ∧
    ¬ b.Matchable serverPlatform strayReset h := by
  obtain ⟨b, h, finished, arrives, mismatch⟩ := strayReset_mismatch
  exact ⟨b, h, finished, fun matchable => mismatch ((baseRun_matches_iff serverPlatform acknowledgedGet b
    acknowledgedGet_meets finished strayReset h arrives).mpr matchable)⟩

end Webthings.Evcoap
