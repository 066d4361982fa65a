import Webthings.Evcoap.Server

namespace Webthings.Evcoap

/-- The options of a response with the token of its request mirrored. -/
def mirrorToken (opts : EcOpts) (token : List UInt8) : EcOpts × Int :=
  if token ≠ [] then ecOptsAddToken opts token else (opts, 0)

/-- The options of a response find room, with the mirrored token, in the bundle and in the buffer. -/
def EcOpts.Encodes (opts : EcOpts) (token : List UInt8) : Prop :=
  (mirrorToken opts token).2 = 0 ∧ encodedSize 0 (mirrorToken opts token).1.bundle.list ≤ ecOptsMaxLen

instance (opts : EcOpts) (token : List UInt8) : Decidable (opts.Encodes token) := inferInstanceAs (Decidable (_ ∧ _))

/-- A response after its encoding. -/
def EcPdu.responded (order : ByteOrder) (flow : EcFlow) (pdu : EcPdu) (t : EcMsgModel) (mid : UInt16) : EcPdu :=
  let opts := (mirrorToken pdu.opts flow.token).1.encoded
  {pdu with opts := opts, hdr := headerBytes order opts.noptions (rcByte flow.respCode) t mid}

theorem ecIsRespCode_ne_unset {rc : EcRc} (response : ecIsRespCode rc) : rc ≠ ecRcUnset := by
  intro unset
  subst unset
  exact absurd response (by decide)

/-- A response code other than zero in anything but a reset makes for options with the mirrored token. -/
theorem encodeResponse_mirrors (order : ByteOrder) (flow : EcFlow) (pdu : EcPdu) (t : EcMsgModel) (mid : UInt16)
    (elicited : t ≠ .rst) (response : ecIsRespCode flow.respCode) :
    encodeResponse order flow pdu t flow.respCode mid =
      if (mirrorToken pdu.opts flow.token).2 ≠ 0 then ({pdu with opts := (mirrorToken pdu.opts flow.token).1}, -1)
      else if (ecOptsEncode (mirrorToken pdu.opts flow.token).1).2 ≠ 0 then
        ({pdu with opts := (ecOptsEncode (mirrorToken pdu.opts flow.token).1).1}, -1)
      else (encodeHeader order {pdu with opts := (ecOptsEncode (mirrorToken pdu.opts flow.token).1).1}
        (rcByte flow.respCode) t mid, 0) := by
  unfold encodeResponse
  rw [if_pos ⟨elicited, ecIsRespCode_ne_unset response⟩]
  rfl

/-- Options and header are encoded when the options find room. -/
theorem encodeResponse_fits (order : ByteOrder) (flow : EcFlow) (pdu : EcPdu) (t : EcMsgModel) (mid : UInt16)
    (elicited : t ≠ .rst) (response : ecIsRespCode flow.respCode) (room : pdu.opts.Encodes flow.token) :
    encodeResponse order flow pdu t flow.respCode mid = (pdu.responded order flow t mid, 0) := by
  obtain ⟨mirrored, fits⟩ := room
  rw [encodeResponse_mirrors order flow pdu t mid elicited response, if_neg (by simp [mirrored]),
    ecOptsEncode_fits _ fits, if_neg (by simp)]
  rfl

/-- An encoding fails when the options find no room. -/
theorem encodeResponse_full (order : ByteOrder) (flow : EcFlow) (pdu : EcPdu) (t : EcMsgModel) (mid : UInt16)
    (elicited : t ≠ .rst) (response : ecIsRespCode flow.respCode) (full : ¬ pdu.opts.Encodes flow.token) :
    (encodeResponse order flow pdu t flow.respCode mid).2 = -1 := by
  rw [encodeResponse_mirrors order flow pdu t mid elicited response]
  split
  · rfl
  · rename_i mirrored
    split
    · rfl
    · rename_i encoded
      exact absurd ⟨by simpa using mirrored, (ecOptsEncode_ok_iff _).mp (by simpa using encoded)⟩ full

/-- Whatever comes of an encoding, the cached header bits, the payload and the sibling stay. -/
theorem encodeResponse_frame (order : ByteOrder) (flow : EcFlow) (pdu : EcPdu) (t : EcMsgModel) (rc : EcRc)
    (mid : UInt16) : (encodeResponse order flow pdu t rc mid).1.hdrBits = pdu.hdrBits ∧
      (encodeResponse order flow pdu t rc mid).1.payload = pdu.payload ∧
      (encodeResponse order flow pdu t rc mid).1.sibling = pdu.sibling := by
  unfold encodeResponse
  split
  · dsimp only
    split
    · split
      · exact ⟨rfl, rfl, rfl⟩
      · split <;> exact ⟨rfl, rfl, rfl⟩
    · split
      · exact ⟨rfl, rfl, rfl⟩
      · split <;> exact ⟨rfl, rfl, rfl⟩
  · exact ⟨rfl, rfl, rfl⟩

/-- A response is paired with the request that it answers, unless the request has been acknowledged before. -/
def EcServer.Pairs (srv : EcServer) (res : EcPdu) : Prop :=
  srv.state ≠ .ackSent → ∃ req, srv.req = some req ∧ (res.sibling = none ∨ res.sibling = some req.hdrBits.mid)

/-- The response of a server encodes, and the socket takes it. -/
structure EcServer.Responds (srv : EcServer) (res : EcPdu) (isCon sent : Bool) : Prop where
  held : srv.res = some res
  pairs : srv.Pairs res
  code : ecIsRespCode srv.flow.respCode
  model : srv.flow.conn.isConfirmable = some isCon
  encodes : res.opts.Encodes srv.flow.token
  taken : sent = true
  socket : srv.flow.conn.socket ≠ -1
  peer : (ecNetSocklen srv.flow.conn.peer).isSome

/-- The pairing of a response fails only for want of a request or for a response to another one. -/
theorem ecServerPairResp_ok_iff (srv : EcServer) (res : EcPdu) :
    (ecServerPairResp srv res).2 = 0 ↔ srv.Pairs res := by
  unfold ecServerPairResp EcServer.Pairs ecPduSetSibling
  by_cases separate : srv.state = .ackSent
  · simp [separate]
  · rw [if_pos separate]
    cases request : srv.req with
    | none => simp [separate]
    | some req =>
        have pairs : (∃ other, some req = some other ∧ (res.sibling = none ∨ res.sibling = some other.hdrBits.mid)) ↔
            (res.sibling = none ∨ res.sibling = some req.hdrBits.mid) :=
          ⟨fun ⟨_, same, pair⟩ => Option.some.inj same ▸ pair, fun pair => ⟨req, rfl, pair⟩⟩
        simp only [separate, not_false_eq_true, ne_eq, true_implies, pairs, Option.map_some]
        split
        · rename_i other
          simp [other.1, other.2]
        · rename_i free
          simp only [true_iff]
          by_cases absent : res.sibling = none
          · exact Or.inl absent
          · exact Or.inr (by_contra fun other => free ⟨absent, other⟩)

/-- The pairing keeps the options, the payload and the cached header bits. -/
theorem ecServerPairResp_frame (srv : EcServer) (res : EcPdu) :
    ∃ sibling, (ecServerPairResp srv res).1 = {res with sibling := sibling} := by
  unfold ecServerPairResp ecPduSetSibling
  split
  · split
    · exact ⟨_, rfl⟩
    · split <;> exact ⟨_, rfl⟩
  · exact ⟨_, rfl⟩

/-- The type of a response that goes out in a message of its own. -/
def separateType (isCon : Bool) : EcMsgModel := if isCon then .con else .non

/-- The response with the MID that a separate message draws when none is cached. -/
def EcPdu.drawn (pdu : EcPdu) (rng : UInt16) : EcPdu :=
  if pdu.hdrBits.mid = 0 then {pdu with hdrBits := {pdu.hdrBits with mid := rng}} else pdu

theorem EcPdu.drawn_opts (pdu : EcPdu) (rng : UInt16) : (pdu.drawn rng).opts = pdu.opts := by
  unfold drawn
  split <;> rfl

/-- A separate response is encoded with the MID of the local variable, not with the cached one. -/
theorem ecPduEncodeResponseSeparate_some (order : ByteOrder) (env : SendEnv) (flow : EcFlow) (pdu : EcPdu)
    (isCon : Bool) (model : flow.conn.isConfirmable = some isCon) :
    ecPduEncodeResponseSeparate order env flow pdu =
      encodeResponse order flow (pdu.drawn env.rng) (separateType isCon) flow.respCode (env.wireMid pdu.hdrBits) := by
  unfold ecPduEncodeResponseSeparate
  dsimp only
  rw [model]
  rfl

theorem separateType_ne_rst (isCon : Bool) : separateType isCon ≠ .rst := by
  cases isCon <;> decide

/-- Both ways of encoding a response succeed when its options find room. -/
theorem ecServerEncodeResp_ok_iff (order : ByteOrder) (env : SendEnv) (srv : EcServer) (isCon : Bool) (res : EcPdu)
    (code : ecIsRespCode srv.flow.respCode) (model : srv.flow.conn.isConfirmable = some isCon)
    (pairs : srv.Pairs res) :
    (ecServerEncodeResp order env srv isCon (ecServerPairResp srv res).1).2 = 0 ↔
      res.opts.Encodes srv.flow.token := by
  obtain ⟨sibling, same⟩ := ecServerPairResp_frame srv res
  have opts : (ecServerPairResp srv res).1.opts = res.opts := by rw [same]
  have encoding : ∀ (pdu : EcPdu) (t : EcMsgModel) (mid : UInt16), t ≠ .rst → pdu.opts = res.opts →
      ((encodeResponse order srv.flow pdu t srv.flow.respCode mid).2 = 0 ↔ res.opts.Encodes srv.flow.token) := by
    intro pdu t mid elicited equal
    by_cases room : pdu.opts.Encodes srv.flow.token
    · rw [encodeResponse_fits order srv.flow pdu t mid elicited code room]
      exact ⟨fun _ => equal ▸ room, fun _ => rfl⟩
    · rw [encodeResponse_full order srv.flow pdu t mid elicited code room]
      exact ⟨fun zero => absurd zero (by decide), fun other => absurd (equal ▸ other) room⟩
  unfold ecServerEncodeResp
  split
  · rename_i piggyback
    unfold ecPduEncodeResponsePiggyback
    rw [if_neg (by simpa using code)]
    have mirrored : ∃ mid, (ecServerPairResp srv res).1.sibling = some mid := by
      obtain ⟨req, request, pair⟩ := pairs piggyback.2.2
      unfold ecServerPairResp ecPduSetSibling
      rw [if_pos piggyback.2.2, request]
      dsimp only [Option.map_some]
      split
      · rename_i other
        rcases pair with absent | equal
        · exact absurd absent other.1
        · exact absurd equal other.2
      · exact ⟨_, rfl⟩
    obtain ⟨mid, found⟩ := mirrored
    rw [found]
    exact encoding _ _ _ (by decide) opts
  · rw [ecPduEncodeResponseSeparate_some order env srv.flow _ isCon model]
    exact encoding _ _ _ (separateType_ne_rst isCon) ((EcPdu.drawn_opts _ _).trans opts)

/-- The response that a server sends, encoded. -/
def EcServer.encodedResp (order : ByteOrder) (env : SendEnv) (srv : EcServer) (isCon : Bool) (res : EcPdu) : EcPdu :=
  (ecServerEncodeResp order env srv isCon (ecServerPairResp srv res).1).1

/-- What a server that responds has become: its response is encoded, logged and cached. -/
def EcWork.respondedWith (platform : Platform) (env : SendEnv) (purpose : Purpose) (w : EcWork) (pdu : EcPdu) : EcWork :=
  {w with
    srv := {w.srv with res := some pdu}.log purpose (some (pdu.datagram w.srv.flow.conn))
    dups := (ecPduSend platform env.sent w.srv.flow pdu w.dups true).dups}

/-- The socket takes whatever a server that responds has encoded. -/
theorem EcServer.Responds.handed {srv : EcServer} {res : EcPdu} {isCon sent : Bool}
    (responds : srv.Responds res isCon sent) (platform : Platform) (pdu : EcPdu) (dups : EcDups) :
    (ecPduSend platform sent srv.flow pdu dups true).datagram = some (pdu.datagram srv.flow.conn) := by
  have taken := (ecNetSend_isSome sent pdu.hdr pdu.opts.wire pdu.payload srv.flow.conn.socket
    srv.flow.conn.peer).mpr ⟨responds.socket, responds.peer, responds.taken⟩
  obtain ⟨datagram, found⟩ := Option.isSome_iff_exists.mp taken
  rw [ecPduSend_datagram, found, ecNetSend_some found]
  rfl

/-- A response that encodes and that the socket takes is sent. -/
theorem ecServerSendResp_responds (platform : Platform) (env : SendEnv) (purpose : Purpose) (w : EcWork) (res : EcPdu)
    (isCon : Bool) (responds : w.srv.Responds res isCon env.sent) :
    ecServerSendResp platform env purpose w =
      (w.respondedWith platform env purpose (w.srv.encodedResp platform.order env isCon res), 0) := by
  have paired := (ecServerPairResp_ok_iff w.srv res).mpr responds.pairs
  have encoded := (ecServerEncodeResp_ok_iff platform.order env w.srv isCon res responds.code responds.model
    responds.pairs).mpr responds.encodes
  unfold ecServerSendResp
  rw [responds.held]
  dsimp only
  rw [if_neg (by simp [paired]), if_neg (by simpa using responds.code), responds.model]
  dsimp only
  rw [if_neg (by simp [encoded]), responds.handed platform]
  rfl

/-- Only a response that encodes and that the socket takes is sent. -/
theorem ecServerSendResp_ok (platform : Platform) (env : SendEnv) (purpose : Purpose) (w : EcWork)
    (sent : (ecServerSendResp platform env purpose w).2 = 0) :
    ∃ res isCon, w.srv.Responds res isCon env.sent := by
  unfold ecServerSendResp at sent
  split at sent
  · exact absurd sent (by simp)
  · rename_i res held
    dsimp only at sent
    split at sent
    · exact absurd sent (by simp)
    · rename_i paired
      have pairs := (ecServerPairResp_ok_iff w.srv res).mp (by simpa using paired)
      split at sent
      · exact absurd sent (by simp)
      · rename_i code
        have response : ecIsRespCode w.srv.flow.respCode := by simpa using code
        split at sent
        · exact absurd sent (by simp)
        · rename_i isCon model
          split at sent
          · exact absurd sent (by simp)
          · rename_i encoded
            have encodes := (ecServerEncodeResp_ok_iff platform.order env w.srv isCon res response model pairs).mp
              (by simpa using encoded)
            split at sent
            · rename_i handed
              rw [ecPduSend_datagram, ecNetSend_isSome] at handed
              exact ⟨res, isCon, held, pairs, response, model, encodes, handed.2.2, handed.1, handed.2.1⟩
            · exact absurd sent (by simp)

/-- The MID of a response in a message of its own. -/
theorem EcServer.encodedResp_separate (order : ByteOrder) (env : SendEnv) (srv : EcServer) (isCon : Bool)
    (res : EcPdu) (responds : srv.Responds res isCon env.sent)
    (separate : srv.flow.isSep = true ∨ srv.state = .ackSent ∨ isCon = false) :
    srv.encodedResp order env isCon res =
      ((ecServerPairResp srv res).1.drawn env.rng).responded order srv.flow (separateType isCon)
        (env.wireMid res.hdrBits) := by
  obtain ⟨sibling, same⟩ := ecServerPairResp_frame srv res
  unfold encodedResp ecServerEncodeResp
  rw [if_neg, ecPduEncodeResponseSeparate_some order env srv.flow _ isCon responds.model,
    encodeResponse_fits order srv.flow _ _ _ (separateType_ne_rst isCon) responds.code]
  · rw [same]
  · rw [EcPdu.drawn_opts, same]
    exact responds.encodes
  · rintro ⟨con, unseparated, state⟩
    rcases separate with sep | acked | non
    · exact absurd (sep.symm.trans unseparated) (by decide)
    · exact state acked
    · exact absurd (con.symm.trans non) (by decide)

/-- The parts of a response that goes out in a message of its own. -/
theorem EcServer.encodedResp_parts (order : ByteOrder) (env : SendEnv) (srv : EcServer) (isCon : Bool) (res : EcPdu)
    (responds : srv.Responds res isCon env.sent)
    (separate : srv.flow.isSep = true ∨ srv.state = .ackSent ∨ isCon = false) :
    (srv.encodedResp order env isCon res).opts = (mirrorToken res.opts srv.flow.token).1.encoded ∧
      (srv.encodedResp order env isCon res).payload = res.payload ∧
      (srv.encodedResp order env isCon res).hdrBits.mid = (if res.hdrBits.mid = 0 then env.rng else res.hdrBits.mid) ∧
      (srv.encodedResp order env isCon res).hdr =
        headerBytes order (mirrorToken res.opts srv.flow.token).1.encoded.noptions (rcByte srv.flow.respCode)
          (separateType isCon) (env.wireMid res.hdrBits) := by
  obtain ⟨sibling, paired⟩ := ecServerPairResp_frame srv res
  have opts : ((ecServerPairResp srv res).1.drawn env.rng).opts = res.opts := by
    rw [EcPdu.drawn_opts, paired]
  rw [srv.encodedResp_separate order env isCon res responds separate]
  unfold EcPdu.responded
  dsimp only
  rw [opts]
  refine ⟨rfl, ?_, ?_, rfl⟩
  · rw [paired]
    unfold EcPdu.drawn
    split <;> rfl
  · rw [paired]
    unfold EcPdu.drawn
    dsimp only
    split <;> rfl

end Webthings.Evcoap
