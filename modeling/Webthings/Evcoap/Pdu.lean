import Webthings.Evcoap.Options.Enclosed
import Webthings.Evcoap.Dups

namespace Webthings.Evcoap

/-- Network byte order is big-endian; the same function converts back. -/
def htons (order : ByteOrder) (x : UInt16) : UInt16 :=
  match order with
  | .little => (x <<< 8) ||| (x >>> 8)
  | .big => x

def ntohs (order : ByteOrder) (x : UInt16) : UInt16 := htons order x

/-- The decoded header of a message. -/
structure EcHdr where
  t : EcMsgModel
  oc : UInt8
  code : UInt8
  mid : UInt16
  deriving DecidableEq, Repr

def EcHdr.zero : EcHdr := ⟨.con, 0, 0, 0⟩

/-- A message; `payload` is empty for NULL, and `sibling` is the MID of the message it answers. -/
structure EcPdu where
  hdr : List UInt8
  hdrBits : EcHdr
  payload : List UInt8
  opts : EcOpts
  sibling : Option UInt16

def ecPduNewEmpty : EcPdu := ⟨[0, 0, 0, 0], EcHdr.zero, [], ecOptsInit, none⟩

def ecPduSetPayload (pdu : EcPdu) (payload : List UInt8) : EcPdu × Int :=
  if payload.length = 0 then (pdu, -1) else ({pdu with payload := payload}, 0)

/-- A message keeps the sibling it has got first. -/
def ecPduSetSibling (pdu : EcPdu) (sibling : Option UInt16) : EcPdu × Int :=
  match sibling with
  | none => (pdu, -1)
  | some mid => if pdu.sibling ≠ none ∧ pdu.sibling ≠ some mid then (pdu, -1) else ({pdu with sibling := some mid}, 0)

/-- The MID that the four header bytes carry. -/
def headerMid (order : ByteOrder) (raw : List UInt8) : UInt16 :=
  ntohs order (((raw.getD 2 0).toUInt16 <<< 8) ||| (raw.getD 3 0).toUInt16)

/-- The header of a datagram, none when it is too short or of another version. -/
def ecPduDecodeHeader (order : ByteOrder) (raw : List UInt8) : Option EcHdr :=
  if raw.length < ecCoapHdrSize then none
  else if ((raw.getD 0 0 &&& 0xc0) >>> 6).toNat ≠ ecCoapVersion1 then none
  else some ⟨EcMsgModel.ofValue ((raw.getD 0 0 &&& 0x30) >>> 4).toNat, rawOc raw, raw.getD 1 0, headerMid order raw⟩

/-- The four bytes that `encode_header` writes. -/
def headerBytes (order : ByteOrder) (noptions : Nat) (code : UInt8) (t : EcMsgModel) (mid : UInt16) : List UInt8 :=
  [UInt8.ofNat ((ecCoapVersion1 <<< 6) ||| (t.value <<< 4) ||| (noptions &&& 0x0f)), code,
    ((htons order mid &&& 0xff00) >>> 8).toUInt8, (htons order mid &&& 0x00ff).toUInt8]

def encodeHeader (order : ByteOrder) (pdu : EcPdu) (code : UInt8) (t : EcMsgModel) (mid : UInt16) : EcPdu :=
  {pdu with hdr := headerBytes order pdu.opts.noptions code t mid}

/-- The conversion to a header byte of a response code. -/
def rcByte (rc : EcRc) : UInt8 := UInt8.ofNat rc.toNat

/-- Options are encoded for all messages but resets and empty ones, and the token goes in before. -/
def encodeResponse (order : ByteOrder) (flow : EcFlow) (pdu : EcPdu) (t : EcMsgModel) (rc : EcRc) (mid : UInt16) :
    EcPdu × Int :=
  if t ≠ .rst ∧ rc ≠ ecRcUnset then
    let mirrored := if flow.token ≠ [] then ecOptsAddToken pdu.opts flow.token else (pdu.opts, 0)
    if mirrored.2 ≠ 0 then ({pdu with opts := mirrored.1}, -1)
    else
      let encoded := ecOptsEncode mirrored.1
      if encoded.2 ≠ 0 then ({pdu with opts := encoded.1}, -1)
      else (encodeHeader order {pdu with opts := encoded.1} (rcByte rc) t mid, 0)
  else (encodeHeader order pdu (rcByte rc) t mid, 0)

def ecPduEncodeResponsePiggyback (order : ByteOrder) (flow : EcFlow) (pdu : EcPdu) : EcPdu × Int :=
  if ¬ ecIsRespCode flow.respCode then (pdu, -1)
  else
    match pdu.sibling with
    | none => (pdu, -1)
    | some mid => encodeResponse order flow pdu .ack flow.respCode mid

def ecPduEncodeResponseAck (order : ByteOrder) (flow : EcFlow) (pdu : EcPdu) : EcPdu × Int :=
  match pdu.sibling with
  | none => (pdu, -1)
  | some mid => encodeResponse order flow pdu .ack ecRcUnset mid

def ecPduEncodeResponseRst (order : ByteOrder) (flow : EcFlow) (pdu : EcPdu) : EcPdu × Int :=
  match pdu.sibling with
  | none => (pdu, -1)
  | some mid => encodeResponse order flow pdu .rst ecRcUnset mid

/-- What one send depends on: the random MID, the value of the unset local variable and `sendmsg`. -/
structure SendEnv where
  rng : UInt16
  junk : UInt16
  sent : Bool
  deriving DecidableEq, Repr

/-- The MID that goes on the wire: the local variable is set only when a new MID is drawn. -/
def SendEnv.wireMid (env : SendEnv) (h : EcHdr) : UInt16 := if h.mid = 0 then env.rng else env.junk

def ecPduEncodeResponseSeparate (order : ByteOrder) (env : SendEnv) (flow : EcFlow) (pdu : EcPdu) : EcPdu × Int :=
  let stored := if pdu.hdrBits.mid = 0 then {pdu with hdrBits := {pdu.hdrBits with mid := env.rng}} else pdu
  match flow.conn.isConfirmable with
  | none => (stored, -1)
  | some isCon =>
      encodeResponse order flow stored (if isCon then .con else .non) flow.respCode (env.wireMid pdu.hdrBits)

/-- The MID of a request is drawn anew and not kept in `hdr_bits`. -/
def ecPduEncodeRequest (order : ByteOrder) (rng : UInt16) (flow : EcFlow) (pdu : EcPdu) : EcPdu × Int :=
  let encoded := ecOptsEncode pdu.opts
  if encoded.2 ≠ 0 then ({pdu with opts := encoded.1}, -1)
  else
    match flow.conn.isConfirmable with
    | none => ({pdu with opts := encoded.1}, -1)
    | some isCon =>
        (encodeHeader order {pdu with opts := encoded.1} (UInt8.ofNat flow.method.code) (if isCon then .con else .non)
          rng, 0)

/-- The bytes that a message puts on the wire behind its header. -/
def EcOpts.wire (opts : EcOpts) : List UInt8 := bytesAt opts.enc 0 opts.encSz

/-- The datagram that a message and its flow make. -/
def EcPdu.datagram (pdu : EcPdu) (conn : EcConn) : Datagram :=
  ⟨pdu.hdr, pdu.opts.wire, pdu.payload, conn.socket, conn.peer⟩

/-- A datagram that a transaction has sent, which the code does not keep, with what it was sent for. -/
structure Sent where
  purpose : Purpose
  datagram : Datagram
  deriving DecidableEq, Repr

/-- What a send leaves: the duplicate map and the datagram, none when the send has failed. -/
structure PduSent where
  dups : EcDups
  datagram : Option Datagram

/-- A reply is cached in the record of the message it answers, whether or not the send succeeds. -/
def ecPduSend (platform : Platform) (sent : Bool) (flow : EcFlow) (pdu : EcPdu) (dups : EcDups) (cache : Bool) :
    PduSent :=
  let datagram := ecNetSend sent pdu.hdr pdu.opts.wire pdu.payload flow.conn.socket flow.conn.peer
  match cache, pdu.sibling with
  | true, some mid =>
      match ecDupsSearch platform dups mid flow.conn.peer with
      | none => ⟨dups, datagram⟩
      | some rpdu =>
          ⟨dups.put (ecDupKeyNew platform mid flow.conn.peer)
            (ecRecvdPduUpdate rpdu pdu.hdr pdu.opts.wire pdu.payload), datagram⟩
  | _, _ => ⟨dups, datagram⟩

/-- Two bytes make up a word. -/
theorem word_toNat (high low : UInt16) (highFits : high.toNat < 256) (lowFits : low.toNat < 256) :
    ((high <<< 8) ||| low).toNat = high.toNat * 256 + low.toNat := by
  rw [UInt16.toNat_or, UInt16.toNat_shiftLeft]
  simp only [UInt16.reduceToNat, Nat.reduceMod]
  have fits : high.toNat <<< 8 % 2 ^ 16 = 2 ^ 8 * high.toNat := by
    rw [Nat.shiftLeft_eq]
    omega
  rw [fits, ← Nat.two_pow_add_eq_or_of_lt (by omega)]
  omega

theorem highByte_toNat (x : UInt16) : ((x &&& 0xff00) >>> 8).toUInt8.toNat = x.toNat / 256 := by
  have bound := x.toNat_lt
  rw [UInt16.toNat_toUInt8, UInt16.toNat_shiftRight, UInt16.toNat_and]
  simp only [UInt16.reduceToNat, Nat.reduceMod]
  rw [Nat.shiftRight_and_distrib, Nat.shiftRight_eq_div_pow]
  have mask : (0xff00 : Nat) >>> 8 = 2 ^ 8 - 1 := rfl
  rw [mask, Nat.and_two_pow_sub_one_eq_mod]
  omega

theorem lowByte_toNat (x : UInt16) : (x &&& 0x00ff).toUInt8.toNat = x.toNat % 256 := by
  rw [UInt16.toNat_toUInt8, UInt16.toNat_and]
  have mask : (0x00ff : UInt16).toNat = 2 ^ 8 - 1 := rfl
  rw [mask, Nat.and_two_pow_sub_one_eq_mod]
  omega

theorem swap_toNat (x : UInt16) : (htons .little x).toNat = x.toNat % 256 * 256 + x.toNat / 256 := by
  have bound := x.toNat_lt
  have left : (x <<< 8) = ((x &&& 0x00ff) <<< 8) := by
    apply UInt16.toNat_inj.mp
    rw [UInt16.toNat_shiftLeft, UInt16.toNat_shiftLeft, UInt16.toNat_and]
    have mask : (0x00ff : UInt16).toNat = 2 ^ 8 - 1 := rfl
    rw [mask, Nat.and_two_pow_sub_one_eq_mod]
    simp only [UInt16.reduceToNat, Nat.reduceMod, Nat.shiftLeft_eq]
    omega
  have low : (x &&& 0x00ff).toNat = x.toNat % 256 := by
    rw [UInt16.toNat_and]
    have mask : (0x00ff : UInt16).toNat = 2 ^ 8 - 1 := rfl
    rw [mask, Nat.and_two_pow_sub_one_eq_mod]
  have high : (x >>> 8).toNat = x.toNat / 256 := by
    rw [UInt16.toNat_shiftRight, Nat.shiftRight_eq_div_pow]
    rfl
  rw [htons, left, word_toNat _ _ (by omega) (by omega), low, high]

theorem htons_htons (order : ByteOrder) (x : UInt16) : htons order (htons order x) = x := by
  cases order with
  | little =>
      have bound := x.toNat_lt
      apply UInt16.toNat_inj.mp
      rw [swap_toNat, swap_toNat]
      omega
  | big => rfl

/-- The MID bytes of a header read back in both byte orders. -/
@[simp] theorem headerMid_headerBytes (order : ByteOrder) (noptions : Nat) (code : UInt8) (t : EcMsgModel)
    (mid : UInt16) : headerMid order (headerBytes order noptions code t mid) = mid := by
  have bound := (htons order mid).toNat_lt
  have word : ((((htons order mid &&& 0xff00) >>> 8).toUInt8).toUInt16 <<< 8 |||
      ((htons order mid &&& 0x00ff).toUInt8).toUInt16) = htons order mid := by
    apply UInt16.toNat_inj.mp
    have high := highByte_toNat (htons order mid)
    have low := lowByte_toNat (htons order mid)
    rw [word_toNat _ _ (by rw [UInt8.toNat_toUInt16]; exact UInt8.toNat_lt _)
      (by rw [UInt8.toNat_toUInt16]; exact UInt8.toNat_lt _), UInt8.toNat_toUInt16, UInt8.toNat_toUInt16, high, low]
    omega
  change ntohs order (((((htons order mid &&& 0xff00) >>> 8).toUInt8).toUInt16 <<< 8 |||
      ((htons order mid &&& 0x00ff).toUInt8).toUInt16)) = mid
  rw [word, ntohs, htons_htons]

/-- The empty ACK of a request with the MID `mid`. -/
def separateAck (order : ByteOrder) (mid : UInt16) : EcPdu :=
  encodeHeader order {ecPduNewEmpty with sibling := some mid} (rcByte ecRcUnset) .ack mid

theorem separateAck_headerMid (order : ByteOrder) (mid : UInt16) : headerMid order (separateAck order mid).hdr = mid := by
  unfold separateAck encodeHeader
  exact headerMid_headerBytes order _ _ _ mid

/-- It reads back as an empty ACK. -/
theorem separateAck_header (order : ByteOrder) (mid : UInt16) :
    ecPduDecodeHeader order (separateAck order mid).hdr = some ⟨.ack, 0, 0, mid⟩ := by
  have back := separateAck_headerMid order mid
  have length : (separateAck order mid).hdr.length = 4 := rfl
  have code : (separateAck order mid).hdr.getD 1 0 = 0 := rfl
  have first : (separateAck order mid).hdr.getD 0 0 = 0x60 := by
    change UInt8.ofNat ((ecCoapVersion1 <<< 6) ||| (EcMsgModel.ack.value <<< 4) ||| (0 &&& 0x0f)) = 0x60
    decide
  unfold ecPduDecodeHeader rawOc
  rw [back, length, code, first, if_neg (by decide), if_neg (by decide)]
  have bits : EcMsgModel.ofValue ((0x60 &&& 0x30 : UInt8) >>> 4).toNat = .ack := by decide
  rw [bits]
  rfl

/-- A datagram that was sent is the one the message makes. -/
theorem ecPduSend_datagram (platform : Platform) (sent : Bool) (flow : EcFlow) (pdu : EcPdu) (dups : EcDups)
    (cache : Bool) : (ecPduSend platform sent flow pdu dups cache).datagram =
      ecNetSend sent pdu.hdr pdu.opts.wire pdu.payload flow.conn.socket flow.conn.peer := by
  unfold ecPduSend
  dsimp only
  split
  · split <;> rfl
  · rfl

/-- A send neither adds nor removes records, and keeps the messages they stand for. -/
theorem ecPduSend_dups (platform : Platform) (sent : Bool) (flow : EcFlow) (pdu : EcPdu) (dups : EcDups)
    (cache : Bool) (key : DupKey) :
    ((ecPduSend platform sent flow pdu dups cache).dups key).map (fun r => (r.who, r.mid, r.raw)) =
      (dups key).map fun r => (r.who, r.mid, r.raw) := by
  unfold ecPduSend
  dsimp only
  split
  · rename_i mid _
    split
    · rfl
    · rename_i rpdu found
      dsimp only
      by_cases here : key = ecDupKeyNew platform mid flow.conn.peer
      · subst here
        rw [EcDups.put_self]
        unfold ecDupsSearch at found
        rw [found]
        rfl
      · rw [EcDups.put_other dups _ here]
  · rfl

end Webthings.Evcoap
