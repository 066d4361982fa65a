import Webthings.Evcoap.OptionCount
import Webthings.Evcoap.Client
import Webthings.Evcoap.ImmediateReplies

namespace Webthings.Evcoap

/-- The bytes of a datagram, as its receiver gets them. -/
def Datagram.bytes (d : Datagram) : List UInt8 := d.hdr ++ d.opts ++ d.payload

/-- The bytes of a message, as its receiver gets them. -/
def EcPdu.bytes (pdu : EcPdu) : List UInt8 := pdu.hdr ++ pdu.opts.wire ++ pdu.payload

/-- The header that a receiver has to read: the option count goes out in four bits. -/
def PduEncoding.header (flow : EcFlow) (pdu : EcPdu) (encoding : PduEncoding) : EcHdr :=
  let oc := UInt8.ofNat ((encoding.optionSet flow pdu.opts).encoded.noptions % 16)
  let own := if flow.conn.isConfirmable.getD false then EcMsgModel.con else .non
  match encoding with
  | .request rng => ⟨own, oc, UInt8.ofNat flow.method.code, rng⟩
  | .piggyback => ⟨.ack, oc, rcByte flow.respCode, pdu.sibling.getD 0⟩
  | .separate env => ⟨own, oc, rcByte flow.respCode, env.wireMid pdu.hdrBits⟩

/-- The options and the payload that a handler has found in a datagram. -/
structure EcBody.Carries (body : EcBody) (raw : List UInt8) (os : List EcOpt) (payload : List UInt8) : Prop where
  decoded : body.decoded.rc = ecRcUnset
  options : body.decoded.opts.bundle.list = os
  consumed : body.payloadStart + payload.length = raw.length
  payload : (raw.drop body.payloadStart).take body.plen = payload

/-- Both handlers read the header, the options and the payload of a message from a datagram. -/
structure Survives (order : ByteOrder) (raw : List UInt8) (beyond : Nat → UInt8) (h : EcHdr) (os : List EcOpt)
    (payload : List UInt8) : Prop where
  header : ecPduDecodeHeader order raw = some h
  server : (ecServerBody raw beyond).Carries raw os payload
  client : (ecClientBody raw beyond).Carries raw os payload

section Encoders

variable {order : ByteOrder} {flow : EcFlow} {pdu : EcPdu}

theorem encodeResponse_header {t : EcMsgModel} {mid : UInt16} (elicited : t ≠ .rst)
    (response : ecIsRespCode flow.respCode)
    (succeeds : (encodeResponse order flow pdu t flow.respCode mid).2 = 0) :
    encodeResponse order flow pdu t flow.respCode mid = (pdu.responded order flow t mid, 0) ∧
      pdu.opts.Encodes flow.token := by
  by_cases room : pdu.opts.Encodes flow.token
  · exact ⟨encodeResponse_fits order flow pdu t mid elicited response room, room⟩
  · rw [encodeResponse_full order flow pdu t mid elicited response room] at succeeds
    exact absurd succeeds (by decide)

/-- An encoded message has the encoded options, the payload and the header that are to be read. -/
theorem PduEncoding.encode_whole (encoding : PduEncoding)
    (response : ∀ env, encoding = .separate env → ecIsRespCode flow.respCode)
    (succeeds : (encoding.encode order flow pdu).2 = 0) :
    (ecOptsEncode (encoding.optionSet flow pdu.opts)).2 = 0 ∧
    (encoding.encode order flow pdu).1.opts = (encoding.optionSet flow pdu.opts).encoded ∧
    (encoding.encode order flow pdu).1.payload = pdu.payload ∧
    (encoding.encode order flow pdu).1.hdr = headerBytes order (encoding.optionSet flow pdu.opts).encoded.noptions
      (encoding.header flow pdu).code (encoding.header flow pdu).t (encoding.header flow pdu).mid := by
  cases encoding with
  | request rng =>
      have encoded : (ecOptsEncode pdu.opts).2 = 0 := by
        apply Classical.byContradiction
        intro failed
        unfold encode ecPduEncodeRequest at succeeds
        dsimp only at succeeds
        rw [if_pos failed] at succeeds
        cases succeeds
      unfold encode ecPduEncodeRequest at succeeds ⊢
      dsimp only at succeeds ⊢
      rw [if_neg (by simp [encoded])] at succeeds ⊢
      cases model : flow.conn.isConfirmable with
      | none =>
          rw [model] at succeeds
          cases succeeds
      | some isCon =>
          have same := ecOptsEncode_ok pdu.opts encoded
          refine ⟨encoded, same, rfl, ?_⟩
          dsimp only [encodeHeader, header, optionSet]
          rw [same, model]
          rfl
  | piggyback =>
      unfold encode ecPduEncodeResponsePiggyback at succeeds ⊢
      by_cases code : ecIsRespCode flow.respCode
      · rw [if_neg (by simpa using code)] at succeeds ⊢
        cases sibling : pdu.sibling with
        | none =>
            rw [sibling] at succeeds
            cases succeeds
        | some mid =>
            rw [sibling] at succeeds
            obtain ⟨made, room⟩ := encodeResponse_header (by decide) code succeeds
            dsimp only
            rw [made]
            refine ⟨(ecOptsEncode_ok_iff _).mpr room.2, rfl, rfl, ?_⟩
            dsimp only [header]
            rw [sibling]
            rfl
      · rw [if_pos code] at succeeds
        cases succeeds
  | separate env =>
      unfold encode at succeeds ⊢
      cases model : flow.conn.isConfirmable with
      | none =>
          unfold ecPduEncodeResponseSeparate at succeeds
          rw [model] at succeeds
          cases succeeds
      | some isCon =>
          dsimp only at succeeds ⊢
          rw [ecPduEncodeResponseSeparate_some order env flow pdu isCon model] at succeeds ⊢
          obtain ⟨made, room⟩ := encodeResponse_header (separateType_ne_rst isCon) (response env rfl) succeeds
          rw [made]
          have drawn := pdu.drawn_opts env.rng
          unfold EcPdu.responded
          dsimp only
          rw [drawn]
          rw [drawn] at room
          refine ⟨(ecOptsEncode_ok_iff _).mpr room.2, rfl, ?_, ?_⟩
          · unfold EcPdu.drawn
            split <;> rfl
          · dsimp only [header]
            rw [model]
            rfl

end Encoders

section Decoders

variable {order : ByteOrder}

/-- The header of a datagram is that of its first four bytes. -/
theorem ecPduDecodeHeader_append (order : ByteOrder) (noptions : Nat) (code : UInt8) (t : EcMsgModel) (mid : UInt16)
    (rest : List UInt8) : ecPduDecodeHeader order (headerBytes order noptions code t mid ++ rest) =
      some ⟨t, UInt8.ofNat (noptions % 16), code, mid⟩ := by
  have version : ∀ t : Fin 4, ∀ n : Fin 16,
      ((UInt8.ofNat ((1 <<< 6) ||| (t.val <<< 4) ||| n.val) &&& 0xc0) >>> 6).toNat = 1 := by decide +kernel
  have value : t.value < 4 := by cases t <;> decide
  have mask : noptions &&& 0x0f = noptions % 16 := Nat.and_two_pow_sub_one_eq_mod noptions 4
  have first : (((headerBytes order noptions code t mid ++ rest).getD 0 0 &&& 0xc0) >>> 6).toNat = 1 := by
    have bits := version ⟨t.value, value⟩ ⟨noptions % 16, Nat.mod_lt _ (by decide)⟩
    change ((UInt8.ofNat ((1 <<< 6) ||| (t.value <<< 4) ||| (noptions &&& 0x0f)) &&& 0xc0) >>> 6).toNat = 1
    rw [mask]
    exact bits
  have oc : rawOc (headerBytes order noptions code t mid ++ rest) = UInt8.ofNat (noptions % 16) := by
    apply UInt8.toNat_inj.mp
    have low := rawOc_headerBytes order noptions code t mid
    rw [UInt8.toNat_ofNat', Nat.mod_eq_of_lt (by omega : noptions % 16 < 2 ^ 8)]
    exact low
  have type := headerBytes_type order noptions code t mid
  have back := headerMid_headerBytes order noptions code t mid
  unfold ecPduDecodeHeader
  rw [if_neg (by simp [headerBytes]), if_neg (by rw [first]; decide), oc]
  change some (EcHdr.mk (EcMsgModel.ofValue (((headerBytes order noptions code t mid).getD 0 0 &&& 0x30) >>> 4).toNat)
    _ code (headerMid order (headerBytes order noptions code t mid))) = _
  rw [type, back]

/-- The memory of a datagram whose options were encoded. -/
theorem rawMemory_datagram (hdr payload : List UInt8) (opts : EcOpts) (beyond : Nat → UInt8)
    (size : hdr.length = ecCoapHdrSize) : rawMemory (hdr ++ opts.wire ++ payload) beyond =
      datagramOf (fun i => hdr.getD i 0) opts fun i => payload.getD (i - (ecCoapHdrSize + opts.encSz)) (beyond i) := by
  have length : opts.wire.length = opts.encSz := bytesAt_length _ _ _
  funext i
  unfold rawMemory datagramOf
  by_cases inHeader : i < ecCoapHdrSize
  · rw [if_pos inHeader, List.append_assoc, List.getD_append _ _ _ _ (by omega), List.getD_eq_getElem _ _ (by omega)]
    exact (List.getD_eq_getElem _ _ (by omega)).symm
  · rw [if_neg inHeader]
    by_cases inOptions : i < ecCoapHdrSize + opts.encSz
    · rw [if_pos inOptions, List.append_assoc, List.getD_append_right _ _ _ _ (by omega),
        List.getD_append _ _ _ _ (by omega), List.getD_eq_getElem _ _ (by omega)]
      simp [EcOpts.wire, bytesAt, size]
    · rw [if_neg inOptions, List.getD_append_right _ _ _ _ (by rw [List.length_append]; omega), List.length_append,
        size, length]

/-- The decoder uses the size that it is given only to see that there is a header. -/
theorem ecOptsDecode_size (opts : EcOpts) (memory : Nat → UInt8) {m n : Nat} (oc : UInt8) (olen : Nat)
    (first : ecCoapHdrSize ≤ m) (second : ecCoapHdrSize ≤ n) :
    ecOptsDecode opts memory m oc olen = ecOptsDecode opts memory n oc olen := by
  unfold ecOptsDecode
  rw [if_neg (Nat.not_lt.mpr first), if_neg (Nat.not_lt.mpr second)]

/-- A decoder that has consumed the options finds the payload behind them. -/
theorem EcBody.carries_iff {body : EcBody} {hdr opts payload : List UInt8} {os : List EcOpt}
    (size : hdr.length = ecCoapHdrSize)
    (length : body.plen = payloadLen (hdr ++ opts ++ payload).length body.decoded.olen) :
    body.Carries (hdr ++ opts ++ payload) os payload ↔
      body.decoded.rc = ecRcUnset ∧ body.decoded.opts.bundle.list = os ∧ body.decoded.olen = opts.length := by
  have whole : (hdr ++ opts ++ payload).length = ecCoapHdrSize + opts.length + payload.length := by
    rw [List.length_append, List.length_append, size]
  constructor
  · intro carries
    have consumed := carries.consumed
    rw [whole, EcBody.payloadStart] at consumed
    exact ⟨carries.decoded, carries.options, by omega⟩
  · intro ⟨decoded, options, consumed⟩
    have inside := payloadLen_inside (hdr ++ opts ++ payload).length body.decoded.olen (by omega)
    rw [← length, whole] at inside
    have start : body.payloadStart = (hdr ++ opts).length := by
      rw [EcBody.payloadStart, consumed, List.length_append, size]
    refine ⟨decoded, options, ?_, ?_⟩
    · rw [EcBody.payloadStart, consumed, whole]
    · rw [start, List.drop_left, List.take_of_length_le (by omega)]

end Decoders

section Datagrams

variable {order : ByteOrder} {flow : EcFlow} {pdu : EcPdu}

theorem mirrorToken_unencoded {opts : EcOpts} (token : List UInt8) (unencoded : opts.Unencoded) :
    (mirrorToken opts token).1.Unencoded := by
  unfold mirrorToken
  split
  · exact unencoded_adderInvariant.apply .little (fun _ => true) opts (.token token) unencoded
  · exact unencoded

theorem PduEncoding.optionSet_unencoded (encoding : PduEncoding) (unencoded : pdu.opts.Unencoded) :
    (encoding.optionSet flow pdu.opts).Unencoded := by
  cases encoding with
  | request _ => exact unencoded
  | piggyback => exact mirrorToken_unencoded flow.token unencoded
  | separate _ => exact mirrorToken_unencoded flow.token unencoded

/-- The options of a set, as they stand in a datagram whose header announces the given count. -/
theorem ecClientBody_carries_iff {set : EcOpts} {hdr payload : List UInt8} {beyond : Nat → UInt8}
    (size : hdr.length = ecCoapHdrSize) (unencoded : set.Unencoded) (encoded : (ecOptsEncode set).2 = 0)
    (counts : rawOc (hdr ++ set.encoded.wire ++ payload) = UInt8.ofNat (set.encoded.noptions % 16)) :
    (ecClientBody (hdr ++ set.encoded.wire ++ payload) beyond).Carries (hdr ++ set.encoded.wire ++ payload)
        set.bundle.list payload ↔
      WireFaithful set.bundle.list ∧ set.bundle.list.length + fencepostCount 0 set.bundle.list ≤ ecProtoMaxOptions := by
  have wire : set.encoded.wire.length = set.encoded.encSz := bytesAt_length _ _ _
  have header : ecCoapHdrSize ≤ (hdr ++ set.encoded.wire ++ payload).length := by
    rw [List.length_append, List.length_append]
    omega
  have number : set.encoded.noptions = set.bundle.list.length + fencepostCount 0 set.bundle.list := by
    rw [← unencoded.counted]
    rfl
  have within := unencoded.within
  rw [unencoded.counted] at within
  rw [EcBody.carries_iff size rfl, wire]
  unfold ecClientBody
  dsimp only
  rw [counts]
  by_cases room : set.encoded.noptions ≤ ecProtoMaxOptions
  · have small : set.encoded.noptions % 16 = set.encoded.noptions := by
      simp only [ecProtoMaxOptions] at room
      omega
    rw [small, rawMemory_datagram hdr payload set.encoded beyond size,
      ecOptsDecode_size _ _ _ _ header (Nat.le_add_right ecCoapHdrSize set.encoded.encSz)]
    have trips := roundTrips_iff_faithful set unencoded encoded (fun i => hdr.getD i 0)
      (fun i => payload.getD (i - (ecCoapHdrSize + set.encoded.encSz)) (beyond i)) 0
    unfold RoundTrips at trips
    rw [ecOptsEncode_ok set encoded] at trips
    rw [trips, ← number]
    exact (and_iff_left room).symm
  · have one := (fencepostCount_le 0 set.bundle.list set.bundle.ascending).1
    have sixteen : set.encoded.noptions % 16 = 0 := by
      simp only [ecProtoMaxOptions] at room within
      omega
    have many : set.bundle.list ≠ [] := by
      intro none
      rw [none] at number
      exact room (by rw [number]; decide)
    rw [sixteen, ← number]
    constructor
    · intro carried
      have empty : (ecOptsDecode ecOptsInit (rawMemory (hdr ++ set.encoded.wire ++ payload) beyond)
          (hdr ++ set.encoded.wire ++ payload).length (UInt8.ofNat 0) 0).opts.bundle.list = [] := by
        unfold ecOptsDecode
        rw [if_neg (Nat.not_lt.mpr header), if_pos (by decide)]
        rfl
      exact absurd (carried.2.1.symm.trans empty) many
    · intro fits
      exact absurd fits.2 room

/-- The server, which decodes only an announced option, reads what the client reads. -/
theorem ecServerBody_client (raw : List UInt8) (beyond : Nat → UInt8) (header : ecCoapHdrSize ≤ raw.length) :
    ecServerBody raw beyond = ecClientBody raw beyond := by
  unfold ecServerBody ecClientBody
  by_cases announced : rawOc raw ≠ 0
  · rw [if_pos announced]
  · have nothing : rawOc raw = 0 := by simpa using announced
    rw [if_neg announced, nothing]
    unfold ecOptsDecode
    rw [if_neg (Nat.not_lt.mpr header), if_pos rfl]

/-- Encoded options behind a header that announces their count are read whole, by either side, exactly when they are
faithful and their records are counted in four bits. -/
theorem headerBytes_survives_iff (order : ByteOrder) {set : EcOpts} {h : EcHdr} (payload : List UInt8)
    (beyond : Nat → UInt8) (unencoded : set.Unencoded) (encoded : (ecOptsEncode set).2 = 0)
    (count : h.oc = UInt8.ofNat (set.encoded.noptions % 16)) :
    Survives order (headerBytes order set.encoded.noptions h.code h.t h.mid ++ set.encoded.wire ++ payload) beyond h
        set.bundle.list payload ↔
      WireFaithful set.bundle.list ∧ set.bundle.list.length + fencepostCount 0 set.bundle.list ≤ ecProtoMaxOptions := by
  have size : (headerBytes order set.encoded.noptions h.code h.t h.mid).length = ecCoapHdrSize := rfl
  have long : ecCoapHdrSize ≤
      (headerBytes order set.encoded.noptions h.code h.t h.mid ++ set.encoded.wire ++ payload).length := by
    rw [List.length_append, List.length_append]
    omega
  have read := ecPduDecodeHeader_append order set.encoded.noptions h.code h.t h.mid (set.encoded.wire ++ payload)
  rw [← List.append_assoc, ← count] at read
  have announced : rawOc (headerBytes order set.encoded.noptions h.code h.t h.mid ++ set.encoded.wire ++ payload) =
      UInt8.ofNat (set.encoded.noptions % 16) := by
    apply UInt8.toNat_inj.mp
    have low := rawOc_headerBytes order set.encoded.noptions h.code h.t h.mid
    rw [UInt8.toNat_ofNat', Nat.mod_eq_of_lt (by omega : set.encoded.noptions % 16 < 2 ^ 8)]
    exact low
  rw [← ecClientBody_carries_iff size unencoded encoded announced]
  constructor
  · intro survives
    exact survives.client
  · intro client
    refine ⟨read, ?_, client⟩
    rw [ecServerBody_client _ _ long]
    exact client

/-- An encoded message is read whole, by either side, exactly when its options are faithful and their records are
counted in four bits. -/
theorem encode_survives_iff (order : ByteOrder) (flow : EcFlow) (pdu : EcPdu) (encoding : PduEncoding) (conn : EcConn)
    (beyond : Nat → UInt8) (response : ∀ env, encoding = .separate env → ecIsRespCode flow.respCode)
    (fresh : pdu.opts.Unencoded) (succeeds : (encoding.encode order flow pdu).2 = 0) :
    Survives order ((encoding.encode order flow pdu).1.datagram conn).bytes beyond (encoding.header flow pdu)
        (encoding.optionSet flow pdu.opts).bundle.list pdu.payload ↔
      WireFaithful (encoding.optionSet flow pdu.opts).bundle.list ∧
        (encoding.optionSet flow pdu.opts).bundle.list.length +
          fencepostCount 0 (encoding.optionSet flow pdu.opts).bundle.list ≤ ecProtoMaxOptions := by
  obtain ⟨encoded, opts, payload, hdr⟩ := encoding.encode_whole response succeeds
  have unencoded := @PduEncoding.optionSet_unencoded flow pdu encoding fresh
  have count : (encoding.header flow pdu).oc =
      UInt8.ofNat ((encoding.optionSet flow pdu.opts).encoded.noptions % 16) := by
    cases encoding <;> rfl
  have bytes : ((encoding.encode order flow pdu).1.datagram conn).bytes =
      headerBytes order (encoding.optionSet flow pdu.opts).encoded.noptions (encoding.header flow pdu).code
        (encoding.header flow pdu).t (encoding.header flow pdu).mid ++
        (encoding.optionSet flow pdu.opts).encoded.wire ++ pdu.payload := by
    rw [← hdr, ← opts, ← payload]
    rfl
  rw [bytes]
  exact headerBytes_survives_iff order pdu.payload beyond unencoded encoded count

/-- A host of another byte order reads the same message, with another MID. -/
theorem ecPduDecodeHeader_order {raw : List UInt8} {h : EcHdr} (header : ecPduDecodeHeader order raw = some h)
    (other : ByteOrder) : ecPduDecodeHeader other raw = some {h with mid := headerMid other raw} := by
  unfold ecPduDecodeHeader at header ⊢
  split at header
  · cases header
  · rename_i long
    rw [if_neg long]
    split at header
    · cases header
    · rename_i version
      rw [if_neg version]
      cases header
      rfl

theorem Survives.ordered {raw payload : List UInt8} {beyond : Nat → UInt8} {h : EcHdr} {os : List EcOpt}
    (survives : Survives order raw beyond h os payload) (other : ByteOrder) :
    Survives other raw beyond {h with mid := headerMid other raw} os payload :=
  ⟨ecPduDecodeHeader_order survives.header other, survives.server, survives.client⟩

/-- One query comes through to either side, and of fifteen queries none. -/
theorem queries_survive :
    Survives .little
        (((PduEncoding.request 7).encode .little confirmableFlow (queriesGet 1)).1.datagram EcConn.zero).bytes
        (fun _ => 0) ⟨.con, 2, 0, 7⟩ (queriesGet 1).opts.bundle.list [] ∧
      ¬ Survives .little
        (((PduEncoding.request 7).encode .little confirmableFlow (queriesGet 15)).1.datagram EcConn.zero).bytes
        (fun _ => 0) ⟨.con, 0, 0, 7⟩ (queriesGet 15).opts.bundle.list [] :=
  ⟨(encode_survives_iff .little confirmableFlow (queriesGet 1) (.request 7) EcConn.zero (fun _ => 0)
      (fun _ impossible => by cases impossible) ⟨rfl, rfl, rfl, by decide⟩ (by decide)).mpr (by decide),
    fun survives => absurd ((encode_survives_iff .little confirmableFlow (queriesGet 15) (.request 7) EcConn.zero
      (fun _ => 0) (fun _ impossible => by cases impossible) ⟨rfl, rfl, rfl, by decide⟩
      (by decide)).mp survives) (by decide)⟩

end Datagrams

end Webthings.Evcoap
