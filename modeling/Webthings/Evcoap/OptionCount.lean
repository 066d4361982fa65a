import Webthings.Evcoap.Reencode
import Webthings.Evcoap.Options.Records
import Webthings.Evcoap.Options.RoundTrip
import Mathlib.Data.List.GetD

namespace Webthings.Evcoap

/-- The ways to encode a message that may carry options. -/
inductive PduEncoding where
  | request (rng : UInt16)
  | piggyback
  | separate (env : SendEnv)
  deriving DecidableEq, Repr

def PduEncoding.encode (order : ByteOrder) (flow : EcFlow) (pdu : EcPdu) : PduEncoding → EcPdu × Int
  | .request rng => ecPduEncodeRequest order rng flow pdu
  | .piggyback => ecPduEncodeResponsePiggyback order flow pdu
  | .separate env => ecPduEncodeResponseSeparate order env flow pdu

/-- The option set that `ec_opts_encode` gets: that of a response has the token mirrored. -/
def PduEncoding.optionSet (flow : EcFlow) (opts : EcOpts) : PduEncoding → EcOpts
  | .request _ => opts
  | .piggyback => (mirrorToken opts flow.token).1
  | .separate _ => (mirrorToken opts flow.token).1

/-- The records of an option: a fencepost when its number is far from the last one, and its own. -/
def optRecords (last : Nat) (o : EcOpt) : List (List UInt8) :=
  (if o.num - last > 14 then [fencepost last o.num] else []) ++ [lengthBytes (fencedDelta last o.num) o.l ++ o.value]

/-- The records that the encoder writes for a queue. -/
def encodedRecords : Nat → List EcOpt → List (List UInt8)
  | _, [] => []
  | last, o :: os => optRecords last o ++ encodedRecords o.num os

theorem optRecords_flatten (last : Nat) (o : EcOpt) : (optRecords last o).flatten = optBytes last o := by
  unfold optRecords optBytes fencepost
  by_cases far : o.num - last > 14
  · rw [if_pos far]
    simp [far]
  · rw [if_neg far]
    simp [far]

theorem optRecords_length (last : Nat) (o : EcOpt) : (optRecords last o).length = (fencepost last o.num).length + 1 := by
  unfold optRecords fencepost
  by_cases far : o.num - last > 14
  · simp [far]
  · simp [far]

/-- The records are the bytes that the loop puts. -/
theorem encodedRecords_flatten (last : Nat) (os : List EcOpt) :
    (encodedRecords last os).flatten = encodedBytes last os := by
  induction os generalizing last with
  | nil => rfl
  | cons o os ih => rw [encodedRecords, encodedBytes, List.flatten_append, optRecords_flatten, ih]

theorem encodedRecords_length (last : Nat) (os : List EcOpt) :
    (encodedRecords last os).length = os.length + fencepostCount last os := by
  induction os generalizing last with
  | nil => rfl
  | cons o os ih =>
      rw [encodedRecords, fencepostCount, List.length_append, optRecords_length, ih, List.length_cons]
      omega

/-- The size that a record announces at its start. -/
def recordSize (bytes : List UInt8) : Nat :=
  let length := (bytes.getD 0 0 &&& 0x0f).toNat
  if length = 0x0f then 2 + ((bytes.getD 1 0).toNat + 15) else 1 + length

/-- A receiver that trusts the option count skips as many records, and the payload is what is left. -/
def skipRecords : Nat → List UInt8 → List UInt8
  | 0, bytes => bytes
  | n + 1, bytes => skipRecords n (bytes.drop (recordSize bytes))

/-- A record whose value is written whole announces its size. -/
theorem recordSize_record (delta : Nat) (value rest : List UInt8) (near : delta < 16)
    (fits : value.length ≤ ecCoapOptLenMax) :
    recordSize (lengthBytes delta value.length ++ (value ++ rest)) =
      (lengthBytes delta value.length ++ value).length := by
  rw [List.length_append, lengthBytes_length]
  unfold lengthBytes recordSize
  by_cases long : value.length > 14
  · have extension : (UInt8.ofNat (value.length - 15)).toNat + 15 = value.length := by
      rw [UInt8.toNat_ofNat']
      simp only [ecCoapOptLenMax] at fits
      omega
    rw [if_pos long, if_pos long]
    simp only [List.cons_append, List.nil_append, List.getD_cons_zero, List.getD_cons_succ,
      nibbles_low delta 0x0f near (by omega), if_true, extension]
  · rw [if_neg long, if_neg long]
    simp only [List.cons_append, List.nil_append, List.getD_cons_zero,
      nibbles_low delta value.length near (by omega)]
    rw [if_neg (by omega)]

/-- A record whose value is written whole is skipped. -/
theorem skipRecords_record (n delta : Nat) (value rest : List UInt8) (near : delta < 16)
    (fits : value.length ≤ ecCoapOptLenMax) :
    skipRecords (n + 1) (lengthBytes delta value.length ++ (value ++ rest)) = skipRecords n rest := by
  rw [skipRecords, recordSize_record delta value rest near fits, ← List.append_assoc, List.drop_left]

/-- The receiver skips the records of an option, its fencepost included. -/
theorem skipRecords_option (n last : Nat) (o : EcOpt) (rest : List UInt8) (whole : o.value.length = o.l) :
    skipRecords ((optRecords last o).length + n) (optBytes last o ++ rest) = skipRecords n rest := by
  have bounds := o.num_bounds
  have own : skipRecords (n + 1) (lengthBytes (fencedDelta last o.num) o.l ++ (o.value ++ rest)) = skipRecords n rest := by
    have delta := fencedDelta_lt last o.num bounds.2.1
    rw [← whole]
    exact skipRecords_record n _ o.value rest (by omega) (by rw [whole]; exact o.fits)
  rw [optRecords_length, optBytes, List.append_assoc, List.append_assoc]
  unfold fencepost
  by_cases far : o.num - last > 14
  · have post := skipRecords_record (n + 1) (14 - last) []
      (lengthBytes (fencedDelta last o.num) o.l ++ (o.value ++ rest)) (by omega) (Nat.zero_le _)
    rw [own] at post
    rw [if_pos far, show [nibbles (14 - last) 0].length + 1 + n = n + 1 + 1 from Nat.add_comm _ _]
    exact post
  · rw [if_neg far, show ([] : List UInt8).length + 1 + n = n + 1 by rw [List.length_nil]; omega]
    exact own

/-- The receiver that skips the records of a queue is at the payload. -/
theorem skipRecords_encoded (last : Nat) (os : List EcOpt) (payload : List UInt8)
    (whole : ∀ o ∈ os, o.value.length = o.l) :
    skipRecords (encodedRecords last os).length (encodedBytes last os ++ payload) = payload := by
  induction os generalizing last with
  | nil => rfl
  | cons o os ih =>
      rw [encodedRecords, encodedBytes, List.length_append, List.append_assoc,
        skipRecords_option _ last o _ (whole o List.mem_cons_self)]
      exact ih o.num fun x member => whole x (List.mem_cons_of_mem o member)

/-- Options whose values are written whole leave no gap in the buffer. -/
theorem encodedBytes_whole (last : Nat) (os : List EcOpt) (whole : ∀ o ∈ os, o.value.length = o.l) :
    (encodedBytes last os).length = encodedSize last os := by
  induction os generalizing last with
  | nil => rfl
  | cons o os ih =>
      have size := optBytes_length last o
      have here := whole o List.mem_cons_self
      have rest := ih o.num fun x member => whole x (List.mem_cons_of_mem o member)
      rw [encodedBytes, encodedSize, List.length_append, rest]
      omega

/-- The bytes that are put are as many as the ones that are counted when all values are written whole, and only then. -/
theorem encodedBytes_length_iff (last : Nat) (os : List EcOpt) :
    (encodedBytes last os).length = encodedSize last os ↔ ∀ o ∈ os, o.value.length = o.l := by
  refine ⟨fun same => ?_, encodedBytes_whole last os⟩
  induction os generalizing last with
  | nil =>
      intro o member
      cases member
  | cons o os ih =>
      have size := optBytes_length last o
      have copied := o.value_length_le
      have rest := encodedBytes_length_le o.num os
      rw [encodedBytes, encodedSize, List.length_append] at same
      intro x member
      rcases List.mem_cons.mp member with first | later
      · rw [first]
        omega
      · exact ih o.num (by omega) x later

/-- Only an If-None-Match can be without the bytes that it counts. -/
theorem whole_iff (os : List EcOpt) :
    (∀ o ∈ os, o.value.length = o.l) ↔ ∀ o ∈ os, o.sym = .ifNoneMatch → o.l = 0 := by
  constructor
  · intro whole o member symbol
    rw [← whole o member, o.ifNoneMatch_value symbol]
    rfl
  · intro empty o member
    rcases o.value_cases with whole | ⟨symbol, some, _⟩
    · exact whole
    · exact absurd (empty o member symbol) some

/-- The options of an encoded message are the records that were written, at most 15, its option count is their number,
and a receiver that trusts it is at the payload where they end. -/
structure EcPdu.OcCounts (pdu : EcPdu) : Prop where
  written : pdu.opts.wire = (encodedRecords 0 pdu.opts.bundle.list).flatten
  counted : (rawOc pdu.hdr).toNat = (encodedRecords 0 pdu.opts.bundle.list).length
  limited : (encodedRecords 0 pdu.opts.bundle.list).length ≤ ecProtoMaxOptions
  found : skipRecords (rawOc pdu.hdr).toNat (pdu.opts.wire ++ pdu.payload) = pdu.payload

/-- The counter of a set is in step with its queue. -/
def EcOpts.Counted (opts : EcOpts) : Prop := opts.noptions % 16 = opts.bundle.list.length % 16

instance (opts : EcOpts) : Decidable opts.Counted := inferInstanceAs (Decidable (_ = _))

/-- A set that is counted, has room for its fencepost among 15 records, and whose If-None-Match has no value. -/
structure EcOpts.Countable (opts : EcOpts) : Prop where
  counted : opts.Counted
  room : opts.bundle.list.length + fencepostCount 0 opts.bundle.list ≤ ecProtoMaxOptions
  empty : ∀ o ∈ opts.bundle.list, o.sym = .ifNoneMatch → o.l = 0

/-- The option count goes out in four bits. -/
theorem rawOc_headerBytes (order : ByteOrder) (noptions : Nat) (code : UInt8) (t : EcMsgModel) (mid : UInt16) :
    (rawOc (headerBytes order noptions code t mid)).toNat = noptions % 16 := by
  have table : ∀ (model : Fin 4) (oc : Fin 16),
      (UInt8.ofNat ((ecCoapVersion1 <<< 6) ||| (model.val <<< 4) ||| oc.val) &&& 0x0f).toNat = oc.val := by decide
  have model : t.value < 4 := by cases t <;> decide
  have masked : noptions &&& 0x0f = noptions % 16 := Nat.and_two_pow_sub_one_eq_mod noptions 4
  have here := table ⟨t.value, model⟩ ⟨noptions % 16, Nat.mod_lt _ (by decide)⟩
  change (UInt8.ofNat ((ecCoapVersion1 <<< 6) ||| (t.value <<< 4) ||| (noptions &&& 0x0f)) &&& 0x0f).toNat = _
  rw [masked]
  exact here

/-- A response that encodes has the encoded options and a header that counts them. -/
theorem encodeResponse_ok {order : ByteOrder} {flow : EcFlow} {pdu : EcPdu} {t : EcMsgModel} {mid : UInt16}
    (elicited : t ≠ .rst) (response : ecIsRespCode flow.respCode)
    (succeeds : (encodeResponse order flow pdu t flow.respCode mid).2 = 0) :
    ∃ code, (encodeResponse order flow pdu t flow.respCode mid).1.opts = (mirrorToken pdu.opts flow.token).1.encoded ∧
      (encodeResponse order flow pdu t flow.respCode mid).1.hdr =
        headerBytes order (mirrorToken pdu.opts flow.token).1.encoded.noptions code t mid := by
  by_cases room : pdu.opts.Encodes flow.token
  · rw [encodeResponse_fits order flow pdu t mid elicited response room]
    exact ⟨rcByte flow.respCode, rfl, rfl⟩
  · rw [encodeResponse_full order flow pdu t mid elicited response room] at succeeds
    exact absurd succeeds (by decide)

/-- Every successful encoding leaves the encoded set and a header that counts it. -/
theorem PduEncoding.encode_ok {order : ByteOrder} {flow : EcFlow} {pdu : EcPdu} (encoding : PduEncoding)
    (response : ∀ env, encoding = .separate env → ecIsRespCode flow.respCode)
    (succeeds : (encoding.encode order flow pdu).2 = 0) :
    ∃ code t mid, (encoding.encode order flow pdu).1.opts = (encoding.optionSet flow pdu.opts).encoded ∧
      (encoding.encode order flow pdu).1.hdr =
        headerBytes order (encoding.optionSet flow pdu.opts).encoded.noptions code t mid := by
  cases encoding with
  | request rng =>
      change (ecPduEncodeRequest order rng flow pdu).2 = 0 at succeeds
      change ∃ code t mid, (ecPduEncodeRequest order rng flow pdu).1.opts = pdu.opts.encoded ∧
        (ecPduEncodeRequest order rng flow pdu).1.hdr = headerBytes order pdu.opts.encoded.noptions code t mid
      unfold ecPduEncodeRequest at succeeds ⊢
      by_cases encoded : (ecOptsEncode pdu.opts).2 = 0
      · dsimp only at succeeds ⊢
        rw [if_neg (by simp [encoded])] at succeeds ⊢
        cases model : flow.conn.isConfirmable with
        | none =>
            rw [model] at succeeds
            cases succeeds
        | some isCon => exact ⟨_, _, rng, ecOptsEncode_ok pdu.opts encoded, by rw [← ecOptsEncode_ok pdu.opts encoded]; rfl⟩
      · dsimp only at succeeds
        rw [if_pos encoded] at succeeds
        cases succeeds
  | piggyback =>
      change (ecPduEncodeResponsePiggyback order flow pdu).2 = 0 at succeeds
      change ∃ code t mid, (ecPduEncodeResponsePiggyback order flow pdu).1.opts =
          (mirrorToken pdu.opts flow.token).1.encoded ∧ (ecPduEncodeResponsePiggyback order flow pdu).1.hdr =
        headerBytes order (mirrorToken pdu.opts flow.token).1.encoded.noptions code t mid
      unfold ecPduEncodeResponsePiggyback at succeeds ⊢
      by_cases code : ecIsRespCode flow.respCode
      · rw [if_neg (by simpa using code)] at succeeds ⊢
        cases sibling : pdu.sibling with
        | none =>
            rw [sibling] at succeeds
            cases succeeds
        | some mid =>
            rw [sibling] at succeeds
            obtain ⟨byte, opts, hdr⟩ := encodeResponse_ok (by decide) code succeeds
            exact ⟨byte, .ack, mid, opts, hdr⟩
      · rw [if_pos code] at succeeds
        cases succeeds
  | separate env =>
      change (ecPduEncodeResponseSeparate order env flow pdu).2 = 0 at succeeds
      change ∃ code t mid, (ecPduEncodeResponseSeparate order env flow pdu).1.opts =
          (mirrorToken pdu.opts flow.token).1.encoded ∧ (ecPduEncodeResponseSeparate order env flow pdu).1.hdr =
        headerBytes order (mirrorToken pdu.opts flow.token).1.encoded.noptions code t mid
      cases model : flow.conn.isConfirmable with
      | none =>
          unfold ecPduEncodeResponseSeparate at succeeds
          rw [model] at succeeds
          cases succeeds
      | some isCon =>
          rw [ecPduEncodeResponseSeparate_some order env flow pdu isCon model] at succeeds ⊢
          obtain ⟨byte, opts, hdr⟩ := encodeResponse_ok (separateType_ne_rst isCon) (response env rfl) succeeds
          rw [pdu.drawn_opts env.rng] at opts hdr
          exact ⟨byte, _, _, opts, hdr⟩

/-- The bytes that were put stand at the start of the buffer. -/
theorem EcOpts.encoded_holds (opts : EcOpts) : Holds opts.encoded.enc 0 (encodedBytes 0 opts.bundle.list) := by
  rw [holds_iff]
  intro i within
  change (encodedBytes 0 opts.bundle.list).getD (0 + i) _ = _
  rw [Nat.zero_add, List.getD_eq_getElem _ _ within]

/-- Options whose values are written whole are all that goes on the wire. -/
theorem EcOpts.encoded_wire_whole (opts : EcOpts) (whole : ∀ o ∈ opts.bundle.list, o.value.length = o.l) :
    opts.encoded.wire = encodedBytes 0 opts.bundle.list := by
  have held := opts.encoded_holds
  unfold Holds at held
  rw [encodedBytes_whole 0 opts.bundle.list whole] at held
  exact held

/-- A counted set stays counted only when its encoding has put no fencepost. -/
theorem EcOpts.Counted.encoded_iff {opts : EcOpts} (counted : opts.Counted) :
    opts.encoded.Counted ↔ fencepostCount 0 opts.bundle.list = 0 := by
  have few := (fencepostCount_le 0 opts.bundle.list opts.bundle.ascending).1
  unfold EcOpts.Counted at counted ⊢
  change (opts.noptions + fencepostCount 0 opts.bundle.list) % 16 = opts.bundle.list.length % 16 ↔ _
  omega

/-- A set is counted as long as it was never encoded. -/
theorem Built.counted {order : ByteOrder} {isAbsolute : List UInt8 → Bool} {opts : EcOpts}
    (built : Built order isAbsolute opts) : opts.Counted := by
  unfold EcOpts.Counted
  rw [built.unencoded.counted]

/-- A successful encoding counts its records exactly when the set is countable. -/
theorem encode_ocCounts_iff (order : ByteOrder) (flow : EcFlow) (pdu : EcPdu) (encoding : PduEncoding)
    (response : ∀ env, encoding = .separate env → ecIsRespCode flow.respCode)
    (succeeds : (encoding.encode order flow pdu).2 = 0) :
    (encoding.encode order flow pdu).1.OcCounts ↔ (encoding.optionSet flow pdu.opts).Countable := by
  obtain ⟨code, t, mid, opts, hdr⟩ := encoding.encode_ok response succeeds
  generalize (encoding.encode order flow pdu).1 = message at opts hdr
  generalize encoding.optionSet flow pdu.opts = set at opts hdr
  have oc : (rawOc message.hdr).toNat = (set.noptions + fencepostCount 0 set.bundle.list) % 16 := by
    rw [hdr]
    exact rawOc_headerBytes order _ code t mid
  have bundle : message.opts.bundle = set.bundle := by rw [opts]; rfl
  have records : (encodedRecords 0 message.opts.bundle.list).length =
      set.bundle.list.length + fencepostCount 0 set.bundle.list := by
    rw [bundle, encodedRecords_length]
  constructor
  · intro counts
    have counted := counts.counted
    have limited := counts.limited
    rw [oc, records] at counted
    rw [records] at limited
    have lengths := congrArg List.length counts.written
    rw [opts, set.encoded_wire_length, encodedRecords_flatten] at lengths
    have whole := (encodedBytes_length_iff 0 set.bundle.list).mp lengths.symm
    refine ⟨?_, limited, (whole_iff _).mp whole⟩
    unfold EcOpts.Counted
    omega
  · intro countable
    have counted := countable.counted
    have room := countable.room
    unfold EcOpts.Counted at counted
    simp only [ecProtoMaxOptions] at room
    have same : (rawOc message.hdr).toNat = (encodedRecords 0 message.opts.bundle.list).length := by
      rw [oc, records]
      omega
    have whole := (whole_iff set.bundle.list).mpr countable.empty
    have wire : message.opts.wire = encodedBytes 0 set.bundle.list := by
      rw [opts]
      exact set.encoded_wire_whole whole
    refine ⟨?_, same, by rw [records]; exact room, ?_⟩
    · rw [wire, bundle, encodedRecords_flatten]
    · rw [same, bundle, wire]
      exact skipRecords_encoded 0 _ _ whole

/-- A confirmable GET with so many queries. -/
def queriesGet (n : Nat) : EcPdu :=
  {ecPduNewEmpty with opts := (List.range n).foldl (fun opts _ => (ecOptsAdd opts .uriQuery [0x61]).1) ecOptsInit}

def confirmableFlow : EcFlow := {EcFlow.zero with conn := {EcConn.zero with isConfirmable := some true}}

/-- One query and the fencepost before it are counted. -/
theorem queriesGet_counts :
    ((PduEncoding.request 7).encode .little confirmableFlow (queriesGet 1)).1.OcCounts :=
  (encode_ocCounts_iff .little confirmableFlow (queriesGet 1) (.request 7) (fun _ impossible => by cases impossible)
    (by decide)).mpr ⟨by decide, by decide, by decide⟩

/-- Fifteen queries and the fencepost before them go out with an option count of zero. -/
theorem fifteenQueries_uncounted : ¬ ∀ order flow pdu (encoding : PduEncoding),
    (∀ env, encoding = .separate env → ecIsRespCode flow.respCode) →
      (encoding.encode order flow pdu).2 = 0 → (encoding.encode order flow pdu).1.OcCounts := by
  intro always
  have counts := always .little confirmableFlow (queriesGet 15) (.request 7) (fun _ impossible => by cases impossible)
    (by decide)
  exact absurd counts.counted (by decide)

end Webthings.Evcoap
