import Webthings.Evcoap.Options.Decode

namespace Webthings.Evcoap

/-- The memory that a pointer to a received datagram gives access to, as far as it is read. -/
def rawMemory (raw : List UInt8) (beyond : Nat → UInt8) (i : Nat) : UInt8 := raw.getD i (beyond i)

/-- The option count of a datagram is the low nibble of its first byte. -/
def rawOc (raw : List UInt8) : UInt8 := raw.getD 0 0 &&& 0x0f

/-- The `size_t` difference of a datagram's size and its payload offset. -/
def payloadLen (rawSz olen : Nat) : Nat :=
  let offset := olen + ecCoapHdrSize
  if offset ≤ rawSz then rawSz - offset else 2 ^ 64 + rawSz - offset

/-- What a handler has read behind the header: the option set, the decoder's code, the offset and the reads. -/
structure EcBody where
  decoded : Decoded
  plen : Nat

/-- The payload that `ec_pdu_set_payload` copies starts behind the options. -/
def EcBody.payloadStart (body : EcBody) : Nat := ecCoapHdrSize + body.decoded.olen

/-- `ec_server_handle_pdu` decodes the options only when there are some. -/
def ecServerBody (raw : List UInt8) (beyond : Nat → UInt8) : EcBody :=
  let decoded := if rawOc raw ≠ 0 then ecOptsDecode ecOptsInit (rawMemory raw beyond) raw.length (rawOc raw) 0
    else ⟨ecOptsInit, ecRcUnset, 0, []⟩
  ⟨decoded, payloadLen raw.length decoded.olen⟩

/-- `ec_client_handle_pdu` always decodes. -/
def ecClientBody (raw : List UInt8) (beyond : Nat → UInt8) : EcBody :=
  let decoded := ecOptsDecode ecOptsInit (rawMemory raw beyond) raw.length (rawOc raw) 0
  ⟨decoded, payloadLen raw.length decoded.olen⟩

/-- The decoder reads inside the datagram and leaves an offset inside it. -/
def DecodesInside (raw : List UInt8) (decoded : Decoded) : Prop :=
  (∀ i ∈ decoded.reads, i < raw.length) ∧ (decoded.rc = ecRcUnset → decoded.olen + ecCoapHdrSize ≤ raw.length)

/-- A payload that is attached ends where the datagram ends, so its length has not wrapped around. -/
def PayloadInside (raw : List UInt8) (body : EcBody) : Prop :=
  body.decoded.rc = ecRcUnset → body.payloadStart + body.plen = raw.length

/-- No handler reads outside of the datagram. -/
def StaysInside (raw : List UInt8) (beyond : Nat → UInt8) : Prop :=
  DecodesInside raw (ecOptsDecode ecOptsInit (rawMemory raw beyond) raw.length (rawOc raw) 0) ∧
    PayloadInside raw (ecServerBody raw beyond) ∧ PayloadInside raw (ecClientBody raw beyond)

instance (raw : List UInt8) (decoded : Decoded) : Decidable (DecodesInside raw decoded) :=
  inferInstanceAs (Decidable (_ ∧ _))

instance (raw : List UInt8) (body : EcBody) : Decidable (PayloadInside raw body) :=
  inferInstanceAs (Decidable (_ → _))

instance (raw : List UInt8) (beyond : Nat → UInt8) : Decidable (StaysInside raw beyond) :=
  inferInstanceAs (Decidable (_ ∧ _ ∧ _))

/-- Each announced record, up to the first unknown critical one, has its length bytes and its end inside. -/
def RecordsEnclosed (pdu : Nat → UInt8) (pduSz : Nat) : Nat → Nat → Nat → Prop
  | 0, _, p => p ≤ pduSz
  | n + 1, optNum, p =>
      p < pduSz ∧ (UnknownCritical (optNumAt pdu optNum p) ∨
        ((∀ i ∈ lengthReads pdu p, i < pduSz) ∧
          RecordsEnclosed pdu pduSz n (optNumAt pdu optNum p) (optEndAt pdu p)))

def decidableRecordsEnclosed (pdu : Nat → UInt8) (pduSz : Nat) :
    (n optNum p : Nat) → Decidable (RecordsEnclosed pdu pduSz n optNum p)
  | 0, _, p => inferInstanceAs (Decidable (p ≤ pduSz))
  | n + 1, optNum, p =>
      have := decidableRecordsEnclosed pdu pduSz n (optNumAt pdu optNum p) (optEndAt pdu p)
      inferInstanceAs (Decidable (_ ∧ (_ ∨ (_ ∧ _))))

instance (pdu : Nat → UInt8) (pduSz n optNum p : Nat) : Decidable (RecordsEnclosed pdu pduSz n optNum p) :=
  decidableRecordsEnclosed pdu pduSz n optNum p

theorem RecordsEnclosed.le {pdu : Nat → UInt8} {pduSz n optNum p : Nat}
    (enclosed : RecordsEnclosed pdu pduSz n optNum p) : p ≤ pduSz := by
  cases n with
  | zero => exact enclosed
  | succ n => exact Nat.le_of_lt enclosed.1

/-- A value is read up to the end of its record. -/
theorem valueReads_lt (pdu : Nat → UInt8) (sym : EcOptSym) (p i : Nat)
    (read : i ∈ valueReads sym (optValueAt pdu p) (optLenAt pdu p)) : i < optEndAt pdu p := by
  unfold valueReads at read
  by_cases copies : ecOptCopies sym = true
  · rw [if_pos copies, List.mem_range'_1] at read
    rw [optEndAt]
    exact read.2
  · rw [if_neg copies] at read
    cases read

theorem lengthReads_start (pdu : Nat → UInt8) (p : Nat) : p ∈ lengthReads pdu p := by
  unfold lengthReads
  split <;> simp

/-- A loop that has room for its options reads inside exactly when its records are enclosed. -/
theorem decodeLoop_inside_iff (pdu : Nat → UInt8) (pduSz n : Nat) (d : Decoder)
    (room : d.opts.noptions + n ≤ ecProtoMaxOptions) :
    ((∀ i ∈ (decodeLoop pdu n d).1.reads, i < pduSz) ∧
      ((decodeLoop pdu n d).2 = ecRcUnset → (decodeLoop pdu n d).1.optP ≤ pduSz)) ↔
    (∀ i ∈ d.reads, i < pduSz) ∧ RecordsEnclosed pdu pduSz n d.optNum d.optP := by
  induction n generalizing d with
  | zero =>
      change (_ ∧ (ecRcUnset = ecRcUnset → d.optP ≤ pduSz)) ↔ (_ ∧ d.optP ≤ pduSz)
      constructor
      · rintro ⟨reads, inside⟩
        exact ⟨reads, inside rfl⟩
      · rintro ⟨reads, inside⟩
        exact ⟨reads, fun _ => inside⟩
  | succ n ih =>
      rw [decodeLoop, RecordsEnclosed]
      have start := lengthReads_start pdu d.optP
      rcases decodeOpt_cases pdu d with ⟨critical, stepped⟩ | ⟨elective, _, stepped⟩ |
        ⟨elective, o, _, _, ⟨_, stepped⟩ | ⟨full, stepped⟩⟩
      · rw [stepped]
        dsimp only
        rw [if_neg (by decide)]
        simp only [List.mem_append, List.mem_singleton]
        constructor
        · rintro ⟨reads, _⟩
          exact ⟨fun i earlier => reads i (Or.inl earlier), reads d.optP (Or.inr rfl), Or.inl critical⟩
        · rintro ⟨reads, here, _⟩
          refine ⟨?_, fun impossible => absurd impossible (by decide)⟩
          rintro i (earlier | rfl)
          · exact reads i earlier
          · exact here
      · rw [stepped]
        dsimp only
        rw [if_pos rfl, ih _ (by dsimp only; omega)]
        simp only [List.mem_append]
        constructor
        · rintro ⟨reads, rest⟩
          exact ⟨fun i earlier => reads i (Or.inl earlier), reads _ (Or.inr start),
            Or.inr ⟨fun i read => reads i (Or.inr read), rest⟩⟩
        · rintro ⟨reads, _, critical | ⟨lengths, rest⟩⟩
          · exact absurd critical elective
          · refine ⟨?_, rest⟩
            rintro i (earlier | read)
            · exact reads i earlier
            · exact lengths i read
      · rw [stepped]
        dsimp only
        rw [if_pos rfl, ih _ (by dsimp only; omega)]
        simp only [List.mem_append]
        constructor
        · rintro ⟨reads, rest⟩
          exact ⟨fun i earlier => reads i (Or.inl (Or.inl earlier)), reads _ (Or.inl (Or.inr start)),
            Or.inr ⟨fun i read => reads i (Or.inl (Or.inr read)), rest⟩⟩
        · rintro ⟨reads, _, critical | ⟨lengths, rest⟩⟩
          · exact absurd critical elective
          · refine ⟨?_, rest⟩
            rintro i ((earlier | read) | copied)
            · exact reads i earlier
            · exact lengths i read
            · exact Nat.lt_of_lt_of_le (valueReads_lt pdu o.sym d.optP i copied) rest.le
      · omega

theorem rawOc_le (raw : List UInt8) : (rawOc raw).toNat ≤ ecProtoMaxOptions := by
  rw [rawOc, UInt8.toNat_and]
  exact Nat.and_le_right

/-- The cursor of the decoder never falls behind the header. -/
theorem decodeLoop_forward (pdu : Nat → UInt8) (n : Nat) (d : Decoder) : d.optP ≤ (decodeLoop pdu n d).1.optP := by
  induction n generalizing d with
  | zero => exact Nat.le_refl _
  | succ n ih =>
      have value : d.optP ≤ optValueAt pdu d.optP := Nat.le_add_right _ _
      have stop : optValueAt pdu d.optP ≤ optEndAt pdu d.optP := Nat.le_add_right _ _
      have later := ih (decodeOpt pdu d).1
      rw [decodeLoop]
      rcases decodeOpt_cases pdu d with ⟨_, stepped⟩ | ⟨_, _, stepped⟩ |
        ⟨_, o, _, _, ⟨_, stepped⟩ | ⟨_, stepped⟩⟩
      · rw [stepped]
        dsimp only
        rw [if_neg (by decide)]
      · rw [stepped] at later ⊢
        dsimp only at later ⊢
        rw [if_pos rfl]
        exact Nat.le_trans (Nat.le_trans value stop) later
      · rw [stepped] at later ⊢
        dsimp only at later ⊢
        rw [if_pos rfl]
        exact Nat.le_trans (Nat.le_trans value stop) later
      · rw [stepped]
        dsimp only
        rw [if_neg (by decide)]
        exact value

/-- The call of the decoder reads inside exactly when the records of the datagram are enclosed. -/
theorem ecOptsDecode_inside_iff (raw : List UInt8) (beyond : Nat → UInt8) (header : ecCoapHdrSize ≤ raw.length) :
    DecodesInside raw (ecOptsDecode ecOptsInit (rawMemory raw beyond) raw.length (rawOc raw) 0) ↔
      RecordsEnclosed (rawMemory raw beyond) raw.length (rawOc raw).toNat 0 ecCoapHdrSize := by
  unfold DecodesInside ecOptsDecode
  rw [if_neg (Nat.not_lt.mpr header)]
  by_cases none : rawOc raw = 0
  · rw [if_pos none, none]
    constructor
    · intro _
      exact header
    · intro _
      exact ⟨fun i read => absurd read (List.not_mem_nil), fun _ => by dsimp only; omega⟩
  · rw [if_neg none]
    have count := rawOc_le raw
    have forward := decodeLoop_forward (rawMemory raw beyond) (rawOc raw).toNat ⟨ecOptsInit, 0, ecCoapHdrSize, []⟩
    have loop := decodeLoop_inside_iff (rawMemory raw beyond) raw.length (rawOc raw).toNat
      ⟨ecOptsInit, 0, ecCoapHdrSize, []⟩ (by rw [show ecOptsInit.noptions = 0 from rfl, Nat.zero_add]; exact count)
    have offset : ∀ rc : EcRc, ∀ p : Nat, ecCoapHdrSize ≤ p →
        ((rc = ecRcUnset → (if rc = ecRcUnset then p - ecCoapHdrSize else 0) + ecCoapHdrSize ≤ raw.length) ↔
          (rc = ecRcUnset → p ≤ raw.length)) := by
      intro rc p behind
      by_cases finished : rc = ecRcUnset
      · simp only [finished, if_true, Nat.sub_add_cancel behind]
      · simp only [finished, false_implies]
    dsimp only
    rw [offset _ _ forward, loop]
    constructor
    · intro both
      exact both.2
    · intro enclosed
      exact ⟨fun i read => absurd read (List.not_mem_nil), enclosed⟩

/-- An offset inside the datagram leaves a payload that ends where the datagram ends. -/
theorem payloadLen_inside (rawSz olen : Nat) (inside : olen + ecCoapHdrSize ≤ rawSz) :
    ecCoapHdrSize + olen + payloadLen rawSz olen = rawSz := by
  unfold payloadLen
  dsimp only
  rw [if_pos inside]
  omega

/-- Both handlers stay inside a datagram exactly when its announced records are enclosed. -/
theorem staysInside_iff (raw : List UInt8) (beyond : Nat → UInt8) (header : ecCoapHdrSize ≤ raw.length) :
    StaysInside raw beyond ↔
      RecordsEnclosed (rawMemory raw beyond) raw.length (rawOc raw).toNat 0 ecCoapHdrSize := by
  rw [← ecOptsDecode_inside_iff raw beyond header]
  constructor
  · intro inside
    exact inside.1
  · intro decoder
    refine ⟨decoder, ?_, ?_⟩
    · intro finished
      unfold ecServerBody at finished ⊢
      by_cases none : rawOc raw ≠ 0
      · simp only [if_pos none] at finished ⊢
        exact payloadLen_inside _ _ (decoder.2 finished)
      · simp only [if_neg none] at finished ⊢
        exact payloadLen_inside _ _ (by simpa using header)
    · intro finished
      exact payloadLen_inside _ _ (decoder.2 finished)

/-- A GET for `/a` with two payload bytes is read inside its bounds. -/
theorem staysInside_get : StaysInside [0x41, 1, 0, 7, 0x91, 0x61, 1, 2] (fun _ => 0) :=
  (staysInside_iff [0x41, 1, 0, 7, 0x91, 0x61, 1, 2] (fun _ => 0) (by decide)).mpr (by decide)

/-- A bare header that announces one option is read past its end, and the payload length wraps around. -/
theorem bareHeader_not_staysInside :
    ecCoapHdrSize ≤ [0x41, 1, 0, 7].length ∧ ¬ StaysInside [0x41, 1, 0, 7] (fun _ => 0) := by
  decide

end Webthings.Evcoap
