import Webthings.Evcoap.OptionCount
import Webthings.Evcoap.Reencode

namespace Webthings.Evcoap

/-- Consecutive option numbers are at most 14 apart. -/
def Near : Nat → List EcOpt → Prop
  | _, [] => True
  | last, o :: os => o.num - last ≤ 14 ∧ Near o.num os

/-- A second run of the encoder succeeds and leaves what the first one has left, and so do headers made of it. -/
structure EcOpts.EncodesAgain (opts : EcOpts) : Prop where
  succeeds : (ecOptsEncode (ecOptsEncode opts).1).2 = 0
  enc : ∀ i < (ecOptsEncode opts).1.encSz, (ecOptsEncode (ecOptsEncode opts).1).1.enc i = (ecOptsEncode opts).1.enc i
  encSz : (ecOptsEncode (ecOptsEncode opts).1).1.encSz = (ecOptsEncode opts).1.encSz
  noptions : (ecOptsEncode (ecOptsEncode opts).1).1.noptions = (ecOptsEncode opts).1.noptions
  oc : ∀ (order : ByteOrder) (code : UInt8) (t : EcMsgModel) (mid : UInt16),
    rawOc (headerBytes order (ecOptsEncode (ecOptsEncode opts).1).1.noptions code t mid) =
      rawOc (headerBytes order (ecOptsEncode opts).1.noptions code t mid)

/-- No fencepost stands between near option numbers, and one stands between others. -/
theorem fencepostCount_eq_zero_iff (last : Nat) (os : List EcOpt) : fencepostCount last os = 0 ↔ Near last os := by
  induction os generalizing last with
  | nil => simp [fencepostCount, Near]
  | cons o os ih =>
      have none : (fencepost last o.num).length = 0 ↔ o.num - last ≤ 14 := by
        unfold fencepost
        split <;> simp <;> omega
      rw [fencepostCount, Near, Nat.add_eq_zero_iff, none, ih]

/-- The second run counts the fenceposts of the first one again. -/
theorem ecOptsEncode_again (opts : EcOpts) (encodes : (ecOptsEncode opts).2 = 0) :
    ecOptsEncode opts = (opts.encoded, 0) ∧ ecOptsEncode opts.encoded = (opts.encoded.encoded, 0) := by
  have fits := (ecOptsEncode_ok_iff opts).mp encodes
  exact ⟨ecOptsEncode_fits opts fits, ecOptsEncode_fits opts.encoded fits⟩

/-- Encoding is repeatable exactly when it puts no fencepost. -/
theorem encodesAgain_iff (opts : EcOpts) (encodes : (ecOptsEncode opts).2 = 0) :
    opts.EncodesAgain ↔ Near 0 opts.bundle.list := by
  obtain ⟨once, twice⟩ := ecOptsEncode_again opts encodes
  have counted : opts.encoded.encoded.noptions = opts.encoded.noptions + fencepostCount 0 opts.bundle.list := rfl
  rw [← fencepostCount_eq_zero_iff]
  constructor
  · intro again
    have same := again.noptions
    rw [once, twice] at same
    change opts.encoded.encoded.noptions = opts.encoded.noptions at same
    omega
  · intro none
    have same : opts.encoded.encoded.noptions = opts.encoded.noptions := by
      rw [counted, none]
      rfl
    have bytes : opts.encoded.encoded.enc = opts.encoded.enc := overlay_again _ _
    refine ⟨?_, ?_, ?_, ?_, ?_⟩
    · rw [once, twice]
    · intro i _
      rw [once, twice, bytes]
    · rw [once, twice]
      rfl
    · rw [once, twice, same]
    · intro order code t mid
      rw [once, twice, same]

/-- A path does not need a fencepost. -/
theorem uriPathSet_encodesAgain : (uriPathSet 3).EncodesAgain :=
  (encodesAgain_iff (uriPathSet 3) (by decide)).mpr ⟨by decide, trivial⟩

/-- The fencepost before a query is counted twice. -/
theorem queriesGet_recounted : ¬ ∀ opts : EcOpts, (ecOptsEncode opts).2 = 0 → opts.EncodesAgain := by
  intro always
  have again := always (queriesGet 1).opts (by decide)
  exact absurd again.noptions (by decide)

/-- What the encoding loop leaves. -/
def EcOpts.encoder (opts : EcOpts) : Encoder × Int := encodeLoop opts.bundle.list ⟨[], ecOptsMaxLen, 0, opts.noptions⟩

/-- The space of all options: their headers, values and fenceposts. -/
def EcOpts.recordsSize (opts : EcOpts) : Nat :=
  (opts.bundle.list.map optWeight).sum + fencepostCount 0 opts.bundle.list

/-- The encoder stays in its buffer, fails for want of space only, and fills what it counts with records that announce
their own size and have small deltas. -/
structure EcOpts.EncodesSafely (opts : EcOpts) : Prop where
  inside : opts.encoder.1.out.length ≤ ecOptsMaxLen
  fails_iff : (ecOptsEncode opts).2 ≠ 0 ↔ ecOptsMaxLen < opts.recordsSize
  filled : (ecOptsEncode opts).2 = 0 → opts.encoder.1.out.length = (ecOptsEncode opts).1.encSz
  written : (ecOptsEncode opts).2 = 0 → opts.encoder.1.out = (encodedRecords 0 opts.bundle.list).flatten
  records : (ecOptsEncode opts).2 = 0 → ∀ record ∈ encodedRecords 0 opts.bundle.list,
    (record.getD 0 0 >>> 4).toNat ≤ 14 ∧ recordSize record = record.length

/-- The loop does not leave the space that it was given. -/
theorem encodeLoop_inside (os : List EcOpt) (e : Encoder) (ascending : Ascending e.last os) {room : Nat}
    (inside : e.out.length + e.left ≤ room) : (encodeLoop os e).1.out.length ≤ room := by
  induction os generalizing e with
  | nil => exact Nat.le_of_add_right_le inside
  | cons o os ih =>
      obtain ⟨low, rest⟩ := ascending
      by_cases fits : optSize e.last o ≤ e.left
      · have size := optBytes_length e.last o
        have copied := o.value_length_le
        rw [encodeLoop, encodeOpt_fits e o low fits]
        dsimp only
        rw [if_pos rfl]
        apply ih _ rest
        dsimp only
        rw [List.length_append]
        omega
      · rw [encodeLoop, encodeOpt_full e o low (Nat.lt_of_not_le fits)]
        exact Nat.le_of_add_right_le inside

/-- A record of a value that is written whole announces its size and its delta. -/
theorem optRecords_announce (last : Nat) (o : EcOpt) (whole : o.value.length = o.l) :
    ∀ record ∈ optRecords last o, (record.getD 0 0 >>> 4).toNat ≤ 14 ∧ recordSize record = record.length := by
  have bounds := o.num_bounds
  have delta := fencedDelta_lt last o.num bounds.2.1
  intro record member
  unfold optRecords at member
  rcases List.mem_append.mp member with post | own
  · split at post
    · rename_i far
      rw [List.mem_singleton.mp post]
      have high : (nibbles (14 - last) 0 >>> 4).toNat = 14 - last := nibbles_high (14 - last) 0 (by omega) (by decide)
      have low : (nibbles (14 - last) 0 &&& 0x0f).toNat = 0 := nibbles_low (14 - last) 0 (by omega) (by decide)
      have post : fencepost last o.num = [nibbles (14 - last) 0] := if_pos far
      have size : recordSize [nibbles (14 - last) 0] = 1 := by
        unfold recordSize
        rw [List.getD_cons_zero, low]
        rfl
      rw [post, List.getD_cons_zero, high, size]
      exact ⟨by omega, rfl⟩
    · cases post
  · rw [List.mem_singleton.mp own, ← whole]
    refine ⟨?_, ?_⟩
    · unfold lengthBytes
      split
      · simp only [List.cons_append, List.getD_cons_zero]
        rw [nibbles_high _ 0x0f (by omega) (by decide)]
        omega
      · simp only [List.cons_append, List.getD_cons_zero]
        rw [nibbles_high _ _ (by omega) (by omega)]
        omega
    · have fits : o.value.length ≤ ecCoapOptLenMax := by
        rw [whole]
        exact o.fits
      have size := recordSize_record (fencedDelta last o.num) o.value [] (by omega) fits
      rw [List.append_nil] at size
      exact size

theorem encodedRecords_announce (last : Nat) (os : List EcOpt) (whole : ∀ o ∈ os, o.value.length = o.l) :
    ∀ record ∈ encodedRecords last os, (record.getD 0 0 >>> 4).toNat ≤ 14 ∧ recordSize record = record.length := by
  induction os generalizing last with
  | nil =>
      intro record member
      cases member
  | cons o os ih =>
      intro record member
      rcases List.mem_append.mp member with first | rest
      · exact optRecords_announce last o (whole o List.mem_cons_self) record first
      · exact ih o.num (fun x inside => whole x (List.mem_cons_of_mem o inside)) record rest

/-- The encoder is safe exactly when no If-None-Match of a set that fits was added with a value. -/
theorem encodesSafely_iff (opts : EcOpts) :
    opts.EncodesSafely ↔
      (opts.recordsSize ≤ ecOptsMaxLen → ∀ o ∈ opts.bundle.list, o.sym = .ifNoneMatch → o.l = 0) := by
  have size : encodedSize 0 opts.bundle.list = opts.recordsSize := encodedSize_weight 0 opts.bundle.list
  have ok_iff := ecOptsEncode_ok_iff opts
  rw [size] at ok_iff
  have loop : opts.recordsSize ≤ ecOptsMaxLen → opts.encoder.1.out = encodedBytes 0 opts.bundle.list ∧
      (ecOptsEncode opts).1.encSz = encodedSize 0 opts.bundle.list := by
    intro fits
    rw [← size] at fits
    unfold EcOpts.encoder
    rw [encodeLoop_fits _ _ opts.bundle.ascending fits, ecOptsEncode_fits opts fits]
    exact ⟨rfl, rfl⟩
  constructor
  · intro safe fits
    obtain ⟨bytes, counted⟩ := loop fits
    have filled := safe.filled (ok_iff.mpr fits)
    rw [bytes, counted] at filled
    exact (whole_iff _).mp ((encodedBytes_length_iff 0 _).mp filled)
  · intro empty
    refine ⟨?_, ?_, ?_, ?_, ?_⟩
    · exact encodeLoop_inside _ _ opts.bundle.ascending (Nat.le_of_eq (Nat.zero_add _))
    · rw [Ne, ok_iff, Nat.not_le]
    · intro encodes
      have fits := ok_iff.mp encodes
      obtain ⟨bytes, counted⟩ := loop fits
      rw [bytes, counted]
      exact encodedBytes_whole 0 _ ((whole_iff _).mpr (empty fits))
    · intro encodes
      rw [encodedRecords_flatten]
      exact (loop (ok_iff.mp encodes)).1
    · intro encodes
      exact encodedRecords_announce 0 _ ((whole_iff _).mpr (empty (ok_iff.mp encodes)))

/-- An If-None-Match of one byte is counted with it, and written without. -/
theorem ifNoneMatch_short : ¬ ∀ order isAbsolute opts, Built order isAbsolute opts → opts.EncodesSafely := by
  intro always
  have built : Built .little (fun _ => false) (ecOptsAddRaw ecOptsInit .ifNoneMatch [1]).1 :=
    Built.add Built.init (.raw .ifNoneMatch [1]) (by decide)
  have safe := always .little (fun _ => false) _ built
  exact absurd (safe.filled (by decide)) (by decide)

end Webthings.Evcoap
