import Webthings.Evcoap.ServerResponse

namespace Webthings.Evcoap

/-- An option that is not empty makes every encoding longer, even where it spares a fencepost. -/
theorem encodedSize_insert (b : Bundle) (o : EcOpt) (wide : 0 < o.l) :
    encodedSize 0 b.list < encodedSize 0 (b.insert o).list := by
  have weights : ((b.insert o).list.map optWeight).sum = optWeight o + (b.list.map optWeight).sum := by
    rw [((b.insert_perm o).map optWeight).sum_nat, List.map_cons, List.sum_cons]
  have atMost := (fencepostCount_le 0 b.list b.ascending).1
  have two : 2 ≤ optWeight o := by
    unfold optWeight
    split <;> omega
  rw [encodedSize_weight, encodedSize_weight, weights]
  omega

theorem overlay_again (out : List UInt8) (enc : Nat → UInt8) : overlay out (overlay out enc) = overlay out enc := by
  funext i
  unfold overlay
  cases found : out[i]? with
  | none => simp [List.getD, found]
  | some byte => simp [List.getD, found]

/-- A set that is encoded again puts the same bytes on the wire. -/
theorem EcOpts.encoded_wire (opts : EcOpts) : opts.encoded.encoded.wire = opts.encoded.wire := by
  unfold EcOpts.wire EcOpts.encoded
  dsimp only
  rw [overlay_again]

theorem EcOpts.encoded_wire_length (opts : EcOpts) :
    opts.encoded.wire.length = encodedSize 0 opts.bundle.list := by
  unfold EcOpts.wire
  rw [bytesAt_length]
  rfl

/-- The mirrored token makes the options longer, so what was encoded without it is not encoded again. -/
theorem mirrorToken_longer {opts : EcOpts} {token : List UInt8} (mirrored : (mirrorToken opts token).2 = 0)
    (present : token ≠ []) : opts.encoded.wire ≠ (mirrorToken opts token).1.encoded.wire := by
  intro same
  unfold mirrorToken at mirrored same
  rw [if_pos present] at mirrored same
  obtain ⟨o, created, added⟩ := ecOptsAddToken_ok mirrored
  have length : o.l = token.length := (ecOptNew_some created).2.1
  have longer : encodedSize 0 opts.bundle.list < encodedSize 0 (opts.bundle.insert o).list :=
    encodedSize_insert opts.bundle o (by rw [length]; exact List.length_pos_of_ne_nil present)
  have lengths := congrArg List.length same
  rw [EcOpts.encoded_wire_length, EcOpts.encoded_wire_length, added] at lengths
  dsimp only at lengths
  omega

/-- The first header byte of a confirmable message shows the option count up to its nibble. -/
theorem headerBytes_noptions {order : ByteOrder} {n n' : Nat} {code code' : UInt8} {mid mid' : UInt16}
    (same : headerBytes order n code .con mid = headerBytes order n' code' .con mid') : n % 16 = n' % 16 := by
  have table : ∀ a b : Fin 16, UInt8.ofNat ((1 <<< 6) ||| (0 <<< 4) ||| a.val) =
      UInt8.ofNat ((1 <<< 6) ||| (0 <<< 4) ||| b.val) → a = b := by decide +kernel
  have mask : ∀ k : Nat, k &&& 0x0f = k % 16 := fun k => Nat.and_two_pow_sub_one_eq_mod k 4
  have first := (List.cons.inj same).1
  rw [mask, mask] at first
  exact Fin.mk.inj (table ⟨n % 16, Nat.mod_lt _ (by decide)⟩ ⟨n' % 16, Nat.mod_lt _ (by decide)⟩ first)

/-- A Token that finds no room leaves the options as they are. -/
theorem ecOptsAddToken_failed {opts : EcOpts} {t : List UInt8} (failed : (ecOptsAddToken opts t).2 ≠ 0) :
    (ecOptsAddToken opts t).1 = opts := by
  have unadded : (ecOptsAdd opts .token t).2 ≠ 0 → (ecOptsAdd opts .token t).1 = opts := by
    unfold ecOptsAdd ecOptsPush
    intro refused
    split
    · rfl
    · split
      · rfl
      · rename_i o created space
        rw [created] at refused
        dsimp only at refused
        rw [if_neg space] at refused
        exact absurd rfl refused
  unfold ecOptsAddToken ecOptsAddShortOpaque at failed ⊢
  by_cases bounds : t.length = 0 ∨ t.length > 8
  · rw [if_pos bounds]
  · have short : t.length < ecCoapOptLenMax := by
      simp only [ecCoapOptLenMax]
      omega
    rw [if_neg bounds] at failed ⊢
    unfold ecOptsAddOpaque at failed ⊢
    rw [if_neg (by decide)] at failed ⊢
    unfold ecOptsAddRaw at failed ⊢
    dsimp only at failed ⊢
    rw [optSegments_one t short, ecOptsAddSegments] at failed ⊢
    generalize (t.length / ecCoapOptLenMax + if t.length % ecCoapOptLenMax ≠ 0 ∨ t.length = 0 then 1 else 0) = used
      at failed ⊢
    split
    · rfl
    · rename_i room
      rw [if_neg room] at failed
      split
      · rename_i zero
        rw [if_pos zero, ecOptsAddSegments] at failed
        exact absurd rfl failed
      · rename_i nonzero
        exact unadded nonzero

theorem mirrorToken_failed {opts : EcOpts} {token : List UInt8} (failed : (mirrorToken opts token).2 ≠ 0) :
    (mirrorToken opts token).1 = opts := by
  unfold mirrorToken at failed ⊢
  split
  · rename_i present
    rw [if_pos present] at failed
    exact ecOptsAddToken_failed failed
  · rfl

/-- The mirrored token makes no encoding shorter. -/
theorem mirrorToken_size {opts : EcOpts} {token : List UInt8} (mirrored : (mirrorToken opts token).2 = 0) :
    encodedSize 0 opts.bundle.list ≤ encodedSize 0 (mirrorToken opts token).1.bundle.list := by
  unfold mirrorToken at mirrored ⊢
  split
  · rename_i present
    rw [if_pos present] at mirrored
    obtain ⟨o, created, added⟩ := ecOptsAddToken_ok mirrored
    have length : o.l = token.length := (ecOptNew_some created).2.1
    have longer := encodedSize_insert opts.bundle o (by rw [length]; exact List.length_pos_of_ne_nil present)
    rw [added]
    exact Nat.le_of_lt longer
  · exact Nat.le_refl _

/-- What an encoding has left of options without room has no room either. -/
theorem encodeResponse_stays_full (order : ByteOrder) (flow : EcFlow) (pdu : EcPdu) (t : EcMsgModel) (mid : UInt16)
    (elicited : t ≠ .rst) (response : ecIsRespCode flow.respCode) (full : ¬ pdu.opts.Encodes flow.token) :
    ¬ (encodeResponse order flow pdu t flow.respCode mid).1.opts.Encodes flow.token := by
  rw [encodeResponse_mirrors order flow pdu t mid elicited response]
  split
  · rename_i failed
    rw [mirrorToken_failed failed]
    exact full
  · rename_i mirrored
    have zero : (mirrorToken pdu.opts flow.token).2 = 0 := by simpa using mirrored
    have large : ¬ encodedSize 0 (mirrorToken pdu.opts flow.token).1.bundle.list ≤ ecOptsMaxLen := fun fits =>
      full ⟨zero, fits⟩
    have overfull : ∀ opts : EcOpts, opts.bundle = (mirrorToken pdu.opts flow.token).1.bundle →
        ¬ opts.Encodes flow.token := by
      rintro opts same ⟨again, fits⟩
      have longer := mirrorToken_size again
      rw [same] at longer
      omega
    split
    · exact overfull _ rfl
    · exact overfull _ rfl

/-- An empty set of options has room for every token of a flow. -/
theorem ecOptsInit_encodes {token : List UInt8} (short : token.length ≤ ecFlowTokenMax) : ecOptsInit.Encodes token := by
  have eight : token.length ≤ 8 := short
  unfold EcOpts.Encodes mirrorToken
  by_cases absent : token = []
  · rw [if_neg (by simpa using absent)]
    exact ⟨rfl, Nat.zero_le _⟩
  · have positive := List.length_pos_of_ne_nil absent
    have created := (ecOptNew_isSome .token token).mpr ⟨by simp only [ecCoapOptLenMax]; omega, by decide⟩
    obtain ⟨o, same⟩ := Option.isSome_iff_exists.mp created
    have added : ecOptsAddToken ecOptsInit token =
        ({ecOptsInit with noptions := 1, bundle := ecOptsInit.bundle.insert o}, 0) := by
      unfold ecOptsAddToken ecOptsAddShortOpaque ecOptsAddOpaque
      rw [if_neg (by omega), if_neg (by decide)]
      exact ecOptsAddRaw_one same (by simp only [ecCoapOptLenMax]; omega) (by decide)
    have length : o.l = token.length := (ecOptNew_some same).2.1
    have size : encodedSize 0 (ecOptsInit.bundle.insert o).list ≤ 20 := by
      have atMost := (fencepostCount_le 0 _ (ecOptsInit.bundle.insert o).ascending).1
      have weights : ((ecOptsInit.bundle.insert o).list.map optWeight).sum = optWeight o := by
        rw [((ecOptsInit.bundle.insert_perm o).map optWeight).sum_nat]
        rfl
      have weight : optWeight o ≤ 10 := by
        unfold optWeight
        split <;> omega
      rw [encodedSize_weight, weights]
      omega
    rw [if_pos absent, added]
    exact ⟨rfl, Nat.le_trans size (by decide)⟩

end Webthings.Evcoap
