import Webthings.Evcoap.Options.Get
import Mathlib.Data.List.DropRight
import Mathlib.Data.List.Palindrome
import Mathlib.Data.Nat.Digits.Lemmas

namespace Webthings.Evcoap

/-- The bytes of an integer without leading zeros, the lowest first. -/
def uintBytes (ui : Nat) : List UInt8 := (Nat.digits 256 ui).map UInt8.ofNat

/-- The integer that bytes with the lowest first stand for. -/
def bytesUint (v : List UInt8) : Nat := Nat.ofDigits 256 (v.map UInt8.toNat)

theorem bytes_lt (v : List UInt8) : ∀ digit ∈ v.map UInt8.toNat, digit < 256 := by
  intro digit member
  obtain ⟨byte, _, rfl⟩ := List.mem_map.mp member
  exact byte.toNat_lt

theorem uintBytes_digits (ui : Nat) : (uintBytes ui).map UInt8.toNat = Nat.digits 256 ui := by
  unfold uintBytes
  rw [List.map_map]
  refine (List.map_congr_left fun digit member => ?_).trans (List.map_id _)
  have small := Nat.digits_lt_base (by decide : 1 < 256) member
  rw [Function.comp_apply, UInt8.toNat_ofNat', Nat.mod_eq_of_lt small]
  rfl

@[simp] theorem bytesUint_uintBytes (ui : Nat) : bytesUint (uintBytes ui) = ui := by
  unfold bytesUint
  rw [uintBytes_digits, Nat.ofDigits_digits]

theorem uintBytes_length (ui : Nat) : (uintBytes ui).length = (Nat.digits 256 ui).length := List.length_map _

/-- The table of the encoder holds the largest integer of each length. -/
theorem uiBytes_eq : uiBytes = (List.range 8).map fun i => 256 ^ (i + 1) - 1 := by decide

/-- The encoder picks the least length. -/
theorem uiBytes_findIdx (ui : UInt64) (positive : ui ≠ 0) :
    uiBytes.findIdx (fun most => ui.toNat ≤ most) + 1 = (uintBytes ui.toNat).length := by
  have some : Nat.digits 256 ui.toNat ≠ [] := by
    rw [Nat.digits_ne_nil_iff_ne_zero]
    exact fun zero => positive (UInt64.toNat_inj.mp zero)
  have most : (Nat.digits 256 ui.toNat).length ≤ 8 := by
    rw [Nat.digits_length_le_iff (by decide)]
    exact ui.toNat_lt
  have fits : ∀ n, ui.toNat ≤ 256 ^ n - 1 ↔ (Nat.digits 256 ui.toNat).length ≤ n := by
    intro n
    rw [Nat.digits_length_le_iff (by decide)]
    have power : 0 < 256 ^ n := Nat.pow_pos (by decide)
    omega
  rw [uintBytes_length]
  generalize Nat.digits 256 ui.toNat = digits at some most fits
  have length := List.length_pos_of_ne_nil some
  have inside : digits.length - 1 < uiBytes.length := by
    rw [show uiBytes.length = 8 from rfl]
    omega
  have found : uiBytes.findIdx (fun most => ui.toNat ≤ most) = digits.length - 1 := by
    rw [List.findIdx_eq inside]
    simp only [uiBytes_eq, List.getElem_map, List.getElem_range, decide_eq_true_eq, decide_eq_false_iff_not, fits]
    refine ⟨by omega, fun j shorter => ?_⟩
    omega
  omega

/-- The bytes that the encoder takes from an integer by shifts are its digits. -/
theorem shiftedBytes (ui : Nat) :
    ((List.range (uintBytes ui).length).map fun j => ((ui >>> (8 * j)) &&& 0xff).toUInt8) = uintBytes ui := by
  apply List.ext_getElem (by simp)
  intro j _ inside
  have digit := Nat.getD_digits ui j (by decide : 2 ≤ 256)
  rw [← List.getElem_eq_getD (h := by rw [← uintBytes_length]; exact inside)] at digit
  have mask : (0xff : Nat) = 2 ^ 8 - 1 := rfl
  have power : 2 ^ (8 * j) = 256 ^ j := by rw [Nat.pow_mul]
  simp only [List.getElem_map, List.getElem_range, uintBytes, digit, mask, Nat.and_two_pow_sub_one_eq_mod,
    Nat.shiftRight_eq_div_pow, power]

/-- The order in which a build puts the bytes: the highest first in the little-endian one, the lowest in the other. -/
def ByteOrder.arrange (order : ByteOrder) (low : List UInt8) : List UInt8 :=
  match order with
  | .little => low.reverse
  | .big => low

@[simp] theorem ByteOrder.arrange_length (order : ByteOrder) (low : List UInt8) :
    (order.arrange low).length = low.length := by
  cases order
  · exact List.length_reverse
  · rfl

@[simp] theorem ByteOrder.arrange_arrange (order : ByteOrder) (low : List UInt8) :
    order.arrange (order.arrange low) = low := by
  cases order
  · exact List.reverse_reverse low
  · rfl

/-- The encoder puts the bytes of the integer in the order of its build, when there is room for all of them. -/
theorem ecOptEncodeUint_eq (order : ByteOrder) (ui : UInt64) (elen : Nat) :
    ecOptEncodeUint order ui elen =
      if elen < (uintBytes ui.toNat).length then none else some (order.arrange (uintBytes ui.toNat)) := by
  unfold ecOptEncodeUint
  by_cases zero : ui = 0
  · subst zero
    cases order <;> rfl
  · rw [if_neg zero, uiBytes_findIdx ui zero]
    dsimp only
    rw [shiftedBytes]
    cases order <;> rfl

/-- The decoder reads bytes in the order of its build. -/
theorem ecOptDecodeUint_eq (order : ByteOrder) (v : List UInt8) (short : v.length ≤ 8) :
    ecOptDecodeUint order v v.length = some (bytesUint (order.arrange v)) := by
  unfold ecOptDecodeUint bytesUint
  rw [if_neg (Nat.not_lt.mpr short)]
  have fold : ∀ low : List UInt8,
      low.foldr (fun byte ui => ui * 256 + byte.toNat) 0 = Nat.ofDigits 256 (low.map UInt8.toNat) := by
    intro low
    rw [Nat.ofDigits_eq_foldr, List.foldr_map]
    congr
    funext byte ui
    rw [Nat.mul_comm, Nat.add_comm]
    rfl
  cases order with
  | little =>
      dsimp only [ByteOrder.arrange]
      rw [← fold, List.foldr_reverse]
  | big =>
      dsimp only [ByteOrder.arrange]
      rw [← fold]

theorem uintBytes_length_le (ui : UInt64) : (uintBytes ui.toNat).length ≤ 8 := by
  rw [uintBytes_length, Nat.digits_length_le_iff (by decide)]
  exact ui.toNat_lt

/-- What one build encodes, another one decodes to the integer of the bytes in both orders. -/
theorem ecOptDecodeUint_encode (sender receiver : ByteOrder) (ui : UInt64) (elen : Nat) (e : List UInt8)
    (encoded : ecOptEncodeUint sender ui elen = some e) :
    ecOptDecodeUint receiver e e.length =
      some (bytesUint (receiver.arrange (sender.arrange (uintBytes ui.toNat)))) := by
  rw [ecOptEncodeUint_eq] at encoded
  split at encoded
  · cases encoded
  · cases encoded
    exact ecOptDecodeUint_eq receiver _ (by rw [ByteOrder.arrange_length]; exact uintBytes_length_le ui)

/-- An integer reads back in the build that has written it. -/
theorem ecOptDecodeUint_inverts (order : ByteOrder) (ui : UInt64) (elen : Nat) (e : List UInt8)
    (encoded : ecOptEncodeUint order ui elen = some e) : ecOptDecodeUint order e e.length = some ui.toNat := by
  rw [ecOptDecodeUint_encode order order ui elen e encoded, ByteOrder.arrange_arrange, bytesUint_uintBytes]

/-- The least number of bytes that an integer fits. -/
def LeastLength (ui n : Nat) : Prop := (n = 0 ↔ ui = 0) ∧ (n ≠ 0 → 256 ^ (n - 1) ≤ ui ∧ ui < 256 ^ n)

theorem leastLength_iff (ui n : Nat) : LeastLength ui n ↔ n = (uintBytes ui).length := by
  have below : ∀ k, (uintBytes ui).length ≤ k ↔ ui < 256 ^ k := by
    intro k
    rw [uintBytes_length, Nat.digits_length_le_iff (by decide)]
  have none : (uintBytes ui).length = 0 ↔ ui = 0 := by
    rw [← Nat.le_zero, below, Nat.pow_zero, Nat.lt_one_iff]
  have shorter := below (n - 1)
  have whole := below n
  unfold LeastLength
  by_cases zero : n = 0
  · subst zero
    rw [show 0 = (uintBytes ui).length ↔ ui = 0 from eq_comm.trans none]
    simp
  · simp only [zero, false_iff, ne_eq, not_false_eq_true, forall_const]
    omega

/-- The bytes of the same integer without the zeros that the order of the build puts on the side of the high ones. -/
def ByteOrder.withoutZeros (order : ByteOrder) (v : List UInt8) : List UInt8 :=
  match order with
  | .little => v.dropWhile (· = 0)
  | .big => v.rdropWhile (· = 0)

/-- High zeros are all that tells bytes of an integer from those without leading zeros. -/
theorem uintBytes_bytesUint (low : List UInt8) : uintBytes (bytesUint low) = low.rdropWhile (· = 0) := by
  induction low using List.reverseRecOn with
  | nil => rfl
  | append_singleton low byte inductionHypothesis =>
      by_cases zero : byte = 0
      · have same : bytesUint (low ++ [byte]) = bytesUint low := by
          unfold bytesUint
          rw [zero, List.map_append]
          exact Nat.ofDigits_append_zero _
        rw [same, inductionHypothesis, List.rdropWhile_concat_pos _ _ _ (by simpa using zero)]
      · have digits : Nat.digits 256 (bytesUint (low ++ [byte])) = (low ++ [byte]).map UInt8.toNat := by
          refine Nat.digits_ofDigits 256 (by decide) _ (bytes_lt _) fun _ => ?_
          simp only [List.map_append, List.map_cons, List.map_nil, List.getLast_append_singleton]
          exact fun none => zero (UInt8.toNat_inj.mp none)
        rw [List.rdropWhile_concat_neg _ _ _ (by simpa using zero), uintBytes, digits, List.map_map]
        refine (List.map_congr_left fun digit _ => ?_).trans (List.map_id _)
        exact UInt8.ofNat_toNat

theorem ByteOrder.withoutZeros_eq (order : ByteOrder) (v : List UInt8) :
    order.arrange (uintBytes (bytesUint (order.arrange v))) = order.withoutZeros v := by
  rw [uintBytes_bytesUint]
  cases order with
  | little =>
      show (v.reverse.rdropWhile (· = 0)).reverse = v.dropWhile (· = 0)
      rw [List.rdropWhile_reverse, List.reverse_reverse]
  | big => rfl

theorem bytesUint_lt (v : List UInt8) (short : v.length ≤ 8) : bytesUint v < 2 ^ 64 := by
  have bound := Nat.ofDigits_lt_base_pow_length (by decide : 1 < 256) (bytes_lt v)
  rw [List.length_map] at bound
  exact Nat.lt_of_lt_of_le bound (Nat.pow_le_pow_right (by decide) short)

/-- The encoder of a build and its decoder are inverse to each other up to redundant zeros, and an integer takes as few
bytes as it can. -/
structure MinimalCodec (order : ByteOrder) : Prop where
  least : ∀ ui : UInt64, ∃! n, LeastLength ui.toNat n
  fails : ∀ (ui : UInt64) n, LeastLength ui.toNat n → ∀ elen, ecOptEncodeUint order ui elen = none ↔ elen < n
  encodes : ∀ (ui : UInt64) n, LeastLength ui.toNat n → ∀ elen e, ecOptEncodeUint order ui elen = some e →
    e.length = n ∧ ecOptDecodeUint order e e.length = some ui.toNat
  reencodes : ∀ v : List UInt8, v.length ≤ 8 → ∃ ui : UInt64, ecOptDecodeUint order v v.length = some ui.toNat ∧
    ecOptEncodeUint order ui 8 = some (order.withoutZeros v)

theorem uintCodec_minimal (order : ByteOrder) : MinimalCodec order where
  least := fun ui => ⟨_, (leastLength_iff _ _).mpr rfl, fun n least => (leastLength_iff _ _).mp least⟩
  fails := by
    intro ui n least elen
    rw [(leastLength_iff _ _).mp least, ecOptEncodeUint_eq]
    split <;> simp_all
  encodes := by
    intro ui n least elen e encoded
    refine ⟨?_, ecOptDecodeUint_inverts order ui elen e encoded⟩
    rw [ecOptEncodeUint_eq] at encoded
    split at encoded
    · cases encoded
    · cases encoded
      rw [ByteOrder.arrange_length, (leastLength_iff _ _).mp least]
  reencodes := by
    intro v short
    have small := bytesUint_lt (order.arrange v) (by rw [ByteOrder.arrange_length]; exact short)
    have whole : (UInt64.ofNat (bytesUint (order.arrange v))).toNat = bytesUint (order.arrange v) := by
      rw [UInt64.toNat_ofNat', Nat.mod_eq_of_lt small]
    refine ⟨UInt64.ofNat (bytesUint (order.arrange v)), ?_, ?_⟩
    · rw [ecOptDecodeUint_eq order v short, whole]
    · have fits := uintBytes_length_le (UInt64.ofNat (bytesUint (order.arrange v)))
      rw [ecOptEncodeUint_eq, if_neg (by omega), whole, ByteOrder.withoutZeros_eq]

/-- The bytes of an integer read the same from both ends. -/
def ReadsBothWays (ui : Nat) : Prop := (Nat.digits 256 ui).Palindrome

theorem readsBothWays_iff (ui : Nat) : ReadsBothWays ui ↔ (uintBytes ui).reverse = uintBytes ui := by
  unfold ReadsBothWays
  rw [List.Palindrome.iff_reverse_eq, ← uintBytes_digits, ← List.map_reverse]
  exact List.map_inj_right fun _ _ same => UInt8.toNat_inj.mp same

/-- Bytes that read the same from both ends are in every order the same. -/
theorem ReadsBothWays.arrange {ui : Nat} (both : ReadsBothWays ui) (order : ByteOrder) :
    order.arrange (uintBytes ui) = uintBytes ui := by
  cases order
  · exact (readsBothWays_iff ui).mp both
  · rfl

/-- An option that is added to a set without one of its symbol is the one that is found. -/
theorem ecOptsGet_insert {opts : EcOpts} {o : EcOpt} (absent : ecOptsGet opts o.sym = none) (noptions : Nat) :
    ecOptsGet {opts with noptions := noptions, bundle := opts.bundle.insert o} o.sym = some o := by
  have none : opts.bundle.list.filter (fun x => x.sym = o.sym) = [] := by
    unfold ecOptsGet ecOptsGetNth at absent
    exact List.length_eq_zero_iff.mp (Nat.le_zero.mp (List.getElem?_eq_none_iff.mp absent))
  have one : ((opts.bundle.insert o).list.filter fun x => x.sym = o.sym).Perm [o] := by
    have permuted := (opts.bundle.insert_perm o).filter fun x => decide (x.sym = o.sym)
    rw [List.filter_cons_of_pos (by simp), none] at permuted
    exact permuted
  unfold ecOptsGet ecOptsGetNth
  rw [List.perm_singleton.mp one]
  rfl

/-- An integer that was added to a set is found there with the bytes that the encoder has made. -/
theorem ecOptsAddUint_found (order : ByteOrder) {opts : EcOpts} {sym : EcOptSym} (ui : UInt64)
    (uint : ecOptSym2type sym = .uint) (absent : ecOptsGet opts sym = none) (room : opts.noptions < ecProtoMaxOptions) :
    ∃ o, ecOptsAddUint order opts sym ui =
        ({opts with noptions := opts.noptions + 1, bundle := opts.bundle.insert o}, 0) ∧
      ecOptsGet (ecOptsAddUint order opts sym ui).1 sym = some o ∧ o.value = order.arrange (uintBytes ui.toNat) ∧
      o.l = o.value.length := by
  have short := uintBytes_length_le ui
  have valid : sym.Valid := by
    by_contra invalid
    rw [(ecOptSym2type_invalid sym).mpr invalid] at uint
    cases uint
  have fits : (order.arrange (uintBytes ui.toNat)).length ≤ ecCoapOptLenMax := by
    rw [ByteOrder.arrange_length]
    exact Nat.le_trans short (by decide)
  obtain ⟨o, created⟩ := Option.isSome_iff_exists.mp ((ecOptNew_isSome sym _).mpr ⟨fits, valid⟩)
  obtain ⟨symbol, length, copied⟩ := ecOptNew_some created
  have value : o.value = order.arrange (uintBytes ui.toNat) := by
    have shape := o.shape
    unfold EcOpt.value
    cases buffer : o.v with
    | none =>
        rw [buffer, symbol] at shape
        rcases shape with empty | ⟨_, zero⟩
        · rw [uint] at empty
          cases empty
        · rw [zero] at length
          exact (List.length_eq_zero_iff.mp length.symm).symm
    | some bytes => exact copied bytes buffer
  have added : ecOptsAddUint order opts sym ui =
      ({opts with noptions := opts.noptions + 1, bundle := opts.bundle.insert o}, 0) := by
    unfold ecOptsAddUint
    rw [if_neg (by simp [uint]), ecOptEncodeUint_eq, if_neg (by omega)]
    exact ecOptsAddRaw_one created (by rw [ByteOrder.arrange_length]; exact Nat.lt_of_le_of_lt short (by decide)) room
  refine ⟨o, added, ?_, value, by rw [value]; exact length⟩
  rw [added]
  subst symbol
  exact ecOptsGet_insert absent _

/-- Hosts of both byte orders mean the same by an integer: their encoders put the same bytes with the highest first,
each decoder inverts each encoder, and so does the reading of an option of any set. -/
structure BuildsAgree (ui : UInt64) : Prop where
  encoders : ∀ elen, ecOptEncodeUint .little ui elen = ecOptEncodeUint .big ui elen
  highestFirst : ∀ order elen e, ecOptEncodeUint order ui elen = some e → e = (uintBytes ui.toNat).reverse
  decoders : ∀ sender receiver elen e, ecOptEncodeUint sender ui elen = some e →
    ecOptDecodeUint receiver e e.length = some ui.toNat
  options : ∀ sender receiver opts sym, ecOptSym2type sym = .uint → ecOptsGet opts sym = none →
    opts.noptions < ecProtoMaxOptions →
      ecOptsGetUint receiver (ecOptsAddUint sender opts sym ui).1 sym = some ui.toNat

/-- The builds agree on exactly the integers whose bytes read the same from both ends. -/
theorem buildsAgree_iff (ui : UInt64) : BuildsAgree ui ↔ ReadsBothWays ui.toNat := by
  have short := uintBytes_length_le ui
  constructor
  · intro agree
    have same := agree.encoders 8
    rw [ecOptEncodeUint_eq, ecOptEncodeUint_eq, if_neg (by omega), if_neg (by omega)] at same
    exact (readsBothWays_iff _).mpr (Option.some.inj same)
  · intro both
    have exchanged : ∀ sender receiver elen e, ecOptEncodeUint sender ui elen = some e →
        ecOptDecodeUint receiver e e.length = some ui.toNat := by
      intro sender receiver elen e encoded
      rw [ecOptDecodeUint_encode sender receiver ui elen e encoded, both.arrange, both.arrange, bytesUint_uintBytes]
    refine ⟨fun elen => ?_, fun order elen e encoded => ?_, exchanged, ?_⟩
    · rw [ecOptEncodeUint_eq, ecOptEncodeUint_eq, both.arrange, both.arrange]
    · rw [ecOptEncodeUint_eq] at encoded
      split at encoded
      · cases encoded
      · rw [(readsBothWays_iff _).mp both, ← both.arrange order]
        exact (Option.some.inj encoded).symm
    · intro sender receiver opts sym uint absent room
      obtain ⟨o, _, found, value, length⟩ := ecOptsAddUint_found sender ui uint absent room
      unfold ecOptsGetUint
      rw [if_neg (by simp [uint]), found]
      dsimp only
      rw [length, value]
      exact exchanged sender receiver 8 _ (by rw [ecOptEncodeUint_eq, if_neg (by omega)])

/-- The Max-Age of one minute and that of one hour go out in one and in two bytes, and only the first is understood. -/
example : ecOptEncodeUint .big 60 8 = some [60] ∧ ecOptEncodeUint .big 3600 8 = some [0x10, 0x0e] ∧
    ecOptDecodeUint .little [0x10, 0x0e] 2 = some 4110 := by decide

/-- The two builds disagree on 256. -/
theorem twoBytes_disagree : ¬ ∀ ui : UInt64, BuildsAgree ui := by
  intro always
  have same := (always 256).encoders 8
  exact absurd same (by decide)

end Webthings.Evcoap
