import Webthings.Evcoap.ClientRequest

namespace Webthings.Evcoap

/-- The exponents from 10 down to 4; the argument counts those that are left. -/
def ecNearestBlockLoop (orig : Nat) : Nat → Option UInt8
  | 0 => none
  | left + 1 => if orig > 1 <<< (left + 4) then some (UInt8.ofNat left) else ecNearestBlockLoop orig left

def ecNearestBlock (orig : Nat) : Option UInt8 :=
  if orig < ecCoapBlockMin then none else ecNearestBlockLoop orig 7

def ecCfgSetBlockSz (cfg : EcCfg) (val : Nat) : EcCfg × Int :=
  if val < ecCoapBlockMin ∨ val > ecCoapBlockMax then (cfg, -1)
  else
    match ecNearestBlock val with
    | none => (cfg, -1)
    | some szx => (⟨false, szx⟩, 0)

def ecSetBlockSize (cfg : EcCfg) (val : Nat) : EcCfg × Int := ecCfgSetBlockSz cfg val

/-- What is left of a payload of this size. -/
def ecTrimPayloadSz (cfg : EcCfg) (plSz : Nat) : Nat :=
  let bsz := 1 <<< (cfg.blockSzx.toNat + 4)
  if ¬ cfg.blockIsStateless ∧ plSz > bsz then bsz else plSz

/-- The loop finds the greatest block size below the value, never the value itself. -/
theorem ecNearestBlockLoop_spec (orig left : Nat) :
    match ecNearestBlockLoop orig left with
    | none => ∀ szx < left, orig ≤ 16 * 2 ^ szx
    | some found => ∃ szx < left, found = UInt8.ofNat szx ∧ 16 * 2 ^ szx < orig ∧
        ∀ above, szx < above → above < left → orig ≤ 16 * 2 ^ above := by
  induction left with
  | zero => exact fun szx below => absurd below (Nat.not_lt_zero szx)
  | succ left ih =>
      have power : 1 <<< (left + 4) = 16 * 2 ^ left := by rw [Nat.one_shiftLeft, Nat.pow_add, Nat.mul_comm]
      rw [ecNearestBlockLoop, power]
      by_cases greater : orig > 16 * 2 ^ left
      · rw [if_pos greater]
        exact ⟨left, Nat.lt_succ_self left, rfl, greater, fun above less below => by omega⟩
      · rw [if_neg greater]
        have here : orig ≤ 16 * 2 ^ left := Nat.not_lt.mp greater
        cases found : ecNearestBlockLoop orig left with
        | none =>
            rw [found] at ih
            intro szx below
            rcases Nat.lt_succ_iff_lt_or_eq.mp below with less | rfl
            · exact ih szx less
            · exact here
        | some exponent =>
            rw [found] at ih
            obtain ⟨szx, below, same, less, rest⟩ := ih
            refine ⟨szx, Nat.lt_succ_of_lt below, same, less, fun above more within => ?_⟩
            rcases Nat.lt_succ_iff_lt_or_eq.mp within with inside | rfl
            · exact rest above more inside
            · exact here

/-- The largest block size that is not above a value. -/
structure LargestBlock (val bsz : Nat) : Prop where
  size : BlockSize bsz
  within : bsz ≤ val
  largest : ∀ other, BlockSize other → other ≤ val → other ≤ bsz

/-- What the preferred block size does, for a payload and for a size to trim. -/
structure PreferredBlock (cfg : EcCfg) (cli : EcClient) (payload : List UInt8) (size : Nat) (val : Nat) : Prop where
  largest : LargestBlock val (ecGetBlockSize (ecSetBlockSize cfg val).1)
  again : ecGetBlockSize (ecSetBlockSize (ecSetBlockSize cfg val).1 (ecGetBlockSize (ecSetBlockSize cfg val).1)).1 =
    ecGetBlockSize (ecSetBlockSize cfg val).1
  accepts : (ecRequestSetPayload (ecSetBlockSize cfg val).1 cli payload).2 = 0 ↔
    payload.length ≤ ecGetBlockSize (ecSetBlockSize cfg val).1
  trims : ecTrimPayloadSz (ecSetBlockSize cfg val).1 size =
    min size (ecGetBlockSize (ecSetBlockSize cfg val).1)

theorem ecGetBlockSize_exponent {szx : Nat} (small : szx < 7) :
    ecGetBlockSize ⟨false, UInt8.ofNat szx⟩ = 16 * 2 ^ szx := by
  have table : ∀ szx : Fin 7, ecGetBlockSize ⟨false, UInt8.ofNat szx.val⟩ = 16 * 2 ^ szx.val := by decide
  exact table ⟨szx, small⟩

/-- The least value in the range is refused. -/
theorem ecSetBlockSize_least (cfg : EcCfg) : ecSetBlockSize cfg 16 = (cfg, -1) := rfl

/-- A greater value sets the greatest block size below it. -/
theorem ecSetBlockSize_above (cfg : EcCfg) {val : Nat} (least : 16 < val) (most : val ≤ 1024) :
    ∃ szx < 7, ecSetBlockSize cfg val = (⟨false, UInt8.ofNat szx⟩, 0) ∧ 16 * 2 ^ szx < val ∧
      ∀ above, szx < above → above < 7 → val ≤ 16 * 2 ^ above := by
  have minimum : ecCoapBlockMin = 16 := rfl
  have maximum : ecCoapBlockMax = 1024 := rfl
  have nearest : ecNearestBlock val = ecNearestBlockLoop val 7 := by
    unfold ecNearestBlock
    rw [minimum, if_neg (by omega)]
  have spec := ecNearestBlockLoop_spec val 7
  unfold ecSetBlockSize ecCfgSetBlockSz
  rw [minimum, maximum, if_neg (by omega), nearest]
  cases found : ecNearestBlockLoop val 7 with
  | none =>
      rw [found] at spec
      have first := spec 0 (by omega)
      omega
  | some exponent =>
      rw [found] at spec
      obtain ⟨szx, below, rfl, less, rest⟩ := spec
      exact ⟨szx, below, rfl, less, rest⟩

/-- A configuration with a block size takes the payloads up to this size. -/
theorem ecRequestSetPayload_ok_iff {cfg : EcCfg} {cli : EcClient} {payload : List UInt8} (sized : 0 < ecGetBlockSize cfg) :
    (ecRequestSetPayload cfg cli payload).2 = 0 ↔ payload ≠ [] ∧ payload.length ≤ ecGetBlockSize cfg := by
  have refused : (-1 : Int) ≠ 0 := by decide
  unfold ecRequestSetPayload
  dsimp only
  by_cases exceeds : payload.length > ecGetBlockSize cfg
  · rw [if_pos ⟨Nat.ne_of_gt sized, exceeds⟩]
    exact ⟨fun ok => absurd ok refused, fun fits => absurd exceeds (Nat.not_lt.mpr fits.2)⟩
  · rw [if_neg fun big => exceeds big.2]
    unfold ecPduSetPayload
    by_cases empty : payload = []
    · rw [if_pos (List.length_eq_zero_iff.mpr empty)]
      exact ⟨fun ok => absurd ok refused, fun fits => absurd empty fits.1⟩
    · rw [if_neg (mt List.length_eq_zero_iff.mp empty)]
      exact ⟨fun _ => ⟨empty, Nat.not_lt.mp exceeds⟩, fun _ => rfl⟩

theorem ecTrimPayloadSz_min {cfg : EcCfg} {size : Nat} (sized : 0 < ecGetBlockSize cfg) :
    ecTrimPayloadSz cfg size = min size (ecGetBlockSize cfg) := by
  unfold ecGetBlockSize at sized ⊢
  unfold ecTrimPayloadSz
  cases stateless : cfg.blockIsStateless with
  | true =>
      rw [stateless] at sized
      cases sized
  | false =>
      simp only [Bool.false_eq_true, not_false_eq_true, true_and, if_false]
      split
      · rw [Nat.min_eq_right (by omega)]
      · rw [Nat.min_eq_left (by omega)]

/-- A size that has been set stays after it is set again when it is the least one only. -/
theorem ecSetBlockSize_again_iff {szx : Nat} (small : szx < 7) :
    ecGetBlockSize (ecSetBlockSize ⟨false, UInt8.ofNat szx⟩ (16 * 2 ^ szx)).1 = 16 * 2 ^ szx ↔ szx = 0 := by
  have table : ∀ szx : Fin 7,
      ecGetBlockSize (ecSetBlockSize ⟨false, UInt8.ofNat szx.val⟩ (16 * 2 ^ szx.val)).1 = 16 * 2 ^ szx.val ↔
        szx.val = 0 := by decide
  exact table ⟨szx, small⟩

/-- The least block size is the largest one below 32. -/
theorem largestBlock_least {val : Nat} : LargestBlock val 16 ↔ 16 ≤ val ∧ val < 32 := by
  constructor
  · intro largest
    refine ⟨largest.within, Nat.lt_of_not_le fun double => ?_⟩
    have more := largest.largest 32 ⟨1, by omega, rfl⟩ double
    omega
  · rintro ⟨least, less⟩
    refine ⟨⟨0, by omega, rfl⟩, least, ?_⟩
    rintro other ⟨szx, small, rfl⟩ within
    have exponent : 2 ^ szx < 2 ^ 1 := by omega
    have zero : szx < 1 := (Nat.pow_lt_pow_iff_right (by omega)).mp exponent
    rw [Nat.lt_one_iff.mp zero]
    exact Nat.le_refl 16

theorem LargestBlock.of_least {bsz : Nat} (largest : LargestBlock 16 bsz) : bsz = 16 := by
  have above := largest.largest 16 ⟨0, by omega, rfl⟩ (by omega)
  have within := largest.within
  omega

/-- The preferred block size is kept between 16 and 32 only, where it is 16. -/
theorem preferredBlock_iff (cfg : EcCfg) (cli : EcClient) (payload : List UInt8) (size : Nat) {val : Nat}
    (least : ecCoapBlockMin ≤ val) (most : val ≤ ecCoapBlockMax) :
    PreferredBlock cfg cli payload size val ↔
      payload ≠ [] ∧ ((16 < val ∧ val < 32) ∨ (val = 16 ∧ ecGetBlockSize cfg = 16)) := by
  change 16 ≤ val at least
  change val ≤ 1024 at most
  have preferred : ∀ {next : EcCfg} {rc : Int}, ecSetBlockSize cfg val = (next, rc) → ecGetBlockSize next = 16 →
      val < 32 → (PreferredBlock cfg cli payload size val ↔ payload ≠ []) := by
    intro next rc set sixteen less
    have sized : 0 < ecGetBlockSize next := by omega
    have accepts := @ecRequestSetPayload_ok_iff next cli payload sized
    constructor
    · intro kept empty
      have taken := kept.accepts.mpr (by rw [empty]; exact Nat.zero_le _)
      rw [set] at taken
      exact (accepts.mp taken).1 empty
    · intro filled
      refine ⟨?_, ?_, ?_, ?_⟩
      · rw [set, sixteen]
        exact largestBlock_least.mpr ⟨least, less⟩
      · rw [set, sixteen, ecSetBlockSize_least, sixteen]
      · rw [set, accepts]
        exact ⟨fun fits => fits.2, fun fits => ⟨filled, fits⟩⟩
      · rw [set]
        exact ecTrimPayloadSz_min sized
  rcases Nat.eq_or_lt_of_le least with rfl | above
  · have set := ecSetBlockSize_least cfg
    by_cases sixteen : ecGetBlockSize cfg = 16
    · rw [preferred set sixteen (by omega)]
      exact ⟨fun filled => ⟨filled, .inr ⟨rfl, sixteen⟩⟩, fun held => held.1⟩
    · refine ⟨fun kept => ?_, fun held => ?_⟩
      · have largest := kept.largest
        rw [set] at largest
        exact absurd largest.of_least sixteen
      · rcases held.2 with ⟨more, _⟩ | ⟨_, same⟩
        · omega
        · exact absurd same sixteen
  · obtain ⟨szx, small, set, below, rest⟩ := ecSetBlockSize_above cfg above most
    have reported := ecGetBlockSize_exponent small
    by_cases zero : szx = 0
    · subst zero
      by_cases double : val = 32
      · refine ⟨fun kept => ?_, fun held => by omega⟩
        have largest := kept.largest
        rw [set, reported] at largest
        have less := (largestBlock_least.mp largest).2
        omega
      · have most : val ≤ 32 := rest 1 (by omega) (by omega)
        rw [preferred set reported (by omega)]
        exact ⟨fun filled => ⟨filled, .inl (by omega)⟩, fun held => held.1⟩
    · refine ⟨fun kept => ?_, fun held => ?_⟩
      · have again := kept.again
        rw [set] at again
        dsimp only at again
        rw [reported] at again
        exact absurd ((ecSetBlockSize_again_iff small).mp again) zero
      · have double : 2 ^ 1 ≤ 2 ^ szx := Nat.pow_le_pow_right (by omega) (by omega)
        omega

theorem preferredBlock_iff_twenty : PreferredBlock ecCfgInit confirmableGet [65] 100 20 :=
  (preferredBlock_iff ecCfgInit confirmableGet [65] 100 (by decide) (by decide)).mpr ⟨by decide, .inl (by decide)⟩

/-- Half of 64 is preferred when 64 is asked for, and nothing when 16 is. -/
theorem preferredBlock_misses :
    ecGetBlockSize (ecSetBlockSize ecCfgInit 64).1 = 32 ∧ ecGetBlockSize (ecSetBlockSize ecCfgInit 16).1 = 0 ∧
      ¬ PreferredBlock ecCfgInit confirmableGet [65] 100 64 := by
  have half : ecGetBlockSize (ecSetBlockSize ecCfgInit 64).1 = 32 := by decide
  refine ⟨half, by decide, fun kept => ?_⟩
  have largest := kept.largest.largest 64 ⟨2, by omega, rfl⟩ (by omega)
  omega

end Webthings.Evcoap
