import Webthings.Evcoap.Options.Frame
import Mathlib.Data.Nat.Bitwise

namespace Webthings.Evcoap

def ecOptsGetContentType (order : ByteOrder) (opts : EcOpts) : Option UInt16 :=
  match ecOptsGetUint order opts .contentType with
  | none => none
  | some tmp => if tmp > 0xffff then none else some tmp.toUInt16

def ecOptsGetIfNoneMatch (opts : EcOpts) : Bool := (ecOptsGet opts .ifNoneMatch).isSome

/-- The fields of a Block option. -/
structure BlockFields where
  num : UInt32
  more : Bool
  szx : UInt8
  deriving DecidableEq, Repr

/-- The integer that `ec_opts_add_block` packs the fields into. -/
def BlockFields.pack (block : BlockFields) : UInt32 :=
  block.szx.toUInt32 ||| ((if block.more then (1 : UInt32) else 0) <<< (3 : UInt32)) ||| (block.num <<< (4 : UInt32))

/-- The fields that `ec_opts_get_block` takes from an integer. -/
def BlockFields.unpack (tmp : Nat) : BlockFields :=
  ⟨(tmp >>> 4).toUInt32, tmp &&& 0x8 ≠ 0, (tmp &&& 0x7).toUInt8⟩

def ecOptsGetBlock (order : ByteOrder) (opts : EcOpts) (which : EcOptSym) : Option BlockFields :=
  if which ≠ .block1 ∧ which ≠ .block2 then none
  else
    match ecOptsGetUint order opts which with
    | none => none
    | some tmp => if tmp > 0xffffff then none else some (BlockFields.unpack tmp)

def ecOptsGetBlock1 (order : ByteOrder) (opts : EcOpts) : Option BlockFields := ecOptsGetBlock order opts .block1

def ecOptsGetBlock2 (order : ByteOrder) (opts : EcOpts) : Option BlockFields := ecOptsGetBlock order opts .block2

def ecCoapBlockMin : Nat := 1 <<< 4

def ecCoapBlockMax : Nat := 1 <<< 10

/-- The size exponent that the loop of `add_block` finds. -/
def blockSzx (bsz : Nat) : Option UInt8 :=
  ((List.range 7).find? fun i => bsz = ecCoapBlockMin <<< i).map UInt8.ofNat

/-- The last check ahead of the loop asks for a power of two on `size_t`. -/
def addBlock (order : ByteOrder) (opts : EcOpts) (which : EcOptSym) (bnum : UInt32) (more : Bool) (bsz : Nat) :
    EcOpts × Int :=
  if which ≠ .block1 ∧ which ≠ .block2 then (opts, -1)
  else if bsz < ecCoapBlockMin ∨ bsz > ecCoapBlockMax then (opts, -1)
  else if bsz.toUInt64 &&& (~~~bsz.toUInt64 + 1) ≠ bsz.toUInt64 then (opts, -1)
  else if (ecOptsGetUint order opts which).isSome then (opts, -1)
  else
    match blockSzx bsz with
    | none => (opts, -1)
    | some szx =>
        let added := ecOptsAddBlock order opts which bnum more szx
        if added.2 ≠ 0 then (added.1, -1) else (added.1, 0)

/-- A Block option as the interface of the library hands it out, with the size in bytes. -/
structure BlockInfo where
  bnum : UInt32
  more : Bool
  bsz : Nat
  deriving DecidableEq, Repr

def BlockFields.info (block : BlockFields) : BlockInfo := ⟨block.num, block.more, 1 <<< (block.szx.toNat + 4)⟩

/-- The Block options of requests and of responses are read alike. -/
def ecRequestGetBlock (order : ByteOrder) (opts : EcOpts) (which : EcOptSym) : Option BlockInfo :=
  (ecOptsGetBlock order opts which).map BlockFields.info

def ecRequestGetBlock1 (order : ByteOrder) (opts : EcOpts) : Option BlockInfo := ecRequestGetBlock order opts .block1

def ecRequestGetBlock2 (order : ByteOrder) (opts : EcOpts) : Option BlockInfo := ecRequestGetBlock order opts .block2

def ecResponseGetBlock1 (order : ByteOrder) (opts : EcOpts) : Option BlockInfo :=
  (ecOptsGetBlock1 order opts).map BlockFields.info

def ecResponseGetBlock2 (order : ByteOrder) (opts : EcOpts) : Option BlockInfo :=
  (ecOptsGetBlock2 order opts).map BlockFields.info

/-- The block sizes that a size exponent stands for. -/
def BlockSize (bsz : Nat) : Prop := ∃ szx ≤ 6, bsz = 16 * 2 ^ szx

/-- The block size is found again by its exponent. -/
theorem BlockSize.spec {bsz : Nat} (size : BlockSize bsz) :
    ecCoapBlockMin ≤ bsz ∧ bsz ≤ ecCoapBlockMax ∧ bsz.toUInt64 &&& (~~~bsz.toUInt64 + 1) = bsz.toUInt64 ∧
      ∃ szx : UInt8, blockSzx bsz = some szx ∧ szx ≤ 6 ∧ 1 <<< (szx.toNat + 4) = bsz := by
  obtain ⟨szx, bound, rfl⟩ := size
  have table : ∀ szx : Fin 7, ecCoapBlockMin ≤ 16 * 2 ^ szx.val ∧ 16 * 2 ^ szx.val ≤ ecCoapBlockMax ∧
      (16 * 2 ^ szx.val).toUInt64 &&& (~~~(16 * 2 ^ szx.val).toUInt64 + 1) = (16 * 2 ^ szx.val).toUInt64 ∧
        blockSzx (16 * 2 ^ szx.val) = some (UInt8.ofNat szx.val) ∧ UInt8.ofNat szx.val ≤ 6 ∧
          1 <<< ((UInt8.ofNat szx.val).toNat + 4) = 16 * 2 ^ szx.val := by decide
  obtain ⟨least, most, power, found, small, back⟩ := table ⟨szx, by omega⟩
  exact ⟨least, most, power, UInt8.ofNat szx, found, small, back⟩

theorem BlockSize.pos {bsz : Nat} (size : BlockSize bsz) : 0 < bsz := by
  have least := size.spec.1
  unfold ecCoapBlockMin at least
  omega

/-- The packed integer has the exponent in its three low bits, the M bit above them and the number on top. -/
theorem BlockFields.pack_toNat (block : BlockFields) (number : block.num ≤ 0xfffff) (exponent : block.szx ≤ 7) :
    block.pack.toNat = 16 * block.num.toNat + (8 * block.more.toNat + block.szx.toNat) := by
  have numberBound : block.num.toNat ≤ 0xfffff := number
  have exponentBound : block.szx.toNat < 2 ^ 3 := Nat.lt_succ_of_le exponent
  have flag : ((if block.more then (1 : UInt32) else 0) <<< (3 : UInt32)).toNat = 2 ^ 3 * block.more.toNat := by
    cases block.more <;> rfl
  have flagBound : block.more.toNat ≤ 1 := Bool.toNat_le block.more
  have low : (block.szx.toUInt32 ||| ((if block.more then (1 : UInt32) else 0) <<< (3 : UInt32))).toNat =
      8 * block.more.toNat + block.szx.toNat := by
    rw [UInt32.toNat_or, flag, UInt8.toNat_toUInt32, Nat.or_comm, ← Nat.two_pow_add_eq_or_of_lt exponentBound]
  have high : (block.num <<< (4 : UInt32)).toNat = 2 ^ 4 * block.num.toNat := by
    rw [UInt32.toNat_shiftLeft]
    change block.num.toNat <<< 4 % 2 ^ 32 = 2 ^ 4 * block.num.toNat
    rw [Nat.shiftLeft_eq]
    omega
  rw [pack, UInt32.toNat_or, low, high, Nat.or_comm, ← Nat.two_pow_add_eq_or_of_lt (by omega)]

/-- The fields come back from the packed integer, which fits into 24 bits. -/
theorem BlockFields.unpack_pack (block : BlockFields) (number : block.num ≤ 0xfffff) (exponent : block.szx ≤ 7) :
    BlockFields.unpack block.pack.toNat = block ∧ block.pack.toNat ≤ 0xffffff := by
  have packed := block.pack_toNat number exponent
  have numberBound : block.num.toNat ≤ 0xfffff := number
  have exponentBound : block.szx.toNat ≤ 7 := exponent
  have flagBound : block.more.toNat ≤ 1 := Bool.toNat_le block.more
  generalize block.pack.toNat = tmp at packed
  have num : tmp >>> 4 = block.num.toNat := by
    rw [Nat.shiftRight_eq_div_pow]
    omega
  have szx : tmp &&& 0x7 = block.szx.toNat := by
    have mask : tmp &&& 0x7 = tmp % 2 ^ 3 := Nat.and_two_pow_sub_one_eq_mod tmp 3
    omega
  have more : decide (tmp &&& 0x8 ≠ 0) = block.more := by
    have bit : tmp &&& 0x8 = (tmp.testBit 3).toNat * 2 ^ 3 := Nat.and_two_pow tmp 3
    have digit : tmp / 2 ^ 3 % 2 = block.more.toNat := by omega
    rw [bit, Nat.testBit_eq_decide_div_mod_eq, digit]
    cases block.more <;> rfl
  constructor
  · unfold unpack
    rw [num, szx, more]
    change BlockFields.mk (UInt32.ofNat block.num.toNat) block.more (UInt8.ofNat block.szx.toNat) = block
    rw [UInt32.ofNat_toNat, UInt8.ofNat_toNat]
  · omega

section AddBlock

variable (order : ByteOrder) {opts : EcOpts} {which : EcOptSym} {bsz : Nat} (bnum : UInt32) (more : Bool)

/-- A block size passes the checks, and what is left is the range of the number and the room in the set. -/
theorem addBlock_eq (size : BlockSize bsz) (block : which = .block1 ∨ which = .block2)
    (absent : ecOptsGet opts which = none) :
    ∃ szx : UInt8, szx ≤ 7 ∧ 1 <<< (szx.toNat + 4) = bsz ∧
      addBlock order opts which bnum more bsz =
        if bnum > 0xfffff then (opts, -1)
        else
          let added := ecOptsAddUint order opts which (BlockFields.pack ⟨bnum, more, szx⟩).toUInt64
          if added.2 ≠ 0 then (added.1, -1) else (added.1, 0) := by
  obtain ⟨least, most, power, szx, found, small, back⟩ := size.spec
  have seven : szx ≤ 7 := UInt8.le_trans small (by decide)
  have known : ¬ (which ≠ .block1 ∧ which ≠ .block2) := by
    rcases block with rfl | rfl <;> decide
  refine ⟨szx, seven, back, ?_⟩
  unfold addBlock
  rw [if_neg known, if_neg (by omega), if_neg (by simp [power]), absent_uint order absent, found]
  dsimp only
  unfold ecOptsAddBlock
  rw [if_neg (by decide), if_neg known, if_neg (UInt8.not_lt.mpr seven)]
  by_cases wide : bnum > 0xfffff
  · rw [if_pos wide, if_pos wide, if_pos (by decide : (-1 : Int) ≠ 0)]
  · rw [if_neg wide, if_neg wide]
    rfl

theorem blockSym_uint (block : which = .block1 ∨ which = .block2) : ecOptSym2type which = .uint := by
  rcases block with rfl | rfl <;> decide

/-- For a block size, the Block option is added as soon as it is not there, its number has 20 bits, and there is room. -/
theorem addBlock_ok_iff (size : BlockSize bsz) (block : which = .block1 ∨ which = .block2)
    (absent : ecOptsGet opts which = none) :
    (addBlock order opts which bnum more bsz).2 = 0 ↔ bnum ≤ 0xfffff ∧ opts.noptions < ecProtoMaxOptions := by
  obtain ⟨szx, _, _, same⟩ := addBlock_eq order bnum more size block absent
  have room := ecOptsAddUint_ok_iff order (BlockFields.pack ⟨bnum, more, szx⟩).toUInt64 (blockSym_uint block) absent
  rw [same]
  by_cases wide : bnum > 0xfffff
  · rw [if_pos wide]
    constructor
    · intro impossible
      cases impossible
    · intro bounds
      exact absurd bounds.1 (UInt32.not_le.mpr wide)
  · rw [if_neg wide, ← room]
    dsimp only
    constructor
    · intro succeeded
      refine ⟨UInt32.not_lt.mp wide, ?_⟩
      by_contra failed
      rw [if_pos failed] at succeeded
      cases succeeded
    · intro bounds
      rw [if_neg (not_not_intro bounds.2)]

/-- A number of more than 20 bits is never added. -/
theorem addBlock_number {bnum : UInt32} {more : Bool} (added : (addBlock order opts which bnum more bsz).2 = 0) :
    bnum ≤ 0xfffff := by
  by_contra wide
  have refused : ∀ szx, ecOptsAddBlock order opts which bnum more szx = (opts, -1) := by
    intro szx
    unfold ecOptsAddBlock
    simp [UInt32.not_le.mp wide]
  have never : (addBlock order opts which bnum more bsz).2 = -1 := by
    unfold addBlock
    simp only [refused]
    repeat' split
    all_goals simp_all
  rw [never] at added
  cases added

/-- What is no block size is never added. -/
theorem addBlock_size {bnum : UInt32} {more : Bool} (added : (addBlock order opts which bnum more bsz).2 = 0) :
    BlockSize bsz := by
  cases found : blockSzx bsz with
  | none =>
      have never : (addBlock order opts which bnum more bsz).2 = -1 := by
        unfold addBlock
        rw [found]
        dsimp only
        repeat' split
        all_goals rfl
      rw [never] at added
      cases added
  | some szx =>
      obtain ⟨i, picked, _⟩ := Option.map_eq_some_iff.mp found
      have member := List.mem_of_find?_eq_some picked
      have size := List.find?_some picked
      refine ⟨i, by have bound := List.mem_range.mp member; omega, ?_⟩
      have same : bsz = ecCoapBlockMin <<< i := by simpa using size
      rw [same, Nat.shiftLeft_eq]
      rfl

/-- A Block option that was added reads back with the number, the flag and the size that were given. -/
theorem addBlock_reads (size : BlockSize bsz) (block : which = .block1 ∨ which = .block2)
    (absent : ecOptsGet opts which = none) (number : bnum ≤ 0xfffff) (room : opts.noptions < ecProtoMaxOptions) :
    AddsOne which opts (addBlock order opts which bnum more bsz).1 ∧
      ecRequestGetBlock order (addBlock order opts which bnum more bsz).1 which = some ⟨bnum, more, bsz⟩ := by
  obtain ⟨szx, seven, back, same⟩ := addBlock_eq order bnum more size block absent
  have uint := blockSym_uint block
  have added := (ecOptsAddUint_ok_iff order (BlockFields.pack ⟨bnum, more, szx⟩).toUInt64 uint absent).mpr room
  obtain ⟨counted, read, kept⟩ := ecOptsAddUint_reads order (BlockFields.pack ⟨bnum, more, szx⟩).toUInt64 uint absent room
  obtain ⟨unpacked, fits⟩ := BlockFields.unpack_pack ⟨bnum, more, szx⟩ number seven
  rw [same, if_neg (UInt32.not_lt.mpr number)]
  dsimp only
  rw [if_neg (not_not_intro added)]
  refine ⟨⟨counted, kept⟩, ?_⟩
  unfold ecRequestGetBlock ecOptsGetBlock
  rw [if_neg (by rcases block with rfl | rfl <;> decide), read, UInt32.toNat_toUInt64]
  dsimp only
  rw [if_neg (by omega), unpacked]
  change some (BlockInfo.mk bnum more (1 <<< (szx.toNat + 4))) = _
  rw [back]

/-- A Block option that was accepted has a number and a size that are valid, and reads back. -/
theorem addBlock_accepted {bnum : UInt32} {more : Bool} (block : which = .block1 ∨ which = .block2)
    (absent : ecOptsGet opts which = none) (added : (addBlock order opts which bnum more bsz).2 = 0) :
    bnum ≤ 0xfffff ∧ BlockSize bsz ∧
      ecRequestGetBlock order (addBlock order opts which bnum more bsz).1 which = some ⟨bnum, more, bsz⟩ := by
  have size := addBlock_size order added
  obtain ⟨number, room⟩ := (addBlock_ok_iff order bnum more size block absent).mp added
  exact ⟨number, size, (addBlock_reads order bnum more size block absent number room).2⟩

end AddBlock

/-- What is read of a Block option depends on the first option of its symbol only. -/
theorem ecRequestGetBlock_congr (order : ByteOrder) {opts opts' : EcOpts} {which : EcOptSym}
    (same : ecOptsGet opts which = ecOptsGet opts' which) :
    ecRequestGetBlock order opts which = ecRequestGetBlock order opts' which := by
  unfold ecRequestGetBlock ecOptsGetBlock ecOptsGetUint
  rw [same]

end Webthings.Evcoap
