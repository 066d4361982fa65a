import Webthings.Evcoap.TypedGetters
import Webthings.Evcoap.Options.Fragments

namespace Webthings.Evcoap

/-- The set that the decoder makes of what the encoder has made of a set. -/
def wired (opts : EcOpts) (header beyond : Nat → UInt8) (olen : Nat) : EcOpts :=
  let encoded := (ecOptsEncode opts).1
  (ecOptsDecode ecOptsInit (datagramOf header encoded beyond) (ecCoapHdrSize + encoded.encSz)
    (UInt8.ofNat encoded.noptions) olen).opts

/-- A set that a Block option of this symbol can go into, and whose other options the wire keeps. -/
structure AwaitsBlock (opts : EcOpts) (which : EcOptSym) : Prop where
  block : which = .block1 ∨ which = .block2
  absent : ecOptsGet opts which = none
  room : opts.noptions < ecProtoMaxOptions
  unencoded : opts.Unencoded
  faithful : WireFaithful opts.bundle.list

/-- A Block option goes out with a number of 20 bits and a size exponent up to 6 only, and comes back as it was. -/
structure SendsBlock (order : ByteOrder) (opts : EcOpts) (which : EcOptSym) (block : BlockFields) : Prop where
  accepts : (ecOptsAddBlock order opts which block.num block.more block.szx).2 = 0 ↔
    block.num.toNat < 2 ^ 20 ∧ block.szx.toNat ≤ 6
  returns : (ecOptsAddBlock order opts which block.num block.more block.szx).2 = 0 →
    (ecOptsEncode (ecOptsAddBlock order opts which block.num block.more block.szx).1).2 = 0 →
      ∀ header beyond olen,
        ecOptsGetBlock order (wired (ecOptsAddBlock order opts which block.num block.more block.szx).1 header beyond olen)
          which = some block

/-- What the interface of the library hands out of a Block option of a request or of a response. -/
def ExposesBlock (order : ByteOrder) (opts : EcOpts) (which : EcOptSym) (info : BlockInfo) : Prop :=
  (which = .block1 ∧ (ecRequestGetBlock1 order opts = some info ∨ ecResponseGetBlock1 order opts = some info)) ∨
    (which = .block2 ∧ (ecRequestGetBlock2 order opts = some info ∨ ecResponseGetBlock2 order opts = some info))

theorem ExposesBlock.fields {order : ByteOrder} {opts : EcOpts} {which : EcOptSym} {info : BlockInfo}
    (exposed : ExposesBlock order opts which info) :
    ∃ block, ecOptsGetBlock order opts which = some block ∧ block.info = info := by
  rcases exposed with ⟨rfl, request | response⟩ | ⟨rfl, request | response⟩
  · exact Option.map_eq_some_iff.mp request
  · exact Option.map_eq_some_iff.mp response
  · exact Option.map_eq_some_iff.mp request
  · exact Option.map_eq_some_iff.mp response

/-- A Block option is read with a size exponent up to 6 only, so that each size that is handed out is a block size. -/
structure ReceivesBlock (order : ByteOrder) (opts : EcOpts) (which : EcOptSym) : Prop where
  exponent : ∀ block, ecOptsGetBlock order opts which = some block → block.szx.toNat ≤ 6
  sizes : ∀ info, ExposesBlock order opts which info → BlockSize info.bsz

/-- The size of an exponent up to 6 is a block size. -/
theorem BlockFields.info_size {block : BlockFields} (small : block.szx.toNat ≤ 6) : BlockSize block.info.bsz := by
  refine ⟨block.szx.toNat, small, ?_⟩
  change 1 <<< (block.szx.toNat + 4) = 16 * 2 ^ block.szx.toNat
  rw [Nat.one_shiftLeft, Nat.pow_add, Nat.mul_comm]

section Send

variable {order : ByteOrder} {opts : EcOpts} {which : EcOptSym} {block : BlockFields}

/-- The adder takes the reserved exponent too. -/
theorem ecOptsAddBlock_eq (symbol : which = .block1 ∨ which = .block2) :
    ecOptsAddBlock order opts which block.num block.more block.szx =
      if block.num.toNat < 2 ^ 20 ∧ block.szx.toNat ≤ 7 then ecOptsAddUint order opts which block.pack.toUInt64
      else (opts, -1) := by
  have known : ¬ (which ≠ .block1 ∧ which ≠ .block2) := by
    rcases symbol with rfl | rfl <;> decide
  have number : block.num > 0xfffff ↔ ¬ block.num.toNat < 2 ^ 20 := by
    rw [gt_iff_lt, UInt32.lt_iff_toNat_lt]
    change 1048575 < block.num.toNat ↔ _
    omega
  have exponent : block.szx > 0x7 ↔ ¬ block.szx.toNat ≤ 7 := by
    rw [gt_iff_lt, UInt8.lt_iff_toNat_lt]
    change 7 < block.szx.toNat ↔ _
    omega
  unfold ecOptsAddBlock
  rw [if_neg known]
  by_cases wide : block.num > 0xfffff
  · rw [if_pos wide, if_neg fun both => number.mp wide both.1]
  · rw [if_neg wide]
    by_cases high : block.szx > 0x7
    · rw [if_pos high, if_neg fun both => exponent.mp high both.2]
    · have fits : block.num.toNat < 2 ^ 20 ∧ block.szx.toNat ≤ 7 :=
        ⟨not_not.mp fun large => wide (number.mpr large), not_not.mp fun large => high (exponent.mpr large)⟩
      rw [if_neg high]
      exact (if_pos fits).symm

/-- An option of at most eight bytes ahead of the padded If-None-Match options is kept by the wire. -/
theorem wireFaithful_insert {o : EcOpt} (faithful : WireFaithful opts.bundle.list) (short : o.l ≤ 8)
    (other : o.sym.value < EcOptSym.ifNoneMatch.value) : WireFaithful (opts.bundle.insert o).list := by
  have low : o.sym ≠ .ifNoneMatch := fun symbol => by
    rw [symbol] at other
    exact absurd other (Nat.lt_irrefl _)
  refine ⟨fun x member => ?_, ?_⟩
  · rcases (opts.bundle.mem_insert o x).mp member with rfl | old
    · omega
    · exact faithful.notFifteen x old
  · rw [opts.bundle.insert_between o]
    have kept := opts.bundle.split o.sym ▸ faithful.paddedLast
    obtain ⟨first, second, across⟩ := List.pairwise_append.mp kept
    refine List.pairwise_append.mpr ⟨first, List.pairwise_cons.mpr ⟨fun x _ symbol => absurd symbol low, second⟩, ?_⟩
    intro a memberA b memberB
    rcases List.mem_cons.mp memberB with rfl | later
    · intro symbol
      have below := (List.mem_filter.mp memberA).2
      rw [symbol] at below
      have most : EcOptSym.ifNoneMatch.value ≤ b.sym.value := by simpa using below
      omega
    · exact across a memberA b later

/-- The list of a set that encodes and that the wire keeps comes back. -/
theorem wired_list (unencoded : opts.Unencoded) (faithful : WireFaithful opts.bundle.list)
    (encoded : (ecOptsEncode opts).2 = 0) (header beyond : Nat → UInt8) (olen : Nat) :
    (wired opts header beyond olen).bundle.list = opts.bundle.list :=
  ((roundTrips_iff_faithful opts unencoded encoded header beyond olen).mpr faithful).2.1

/-- The option that the fields are packed into is read as these fields on the other side. -/
theorem AwaitsBlock.returns (awaits : AwaitsBlock opts which) (number : block.num.toNat < 2 ^ 20)
    (exponent : block.szx.toNat ≤ 7)
    (encoded : (ecOptsEncode (ecOptsAddUint order opts which block.pack.toUInt64).1).2 = 0)
    (header beyond : Nat → UInt8) (olen : Nat) :
    ecOptsGetBlock order (wired (ecOptsAddUint order opts which block.pack.toUInt64).1 header beyond olen) which =
      some block := by
  have uint := blockSym_uint awaits.block
  obtain ⟨o, added, found, value, length⟩ :=
    ecOptsAddUint_found order block.pack.toUInt64 uint awaits.absent awaits.room
  have symbol := (ecOptsGet_some found).1
  have short : o.l ≤ 8 := by
    rw [length, value, ByteOrder.arrange_length]
    exact uintBytes_length_le _
  have below : o.sym.value < EcOptSym.ifNoneMatch.value := by
    rw [symbol]
    rcases awaits.block with rfl | rfl <;> decide
  have unencoded : (ecOptsAddUint order opts which block.pack.toUInt64).1.Unencoded :=
    unencoded_adderInvariant.uint order opts which _ awaits.unencoded
  have faithful : WireFaithful (ecOptsAddUint order opts which block.pack.toUInt64).1.bundle.list := by
    rw [added]
    exact wireFaithful_insert awaits.faithful short below
  have list := wired_list unencoded faithful encoded header beyond olen
  have foundAgain : ecOptsGet (wired (ecOptsAddUint order opts which block.pack.toUInt64).1 header beyond olen) which =
      some o := by
    rw [← found]
    unfold ecOptsGet ecOptsGetNth
    rw [list]
  obtain ⟨unpacked, small⟩ := BlockFields.unpack_pack block (Nat.le_of_lt_succ number) exponent
  have integer : o.integer order = block.pack.toNat := by
    unfold EcOpt.integer
    rw [value, ByteOrder.arrange_arrange, bytesUint_uintBytes, UInt32.toNat_toUInt64]
  rw [ecOptsGetBlock_eq order _ awaits.block foundAgain, integer, if_pos ⟨short, small⟩, unpacked]

/-- Only the reserved exponent goes out against the rule. -/
theorem sendsBlock_iff (awaits : AwaitsBlock opts which) :
    SendsBlock order opts which block ↔ ¬ (block.num.toNat < 2 ^ 20 ∧ block.szx.toNat = 7) := by
  have same : ecOptsAddBlock order opts which block.num block.more block.szx = _ := ecOptsAddBlock_eq awaits.block
  have added := (ecOptsAddUint_ok_iff order block.pack.toUInt64 (blockSym_uint awaits.block) awaits.absent).mpr awaits.room
  constructor
  · rintro sends ⟨number, reserved⟩
    have accepted := sends.accepts.mp (by rw [same, if_pos ⟨number, by omega⟩]; exact added)
    omega
  · intro legal
    by_cases fits : block.num.toNat < 2 ^ 20 ∧ block.szx.toNat ≤ 7
    · rw [if_pos fits] at same
      refine ⟨?_, ?_⟩
      · rw [same]
        exact iff_of_true added ⟨fits.1, by omega⟩
      · rw [same]
        exact fun _ encoded header beyond olen => awaits.returns fits.1 fits.2 encoded header beyond olen
    · rw [if_neg fits] at same
      refine ⟨?_, ?_⟩
      · rw [same]
        refine iff_of_false (fun impossible => ?_) fun both => fits ⟨both.1, by omega⟩
        cases impossible
      · rw [same]
        intro impossible
        cases impossible

/-- Only the reserved exponent comes in against the rule. -/
theorem receivesBlock_iff (symbol : which = .block1 ∨ which = .block2) :
    ReceivesBlock order opts which ↔
      ∀ o, ecOptsGet opts which = some o → o.l ≤ 8 → o.integer order ≤ 0xffffff → o.integer order % 8 ≠ 7 := by
  constructor
  · intro receives o found short small reserved
    have got := ecOptsGetBlock_eq order opts symbol found
    rw [if_pos ⟨short, small⟩] at got
    have legal := receives.exponent _ got
    rw [(BlockFields.unpack_parts _ small).2.2] at legal
    omega
  · intro legal
    have exponent : ∀ block, ecOptsGetBlock order opts which = some block → block.szx.toNat ≤ 6 := by
      intro block got
      cases found : ecOptsGet opts which with
      | none =>
          have none : ecOptsGetUint order opts which = Option.none := absent_uint order found
          unfold ecOptsGetBlock at got
          rw [none] at got
          split at got <;> cases got
      | some o =>
          have read := ecOptsGetBlock_eq order opts symbol found
          rw [got] at read
          split at read
          · rename_i fits
            have parts := (BlockFields.unpack_parts _ fits.2).2.2
            rw [← Option.some.inj read] at parts
            have reserved := legal o found fits.1 fits.2
            omega
          · cases read
    refine ⟨exponent, fun info exposed => ?_⟩
    obtain ⟨block, got, rfl⟩ := exposed.fields
    exact BlockFields.info_size (exponent block got)

end Send

/-- The size exponent 7 is reserved, and both directions let it pass; apart from it both keep to the rule. -/
theorem blockOptions_iff (order : ByteOrder) (opts received : EcOpts) (which : EcOptSym) (block : BlockFields)
    (awaits : AwaitsBlock opts which) :
    (SendsBlock order opts which block ↔ ¬ (block.num.toNat < 2 ^ 20 ∧ block.szx.toNat = 7)) ∧
      (ReceivesBlock order received which ↔
        ∀ o, ecOptsGet received which = some o → o.l ≤ 8 → o.integer order ≤ 0xffffff → o.integer order % 8 ≠ 7) :=
  ⟨sendsBlock_iff awaits, receivesBlock_iff awaits.block⟩

theorem ecOptsInit_awaits (which : EcOptSym) (block : which = .block1 ∨ which = .block2) : AwaitsBlock ecOptsInit which :=
  ⟨block, rfl, by decide, ecOptsInit_unencoded, by decide⟩

/-- Block number 5 of 1024 bytes goes out and comes in as it should. -/
theorem largestBlock_kept : SendsBlock .little ecOptsInit .block2 ⟨5, true, 6⟩ ∧
    ReceivesBlock .little (ecOptsAddBlock .little ecOptsInit .block2 5 true 6).1 .block2 := by
  have both := blockOptions_iff .little ecOptsInit (ecOptsAddBlock .little ecOptsInit .block2 5 true 6).1 .block2
    ⟨5, true, 6⟩ (ecOptsInit_awaits .block2 (Or.inr rfl))
  refine ⟨both.1.mpr (by decide), both.2.mpr ?_⟩
  intro o found _ _
  cases found
  decide

/-- Block number 0 with the reserved exponent goes out, and comes in as a block of 2048 bytes. -/
theorem reservedBlock_passes :
    (¬ ∀ order opts which block, AwaitsBlock opts which → SendsBlock order opts which block) ∧
      ¬ ∀ order opts which, which = .block1 ∨ which = .block2 → ReceivesBlock order opts which := by
  constructor
  · intro always
    have sends := always .little ecOptsInit .block2 ⟨0, false, 7⟩ (ecOptsInit_awaits .block2 (Or.inr rfl))
    exact absurd (sends.accepts.mp (by decide)) (by decide)
  · intro always
    have receives := always .little (ecOptsAddBlock .little ecOptsInit .block2 0 false 7).1 .block2 (Or.inr rfl)
    exact absurd (receives.exponent ⟨0, false, 7⟩ (by decide)) (by decide)

/-- The largest Block option has room in a set of its own. -/
example : (ecOptsEncode (ecOptsAddBlock .big ecOptsInit .block1 0xfffff true 6).1).2 = 0 := by decide

end Webthings.Evcoap
