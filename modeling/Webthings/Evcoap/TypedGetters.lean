import Webthings.Apps.CoapServer
import Webthings.Evcoap.ComposeUri

namespace Webthings.Evcoap

open Webthings.Apps

/-- The integer that the bytes of an option stand for. -/
def EcOpt.integer (order : ByteOrder) (o : EcOpt) : Nat := bytesUint (order.arrange o.value)

/-- Up to eight bytes are decoded, to the integer that they stand for. -/
theorem EcOpt.decodeUint_eq (order : ByteOrder) (o : EcOpt) (uint : ecOptSym2type o.sym = .uint) :
    ecOptDecodeUint order o.value o.l = if o.l ≤ 8 then some (o.integer order) else none := by
  have whole : o.value.length = o.l := EcOpt.value_whole fun symbol => by
    rw [symbol] at uint
    cases uint
  by_cases short : o.l ≤ 8
  · rw [if_pos short, ← whole]
    exact ecOptDecodeUint_eq order o.value (whole ▸ short)
  · rw [if_neg short]
    unfold ecOptDecodeUint
    rw [if_pos (Nat.lt_of_not_le short)]

theorem ecOptsGetUint_eq (order : ByteOrder) {opts : EcOpts} {sym : EcOptSym} (uint : ecOptSym2type sym = .uint)
    {o : EcOpt} (found : ecOptsGet opts sym = some o) :
    ecOptsGetUint order opts sym = if o.l ≤ 8 then some (o.integer order) else none := by
  unfold ecOptsGetUint
  rw [if_neg (not_not_intro uint), found]
  exact o.decodeUint_eq order ((ecOptsGet_some found).1 ▸ uint)

/-- A value that is handed out for an option that is there is the integer of its bytes, and an integer above the bound
is not handed out. -/
def Honest (order : ByteOrder) (opts : EcOpts) (sym : EcOptSym) (bound : Nat) (got : Option Nat) : Prop :=
  ∀ o, ecOptsGet opts sym = some o →
    (∀ value, got = some value → value = o.integer order) ∧ (bound < o.integer order → got = none)

/-- The check that most getters make; narrowing what is at most the bound loses nothing. -/
theorem honest_narrowed {order : ByteOrder} {opts : EcOpts} {sym : EcOptSym} {α : Type} (narrow : Nat → α)
    (widen : α → Nat) {bound : Nat} (back : ∀ tmp ≤ bound, widen (narrow tmp) = tmp)
    (uint : ecOptSym2type sym = .uint) {got : Option α}
    (checked : got = (ecOptsGetUint order opts sym).bind fun tmp => if tmp > bound then none else some (narrow tmp)) :
    Honest order opts sym bound (got.map widen) := by
  intro o found
  rw [checked, ecOptsGetUint_eq order uint found]
  have refused : (∀ value, (none : Option Nat) = some value → value = o.integer order) ∧
      (bound < o.integer order → (none : Option Nat) = none) := by simp
  split
  · rw [Option.bind_some]
    by_cases large : o.integer order > bound
    · rw [if_pos large]
      exact refused
    · rw [if_neg large, Option.map_some, back _ (Nat.le_of_not_gt large)]
      exact ⟨fun value same => (Option.some.inj same).symm, fun above => absurd above large⟩
  · exact refused

theorem toUInt16_back (tmp : Nat) (small : tmp ≤ 0xffff) : tmp.toUInt16.toNat = tmp :=
  Nat.mod_eq_of_lt (Nat.lt_succ_of_le small)

section Getters

variable (order : ByteOrder) (opts : EcOpts)

theorem ecOptsGetContentType_honest :
    Honest order opts .contentType 0xffff ((ecOptsGetContentType order opts).map UInt16.toNat) := by
  apply honest_narrowed Nat.toUInt16 UInt16.toNat toUInt16_back (by decide)
  unfold ecOptsGetContentType
  cases ecOptsGetUint order opts .contentType <;> rfl

theorem ecOptsGetUriPort_honest :
    Honest order opts .uriPort 0xffff ((ecOptsGetUriPort order opts).map UInt16.toNat) := by
  apply honest_narrowed Nat.toUInt16 UInt16.toNat toUInt16_back (by decide)
  unfold ecOptsGetUriPort
  cases ecOptsGetUint order opts .uriPort <;> rfl

theorem ecOptsGetObserve_honest :
    Honest order opts .observe 0xffff ((ecOptsGetObserve order opts).map UInt16.toNat) := by
  apply honest_narrowed Nat.toUInt16 UInt16.toNat toUInt16_back (by decide)
  unfold ecOptsGetObserve
  cases ecOptsGetUint order opts .observe <;> rfl

theorem ecOptsGetPublish_honest :
    Honest order opts .publish 0xff ((ecOptsGetPublish order opts).map UInt8.toNat) := by
  apply honest_narrowed Nat.toUInt8 UInt8.toNat (fun tmp small => Nat.mod_eq_of_lt (Nat.lt_succ_of_le small)) (by decide)
  unfold ecOptsGetPublish
  cases ecOptsGetUint order opts .publish <;> rfl

/-- The fields of an integer of 24 bits are its three parts. -/
theorem BlockFields.unpack_parts (tmp : Nat) (small : tmp ≤ 0xffffff) :
    (BlockFields.unpack tmp).num.toNat = tmp / 16 ∧ (BlockFields.unpack tmp).more = decide (tmp / 8 % 2 = 1) ∧
      (BlockFields.unpack tmp).szx.toNat = tmp % 8 := by
  have mask : tmp &&& 0x7 = tmp % 2 ^ 3 := Nat.and_two_pow_sub_one_eq_mod tmp 3
  have bit : tmp &&& 0x8 = (tmp.testBit 3).toNat * 2 ^ 3 := Nat.and_two_pow tmp 3
  refine ⟨?_, ?_, ?_⟩
  · change (tmp >>> 4).toUInt32.toNat = tmp / 16
    rw [Nat.shiftRight_eq_div_pow]
    exact Nat.mod_eq_of_lt (by omega)
  · change decide (tmp &&& 0x8 ≠ 0) = decide (tmp / 8 % 2 = 1)
    rw [bit, Nat.testBit_eq_decide_div_mod_eq]
    have digit : tmp / 2 ^ 3 % 2 = tmp / 8 % 2 := rfl
    rw [digit]
    by_cases one : tmp / 8 % 2 = 1
    · simp [one]
    · simp [one]
  · change (tmp &&& 0x7).toUInt8.toNat = tmp % 8
    rw [mask]
    exact Nat.mod_eq_of_lt (by omega)

/-- The fields that are handed out for a Block option are those of its integer, and no other integer than one of 24 bits
is taken apart. -/
def BlockHonest (which : EcOptSym) : Prop :=
  ∀ o, ecOptsGet opts which = some o →
    (∀ block, ecOptsGetBlock order opts which = some block →
      block.num.toNat = o.integer order / 16 ∧ block.more = decide (o.integer order / 8 % 2 = 1) ∧
        block.szx.toNat = o.integer order % 8) ∧
      (0xffffff < o.integer order → ecOptsGetBlock order opts which = none)

theorem ecOptsGetBlock_eq {which : EcOptSym} (block : which = .block1 ∨ which = .block2) {o : EcOpt}
    (found : ecOptsGet opts which = some o) :
    ecOptsGetBlock order opts which =
      if o.l ≤ 8 ∧ o.integer order ≤ 0xffffff then some (BlockFields.unpack (o.integer order)) else none := by
  unfold ecOptsGetBlock
  rw [if_neg (by rcases block with rfl | rfl <;> decide), ecOptsGetUint_eq order (blockSym_uint block) found]
  by_cases short : o.l ≤ 8
  · rw [if_pos short]
    dsimp only
    by_cases large : o.integer order > 0xffffff
    · rw [if_pos large, if_neg fun both => by omega]
    · rw [if_neg large, if_pos ⟨short, Nat.le_of_not_gt large⟩]
  · rw [if_neg short, if_neg fun both => short both.1]

theorem ecOptsGetBlock_honest {which : EcOptSym} (block : which = .block1 ∨ which = .block2) :
    BlockHonest order opts which := by
  intro o found
  rw [ecOptsGetBlock_eq order opts block found]
  by_cases small : o.l ≤ 8 ∧ o.integer order ≤ 0xffffff
  · rw [if_pos small]
    refine ⟨fun fields same => ?_, fun large => by omega⟩
    rw [← Option.some.inj same]
    exact BlockFields.unpack_parts _ small.2
  · rw [if_neg small]
    refine ⟨fun fields impossible => ?_, fun _ => rfl⟩
    cases impossible

variable {order opts} in
/-- The number of a Block option has 20 bits. -/
theorem ecRequestGetBlock_number {which : EcOptSym} {info : BlockInfo} (block : which = .block1 ∨ which = .block2)
    (found : ecRequestGetBlock order opts which = some info) : info.bnum ≤ 0xfffff := by
  obtain ⟨fields, got, rfl⟩ := Option.map_eq_some_iff.mp found
  cases there : ecOptsGet opts which with
  | none =>
      unfold ecOptsGetBlock at got
      rw [absent_uint order there] at got
      split at got <;> cases got
  | some o =>
      rw [ecOptsGetBlock_eq order opts block there] at got
      split at got
      · rename_i bounds
        cases got
        have parts := (BlockFields.unpack_parts (o.integer order) bounds.2).1
        have small := bounds.2
        change (BlockFields.unpack (o.integer order)).num ≤ 0xfffff
        rw [UInt32.le_iff_toNat_le, parts]
        change o.integer order / 16 ≤ 0xfffff
        omega
      · cases got

/-- A Max-Age that is there is one that can be decoded, or it says an hour in more than eight bytes. -/
def MaxAgeReadable : Prop := ∀ o, ecOptsGet opts .maxAge = some o → o.l ≤ 8 ∨ o.integer order = 3600

/-- A Max-Age that cannot be decoded passes for one that is absent. -/
theorem ecOptsGetMaxAge_honest_iff :
    Honest order opts .maxAge 0xffffffff ((ecOptsGetMaxAge order opts).map UInt32.toNat) ↔ MaxAgeReadable order opts := by
  unfold Honest MaxAgeReadable
  refine forall_congr' fun o => imp_congr_right fun found => ?_
  have read := ecOptsGetUint_eq order (by decide) found
  unfold ecOptsGetMaxAge
  rw [read]
  by_cases short : o.l ≤ 8
  · rw [if_pos short]
    refine iff_of_true ?_ (Or.inl short)
    dsimp only
    by_cases large : o.integer order > 0xffffffff
    · rw [if_pos large]
      exact ⟨fun value impossible => (Option.some_ne_none _ impossible.symm).elim, fun _ => rfl⟩
    · rw [if_neg large, Option.map_some]
      have back : (o.integer order).toUInt32.toNat = o.integer order := Nat.mod_eq_of_lt (by omega)
      rw [back]
      exact ⟨fun value same => (Option.some.inj same).symm, fun above => absurd above large⟩
  · rw [if_neg short]
    dsimp only
    rw [Option.map_some]
    constructor
    · intro honest
      exact Or.inr (honest.1 _ rfl).symm
    · rintro (within | hour)
      · exact absurd within short
      · rw [hour]
        exact ⟨fun value same => (Option.some.inj same).symm, fun above => absurd above (by decide)⟩

/-- The Accept options that an array of this size has room for. -/
def acceptOptions (mtaSz : Nat) : List EcOpt := (opts.bundle.list.filter fun o => o.sym = .accept).take mtaSz

/-- The values that are handed out are the integers of the Accept options, and an integer above 32 bits makes a failure. -/
def AcceptHonest (mtaSz : Nat) : Prop :=
  (∀ values, ecOptsGetAcceptAll order opts mtaSz = some values →
    values.map UInt32.toNat = (acceptOptions opts mtaSz).map fun o => o.integer order) ∧
    ((∃ o ∈ acceptOptions opts mtaSz, 0xffffffff < o.integer order) → ecOptsGetAcceptAll order opts mtaSz = none)

/-- The Accept options that can all be decoded have 32 bits. -/
def AcceptsNarrow (mtaSz : Nat) : Prop :=
  (∀ o ∈ acceptOptions opts mtaSz, o.l ≤ 8) → ∀ o ∈ acceptOptions opts mtaSz, o.integer order ≤ 0xffffffff

theorem decodeAll_eq (os : List EcOpt) (uint : ∀ o ∈ os, ecOptSym2type o.sym = .uint) :
    (os.mapM fun o => (ecOptDecodeUint order o.value o.l).map Nat.toUInt32) =
      if ∀ o ∈ os, o.l ≤ 8 then some (os.map fun o => (o.integer order).toUInt32) else none := by
  induction os with
  | nil => rfl
  | cons o os inductionHypothesis =>
      rw [List.mapM_cons, inductionHypothesis fun x member => uint x (List.mem_cons_of_mem _ member),
        o.decodeUint_eq order (uint o List.mem_cons_self)]
      have all : (∀ x ∈ o :: os, x.l ≤ 8) ↔ o.l ≤ 8 ∧ ∀ x ∈ os, x.l ≤ 8 := List.forall_mem_cons
      by_cases short : o.l ≤ 8
      · rw [if_pos short]
        by_cases rest : ∀ x ∈ os, x.l ≤ 8
        · rw [if_pos rest, if_pos (all.mpr ⟨short, rest⟩)]
          rfl
        · rw [if_neg rest, if_neg fun whole => rest (all.mp whole).2]
          rfl
      · rw [if_neg short, if_neg fun whole => short (all.mp whole).1]
        rfl

/-- An Accept value is cut down to 32 bits, which only those that fit survive. -/
theorem ecOptsGetAcceptAll_honest_iff (mtaSz : Nat) : AcceptHonest order opts mtaSz ↔ AcceptsNarrow order opts mtaSz := by
  have uint : ∀ o ∈ acceptOptions opts mtaSz, ecOptSym2type o.sym = .uint := by
    intro o member
    have symbol : o.sym = .accept := by simpa using (List.mem_filter.mp (List.mem_of_mem_take member)).2
    rw [symbol]
    decide
  have got : ecOptsGetAcceptAll order opts mtaSz =
      if ∀ o ∈ acceptOptions opts mtaSz, o.l ≤ 8
        then some ((acceptOptions opts mtaSz).map fun o => (o.integer order).toUInt32) else none :=
    decodeAll_eq order (acceptOptions opts mtaSz) uint
  unfold AcceptHonest AcceptsNarrow
  rw [got]
  by_cases short : ∀ o ∈ acceptOptions opts mtaSz, o.l ≤ 8
  · rw [if_pos short]
    constructor
    · intro honest _ o member
      by_contra large
      have failed := honest.2 ⟨o, member, Nat.lt_of_not_le large⟩
      cases failed
    · intro narrow
      refine ⟨fun values same => ?_, fun ⟨o, member, large⟩ => absurd (narrow short o member) (Nat.not_le.mpr large)⟩
      rw [← Option.some.inj same, List.map_map]
      refine List.map_congr_left fun o member => Nat.mod_eq_of_lt ?_
      exact Nat.lt_succ_of_le (narrow short o member)
  · rw [if_neg short]
    refine iff_of_true ⟨fun values impossible => ?_, fun _ => rfl⟩ fun all => absurd all short
    cases impossible

/-- No getter hands out anything else than the integer of its option. -/
structure GettersHonest : Prop where
  contentType : Honest order opts .contentType 0xffff ((ecOptsGetContentType order opts).map UInt16.toNat)
  uriPort : Honest order opts .uriPort 0xffff ((ecOptsGetUriPort order opts).map UInt16.toNat)
  publish : Honest order opts .publish 0xff ((ecOptsGetPublish order opts).map UInt8.toNat)
  observe : Honest order opts .observe 0xffff ((ecOptsGetObserve order opts).map UInt16.toNat)
  maxAge : Honest order opts .maxAge 0xffffffff ((ecOptsGetMaxAge order opts).map UInt32.toNat)
  block1 : BlockHonest order opts .block1
  block2 : BlockHonest order opts .block2
  accept : ∀ mtaSz, mtaSz ≠ 0 → AcceptHonest order opts mtaSz

/-- The getters of Max-Age and of Accept are the only ones that do. -/
theorem gettersHonest_iff :
    GettersHonest order opts ↔
      MaxAgeReadable order opts ∧ ∀ mtaSz, mtaSz ≠ 0 → AcceptsNarrow order opts mtaSz := by
  rw [← ecOptsGetMaxAge_honest_iff]
  constructor
  · intro honest
    exact ⟨honest.maxAge, fun mtaSz some => (ecOptsGetAcceptAll_honest_iff order opts mtaSz).mp (honest.accept mtaSz some)⟩
  · intro both
    exact {
      contentType := ecOptsGetContentType_honest order opts
      uriPort := ecOptsGetUriPort_honest order opts
      publish := ecOptsGetPublish_honest order opts
      observe := ecOptsGetObserve_honest order opts
      maxAge := both.1
      block1 := ecOptsGetBlock_honest order opts (Or.inl rfl)
      block2 := ecOptsGetBlock_honest order opts (Or.inr rfl)
      accept := fun mtaSz some => (ecOptsGetAcceptAll_honest_iff order opts mtaSz).mpr (both.2 mtaSz some) }

end Getters

/-- A datagram whose one option is a Max-Age of nine bytes. -/
def longMaxAge (i : Nat) : UInt8 := [65, 1, 0, 1, 41, 0, 0, 0, 0, 0, 0, 0, 0, 1].getD i 0

/-- A Max-Age of one second in nine bytes passes for an hour. -/
theorem longMaxAge_misread : ¬ ∀ order memory size count, GettersHonest order
    (ecOptsDecode ecOptsInit memory size count 0).opts := by
  intro always
  have honest := (always .little longMaxAge 14 1).maxAge
  have hour := (honest _ rfl).1 3600 (by decide)
  exact absurd hour (by decide)

end Webthings.Evcoap
