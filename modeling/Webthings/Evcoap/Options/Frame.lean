import Webthings.Evcoap.Options.UintCodec

namespace Webthings.Evcoap

/-- An option of another symbol does not change what is found. -/
theorem ecOptsGet_insert_other (opts : EcOpts) {o : EcOpt} {sym : EcOptSym} (different : o.sym ≠ sym) (noptions : Nat) :
    ecOptsGet {opts with noptions := noptions, bundle := opts.bundle.insert o} sym = ecOptsGet opts sym := by
  have kept : (opts.bundle.insert o).list.filter (fun x => x.sym = sym) =
      opts.bundle.list.filter (fun x => x.sym = sym) := by
    change (opts.bundle.list.reverse.orderedInsert descends o).reverse.filter _ = _
    rw [List.filter_reverse, List.orderedInsert_eq_take_drop, List.filter_append,
      List.filter_cons_of_neg (by simp [different]), ← List.filter_append, List.takeWhile_append_dropWhile,
      List.filter_reverse, List.reverse_reverse]
  unfold ecOptsGet ecOptsGetNth
  rw [kept]

/-- An integer can be added exactly as long as there is room for one more option. -/
theorem ecOptsAddUint_ok_iff (order : ByteOrder) {opts : EcOpts} {sym : EcOptSym} (ui : UInt64)
    (uint : ecOptSym2type sym = .uint) (absent : ecOptsGet opts sym = none) :
    (ecOptsAddUint order opts sym ui).2 = 0 ↔ opts.noptions < ecProtoMaxOptions := by
  by_cases room : opts.noptions < ecProtoMaxOptions
  · obtain ⟨o, added, _⟩ := ecOptsAddUint_found order ui uint absent room
    rw [added]
    exact ⟨fun _ => room, fun _ => rfl⟩
  · obtain ⟨e, encoded, short⟩ := ecOptEncodeUint_eight order ui
    have within : e.length < ecCoapOptLenMax := Nat.lt_of_le_of_lt short (by decide)
    have one : (e.length / ecCoapOptLenMax + if e.length % ecCoapOptLenMax ≠ 0 ∨ e.length = 0 then 1 else 0) = 1 := by
      rw [Nat.div_eq_of_lt within, Nat.mod_eq_of_lt within]
      split <;> omega
    have refused : ecOptsAddUint order opts sym ui = (opts, -1) := by
      unfold ecOptsAddUint
      rw [if_neg (by simp [uint]), encoded]
      dsimp only
      unfold ecOptsAddRaw
      dsimp only
      rw [one, if_pos (by omega)]
    rw [refused]
    constructor
    · intro impossible
      cases impossible
    · intro space
      exact absurd space room

/-- An integer that was added reads back from the set, where everything else stays as it was. -/
theorem ecOptsAddUint_reads (order : ByteOrder) {opts : EcOpts} {sym : EcOptSym} (ui : UInt64)
    (uint : ecOptSym2type sym = .uint) (absent : ecOptsGet opts sym = none) (room : opts.noptions < ecProtoMaxOptions) :
    (ecOptsAddUint order opts sym ui).1.noptions = opts.noptions + 1 ∧
      ecOptsGetUint order (ecOptsAddUint order opts sym ui).1 sym = some ui.toNat ∧
      ∀ other, other ≠ sym → ecOptsGet (ecOptsAddUint order opts sym ui).1 other = ecOptsGet opts other := by
  obtain ⟨o, added, found, value, length⟩ := ecOptsAddUint_found order ui uint absent room
  have symbol := (ecOptsGet_some found).1
  have encoded : ecOptEncodeUint order ui 8 = some (order.arrange (uintBytes ui.toNat)) := by
    have short := uintBytes_length_le ui
    rw [ecOptEncodeUint_eq, if_neg (by omega)]
  refine ⟨by rw [added], ?_, ?_⟩
  · unfold ecOptsGetUint
    rw [if_neg (by simp [uint]), found]
    dsimp only
    rw [length, value]
    exact ecOptDecodeUint_inverts order ui 8 _ encoded
  · intro other different
    rw [added]
    apply ecOptsGet_insert_other
    rw [symbol]
    exact different.symm

/-- A counter that was added reads back from the set. -/
theorem ecOptsAddObserve_reads {order : ByteOrder} {opts added : EcOpts} {cnt : UInt16}
    (absent : ecOptsGet opts .observe = none) (done : ecOptsAddObserve order opts cnt = (added, 0)) :
    ecOptsGetObserve order added = some cnt := by
  have room := (ecOptsAddUint_ok_iff order cnt.toUInt64 (by decide) absent).mp (congrArg Prod.snd done)
  have read := (ecOptsAddUint_reads order cnt.toUInt64 (by decide) absent room).2.1
  have same : (ecOptsAddUint order opts .observe cnt.toUInt64).1 = added := congrArg Prod.fst done
  have bound := cnt.toNat_lt
  have small : ¬ cnt.toUInt64.toNat > 0xffff := by
    simp
    omega
  rw [same] at read
  unfold ecOptsGetObserve
  rw [read]
  dsimp only
  rw [if_neg small]
  simp

/-- Bytes that were added read back from the set, where everything else stays as it was. -/
theorem ecOptsAddShortOpaque_reads {opts : EcOpts} {sym : EcOptSym} {v : List UInt8}
    (type : ecOptSym2type sym = .opaqueValue) (absent : ecOptsGet opts sym = none)
    (room : opts.noptions < ecProtoMaxOptions) (some : v.length ≠ 0) (short : v.length ≤ 8) :
    (ecOptsAddShortOpaque opts sym v).2 = 0 ∧
      (ecOptsGet (ecOptsAddShortOpaque opts sym v).1 sym).map EcOpt.value = Option.some v := by
  have within : v.length < ecCoapOptLenMax := Nat.lt_of_le_of_lt short (by decide)
  have valid : sym.Valid := by
    by_contra invalid
    rw [(ecOptSym2type_invalid sym).mpr invalid] at type
    cases type
  obtain ⟨o, created⟩ := Option.isSome_iff_exists.mp ((ecOptNew_isSome sym v).mpr ⟨Nat.le_of_lt within, valid⟩)
  obtain ⟨symbol, _, copied⟩ := ecOptNew_some created
  have value : o.value = v := by
    have shape := o.shape
    unfold EcOpt.value
    cases buffer : o.v with
    | none =>
        rw [buffer, symbol, type] at shape
        rcases shape with empty | ⟨uint, _⟩
        · cases empty
        · cases uint
    | some bytes => exact copied bytes buffer
  have added : ecOptsAddShortOpaque opts sym v =
      ({opts with noptions := opts.noptions + 1, bundle := opts.bundle.insert o}, 0) := by
    unfold ecOptsAddShortOpaque ecOptsAddOpaque
    rw [if_neg (by omega), if_neg (by simp [type])]
    exact ecOptsAddRaw_one created within room
  rw [added]
  subst symbol
  refine ⟨rfl, ?_⟩
  rw [ecOptsGet_insert absent, Option.map_some, value]

theorem absent_uint (order : ByteOrder) {opts : EcOpts} {sym : EcOptSym} (absent : ecOptsGet opts sym = none) :
    ecOptsGetUint order opts sym = none := by
  unfold ecOptsGetUint
  rw [absent]
  split <;> rfl

/-- What is added to a set without an option of this symbol, and reads back from it. -/
structure AddsOne (which : EcOptSym) (opts added : EcOpts) : Prop where
  counted : added.noptions = opts.noptions + 1
  kept : ∀ other, other ≠ which → ecOptsGet added other = ecOptsGet opts other

section Spares

variable {opts : EcOpts} {sym : EcOptSym} (kept : EcOptSym) (different : sym ≠ kept)
include different

theorem ecOptsAdd_spares (v : List UInt8) : ecOptsGet (ecOptsAdd opts sym v).1 kept = ecOptsGet opts kept := by
  unfold ecOptsAdd
  cases created : ecOptNew sym v with
  | none => rfl
  | some o =>
      unfold ecOptsPush
      dsimp only
      split
      · rfl
      · apply ecOptsGet_insert_other
        rw [(ecOptNew_some created).1]
        exact different

theorem ecOptsAddSegments_spares (segments : List (List UInt8)) :
    ecOptsGet (ecOptsAddSegments sym segments opts).1 kept = ecOptsGet opts kept := by
  induction segments generalizing opts with
  | nil => rfl
  | cons segment segments ih =>
      have one : ecOptsGet (ecOptsAdd opts sym segment).1 kept = ecOptsGet opts kept := ecOptsAdd_spares kept different segment
      rw [ecOptsAddSegments]
      split
      · rw [ih, one]
      · exact one

/-- An added value leaves the options of the other symbols. -/
theorem ecOptsAddRaw_spares (v : List UInt8) : ecOptsGet (ecOptsAddRaw opts sym v).1 kept = ecOptsGet opts kept := by
  unfold ecOptsAddRaw
  dsimp only
  generalize (v.length / ecCoapOptLenMax + if v.length % ecCoapOptLenMax ≠ 0 ∨ v.length = 0 then 1 else 0) = used
  split
  · rfl
  · exact ecOptsAddSegments_spares kept different _

theorem ecOptsAddUint_spares (order : ByteOrder) (ui : UInt64) :
    ecOptsGet (ecOptsAddUint order opts sym ui).1 kept = ecOptsGet opts kept := by
  unfold ecOptsAddUint
  split
  · rfl
  · split
    · rfl
    · exact ecOptsAddRaw_spares kept different _

theorem ecOptsAddString_spares (s : List UInt8) :
    ecOptsGet (ecOptsAddString opts sym s).1 kept = ecOptsGet opts kept := by
  unfold ecOptsAddString
  split
  · rfl
  · exact ecOptsAddRaw_spares kept different _

theorem ecOptsAddShortString_spares (s : List UInt8) :
    ecOptsGet (ecOptsAddShortString opts sym s).1 kept = ecOptsGet opts kept := by
  unfold ecOptsAddShortString
  split
  · rfl
  · exact ecOptsAddString_spares kept different s

theorem ecOptsAddShortOpaque_spares (v : List UInt8) :
    ecOptsGet (ecOptsAddShortOpaque opts sym v).1 kept = ecOptsGet opts kept := by
  unfold ecOptsAddShortOpaque ecOptsAddOpaque
  split
  · rfl
  · split
    · rfl
    · exact ecOptsAddRaw_spares kept different _

end Spares

theorem ecOptsAddProxyUri_spares (isAbsolute : List UInt8 → Bool) {opts : EcOpts} (pu : List UInt8) (kept : EcOptSym)
    (different : .proxyUri ≠ kept) : ecOptsGet (ecOptsAddProxyUri isAbsolute opts pu).1 kept = ecOptsGet opts kept := by
  unfold ecOptsAddProxyUri
  split
  · rfl
  · split
    · exact ecOptsAddString_spares kept different pu
    · rfl

end Webthings.Evcoap
