import Webthings.Evcoap.Options.Bundle

namespace Webthings.Evcoap

/-- A byte of two nibbles, truncated to eight bits. -/
def nibbles (high low : Nat) : UInt8 := UInt8.ofNat ((high <<< 4) ||| low)

theorem nibbles_high (high low : Nat) (highFits : high < 16) (lowFits : low < 16) :
    (nibbles high low >>> 4).toNat = high := by
  have table : ∀ h l : Fin 16, (nibbles h.val l.val >>> 4).toNat = h.val := by decide +kernel
  exact table ⟨high, highFits⟩ ⟨low, lowFits⟩

theorem nibbles_low (high low : Nat) (highFits : high < 16) (lowFits : low < 16) :
    (nibbles high low &&& 0x0f).toNat = low := by
  have table : ∀ h l : Fin 16, (nibbles h.val l.val &&& 0x0f).toNat = l.val := by decide +kernel
  exact table ⟨high, highFits⟩ ⟨low, lowFits⟩

/-- The space that the fenceposts between two option numbers use. -/
def fencepostsEncsz (cur last : Nat) : Nat :=
  if cur - last > 14 then ((List.range' last (cur - last)).filter ecOptNumIsFencepost).length else 0

/-- The bytes that the loop puts and the delta that it leaves; each byte counts as one more option. -/
def addFenceposts (cur delta : Nat) : List UInt8 × Nat :=
  let last := cur - delta
  let put := (List.range' last (cur - last)).foldl
    (fun (s : List UInt8 × Nat) optNum =>
      if ecOptNumIsFencepost optNum then (s.1 ++ [UInt8.ofNat ((optNum - s.2) <<< 4)], optNum) else s)
    ([], last)
  (put.1, cur - put.2)

/-- The state of the encoding loop, where `out` is what stands before the cursor. -/
structure Encoder where
  out : List UInt8
  left : Nat
  last : Nat
  noptions : Nat
  deriving DecidableEq

def encodeOpt (e : Encoder) (o : EcOpt) : Encoder × Int :=
  let cur := ecOptSym2num o.sym
  if cur = EcOptSym.none.value then (e, -1)
  else
    let elen := (if o.l > 14 then 2 else 1) + o.l + fencepostsEncsz cur e.last
    if elen > e.left then (e, -1)
    else
      let delta := cur - e.last
      let posts := if delta > 14 then addFenceposts cur delta else ([], delta)
      let length := if o.l > 14 then [nibbles posts.2 0x0f, UInt8.ofNat (o.l - 15)]
        else [nibbles posts.2 (o.l &&& 0x0f)]
      ({out := e.out ++ posts.1 ++ length ++ o.value, left := e.left - elen, last := cur,
        noptions := e.noptions + posts.1.length}, 0)

def encodeLoop : List EcOpt → Encoder → Encoder × Int
  | [], e => (e, 0)
  | o :: os, e =>
      let encoded := encodeOpt e o
      if encoded.2 = 0 then encodeLoop os encoded.1 else encoded

/-- The bytes of `out` stand over the old contents of the buffer. -/
def overlay (out : List UInt8) (enc : Nat → UInt8) : Nat → UInt8 := fun i => out.getD i (enc i)

/-- A failure leaves the size of the whole buffer and the bytes and counts of the options before it. -/
def ecOptsEncode (opts : EcOpts) : EcOpts × Int :=
  let encoded := encodeLoop opts.bundle.list ⟨[], ecOptsMaxLen, 0, opts.noptions⟩
  ({opts with
      enc := overlay encoded.1.out opts.enc
      encSz := if encoded.2 = 0 then ecOptsMaxLen - encoded.1.left else ecOptsMaxLen
      noptions := encoded.1.noptions}, encoded.2)

/-- The fencepost between two option numbers: the only one below 24 is 14. -/
def fencepost (last cur : Nat) : List UInt8 := if cur - last > 14 then [nibbles (14 - last) 0] else []

/-- The delta that is left after the fencepost. -/
def fencedDelta (last cur : Nat) : Nat := if cur - last > 14 then cur - 14 else cur - last

/-- The bytes that announce the delta and the length of an option. -/
def lengthBytes (delta l : Nat) : List UInt8 :=
  if l > 14 then [nibbles delta 0x0f, UInt8.ofNat (l - 15)] else [nibbles delta l]

def optBytes (last : Nat) (o : EcOpt) : List UInt8 :=
  fencepost last o.num ++ lengthBytes (fencedDelta last o.num) o.l ++ o.value

/-- The space an option takes; it counts the `l` bytes of a NULL buffer too. -/
def optSize (last : Nat) (o : EcOpt) : Nat :=
  (fencepost last o.num).length + (if o.l > 14 then 2 else 1) + o.l

def encodedBytes : Nat → List EcOpt → List UInt8
  | _, [] => []
  | last, o :: os => optBytes last o ++ encodedBytes o.num os

def encodedSize : Nat → List EcOpt → Nat
  | _, [] => 0
  | last, o :: os => optSize last o + encodedSize o.num os

def fencepostCount : Nat → List EcOpt → Nat
  | _, [] => 0
  | last, o :: os => (fencepost last o.num).length + fencepostCount o.num os

/-- The option numbers start at `last` or above and never fall. -/
def Ascending : Nat → List EcOpt → Prop
  | _, [] => True
  | last, o :: os => last ≤ o.num ∧ Ascending o.num os

theorem EcOpt.num_bounds (o : EcOpt) : 0 < o.num ∧ o.num ≤ 23 ∧ o.num ≠ 14 := ecOptSym2num_bounds o.sym o.valid

/-- Options ordered by their symbols ascend in their numbers. -/
theorem ascending_of_pairwise (last : Nat) (os : List EcOpt) (low : ∀ o ∈ os, last ≤ o.num)
    (ordered : os.Pairwise fun a b => a.sym.value ≤ b.sym.value) : Ascending last os := by
  induction os generalizing last with
  | nil => trivial
  | cons o os ih =>
      obtain ⟨first, rest⟩ := List.pairwise_cons.mp ordered
      refine ⟨low o List.mem_cons_self, ih o.num ?_ rest⟩
      intro x member
      exact (ecOptSym2num_le_iff o.sym x.sym o.valid x.valid).mp (first x member)

theorem Bundle.ascending (b : Bundle) : Ascending 0 b.list :=
  ascending_of_pairwise 0 b.list (fun _ _ => Nat.zero_le _) b.ordered

/-- Between option numbers of the table the loop puts the one fencepost or none. -/
theorem addFenceposts_table (last cur : Nat) (low : last ≤ cur) (high : cur ≤ 23) (far : cur - last > 14) :
    addFenceposts cur (cur - last) = (fencepost last cur, fencedDelta last cur) := by
  have table : ∀ l c : Fin 24, l.val ≤ c.val → c.val - l.val > 14 →
      addFenceposts c.val (c.val - l.val) = (fencepost l.val c.val, fencedDelta l.val c.val) := by
    decide +kernel
  exact table ⟨last, by omega⟩ ⟨cur, by omega⟩ low far

theorem fencepostsEncsz_table (last cur : Nat) (low : last ≤ cur) (high : cur ≤ 23) :
    fencepostsEncsz cur last = (fencepost last cur).length := by
  have table : ∀ l c : Fin 24, l.val ≤ c.val →
      fencepostsEncsz c.val l.val = (fencepost l.val c.val).length := by
    decide +kernel
  exact table ⟨last, by omega⟩ ⟨cur, by omega⟩ low

/-- The delta on the wire fits its nibble. -/
theorem fencedDelta_lt (last cur : Nat) (high : cur ≤ 23) : fencedDelta last cur < 15 := by
  unfold fencedDelta
  split <;> omega

theorem fencepost_length_le (last cur : Nat) : (fencepost last cur).length ≤ 1 := by
  unfold fencepost
  split <;> simp

theorem lengthBytes_length (delta l : Nat) : (lengthBytes delta l).length = if l > 14 then 2 else 1 := by
  unfold lengthBytes
  split <;> rfl

/-- The copied bytes are all `l` bytes or none. -/
theorem EcOpt.value_length_le (o : EcOpt) : o.value.length ≤ o.l := by
  have shape := o.shape
  unfold EcOpt.value
  cases copied : o.v with
  | none => simp
  | some bytes =>
      rw [copied] at shape
      exact Nat.le_of_eq shape.1

theorem optBytes_length (last : Nat) (o : EcOpt) : (optBytes last o).length + o.l = optSize last o + o.value.length := by
  rw [optBytes, optSize, List.length_append, List.length_append, lengthBytes_length]
  omega

theorem encodedBytes_length_le (last : Nat) (os : List EcOpt) :
    (encodedBytes last os).length ≤ encodedSize last os := by
  induction os generalizing last with
  | nil => exact Nat.le_refl 0
  | cons o os ih =>
      have whole := optBytes_length last o
      have copied := o.value_length_le
      have rest := ih o.num
      rw [encodedBytes, encodedSize, List.length_append]
      omega

/-- Option 14 is passed once at most, so a whole set has one fencepost at most. -/
theorem fencepostCount_le (last : Nat) (os : List EcOpt) (ascending : Ascending last os) :
    fencepostCount last os ≤ 1 ∧ (14 ≤ last → fencepostCount last os = 0) := by
  induction os generalizing last with
  | nil => exact ⟨Nat.zero_le 1, fun _ => rfl⟩
  | cons o os ih =>
      obtain ⟨low, rest⟩ := ascending
      obtain ⟨atMost, passed⟩ := ih o.num rest
      obtain ⟨_, high, _⟩ := o.num_bounds
      by_cases far : o.num - last > 14
      · have none := passed (by omega)
        have one := fencepost_length_le last o.num
        refine ⟨by rw [fencepostCount]; omega, by omega⟩
      · have near : fencepost last o.num = [] := by rw [fencepost, if_neg far]
        refine ⟨by simpa [fencepostCount, near] using atMost, ?_⟩
        intro above
        simpa [fencepostCount, near] using passed (by omega)

/-- The space that an option takes apart from the fencepost before it. -/
def optWeight (o : EcOpt) : Nat := (if o.l > 14 then 2 else 1) + o.l

theorem encodedSize_weight (last : Nat) (os : List EcOpt) :
    encodedSize last os = (os.map optWeight).sum + fencepostCount last os := by
  induction os generalizing last with
  | nil => rfl
  | cons o os ih =>
      rw [encodedSize, fencepostCount, List.map_cons, List.sum_cons, ih, optSize, optWeight]
      omega

/-- One step of the loop puts the bytes of its option when they fit. -/
theorem encodeOpt_fits (e : Encoder) (o : EcOpt) (low : e.last ≤ o.num) (fits : optSize e.last o ≤ e.left) :
    encodeOpt e o = (⟨e.out ++ optBytes e.last o, e.left - optSize e.last o, o.num,
      e.noptions + (fencepost e.last o.num).length⟩, 0) := by
  obtain ⟨positive, high, _⟩ := o.num_bounds
  have known : ecOptSym2num o.sym ≠ EcOptSym.none.value := Nat.ne_of_gt positive
  have size : (if o.l > 14 then 2 else 1) + o.l + fencepostsEncsz (ecOptSym2num o.sym) e.last = optSize e.last o := by
    rw [fencepostsEncsz_table e.last (ecOptSym2num o.sym) low high, optSize, EcOpt.num]
    omega
  have posts : (if ecOptSym2num o.sym - e.last > 14
      then addFenceposts (ecOptSym2num o.sym) (ecOptSym2num o.sym - e.last)
      else ([], ecOptSym2num o.sym - e.last)) = (fencepost e.last o.num, fencedDelta e.last o.num) := by
    by_cases far : ecOptSym2num o.sym - e.last > 14
    · rw [if_pos far]
      exact addFenceposts_table e.last (ecOptSym2num o.sym) low high far
    · rw [if_neg far, fencepost, fencedDelta, EcOpt.num, if_neg far, if_neg far]
  have length : (if o.l > 14 then [nibbles (fencedDelta e.last o.num) 0x0f, UInt8.ofNat (o.l - 15)]
      else [nibbles (fencedDelta e.last o.num) (o.l &&& 0x0f)]) =
      lengthBytes (fencedDelta e.last o.num) o.l := by
    unfold lengthBytes
    by_cases long : o.l > 14
    · rw [if_pos long, if_pos long]
    · have masked : o.l &&& 0x0f = o.l := by
        rw [show (0x0f : Nat) = 2 ^ 4 - 1 from rfl, Nat.and_two_pow_sub_one_eq_mod]
        omega
      rw [if_neg long, if_neg long, masked]
  unfold encodeOpt
  simp only [size, posts, length]
  rw [if_neg known, if_neg (Nat.not_lt.mpr fits), optBytes]
  simp only [List.append_assoc]
  rfl

theorem encodeOpt_full (e : Encoder) (o : EcOpt) (low : e.last ≤ o.num) (full : e.left < optSize e.last o) :
    encodeOpt e o = (e, -1) := by
  obtain ⟨positive, high, _⟩ := o.num_bounds
  have known : ecOptSym2num o.sym ≠ EcOptSym.none.value := Nat.ne_of_gt positive
  have size : (if o.l > 14 then 2 else 1) + o.l + fencepostsEncsz (ecOptSym2num o.sym) e.last = optSize e.last o := by
    rw [fencepostsEncsz_table e.last (ecOptSym2num o.sym) low high, optSize, EcOpt.num]
    omega
  unfold encodeOpt
  simp only [size]
  rw [if_neg known, if_pos full]

/-- The whole loop puts the bytes of all options when they fit. -/
theorem encodeLoop_fits (os : List EcOpt) (e : Encoder) (ascending : Ascending e.last os)
    (fits : encodedSize e.last os ≤ e.left) :
    encodeLoop os e = (⟨e.out ++ encodedBytes e.last os, e.left - encodedSize e.last os,
      os.foldl (fun _ o => o.num) e.last, e.noptions + fencepostCount e.last os⟩, 0) := by
  induction os generalizing e with
  | nil => simp [encodeLoop, encodedBytes, encodedSize, fencepostCount]
  | cons o os ih =>
      obtain ⟨low, rest⟩ := ascending
      rw [encodedSize] at fits
      have step := encodeOpt_fits e o low (by omega)
      rw [encodeLoop, step]
      dsimp only
      rw [if_pos rfl, ih _ rest (by dsimp only; omega)]
      simp only [encodedBytes, encodedSize, fencepostCount, List.foldl_cons, List.append_assoc, Nat.add_assoc,
        Nat.sub_sub]

theorem encodeLoop_full (os : List EcOpt) (e : Encoder) (ascending : Ascending e.last os)
    (full : e.left < encodedSize e.last os) : (encodeLoop os e).2 = -1 := by
  induction os generalizing e with
  | nil => exact absurd full (Nat.not_lt_zero _)
  | cons o os ih =>
      obtain ⟨low, rest⟩ := ascending
      rw [encodedSize] at full
      by_cases fits : optSize e.last o ≤ e.left
      · rw [encodeLoop, encodeOpt_fits e o low fits]
        dsimp only
        rw [if_pos rfl]
        exact ih _ rest (by dsimp only; omega)
      · rw [encodeLoop, encodeOpt_full e o low (by omega)]
        rfl

/-- The set after a successful call of the encoder. -/
def EcOpts.encoded (opts : EcOpts) : EcOpts :=
  {opts with
    enc := overlay (encodedBytes 0 opts.bundle.list) opts.enc
    encSz := encodedSize 0 opts.bundle.list
    noptions := opts.noptions + fencepostCount 0 opts.bundle.list}

theorem ecOptsEncode_fits (opts : EcOpts) (fits : encodedSize 0 opts.bundle.list ≤ ecOptsMaxLen) :
    ecOptsEncode opts = (opts.encoded, 0) := by
  have loop := encodeLoop_fits opts.bundle.list ⟨[], ecOptsMaxLen, 0, opts.noptions⟩ opts.bundle.ascending fits
  have rest : ecOptsMaxLen - (ecOptsMaxLen - encodedSize 0 opts.bundle.list) = encodedSize 0 opts.bundle.list := by
    omega
  unfold ecOptsEncode EcOpts.encoded
  simp only [loop, List.nil_append, if_true, rest]

/-- The encoder succeeds exactly when the whole encoding fits its buffer. -/
theorem ecOptsEncode_ok_iff (opts : EcOpts) :
    (ecOptsEncode opts).2 = 0 ↔ encodedSize 0 opts.bundle.list ≤ ecOptsMaxLen := by
  constructor
  · intro encoded
    by_contra large
    have failed := encodeLoop_full opts.bundle.list ⟨[], ecOptsMaxLen, 0, opts.noptions⟩ opts.bundle.ascending
      (Nat.lt_of_not_le large)
    have code : (ecOptsEncode opts).2 = -1 := failed
    omega
  · intro fits
    rw [ecOptsEncode_fits opts fits]

theorem ecOptsEncode_ok (opts : EcOpts) (encoded : (ecOptsEncode opts).2 = 0) :
    (ecOptsEncode opts).1 = opts.encoded := by
  rw [ecOptsEncode_fits opts ((ecOptsEncode_ok_iff opts).mp encoded)]

end Webthings.Evcoap
