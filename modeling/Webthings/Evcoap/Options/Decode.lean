import Webthings.Evcoap.Options.Encode

namespace Webthings.Evcoap

/-- The `n` bytes that a pointer at offset `p` points to. -/
def bytesAt (pdu : Nat → UInt8) (p n : Nat) : List UInt8 := (List.range n).map fun i => pdu (p + i)

@[simp] theorem bytesAt_length (pdu : Nat → UInt8) (p n : Nat) : (bytesAt pdu p n).length = n := by simp [bytesAt]

/-- The delta nibble at the cursor moves the option number. -/
def optNumAt (pdu : Nat → UInt8) (optNum p : Nat) : Nat := optNum + (pdu p >>> 4).toNat

/-- The length at the cursor, in its base or its extended form. -/
def optLenAt (pdu : Nat → UInt8) (p : Nat) : Nat :=
  let optLen := (pdu p &&& 0x0f).toNat
  if optLen = 0x0f then (pdu (p + 1)).toNat + 15 else optLen

/-- The cursor jumps over two bytes only for lengths above 15. -/
def optValueAt (pdu : Nat → UInt8) (p : Nat) : Nat := p + if optLenAt pdu p > 15 then 2 else 1

def optEndAt (pdu : Nat → UInt8) (p : Nat) : Nat := optValueAt pdu p + optLenAt pdu p

/-- An unrecognised option with an odd number. -/
def UnknownCritical (optNum : Nat) : Prop := ecOptNum2sym optNum = .none ∧ optNum % 2 ≠ 0

instance (optNum : Nat) : Decidable (UnknownCritical optNum) := inferInstanceAs (Decidable (_ ∧ _))

/-- Unrecognised elective options and fenceposts are skipped. -/
def SkipThis (optNum optLen : Nat) : Prop :=
  ecOptNum2sym optNum = .none ∨ (optLen = 0 ∧ ecOptNumIsFencepost optNum = true)

instance (optNum optLen : Nat) : Decidable (SkipThis optNum optLen) := inferInstanceAs (Decidable (_ ∨ _))

/-- The loop variables of the decoder, with `optP` counted from the datagram and the indices read so far. -/
structure Decoder where
  opts : EcOpts
  optNum : Nat
  optP : Nat
  reads : List Nat

/-- The indices that the delta and the length of the option at the cursor are read from. -/
def lengthReads (pdu : Nat → UInt8) (p : Nat) : List Nat :=
  if (pdu p &&& 0x0f).toNat = 0x0f then [p, p + 1] else [p]

/-- The indices that `ec_opt_new` copies the value from. -/
def valueReads (sym : EcOptSym) (p n : Nat) : List Nat := if ecOptCopies sym then List.range' p n else []

/-- One iteration returns `EC_RC_UNSET` when the loop goes on. -/
def decodeOpt (pdu : Nat → UInt8) (d : Decoder) : Decoder × EcRc :=
  let optNum := optNumAt pdu d.optNum d.optP
  let sym := ecOptNum2sym optNum
  if UnknownCritical optNum then
    ({d with optNum := optNum, reads := d.reads ++ [d.optP]}, ecBadOption)
  else
    let optLen := optLenAt pdu d.optP
    let value := optValueAt pdu d.optP
    let reads := d.reads ++ lengthReads pdu d.optP
    if SkipThis optNum optLen then
      ({d with optNum := optNum, optP := optEndAt pdu d.optP, reads := reads}, ecRcUnset)
    else
      let added := ecOptsAdd d.opts sym (bytesAt pdu value optLen)
      if added.2 ≠ 0 then
        (⟨added.1, optNum, value, reads ++ valueReads sym value optLen⟩, ecInternalServerError)
      else
        (⟨added.1, optNum, optEndAt pdu d.optP, reads ++ valueReads sym value optLen⟩, ecRcUnset)

def decodeLoop (pdu : Nat → UInt8) : Nat → Decoder → Decoder × EcRc
  | 0, d => (d, ecRcUnset)
  | optCount + 1, d =>
      let decoded := decodeOpt pdu d
      if decoded.2 = ecRcUnset then decodeLoop pdu optCount decoded.1 else decoded

/-- What a call of the decoder leaves: the option set, the return code, `*olen` and the indices read. -/
structure Decoded where
  opts : EcOpts
  rc : EcRc
  olen : Nat
  reads : List Nat

def ecOptsDecode (opts : EcOpts) (pdu : Nat → UInt8) (pduSz : Nat) (oc : UInt8) (olen : Nat) : Decoded :=
  if pduSz < ecCoapHdrSize then ⟨opts, -1, olen, []⟩
  else if oc = 0 then ⟨opts, ecRcUnset, 0, []⟩
  else
    let decoded := decodeLoop pdu oc.toNat ⟨opts, 0, ecCoapHdrSize, []⟩
    ⟨decoded.1.opts, decoded.2, if decoded.2 = ecRcUnset then decoded.1.optP - ecCoapHdrSize else 0,
      decoded.1.reads⟩

/-- The option that a record contributes, none when the decoder skips it. -/
def recordOption (pdu : Nat → UInt8) (optNum p : Nat) : Option EcOpt :=
  if SkipThis (optNumAt pdu optNum p) (optLenAt pdu p) then none
  else ecOptNew (ecOptNum2sym (optNumAt pdu optNum p)) (bytesAt pdu (optValueAt pdu p) (optLenAt pdu p))

/-- The meaning of a byte stream: its options and its end, none at an unknown critical option. -/
def walk (pdu : Nat → UInt8) : Nat → Nat → Nat → Option (List EcOpt × Nat)
  | 0, _, p => some ([], p)
  | n + 1, optNum, p =>
      if UnknownCritical (optNumAt pdu optNum p) then none
      else (walk pdu n (optNumAt pdu optNum p) (optEndAt pdu p)).map fun rest =>
        ((recordOption pdu optNum p).toList ++ rest.1, rest.2)

/-- A walk goes on behind its first record, which is not an unknown critical option. -/
theorem walk_succ {pdu : Nat → UInt8} {n optNum p : Nat} {os : List EcOpt} {stop : Nat}
    (walked : walk pdu (n + 1) optNum p = some (os, stop)) :
    ¬ UnknownCritical (optNumAt pdu optNum p) ∧ ∃ rest, os = (recordOption pdu optNum p).toList ++ rest ∧
      walk pdu n (optNumAt pdu optNum p) (optEndAt pdu p) = some (rest, stop) := by
  rw [walk] at walked
  split at walked
  · cases walked
  · rename_i elective
    obtain ⟨⟨rest, final⟩, walkedRest, same⟩ := Option.map_eq_some_iff.mp walked
    simp only [Prod.mk.injEq] at same
    obtain ⟨rfl, rfl⟩ := same
    exact ⟨elective, rest, rfl, walkedRest⟩

theorem optLenAt_le (pdu : Nat → UInt8) (p : Nat) : optLenAt pdu p ≤ ecCoapOptLenMax := by
  have byte := (pdu (p + 1)).toNat_lt
  have nibble : (pdu p &&& 0x0f).toNat ≤ 15 := by
    rw [UInt8.toNat_and]
    exact Nat.and_le_right
  unfold optLenAt
  simp only [ecCoapOptLenMax]
  split <;> omega

/-- A record that is not skipped always makes an option. -/
theorem recordOption_cases (pdu : Nat → UInt8) (optNum p : Nat) :
    (SkipThis (optNumAt pdu optNum p) (optLenAt pdu p) ∧ recordOption pdu optNum p = none) ∨
    (¬ SkipThis (optNumAt pdu optNum p) (optLenAt pdu p) ∧ ∃ o, recordOption pdu optNum p = some o ∧
      ecOptNew (ecOptNum2sym (optNumAt pdu optNum p))
        (bytesAt pdu (optValueAt pdu p) (optLenAt pdu p)) = some o ∧
      o.sym = ecOptNum2sym (optNumAt pdu optNum p) ∧ o.l = optLenAt pdu p ∧ o.num = optNumAt pdu optNum p) := by
  by_cases skipped : SkipThis (optNumAt pdu optNum p) (optLenAt pdu p)
  · exact Or.inl ⟨skipped, if_pos skipped⟩
  · have known : ecOptNum2sym (optNumAt pdu optNum p) ≠ .none := fun unknown => skipped (Or.inl unknown)
    obtain ⟨valid, number⟩ := ecOptNum2sym_known _ known
    have made : (ecOptNew (ecOptNum2sym (optNumAt pdu optNum p))
        (bytesAt pdu (optValueAt pdu p) (optLenAt pdu p))).isSome := by
      rw [ecOptNew_isSome, bytesAt_length]
      exact ⟨optLenAt_le pdu p, valid⟩
    obtain ⟨o, created⟩ := Option.isSome_iff_exists.mp made
    obtain ⟨symbol, length, _⟩ := ecOptNew_some created
    refine Or.inr ⟨skipped, o, ?_, created, symbol, by rw [length, bytesAt_length], ?_⟩
    · rw [recordOption, if_neg skipped, created]
    · rw [EcOpt.num, symbol, number]

/-- One iteration stops at an unknown critical option, skips, adds an option, or finds no room for it. -/
theorem decodeOpt_cases (pdu : Nat → UInt8) (d : Decoder) :
    (UnknownCritical (optNumAt pdu d.optNum d.optP) ∧
      decodeOpt pdu d = ({d with optNum := optNumAt pdu d.optNum d.optP, reads := d.reads ++ [d.optP]},
        ecBadOption)) ∨
    (¬ UnknownCritical (optNumAt pdu d.optNum d.optP) ∧ recordOption pdu d.optNum d.optP = none ∧
      decodeOpt pdu d = (⟨d.opts, optNumAt pdu d.optNum d.optP, optEndAt pdu d.optP,
        d.reads ++ lengthReads pdu d.optP⟩, ecRcUnset)) ∨
    (¬ UnknownCritical (optNumAt pdu d.optNum d.optP) ∧ ∃ o, recordOption pdu d.optNum d.optP = some o ∧
      o.num = optNumAt pdu d.optNum d.optP ∧
      ((d.opts.noptions ≠ ecProtoMaxOptions ∧ decodeOpt pdu d =
          (⟨{d.opts with noptions := d.opts.noptions + 1, bundle := d.opts.bundle.insert o},
            optNumAt pdu d.optNum d.optP, optEndAt pdu d.optP, d.reads ++ lengthReads pdu d.optP ++
              valueReads o.sym (optValueAt pdu d.optP) (optLenAt pdu d.optP)⟩, ecRcUnset)) ∨
        (d.opts.noptions = ecProtoMaxOptions ∧ decodeOpt pdu d =
          (⟨d.opts, optNumAt pdu d.optNum d.optP, optValueAt pdu d.optP, d.reads ++ lengthReads pdu d.optP ++
              valueReads o.sym (optValueAt pdu d.optP) (optLenAt pdu d.optP)⟩, ecInternalServerError)))) := by
  by_cases critical : UnknownCritical (optNumAt pdu d.optNum d.optP)
  · left
    refine ⟨critical, ?_⟩
    unfold decodeOpt
    rw [if_pos critical]
  · right
    rcases recordOption_cases pdu d.optNum d.optP with ⟨skipped, none⟩ | ⟨kept, o, found, created, symbol, _, number⟩
    · left
      refine ⟨critical, none, ?_⟩
      unfold decodeOpt
      rw [if_neg critical]
      dsimp only
      rw [if_pos skipped]
    · right
      refine ⟨critical, o, found, number, ?_⟩
      unfold decodeOpt
      rw [if_neg critical]
      dsimp only
      rw [if_neg kept]
      rw [← symbol] at created
      unfold ecOptsAdd
      simp only [← symbol, created]
      by_cases full : d.opts.noptions = ecProtoMaxOptions
      · right
        refine ⟨full, ?_⟩
        simp only [ecOptsPush, if_pos full]
        rfl
      · left
        refine ⟨full, ?_⟩
        simp only [ecOptsPush, if_neg full]
        rfl

/-- The options added so far have numbers up to the current one. -/
def Decoder.Upto (d : Decoder) : Prop := ∀ x ∈ d.opts.bundle.list, x.num ≤ d.optNum

theorem optNumAt_le (pdu : Nat → UInt8) (optNum p : Nat) : optNum ≤ optNumAt pdu optNum p := Nat.le_add_right _ _

/-- An option with the current number goes to the tail of the queue. -/
theorem Decoder.insert_current (d : Decoder) (o : EcOpt) (upto : d.Upto) (low : d.optNum ≤ o.num) :
    (d.opts.bundle.insert o).list = d.opts.bundle.list ++ [o] := by
  apply Bundle.insert_last
  intro x member
  rw [ecOptSym2num_le_iff x.sym o.sym x.valid o.valid]
  exact Nat.le_trans (upto x member) low

/-- A finished loop has read a stream and has appended its options. -/
theorem decodeLoop_walk (pdu : Nat → UInt8) (n : Nat) (d : Decoder) (upto : d.Upto)
    (finished : (decodeLoop pdu n d).2 = ecRcUnset) :
    ∃ os stop, walk pdu n d.optNum d.optP = some (os, stop) ∧
      (decodeLoop pdu n d).1.opts.bundle.list = d.opts.bundle.list ++ os ∧
      (decodeLoop pdu n d).1.optP = stop := by
  induction n generalizing d with
  | zero => exact ⟨[], d.optP, rfl, (List.append_nil _).symm, rfl⟩
  | succ n ih =>
      have low := optNumAt_le pdu d.optNum d.optP
      rw [decodeLoop] at finished ⊢
      rcases decodeOpt_cases pdu d with ⟨_, stepped⟩ | ⟨elective, skipped, stepped⟩ |
        ⟨elective, o, found, number, ⟨_, stepped⟩ | ⟨_, stepped⟩⟩
      · rw [stepped] at finished
        simp at finished
      · rw [stepped] at finished ⊢
        dsimp only at finished ⊢
        rw [if_pos rfl] at finished ⊢
        have later : Decoder.Upto ⟨d.opts, optNumAt pdu d.optNum d.optP, optEndAt pdu d.optP,
            d.reads ++ lengthReads pdu d.optP⟩ := fun x member => Nat.le_trans (upto x member) low
        obtain ⟨os, stop, walked, appended, ended⟩ := ih _ later finished
        refine ⟨os, stop, ?_, appended, ended⟩
        rw [walk, if_neg elective, walked, skipped]
        rfl
      · rw [stepped] at finished ⊢
        dsimp only at finished ⊢
        rw [if_pos rfl] at finished ⊢
        have tail := d.insert_current o upto (number ▸ low)
        have later : Decoder.Upto
            ⟨{d.opts with noptions := d.opts.noptions + 1, bundle := d.opts.bundle.insert o},
              optNumAt pdu d.optNum d.optP, optEndAt pdu d.optP, d.reads ++ lengthReads pdu d.optP ++
              valueReads o.sym (optValueAt pdu d.optP) (optLenAt pdu d.optP)⟩ := by
          intro x member
          rcases (Bundle.mem_insert _ _ _).mp member with same | earlier
          · exact Nat.le_of_eq (same ▸ number)
          · exact Nat.le_trans (upto x earlier) low
        obtain ⟨os, stop, walked, appended, ended⟩ := ih _ later finished
        refine ⟨o :: os, stop, ?_, ?_, ended⟩
        · rw [walk, if_neg elective, walked, found]
          rfl
        · rw [appended]
          dsimp only
          rw [tail, List.append_assoc]
          rfl
      · rw [stepped] at finished
        simp at finished

/-- The loop finishes on every stream whose options find room. -/
theorem decodeLoop_finishes (pdu : Nat → UInt8) (n : Nat) (d : Decoder) (os : List EcOpt) (stop : Nat)
    (walked : walk pdu n d.optNum d.optP = some (os, stop))
    (room : d.opts.noptions + os.length ≤ ecProtoMaxOptions) :
    (decodeLoop pdu n d).2 = ecRcUnset := by
  induction n generalizing d os with
  | zero => rfl
  | succ n ih =>
      rw [decodeLoop]
      rcases decodeOpt_cases pdu d with ⟨critical, stepped⟩ | ⟨elective, skipped, stepped⟩ |
        ⟨elective, o, found, number, ⟨_, stepped⟩ | ⟨full, stepped⟩⟩
      · exact absurd critical (walk_succ walked).1
      · obtain ⟨_, rest, rfl, walkedRest⟩ := walk_succ walked
        rw [skipped, Option.toList_none, List.nil_append] at room
        rw [stepped]
        dsimp only
        rw [if_pos rfl]
        exact ih _ rest walkedRest room
      · obtain ⟨_, rest, rfl, walkedRest⟩ := walk_succ walked
        rw [found, Option.toList_some, List.singleton_append, List.length_cons] at room
        rw [stepped]
        dsimp only
        rw [if_pos rfl]
        exact ih _ rest walkedRest (by dsimp only; omega)
      · obtain ⟨_, rest, rfl, _⟩ := walk_succ walked
        rw [found, Option.toList_some, List.singleton_append, List.length_cons] at room
        omega

theorem ecOptsInit_upto (p : Nat) (reads : List Nat) : Decoder.Upto ⟨ecOptsInit, 0, p, reads⟩ := by
  intro x member
  cases member

/-- The decoder is the walk of the stream, limited to the options that a fresh set has room for. -/
theorem ecOptsDecode_iff_walk (pdu : Nat → UInt8) (pduSz : Nat) (oc : UInt8) (olen : Nat)
    (header : ecCoapHdrSize ≤ pduSz) (os : List EcOpt) (size : Nat) (room : os.length ≤ ecProtoMaxOptions) :
    ((ecOptsDecode ecOptsInit pdu pduSz oc olen).rc = ecRcUnset ∧
      (ecOptsDecode ecOptsInit pdu pduSz oc olen).opts.bundle.list = os ∧
      (ecOptsDecode ecOptsInit pdu pduSz oc olen).olen = size) ↔
    ∃ stop, walk pdu oc.toNat 0 ecCoapHdrSize = some (os, stop) ∧ stop - ecCoapHdrSize = size := by
  unfold ecOptsDecode
  rw [if_neg (Nat.not_lt.mpr header)]
  by_cases none : oc = 0
  · rw [if_pos none]
    subst none
    change (ecRcUnset = ecRcUnset ∧ [] = os ∧ 0 = size) ↔ ∃ stop, some ([], ecCoapHdrSize) = some (os, stop) ∧ _
    constructor
    · rintro ⟨_, rfl, rfl⟩
      exact ⟨ecCoapHdrSize, rfl, Nat.sub_self _⟩
    · rintro ⟨stop, same, rest⟩
      simp only [Option.some.injEq, Prod.mk.injEq] at same
      obtain ⟨rfl, rfl⟩ := same
      exact ⟨rfl, rfl, by rw [← rest, Nat.sub_self]⟩
  · rw [if_neg none]
    dsimp only
    constructor
    · rintro ⟨finished, appended, consumed⟩
      obtain ⟨list, stop, walked, same, ended⟩ :=
        decodeLoop_walk pdu oc.toNat ⟨ecOptsInit, 0, ecCoapHdrSize, []⟩ (ecOptsInit_upto _ _) finished
      rw [if_pos finished] at consumed
      rw [appended] at same
      have list_os : os = list := same
      subst list_os
      exact ⟨stop, walked, by rw [← ended]; exact consumed⟩
    · rintro ⟨stop, walked, rest⟩
      have finished := decodeLoop_finishes pdu oc.toNat ⟨ecOptsInit, 0, ecCoapHdrSize, []⟩ os stop walked
        (by rw [show (ecOptsInit.noptions) = 0 from rfl, Nat.zero_add]; exact room)
      obtain ⟨list, last, walked', same, ended⟩ :=
        decodeLoop_walk pdu oc.toNat ⟨ecOptsInit, 0, ecCoapHdrSize, []⟩ (ecOptsInit_upto _ _) finished
      dsimp only at walked'
      rw [walked] at walked'
      simp only [Option.some.injEq, Prod.mk.injEq] at walked'
      obtain ⟨rfl, rfl⟩ := walked'
      refine ⟨finished, same, ?_⟩
      rw [if_pos finished, ended]
      exact rest

end Webthings.Evcoap
