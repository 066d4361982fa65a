import Webthings.Evcoap.Options.Decode

namespace Webthings.Evcoap

/-- The stream holds the given bytes from position `p` on. -/
def Holds (pdu : Nat → UInt8) (p : Nat) (bytes : List UInt8) : Prop := bytesAt pdu p bytes.length = bytes

theorem holds_iff (pdu : Nat → UInt8) (p : Nat) (bytes : List UInt8) :
    Holds pdu p bytes ↔ ∀ (i : Nat) (within : i < bytes.length), pdu (p + i) = bytes[i] := by
  constructor
  · intro held i within
    have element := congrArg (fun list => list[i]?) held
    simpa [bytesAt, within] using element
  · intro elements
    apply List.ext_getElem (by simp)
    intro i _ within
    simpa [bytesAt] using elements i within

theorem holds_nil (pdu : Nat → UInt8) (p : Nat) : Holds pdu p [] := rfl

theorem holds_append (pdu : Nat → UInt8) (p : Nat) (first second : List UInt8) :
    Holds pdu p (first ++ second) ↔ Holds pdu p first ∧ Holds pdu (p + first.length) second := by
  have split : bytesAt pdu p (first.length + second.length) =
      bytesAt pdu p first.length ++ bytesAt pdu (p + first.length) second.length := by
    simp [bytesAt, List.range_add, Nat.add_assoc]
  rw [Holds, List.length_append, split]
  constructor
  · intro same
    exact List.append_inj same (by simp)
  · rintro ⟨left, right⟩
    rw [left, right]

theorem holds_cons (pdu : Nat → UInt8) (p : Nat) (byte : UInt8) (bytes : List UInt8) :
    Holds pdu p (byte :: bytes) ↔ pdu p = byte ∧ Holds pdu (p + 1) bytes := by
  rw [← List.singleton_append, holds_append]
  simp [Holds, bytesAt]

/-- Two nibbles make up their byte. -/
theorem nibbles_split (byte : UInt8) : nibbles (byte >>> 4).toNat (byte &&& 0x0f).toNat = byte := by
  have table : ∀ b : Fin 256, nibbles (UInt8.ofNat b.val >>> 4).toNat (UInt8.ofNat b.val &&& 0x0f).toNat =
      UInt8.ofNat b.val := by decide +kernel
  have here := table ⟨byte.toNat, byte.toNat_lt⟩
  simpa using here

theorem nibbles_zero (high low : Nat) (highFits : high < 16) (lowFits : low < 16) (zero : nibbles high low = 0) :
    high = 0 ∧ low = 0 := by
  have top := nibbles_high high low highFits lowFits
  have bottom := nibbles_low high low highFits lowFits
  rw [zero] at top bottom
  exact ⟨top.symm, bottom.symm⟩

/-- The length bytes of an option read back as its delta and its length. -/
theorem lengthBytes_read (pdu : Nat → UInt8) (optNum p delta l : Nat) (deltaFits : delta < 16)
    (lengthFits : l ≤ ecCoapOptLenMax) (held : Holds pdu p (lengthBytes delta l)) :
    optNumAt pdu optNum p = optNum + delta ∧ optLenAt pdu p = l := by
  unfold lengthBytes at held
  unfold optNumAt optLenAt
  by_cases long : l > 14
  · rw [if_pos long, holds_cons, holds_cons] at held
    obtain ⟨first, second, _⟩ := held
    have extended : (UInt8.ofNat (l - 15)).toNat = l - 15 := by
      rw [UInt8.toNat_ofNat']
      simp only [ecCoapOptLenMax] at lengthFits
      omega
    rw [first, second, nibbles_high delta 0x0f deltaFits (by omega), nibbles_low delta 0x0f deltaFits (by omega),
      extended]
    refine ⟨rfl, ?_⟩
    dsimp only
    rw [if_pos rfl]
    omega
  · rw [if_neg long, holds_cons] at held
    rw [held.1, nibbles_high delta l deltaFits (by omega), nibbles_low delta l deltaFits (by omega)]
    refine ⟨rfl, ?_⟩
    dsimp only
    rw [if_neg (by omega)]

/-- A stream that reads as a delta and a length holds their length bytes. -/
theorem lengthBytes_of_read (pdu : Nat → UInt8) (optNum p : Nat) :
    Holds pdu p (lengthBytes (optNumAt pdu optNum p - optNum) (optLenAt pdu p)) := by
  have delta : optNumAt pdu optNum p - optNum = (pdu p >>> 4).toNat := Nat.add_sub_cancel_left _ _
  have nibble : (pdu p &&& 0x0f).toNat ≤ 15 := by
    rw [UInt8.toNat_and]
    exact Nat.and_le_right
  have whole := nibbles_split (pdu p)
  rw [delta]
  unfold optLenAt
  dsimp only
  by_cases extended : (pdu p &&& 0x0f).toNat = 0x0f
  · rw [if_pos extended]
    rw [extended] at whole
    rw [lengthBytes, if_pos (by omega), whole, Nat.add_sub_cancel, UInt8.ofNat_toNat, holds_cons, holds_cons]
    exact ⟨rfl, rfl, holds_nil _ _⟩
  · rw [if_neg extended]
    rw [lengthBytes, if_neg (by omega), whole, holds_cons]
    exact ⟨rfl, holds_nil _ _⟩

/-- No option of the table has a fencepost's number. -/
theorem EcOpt.num_not_fencepost (o : EcOpt) : ecOptNumIsFencepost o.num = false := by
  obtain ⟨sym, _, _, valid, _, _⟩ := o
  revert valid
  change sym.Valid → ecOptNumIsFencepost (ecOptSym2num sym) = false
  cases sym <;> decide

theorem EcOpt.num_known (o : EcOpt) : ecOptNum2sym o.num = o.sym := ecOptNum2sym_sym2num o.sym o.valid

theorem EcOpt.num_elective (o : EcOpt) : ¬ UnknownCritical o.num := by
  rintro ⟨unknown, _⟩
  rw [o.num_known] at unknown
  have valid := o.valid
  rw [unknown] at valid
  exact absurd valid (by decide)

theorem EcOpt.not_skipThis (o : EcOpt) (l : Nat) : ¬ SkipThis o.num l := by
  rintro (unknown | ⟨_, post⟩)
  · exact o.num_elective ⟨unknown, by
      rw [o.num_known] at unknown
      have valid := o.valid
      rw [unknown] at valid
      exact absurd valid (by decide)⟩
  · rw [o.num_not_fencepost] at post
    cases post

/-- The walk skips the fencepost between two option numbers. -/
theorem walk_fencepost (pdu : Nat → UInt8) (n last cur p : Nat) (low : last ≤ cur) (high : cur ≤ 23)
    (held : Holds pdu p (fencepost last cur)) :
    walk pdu (n + (fencepost last cur).length) last p =
      walk pdu n (cur - fencedDelta last cur) (p + (fencepost last cur).length) := by
  unfold fencepost fencedDelta at *
  by_cases far : cur - last > 14
  · rw [if_pos far] at held ⊢
    rw [if_pos far]
    have read := lengthBytes_read pdu last p (14 - last) 0 (by omega) (by simp) held
    have number : last + (14 - last) = 14 := by omega
    rw [number] at read
    have skipped : recordOption pdu last p = none := by
      rw [recordOption, read.1, read.2]
      exact if_pos (by decide)
    have stop : optEndAt pdu p = p + 1 := by
      rw [optEndAt, optValueAt, read.2]
      rfl
    change walk pdu (n + 1) last p = walk pdu n (cur - (cur - 14)) (p + 1)
    rw [walk, read.1, if_neg (by decide), skipped, stop, show cur - (cur - 14) = 14 by omega]
    cases walk pdu n 14 (p + 1) <;> rfl
  · rw [if_neg far, if_neg far]
    change walk pdu n last p = walk pdu n (cur - (cur - last)) p
    rw [show cur - (cur - last) = last by omega]

/-- An option whose length is not 15 reads back from its own bytes, which leave its NULL buffer out. -/
theorem recordOption_of_bytes (pdu : Nat → UInt8) (last p : Nat) (o : EcOpt) (low : last ≤ o.num)
    (near : o.num - last < 16) (notFifteen : o.l ≠ 15)
    (held : Holds pdu p (lengthBytes (o.num - last) o.l ++ o.value)) :
    optNumAt pdu last p = o.num ∧ recordOption pdu last p = some o ∧
      optEndAt pdu p = p + (if o.l > 14 then 2 else 1) + o.l := by
  rw [holds_append, lengthBytes_length] at held
  obtain ⟨lengths, copied⟩ := held
  obtain ⟨number, length⟩ := lengthBytes_read pdu last p (o.num - last) o.l near o.fits lengths
  rw [show last + (o.num - last) = o.num by omega] at number
  have start : optValueAt pdu p = p + if o.l > 14 then 2 else 1 := by
    rw [optValueAt, length]
    by_cases long : o.l > 14
    · rw [if_pos long, if_pos (by omega)]
    · rw [if_neg long, if_neg (by omega)]
  refine ⟨number, ?_, by rw [optEndAt, start, length]⟩
  rw [recordOption, number, length, if_neg (o.not_skipThis o.l), o.num_known, start]
  apply ecOptNew_again o _ (by simp)
  intro bytes buffer
  have shape := o.shape
  rw [buffer] at shape
  have value : o.value = bytes := by rw [EcOpt.value, buffer]; rfl
  rw [value, Holds, shape.1] at copied
  exact copied

/-- The walk reads an option whose length is not 15, fencepost included. -/
theorem walk_option (pdu : Nat → UInt8) (n last p : Nat) (o : EcOpt) (low : last ≤ o.num)
    (notFifteen : o.l ≠ 15) (held : Holds pdu p (optBytes last o)) :
    walk pdu (n + 1 + (fencepost last o.num).length) last p =
      (walk pdu n o.num (p + optSize last o)).map fun rest => (o :: rest.1, rest.2) := by
  obtain ⟨_, high, _⟩ := o.num_bounds
  rw [optBytes, List.append_assoc, holds_append] at held
  obtain ⟨posts, rest⟩ := held
  have delta := fencedDelta_lt last o.num high
  have reached : o.num - (o.num - fencedDelta last o.num) = fencedDelta last o.num := by
    have bound : fencedDelta last o.num ≤ o.num := by
      unfold fencedDelta
      split <;> omega
    omega
  rw [walk_fencepost pdu (n + 1) last o.num p low high posts]
  obtain ⟨number, found, stop⟩ := recordOption_of_bytes pdu (o.num - fencedDelta last o.num)
    (p + (fencepost last o.num).length) o (Nat.sub_le _ _) (by omega) notFifteen (by rw [reached]; exact rest)
  rw [walk, number, if_neg o.num_elective, found, stop, optSize]
  simp only [Nat.add_assoc]
  rfl

/-- A record that reads as an option holds the option's bytes, unless its length is 15. -/
theorem recordOption_bytes (pdu : Nat → UInt8) (last p : Nat) (o : EcOpt)
    (found : recordOption pdu last p = some o) (notFifteen : o.l ≠ 15) :
    Holds pdu p (lengthBytes (o.num - last) o.l ++ o.value) := by
  rcases recordOption_cases pdu last p with ⟨_, none⟩ | ⟨_, made, found', created, _, length, number⟩
  · rw [found] at none
    cases none
  · rw [found] at found'
    cases found'
    rw [holds_append, lengthBytes_length, number, length]
    rw [length] at notFifteen
    refine ⟨lengthBytes_of_read pdu last p, ?_⟩
    obtain ⟨_, _, copied⟩ := ecOptNew_some created
    have start : optValueAt pdu p = p + if optLenAt pdu p > 14 then 2 else 1 := by
      rw [optValueAt]
      by_cases long : optLenAt pdu p > 14
      · rw [if_pos long, if_pos (by omega)]
      · rw [if_neg long, if_neg (by omega)]
    cases buffer : o.v with
    | none =>
        have value : o.value = [] := by rw [EcOpt.value, buffer]; rfl
        rw [value]
        exact holds_nil _ _
    | some bytes =>
        have value : o.value = bytes := by rw [EcOpt.value, buffer]; rfl
        rw [value, Holds, copied bytes buffer, bytesAt_length, start]

/-- The walk of `n` records makes at most `n` options. -/
theorem walk_length_le (pdu : Nat → UInt8) (n optNum p : Nat) (os : List EcOpt) (stop : Nat)
    (walked : walk pdu n optNum p = some (os, stop)) : os.length ≤ n := by
  induction n generalizing optNum p os with
  | zero =>
      simp only [walk, Option.some.injEq, Prod.mk.injEq] at walked
      rw [← walked.1]
      exact Nat.le_refl 0
  | succ n ih =>
      obtain ⟨_, rest, rfl, walkedRest⟩ := walk_succ walked
      have bound := ih _ _ rest walkedRest
      have one : (recordOption pdu optNum p).toList.length ≤ 1 := by
        cases recordOption pdu optNum p <;> simp
      rw [List.length_append]
      omega

/-- The cursor never moves back. -/
theorem walk_forward (pdu : Nat → UInt8) (n optNum p : Nat) (os : List EcOpt) (stop : Nat)
    (walked : walk pdu n optNum p = some (os, stop)) : p ≤ stop := by
  induction n generalizing optNum p os with
  | zero =>
      simp only [walk, Option.some.injEq, Prod.mk.injEq] at walked
      exact Nat.le_of_eq walked.2
  | succ n ih =>
      obtain ⟨_, rest, _, walkedRest⟩ := walk_succ walked
      have later := ih _ _ rest walkedRest
      have here : p ≤ optEndAt pdu p := by
        rw [optEndAt, optValueAt]
        omega
      exact Nat.le_trans here later

/-- A walk that makes as many options as it reads records skips none. -/
theorem walk_full (pdu : Nat → UInt8) (optNum p : Nat) (o : EcOpt) (os : List EcOpt) (stop : Nat)
    (walked : walk pdu (os.length + 1) optNum p = some (o :: os, stop)) :
    recordOption pdu optNum p = some o ∧ optNumAt pdu optNum p = o.num ∧ optLenAt pdu p = o.l ∧
      walk pdu os.length o.num (optEndAt pdu p) = some (os, stop) := by
  obtain ⟨_, rest, made, walkedRest⟩ := walk_succ walked
  have bound := walk_length_le pdu os.length _ _ rest stop walkedRest
  rcases recordOption_cases pdu optNum p with ⟨_, none⟩ | ⟨_, o', found, _, _, length, number⟩
  · rw [none, Option.toList_none, List.nil_append] at made
    rw [← made, List.length_cons] at bound
    omega
  · rw [found, Option.toList_some, List.singleton_append] at made
    obtain ⟨rfl, rfl⟩ := List.cons.inj made
    exact ⟨found, number.symm, length.symm, by rw [number]; exact walkedRest⟩

end Webthings.Evcoap
