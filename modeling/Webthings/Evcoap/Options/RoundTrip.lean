import Webthings.Evcoap.Options.Records

namespace Webthings.Evcoap

/-- The decoder gives an option sequence back: no length is 15, and a padded If-None-Match is last. -/
structure WireFaithful (os : List EcOpt) : Prop where
  notFifteen : ∀ o ∈ os, o.l ≠ 15
  paddedLast : os.Pairwise fun a b => a.sym = .ifNoneMatch → a.l ≠ 0 → b.sym = .ifNoneMatch ∧ b.l = 0

instance (os : List EcOpt) : Decidable (WireFaithful os) :=
  decidable_of_iff ((∀ o ∈ os, o.l ≠ 15) ∧
      os.Pairwise fun a b => a.sym = .ifNoneMatch → a.l ≠ 0 → b.sym = .ifNoneMatch ∧ b.l = 0)
    ⟨fun both => ⟨both.1, both.2⟩, fun faithful => ⟨faithful.notFifteen, faithful.paddedLast⟩⟩

/-- The first `enc_sz` bytes of the buffer: the bytes put and the zeros that were never written. -/
def paddedBytes (last : Nat) (os : List EcOpt) : List UInt8 :=
  encodedBytes last os ++ List.replicate (encodedSize last os - (encodedBytes last os).length) 0

@[simp] theorem paddedBytes_length (last : Nat) (os : List EcOpt) :
    (paddedBytes last os).length = encodedSize last os := by
  have bound := encodedBytes_length_le last os
  rw [paddedBytes, List.length_append, List.length_replicate]
  omega

/-- An option that was copied whole leaves no gap before the next one. -/
theorem paddedBytes_copied (last : Nat) (o : EcOpt) (os : List EcOpt) (copied : o.value.length = o.l) :
    paddedBytes last (o :: os) = optBytes last o ++ paddedBytes o.num os := by
  have size := optBytes_length last o
  have gap : encodedSize last (o :: os) - (encodedBytes last (o :: os)).length =
      encodedSize o.num os - (encodedBytes o.num os).length := by
    rw [encodedSize, encodedBytes, List.length_append]
    omega
  rw [paddedBytes, gap, encodedBytes, paddedBytes, List.append_assoc]

/-- Only the buffer of an If-None-Match option is not copied. -/
theorem EcOpt.value_cases (o : EcOpt) : o.value.length = o.l ∨ (o.sym = .ifNoneMatch ∧ o.l ≠ 0 ∧ o.value = []) := by
  have shape := o.shape
  cases buffer : o.v with
  | none =>
      have value : o.value = [] := by rw [EcOpt.value, buffer]; rfl
      rw [buffer] at shape
      by_cases zero : o.l = 0
      · left
        rw [value, zero]
        rfl
      · rcases shape with empty | uint
        · exact Or.inr ⟨(ecOptSym2type_empty o.sym).mp empty, zero, value⟩
        · exact absurd uint.2 zero
  | some bytes =>
      have value : o.value = bytes := by rw [EcOpt.value, buffer]; rfl
      rw [buffer] at shape
      left
      rw [value]
      exact shape.1

/-- Only an If-None-Match has a value that is shorter than its length. -/
theorem EcOpt.value_whole {o : EcOpt} (other : o.sym ≠ .ifNoneMatch) : o.value.length = o.l := by
  rcases o.value_cases with whole | ⟨symbol, _⟩
  · exact whole
  · exact absurd symbol other

theorem EcOpt.ifNoneMatch_value (o : EcOpt) (symbol : o.sym = .ifNoneMatch) : o.value = [] := by
  have shape := o.shape
  cases buffer : o.v with
  | none => rw [EcOpt.value, buffer]; rfl
  | some bytes =>
      rw [buffer] at shape
      exact absurd ((ecOptSym2type_empty o.sym).mpr symbol) shape.2.1

theorem EcOpt.ifNoneMatch_iff (o : EcOpt) : o.sym = .ifNoneMatch ↔ o.num = 21 := by
  constructor
  · intro symbol
    rw [EcOpt.num, symbol]
    decide
  · intro number
    apply ecOptSym2num_injective o.sym .ifNoneMatch o.valid (by decide)
    rw [show ecOptSym2num o.sym = o.num from rfl, number]
    decide

/-- Above number 14 no fencepost is put. -/
theorem fencepost_above (last cur : Nat) (above : 14 ≤ last) (high : cur ≤ 23) :
    fencepost last cur = [] ∧ fencedDelta last cur = cur - last := by
  unfold fencepost fencedDelta
  rw [if_neg (by omega), if_neg (by omega)]
  exact ⟨rfl, rfl⟩

theorem optBytes_above (last : Nat) (o : EcOpt) (above : 14 ≤ last) :
    optBytes last o = lengthBytes (o.num - last) o.l ++ o.value := by
  obtain ⟨none, delta⟩ := fencepost_above last o.num above o.num_bounds.2.1
  rw [optBytes, none, delta]
  rfl

theorem optSize_above (last : Nat) (o : EcOpt) (above : 14 ≤ last) :
    optSize last o = (if o.l > 14 then 2 else 1) + o.l := by
  rw [optSize, (fencepost_above last o.num above o.num_bounds.2.1).1, List.length_nil, Nat.zero_add]

/-- Empty If-None-Match options are zero bytes. -/
theorem zero_bytes (os : List EcOpt) (zeros : ∀ o ∈ os, o.sym = .ifNoneMatch ∧ o.l = 0) :
    encodedBytes 21 os = List.replicate os.length 0 ∧ encodedSize 21 os = os.length := by
  induction os with
  | nil => exact ⟨rfl, rfl⟩
  | cons o os ih =>
      obtain ⟨symbol, zero⟩ := zeros o List.mem_cons_self
      have number := (o.ifNoneMatch_iff).mp symbol
      obtain ⟨bytes, size⟩ := ih fun x member => zeros x (List.mem_cons_of_mem o member)
      rw [encodedBytes, encodedSize, optBytes_above 21 o (by omega), optSize_above 21 o (by omega),
        o.ifNoneMatch_value symbol, zero, number, bytes, size]
      refine ⟨rfl, ?_⟩
      rw [List.length_cons, if_neg (by omega)]
      omega

/-- A faithful sequence is read back from its padded bytes. -/
theorem walk_faithful (pdu : Nat → UInt8) (last p : Nat) (os : List EcOpt) (ascending : Ascending last os)
    (faithful : WireFaithful os) (held : Holds pdu p (paddedBytes last os)) :
    walk pdu (os.length + fencepostCount last os) last p = some (os, p + encodedSize last os) := by
  induction os generalizing last p with
  | nil => rfl
  | cons o os ih =>
      obtain ⟨low, rest⟩ := ascending
      obtain ⟨padding, pairs⟩ := List.pairwise_cons.mp faithful.paddedLast
      have faithfulRest : WireFaithful os :=
        ⟨fun x member => faithful.notFifteen x (List.mem_cons_of_mem o member), pairs⟩
      have notFifteen := faithful.notFifteen o List.mem_cons_self
      have count : (o :: os).length + fencepostCount last (o :: os) =
          os.length + fencepostCount o.num os + 1 + (fencepost last o.num).length := by
        rw [List.length_cons, fencepostCount]
        omega
      have head : Holds pdu p (optBytes last o) := by
        rw [paddedBytes, holds_append, encodedBytes, holds_append] at held
        exact held.1.1
      have tail : Holds pdu (p + optSize last o) (paddedBytes o.num os) := by
        rcases o.value_cases with copied | ⟨symbol, nonzero, empty⟩
        · rw [paddedBytes_copied last o os copied, holds_append] at held
          have size := optBytes_length last o
          rw [show p + optSize last o = p + (optBytes last o).length by omega]
          exact held.2
        · -- The gap of the NULL buffer is zero, and so are the empty options after it.
          have zeros : ∀ x ∈ os, x.sym = .ifNoneMatch ∧ x.l = 0 := fun x member =>
            padding x member symbol nonzero
          obtain ⟨bytes, size⟩ := zero_bytes os zeros
          have number := (o.ifNoneMatch_iff).mp symbol
          have whole := optBytes_length last o
          rw [empty, List.length_nil] at whole
          have padded : paddedBytes last (o :: os) = optBytes last o ++ List.replicate (o.l + os.length) 0 := by
            have gap : os.length + (encodedSize last (o :: os) - (encodedBytes last (o :: os)).length) =
                o.l + os.length := by
              rw [encodedSize, encodedBytes, List.length_append, number, bytes, size, List.length_replicate]
              omega
            have put : encodedBytes last (o :: os) = optBytes last o ++ List.replicate os.length 0 := by
              rw [encodedBytes, number, bytes]
            rw [paddedBytes, put, List.append_assoc, ← put, ← List.replicate_add, gap]
          have rest : paddedBytes 21 os = List.replicate os.length 0 := by
            rw [paddedBytes, bytes, size, List.length_replicate, Nat.sub_self]
            exact List.append_nil _
          rw [padded, holds_append, holds_iff _ _ (List.replicate _ _)] at held
          rw [number, rest, holds_iff]
          intro i within
          rw [List.length_replicate] at within
          have here := held.2 (o.l + i) (by rw [List.length_replicate]; omega)
          rw [List.getElem_replicate] at here ⊢
          rw [← here]
          apply congrArg pdu
          omega
      rw [count, walk_option pdu (os.length + fencepostCount o.num os) last p o low notFifteen head,
        ih o.num (p + optSize last o) rest faithfulRest tail, encodedSize]
      simp only [Option.map_some, Nat.add_assoc]

/-- The bytes that the decoder jumps over for a sequence in which it skips nothing. -/
def decodedSize : List EcOpt → Nat
  | [] => 0
  | o :: os => (if o.l > 15 then 2 else 1) + o.l + decodedSize os

theorem walk_decodedSize (pdu : Nat → UInt8) (optNum p : Nat) (os : List EcOpt) (stop : Nat)
    (walked : walk pdu os.length optNum p = some (os, stop)) : stop = p + decodedSize os := by
  induction os generalizing optNum p with
  | nil =>
      simp only [List.length_nil, walk, Option.some.injEq, Prod.mk.injEq] at walked
      exact walked.2.symm
  | cons o os ih =>
      obtain ⟨_, _, length, rest⟩ := walk_full pdu optNum p o os stop walked
      have later := ih o.num (optEndAt pdu p) rest
      rw [optEndAt, optValueAt, length] at later
      rw [later, decodedSize]
      omega

/-- The decoder never jumps further than the encoder counted, and less far over a length of 15. -/
theorem decodedSize_le (last : Nat) (os : List EcOpt) (above : 14 ≤ last) (ascending : Ascending last os) :
    decodedSize os ≤ encodedSize last os ∧
      (decodedSize os = encodedSize last os → ∀ o ∈ os, o.l ≠ 15) := by
  induction os generalizing last with
  | nil => exact ⟨Nat.le_refl 0, fun _ _ member => nomatch member⟩
  | cons o os ih =>
      obtain ⟨low, rest⟩ := ascending
      obtain ⟨bound, exact'⟩ := ih o.num (Nat.le_trans above low) rest
      have size := optSize_above last o above
      have step : (if o.l > 15 then 2 else 1) + o.l ≤ optSize last o ∧
          ((if o.l > 15 then 2 else 1) + o.l = optSize last o → o.l ≠ 15) := by
        rw [size]
        split <;> split <;> omega
      rw [decodedSize, encodedSize]
      refine ⟨by omega, ?_⟩
      intro same x member
      rcases List.mem_cons.mp member with here | later
      · exact here ▸ step.2 (by omega)
      · exact exact' (by omega) x later

/-- Two readings of one sequence mirror each byte of the earlier copy in a later byte. -/
theorem walk_mirror (pdu : Nat → UInt8) (optNum e q : Nat) (os : List EcOpt) (stop : Nat) (above : 14 ≤ optNum)
    (ascending : Ascending optNum os) (earlier : e < q) (notFifteen : ∀ o ∈ os, o.l ≠ 15)
    (held : Holds pdu e (encodedBytes optNum os))
    (walked : walk pdu os.length optNum q = some (os, stop)) (x : Nat) (lower : e ≤ x)
    (upper : x < e + (encodedBytes optNum os).length) : ∃ y, x < y ∧ y < stop ∧ pdu x = pdu y := by
  induction os generalizing optNum e q with
  | nil =>
      simp only [encodedBytes, List.length_nil] at upper
      omega
  | cons o os ih =>
      obtain ⟨low, rest⟩ := ascending
      obtain ⟨found, _, length, walkedRest⟩ := walk_full pdu optNum q o os stop walked
      have short := notFifteen o List.mem_cons_self
      have copy := recordOption_bytes pdu optNum q o found short
      have whole := optBytes_length optNum o
      have size := optSize_above optNum o above
      have copied := o.value_length_le
      have total := walk_decodedSize pdu o.num (optEndAt pdu q) os stop walkedRest
      have jump : optEndAt pdu q = q + optSize optNum o := by
        rw [optEndAt, optValueAt, length, size]
        split <;> split <;> omega
      rw [encodedBytes, holds_append] at held
      rw [← optBytes_above optNum o above] at copy
      rw [encodedBytes, List.length_append] at upper
      by_cases here : x < e + (optBytes optNum o).length
      · rw [holds_iff] at copy
        have left := ((holds_iff _ _ _).mp held.1) (x - e) (by omega)
        have right := copy (x - e) (by omega)
        rw [show e + (x - e) = x by omega] at left
        exact ⟨q + (x - e), by omega, by omega, by rw [left, right]⟩
      · exact ih o.num (e + (optBytes optNum o).length) (optEndAt pdu q) (Nat.le_trans above low) rest
          (by omega) (fun y member => notFifteen y (List.mem_cons_of_mem o member)) held.2 walkedRest
          (by omega) (by omega)

/-- Where every byte is mirrored in a later one and the tail is zero, all bytes are zero. -/
theorem zero_of_mirror (pdu : Nat → UInt8) (e middle stop : Nat)
    (tail : ∀ x, middle ≤ x → x < stop → pdu x = 0)
    (mirrored : ∀ x, e ≤ x → x < middle → ∃ y, x < y ∧ y < stop ∧ pdu x = pdu y) (x : Nat)
    (lower : e ≤ x) (upper : x < stop) : pdu x = 0 := by
  induction distance : stop - x using Nat.strong_induction_on generalizing x with
  | _ distance ih =>
      by_cases after : middle ≤ x
      · exact tail x after upper
      · obtain ⟨y, later, within, same⟩ := mirrored x lower (by omega)
        rw [same]
        exact ih (stop - y) (by omega) y (by omega) within rfl

/-- Options whose bytes are all zero are empty If-None-Match options. -/
theorem zero_options (pdu : Nat → UInt8) (e : Nat) (os : List EcOpt) (ascending : Ascending 21 os)
    (held : Holds pdu e (encodedBytes 21 os))
    (zero : ∀ x, e ≤ x → x < e + (encodedBytes 21 os).length → pdu x = 0) :
    ∀ o ∈ os, o.sym = .ifNoneMatch ∧ o.l = 0 := by
  induction os generalizing e with
  | nil => intro _ member; cases member
  | cons o os ih =>
      obtain ⟨low, rest⟩ := ascending
      obtain ⟨_, high, _⟩ := o.num_bounds
      rw [encodedBytes, holds_append] at held
      rw [encodedBytes, List.length_append] at zero
      have lengths : Holds pdu e (lengthBytes (o.num - 21) o.l) := by
        have bytes := held.1
        rw [optBytes_above 21 o (by omega), holds_append] at bytes
        exact bytes.1
      have positive : 0 < (optBytes 21 o).length := by
        rw [optBytes_above 21 o (by omega), List.length_append, lengthBytes_length]
        split <;> omega
      have first := zero e (Nat.le_refl e) (by omega)
      have header : o.num = 21 ∧ o.l = 0 := by
        unfold lengthBytes at lengths
        by_cases long : o.l > 14
        · rw [if_pos long, holds_cons, first] at lengths
          have impossible := (nibbles_zero _ _ (by omega) (by omega) lengths.1.symm).2
          omega
        · rw [if_neg long, holds_cons, first] at lengths
          have both := nibbles_zero _ _ (by omega) (by omega) lengths.1.symm
          exact ⟨by omega, both.2⟩
      rw [header.1] at rest held zero
      intro x member
      rcases List.mem_cons.mp member with here | later
      · exact here ▸ ⟨(o.ifNoneMatch_iff).mpr header.1, header.2⟩
      · exact ih _ rest held.2 (fun y lower upper => zero y (by omega) (by omega)) x later

/-- Behind a stray zero byte the decoder reads empty options and stops one byte early. -/
theorem walk_stray_zero (pdu : Nat → UInt8) (o : EcOpt) (p : Nat) (os : List EcOpt) (stop : Nat)
    (zero : pdu p = 0) (held : Holds pdu (p + 1) (encodedBytes o.num os))
    (walked : walk pdu (os.length + fencepostCount o.num os) o.num p = some (os, stop)) :
    stop < p + 1 + encodedSize o.num os := by
  induction os generalizing o p with
  | nil =>
      simp only [List.length_nil, fencepostCount, walk, Option.some.injEq, Prod.mk.injEq] at walked
      rw [encodedSize, ← walked.2]
      omega
  | cons z zs ih =>
      have read : optNumAt pdu o.num p = o.num ∧ optLenAt pdu p = 0 := by
        rw [optNumAt, optLenAt, zero]
        exact ⟨rfl, rfl⟩
      have next : optEndAt pdu p = p + 1 := by
        rw [optEndAt, optValueAt, read.2]
        rfl
      have count : (z :: zs).length + fencepostCount o.num (z :: zs) =
          zs.length + (fencepost o.num z.num).length + fencepostCount z.num zs + 1 := by
        rw [List.length_cons, fencepostCount]
        omega
      rw [count] at walked
      obtain ⟨_, rest, same, walkedRest⟩ := walk_succ walked
      rw [read.1, next] at walkedRest
      rcases recordOption_cases pdu o.num p with ⟨skipped, _⟩ | ⟨_, made, found, _, _, length, number⟩
      · rw [read.1] at skipped
        exact absurd skipped (o.not_skipThis _)
      · rw [found, Option.toList_some, List.singleton_append] at same
        obtain ⟨rfl, rfl⟩ := List.cons.inj same.symm
        rw [read.1] at number
        rw [read.2] at length
        have near : fencepost o.num made.num = [] := by
          rw [fencepost, number, Nat.sub_self]
          rfl
        have empty : made.value = [] := by
          have bound := made.value_length_le
          rw [length] at bound
          exact List.length_eq_zero_iff.mp (Nat.le_zero.mp bound)
        have bytes : optBytes o.num made = [0] := by
          rw [optBytes, near, empty, length, fencedDelta, number, Nat.sub_self, if_neg (by omega)]
          rfl
        have size : optSize o.num made = 1 := by
          rw [optSize, near, length]
          rfl
        rw [encodedBytes, bytes, List.singleton_append, holds_cons] at held
        rw [near, List.length_nil, Nat.add_zero, ← number] at walkedRest
        have later := ih made (p + 1) held.1 held.2 walkedRest
        rw [encodedSize, size]
        omega

/-- Bytes that equal their successors are all zero when the first one is. -/
theorem zero_of_successors (pdu : Nat → UInt8) (q n : Nat) (zero : pdu q = 0)
    (same : ∀ i, i < n → pdu (q + i) = pdu (q + 1 + i)) : pdu (q + n) = 0 := by
  induction n with
  | zero => exact zero
  | succ n ih =>
      have before := ih fun i within => same i (by omega)
      rw [same n (by omega)] at before
      rw [show q + (n + 1) = q + 1 + n by omega]
      exact before

/-- A copied option that is read from the bytes at `p` holds exactly these bytes. -/
theorem recordOption_value (pdu : Nat → UInt8) (optNum p : Nat) (o : EcOpt)
    (found : recordOption pdu optNum p = some o) (nonempty : o.value ≠ []) :
    o.value = bytesAt pdu (optValueAt pdu p) (optLenAt pdu p) := by
  rcases recordOption_cases pdu optNum p with ⟨_, none⟩ | ⟨_, made, found', created, _, _, _⟩
  · rw [found] at none
    cases none
  · rw [found] at found'
    cases found'
    cases buffer : o.v with
    | none =>
        rw [EcOpt.value, buffer] at nonempty
        exact absurd rfl nonempty
    | some bytes =>
        rw [EcOpt.value, buffer]
        exact (ecOptNew_some created).2.2 bytes buffer

/-- A copied option of length 15 is read one byte early, so the sequence does not come back. -/
theorem walk_fifteen (pdu : Nat → UInt8) (last p : Nat) (o : EcOpt) (os : List EcOpt) (low : last ≤ o.num)
    (fifteen : o.l = 15) (copied : o.value.length = 15) (held : Holds pdu p (paddedBytes last (o :: os))) :
    walk pdu ((o :: os).length + fencepostCount last (o :: os)) last p ≠
      some (o :: os, p + encodedSize last (o :: os)) := by
  intro walked
  obtain ⟨_, high, _⟩ := o.num_bounds
  have size : optSize last o = (fencepost last o.num).length + 17 := by
    rw [optSize, fifteen, if_pos (by omega)]
  have count : (o :: os).length + fencepostCount last (o :: os) =
      os.length + fencepostCount o.num os + 1 + (fencepost last o.num).length := by
    rw [List.length_cons, fencepostCount]
    omega
  have delta := fencedDelta_lt last o.num high
  rw [paddedBytes_copied last o os (by omega), holds_append, optBytes, List.append_assoc, holds_append,
    holds_append, List.length_append, List.length_append, lengthBytes_length, fifteen, if_pos (by omega), copied,
    paddedBytes, holds_append] at held
  obtain ⟨⟨posts, lengths, value⟩, rest, _⟩ := held
  rw [count, walk_fencepost pdu _ last o.num p low high posts, encodedSize, size] at walked
  rw [← Nat.add_assoc] at rest
  obtain ⟨q, position⟩ : ∃ q, q = p + (fencepost last o.num).length := ⟨_, rfl⟩
  rw [← position] at lengths value rest walked
  have start : o.num - fencedDelta last o.num + fencedDelta last o.num = o.num := by
    have bound : fencedDelta last o.num ≤ o.num := by
      unfold fencedDelta
      split <;> omega
    omega
  obtain ⟨number, length⟩ := lengthBytes_read pdu (o.num - fencedDelta last o.num) q (fencedDelta last o.num) 15
    (by omega) (by simp) lengths
  rw [start] at number
  have from' : optValueAt pdu q = q + 1 := by
    rw [optValueAt, length]
    rfl
  have next : optEndAt pdu q = q + 16 := by rw [optEndAt, from', length]
  obtain ⟨_, tail, same, walkedRest⟩ := walk_succ walked
  rw [number, next] at walkedRest
  rcases recordOption_cases pdu (o.num - fencedDelta last o.num) q with
    ⟨skipped, _⟩ | ⟨_, made, found, _, _, _, _⟩
  · rw [number] at skipped
    exact absurd skipped (o.not_skipThis _)
  · rw [found, Option.toList_some, List.singleton_append] at same
    obtain ⟨rfl, rfl⟩ := List.cons.inj same.symm
    have read := recordOption_value pdu _ q made found (by
      intro empty
      rw [empty] at copied
      cases copied)
    rw [from', length] at read
    rw [lengthBytes, if_pos (by omega), holds_cons, holds_cons] at lengths
    rw [holds_iff] at value
    have stray : pdu (q + 1 + 15) = 0 := by
      apply zero_of_successors pdu (q + 1) 15 lengths.2.1
      intro i within
      have left : made.value[i] = pdu (q + 1 + i) := by simp [read, bytesAt]
      rw [← left, ← value i (by omega)]
    have early := walk_stray_zero pdu made (q + 16) tail _ stray rest walkedRest
    omega

/-- A padded If-None-Match comes back only when nothing but empty If-None-Match options follow it. -/
theorem walk_padded (pdu : Nat → UInt8) (last p : Nat) (o : EcOpt) (os : List EcOpt)
    (ascending : Ascending last (o :: os)) (symbol : o.sym = .ifNoneMatch) (padded : o.l ≠ 0)
    (held : Holds pdu p (paddedBytes last (o :: os)))
    (walked : walk pdu ((o :: os).length + fencepostCount last (o :: os)) last p =
      some (o :: os, p + encodedSize last (o :: os))) :
    (∀ x ∈ o :: os, x.l ≠ 15) ∧ ∀ x ∈ os, x.sym = .ifNoneMatch ∧ x.l = 0 := by
  obtain ⟨low, rest⟩ := ascending
  have number := (o.ifNoneMatch_iff).mp symbol
  have empty := o.ifNoneMatch_value symbol
  have delta := fencedDelta_lt last o.num o.num_bounds.2.1
  have noFence : fencepostCount o.num os = 0 := (fencepostCount_le o.num os rest).2 (by omega)
  have count : (o :: os).length + fencepostCount last (o :: os) =
      os.length + 1 + (fencepost last o.num).length := by
    rw [List.length_cons, fencepostCount, noFence]
    omega
  have whole := optBytes_length last o
  rw [empty, List.length_nil] at whole
  have size : optSize last o = (fencepost last o.num).length + ((if o.l > 14 then 2 else 1) + o.l) := by
    rw [optSize, Nat.add_assoc]
  have split : Holds pdu p (optBytes last o) ∧ Holds pdu (p + (optBytes last o).length) (encodedBytes o.num os) ∧
      ∀ x, p + (optBytes last o).length + (encodedBytes o.num os).length ≤ x →
        x < p + encodedSize last (o :: os) → pdu x = 0 := by
    rw [paddedBytes, encodedBytes, List.append_assoc, holds_append, holds_append] at held
    obtain ⟨first, second, gap⟩ := held
    refine ⟨first, second, ?_⟩
    intro x lower upper
    rw [holds_iff] at gap
    have here := gap (x - (p + (optBytes last o).length + (encodedBytes o.num os).length)) (by
      rw [List.length_replicate, List.length_append]
      omega)
    rw [List.getElem_replicate] at here
    rw [← here]
    apply congrArg pdu
    omega
  obtain ⟨bytes, second, gap⟩ := split
  have posts : Holds pdu p (fencepost last o.num) := by
    rw [optBytes, List.append_assoc, holds_append] at bytes
    exact bytes.1
  rw [count, walk_fencepost pdu _ last o.num p low o.num_bounds.2.1 posts] at walked
  have total := walk_decodedSize pdu _ _ (o :: os) _ walked
  obtain ⟨found, _, length, walkedRest⟩ := walk_full pdu _ _ o os _ walked
  obtain ⟨bound, exact'⟩ := decodedSize_le o.num os (by omega) rest
  rw [decodedSize, encodedSize, size] at total
  have notFifteen : o.l ≠ 15 ∧ ∀ x ∈ os, x.l ≠ 15 := by
    have own : o.l ≠ 15 := by
      intro fifteen
      split at total <;> split at total <;> omega
    refine ⟨own, exact' ?_⟩
    split at total <;> split at total <;> omega
  refine ⟨?_, ?_⟩
  · intro x member
    rcases List.mem_cons.mp member with here | later
    · exact here ▸ notFifteen.1
    · exact notFifteen.2 x later
  · have jump : optEndAt pdu (p + (fencepost last o.num).length) = p + optSize last o := by
      rw [optEndAt, optValueAt, length, size]
      split <;> split <;> omega
    rw [jump] at walkedRest
    rw [number] at rest second walkedRest gap
    have zero := zero_of_mirror pdu (p + (optBytes last o).length)
      (p + (optBytes last o).length + (encodedBytes 21 os).length) (p + encodedSize last (o :: os)) gap
      (fun x lower upper => walk_mirror pdu 21 (p + (optBytes last o).length) (p + optSize last o) os _ (by omega)
        rest (by omega) notFifteen.2 second walkedRest x lower upper)
    apply zero_options pdu (p + (optBytes last o).length) os rest second
    intro x lower upper
    apply zero x lower
    have fits := encodedBytes_length_le 21 os
    rw [encodedSize, number]
    omega

/-- A sequence that is read back from its padded bytes is faithful. -/
theorem faithful_of_walk (pdu : Nat → UInt8) (last p : Nat) (os : List EcOpt) (ascending : Ascending last os)
    (held : Holds pdu p (paddedBytes last os))
    (walked : walk pdu (os.length + fencepostCount last os) last p = some (os, p + encodedSize last os)) :
    WireFaithful os := by
  induction os generalizing last p with
  | nil => exact ⟨fun _ member => (List.not_mem_nil member).elim, List.Pairwise.nil⟩
  | cons o os ih =>
      rcases o.value_cases with copied | ⟨symbol, nonzero, _⟩
      · by_cases fifteen : o.l = 15
        · exact absurd walked (walk_fifteen pdu last p o os ascending.1 fifteen (by omega) held)
        · obtain ⟨low, rest⟩ := ascending
          have count : (o :: os).length + fencepostCount last (o :: os) =
              os.length + fencepostCount o.num os + 1 + (fencepost last o.num).length := by
            rw [List.length_cons, fencepostCount]
            omega
          rw [paddedBytes_copied last o os copied, holds_append] at held
          have whole := optBytes_length last o
          rw [count, walk_option pdu _ last p o low fifteen held.1] at walked
          obtain ⟨⟨tail, final⟩, walkedRest, same⟩ := Option.map_eq_some_iff.mp walked
          simp only [Prod.mk.injEq, List.cons.injEq, true_and] at same
          obtain ⟨rfl, rfl⟩ := same
          rw [encodedSize, ← Nat.add_assoc] at walkedRest
          have size : p + (optBytes last o).length = p + optSize last o := by omega
          have faithful := ih o.num (p + optSize last o) rest (size ▸ held.2) walkedRest
          refine ⟨?_, List.pairwise_cons.mpr ⟨?_, faithful.paddedLast⟩⟩
          · intro x member
            rcases List.mem_cons.mp member with here | later
            · exact here ▸ fifteen
            · exact faithful.notFifteen x later
          · intro x _ symbol nonzero
            rw [o.ifNoneMatch_value symbol] at copied
            exact absurd copied.symm nonzero
      · obtain ⟨notFifteen, zeros⟩ := walk_padded pdu last p o os ascending symbol nonzero held walked
        refine ⟨notFifteen, List.pairwise_cons.mpr ⟨fun x member _ _ => zeros x member, ?_⟩⟩
        apply List.Pairwise.imp_of_mem _ (List.pairwise_of_forall fun _ _ => trivial)
        intro a b memberA _ _ _ nonzero
        exact absurd (zeros a memberA).2 nonzero

/-- The datagram that the decoder is run on: a header, the first `enc_sz` bytes of the buffer, and the memory behind. -/
def datagramOf (header : Nat → UInt8) (opts : EcOpts) (beyond : Nat → UInt8) (i : Nat) : UInt8 :=
  if i < ecCoapHdrSize then header i
  else if i < ecCoapHdrSize + opts.encSz then opts.enc (i - ecCoapHdrSize)
  else beyond i

/-- Decoding what was encoded gives back the options, the code `EC_RC_UNSET` and the encoded size. -/
def RoundTrips (opts : EcOpts) (header beyond : Nat → UInt8) (olen : Nat) : Prop :=
  let encoded := (ecOptsEncode opts).1
  let decoded := ecOptsDecode ecOptsInit (datagramOf header encoded beyond) (ecCoapHdrSize + encoded.encSz)
    (UInt8.ofNat encoded.noptions) olen
  decoded.rc = ecRcUnset ∧ decoded.opts.bundle.list = opts.bundle.list ∧ decoded.olen = encoded.encSz

instance (opts : EcOpts) (header beyond : Nat → UInt8) (olen : Nat) :
    Decidable (RoundTrips opts header beyond olen) := inferInstanceAs (Decidable (_ ∧ _ ∧ _))

/-- The datagram holds the padded bytes behind its header. -/
theorem datagramOf_holds (opts : EcOpts) (header beyond : Nat → UInt8) (unencoded : opts.Unencoded) :
    Holds (datagramOf header opts.encoded beyond) ecCoapHdrSize (paddedBytes 0 opts.bundle.list) := by
  rw [holds_iff]
  intro i within
  rw [paddedBytes_length] at within
  have inside : ecCoapHdrSize + i < ecCoapHdrSize + opts.encoded.encSz := Nat.add_lt_add_left within _
  rw [datagramOf, if_neg (by omega), if_pos inside, Nat.add_sub_cancel_left]
  change overlay (encodedBytes 0 opts.bundle.list) opts.enc i = _
  rw [overlay, unencoded.zeroed]
  by_cases put : i < (encodedBytes 0 opts.bundle.list).length
  · rw [List.getD_eq_getElem?_getD, List.getElem?_eq_getElem put, Option.getD_some]
    simp only [paddedBytes]
    rw [List.getElem_append_left put]
  · rw [List.getD_eq_getElem?_getD, List.getElem?_eq_none (by omega), Option.getD_none]
    simp only [paddedBytes]
    rw [List.getElem_append_right (by omega), List.getElem_replicate]

/-- A set that encodes for the first time comes back from the decoder exactly when its sequence is faithful. -/
theorem roundTrips_iff_faithful (opts : EcOpts) (unencoded : opts.Unencoded) (encoded : (ecOptsEncode opts).2 = 0)
    (header beyond : Nat → UInt8) (olen : Nat) :
    RoundTrips opts header beyond olen ↔ WireFaithful opts.bundle.list := by
  have ascending := opts.bundle.ascending
  have one := (fencepostCount_le 0 opts.bundle.list ascending).1
  have within := unencoded.within
  rw [unencoded.counted] at within
  have count : (UInt8.ofNat opts.encoded.noptions).toNat =
      opts.bundle.list.length + fencepostCount 0 opts.bundle.list := by
    change (UInt8.ofNat (opts.noptions + fencepostCount 0 opts.bundle.list)).toNat = _
    rw [UInt8.toNat_ofNat', unencoded.counted]
    simp only [ecProtoMaxOptions] at within
    omega
  have held := datagramOf_holds opts header beyond unencoded
  unfold RoundTrips
  rw [ecOptsEncode_ok opts encoded]
  dsimp only
  rw [ecOptsDecode_iff_walk _ _ _ _ (Nat.le_add_right _ _) _ _ within, count]
  constructor
  · rintro ⟨stop, walked, consumed⟩
    have forward := walk_forward _ _ _ _ _ _ walked
    have size : stop - ecCoapHdrSize = encodedSize 0 opts.bundle.list := consumed
    rw [show stop = ecCoapHdrSize + encodedSize 0 opts.bundle.list by omega] at walked
    exact faithful_of_walk _ 0 ecCoapHdrSize _ ascending held walked
  · intro faithful
    exact ⟨_, walk_faithful _ 0 ecCoapHdrSize _ ascending faithful held, Nat.add_sub_cancel_left _ _⟩

/-- A built set that encodes comes back from the decoder exactly when its sequence is faithful. -/
theorem ecOptsDecode_encode_iff {order : ByteOrder} {isAbsolute : List UInt8 → Bool} (opts : EcOpts)
    (built : Built order isAbsolute opts) (encoded : (ecOptsEncode opts).2 = 0) (header beyond : Nat → UInt8)
    (olen : Nat) : RoundTrips opts header beyond olen ↔ WireFaithful opts.bundle.list :=
  roundTrips_iff_faithful opts built.unencoded encoded header beyond olen

/-- A set with one Uri-Path option of the given length. -/
def uriPathSet (length : Nat) : EcOpts := (ecOptsAddUriPath ecOptsInit (List.replicate length 97)).1

theorem uriPathSet_fourteen_roundTrips : RoundTrips (uriPathSet 14) (fun _ => 0) (fun _ => 255) 0 :=
  have built : Built .little (fun _ => true) (uriPathSet 14) :=
    Built.add Built.init (.uriPath (List.replicate 14 97)) (by decide)
  (ecOptsDecode_encode_iff (uriPathSet 14) built (by decide) (fun _ => 0) (fun _ => 255) 0).mpr (by decide)

/-- A path segment of 15 bytes does not come back. -/
theorem uriPathSet_fifteen_lost :
    Built .little (fun _ => true) (uriPathSet 15) ∧ (ecOptsEncode (uriPathSet 15)).2 = 0 ∧
      ¬ RoundTrips (uriPathSet 15) (fun _ => 0) (fun _ => 0) 0 := by
  have built : Built .little (fun _ => true) (uriPathSet 15) :=
    Built.add Built.init (.uriPath (List.replicate 15 97)) (by decide)
  exact ⟨built, by decide, by decide⟩

end Webthings.Evcoap
