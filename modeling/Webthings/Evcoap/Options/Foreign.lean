import Webthings.Evcoap.Options.Enclosed
import Webthings.Evcoap.Options.RoundTrip
import Mathlib.Data.List.GetD

namespace Webthings.Evcoap

/-- A well-formed option as any encoder may put it, with a number that the table need not hold. -/
structure WireOption where
  delta : Nat
  value : List UInt8
  near : delta ≤ 14
  fits : value.length ≤ ecCoapOptLenMax

/-- The length of the value decides between the one-byte and the two-byte form. -/
def WireOption.bytes (option : WireOption) : List UInt8 :=
  lengthBytes option.delta option.value.length ++ option.value

def wireBytes (options : List WireOption) : List UInt8 := options.flatMap WireOption.bytes

/-- A datagram whose header announces the well-formed options behind it. -/
structure ForeignPdu where
  header : List UInt8
  options : List WireOption
  payload : List UInt8
  headerSize : header.length = ecCoapHdrSize
  count : (rawOc header).toNat = options.length

def ForeignPdu.raw (pdu : ForeignPdu) : List UInt8 := pdu.header ++ (wireBytes pdu.options ++ pdu.payload)

/-- The call of the decoder on a received datagram, with a fresh set. -/
def ForeignPdu.decode (pdu : ForeignPdu) (beyond : Nat → UInt8) (olen : Nat) : Decoded :=
  ecOptsDecode ecOptsInit (rawMemory pdu.raw beyond) pdu.raw.length (rawOc pdu.raw) olen

/-- One of the options is critical and not in the table. -/
def HasCritical : Nat → List WireOption → Prop
  | _, [] => False
  | last, option :: options => UnknownCritical (last + option.delta) ∨ HasCritical (last + option.delta) options

def decidableHasCritical : (last : Nat) → (options : List WireOption) → Decidable (HasCritical last options)
  | _, [] => inferInstanceAs (Decidable False)
  | last, option :: options =>
      have := decidableHasCritical (last + option.delta) options
      inferInstanceAs (Decidable (_ ∨ _))

instance (last : Nat) (options : List WireOption) : Decidable (HasCritical last options) :=
  decidableHasCritical last options

/-- What a reader of an option set sees of an option. -/
structure OptionView where
  number : Nat
  length : Nat
  value : List UInt8
  deriving DecidableEq

def EcOpt.view (o : EcOpt) : OptionView := ⟨o.num, o.l, o.value⟩

/-- The options of the table, with their exact values. -/
def recognised : Nat → List WireOption → List OptionView
  | _, [] => []
  | last, option :: options =>
      (if ecOptNum2sym (last + option.delta) = .none then []
        else [⟨last + option.delta, option.value.length, option.value⟩]) ++ recognised (last + option.delta) options

/-- Foreign options are decoded exactly: an unknown critical one is refused, else those of the table are the set. -/
structure ForeignPdu.DecodesExactly (pdu : ForeignPdu) (beyond : Nat → UInt8) (olen : Nat) : Prop where
  badOption : (pdu.decode beyond olen).rc = ecBadOption ↔ HasCritical 0 pdu.options
  accepted : ¬ HasCritical 0 pdu.options → (pdu.decode beyond olen).rc = ecRcUnset ∧
    (pdu.decode beyond olen).opts.bundle.list.map EcOpt.view = recognised 0 pdu.options ∧
    (pdu.decode beyond olen).olen = (wireBytes pdu.options).length

/-- The stream from a cursor to a stop reads as the given options. -/
def ReadsAs (memory : Nat → UInt8) (last : Nat) (options : List WireOption) (p stop : Nat) : Prop :=
  (HasCritical last options ∧ walk memory options.length last p = none) ∨
    (¬ HasCritical last options ∧ ∃ found, walk memory options.length last p = some (found, stop) ∧
      found.map EcOpt.view = recognised last options)

/-- A decoded option keeps its value: If-None-Match has none to lose, and 15 bytes are not seen to be moved by one. -/
def WireOption.Retained (option : WireOption) (number : Nat) : Prop :=
  ecOptNum2sym number = .none ∨
    ((number = 21 → option.value = []) ∧ (option.value.length = 15 → option.value = List.replicate 15 0))

instance (option : WireOption) (number : Nat) : Decidable (option.Retained number) :=
  inferInstanceAs (Decidable (_ ∨ ((_ → _) ∧ (_ → _))))

/-- The cursor stays in step up to the first unknown critical option. Where a length of 15 makes it fall behind by one
byte, the options behind must read the same from there. -/
def InStep (memory : Nat → UInt8) : Nat → List WireOption → Nat → Prop
  | _, [], _ => True
  | last, option :: options, p =>
      let number := last + option.delta
      UnknownCritical number ∨
        ((¬ HasCritical number options → option.Retained number) ∧
          if option.value.length = 15 then
            ReadsAs memory number options (p + 16) (p + 17 + (wireBytes options).length)
          else InStep memory number options (p + option.bytes.length))

theorem WireOption.bytes_length (option : WireOption) :
    option.bytes.length = (if option.value.length > 14 then 2 else 1) + option.value.length := by
  unfold WireOption.bytes
  rw [List.length_append, lengthBytes_length]

theorem wireBytes_cons (option : WireOption) (options : List WireOption) :
    wireBytes (option :: options) = option.bytes ++ wireBytes options := rfl

/-- Fenceposts are not in the table. -/
theorem skipThis_iff (number length : Nat) : SkipThis number length ↔ ecOptNum2sym number = .none := by
  constructor
  · intro skipped
    cases skipped with
    | inl unknown => exact unknown
    | inr empty =>
        by_cases above : 23 < number
        · exact ecOptNum2sym_above number above
        · have table : ∀ n : Fin 24, ecOptNumIsFencepost n.val = true → ecOptNum2sym n.val = .none := by decide
          exact table ⟨number, by omega⟩ empty.2
  · exact Or.inl

/-- The value that `ec_opt_new` keeps of the bytes it gets. -/
theorem ecOptNew_value {sym : EcOptSym} {v : List UInt8} {o : EcOpt} (created : ecOptNew sym v = some o) :
    o.value = if sym = .ifNoneMatch then [] else v := by
  obtain ⟨symbol, length, copied⟩ := ecOptNew_some created
  by_cases empty : sym = .ifNoneMatch
  · rw [if_pos empty]
    exact o.ifNoneMatch_value (symbol.trans empty)
  · rw [if_neg empty]
    have shape := o.shape
    unfold EcOpt.value
    cases buffer : o.v with
    | none =>
        rw [buffer, symbol] at shape
        cases shape with
        | inl isEmpty => exact absurd ((ecOptSym2type_empty sym).mp isEmpty) empty
        | inr uint =>
            rw [uint.2] at length
            exact (List.length_eq_zero_iff.mp length.symm).symm
    | some bytes => exact copied bytes buffer

/-- What a record contributes, as a reader of the set sees it. -/
theorem recordOption_view (memory : Nat → UInt8) (last p : Nat) :
    (recordOption memory last p).toList.map EcOpt.view =
      if ecOptNum2sym (optNumAt memory last p) = .none then []
      else [⟨optNumAt memory last p, optLenAt memory p,
        if optNumAt memory last p = 21 then [] else bytesAt memory (optValueAt memory p) (optLenAt memory p)⟩] := by
  cases recordOption_cases memory last p with
  | inl skipped =>
      rw [skipped.2, if_pos ((skipThis_iff _ _).mp skipped.1)]
      rfl
  | inr kept =>
      obtain ⟨known, o, found, created, symbol, length, number⟩ := kept
      have empty : ecOptNum2sym (optNumAt memory last p) = .ifNoneMatch ↔ optNumAt memory last p = 21 := by
        rw [← symbol, ← number]
        exact o.ifNoneMatch_iff
      have view : o.view = ⟨o.num, o.l, o.value⟩ := rfl
      rw [found, if_neg fun unknown => known ((skipThis_iff _ _).mpr unknown)]
      simp only [Option.toList_some, List.map_cons, List.map_nil, view, number, length, ecOptNew_value created, empty]

/-- The value of 15 bytes is read from its extension byte on. -/
theorem shifted_iff (value : List UInt8) (fifteen : value.length = 15) :
    0 :: value.take 14 = value ↔ value = List.replicate 15 0 := by
  constructor
  · intro same
    apply List.ext_getElem (by rw [fifteen, List.length_replicate])
    intro i within _
    rw [List.getElem_replicate]
    induction i with
    | zero => rw [← List.getElem_of_eq same (by simp)]; rfl
    | succ i ih =>
        have earlier := ih (by omega) (by rw [List.length_replicate]; omega)
        rw [← List.getElem_of_eq same (by simp; omega)]
        rw [List.getElem_cons_succ, List.getElem_take]
        exact earlier
  · intro zeros
    rw [zeros]
    rfl

theorem bytesAt_succ (memory : Nat → UInt8) (p n : Nat) :
    bytesAt memory p (n + 1) = memory p :: bytesAt memory (p + 1) n := by
  unfold bytesAt
  rw [List.range_succ_eq_map, List.map_cons, List.map_map]
  refine List.cons_eq_cons.mpr ⟨rfl, List.map_congr_left fun i _ => ?_⟩
  rw [Function.comp_apply, Nat.add_assoc, Nat.add_comm 1 i]

theorem bytesAt_take (memory : Nat → UInt8) (p n : Nat) : (bytesAt memory p (n + 1)).take n = bytesAt memory p n := by
  unfold bytesAt
  rw [← List.map_take, List.take_range, Nat.min_eq_left (Nat.le_succ n)]

/-- How the decoder reads the bytes of a well-formed option. -/
theorem WireOption.read {memory : Nat → UInt8} {p : Nat} {option : WireOption} (last : Nat)
    (held : Holds memory p option.bytes) :
    optNumAt memory last p = last + option.delta ∧ optLenAt memory p = option.value.length ∧
      (option.value.length ≠ 15 → optEndAt memory p = p + option.bytes.length ∧
        bytesAt memory (optValueAt memory p) (optLenAt memory p) = option.value) ∧
      (option.value.length = 15 → optEndAt memory p = p + 16 ∧
        bytesAt memory (optValueAt memory p) (optLenAt memory p) = 0 :: option.value.take 14) := by
  have near := option.near
  have split := held
  unfold WireOption.bytes at split
  rw [holds_append, lengthBytes_length] at split
  obtain ⟨number, length⟩ := lengthBytes_read memory last p option.delta option.value.length (by omega) option.fits split.1
  refine ⟨number, length, fun notFifteen => ?_, fun fifteen => ?_⟩
  · have start : optValueAt memory p = p + if option.value.length > 14 then 2 else 1 := by
      rw [optValueAt, length]
      by_cases long : option.value.length > 14
      · rw [if_pos long, if_pos (by omega)]
      · rw [if_neg long, if_neg (by omega)]
    refine ⟨?_, ?_⟩
    · rw [optEndAt, start, length, option.bytes_length, Nat.add_assoc]
    · rw [start, length]
      exact split.2
  · have start : optValueAt memory p = p + 1 := by
      rw [optValueAt, length, if_neg (by omega)]
    have extension : memory (p + 1) = 0 := by
      have lengths := split.1
      rw [fifteen, lengthBytes, if_pos (by decide), holds_cons, holds_cons] at lengths
      exact lengths.2.1
    refine ⟨by rw [optEndAt, start, length, fifteen], ?_⟩
    have value := split.2
    rw [if_pos (by omega), Holds, fifteen] at value
    rw [start, length, fifteen, bytesAt_succ, extension, ← value, bytesAt_take]

/-- The value that is kept of the bytes at the cursor is the exact one when the option retains it. -/
theorem WireOption.retained_iff {option : WireOption} {number : Nat} {copied : List UInt8}
    (synced : option.value.length ≠ 15 → copied = option.value)
    (slipped : option.value.length = 15 → copied = 0 :: option.value.take 14) :
    ecOptNum2sym number = .none ∨ (if number = 21 then [] else copied) = option.value ↔ option.Retained number := by
  apply or_congr_right
  by_cases fifteen : option.value.length = 15
  · have some : option.value ≠ [] := by
      intro empty
      rw [empty] at fifteen
      cases fifteen
    rw [slipped fifteen, ← shifted_iff option.value fifteen]
    by_cases empty : number = 21
    · simp only [empty, if_true, forall_const, fifteen, some, false_and, iff_false]
      exact Ne.symm some
    · simp only [empty, if_false, false_implies, fifteen, forall_const, true_and]
  · rw [synced fifteen]
    by_cases empty : number = 21
    · simp only [empty, if_true, forall_const, fifteen, false_implies, and_true]
      exact eq_comm
    · simp only [empty, if_false, false_implies, fifteen, true_and]

/-- The options of a stream add up. -/
theorem readsAs_cons {memory : Nat → UInt8} {last p stop : Nat} {option : WireOption} {options : List WireOption}
    (held : Holds memory p option.bytes) (elective : ¬ UnknownCritical (last + option.delta)) :
    ReadsAs memory last (option :: options) p stop ↔
      (¬ HasCritical (last + option.delta) options → option.Retained (last + option.delta)) ∧
        ReadsAs memory (last + option.delta) options (optEndAt memory p) stop := by
  obtain ⟨number, length, synced, slipped⟩ := option.read last held
  have critical : HasCritical last (option :: options) ↔ HasCritical (last + option.delta) options :=
    or_iff_right elective
  have retained : (recordOption memory last p).toList.map EcOpt.view =
      (if ecOptNum2sym (last + option.delta) = .none then []
        else [⟨last + option.delta, option.value.length, option.value⟩]) ↔
      option.Retained (last + option.delta) := by
    rw [recordOption_view, number, ← option.retained_iff (synced · |>.2) (slipped · |>.2), length]
    by_cases unknown : ecOptNum2sym (last + option.delta) = .none
    · simp only [unknown, if_true, true_or]
    · simp only [unknown, if_false, false_or, List.cons.injEq, OptionView.mk.injEq, true_and, and_true]
  have views : ∀ found : List EcOpt,
      ((recordOption memory last p).toList ++ found).map EcOpt.view = recognised last (option :: options) ↔
        option.Retained (last + option.delta) ∧ found.map EcOpt.view = recognised (last + option.delta) options := by
    intro found
    rw [List.map_append, recognised, ← retained]
    refine ⟨fun same => List.append_inj same ?_, fun both => by rw [both.1, both.2]⟩
    rw [recordOption_view, number]
    split <;> rfl
  have step : walk memory (option :: options).length last p =
      (walk memory options.length (last + option.delta) (optEndAt memory p)).map fun rest =>
        ((recordOption memory last p).toList ++ rest.1, rest.2) := by
    rw [List.length_cons, walk, number, if_neg elective]
  unfold ReadsAs
  rw [critical, step]
  by_cases some : HasCritical (last + option.delta) options
  · simp only [some, not_true_eq_false, false_implies, true_and, false_and, or_false, Option.map_eq_none_iff]
  · simp only [some, not_false_eq_true, forall_const, true_and, false_and, false_or, Option.map_eq_some_iff,
      Prod.mk.injEq, Prod.exists]
    constructor
    · intro exact
      obtain ⟨_, ⟨found, stop', walked, rfl, rfl⟩, same⟩ := exact
      exact ⟨((views found).mp same).1, found, walked, ((views found).mp same).2⟩
    · intro exact
      obtain ⟨kept, found, walked, same⟩ := exact
      exact ⟨_, ⟨found, stop, walked, rfl, rfl⟩, (views found).mpr ⟨kept, same⟩⟩

/-- A stream of well-formed options reads as these exactly when the cursor stays in step. -/
theorem readsAs_iff_inStep (memory : Nat → UInt8) (last p : Nat) (options : List WireOption)
    (held : Holds memory p (wireBytes options)) :
    ReadsAs memory last options p (p + (wireBytes options).length) ↔ InStep memory last options p := by
  induction options generalizing last p with
  | nil =>
      unfold InStep
      refine iff_true_intro (Or.inr ⟨id, [], rfl, rfl⟩)
  | cons option options ih =>
      rw [wireBytes_cons, holds_append] at held
      obtain ⟨here, behind⟩ := held
      obtain ⟨number, _, synced, slipped⟩ := option.read last here
      unfold InStep
      by_cases critical : UnknownCritical (last + option.delta)
      · refine iff_of_true (Or.inl ⟨Or.inl critical, ?_⟩) (Or.inl critical)
        rw [List.length_cons, walk, number, if_pos critical]
      · rw [readsAs_cons here critical, or_iff_right critical, wireBytes_cons, List.length_append]
        apply and_congr_right
        intro _
        by_cases fifteen : option.value.length = 15
        · have size : option.bytes.length = 17 := by rw [option.bytes_length, fifteen, if_pos (by decide)]
          rw [if_pos fifteen, (slipped fifteen).1, size, ← Nat.add_assoc]
        · rw [if_neg fifteen, (synced fifteen).1, ← Nat.add_assoc]
          exact ih _ _ behind

/-- Options without a length of 15, and no If-None-Match with a value, keep any cursor in step. -/
theorem inStep_of_plain (memory : Nat → UInt8) (last p : Nat) (options : List WireOption)
    (plain : ∀ option ∈ options, option.value.length ≠ 15)
    (empty : ∀ view ∈ recognised last options, view.number = 21 → view.value = []) :
    InStep memory last options p := by
  induction options generalizing last p with
  | nil => trivial
  | cons option options ih =>
      have notFifteen := plain option List.mem_cons_self
      unfold InStep
      refine Or.inr ⟨fun _ => ?_, ?_⟩
      · by_cases unknown : ecOptNum2sym (last + option.delta) = .none
        · exact Or.inl unknown
        · refine Or.inr ⟨fun number => ?_, fun fifteen => absurd fifteen notFifteen⟩
          refine empty ⟨last + option.delta, option.value.length, option.value⟩ ?_ number
          rw [recognised, if_neg unknown]
          exact List.mem_cons_self
      · rw [if_neg notFifteen]
        apply ih
        · intro other member
          exact plain other (List.mem_cons_of_mem option member)
        · intro view member
          refine empty view ?_
          rw [recognised]
          exact List.mem_append_right _ member

/-- A loop that has room for every record stops at an unknown critical option or finishes. -/
theorem decodeLoop_badOption (memory : Nat → UInt8) (n : Nat) (d : Decoder)
    (room : d.opts.noptions + n ≤ ecProtoMaxOptions) (refused : walk memory n d.optNum d.optP = none) :
    (decodeLoop memory n d).2 = ecBadOption := by
  induction n generalizing d with
  | zero => cases refused
  | succ n ih =>
      rw [walk] at refused
      rw [decodeLoop]
      rcases decodeOpt_cases memory d with ⟨_, stepped⟩ | ⟨elective, _, stepped⟩ |
        ⟨elective, _, _, _, ⟨_, stepped⟩ | ⟨full, _⟩⟩
      · rw [stepped]
        rfl
      · rw [if_neg elective] at refused
        rw [stepped, if_pos rfl]
        exact ih _ (by dsimp only; omega) (Option.map_eq_none_iff.mp refused)
      · rw [if_neg elective] at refused
        rw [stepped, if_pos rfl]
        exact ih _ (by dsimp only; omega) (Option.map_eq_none_iff.mp refused)
      · omega

theorem ForeignPdu.rawOc_raw (pdu : ForeignPdu) : rawOc pdu.raw = rawOc pdu.header := by
  have size := pdu.headerSize
  unfold ForeignPdu.raw rawOc
  rw [List.getD_append _ _ _ _ (by rw [size]; decide)]

theorem ForeignPdu.held (pdu : ForeignPdu) (beyond : Nat → UInt8) :
    Holds (rawMemory pdu.raw beyond) ecCoapHdrSize (wireBytes pdu.options) := by
  rw [holds_iff]
  intro i within
  unfold rawMemory ForeignPdu.raw
  rw [← pdu.headerSize, List.getD_append_right _ _ _ _ (Nat.le_add_right _ _), Nat.add_sub_cancel_left,
    List.getD_append _ _ _ _ within, List.getD_eq_getElem _ _ within]

/-- The call of the decoder refuses or reads as its walk does. -/
theorem ForeignPdu.decodesExactly_readsAs (pdu : ForeignPdu) (beyond : Nat → UInt8) (olen : Nat) :
    pdu.DecodesExactly beyond olen ↔
      ReadsAs (rawMemory pdu.raw beyond) 0 pdu.options ecCoapHdrSize (ecCoapHdrSize + (wireBytes pdu.options).length) := by
  have header : ecCoapHdrSize ≤ pdu.raw.length := by
    unfold ForeignPdu.raw
    rw [List.length_append, pdu.headerSize]
    exact Nat.le_add_right _ _
  have count : (rawOc pdu.raw).toNat = pdu.options.length := by rw [pdu.rawOc_raw, pdu.count]
  have room : pdu.options.length ≤ ecProtoMaxOptions := by
    rw [← count]
    exact rawOc_le pdu.raw
  have accepted := ecOptsDecode_iff_walk (rawMemory pdu.raw beyond) pdu.raw.length (rawOc pdu.raw) olen header
  rw [count] at accepted
  have refused : walk (rawMemory pdu.raw beyond) pdu.options.length 0 ecCoapHdrSize = none →
      (pdu.decode beyond olen).rc = ecBadOption := by
    intro none
    have some : rawOc pdu.raw ≠ 0 := by
      intro zero
      rw [zero] at count
      rw [← count] at none
      cases none
    have loop := decodeLoop_badOption (rawMemory pdu.raw beyond) pdu.options.length ⟨ecOptsInit, 0, ecCoapHdrSize, []⟩
      (by rw [show ecOptsInit.noptions = 0 from rfl, Nat.zero_add]; exact room) none
    unfold ForeignPdu.decode ecOptsDecode
    rw [if_neg (Nat.not_lt.mpr header), if_neg some, count]
    exact loop
  have finished : ∀ found stop, walk (rawMemory pdu.raw beyond) pdu.options.length 0 ecCoapHdrSize = some (found, stop) →
      (pdu.decode beyond olen).rc = ecRcUnset ∧ (pdu.decode beyond olen).opts.bundle.list = found ∧
        (pdu.decode beyond olen).olen = stop - ecCoapHdrSize := by
    intro found stop walked
    have few := walk_length_le _ _ _ _ _ _ walked
    exact (accepted found (stop - ecCoapHdrSize) (Nat.le_trans few room)).mpr ⟨stop, walked, rfl⟩
  unfold ReadsAs
  by_cases critical : HasCritical 0 pdu.options
  · simp only [critical, true_and, not_true_eq_false, false_and, or_false]
    constructor
    · intro exact
      have code := exact.badOption.mpr critical
      cases walked : walk (rawMemory pdu.raw beyond) pdu.options.length 0 ecCoapHdrSize with
      | none => rfl
      | some rest =>
          rw [(finished rest.1 rest.2 walked).1] at code
          cases code
    · intro none
      exact ⟨iff_of_true (refused none) critical, fun elective => absurd critical elective⟩
  · simp only [critical, false_and, not_false_eq_true, true_and, false_or]
    constructor
    · intro exact
      obtain ⟨code, views, size⟩ := exact.accepted critical
      cases walked : walk (rawMemory pdu.raw beyond) pdu.options.length 0 ecCoapHdrSize with
      | none =>
          rw [refused walked] at code
          cases code
      | some rest =>
          obtain ⟨_, same, stop⟩ := finished rest.1 rest.2 walked
          have forward := walk_forward _ _ _ _ _ _ walked
          rw [size] at stop
          refine ⟨rest.1, ?_, by rw [← same]; exact views⟩
          rw [stop, Nat.add_sub_cancel' forward]
    · intro exact
      obtain ⟨found, walked, views⟩ := exact
      obtain ⟨code, same, stop⟩ := finished found _ walked
      rw [Nat.add_sub_cancel_left] at stop
      refine ⟨iff_of_false ?_ critical, fun _ => ⟨code, by rw [same]; exact views, stop⟩⟩
      rw [code]
      decide

/-- Foreign options without a length of 15, and no If-None-Match with a value, are decoded exactly. -/
theorem ForeignPdu.plain_decodesExactly (pdu : ForeignPdu) (beyond : Nat → UInt8) (olen : Nat)
    (plain : ∀ option ∈ pdu.options, option.value.length ≠ 15)
    (empty : ∀ view ∈ recognised 0 pdu.options, view.number = 21 → view.value = []) :
    pdu.DecodesExactly beyond olen := by
  rw [pdu.decodesExactly_readsAs, readsAs_iff_inStep _ _ _ _ (pdu.held beyond)]
  exact inStep_of_plain _ _ _ _ plain empty

/-- Foreign options are decoded exactly when the cursor stays in step with them. -/
theorem decodesExactly_iff (pdu : ForeignPdu) (beyond : Nat → UInt8) (olen : Nat) :
    pdu.DecodesExactly beyond olen ↔ InStep (rawMemory pdu.raw beyond) 0 pdu.options ecCoapHdrSize := by
  rw [pdu.decodesExactly_readsAs]
  exact readsAs_iff_inStep _ _ _ _ (pdu.held beyond)

/-- A GET with a fencepost that has a value, an elective option 26 and a path segment. -/
def electiveGet : ForeignPdu where
  header := [0x43, 1, 0, 7]
  options := [⟨9, [0x61], by decide, by decide⟩, ⟨5, [1, 2], by decide, by decide⟩, ⟨12, [], by decide, by decide⟩]
  payload := [0x21]
  headerSize := rfl
  count := rfl

example : (electiveGet.decode (fun _ => 0) 0).opts.bundle.list.map EcOpt.view = [⟨9, 1, [0x61]⟩] := by decide

/-- A GET for a path segment of 15 bytes. -/
def longSegmentGet : ForeignPdu where
  header := [0x41, 1, 0, 7]
  options := [⟨9, List.replicate 15 0x61, by decide, by decide⟩]
  payload := []
  headerSize := rfl
  count := rfl

/-- The path segment comes out with another value, and the options with another length. -/
theorem longSegmentGet_misread : ¬ ∀ pdu beyond olen, ForeignPdu.DecodesExactly pdu beyond olen := by
  intro always
  have accepted := (always longSegmentGet (fun _ => 0) 0).accepted (by decide)
  exact absurd accepted.2.2 (by decide)

end Webthings.Evcoap
