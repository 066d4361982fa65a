import Webthings.Evcoap.Options.Frame

namespace Webthings.Evcoap

/-- The walk from the tail passes the options of the higher symbols only. -/
theorem Bundle.insert_between (b : Bundle) (o : EcOpt) :
    (b.insert o).list = (b.list.filter fun x => x.sym.value ≤ o.sym.value) ++
      o :: b.list.filter fun x => o.sym.value < x.sym.value := by
  obtain ⟨list, ordered⟩ := b
  have falling : list.reverse.Pairwise descends := List.pairwise_reverse.mpr ordered
  have inserted : ∀ reversed : List EcOpt, reversed.Pairwise descends →
      reversed.orderedInsert descends o = (reversed.filter fun x => o.sym.value < x.sym.value) ++
        o :: reversed.filter fun x => x.sym.value ≤ o.sym.value := by
    intro reversed
    induction reversed with
    | nil => intro _; rfl
    | cons x rest inductionHypothesis =>
        intro sorted
        obtain ⟨first, later⟩ := List.pairwise_cons.mp sorted
        by_cases low : x.sym.value ≤ o.sym.value
        · have none : rest.filter (fun y => o.sym.value < y.sym.value) = [] := by
            rw [List.filter_eq_nil_iff]
            intro y member
            have below : y.sym.value ≤ x.sym.value := first y member
            simp only [decide_eq_true_eq]
            omega
          have all : rest.filter (fun y => y.sym.value ≤ o.sym.value) = rest := by
            rw [List.filter_eq_self]
            intro y member
            have below : y.sym.value ≤ x.sym.value := first y member
            simp only [decide_eq_true_eq]
            omega
          rw [List.orderedInsert_cons_of_le descends rest low, List.filter_cons_of_neg (by simpa using low),
            List.filter_cons_of_pos (by simpa using low), none, all]
          rfl
        · rw [List.orderedInsert_of_not_le descends rest low, inductionHypothesis later,
            List.filter_cons_of_pos (by simpa using low), List.filter_cons_of_neg (by simpa using low)]
          rfl
  change (list.reverse.orderedInsert descends o).reverse = _
  rw [inserted _ falling, List.reverse_append, List.reverse_cons, List.append_assoc, List.filter_reverse,
    List.filter_reverse, List.reverse_reverse, List.reverse_reverse]
  rfl

/-- A queue consists of its options up to a symbol and of those of the higher ones. -/
theorem Bundle.split (b : Bundle) (sym : EcOptSym) :
    (b.list.filter fun x => x.sym.value ≤ sym.value) ++ (b.list.filter fun x => sym.value < x.sym.value) = b.list := by
  obtain ⟨list, ordered⟩ := b
  dsimp only
  induction list with
  | nil => rfl
  | cons x rest inductionHypothesis =>
      obtain ⟨first, later⟩ := List.pairwise_cons.mp ordered
      have whole := inductionHypothesis later
      by_cases low : x.sym.value ≤ sym.value
      · rw [List.filter_cons_of_pos (by simpa using low), List.filter_cons_of_neg (by simpa using low),
          List.cons_append, whole]
      · have none : rest.filter (fun y => y.sym.value ≤ sym.value) = [] := by
          rw [List.filter_eq_nil_iff]
          intro y member
          have above := first y member
          simp only [decide_eq_true_eq]
          omega
        rw [none] at whole
        rw [List.filter_cons_of_neg (by simpa using low), List.filter_cons_of_pos (by simpa using low), none,
          List.nil_append]
        exact congrArg (x :: ·) whole

/-- The slots that a value of this length takes. -/
def optSlots (l : Nat) : Nat := max 1 ((l + (ecCoapOptLenMax - 1)) / ecCoapOptLenMax)

theorem optSlots_eq (l : Nat) :
    (l / ecCoapOptLenMax + if l % ecCoapOptLenMax ≠ 0 ∨ l = 0 then 1 else 0) = optSlots l := by
  unfold optSlots
  by_cases last : l % ecCoapOptLenMax ≠ 0 ∨ l = 0
  · rw [if_pos last]
    simp only [ecCoapOptLenMax] at last ⊢
    omega
  · rw [if_neg last]
    simp only [ecCoapOptLenMax] at last ⊢
    omega

theorem optSegments_length (v : List UInt8) : (optSegments v).length = optSlots v.length := by
  rw [← optSlots_eq]
  unfold optSegments
  simp only [List.length_append, List.length_map, List.length_range]
  split <;> rfl

/-- The first full segments of a value are a prefix of it. -/
theorem fullSegments_flatten (v : List UInt8) (width count : Nat) :
    ((List.range count).map fun nseg => (v.drop (nseg * width)).take width).flatten = v.take (count * width) := by
  induction count with
  | zero => simp
  | succ count inductionHypothesis =>
      rw [List.range_succ, List.map_append, List.flatten_append, inductionHypothesis, Nat.succ_mul, List.take_add]
      simp

/-- Nothing is lost where a value is cut. -/
theorem optSegments_flatten (v : List UInt8) : (optSegments v).flatten = v := by
  unfold optSegments
  dsimp only
  rw [List.flatten_append, fullSegments_flatten]
  split
  · rw [List.flatten_singleton, List.take_append_drop]
  · have whole : v.length / ecCoapOptLenMax * ecCoapOptLenMax = v.length := by
      simp only [ecCoapOptLenMax] at *
      omega
    rw [whole, List.take_length]
    exact List.append_nil v

theorem optSegments_fit (v : List UInt8) : ∀ segment ∈ optSegments v, segment.length ≤ ecCoapOptLenMax := by
  intro segment member
  unfold optSegments at member
  dsimp only at member
  rcases List.mem_append.mp member with full | last
  · obtain ⟨nseg, _, rfl⟩ := List.mem_map.mp full
    exact List.length_take_le _ _
  · split at last
    · rw [List.mem_singleton.mp last, List.length_drop]
      simp only [ecCoapOptLenMax]
      omega
    · exact absurd last List.not_mem_nil

/-- The bytes that an option of this symbol keeps of a segment. -/
def keptBytes (sym : EcOptSym) (segment : List UInt8) : List UInt8 := if ecOptCopies sym then segment else []

theorem ecOptNew_kept {sym : EcOptSym} {v : List UInt8} {o : EcOpt} (created : ecOptNew sym v = some o) :
    o.value = keptBytes sym v := by
  unfold ecOptNew at created
  unfold keptBytes ecOptCopies EcOpt.value
  split_ifs at created with fits valid empty zero
  · cases created
    simp [empty]
  · cases created
    have none : v = [] := List.length_eq_zero_iff.mp zero.2
    simp [none]
  · cases created
    simp [empty]

/-- What was added to a set: options of one symbol, behind those that it had of this symbol and of the lower ones. -/
structure Fragmented (opts : EcOpts) (sym : EcOptSym) (segments : List (List UInt8)) (added : EcOpts) : Prop where
  buffer : added.enc = opts.enc ∧ added.encSz = opts.encSz
  counted : added.noptions = opts.noptions + segments.length
  placed : ∃ os : List EcOpt, added.bundle.list =
      (opts.bundle.list.filter fun x => x.sym.value ≤ sym.value) ++ os ++
        opts.bundle.list.filter (fun x => sym.value < x.sym.value) ∧
    (∀ o ∈ os, o.sym = sym) ∧ os.map EcOpt.l = segments.map List.length ∧
      os.map EcOpt.value = segments.map (keptBytes sym)

/-- Segments that fit, and for which there is room, all become options. -/
theorem ecOptsAddSegments_fragmented {sym : EcOptSym} (valid : sym.Valid) (segments : List (List UInt8))
    (fit : ∀ segment ∈ segments, segment.length ≤ ecCoapOptLenMax) (opts : EcOpts)
    (room : opts.noptions + segments.length ≤ ecProtoMaxOptions) :
    (ecOptsAddSegments sym segments opts).2 = 0 ∧
      Fragmented opts sym segments (ecOptsAddSegments sym segments opts).1 := by
  induction segments generalizing opts with
  | nil =>
      refine ⟨rfl, ⟨rfl, rfl⟩, rfl, [], ?_, by simp, rfl, rfl⟩
      rw [List.append_nil]
      exact (opts.bundle.split sym).symm
  | cons segment segments inductionHypothesis =>
      obtain ⟨o, created⟩ := Option.isSome_iff_exists.mp
        ((ecOptNew_isSome sym segment).mpr ⟨fit segment List.mem_cons_self, valid⟩)
      obtain ⟨symbol, length, _⟩ := ecOptNew_some created
      have space : opts.noptions + 1 + segments.length ≤ ecProtoMaxOptions := by
        rw [List.length_cons] at room
        omega
      have one : ecOptsAdd opts sym segment =
          ({opts with noptions := opts.noptions + 1, bundle := opts.bundle.insert o}, 0) := by
        unfold ecOptsAdd ecOptsPush
        rw [created]
        dsimp only
        rw [if_neg (by omega)]
      obtain ⟨succeeded, ⟨buffer, counted, os, list, symbols, lengths, values⟩⟩ :=
        inductionHypothesis (fun x member => fit x (List.mem_cons_of_mem _ member))
          {opts with noptions := opts.noptions + 1, bundle := opts.bundle.insert o} space
      rw [ecOptsAddSegments, one, if_pos rfl]
      refine ⟨succeeded, buffer, ?_, o :: os, ?_, ?_, ?_, ?_⟩
      · rw [counted, List.length_cons]
        dsimp only
        omega
      · rw [list]
        dsimp only
        have low : (opts.bundle.insert o).list.filter (fun x => x.sym.value ≤ sym.value) =
            (opts.bundle.list.filter fun x => x.sym.value ≤ sym.value) ++ [o] := by
          rw [Bundle.insert_between, symbol, List.filter_append, List.filter_cons_of_pos (by simp [symbol]),
            List.filter_filter, List.filter_filter]
          simp
        have high : (opts.bundle.insert o).list.filter (fun x => sym.value < x.sym.value) =
            opts.bundle.list.filter fun x => sym.value < x.sym.value := by
          rw [Bundle.insert_between, symbol, List.filter_append, List.filter_cons_of_neg (by simp [symbol]),
            List.filter_filter, List.filter_filter]
          simp
        rw [low, high, List.append_assoc, List.append_assoc, List.append_assoc]
        rfl
      · intro x member
        rcases List.mem_cons.mp member with rfl | later
        · exact symbol
        · exact symbols x later
      · rw [List.map_cons, List.map_cons, lengths, length]
      · rw [List.map_cons, List.map_cons, values, ecOptNew_kept created]

/-- A call either adds its segments or leaves the set, because the symbol is no option or the slots do not suffice. -/
theorem ecOptsAddRaw_cases (opts : EcOpts) (sym : EcOptSym) (v : List UInt8) :
    (ecOptsAddRaw opts sym v = (opts, -1) ∧
        (¬ sym.Valid ∨ ecProtoMaxOptions < opts.noptions + optSlots v.length)) ∨
      (sym.Valid ∧ opts.noptions + optSlots v.length ≤ ecProtoMaxOptions ∧ (ecOptsAddRaw opts sym v).2 = 0 ∧
        Fragmented opts sym (optSegments v) (ecOptsAddRaw opts sym v).1) := by
  have slots := optSegments_length v
  unfold ecOptsAddRaw
  dsimp only
  rw [optSlots_eq]
  by_cases room : opts.noptions + optSlots v.length > ecProtoMaxOptions
  · rw [if_pos room]
    exact Or.inl ⟨rfl, Or.inr room⟩
  · rw [if_neg room]
    by_cases valid : sym.Valid
    · obtain ⟨succeeded, fragmented⟩ := ecOptsAddSegments_fragmented valid (optSegments v) (optSegments_fit v) opts
        (by omega)
      exact Or.inr ⟨valid, by omega, succeeded, fragmented⟩
    · refine Or.inl ⟨?_, Or.inl valid⟩
      have refused : ∀ segment, ecOptsAdd opts sym segment = (opts, -1) := by
        intro segment
        have none : ecOptNew sym segment = Option.none := by
          cases created : ecOptNew sym segment with
          | none => rfl
          | some o => exact absurd ((ecOptNew_isSome sym segment).mp (by rw [created]; rfl)).2 valid
        unfold ecOptsAdd
        rw [none]
      have one : 0 < optSlots v.length := Nat.lt_of_lt_of_le Nat.one_pos (Nat.le_max_left _ _)
      cases segments : optSegments v with
      | nil =>
          rw [segments] at slots
          exact absurd slots (Nat.ne_of_lt one)
      | cons segment rest =>
          rw [ecOptsAddSegments, refused]
          rfl

/-- The fragments of a value: either the slots do not suffice and nothing happens, or the value is cut into options of
the symbol, as many as it takes, behind those that the set had of it. -/
def AddsFragments (opts : EcOpts) (sym : EcOptSym) (v : List UInt8) : Prop :=
  (ecProtoMaxOptions - opts.noptions < optSlots v.length ∧ ecOptsAddRaw opts sym v = (opts, -1)) ∨
    ((ecOptsAddRaw opts sym v).2 = 0 ∧ (ecOptsAddRaw opts sym v).1.noptions = opts.noptions + optSlots v.length ∧
      ∃ os : List EcOpt, (ecOptsAddRaw opts sym v).1.bundle.list =
          (opts.bundle.list.filter fun x => x.sym.value ≤ sym.value) ++ os ++
            opts.bundle.list.filter (fun x => sym.value < x.sym.value) ∧
        os.length = optSlots v.length ∧ (∀ o ∈ os, o.sym = sym ∧ o.l ≤ ecCoapOptLenMax) ∧
          (os.map EcOpt.value).flatten = v)

/-- What the options keep of the segments of a value is all of it or nothing. -/
theorem keptSegments (sym : EcOptSym) (v : List UInt8) :
    ((optSegments v).map (keptBytes sym)).flatten = keptBytes sym v := by
  unfold keptBytes
  split
  · rw [List.map_id'', optSegments_flatten]
    intro segment
    rfl
  · rw [List.map_const', List.flatten_replicate_nil]

theorem keptBytes_iff {sym : EcOptSym} (valid : sym.Valid) (v : List UInt8) :
    keptBytes sym v = v ↔ (sym = .ifNoneMatch → v = []) := by
  have copies : ecOptCopies sym = true ↔ sym ≠ .ifNoneMatch := by
    revert valid
    cases sym <;> decide
  unfold keptBytes
  by_cases symbol : sym = .ifNoneMatch
  · rw [if_neg fun copied => copies.mp copied symbol]
    simp [symbol, eq_comm]
  · rw [if_pos (copies.mpr symbol)]
    simp [symbol]

/-- A value is fragmented unless the symbol is no option, or an If-None-Match is to have a value. -/
theorem addsFragments_iff (opts : EcOpts) (sym : EcOptSym) (v : List UInt8) :
    AddsFragments opts sym v ↔ ecProtoMaxOptions - opts.noptions < optSlots v.length ∨
      sym.Valid ∧ (sym = .ifNoneMatch → v = []) := by
  have one : 0 < optSlots v.length := Nat.lt_of_lt_of_le Nat.one_pos (Nat.le_max_left _ _)
  unfold AddsFragments
  rcases ecOptsAddRaw_cases opts sym v with ⟨refused, why⟩ | ⟨valid, room, succeeded, fragmented⟩
  · rw [refused]
    constructor
    · rintro (⟨full, _⟩ | ⟨impossible, _⟩)
      · exact Or.inl full
      · cases impossible
    · rintro (full | ⟨valid, _⟩)
      · exact Or.inl ⟨full, rfl⟩
      · rcases why with invalid | full
        · exact absurd valid invalid
        · exact Or.inl ⟨by omega, rfl⟩
  · obtain ⟨_, counted, os, list, symbols, _, values⟩ := fragmented
    have slots := optSegments_length v
    have length : os.length = optSlots v.length := by
      have mapped := congrArg List.length values
      rw [List.length_map, List.length_map] at mapped
      rw [mapped, slots]
    have kept : (os.map EcOpt.value).flatten = keptBytes sym v := by rw [values, keptSegments]
    rw [← keptBytes_iff valid]
    constructor
    · rintro (⟨full, _⟩ | ⟨_, _, os', list', _, _, whole⟩)
      · exact Or.inl full
      · have same : os' = os := by
          rw [list, List.append_assoc, List.append_assoc] at list'
          exact (List.append_cancel_right (List.append_cancel_left list')).symm
        exact Or.inr ⟨valid, by rw [← kept, ← same, whole]⟩
    · rintro (full | ⟨_, whole⟩)
      · omega
      · exact Or.inr ⟨succeeded, by rw [counted, slots], os, list, length, fun o member => ⟨symbols o member, o.fits⟩,
          by rw [kept, whole]⟩

end Webthings.Evcoap
