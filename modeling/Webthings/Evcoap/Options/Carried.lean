import Webthings.Evcoap.BlockSizes
import Webthings.Evcoap.Options.Additions
import Webthings.Evcoap.Options.Foreign

namespace Webthings.Evcoap

/-- The value of an option: an integer, however it is encoded, or bytes. -/
inductive OptValue where
  | uint (ui : Nat)
  | bytes (v : List UInt8)
  deriving DecidableEq, Repr

/-- What an option tells its reader. -/
structure Carried where
  sym : EcOptSym
  value : OptValue
  deriving DecidableEq, Repr

def EcOpt.carried (order : ByteOrder) (o : EcOpt) : Carried :=
  ⟨o.sym, if ecOptSym2type o.sym = .uint then .uint (o.integer order) else .bytes o.value⟩

/-- What the options of a set tell, in the order of the set. -/
def EcOpts.carried (order : ByteOrder) (opts : EcOpts) : List Carried := opts.bundle.list.map (EcOpt.carried order)

/-- The options of a set that have a symbol, in the order of the set. -/
def EcOpts.occurrences (opts : EcOpts) (sym : EcOptSym) : List EcOpt := opts.bundle.list.filter fun o => o.sym = sym

theorem EcOpts.occurrence_sym {opts : EcOpts} {sym : EcOptSym} {o : EcOpt} (member : o ∈ opts.occurrences sym) :
    o.sym = sym := of_decide_eq_true (List.mem_filter.mp member).2

theorem ecOptsGet_head (opts : EcOpts) (sym : EcOptSym) : ecOptsGet opts sym = (opts.occurrences sym).head? :=
  List.head?_eq_getElem?.symm

theorem EcOpt.carried_uint (order : ByteOrder) {o : EcOpt} (uint : ecOptSym2type o.sym = .uint) :
    o.carried order = ⟨o.sym, .uint (o.integer order)⟩ := by
  unfold carried
  rw [if_pos uint]

theorem EcOpt.carried_bytes (order : ByteOrder) {o : EcOpt} (other : ecOptSym2type o.sym ≠ .uint) :
    o.carried order = ⟨o.sym, .bytes o.value⟩ := by
  unfold carried
  rw [if_neg other]

/-- An option of one of these types has a buffer. -/
theorem EcOpt.held {o : EcOpt} (type : ecOptSym2type o.sym = .opaqueValue ∨ ecOptSym2type o.sym = .string) :
    o.v = some o.value ∧ o.value.length = o.l := by
  have shape := o.shape
  unfold EcOpt.value
  cases buffer : o.v with
  | none =>
      rw [buffer] at shape
      rcases type with isOpaque | isString
      · rw [isOpaque] at shape
        rcases shape with empty | zero
        · cases empty
        · cases zero.1
      · rw [isString] at shape
        rcases shape with empty | zero
        · cases empty
        · cases zero.1
  | some bytes =>
      rw [buffer] at shape
      exact ⟨rfl, shape.1⟩

theorem ecOptsGet_held {opts : EcOpts} {sym : EcOptSym} {o : EcOpt} (found : ecOptsGet opts sym = some o)
    (type : ecOptSym2type sym = .opaqueValue ∨ ecOptSym2type sym = .string) :
    (ecOptsGet opts sym).bind EcOpt.v = some o.value := by
  rw [found, Option.bind_some]
  exact (EcOpt.held (by rwa [(ecOptsGet_some found).1])).1

/-- There is no option of the symbol, or the getter has the value of the first one. -/
theorem EcOpts.first_held (opts : EcOpts) {sym : EcOptSym}
    (type : ecOptSym2type sym = .opaqueValue ∨ ecOptSym2type sym = .string) :
    (opts.occurrences sym = [] ∧ (ecOptsGet opts sym).bind EcOpt.v = none) ∨
      ∃ o rest, opts.occurrences sym = o :: rest ∧ (ecOptsGet opts sym).bind EcOpt.v = some o.value ∧
        o.sym = sym ∧ o.value.length = o.l := by
  have first := ecOptsGet_head opts sym
  cases listed : opts.occurrences sym with
  | nil =>
      left
      rw [listed] at first
      rw [first]
      exact ⟨rfl, rfl⟩
  | cons o rest =>
      right
      rw [listed] at first
      have symbol := (ecOptsGet_some first).1
      exact ⟨o, rest, rfl, ecOptsGet_held first type, symbol, (EcOpt.held (symbol ▸ type)).2⟩

section Parts

variable {α κ : Type} [DecidableEq κ] (key : α → κ)

/-- Lists are permutations of each other exactly when they are for each key. -/
theorem perm_iff_parts {as bs : List α} :
    as.Perm bs ↔ ∀ k, (as.filter fun a => key a = k).Perm (bs.filter fun b => key b = k) := by
  classical
  constructor
  · intro same k
    exact same.filter _
  · intro parts
    rw [List.perm_iff_count]
    intro a
    have part := List.perm_iff_count.mp (parts (key a)) a
    rwa [List.count_filter (by simp), List.count_filter (by simp)] at part

/-- The part of what rounds over different keys give is what the round of its key gives. -/
theorem rounds_part {offered : κ → List α} {rounds : List κ} (once : rounds.Nodup)
    (pure : ∀ k ∈ rounds, ∀ a ∈ offered k, key a = k) (k : κ) :
    ((rounds.flatMap offered).filter fun a => key a = k) = if k ∈ rounds then offered k else [] := by
  induction rounds with
  | nil => rfl
  | cons first rounds inductionHypothesis =>
      have rest := inductionHypothesis once.of_cons fun k member => pure k (List.mem_cons_of_mem _ member)
      have own := pure first List.mem_cons_self
      rw [List.flatMap_cons, List.filter_append, rest]
      by_cases same : k = first
      · subst same
        have all : ((offered k).filter fun a => key a = k) = offered k :=
          List.filter_eq_self.mpr fun a member => by simpa using own a member
        rw [all, if_neg once.notMem, if_pos List.mem_cons_self, List.append_nil]
      · have none : ((offered first).filter fun a => key a = k) = [] :=
          List.filter_eq_nil_iff.mpr fun a member => by simpa [own a member] using fun other => same other.symm
        have still : (k ∈ first :: rounds) ↔ k ∈ rounds := by simp [same]
        rw [none, List.nil_append]
        simp only [still]

/-- A part of which as much is kept as there should be is kept whole. -/
theorem part_kept {kept offered wanted : List α} {k : κ} (within : kept.Sublist offered) (same : kept.Perm wanted)
    (bounded : (offered.filter fun a => key a = k).length ≤ (wanted.filter fun a => key a = k).length) :
    (kept.filter fun a => key a = k) = offered.filter fun a => key a = k := by
  have part := (same.filter fun a => key a = k).length_eq
  exact (within.filter _).eq_of_length_le (by omega)

theorem take_behind {before : List α} {a : α} {rest : List α} {n : Nat} (room : before.length < n) :
    ∃ more, (before ++ a :: rest).take n = before ++ a :: rest.take more := by
  obtain ⟨more, count⟩ := Nat.exists_eq_add_of_lt room
  refine ⟨more, ?_⟩
  rw [List.take_append, List.take_of_length_le (Nat.le_of_lt room), count, Nat.add_assoc, Nat.add_sub_cancel_left,
    List.take_succ_cons]

/-- What stands behind fewer elements than are taken is taken. -/
theorem mem_take_behind {before : List α} {a : α} {rest : List α} {n : Nat} (room : before.length < n) :
    a ∈ (before ++ a :: rest).take n := by
  obtain ⟨more, taken⟩ := @take_behind α before a rest n room
  rw [taken]
  exact List.mem_append_right _ List.mem_cons_self

/-- It adds to the part that is taken before. -/
theorem part_take_behind {before : List α} {a : α} {rest : List α} {n : Nat} (room : before.length < n) (k : κ)
    (own : key a = k) :
    (before.filter fun x => key x = k).length < (((before ++ a :: rest).take n).filter fun x => key x = k).length := by
  obtain ⟨more, taken⟩ := @take_behind α before a rest n room
  rw [taken, List.filter_append, List.filter_cons_of_pos (by simpa using own), List.length_append, List.length_cons]
  omega

end Parts

section Filling

/-- The set with further options, as many of them as there are slots left. -/
def EcOpts.fill (opts : EcOpts) (os : List EcOpt) : EcOpts :=
  os.foldl (fun filled o => if filled.noptions < ecProtoMaxOptions then filled.plus o else filled) opts

theorem EcOpts.fill_append (opts : EcOpts) (os rest : List EcOpt) : opts.fill (os ++ rest) = (opts.fill os).fill rest :=
  List.foldl_append

theorem EcOpts.fill_perm (opts : EcOpts) (os : List EcOpt) :
    (opts.fill os).bundle.list.Perm (os.take (ecProtoMaxOptions - opts.noptions) ++ opts.bundle.list) := by
  unfold fill
  induction os generalizing opts with
  | nil => rw [List.take_nil]; exact List.Perm.refl _
  | cons o os inductionHypothesis =>
      rw [List.foldl_cons]
      by_cases room : opts.noptions < ecProtoMaxOptions
      · have slots : ecProtoMaxOptions - opts.noptions = ecProtoMaxOptions - (opts.plus o).noptions + 1 := by
          rw [EcOpts.plus_noptions]
          omega
        rw [if_pos room, slots, List.take_succ_cons]
        exact (inductionHypothesis (opts.plus o)).trans
          (((opts.plus_perm o).append_left _).trans List.perm_middle)
      · have full : ecProtoMaxOptions - opts.noptions = 0 := by omega
        have same := inductionHypothesis opts
        rw [full, List.take_zero] at same
        rw [if_neg room, full, List.take_zero]
        exact same

theorem EcOpts.fill_noptions (opts : EcOpts) (os : List EcOpt) :
    (opts.fill os).noptions = opts.noptions + min os.length (ecProtoMaxOptions - opts.noptions) := by
  unfold fill
  induction os generalizing opts with
  | nil => simp
  | cons o os inductionHypothesis =>
      rw [List.foldl_cons, inductionHypothesis, List.length_cons]
      split
      · rw [EcOpts.plus_noptions]
        omega
      · omega

end Filling

section Offering

variable {order : ByteOrder}

/-- What is done to a set puts these options into it, as long as there are slots. -/
def Offers (order : ByteOrder) (f : EcOpts → EcOpts) (offered : List Carried) : Prop :=
  ∃ os : List EcOpt, os.map (EcOpt.carried order) = offered ∧ ∀ opts, f opts = opts.fill os

theorem Offers.nothing : Offers order (fun opts => opts) [] := ⟨[], rfl, fun _ => rfl⟩

theorem Offers.before {f g : EcOpts → EcOpts} {first second : List Carried} (offers : Offers order f first)
    (further : Offers order g second) : Offers order (fun opts => g (f opts)) (first ++ second) := by
  obtain ⟨os, rfl, puts⟩ := offers
  obtain ⟨rest, rfl, adds⟩ := further
  refine ⟨os ++ rest, List.map_append, fun opts => ?_⟩
  dsimp only
  rw [puts, adds, EcOpts.fill_append]

/-- What is offered goes into the slots that are left, the first of it first. -/
theorem Offers.perm {f : EcOpts → EcOpts} {offered : List Carried} (offers : Offers order f offered) (opts : EcOpts) :
    ((f opts).carried order).Perm (offered.take (ecProtoMaxOptions - opts.noptions) ++ opts.carried order) := by
  obtain ⟨os, rfl, puts⟩ := offers
  rw [puts, ← List.map_take]
  unfold EcOpts.carried
  rw [← List.map_append]
  exact (opts.fill_perm os).map _

theorem Offers.noptions {f : EcOpts → EcOpts} {offered : List Carried} (offers : Offers order f offered) (opts : EcOpts) :
    (f opts).noptions = opts.noptions + min offered.length (ecProtoMaxOptions - opts.noptions) := by
  obtain ⟨os, rfl, puts⟩ := offers
  rw [puts, EcOpts.fill_noptions, List.length_map]

/-- An adder that takes one slot offers its option. -/
theorem Offers.slot {add : EcOpts → EcOpts × Int} {o : EcOpt} {c : Carried} (carried : o.carried order = c)
    (slot : ∀ opts : EcOpts, add opts = if opts.noptions < ecProtoMaxOptions then (opts.plus o, 0) else (opts, -1)) :
    Offers order (fun opts => (add opts).1) [c] := by
  refine ⟨[o], by rw [List.map_singleton, carried], fun opts => ?_⟩
  dsimp only
  rw [slot]
  change _ = if opts.noptions < ecProtoMaxOptions then opts.plus o else opts
  split <;> rfl

/-- An adder that refuses its arguments offers nothing. -/
theorem Offers.refused {add : EcOpts → EcOpts × Int} (refused : ∀ opts : EcOpts, add opts = (opts, -1)) :
    Offers order (fun opts => (add opts).1) [] :=
  ⟨[], rfl, fun opts => congrArg Prod.fst (refused opts)⟩

theorem ecOptsAddUint_offers (order : ByteOrder) (sym : EcOptSym) (uint : ecOptSym2type sym = .uint) (ui : UInt64) :
    Offers order (fun opts => (ecOptsAddUint order opts sym ui).1) [⟨sym, .uint ui.toNat⟩] := by
  have valid : sym.Valid := by
    by_contra invalid
    rw [(ecOptSym2type_invalid sym).mpr invalid] at uint
    cases uint
  have eight := uintBytes_length_le ui
  have encoded : ecOptEncodeUint order ui 8 = some (order.arrange (uintBytes ui.toNat)) := by
    rw [ecOptEncodeUint_eq, if_neg (by omega)]
  have short : (order.arrange (uintBytes ui.toNat)).length ≤ ecCoapOptLenMax := by
    rw [ByteOrder.arrange_length]
    exact Nat.le_trans eight (by decide)
  obtain ⟨o, created, slot⟩ := ecOptsAddRaw_slot valid short
  have symbol := (ecOptNew_some created).1
  have bytes := ecOptNew_value created
  rw [if_neg (by rintro rfl; cases uint)] at bytes
  have integer : o.integer order = ui.toNat := by
    unfold EcOpt.integer
    rw [bytes, ByteOrder.arrange_arrange, bytesUint_uintBytes]
  refine Offers.slot (o := o) ?_ fun opts => ?_
  · rw [o.carried_uint order (symbol ▸ uint), symbol, integer]
  · unfold ecOptsAddUint
    rw [if_neg (not_not_intro uint), encoded]
    exact slot opts

/-- The adders of short values add what they take, as long as there is a slot. -/
theorem ecOptsAddShortOpaque_slot (order : ByteOrder) (sym : EcOptSym) {v : List UInt8}
    (type : ecOptSym2type sym = .opaqueValue) (inside : ¬ (v.length = 0 ∨ v.length > 8)) :
    ∃ o : EcOpt, o.carried order = ⟨sym, .bytes v⟩ ∧ ∀ opts : EcOpts, ecOptsAddShortOpaque opts sym v =
      if opts.noptions < ecProtoMaxOptions then (opts.plus o, 0) else (opts, -1) := by
  have valid : sym.Valid := by
    by_contra invalid
    rw [(ecOptSym2type_invalid sym).mpr invalid] at type
    cases type
  have short : v.length ≤ ecCoapOptLenMax := by
    simp only [ecCoapOptLenMax]
    omega
  obtain ⟨o, created, slot⟩ := ecOptsAddRaw_slot valid short
  have symbol := (ecOptNew_some created).1
  have bytes := ecOptNew_value created
  rw [if_neg (by rintro rfl; cases type)] at bytes
  refine ⟨o, by rw [o.carried_bytes order (by rw [symbol, type]; decide), symbol, bytes], fun opts => ?_⟩
  unfold ecOptsAddShortOpaque ecOptsAddOpaque
  rw [if_neg inside, if_neg (not_not_intro type)]
  exact slot opts

theorem ecOptsAddShortOpaque_offers (order : ByteOrder) (sym : EcOptSym) (type : ecOptSym2type sym = .opaqueValue)
    (v : List UInt8) :
    Offers order (fun opts => (ecOptsAddShortOpaque opts sym v).1)
      (if v.length = 0 ∨ v.length > 8 then [] else [⟨sym, .bytes v⟩]) := by
  by_cases outside : v.length = 0 ∨ v.length > 8
  · rw [if_pos outside]
    refine Offers.refused fun opts => ?_
    unfold ecOptsAddShortOpaque
    rw [if_pos outside]
  · obtain ⟨o, carried, slot⟩ := ecOptsAddShortOpaque_slot order sym type outside
    rw [if_neg outside]
    exact Offers.slot carried slot

theorem ecOptsAddShortString_offers (order : ByteOrder) {sym : EcOptSym} (type : ecOptSym2type sym = .string) (s : List UInt8) :
    Offers order (fun opts => (ecOptsAddShortString opts sym s).1)
      (if ShortText s then [⟨sym, .bytes (cString s)⟩] else []) := by
  by_cases short : ShortText s
  · obtain ⟨o, created, slot⟩ := ecOptsAddShortString_slot type short
    have symbol := (ecOptNew_some created).1
    have bytes := ecOptNew_value created
    rw [if_neg (by rintro rfl; cases type)] at bytes
    rw [if_pos short]
    exact Offers.slot (by rw [o.carried_bytes order (by rw [symbol, type]; decide), symbol, bytes]) slot
  · rw [if_neg short]
    exact Offers.refused fun opts => ecOptsAddShortString_refused short opts

theorem ecOptsAddIfNoneMatch_offers :
    Offers order (fun opts => (ecOptsAddIfNoneMatch opts).1) [⟨.ifNoneMatch, .bytes []⟩] := by
  obtain ⟨o, created, slot⟩ := @ecOptsAddRaw_slot .ifNoneMatch [] (by decide) (Nat.zero_le _)
  have symbol := (ecOptNew_some created).1
  have bytes := ecOptNew_value created
  refine Offers.slot (o := o) ?_ slot
  rw [o.carried_bytes order (by rw [symbol]; decide), symbol, bytes, if_pos rfl]

/-- The fields that are taken from an integer of 24 bits are packed into that integer again. -/
theorem BlockFields.pack_unpack (tmp : Nat) (small : tmp ≤ 0xffffff) :
    (BlockFields.unpack tmp).num.toNat < 2 ^ 20 ∧ (BlockFields.unpack tmp).szx.toNat ≤ 7 ∧
      (BlockFields.unpack tmp).pack.toNat = tmp := by
  obtain ⟨num, more, szx⟩ := BlockFields.unpack_parts tmp small
  have number : (BlockFields.unpack tmp).num.toNat < 2 ^ 20 := by omega
  have exponent : (BlockFields.unpack tmp).szx.toNat ≤ 7 := by omega
  have packed := (BlockFields.unpack tmp).pack_toNat (Nat.le_of_lt_succ number) exponent
  refine ⟨number, exponent, ?_⟩
  rw [packed, num, more, szx]
  by_cases one : tmp / 8 % 2 = 1
  · simp only [one, decide_true, Bool.toNat_true]
    omega
  · simp only [one, decide_false, Bool.toNat_false]
    omega

theorem ecOptsAddBlock_offers (order : ByteOrder) {which : EcOptSym} (symbol : which = .block1 ∨ which = .block2) (tmp : Nat)
    (small : tmp ≤ 0xffffff) :
    Offers order (fun opts => (ecOptsAddBlock order opts which (BlockFields.unpack tmp).num (BlockFields.unpack tmp).more
      (BlockFields.unpack tmp).szx).1) [⟨which, .uint tmp⟩] := by
  obtain ⟨number, exponent, packed⟩ := BlockFields.pack_unpack tmp small
  have adding := ecOptsAddUint_offers order which (blockSym_uint symbol) (BlockFields.unpack tmp).pack.toUInt64
  have same : (BlockFields.unpack tmp).pack.toUInt64.toNat = tmp := packed
  rw [same] at adding
  obtain ⟨os, carried, puts⟩ := adding
  refine ⟨os, carried, fun opts => ?_⟩
  dsimp only
  rw [ecOptsAddBlock_eq symbol, if_pos ⟨number, exponent⟩]
  exact puts opts

end Offering

end Webthings.Evcoap
