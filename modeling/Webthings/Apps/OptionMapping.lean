import Webthings.Evcoap.ClientRequest
import Webthings.Evcoap.Options.Carried

namespace Webthings.Evcoap

/-- The value of the first option, which its readers take for a C string. -/
def ecOptsGetString (opts : EcOpts) (sym : EcOptSym) : Option (List UInt8) :=
  if ecOptSym2type sym ≠ .string then none else (ecOptsGet opts sym).bind EcOpt.v

def ecOptsGetLocationPath (opts : EcOpts) : Option (List UInt8) := ecOptsGetString opts .locationPath

def ecOptsGetLocationQuery (opts : EcOpts) : Option (List UInt8) := ecOptsGetString opts .locationQuery

/-- One call after the other; one that fails is only logged. -/
def performCalls (platform : Platform) (calls : List AddCall) (opts : EcOpts) : EcOpts :=
  calls.foldl (fun opts call => (call.apply platform.order platform.isAbsolute opts).1) opts

end Webthings.Evcoap

namespace Webthings.Apps
open Webthings.Evcoap

/-- The symbols of both loops, which are those between `EC_OPT_NONE` and `EC_OPT_MAX`. -/
def mappedSyms : List EcOptSym := EcOptSym.all.filter fun sym => sym.Valid

/-- The loop over the ETags ends at a NULL value and passes over the empty ones. -/
def mapEtags : List EcOpt → List AddCall
  | [] => []
  | o :: rest =>
      match o.v with
      | none => []
      | some et => if et.length ≠ 0 then .etag et :: mapEtags rest else mapEtags rest

/-- The cases that both switches have, as the calls that they make on the other set. -/
def mapOption (order : ByteOrder) (src : EcOpts) : EcOptSym → List AddCall
  | .contentType => ((ecOptsGetContentType order src).map AddCall.contentType).toList
  | .maxAge => ((ecOptsGetMaxAge order src).map AddCall.maxAge).toList
  | .etag => mapEtags (src.occurrences .etag)
  | .observe => if (ecOptsGetObserve order src).isSome then [.observe 0] else []
  | .block2 => ((ecOptsGetBlock2 order src).map fun block => AddCall.block2 block.num block.more block.szx).toList
  | .block1 => ((ecOptsGetBlock1 order src).map fun block => AddCall.block1 block.num block.more block.szx).toList
  | _ => []

section Offers

variable {platform : Platform}

theorem performCalls_append (calls rest : List AddCall) (opts : EcOpts) :
    performCalls platform (calls ++ rest) opts = performCalls platform rest (performCalls platform calls opts) :=
  List.foldl_append

/-- Rounds offer what they offer one after the other. -/
theorem rounds_offer {calls : EcOptSym → List AddCall} {offered : EcOptSym → List Carried}
    (each : ∀ sym, Offers platform.order (performCalls platform (calls sym)) (offered sym)) (syms : List EcOptSym) :
    Offers platform.order (performCalls platform (syms.flatMap calls)) (syms.flatMap offered) := by
  induction syms with
  | nil => exact Offers.nothing
  | cons sym syms inductionHypothesis =>
      obtain ⟨os, carried, puts⟩ := (each sym).before inductionHypothesis
      refine ⟨os, carried, fun opts => ?_⟩
      rw [List.flatMap_cons, performCalls_append]
      exact puts opts

/-- The first option, if it is one that is taken. -/
def firstTaken (taken : EcOpt → Prop) [DecidablePred taken] : List EcOpt → List EcOpt
  | [] => []
  | o :: _ => if taken o then [o] else []

/-- There is no option, or a single one that is taken. -/
def Sole (os : List EcOpt) (taken : EcOpt → Prop) : Prop := os = [] ∨ ∃ o, os = [o] ∧ taken o

theorem firstTaken_length (taken : EcOpt → Prop) [DecidablePred taken] (os : List EcOpt) :
    (firstTaken taken os).length ≤ os.length := by
  cases os with
  | nil => exact Nat.le_refl 0
  | cons o os =>
      rw [firstTaken, List.length_cons]
      split
      · exact Nat.le_add_left 1 _
      · exact Nat.zero_le _

theorem firstTaken_one (taken : EcOpt → Prop) [DecidablePred taken] (os : List EcOpt) :
    (firstTaken taken os).length ≤ 1 := by
  cases os with
  | nil => exact Nat.zero_le 1
  | cons o os =>
      rw [firstTaken]
      split
      · exact Nat.le_refl 1
      · exact Nat.zero_le 1

theorem firstTaken_mem {taken : EcOpt → Prop} [DecidablePred taken] {os : List EcOpt} {o : EcOpt}
    (member : o ∈ firstTaken taken os) : o ∈ os := by
  cases os with
  | nil => cases member
  | cons x rest =>
      rw [firstTaken] at member
      split at member
      · rw [List.mem_singleton.mp member]
        exact List.mem_cons_self
      · cases member

theorem Sole.congr {os : List EcOpt} {taken other : EcOpt → Prop} (same : ∀ o ∈ os, taken o ↔ other o) :
    Sole os taken ↔ Sole os other := by
  refine or_congr_right (exists_congr fun o => and_congr_right fun alone => same o ?_)
  rw [alone]
  exact List.mem_cons_self

theorem sole_cons {o : EcOpt} {rest : List EcOpt} {taken : EcOpt → Prop} :
    Sole (o :: rest) taken ↔ rest = [] ∧ taken o := by
  constructor
  · rintro (none | ⟨x, same, good⟩)
    · cases none
    · cases same
      exact ⟨rfl, good⟩
  · rintro ⟨alone, good⟩
    exact Or.inr ⟨o, by rw [alone], good⟩

theorem singleton_perm_map (tell : EcOpt → Carried) (o : EcOpt) (rest : List EcOpt) (c : Carried) :
    [c].Perm ((o :: rest).map tell) ↔ rest = [] ∧ c = tell o := by
  rw [List.singleton_perm, List.map_cons, List.cons.injEq, List.nil_eq, List.map_eq_nil_iff, and_comm]

/-- Options of which only the first is told are all told exactly when there is one at most, and what is said of it is
what it tells. -/
theorem firstTold_perm_iff (taken : EcOpt → Prop) [DecidablePred taken] (os : List EcOpt) (say tell : EcOpt → Carried) :
    ((firstTaken taken os).map say).Perm (os.map tell) ↔ Sole os fun o => taken o ∧ say o = tell o := by
  cases os with
  | nil => exact iff_of_true (List.Perm.refl _) (Or.inl rfl)
  | cons o rest =>
      rw [sole_cons, firstTaken]
      by_cases good : taken o
      · rw [if_pos good, List.map_singleton, singleton_perm_map]
        exact and_congr_right fun _ => (and_iff_right good).symm
      · rw [if_neg good]
        refine iff_of_false (fun same => ?_) fun both => good both.2.1
        cases same.length_eq

theorem firstTaken_perm_iff (taken : EcOpt → Prop) [DecidablePred taken] (os : List EcOpt) (tell : EcOpt → Carried) :
    ((firstTaken taken os).map tell).Perm (os.map tell) ↔ Sole os taken :=
  (firstTold_perm_iff taken os tell tell).trans (Sole.congr fun _ _ => and_iff_left rfl)

variable (order : ByteOrder) (src : EcOpts)

/-- The integers that a getter with this bound hands out. -/
def Within (bound : Nat) (o : EcOpt) : Prop := o.l ≤ 8 ∧ o.integer order ≤ bound

instance (bound : Nat) (o : EcOpt) : Decidable (Within order bound o) := inferInstanceAs (Decidable (_ ∧ _))

/-- The lengths that the adders of opaque options take. -/
def Short (o : EcOpt) : Prop := 1 ≤ o.l ∧ o.l ≤ 8

instance (o : EcOpt) : Decidable (Short o) := inferInstanceAs (Decidable (_ ∧ _))

/-- The lifetimes that are handed out; one that cannot be decoded passes for an hour. -/
def Lasting (o : EcOpt) : Prop := (o.l ≤ 8 ∨ o.integer order = 3600) ∧ o.integer order ≤ 0xffffffff

/-- What a Max-Age is mapped to, an hour when it is absent or cannot be decoded. -/
def maxAgeOffer : List EcOpt → List Carried
  | [] => [⟨.maxAge, .uint 3600⟩]
  | o :: _ =>
      if o.l ≤ 8 then if o.integer order ≤ 0xffffffff then [o.carried order] else [] else [⟨.maxAge, .uint 3600⟩]

/-- What the shared case of a symbol offers to the other set. -/
def mappedOffer (sym : EcOptSym) : List Carried :=
  let os := src.occurrences sym
  match sym with
  | .contentType => (firstTaken (Within order 0xffff) os).map (EcOpt.carried order)
  | .maxAge => maxAgeOffer order os
  | .etag => (os.filter fun o => Short o).map (EcOpt.carried order)
  | .observe => (firstTaken (Within order 0xffff) os).map fun _ => ⟨.observe, .uint 0⟩
  | .block2 | .block1 => (firstTaken (Within order 0xffffff) os).map (EcOpt.carried order)
  | _ => []

variable {order src}

theorem mapEtags_offers (os : List EcOpt) (etags : ∀ o ∈ os, o.sym = .etag) :
    Offers platform.order (performCalls platform (mapEtags os))
      ((os.filter fun o => Short o).map (EcOpt.carried platform.order)) := by
  induction os with
  | nil => exact Offers.nothing
  | cons o os inductionHypothesis =>
      have rest := inductionHypothesis fun x member => etags x (List.mem_cons_of_mem _ member)
      have symbol := etags o List.mem_cons_self
      obtain ⟨held, length⟩ := EcOpt.held (o := o) (by rw [symbol]; decide)
      have adding := ecOptsAddShortOpaque_offers platform.order .etag (by decide) o.value
      unfold mapEtags
      rw [held]
      dsimp only
      rw [length] at adding ⊢
      by_cases empty : o.l = 0
      · rw [if_neg (not_not_intro empty), List.filter_cons_of_neg (by simp [Short, empty])]
        exact rest
      · rw [if_pos empty]
        by_cases long : o.l > 8
        · rw [if_pos (Or.inr long)] at adding
          rw [List.filter_cons_of_neg (by simpa using fun short : Short o => absurd short.2 (Nat.not_le.mpr long))]
          exact adding.before rest
        · have short : Short o := ⟨Nat.pos_of_ne_zero empty, Nat.not_lt.mp long⟩
          rw [if_neg (by omega)] at adding
          rw [List.filter_cons_of_pos (by simpa using short), List.map_cons,
            o.carried_bytes platform.order (by rw [symbol]; decide), symbol]
          exact adding.before rest

/-- A getter with a bound hands out the first option, if it is within the bound. -/
theorem boundedGetter_offers {α : Type} {sym : EcOptSym} (uint : ecOptSym2type sym = .uint) {bound : Nat}
    {got : Option α} (narrow : Nat → α) (call : α → AddCall) (tell : EcOpt → Carried)
    (checked : got = (ecOptsGetUint platform.order src sym).bind fun tmp =>
      if tmp > bound then none else some (narrow tmp))
    (offers : ∀ o, o.sym = sym → o.integer platform.order ≤ bound → Offers platform.order
      (fun opts => ((call (narrow (o.integer platform.order))).apply platform.order platform.isAbsolute opts).1) [tell o]) :
    Offers platform.order (performCalls platform (got.map call).toList)
      ((firstTaken (Within platform.order bound) (src.occurrences sym)).map tell) := by
  have first := ecOptsGet_head src sym
  cases listed : src.occurrences sym with
  | nil =>
      rw [listed] at first
      rw [absent_uint platform.order first] at checked
      rw [checked]
      exact Offers.nothing
  | cons o rest =>
      rw [listed] at first
      have symbol := (ecOptsGet_some first).1
      rw [ecOptsGetUint_eq platform.order uint first] at checked
      rw [firstTaken]
      by_cases within : Within platform.order bound o
      · rw [if_pos within.1, Option.bind_some, if_neg (Nat.not_lt.mpr within.2)] at checked
        rw [checked, if_pos within]
        exact offers o symbol within.2
      · have refused : got = none := by
          rw [checked]
          by_cases short : o.l ≤ 8
          · rw [if_pos short, Option.bind_some, if_pos (Nat.not_le.mp fun small => within ⟨short, small⟩)]
          · rw [if_neg short, Option.bind_none]
        rw [refused, if_neg within]
        exact Offers.nothing

theorem blockGetter_offers {which : EcOptSym} (symbol : which = .block1 ∨ which = .block2)
    {call : BlockFields → AddCall}
    (adds : ∀ block opts, ((call block).apply platform.order platform.isAbsolute opts).1 =
      (ecOptsAddBlock platform.order opts which block.num block.more block.szx).1) :
    Offers platform.order (performCalls platform ((ecOptsGetBlock platform.order src which).map call).toList)
      ((firstTaken (Within platform.order 0xffffff) (src.occurrences which)).map (EcOpt.carried platform.order)) := by
  refine boundedGetter_offers (blockSym_uint symbol) BlockFields.unpack call _ ?_ fun o same small => ?_
  · unfold ecOptsGetBlock
    rw [if_neg (by rcases symbol with rfl | rfl <;> decide)]
    cases ecOptsGetUint platform.order src which <;> rfl
  · have offers := ecOptsAddBlock_offers platform.order symbol (o.integer platform.order) small
    rw [o.carried_uint platform.order (same ▸ blockSym_uint symbol), same]
    simpa only [adds] using offers

theorem maxAge_offers :
    Offers platform.order
      (performCalls platform ((ecOptsGetMaxAge platform.order src).map AddCall.maxAge).toList)
      (maxAgeOffer platform.order (src.occurrences .maxAge)) := by
  have adding (ma : UInt32) := ecOptsAddUint_offers platform.order .maxAge (by decide) ma.toUInt64
  have first := ecOptsGet_head src .maxAge
  unfold ecOptsGetMaxAge
  cases listed : src.occurrences .maxAge with
  | nil =>
      rw [listed] at first
      rw [absent_uint platform.order first]
      exact adding 3600
  | cons o rest =>
      rw [listed] at first
      have symbol := (ecOptsGet_some first).1
      rw [ecOptsGetUint_eq platform.order (by decide) first, maxAgeOffer]
      by_cases short : o.l ≤ 8
      · rw [if_pos short, if_pos short]
        dsimp only
        by_cases large : o.integer platform.order > 0xffffffff
        · rw [if_pos large, if_neg (Nat.not_le.mpr large)]
          exact Offers.nothing
        · have whole : (o.integer platform.order).toUInt32.toUInt64.toNat = o.integer platform.order :=
            Nat.mod_eq_of_lt (by omega)
          have offers := adding (o.integer platform.order).toUInt32
          rw [whole] at offers
          rw [if_neg large, if_pos (Nat.not_lt.mp large), o.carried_uint platform.order (by rw [symbol]; decide), symbol]
          exact offers
      · rw [if_neg short, if_neg short]
        exact adding 3600

/-- The calls of a shared case offer the first option, all the ETags, or a Max-Age in any case. -/
theorem mapOption_offers (sym : EcOptSym) :
    Offers platform.order (performCalls platform (mapOption platform.order src sym)) (mappedOffer platform.order src sym) := by
  cases sym with
  | contentType =>
      refine boundedGetter_offers (by decide) Nat.toUInt16 _ _ ?_ fun o symbol small => ?_
      · unfold ecOptsGetContentType
        cases ecOptsGetUint platform.order src .contentType <;> rfl
      · have whole : (o.integer platform.order).toUInt16.toUInt64.toNat = o.integer platform.order :=
          Nat.mod_eq_of_lt (by omega)
        have offers := ecOptsAddUint_offers platform.order .contentType (by decide)
          (o.integer platform.order).toUInt16.toUInt64
        rw [whole] at offers
        rw [o.carried_uint platform.order (by rw [symbol]; decide), symbol]
        exact offers
  | maxAge => exact maxAge_offers
  | etag => exact mapEtags_offers _ fun o member => EcOpts.occurrence_sym member
  | observe =>
      have checked : ecOptsGetObserve platform.order src = (ecOptsGetUint platform.order src .observe).bind fun tmp =>
          if tmp > 0xffff then none else some tmp.toUInt16 := by
        unfold ecOptsGetObserve
        cases ecOptsGetUint platform.order src .observe <;> rfl
      have offers := @boundedGetter_offers platform src _ .observe (by decide) _ _ Nat.toUInt16 (fun _ => .observe 0)
        (fun _ => ⟨.observe, .uint 0⟩) checked fun _ _ _ => ecOptsAddUint_offers platform.order .observe (by decide) 0
      have same : ((ecOptsGetObserve platform.order src).map fun _ => AddCall.observe 0).toList =
          mapOption platform.order src .observe := by
        unfold mapOption
        cases ecOptsGetObserve platform.order src <;> rfl
      rw [same] at offers
      exact offers
  | block2 => exact blockGetter_offers (Or.inr rfl) fun _ _ => rfl
  | block1 => exact blockGetter_offers (Or.inl rfl) fun _ _ => rfl
  | _ => exact Offers.nothing

end Offers

section Exactness

variable {order : ByteOrder} {src : EcOpts}

/-- The options of a symbol that the shared cases map to what they are. -/
def MappedWhole (order : ByteOrder) (sym : EcOptSym) (os : List EcOpt) : Prop :=
  match sym with
  | .contentType => Sole os (Within order 0xffff)
  | .maxAge => ∃ o, os = [o] ∧ Lasting order o
  | .etag => ∀ o ∈ os, Short o
  | .block2 | .block1 => Sole os (Within order 0xffffff)
  | _ => os = []

/-- The part of a symbol among the options of some symbols. -/
theorem occurrences_part (syms : List EcOptSym) (opts : EcOpts) (sym : EcOptSym) :
    ((opts.bundle.list.filter fun o => o.sym ∈ syms).filter fun o => o.sym = sym) =
      if sym ∈ syms then opts.occurrences sym else [] := by
  rw [List.filter_filter]
  by_cases member : sym ∈ syms
  · have same : (fun o : EcOpt => decide (o.sym = sym) && decide (o.sym ∈ syms)) = fun o => decide (o.sym = sym) := by
      funext o
      by_cases equal : o.sym = sym
      · simp [equal, member]
      · simp [equal]
    rw [if_pos member, same]
    rfl
  · have none : (fun o : EcOpt => decide (o.sym = sym) && decide (o.sym ∈ syms)) = fun _ => false := by
      funext o
      by_cases equal : o.sym = sym
      · simp [equal, member]
      · simp [equal]
    rw [if_neg member, none, List.filter_false]

/-- The part of what a set tells of some symbols. -/
theorem told_part {tell : EcOpt → Carried} (faithful : ∀ o, (tell o).sym = o.sym) (syms : List EcOptSym) (opts : EcOpts)
    (sym : EcOptSym) :
    (((opts.bundle.list.filter fun o => o.sym ∈ syms).map tell).filter fun c => c.sym = sym) =
      if sym ∈ syms then (opts.occurrences sym).map tell else [] := by
  have within : ((fun c : Carried => decide (c.sym = sym)) ∘ tell) = fun o => decide (o.sym = sym) := by
    funext o
    rw [Function.comp_apply, faithful]
  rw [List.filter_map, within, occurrences_part]
  split <;> rfl

/-- The options of different symbols, one symbol after the other. -/
theorem occurrences_perm {syms : List EcOptSym} (once : syms.Nodup) (opts : EcOpts) :
    (syms.flatMap opts.occurrences).Perm (opts.bundle.list.filter fun o => o.sym ∈ syms) := by
  refine (perm_iff_parts EcOpt.sym).mpr fun sym => ?_
  rw [occurrences_part, rounds_part EcOpt.sym once fun sym _ o member => EcOpts.occurrence_sym member]

theorem maxAgeOffer_perm_iff {os : List EcOpt} (ages : ∀ o ∈ os, o.sym = .maxAge) :
    (maxAgeOffer order os).Perm (os.map (EcOpt.carried order)) ↔ ∃ o, os = [o] ∧ Lasting order o := by
  cases os with
  | nil =>
      refine iff_of_false (fun same => ?_) fun ⟨o, impossible, _⟩ => (by cases impossible)
      cases same.length_eq
  | cons o rest =>
      have symbol := ages o List.mem_cons_self
      have carried := o.carried_uint order (by rw [symbol]; decide)
      rw [symbol] at carried
      have sole : (∃ x, o :: rest = [x] ∧ Lasting order x) ↔ rest = [] ∧ Lasting order o := by
        rw [← sole_cons]
        exact ⟨Or.inr, fun sole => sole.resolve_left (List.cons_ne_nil _ _)⟩
      rw [sole, maxAgeOffer]
      by_cases short : o.l ≤ 8
      · rw [if_pos short]
        by_cases small : o.integer order ≤ 0xffffffff
        · rw [if_pos small, singleton_perm_map]
          exact and_congr_right fun _ => iff_of_true rfl ⟨Or.inl short, small⟩
        · rw [if_neg small]
          refine iff_of_false (fun same => ?_) fun both => small both.2.2
          cases same.length_eq
      · rw [if_neg short, singleton_perm_map, carried]
        refine and_congr_right fun _ => ⟨fun same => ?_, fun lasting => ?_⟩
        · have hour : o.integer order = 3600 := by simpa using same.symm
          exact ⟨Or.inr hour, by omega⟩
        · rw [lasting.1.resolve_left short]

/-- A shared case maps all the options of its symbol to what they are exactly under its condition. -/
theorem mappedOffer_perm_iff {sym : EcOptSym} (other : sym ≠ .observe) :
    (mappedOffer order src sym).Perm ((src.occurrences sym).map (EcOpt.carried order)) ↔
      MappedWhole order sym (src.occurrences sym) := by
  cases sym with
  | contentType => exact firstTaken_perm_iff _ _ _
  | maxAge => exact maxAgeOffer_perm_iff fun o member => EcOpts.occurrence_sym member
  | etag =>
      change (((src.occurrences .etag).filter fun o => Short o).map _).Perm _ ↔ ∀ o ∈ src.occurrences .etag, Short o
      constructor
      · intro same
        have length := same.length_eq
        rw [List.length_map, List.length_map, List.length_filter_eq_length_iff] at length
        exact fun o member => of_decide_eq_true (length o member)
      · intro short
        rw [List.filter_eq_self.mpr fun o member => decide_eq_true (short o member)]
  | block2 => exact firstTaken_perm_iff _ _ _
  | block1 => exact firstTaken_perm_iff _ _ _
  | observe => exact absurd rfl other
  | _ =>
      change [].Perm _ ↔ src.occurrences _ = []
      rw [List.nil_perm, List.map_eq_nil_iff]

theorem mappedOffer_sym {sym : EcOptSym} : ∀ c ∈ mappedOffer order src sym, c.sym = sym := by
  have told {tell : EcOpt → Carried} {os : List EcOpt} (symbols : ∀ o ∈ os, (tell o).sym = sym) :
      ∀ c ∈ os.map tell, c.sym = sym := fun c member => by
    obtain ⟨o, there, rfl⟩ := List.mem_map.mp member
    exact symbols o there
  have first (taken : EcOpt → Prop) [DecidablePred taken] : ∀ o ∈ firstTaken taken (src.occurrences sym), o.sym = sym :=
    fun o member => EcOpts.occurrence_sym (firstTaken_mem member)
  cases sym with
  | contentType => exact told (first _)
  | maxAge =>
      intro c member
      change c ∈ maxAgeOffer order (src.occurrences .maxAge) at member
      cases listed : src.occurrences .maxAge with
      | nil =>
          rw [listed, maxAgeOffer] at member
          rw [List.mem_singleton.mp member]
      | cons o rest =>
          rw [listed, maxAgeOffer] at member
          split at member
          · split at member
            · rw [List.mem_singleton.mp member]
              exact @EcOpts.occurrence_sym src .maxAge o (by rw [listed]; exact List.mem_cons_self)
            · cases member
          · rw [List.mem_singleton.mp member]
  | etag => exact told fun o member => EcOpts.occurrence_sym (List.mem_filter.mp member).1
  | observe => exact told fun _ _ => rfl
  | block2 => exact told (first _)
  | block1 => exact told (first _)
  | _ => exact fun c member => absurd member List.not_mem_nil

/-- A shared case offers no more options than there are, unless it is the one of Max-Age. -/
theorem mappedOffer_length {sym : EcOptSym} (other : sym = .maxAge → src.occurrences .maxAge ≠ []) :
    (mappedOffer order src sym).length ≤ (src.occurrences sym).length := by
  have first {tell : EcOpt → Carried} (taken : EcOpt → Prop) [DecidablePred taken] :
      ((firstTaken taken (src.occurrences sym)).map tell).length ≤ (src.occurrences sym).length := by
    rw [List.length_map]
    exact firstTaken_length taken _
  cases sym with
  | contentType => exact first _
  | maxAge =>
      change (maxAgeOffer order (src.occurrences .maxAge)).length ≤ _
      cases listed : src.occurrences .maxAge with
      | nil => exact absurd listed (other rfl)
      | cons o rest =>
          rw [maxAgeOffer, List.length_cons]
          split
          · split
            · exact Nat.le_add_left 1 _
            · exact Nat.zero_le _
          · exact Nat.le_add_left 1 _
  | etag =>
      change (((src.occurrences .etag).filter fun o => Short o).map _).length ≤ _
      rw [List.length_map]
      exact List.length_filter_le _ _
  | observe => exact first _
  | block2 => exact first _
  | block1 => exact first _
  | _ => exact Nat.zero_le _

end Exactness

end Webthings.Apps
