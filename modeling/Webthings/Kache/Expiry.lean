import Webthings.Kache.Retrieval

namespace Webthings.Kache
open Webthings.Evcoap
open Webthings.Memory
open Webthings.Transition

section Model

variable (order : ByteOrder)

/-- The cache with the representations whose timers have fired. -/
structure Watched where
  kache : KacheState
  fired : List (Ptr KacheRep)

def Watched.init : Watched := ⟨kacheInit, []⟩

/-- The representation whose timer an event lets fire. -/
def KacheEvent.fires (kache : KacheState) : KacheEvent → Option KacheTimerArg
  | .store _ => none
  | .expire n => kache.timers[n]?

def watchStep (w : Watched) (event : KacheEvent) : Except KacheFault Watched :=
  ((kacheMachine order).step w.kache event).map fun kache =>
    ⟨kache, ((event.fires w.kache).map KacheTimerArg.rep).toList ++ w.fired⟩

def watchMachine : Machine Watched KacheEvent KacheFault := ⟨watchStep order⟩

/-- Every object in the map is live, under its own key, and has at least one representation, at most one for each media
type, and none whose timer has fired. -/
def Consistent (w : Watched) : Prop :=
  ∀ key obj, kacheGet w.kache key = some obj → ∃ o, w.kache.objs.cells obj = some o ∧ o.key = key ∧ o.reps ≠ [] ∧
    (∃ shelf, Shelf w.kache.reps o.reps shelf ∧ (shelf.map KacheRep.mediaType).Nodup) ∧
    ∀ rep ∈ o.reps, rep ∉ w.fired

/-- A step takes an object out of the map exactly when the timer of its last representation fires. -/
def RemovesExactly (w next : Watched) (event : KacheEvent) : Prop :=
  ∀ key obj o, kacheGet w.kache key = some obj → w.kache.objs.cells obj = some o →
    (kacheGet next.kache key ≠ some obj ↔
      ∃ arg, event.fires w.kache = some arg ∧ arg.obj = obj ∧ o.reps = [arg.rep])

/-- The step is defined, leaves the map consistent, and removes the objects that it should. -/
def Expected (w : Watched) (event : KacheEvent) : Prop :=
  ∃ next, watchStep order w event = .ok next ∧ Consistent next ∧ RemovesExactly w next event

/-- The representations under the literal. -/
def KacheState.shelf (kache : KacheState) : List KacheRep :=
  match kacheGet kache literalKey with
  | none => []
  | some obj =>
      match kache.objs.cells obj with
      | none => []
      | some o => kache.reps.read o.reps

/-- A store is for the literal and can be written, and a representation whose timer fires can be cleared. -/
def Careful (w : Watched) : KacheEvent → Prop
  | .store call => call.uri = literalKey ∧ Writable order w.kache.shelf call
  | .expire n => ∀ arg rep, w.kache.timers[n]? = some arg → w.kache.reps.cells arg.rep = some rep → rep.Intact

/-- The object under the literal has the literal as its key, the pending timers are those of its representations, and
the representations whose timers have fired are gone for good. -/
structure Tended (w : Watched) : Prop where
  shelved : Shelved w.kache w.kache.shelf
  key : ∀ obj o, kacheGet w.kache literalKey = some obj → w.kache.objs.cells obj = some o →
    o.key = literalKey ∧ ∀ rep ∈ o.reps, ⟨rep, obj⟩ ∈ w.kache.timers
  timers : ∀ arg ∈ w.kache.timers, kacheGet w.kache literalKey = some arg.obj ∧
    ∃ o, w.kache.objs.cells arg.obj = some o ∧ arg.rep ∈ o.reps
  distinct : w.kache.timers.Nodup
  fired : ∀ rep ∈ w.fired, w.kache.reps.cells rep = none ∧ rep.id < w.kache.reps.next

end Model

section Tended

variable {w : Watched}

theorem Shelf.read {heap : Heap KacheRep} {list : List (Ptr KacheRep)} {shelf : List KacheRep}
    (holds : Shelf heap list shelf) : heap.read list = shelf := by
  induction holds with
  | nil => rfl
  | cons here _ ih => rw [heap.read_cons here, ih]

/-- A state has the shelf that it is shelved with. -/
theorem Shelved.shelf_eq {kache : KacheState} {shelf : List KacheRep} (shelved : Shelved kache shelf) :
    kache.shelf = shelf := by
  unfold KacheState.shelf
  cases found : kacheGet kache literalKey with
  | none => exact (shelved.vacant found).symm
  | some obj =>
      obtain ⟨_, o, there, holds⟩ := shelved.holds obj found
      dsimp only
      rw [there]
      exact Shelf.read holds

theorem Tended.consistent (tended : Tended w) : Consistent w := by
  intro key obj found
  have literal := tended.shelved.only key obj found
  subst literal
  obtain ⟨some, o, there, holds⟩ := tended.shelved.holds obj found
  refine ⟨o, there, (tended.key obj o found there).1, ?_, ⟨_, holds, tended.shelved.distinct⟩, ?_⟩
  · intro empty
    rw [empty] at holds
    exact some (List.forall₂_nil_left_iff.mp holds)
  · intro rep member fired
    obtain ⟨_, _, here⟩ := Shelf.mem holds member
    cases here.symm.trans (tended.fired rep fired).1

/-- The timers that are pending are those of the representations under the literal. -/
theorem Tended.pending (tended : Tended w) {obj : Ptr KacheObj} {o : KacheObj}
    (found : kacheGet w.kache literalKey = some obj) (there : w.kache.objs.cells obj = some o) (arg : KacheTimerArg) :
    arg ∈ w.kache.timers ↔ arg.obj = obj ∧ arg.rep ∈ o.reps := by
  constructor
  · intro member
    obtain ⟨found', o', there', linked⟩ := tended.timers arg member
    have same : obj = arg.obj := Option.some.inj (found.symm.trans found')
    rw [← same, there] at there'
    cases there'
    exact ⟨same.symm, linked⟩
  · rintro ⟨same, member⟩
    have pending := (tended.key obj o found there).2 arg.rep member
    rw [← same] at pending
    exact pending

theorem watched_init : Tended Watched.init where
  shelved := kacheInit_shelved
  key := fun _ _ found => nomatch found
  timers := fun _ member => nomatch member
  distinct := List.nodup_nil
  fired := fun _ member => nomatch member

theorem KacheTimerArg.eq_iff (arg : KacheTimerArg) (rep : Ptr KacheRep) (obj : Ptr KacheObj) :
    arg = ⟨rep, obj⟩ ↔ arg.obj = obj ∧ arg.rep = rep := by
  cases arg
  rw [KacheTimerArg.mk.injEq, and_comm]

/-- Memory that is yet to be allocated has no timer. -/
theorem Tended.top_untimed (tended : Tended w) {arg : KacheTimerArg} (pending : arg ∈ w.kache.timers) :
    arg.rep ≠ w.kache.reps.top := by
  obtain ⟨found, o, there, linked⟩ := tended.timers arg pending
  obtain ⟨_, o', there', holds⟩ := tended.shelved.holds arg.obj found
  rw [there] at there'
  cases there'
  obtain ⟨_, _, here⟩ := Shelf.mem holds linked
  exact w.kache.reps.ne_top here

variable (order : ByteOrder) {call : StoreCall}

/-- The timer of the representation in a slot is pending after the store, and no other timer has come or gone. -/
theorem Tended.stored_timers (tended : Tended w) {slot : Slot} {rest : List KacheRep} (literal : call.uri = literalKey)
    (ready : SlotReady w.kache call.uri slot rest) {o : KacheObj} (origin : Origin w.kache call.uri slot o)
    (content : KacheRep) : o.key = literalKey ∧ (slot.stored content).timers.Nodup ∧
      ∀ arg, arg ∈ (slot.stored content).timers ↔ arg.obj = slot.obj ∧ arg.rep ∈ o.reps ++ [slot.rep] := by
  rw [Slot.stored_timers, ready.timers]
  cases origin with
  | planted missing obj fresh rep =>
      have none : w.kache.timers = [] := by
        apply List.eq_nil_iff_forall_not_mem.mpr
        intro arg member
        have found := (tended.timers arg member).1
        rw [literal] at missing
        cases missing.symm.trans found
      subst fresh
      rw [none]
      refine ⟨literal, List.nodup_singleton _, fun arg => ?_⟩
      simp only [List.any_nil, Bool.false_eq_true, if_false, List.nil_append, List.mem_singleton]
      exact arg.eq_iff slot.rep slot.obj
  | added old found there same rep =>
      subst same
      rw [literal] at found
      have pending := tended.pending found there
      have new : ∀ arg ∈ w.kache.timers, arg.rep ≠ slot.rep := by
        intro arg member
        rw [rep]
        exact tended.top_untimed member
      have others : (w.kache.timers.any fun timer => timer.rep = slot.rep) = false := by
        rw [List.any_eq_false]
        intro arg member
        simpa using new arg member
      rw [others]
      refine ⟨(tended.key slot.obj o found there).1, ?_, fun arg => ?_⟩
      · rw [if_neg (by decide), List.nodup_append]
        refine ⟨tended.distinct, List.nodup_singleton _, fun arg member other single same => ?_⟩
        rw [List.mem_singleton.mp single] at same
        exact new arg member (congrArg KacheTimerArg.rep same)
      · rw [if_neg (by decide), List.mem_append, List.mem_append, List.mem_singleton, List.mem_singleton, pending arg,
          arg.eq_iff slot.rep slot.obj]
        exact and_or_left.symm
  | reused old found there removed rep =>
      rw [literal] at found
      have pending := tended.pending found there
      have own : (w.kache.timers.any fun timer => timer.rep = slot.rep) = true := by
        rw [List.any_eq_true]
        exact ⟨⟨slot.rep, slot.obj⟩, (pending _).mpr ⟨rfl, rep⟩, by simp⟩
      rw [own, if_pos rfl, removed]
      refine ⟨(tended.key slot.obj old found there).1, tended.distinct, fun arg => ?_⟩
      rw [pending arg, List.mem_append, List.mem_singleton]
      apply and_congr_right
      intro _
      constructor
      · intro linked
        by_cases same : arg.rep = slot.rep
        · exact Or.inr same
        · exact Or.inl ((List.mem_erase_of_ne same).mpr linked)
      · rintro (linked | same)
        · exact List.mem_of_mem_erase linked
        · rw [same]
          exact rep

/-- A store for the literal that can be written keeps the cache tended and the object in the map. -/
theorem Tended.store (tended : Tended w) (literal : call.uri = literalKey)
    (writable : Writable order w.kache.shelf call) :
    ∃ next, watchStep order w (.store call) = .ok next ∧ Tended next ∧ RemovesExactly w next (.store call) := by
  obtain ⟨slot, content, stored, ready, shelved⟩ := store_writable order tended.shelved writable
  obtain ⟨o, there, outside, holds, origin⟩ := ready.holds
  obtain ⟨key, distinct, pending⟩ := tended.stored_timers literal ready origin content
  have get : ∀ key, kacheGet (slot.stored content) key = if key = literalKey then some slot.obj else none := by
    intro key
    unfold kacheGet
    rw [Slot.stored_map]
    exact ready.map key
  have obj : (slot.stored content).objs.cells slot.obj = some {o with reps := o.reps ++ [slot.rep]} := by
    rw [Slot.stored_objs, Heap.modify_self, there]
    rfl
  have step : watchStep order w (.store call) = .ok ⟨slot.stored content, w.fired⟩ := by
    unfold watchStep
    change (kacheStoreEvcoapResponse order w.kache call).map _ = _
    rw [stored]
    rfl
  refine ⟨⟨slot.stored content, w.fired⟩, step, ?_, ?_⟩
  · refine ⟨?_, fun p o' found there' => ?_, fun arg member => ?_, distinct, fun rep fired => ?_⟩
    · change Shelved (slot.stored content) (slot.stored content).shelf
      rw [shelved.shelf_eq]
      exact shelved
    · have same : slot.obj = p := by
        have found' := get literalKey
        rw [if_pos rfl] at found'
        exact Option.some.inj (found'.symm.trans found)
      subst same
      rw [obj] at there'
      cases there'
      exact ⟨key, fun rep linked => (pending ⟨rep, slot.obj⟩).mpr ⟨rfl, linked⟩⟩
    · obtain ⟨same, linked⟩ := (pending arg).mp member
      rw [same]
      exact ⟨(get literalKey).trans (if_pos rfl), _, obj, linked⟩
    · obtain ⟨gone, below⟩ := tended.fired rep fired
      have kept := ready.kept rep below
      change (slot.stored content).reps.cells rep = none ∧ rep.id < (slot.stored content).reps.next
      rw [Slot.stored_reps]
      constructor
      · have other : rep ≠ slot.rep := by
          rintro rfl
          have live := ready.live
          rw [kept, gone] at live
          cases live
        rw [Heap.modify_other _ _ other, kept]
        exact gone
      · exact Nat.lt_of_lt_of_le below ready.grows
  · intro key' p o' found _
    have same := tended.shelved.only key' p found
    subst same
    have obj : slot.obj = p := by
      cases origin with
      | planted missing _ _ _ =>
          rw [literal, found] at missing
          cases missing
      | added _ found' _ _ _ =>
          rw [literal, found] at found'
          exact (Option.some.inj found').symm
      | reused _ found' _ _ _ =>
          rw [literal, found] at found'
          exact (Option.some.inj found').symm
    constructor
    · intro removed
      exact absurd ((get literalKey).trans (by rw [if_pos rfl, obj])) removed
    · rintro ⟨arg, none, _⟩
      cases none

/-- What is left of the cache when a timer has fired. -/
def KacheState.without (kache : KacheState) (arg : KacheTimerArg) (o : KacheObj) : KacheState where
  objs :=
    let removed := kache.objs.modify arg.obj fun o => {o with reps := o.reps.erase arg.rep}
    if o.reps.erase arg.rep = [] then removed.free arg.obj else removed
  reps := kache.reps.free arg.rep
  map := if o.reps.erase arg.rep = [] then kache.map.erase o.key else kache.map
  timers := kache.timers

/-- A representation whose timer fires has to be intact. -/
theorem kacheEvcoapTimerCb_eq {kache : KacheState} {arg : KacheTimerArg} {o : KacheObj} {rep : KacheRep}
    (there : kache.objs.cells arg.obj = some o) (here : kache.reps.cells arg.rep = some rep) :
    kacheEvcoapTimerCb kache arg = if rep.Intact then .ok (kache.without arg o) else .error .disposed := by
  unfold kacheEvcoapTimerCb KacheState.without
  rw [there]
  dsimp only
  by_cases last : o.reps.erase arg.rep = []
  · simp only [last, if_true, kacheUnset, kacheRemoveRep, here, kacheClearKacheRep_eq]
    split <;> rfl
  · simp only [last, if_false, kacheRemoveRep, here, kacheClearKacheRep_eq]
    split <;> rfl

/-- The object and the representation of a timer that is due are live. -/
theorem Tended.due (tended : Tended w) {arg : KacheTimerArg} (member : arg ∈ w.kache.timers) :
    ∃ o rep, w.kache.objs.cells arg.obj = some o ∧ o.key = literalKey ∧ arg.rep ∈ o.reps ∧
      w.kache.reps.cells arg.rep = some rep ∧ Shelf w.kache.reps o.reps w.kache.shelf := by
  obtain ⟨found, o, there, linked⟩ := tended.timers arg member
  obtain ⟨_, o', there', holds⟩ := tended.shelved.holds arg.obj found
  rw [there] at there'
  cases there'
  obtain ⟨rep, _, here⟩ := Shelf.mem holds linked
  exact ⟨o, rep, there, (tended.key arg.obj o found there).1, linked, here, holds⟩

/-- What is watched when a timer has fired. -/
def Watched.after (w : Watched) (arg : KacheTimerArg) (o : KacheObj) : Watched where
  kache := {w.kache with timers := w.kache.timers.erase arg}.without arg o
  fired := arg.rep :: w.fired

theorem Tended.watchStep_expire (tended : Tended w) {n : Nat} {arg : KacheTimerArg} {o : KacheObj} {rep : KacheRep}
    (due : w.kache.timers[n]? = some arg) (there : w.kache.objs.cells arg.obj = some o)
    (here : w.kache.reps.cells arg.rep = some rep) :
    watchStep order w (.expire n) = if rep.Intact then .ok (w.after arg o) else .error .disposed := by
  have timers : w.kache.timers.eraseIdx n = w.kache.timers.erase arg := by
    obtain ⟨bound, same⟩ := List.getElem?_eq_some_iff.mp due
    rw [← same]
    exact (tended.distinct.erase_getElem n bound).symm
  change (expire w.kache n).map (fun kache => Watched.mk kache ((w.kache.timers[n]?.map _).toList ++ w.fired)) = _
  unfold expire
  rw [due]
  dsimp only
  have fires : kacheEvcoapTimerCb {w.kache with timers := w.kache.timers.erase arg} arg = _ :=
    kacheEvcoapTimerCb_eq there here
  rw [timers, fires]
  split
  · rfl
  · rfl

/-- The representations whose timers have fired are gone, and no new one is at their place. -/
theorem Tended.after_fired (tended : Tended w) {arg : KacheTimerArg} {rep : KacheRep}
    (here : w.kache.reps.cells arg.rep = some rep) (o : KacheObj) :
    ∀ p ∈ (w.after arg o).fired,
      (w.after arg o).kache.reps.cells p = none ∧ p.id < (w.after arg o).kache.reps.next := by
  intro p fired
  change (w.kache.reps.free arg.rep).cells p = none ∧ p.id < w.kache.reps.next
  rcases List.mem_cons.mp fired with rfl | earlier
  · exact ⟨Heap.free_self _ _, w.kache.reps.below here⟩
  · obtain ⟨gone, below⟩ := tended.fired p earlier
    refine ⟨?_, below⟩
    by_cases same : p = arg.rep
    · rw [same, Heap.free_self]
    · rw [Heap.free_other _ same]
      exact gone

/-- With its last representation the object leaves the map, and no timer is left. -/
theorem Tended.after_last (tended : Tended w) {arg : KacheTimerArg} {o : KacheObj} (member : arg ∈ w.kache.timers)
    (there : w.kache.objs.cells arg.obj = some o) (last : o.reps.erase arg.rep = []) :
    Tended (w.after arg o) ∧ (∀ key, kacheGet (w.after arg o).kache key = none) ∧ (w.after arg o).kache.shelf = [] := by
  obtain ⟨o', rep, there', key, linked, here, _⟩ := tended.due member
  rw [there] at there'
  cases there'
  have found := (tended.timers arg member).1
  have get : ∀ key, kacheGet (w.after arg o).kache key = none := by
    intro other
    change AList.lookup other (if o.reps.erase arg.rep = [] then w.kache.map.erase o.key else w.kache.map) = none
    rw [if_pos last, key]
    by_cases same : other = literalKey
    · rw [same]
      exact AList.lookup_erase _ _
    · rw [AList.lookup_erase_ne same]
      have got := tended.shelved.get other
      rw [if_neg same] at got
      exact got
  have shelf : (w.after arg o).kache.shelf = [] := by
    unfold KacheState.shelf
    rw [get literalKey]
  have timers : (w.after arg o).kache.timers = [] := by
    apply List.eq_nil_iff_forall_not_mem.mpr
    intro other pending
    obtain ⟨different, pending⟩ := tended.distinct.mem_erase_iff.mp pending
    obtain ⟨obj, linked'⟩ := (tended.pending found there other).mp pending
    have single : o.reps = [arg.rep] := by
      rcases List.erase_eq_nil_iff.mp last with empty | single
      · rw [empty] at linked
        cases linked
      · exact single
    rw [single] at linked'
    cases other
    cases obj
    cases List.mem_singleton.mp linked'
    exact different rfl
  refine ⟨⟨?_, fun obj _ found' => ?_, fun other pending => ?_, ?_, fun p fired => ?_⟩, get, shelf⟩
  · rw [shelf]
    refine ⟨fun key obj found' => ?_, List.nodup_nil, fun _ => rfl, fun obj found' => ?_⟩
    · rw [get key] at found'
      cases found'
    · rw [get literalKey] at found'
      cases found'
  · rw [get literalKey] at found'
    cases found'
  · rw [timers] at pending
    cases pending
  · rw [timers]
    exact List.nodup_nil
  · exact tended.after_fired here o p fired

/-- The object with its other representations stays in the map. -/
theorem Tended.after_more (tended : Tended w) {arg : KacheTimerArg} {o : KacheObj} (member : arg ∈ w.kache.timers)
    (there : w.kache.objs.cells arg.obj = some o) (more : o.reps.erase arg.rep ≠ []) :
    Tended (w.after arg o) ∧ (∀ key, kacheGet (w.after arg o).kache key = kacheGet w.kache key) ∧
      ∀ rep ∈ (w.after arg o).kache.shelf, rep ∈ w.kache.shelf := by
  obtain ⟨o', rep, there', key, linked, here, holds⟩ := tended.due member
  rw [there] at there'
  cases there'
  have found := (tended.timers arg member).1
  have get : ∀ key, kacheGet (w.after arg o).kache key = kacheGet w.kache key := by
    intro other
    change AList.lookup other (if o.reps.erase arg.rep = [] then w.kache.map.erase o.key else w.kache.map) = _
    rw [if_neg more]
    rfl
  have obj : (w.after arg o).kache.objs.cells arg.obj = some {o with reps := o.reps.erase arg.rep} := by
    change Heap.cells (if o.reps.erase arg.rep = [] then _ else _) arg.obj = _
    rw [if_neg more, Heap.modify_self, there]
    rfl
  have nodup := Shelf.nodup holds tended.shelved.distinct
  have kept : Shelf (w.after arg o).kache.reps (o.reps.erase arg.rep)
      (w.kache.shelf.filter fun other => other.mediaType ≠ rep.mediaType) := by
    apply (Shelf.erase holds tended.shelved.distinct linked here).congr
    intro p left
    apply Heap.free_other
    exact (nodup.mem_erase_iff.mp left).1
  have only : ∀ p, kacheGet (w.after arg o).kache literalKey = some p → p = arg.obj := by
    intro p found'
    rw [get, found] at found'
    exact (Option.some.inj found').symm
  have shelved : Shelved (w.after arg o).kache
      (w.kache.shelf.filter fun other => other.mediaType ≠ rep.mediaType) := by
    refine ⟨fun key p found' => ?_, ?_, fun missing => ?_, fun p found' => ?_⟩
    · rw [get] at found'
      exact tended.shelved.only key p found'
    · exact tended.shelved.distinct.sublist (List.filter_sublist.map _)
    · rw [get, found] at missing
      cases missing
    · rw [only p found']
      refine ⟨fun empty => ?_, _, obj, kept⟩
      rw [empty] at kept
      exact more (List.forall₂_nil_right_iff.mp kept)
  refine ⟨⟨?_, fun p o' found' there' => ?_, fun other pending => ?_, tended.distinct.erase arg,
    tended.after_fired here o⟩, get, fun other on => ?_⟩
  · rw [shelved.shelf_eq]
    exact shelved
  · rw [only p found', obj] at there'
    cases there'
    refine ⟨key, fun p' left => ?_⟩
    obtain ⟨different, left⟩ := nodup.mem_erase_iff.mp left
    apply tended.distinct.mem_erase_iff.mpr
    refine ⟨fun same => different (congrArg KacheTimerArg.rep same), ?_⟩
    exact (tended.pending found there _).mpr ⟨only p found', left⟩
  · obtain ⟨different, pending⟩ := tended.distinct.mem_erase_iff.mp pending
    obtain ⟨same, linked'⟩ := (tended.pending found there other).mp pending
    rw [same]
    refine ⟨(get literalKey).trans found, _, obj, ?_⟩
    apply (List.mem_erase_of_ne ?_).mpr linked'
    intro equal
    exact different ((other.eq_iff arg.rep arg.obj).mpr ⟨same, equal⟩)
  · rw [shelved.shelf_eq] at on
    exact List.mem_of_mem_filter on

/-- Where no timer is pending nothing happens. -/
theorem watchStep_idle {n : Nat} (due : w.kache.timers[n]? = none) : watchStep order w (.expire n) = .ok w := by
  change (expire w.kache n).map (fun kache => Watched.mk kache ((w.kache.timers[n]?.map _).toList ++ w.fired)) = _
  unfold expire
  rw [due]
  rfl

/-- A timer that fires for an intact representation keeps the cache tended. -/
theorem Tended.expire (tended : Tended w) {n : Nat} (careful : Careful order w (.expire n)) :
    ∃ next, watchStep order w (.expire n) = .ok next ∧ Tended next ∧ RemovesExactly w next (.expire n) := by
  cases due : w.kache.timers[n]? with
  | none =>
      refine ⟨w, watchStep_idle order due, tended, fun key obj o found _ => ?_⟩
      constructor
      · intro removed
        exact absurd found removed
      · rintro ⟨arg, fires, _⟩
        cases due.symm.trans fires
  | some arg =>
      have member := List.mem_of_getElem? due
      obtain ⟨o, rep, there, _, linked, here, _⟩ := tended.due member
      have found := (tended.timers arg member).1
      have step := tended.watchStep_expire order due there here
      rw [if_pos (careful arg rep due here)] at step
      by_cases last : o.reps.erase arg.rep = []
      · obtain ⟨kept, get, _⟩ := tended.after_last member there last
        refine ⟨_, step, kept, fun key obj o' found' there' => ?_⟩
        have literal := tended.shelved.only key obj found'
        subst literal
        cases found.symm.trans found'
        cases there.symm.trans there'
        have single : o.reps = [arg.rep] := by
          rcases List.erase_eq_nil_iff.mp last with empty | single
          · rw [empty] at linked
            cases linked
          · exact single
        constructor
        · exact fun _ => ⟨arg, due, rfl, single⟩
        · intro _
          rw [get literalKey]
          exact fun none => nomatch none
      · obtain ⟨kept, get, _⟩ := tended.after_more member there last
        refine ⟨_, step, kept, fun key obj o' found' there' => ?_⟩
        have literal := tended.shelved.only key obj found'
        subst literal
        cases found.symm.trans found'
        cases there.symm.trans there'
        constructor
        · intro removed
          exact absurd ((get literalKey).trans found) removed
        · rintro ⟨other, fires, _, single⟩
          cases due.symm.trans fires
          rw [single] at last
          exact absurd (List.erase_cons_head _ _) last

/-- A store for another URI puts an object under the literal whose key is not the literal. -/
theorem Tended.store_astray (tended : Tended w) (astray : call.uri ≠ literalKey) :
    ¬ Expected order w (.store call) := by
  rintro ⟨next, stepped, consistent, _⟩
  by_cases writable : Writable order w.kache.shelf call
  · obtain ⟨slot, content, stored, ready, _⟩ := store_writable order tended.shelved writable
    obtain ⟨o, there, _, _, origin⟩ := ready.holds
    change (kacheStoreEvcoapResponse order w.kache call).map _ = _ at stepped
    rw [stored] at stepped
    cases stepped
    have planted : kacheGet (slot.stored content) literalKey = some slot.obj := by
      unfold kacheGet
      rw [Slot.stored_map]
      exact (ready.map literalKey).trans (if_pos rfl)
    obtain ⟨o', there', key, _⟩ := consistent literalKey slot.obj planted
    change (slot.stored content).objs.cells slot.obj = some o' at there'
    rw [Slot.stored_objs, Heap.modify_self, there] at there'
    cases there'
    cases origin with
    | planted _ _ fresh _ =>
        subst fresh
        exact astray key
    | added _ found _ _ _ => exact astray (tended.shelved.only _ _ found)
    | reused _ found _ _ _ => exact astray (tended.shelved.only _ _ found)
  · obtain ⟨fault, failed⟩ := store_unwritable order tended.shelved writable
    change (kacheStoreEvcoapResponse order w.kache call).map _ = _ at stepped
    rw [failed] at stepped
    cases stepped

/-- Only a careful event is expected. -/
theorem Tended.careful (tended : Tended w) {event : KacheEvent} (expected : Expected order w event) :
    Careful order w event := by
  cases event with
  | store call =>
      constructor
      · by_contra astray
        exact tended.store_astray order astray expected
      · by_contra unwritable
        obtain ⟨next, stepped, _⟩ := expected
        obtain ⟨fault, failed⟩ := store_unwritable order tended.shelved unwritable
        change (kacheStoreEvcoapResponse order w.kache call).map _ = _ at stepped
        rw [failed] at stepped
        cases stepped
  | expire n =>
      intro arg rep due here
      by_contra broken
      obtain ⟨next, stepped, _⟩ := expected
      obtain ⟨o, _, there, _⟩ := tended.due (List.mem_of_getElem? due)
      rw [tended.watchStep_expire order due there here, if_neg broken] at stepped
      cases stepped

/-- One careful event is defined, keeps the cache tended, and removes the objects that it should. -/
theorem Tended.step (tended : Tended w) {event : KacheEvent} (careful : Careful order w event) :
    ∃ next, watchStep order w event = .ok next ∧ Tended next ∧ RemovesExactly w next event := by
  cases event with
  | store call => exact tended.store order careful.1 careful.2
  | expire n => exact tended.expire order careful

end Tended

section Results

variable (order : ByteOrder)

/-- On a tended cache the events that are expected are the careful ones. -/
theorem expected_iff {w : Watched} (tended : Tended w) (event : KacheEvent) :
    Expected order w event ↔ Careful order w event := by
  constructor
  · exact tended.careful order
  · intro careful
    obtain ⟨next, stepped, kept, removes⟩ := tended.step order careful
    exact ⟨next, stepped, kept.consistent, removes⟩

/-- A run of stores and expirations leaves the map consistent after every event, and removes exactly the objects whose
last representation expires, if and only if every store is for the literal and can be written and every timer fires for
an intact representation. -/
theorem expected_iff_careful (events : List KacheEvent) :
    (watchMachine order).Meets (Expected order) Watched.init events ↔
      (watchMachine order).Meets (Careful order) Watched.init events := by
  refine (watchMachine order).meets_iff_kept Tended _ _ ?_ ?_ events watched_init
  · intro w event next tended careful stepped
    obtain ⟨next', stepped', kept, _⟩ := tended.step order careful
    cases stepped.symm.trans stepped'
    exact kept
  · exact fun w event tended => expected_iff order tended event

/-- An ordinary store is careful on a shelf of intact representations, and so is every timer that fires. -/
theorem ordinary_careful {w : Watched} (tended : Tended w) (intact : ∀ rep ∈ w.kache.shelf, rep.Intact)
    {event : KacheEvent} (ordinary : ∀ call, event = .store call → Ordinary order call) : Careful order w event := by
  cases event with
  | store call =>
      have stored := ordinary call rfl
      refine ⟨stored.uri, tokenFits_none _ stored.token, fun rep old => ?_⟩
      apply intact rep
      unfold StoreCall.old StoreCall.base at old
      rw [if_pos stored.uri] at old
      exact List.mem_of_find?_eq_some old
  | expire n =>
      intro arg rep due here
      obtain ⟨o, _, _, _, linked, _, holds⟩ := tended.due (List.mem_of_getElem? due)
      obtain ⟨other, on, there⟩ := Shelf.mem holds linked
      cases here.symm.trans there
      exact intact rep on

/-- An ordinary store leaves only intact representations on the shelf, and so does a timer. -/
theorem ordinary_intact {w next : Watched} (tended : Tended w) (intact : ∀ rep ∈ w.kache.shelf, rep.Intact)
    {event : KacheEvent} (ordinary : ∀ call, event = .store call → Ordinary order call)
    (stepped : watchStep order w event = .ok next) : ∀ rep ∈ next.kache.shelf, rep.Intact := by
  have careful := ordinary_careful order tended intact ordinary
  cases event with
  | store call =>
      have stored := ordinary call rfl
      obtain ⟨slot, content, ran, _, shelved⟩ := store_writable order tended.shelved careful.2
      change (kacheStoreEvcoapResponse order w.kache call).map _ = _ at stepped
      rw [ran] at stepped
      cases stepped
      intro rep on
      change rep ∈ (slot.stored content).shelf at on
      rw [shelved.shelf_eq] at on
      rcases List.mem_append.mp on with other | single
      · have base := List.mem_of_mem_filter other
        unfold StoreCall.base at base
        rw [if_pos stored.uri] at base
        exact intact rep base
      · rw [List.mem_singleton.mp single]
        exact stored.written _
  | expire n =>
      cases due : w.kache.timers[n]? with
      | none =>
          rw [watchStep_idle order due] at stepped
          cases stepped
          exact intact
      | some arg =>
          have member := List.mem_of_getElem? due
          obtain ⟨o, rep, there, _, _, here, _⟩ := tended.due member
          rw [tended.watchStep_expire order due there here, if_pos (careful arg rep due here)] at stepped
          cases stepped
          intro other on
          by_cases last : o.reps.erase arg.rep = []
          · rw [(tended.after_last member there last).2.2] at on
            cases on
          · exact intact other ((tended.after_more member there last).2.2 other on)

/-- Ordinary stores and expirations in any order keep the map as it should be. -/
theorem ordinary_expected {events : List KacheEvent} (ordinary : ∀ call, .store call ∈ events → Ordinary order call) :
    (watchMachine order).Meets (Expected order) Watched.init events := by
  have each : (watchMachine order).Meets (fun _ event => ∀ call, event = .store call → Ordinary order call)
      Watched.init events := by
    apply Machine.meets_each
    intro event member call same
    subst same
    exact ordinary call member
  refine each.imp (fun w => Tended w ∧ ∀ rep ∈ w.kache.shelf, rep.Intact) (Expected order) ?_ ?_
    ⟨watched_init, fun _ on => nomatch on⟩
  · rintro w event next ⟨tended, intact⟩ stored stepped
    obtain ⟨next', stepped', kept, _⟩ := tended.step order (ordinary_careful order tended intact stored)
    cases stepped.symm.trans stepped'
    exact ⟨kept, ordinary_intact order tended intact stored stepped⟩
  · rintro w event ⟨tended, intact⟩ stored
    exact (expected_iff order tended event).mpr (ordinary_careful order tended intact stored)

end Results

/-- A response for the literal without a payload. -/
def silentStore : StoreCall := ⟨literalKey, ⟨storedOpts 0 1, []⟩, 0, []⟩

/-- What is stored for another URI lies under the literal with its own key, and a response without a payload leaves the
pointer to the payload that was released, which is released again when the timer fires. -/
theorem otherUri_astray :
    ¬ (watchMachine .little).Meets (Expected .little) Watched.init [.store (storeOf otherUri 0 1)] ∧
    (∃ kache obj o, kacheStoreEvcoapResponse .little kacheInit (storeOf otherUri 0 1) = .ok kache ∧
      kacheGet kache literalKey = some obj ∧ kache.objs.cells obj = some o ∧ o.key = otherUri) ∧
    (kacheMachine .little).run kacheInit [.store (storeOf literalKey 0 1), .store silentStore, .expire 0] =
      .error .disposed := by
  refine ⟨?_, ⟨_, _, _, rfl, rfl, rfl, rfl⟩, rfl⟩
  rintro ⟨⟨next, stepped, consistent, _⟩, _⟩
  cases stepped
  obtain ⟨o, there, key, _⟩ := consistent literalKey ⟨0⟩ rfl
  cases there
  exact absurd key (by decide)

end Webthings.Kache
