import Webthings.Kache.KeyVals

namespace Webthings.Kache
open Webthings.Evcoap
open Webthings.Memory
open Webthings.Transition

/-- The list links the cells of a shelf in its order. -/
def Shelf (heap : Heap KacheRep) (list : List (Ptr KacheRep)) (shelf : List KacheRep) : Prop :=
  List.Forall₂ (fun p rep => heap.cells p = some rep) list shelf

section Shelf

variable {heap heap' : Heap KacheRep} {list : List (Ptr KacheRep)} {shelf : List KacheRep}

theorem Shelf.congr (holds : Shelf heap list shelf) (same : ∀ p ∈ list, heap'.cells p = heap.cells p) :
    Shelf heap' list shelf := by
  induction holds with
  | nil => exact List.Forall₂.nil
  | @cons p rep list shelf here rest ih =>
      have head := same p List.mem_cons_self
      exact List.Forall₂.cons (head.trans here) (ih fun q member => same q (List.mem_cons_of_mem p member))

theorem Shelf.snoc (holds : Shelf heap list shelf) {p : Ptr KacheRep} {rep : KacheRep} (here : heap.cells p = some rep) :
    Shelf heap (list ++ [p]) (shelf ++ [rep]) := by
  induction holds with
  | nil => exact List.Forall₂.cons here List.Forall₂.nil
  | cons first _ ih => exact List.Forall₂.cons first ih

/-- A linked cell is on the shelf. -/
theorem Shelf.mem (holds : Shelf heap list shelf) {p : Ptr KacheRep} (member : p ∈ list) :
    ∃ rep ∈ shelf, heap.cells p = some rep := by
  induction holds with
  | nil => cases member
  | @cons q rep list shelf here rest ih =>
      rcases List.mem_cons.mp member with rfl | later
      · exact ⟨rep, List.mem_cons_self, here⟩
      · obtain ⟨other, on, there⟩ := ih later
        exact ⟨other, List.mem_cons_of_mem rep on, there⟩

/-- Representations of different types are linked by different pointers. -/
theorem Shelf.nodup (holds : Shelf heap list shelf) (distinct : (shelf.map KacheRep.mediaType).Nodup) : list.Nodup := by
  induction holds with
  | nil => exact List.nodup_nil
  | @cons p rep list shelf here rest ih =>
      rw [List.map_cons, List.nodup_cons] at distinct
      refine List.nodup_cons.mpr ⟨fun member => ?_, ih distinct.2⟩
      obtain ⟨other, on, there⟩ := Shelf.mem rest member
      have same : rep = other := Option.some.inj (here.symm.trans there)
      exact distinct.1 (List.mem_map.mpr ⟨other, on, congrArg KacheRep.mediaType same.symm⟩)

/-- The walk over the representations finds what the shelf has. -/
theorem Shelf.search_none (holds : Shelf heap list shelf) {test : KacheRep → Bool} (missed : shelf.find? test = none) :
    heap.search KacheFault.disposed test list = .ok none := by
  induction holds with
  | nil => rfl
  | @cons p rep list shelf here rest ih =>
      rw [List.find?_cons] at missed
      rw [Heap.search, here]
      dsimp only
      cases passed : test rep with
      | true =>
          rw [passed] at missed
          cases missed
      | false =>
          rw [passed] at missed
          exact ih missed

theorem Shelf.search_some (holds : Shelf heap list shelf) {test : KacheRep → Bool} {rep : KacheRep}
    (found : shelf.find? test = some rep) :
    ∃ p ∈ list, heap.search KacheFault.disposed test list = .ok (some p) ∧ heap.cells p = some rep := by
  induction holds with
  | nil => cases found
  | @cons q other list shelf here rest ih =>
      rw [List.find?_cons] at found
      rw [Heap.search, here]
      dsimp only
      cases passed : test other with
      | true =>
          rw [passed] at found
          cases found
          exact ⟨q, List.mem_cons_self, rfl, here⟩
      | false =>
          rw [passed] at found
          obtain ⟨p, member, searched, there⟩ := ih found
          exact ⟨p, List.mem_cons_of_mem q member, searched, there⟩

/-- Without a representation and its pointer the others stay. -/
theorem Shelf.erase (holds : Shelf heap list shelf) (distinct : (shelf.map KacheRep.mediaType).Nodup)
    {p : Ptr KacheRep} {rep : KacheRep} (member : p ∈ list) (here : heap.cells p = some rep) :
    Shelf heap (list.erase p) (shelf.filter fun other => other.mediaType ≠ rep.mediaType) := by
  induction holds with
  | nil => cases member
  | @cons q other list shelf there rest ih =>
      rw [List.map_cons, List.nodup_cons] at distinct
      by_cases same : q = p
      · subst same
        have equal : other = rep := Option.some.inj (there.symm.trans here)
        subst equal
        have others : ∀ x ∈ shelf, x.mediaType ≠ other.mediaType := by
          intro x on type
          exact distinct.1 (List.mem_map.mpr ⟨x, on, type⟩)
        rw [List.erase_cons_head, List.filter_cons_of_neg (by simp), List.filter_eq_self.mpr (by simpa using others)]
        exact rest
      · have later : p ∈ list := (List.mem_cons.mp member).resolve_left fun equal => same equal.symm
        obtain ⟨x, on, place⟩ := Shelf.mem rest later
        have equal : x = rep := Option.some.inj (place.symm.trans here)
        have different : other.mediaType ≠ rep.mediaType := by
          intro type
          exact distinct.1 (List.mem_map.mpr ⟨x, on, by rw [equal, type]⟩)
        rw [List.erase_cons_tail (by simpa using same), List.filter_cons_of_pos (by simpa using different)]
        exact List.Forall₂.cons there (ih distinct.2 later)

end Shelf

section Contents

/-- A pointer after a release. -/
def Buffer.cleared : Buffer → Buffer
  | .null => .null
  | _ => .released

def KacheRep.cleared (rep : KacheRep) : KacheRep :=
  {rep with payload := rep.payload.cleared, etag := rep.etag.cleared, keyvalq := []}

/-- Neither pointer leads to memory that was released. -/
def KacheRep.Intact (rep : KacheRep) : Prop := rep.payload ≠ .released ∧ rep.etag ≠ .released

instance (rep : KacheRep) : Decidable rep.Intact := inferInstanceAs (Decidable (_ ∧ _))

theorem Buffer.release_ok {buffer : Buffer} (intact : buffer ≠ .released) : buffer.release = .ok buffer.cleared := by
  cases buffer with
  | null => rfl
  | holds bytes => rfl
  | released => exact absurd rfl intact

/-- A representation is cleared exactly when it is intact. -/
theorem kacheClearKacheRep_eq (rep : KacheRep) :
    kacheClearKacheRep rep = if rep.Intact then .ok rep.cleared else .error .disposed := by
  unfold kacheClearKacheRep
  by_cases payload : rep.payload = .released
  · rw [if_neg (fun intact => intact.1 payload), payload]
    rfl
  · rw [Buffer.release_ok payload]
    by_cases etag : rep.etag = .released
    · rw [if_neg (fun intact => intact.2 etag), etag]
      rfl
    · rw [if_pos ⟨payload, etag⟩, Buffer.release_ok etag]
      rfl

variable (order : ByteOrder)

/-- What a response makes of a representation. -/
def written (call : StoreCall) (old : KacheRep) : KacheRep :=
  let stored := optioned order call.behind call.response.opts {old with
    mediaType := call.mediaType order
    payload := if call.response.payload = [] then old.payload else .holds call.response.payload}
  {stored with maxAge := if stored.maxAge = 0 then 60 else stored.maxAge}

theorem filled_eq (call : StoreCall) (old : KacheRep) : filled order call old =
    if TokenFits call.behind call.response.opts then .ok (written order call old) else .error .overrun := by
  unfold filled
  dsimp only
  rw [kacheStoreEcOptionsToRep_eq]
  split <;> rfl

end Contents

section Abstract

variable (order : ByteOrder)

/-- The representations that a store can find: none for a URI other than the literal. -/
def StoreCall.base (call : StoreCall) (shelf : List KacheRep) : List KacheRep :=
  if call.uri = literalKey then shelf else []

/-- The representation that a store overwrites. -/
def StoreCall.old (call : StoreCall) (shelf : List KacheRep) : Option KacheRep :=
  (call.base shelf).find? fun rep => rep.mediaType = call.mediaType order

/-- The others that stay on the shelf. -/
def StoreCall.others (call : StoreCall) (shelf : List KacheRep) : List KacheRep :=
  (call.base shelf).filter fun rep => rep.mediaType ≠ call.mediaType order

/-- What a store makes of the representations under the literal. -/
def shelve (shelf : List KacheRep) (call : StoreCall) : List KacheRep :=
  call.others order shelf ++ [written order call (((call.old order shelf).map KacheRep.cleared).getD kacheInitKacheRep)]

/-- A Token of the response fits, and what the response overwrites is intact. -/
structure Writable (shelf : List KacheRep) (call : StoreCall) : Prop where
  token : TokenFits call.behind call.response.opts
  intact : ∀ rep, call.old order shelf = some rep → rep.Intact

/-- The map has nothing but the object under the literal, which holds the representations of a shelf, at most one for
each media type. -/
structure Shelved (kache : KacheState) (shelf : List KacheRep) : Prop where
  only : ∀ key obj, kacheGet kache key = some obj → key = literalKey
  distinct : (shelf.map KacheRep.mediaType).Nodup
  vacant : kacheGet kache literalKey = none → shelf = []
  holds : ∀ obj, kacheGet kache literalKey = some obj →
    shelf ≠ [] ∧ ∃ o, kache.objs.cells obj = some o ∧ Shelf kache.reps o.reps shelf

/-- Where the object and the representation of a slot come from. -/
inductive Origin (kache : KacheState) (uri : List UInt8) (slot : Slot) (o : KacheObj) : Prop where
  | planted (missing : kacheGet kache uri = none) (obj : slot.obj = kache.objs.top) (fresh : o = ⟨uri, []⟩)
      (rep : slot.rep = kache.reps.top)
  | added (old : KacheObj) (found : kacheGet kache uri = some slot.obj) (there : kache.objs.cells slot.obj = some old)
      (same : o = old) (rep : slot.rep = kache.reps.top)
  | reused (old : KacheObj) (found : kacheGet kache uri = some slot.obj) (there : kache.objs.cells slot.obj = some old)
      (removed : o = {old with reps := old.reps.erase slot.rep}) (rep : slot.rep ∈ old.reps)

/-- The object of a slot is the one under the literal and holds the other representations. -/
structure SlotReady (kache : KacheState) (uri : List UInt8) (slot : Slot) (rest : List KacheRep) : Prop where
  map : ∀ key, kacheGet slot.kache key = if key = literalKey then some slot.obj else none
  timers : slot.kache.timers = kache.timers
  kept : ∀ p, p.id < kache.reps.next → slot.kache.reps.cells p = kache.reps.cells p
  grows : kache.reps.next ≤ slot.kache.reps.next
  live : (slot.kache.reps.cells slot.rep).isSome
  holds : ∃ o, slot.kache.objs.cells slot.obj = some o ∧ slot.rep ∉ o.reps ∧ Shelf slot.kache.reps o.reps rest ∧
    Origin kache uri slot o

end Abstract

section Slots

variable {kache : KacheState} {shelf : List KacheRep}

theorem kacheInit_shelved : Shelved kacheInit [] where
  only := fun _ _ found => nomatch found
  distinct := List.nodup_nil
  vacant := fun _ => rfl
  holds := fun _ found => nomatch found

/-- Every lookup in the map is one of the literal. -/
theorem Shelved.get (shelved : Shelved kache shelf) (key : List UInt8) :
    kacheGet kache key = if key = literalKey then kacheGet kache literalKey else none := by
  by_cases same : key = literalKey
  · rw [if_pos same, same]
  · rw [if_neg same]
    cases found : kacheGet kache key with
    | none => rfl
    | some obj => exact absurd (shelved.only key obj found) same

/-- A URI without an object gets a new one. -/
theorem slotFor_planted (shelved : Shelved kache shelf) {uri : List UInt8} (missing : kacheGet kache uri = none)
    (mt : KacheContentType) :
    ∃ slot, slotFor kache uri mt = .ok slot ∧ slot.content = kacheInitKacheRep ∧ SlotReady kache uri slot [] := by
  unfold slotFor
  rw [missing]
  refine ⟨_, rfl, rfl, ⟨fun key => ?_, rfl, fun p below => ?_, Nat.le_succ _, ?_, ⟨uri, []⟩, ?_, by simp,
    List.Forall₂.nil, .planted missing rfl rfl rfl⟩⟩
  · change (kache.map.insert literalKey kache.objs.top).lookup key = _
    by_cases same : key = literalKey
    · rw [if_pos same, same, AList.lookup_insert]
    · rw [if_neg same, AList.lookup_insert_ne same]
      have there := shelved.get key
      rw [if_neg same] at there
      exact there
  · exact Heap.alloc_other _ _ (fun same => absurd (congrArg Ptr.id same) (Nat.ne_of_lt below))
  · change ((kache.reps.alloc kacheInitKacheRep).cells kache.reps.top).isSome
    rw [Heap.alloc_top]
    rfl
  · exact Heap.alloc_top _ _

/-- An object without the media type gets a new representation. -/
theorem slotFor_added (shelved : Shelved kache shelf) {mt : KacheContentType} {obj : Ptr KacheObj}
    (found : kacheGet kache literalKey = some obj)
    (missing : (shelf.find? fun rep => rep.mediaType = mt) = none) :
    ∃ slot, slotFor kache literalKey mt = .ok slot ∧ slot.content = kacheInitKacheRep ∧
      SlotReady kache literalKey slot shelf := by
  obtain ⟨_, o, there, holds⟩ := shelved.holds obj found
  have searched : kacheGetRepByMediaType kache o mt = .ok none := holds.search_none missing
  unfold slotFor
  rw [found]
  dsimp only
  rw [there]
  dsimp only
  rw [searched]
  refine ⟨_, rfl, rfl, ⟨fun key => ?_, rfl, fun p below => ?_, Nat.le_succ _, ?_, o, there, fun member => ?_, ?_,
    .added o found there rfl rfl⟩⟩
  · have got := shelved.get key
    rw [found] at got
    exact got
  · exact Heap.alloc_other _ _ (fun same => absurd (congrArg Ptr.id same) (Nat.ne_of_lt below))
  · change ((kache.reps.alloc kacheInitKacheRep).cells kache.reps.top).isSome
    rw [Heap.alloc_top]
    rfl
  · obtain ⟨rep, _, here⟩ := Shelf.mem holds member
    exact kache.reps.ne_top here rfl
  · apply holds.congr
    intro p member
    obtain ⟨rep, _, here⟩ := Shelf.mem holds member
    exact Heap.alloc_other _ _ (kache.reps.ne_top here)

/-- A representation of the media type is taken out, if it can be cleared. -/
theorem slotFor_reused (shelved : Shelved kache shelf) {mt : KacheContentType} {obj : Ptr KacheObj}
    (found : kacheGet kache literalKey = some obj) {rep : KacheRep}
    (present : (shelf.find? fun rep => rep.mediaType = mt) = some rep) :
    (¬ rep.Intact → slotFor kache literalKey mt = .error .disposed) ∧
      (rep.Intact → ∃ slot, slotFor kache literalKey mt = .ok slot ∧ slot.content = rep.cleared ∧
        SlotReady kache literalKey slot (shelf.filter fun other => other.mediaType ≠ mt)) := by
  obtain ⟨_, o, there, holds⟩ := shelved.holds obj found
  obtain ⟨p, member, searched, here⟩ := holds.search_some present
  have type : rep.mediaType = mt := by simpa using List.find?_some present
  have looked : kacheGetRepByMediaType kache o mt = .ok (some p) := searched
  have slot : slotFor kache literalKey mt =
      (kacheClearKacheRep rep).map fun cleared => ⟨kacheRemoveRep kache obj p, obj, p, cleared⟩ := by
    unfold slotFor
    rw [found]
    dsimp only
    rw [there]
    dsimp only
    rw [looked]
    dsimp only
    rw [here]
  rw [slot, kacheClearKacheRep_eq]
  constructor
  · intro broken
    rw [if_neg broken]
    rfl
  · intro intact
    rw [if_pos intact]
    have nodup := Shelf.nodup holds shelved.distinct
    refine ⟨_, rfl, rfl, ⟨fun key => ?_, rfl, fun _ _ => rfl, Nat.le_refl _, ?_, {o with reps := o.reps.erase p}, ?_,
      nodup.not_mem_erase, ?_, .reused o found there rfl member⟩⟩
    · have got := shelved.get key
      rw [found] at got
      exact got
    · change (kache.reps.cells p).isSome
      rw [here]
      rfl
    · change (kache.objs.modify obj _).cells obj = _
      rw [Heap.modify_self, there]
      rfl
    · rw [← type]
      exact holds.erase shelved.distinct member here

variable (order : ByteOrder) {call : StoreCall}

/-- The slot of a store whose response overwrites nothing that is broken. -/
theorem slotFor_ready (shelved : Shelved kache shelf) (intact : ∀ rep, call.old order shelf = some rep → rep.Intact) :
    ∃ slot, slotFor kache call.uri (call.mediaType order) = .ok slot ∧
      slot.content = ((call.old order shelf).map KacheRep.cleared).getD kacheInitKacheRep ∧
      SlotReady kache call.uri slot (call.others order shelf) := by
  unfold StoreCall.old StoreCall.others StoreCall.base at *
  cases found : kacheGet kache call.uri with
  | none =>
      have nothing : (if call.uri = literalKey then shelf else []) = [] := by
        split
        · rename_i same
          exact shelved.vacant (same ▸ found)
        · rfl
      rw [nothing]
      exact slotFor_planted shelved found _
  | some obj =>
      have same := shelved.only call.uri obj found
      rw [same] at found
      rw [if_pos same] at intact ⊢
      rw [same]
      cases present : shelf.find? fun rep => decide (rep.mediaType = call.mediaType order) with
      | none =>
          have others : (shelf.filter fun rep => decide (rep.mediaType ≠ call.mediaType order)) = shelf := by
            apply List.filter_eq_self.mpr
            intro rep member
            simpa using List.find?_eq_none.mp present rep member
          rw [others]
          exact slotFor_added shelved found present
      | some rep => exact (slotFor_reused shelved found present).2 (intact rep present)

theorem slotFor_broken (shelved : Shelved kache shelf) {rep : KacheRep} (old : call.old order shelf = some rep)
    (broken : ¬ rep.Intact) : slotFor kache call.uri (call.mediaType order) = .error .disposed := by
  unfold StoreCall.old StoreCall.base at old
  split at old
  · rename_i same
    cases found : kacheGet kache literalKey with
    | none =>
        rw [shelved.vacant found] at old
        cases old
    | some obj =>
        rw [same]
        exact (slotFor_reused shelved found old).1 broken
  · cases old

/-- The state after a store, from its slot and the content that was written. -/
def Slot.stored (slot : Slot) (content : KacheRep) : KacheState :=
  let kache := {slot.kache with reps := slot.kache.reps.modify slot.rep fun _ => content}
  kacheAddRep (kacheSetRepTimer kache slot.rep ⟨slot.rep, slot.obj⟩) slot.obj slot.rep

theorem Slot.stored_map (slot : Slot) (content : KacheRep) : (slot.stored content).map = slot.kache.map := by
  unfold stored kacheAddRep kacheSetRepTimer
  dsimp only
  split <;> rfl

theorem Slot.stored_reps (slot : Slot) (content : KacheRep) :
    (slot.stored content).reps = slot.kache.reps.modify slot.rep fun _ => content := by
  unfold stored kacheAddRep kacheSetRepTimer
  dsimp only
  split <;> rfl

theorem Slot.stored_objs (slot : Slot) (content : KacheRep) :
    (slot.stored content).objs = slot.kache.objs.modify slot.obj fun o => {o with reps := o.reps ++ [slot.rep]} := by
  unfold stored kacheAddRep kacheSetRepTimer
  dsimp only
  split <;> rfl

theorem Slot.stored_timers (slot : Slot) (content : KacheRep) : (slot.stored content).timers =
    if slot.kache.timers.any fun timer => timer.rep = slot.rep then slot.kache.timers
    else slot.kache.timers ++ [⟨slot.rep, slot.obj⟩] := by
  unfold stored kacheAddRep kacheSetRepTimer
  dsimp only
  split <;> rfl

/-- A filter and what it leaves out make up different types when the others do. -/
theorem shelve_distinct (distinct : (shelf.map KacheRep.mediaType).Nodup) (call : StoreCall) :
    ((shelve order shelf call).map KacheRep.mediaType).Nodup := by
  have base : ((call.base shelf).map KacheRep.mediaType).Nodup := by
    unfold StoreCall.base
    split
    · exact distinct
    · exact List.nodup_nil
  unfold shelve StoreCall.others
  rw [List.map_append, List.nodup_append]
  refine ⟨base.sublist (List.filter_sublist.map _), List.nodup_singleton _, ?_⟩
  intro type member other single same
  obtain ⟨rep, on, rfl⟩ := List.mem_map.mp member
  have different : rep.mediaType ≠ call.mediaType order := by simpa using (List.mem_filter.mp on).2
  have own : other = call.mediaType order := List.mem_singleton.mp single
  exact different (same.trans own)

/-- A store whose response can be written puts it on the shelf. -/
theorem store_writable (shelved : Shelved kache shelf) (writable : Writable order shelf call) :
    ∃ slot content, kacheStoreEvcoapResponse order kache call = .ok (slot.stored content) ∧
      SlotReady kache call.uri slot (call.others order shelf) ∧
      Shelved (slot.stored content) (shelve order shelf call) := by
  obtain ⟨slot, found, start, ready⟩ := slotFor_ready order shelved writable.intact
  obtain ⟨o, there, outside, holds, _⟩ := ready.holds
  have filled : filled order call slot.content = .ok (written order call slot.content) := by
    rw [filled_eq, if_pos writable.token]
  refine ⟨slot, written order call slot.content, ?_, ready, ?_⟩
  · unfold kacheStoreEvcoapResponse
    rw [found]
    dsimp only
    rw [filled]
    rfl
  · have get : ∀ key, kacheGet (slot.stored (written order call slot.content)) key =
        if key = literalKey then some slot.obj else none := by
      intro key
      unfold kacheGet
      rw [Slot.stored_map]
      exact ready.map key
    refine ⟨fun key obj lookup => ?_, shelve_distinct order shelved.distinct call, fun missing => ?_, fun obj lookup => ?_⟩
    · rw [get key] at lookup
      by_contra other
      rw [if_neg other] at lookup
      cases lookup
    · rw [get literalKey, if_pos rfl] at missing
      cases missing
    · rw [get literalKey, if_pos rfl] at lookup
      cases lookup
      refine ⟨?_, {o with reps := o.reps ++ [slot.rep]}, ?_, ?_⟩
      · unfold shelve
        simp
      · rw [Slot.stored_objs, Heap.modify_self, there]
        rfl
      · rw [Slot.stored_reps]
        unfold shelve
        rw [← start]
        have others : Shelf (slot.kache.reps.modify slot.rep fun _ => written order call slot.content) o.reps
            (call.others order shelf) := by
          apply holds.congr
          intro p member
          apply Heap.modify_other
          rintro rfl
          exact outside member
        apply others.snoc
        obtain ⟨cell, here⟩ := Option.isSome_iff_exists.mp ready.live
        rw [Heap.modify_self, here]
        rfl

/-- Any other store makes the run undefined. -/
theorem store_unwritable (shelved : Shelved kache shelf) (unwritable : ¬ Writable order shelf call) :
    ∃ fault, kacheStoreEvcoapResponse order kache call = .error fault := by
  by_cases intact : ∀ rep, call.old order shelf = some rep → rep.Intact
  · obtain ⟨slot, found, _, _⟩ := slotFor_ready order shelved intact
    have overrun : ¬ TokenFits call.behind call.response.opts := fun fits => unwritable ⟨fits, intact⟩
    refine ⟨.overrun, ?_⟩
    unfold kacheStoreEvcoapResponse
    rw [found]
    dsimp only
    rw [filled_eq, if_neg overrun]
    rfl
  · push Not at intact
    obtain ⟨rep, old, broken⟩ := intact
    refine ⟨.disposed, ?_⟩
    unfold kacheStoreEvcoapResponse
    rw [slotFor_broken order shelved old broken]

end Slots

end Webthings.Kache
