import Mathlib.Data.List.Basic

namespace Webthings.Memory

/-- The identity of an allocated cell, which no later cell gets again. -/
structure Ptr (Cell : Type) where
  id : Nat

instance {Cell : Type} : DecidableEq (Ptr Cell) := fun p q =>
  decidable_of_iff (p.id = q.id) ⟨congrArg Ptr.mk, congrArg Ptr.id⟩

/-- The live cells of one type: a freed cell is not there, and nothing lies at the identities to come. -/
structure Heap (Cell : Type) where
  cells : Ptr Cell → Option Cell
  next : Nat
  unborn : ∀ p, next ≤ p.id → cells p = none

variable {Cell Fault : Type}

def Heap.empty : Heap Cell := ⟨fun _ => none, 0, fun _ _ => rfl⟩

/-- The identity that the next allocation hands out. -/
def Heap.top (heap : Heap Cell) : Ptr Cell := ⟨heap.next⟩

def Heap.alloc (heap : Heap Cell) (cell : Cell) : Heap Cell where
  cells := fun p => if p = heap.top then some cell else heap.cells p
  next := heap.next + 1
  unborn := by
    intro p above
    have other : p ≠ heap.top := by
      rintro rfl
      exact absurd above (Nat.not_succ_le_self heap.next)
    rw [if_neg other]
    exact heap.unborn p (Nat.le_of_succ_le above)

def Heap.free (heap : Heap Cell) (p : Ptr Cell) : Heap Cell where
  cells := fun q => if q = p then none else heap.cells q
  next := heap.next
  unborn := by
    intro q above
    split
    · rfl
    · exact heap.unborn q above

/-- An assignment to a live cell; it has no effect on a cell that is not there. -/
def Heap.modify (heap : Heap Cell) (p : Ptr Cell) (f : Cell → Cell) : Heap Cell where
  cells := fun q => if q = p then (heap.cells q).map f else heap.cells q
  next := heap.next
  unborn := by
    intro q above
    split
    · rw [heap.unborn q above]
      rfl
    · exact heap.unborn q above

/-- The walk of a list to its first cell with a property; a link to a cell that is not there is a fault. -/
def Heap.search (heap : Heap Cell) (fault : Fault) (test : Cell → Bool) :
    List (Ptr Cell) → Except Fault (Option (Ptr Cell))
  | [] => .ok none
  | p :: rest =>
      match heap.cells p with
      | none => .error fault
      | some cell => if test cell then .ok (some p) else heap.search fault test rest

/-- The cells that a list links, in its order. -/
def Heap.read (heap : Heap Cell) (list : List (Ptr Cell)) : List Cell := list.filterMap heap.cells

/-- The release of a whole list from its head on. -/
def Heap.freeAll (heap : Heap Cell) (fault : Fault) : List (Ptr Cell) → Except Fault (Heap Cell)
  | [] => .ok heap
  | p :: rest =>
      match heap.cells p with
      | none => .error fault
      | some _ => (heap.free p).freeAll fault rest

@[simp] theorem Heap.cells_top (heap : Heap Cell) : heap.cells heap.top = none := heap.unborn heap.top (Nat.le_refl _)

@[simp] theorem Heap.alloc_top (heap : Heap Cell) (cell : Cell) : (heap.alloc cell).cells heap.top = some cell :=
  if_pos rfl

theorem Heap.alloc_other (heap : Heap Cell) (cell : Cell) {p : Ptr Cell} (other : p ≠ heap.top) :
    (heap.alloc cell).cells p = heap.cells p := if_neg other

/-- A cell that is there is not the next one. -/
theorem Heap.ne_top (heap : Heap Cell) {p : Ptr Cell} {cell : Cell} (found : heap.cells p = some cell) :
    p ≠ heap.top := by
  rintro rfl
  rw [heap.cells_top] at found
  cases found

/-- A cell that is there was allocated. -/
theorem Heap.below (heap : Heap Cell) {p : Ptr Cell} {cell : Cell} (found : heap.cells p = some cell) :
    p.id < heap.next := by
  by_contra above
  rw [heap.unborn p (Nat.le_of_not_lt above)] at found
  cases found

theorem Heap.alloc_old (heap : Heap Cell) (cell : Cell) {p : Ptr Cell} {old : Cell} (found : heap.cells p = some old) :
    (heap.alloc cell).cells p = some old := by
  rw [heap.alloc_other cell (heap.ne_top found), found]

@[simp] theorem Heap.free_self (heap : Heap Cell) (p : Ptr Cell) : (heap.free p).cells p = none := if_pos rfl

theorem Heap.free_other (heap : Heap Cell) {p q : Ptr Cell} (other : q ≠ p) :
    (heap.free p).cells q = heap.cells q := if_neg other

@[simp] theorem Heap.modify_self (heap : Heap Cell) (p : Ptr Cell) (f : Cell → Cell) :
    (heap.modify p f).cells p = (heap.cells p).map f := if_pos rfl

theorem Heap.modify_other (heap : Heap Cell) (f : Cell → Cell) {p q : Ptr Cell} (other : q ≠ p) :
    (heap.modify p f).cells q = heap.cells q := if_neg other

theorem Heap.modify_cells (heap : Heap Cell) (p q : Ptr Cell) (f : Cell → Cell) :
    (heap.modify p f).cells q = (heap.cells q).map fun cell => if q = p then f cell else cell := by
  by_cases here : q = p
  · subst here
    rw [heap.modify_self]
    simp
  · rw [heap.modify_other f here]
    simp [here]

/-- An assignment neither allocates nor frees. -/
@[simp] theorem Heap.modify_isSome (heap : Heap Cell) (p q : Ptr Cell) (f : Cell → Cell) :
    ((heap.modify p f).cells q).isSome = (heap.cells q).isSome := by
  by_cases here : q = p
  · subst here
    rw [heap.modify_self, Option.isSome_map]
  · rw [heap.modify_other f here]

/-- The walk of a list of live cells is the search of that list. -/
theorem Heap.search_live (heap : Heap Cell) (fault : Fault) (test : Cell → Bool) (list : List (Ptr Cell))
    (live : ∀ p ∈ list, (heap.cells p).isSome) :
    heap.search fault test list = .ok (list.find? fun p => (heap.cells p).any test) := by
  induction list with
  | nil => rfl
  | cons p rest ih =>
      obtain ⟨cell, found⟩ := Option.isSome_iff_exists.mp (live p List.mem_cons_self)
      have later := ih fun q member => live q (List.mem_cons_of_mem p member)
      rw [search, found, List.find?_cons, found]
      dsimp only [Option.any]
      cases test cell with
      | true => rfl
      | false => exact later

/-- What the walk finds is in the list, live, and has the property. -/
theorem Heap.search_some (heap : Heap Cell) {fault : Fault} {test : Cell → Bool} {list : List (Ptr Cell)} {p : Ptr Cell}
    (found : heap.search fault test list = .ok (some p)) :
    p ∈ list ∧ ∃ cell, heap.cells p = some cell ∧ test cell = true := by
  induction list with
  | nil => cases found
  | cons q rest ih =>
      rw [search] at found
      split at found
      · cases found
      · rename_i cell here
        split at found
        · rename_i passed
          cases found
          exact ⟨List.mem_cons_self, cell, here, passed⟩
        · obtain ⟨member, rest⟩ := ih found
          exact ⟨List.mem_cons_of_mem q member, rest⟩

/-- What the walk passes before it finds its cell does not have the property. -/
theorem Heap.search_split (heap : Heap Cell) {fault : Fault} {test : Cell → Bool} {list : List (Ptr Cell)} {p : Ptr Cell}
    (found : heap.search fault test list = .ok (some p)) :
    ∃ front cell back, list = front ++ p :: back ∧ heap.cells p = some cell ∧ test cell = true ∧
      ∀ other ∈ heap.read front, test other = false := by
  induction list with
  | nil => cases found
  | cons q rest ih =>
      rw [search] at found
      split at found
      · cases found
      · rename_i first here
        split at found
        · rename_i passed
          cases found
          exact ⟨[], first, rest, rfl, here, passed, fun other member => by cases member⟩
        · rename_i failed
          obtain ⟨front, cell, back, same, there, passed, before⟩ := ih found
          refine ⟨q :: front, cell, back, by rw [same]; rfl, there, passed, fun other member => ?_⟩
          rw [read, List.filterMap_cons, here] at member
          rcases List.mem_cons.mp member with head | later
          · rw [head]
            simpa using failed
          · exact before other later

/-- A walk that finds nothing has read the whole list. -/
theorem Heap.search_none (heap : Heap Cell) {fault : Fault} {test : Cell → Bool} {list : List (Ptr Cell)}
    (missed : heap.search fault test list = .ok none) :
    ∀ p ∈ list, ∃ cell, heap.cells p = some cell ∧ test cell = false := by
  induction list with
  | nil => exact fun p member => by cases member
  | cons q rest ih =>
      rw [search] at missed
      split at missed
      · cases missed
      · rename_i cell here
        split at missed
        · cases missed
        · rename_i failed
          exact List.forall_mem_cons.mpr ⟨⟨cell, here, by simpa using failed⟩, ih missed⟩

theorem Heap.read_append (heap : Heap Cell) (front back : List (Ptr Cell)) :
    heap.read (front ++ back) = heap.read front ++ heap.read back := List.filterMap_append

theorem Heap.read_cons (heap : Heap Cell) {p : Ptr Cell} {cell : Cell} (found : heap.cells p = some cell)
    (rest : List (Ptr Cell)) : heap.read (p :: rest) = cell :: heap.read rest := by
  rw [read, List.filterMap_cons, found]
  rfl

/-- A release is not seen through a list that does not link the cell. -/
theorem Heap.read_free (heap : Heap Cell) {p : Ptr Cell} {list : List (Ptr Cell)} (absent : p ∉ list) :
    (heap.free p).read list = heap.read list := by
  apply List.filterMap_congr
  intro q member
  apply heap.free_other
  rintro rfl
  exact absent member

end Webthings.Memory
