import Mathlib.Data.List.Sort
import Mathlib.Order.Defs.LinearOrder

namespace Webthings.Sorting

variable {α κ : Type} [LinearOrder κ] (key : α → κ)

/-- The keys of the list never fall. -/
def Ascending (as : List α) : Prop := as.Pairwise fun a b => key a ≤ key b

/-- The elements with one key, in their order. -/
def part (as : List α) (k : κ) : List α := as.filter fun a => key a = k

/-- The keys of the list, each one where it comes first. -/
def keys (as : List α) : List κ := (as.map key).eraseDups

/-- The sort by the key that leaves elements with one key in their order. -/
def stableSort (as : List α) : List α := as.mergeSort fun a b => key a ≤ key b

variable {key} {a b : α} {as bs : List α} {k : κ}

@[simp] theorem part_nil : part key [] k = [] := rfl

theorem part_cons : part key (a :: as) k = if key a = k then a :: part key as k else part key as k := by
  by_cases same : key a = k
  · rw [if_pos same, part, List.filter_cons_of_pos (by simpa using same), part]
  · rw [if_neg same, part, List.filter_cons_of_neg (by simpa using same), part]

theorem mem_part : a ∈ part key as k ↔ a ∈ as ∧ key a = k := by
  rw [part, List.mem_filter, decide_eq_true_iff]

@[simp] theorem part_append : part key (as ++ bs) k = part key as k ++ part key bs k := List.filter_append ..

/-- A list has the elements of its parts. -/
theorem mem_of_parts (parts : ∀ k, part key as k = part key bs k) (member : a ∈ as) : a ∈ bs :=
  (mem_part.mp (parts (key a) ▸ mem_part.mpr ⟨member, rfl⟩)).1

/-- Its parts and the order of its keys determine a list. -/
theorem Ascending.unique (rises : Ascending key as) (rises' : Ascending key bs)
    (parts : ∀ k, part key as k = part key bs k) : as = bs := by
  induction as generalizing bs with
  | nil =>
      cases bs with
      | nil => rfl
      | cons b bs => exact absurd (mem_of_parts (fun k => (parts k).symm) List.mem_cons_self) List.not_mem_nil
  | cons a as inductionHypothesis =>
      cases bs with
      | nil => exact absurd (mem_of_parts parts List.mem_cons_self) List.not_mem_nil
      | cons b bs =>
          obtain ⟨first, rest⟩ := List.pairwise_cons.mp rises
          obtain ⟨first', rest'⟩ := List.pairwise_cons.mp rises'
          -- Each head is among the elements of the other list, so that neither key is below the other.
          have below : key a ≤ key b := by
            rcases List.mem_cons.mp (mem_of_parts (fun k => (parts k).symm) (a := b) List.mem_cons_self) with rfl | later
            · exact le_refl _
            · exact first b later
          have above : key b ≤ key a := by
            rcases List.mem_cons.mp (mem_of_parts parts (a := a) List.mem_cons_self) with rfl | later
            · exact le_refl _
            · exact first' a later
          have same : key a = key b := le_antisymm below above
          have heads := parts (key a)
          rw [part_cons, part_cons, if_pos rfl, if_pos same.symm] at heads
          obtain ⟨rfl, _⟩ := List.cons.inj heads
          have tails : ∀ k, part key as k = part key bs k := by
            intro k
            have whole := parts k
            rw [part_cons, part_cons] at whole
            split at whole
            · exact (List.cons.inj whole).2
            · exact whole
          rw [inductionHypothesis rest rest' tails]

theorem byKey_trans (a b c : α) (first : decide (key a ≤ key b) = true) (second : decide (key b ≤ key c) = true) :
    decide (key a ≤ key c) = true :=
  decide_eq_true (le_trans (of_decide_eq_true first) (of_decide_eq_true second))

theorem byKey_total (a b : α) : (decide (key a ≤ key b) || decide (key b ≤ key a)) = true := by
  rw [Bool.or_eq_true, decide_eq_true_iff, decide_eq_true_iff]
  exact le_total _ _

theorem stableSort_ascending (as : List α) : Ascending key (stableSort key as) :=
  (List.pairwise_mergeSort byKey_trans byKey_total as).imp of_decide_eq_true

theorem stableSort_perm (as : List α) : (stableSort key as).Perm as := List.mergeSort_perm _ _

/-- Elements with one key stay in their order. -/
theorem part_stableSort (as : List α) (k : κ) : part key (stableSort key as) k = part key as k := by
  have level : (part key as k).Pairwise fun a b => decide (key a ≤ key b) = true := by
    rw [List.pairwise_iff_forall_sublist]
    intro a b sub
    have first := (mem_part.mp (sub.subset List.mem_cons_self)).2
    have second := (mem_part.mp (sub.subset (List.mem_cons_of_mem _ List.mem_cons_self))).2
    exact decide_eq_true (first.trans second.symm).le
  have kept : (part key as k).Sublist (stableSort key as) :=
    List.sublist_mergeSort byKey_trans byKey_total level List.filter_sublist
  have again : part key (part key as k) k = part key as k := by
    unfold part
    rw [List.filter_filter]
    simp
  have inside := kept.filter fun a => decide (key a = k)
  change (part key (part key as k) k).Sublist (part key (stableSort key as) k) at inside
  rw [again] at inside
  have lengths : (part key (stableSort key as) k).length = (part key as k).length :=
    ((stableSort_perm as).filter _).length_eq
  exact (inside.eq_of_length lengths.symm).symm

/-- A list with the parts of another one whose keys never fall is its stable sort. -/
theorem Ascending.eq_stableSort (rises : Ascending key bs) (parts : ∀ k, part key bs k = part key as k) :
    bs = stableSort key as :=
  rises.unique (stableSort_ascending as) fun k => (parts k).trans (part_stableSort as k).symm

@[simp] theorem keys_nil : keys key ([] : List α) = [] := rfl

theorem keys_cons : keys key (a :: as) = key a :: keys key (as.filter fun b => key b ≠ key a) := by
  unfold keys
  rw [List.map_cons, List.eraseDups_cons, List.filter_map]
  congr 3
  apply List.filter_congr
  intro b _
  by_cases same : key b = key a <;> simp [same]

theorem mem_keys : k ∈ keys key as ↔ ∃ a ∈ as, key a = k := by
  unfold keys
  rw [List.mem_eraseDups, List.mem_map]

theorem keys_nodup (as : List α) : (keys key as).Nodup := by
  induction length : as.length using Nat.strongRecOn generalizing as with
  | ind n inductionHypothesis =>
      cases as with
      | nil => exact List.nodup_nil
      | cons a as =>
          have fewer : (as.filter fun b => key b ≠ key a).length < n := by
            rw [← length, List.length_cons]
            exact Nat.lt_succ_of_le (List.length_filter_le _ _)
          rw [keys_cons, List.nodup_cons]
          refine ⟨fun again => ?_, inductionHypothesis _ fewer _ rfl⟩
          obtain ⟨b, inside, same⟩ := mem_keys.mp again
          exact absurd same (by simpa using (List.mem_filter.mp inside).2)

/-- A list whose keys never fall is its first part and what has other keys. -/
theorem Ascending.head_part (rises : Ascending key (a :: as)) :
    part key (a :: as) (key a) ++ (as.filter fun b => key b ≠ key a) = a :: as := by
  induction as with
  | nil => simp [part_cons]
  | cons b as inductionHypothesis =>
      obtain ⟨first, rest⟩ := List.pairwise_cons.mp rises
      obtain ⟨below, rest'⟩ := List.pairwise_cons.mp rest
      by_cases same : key b = key a
      · have shorter : Ascending key (a :: as) :=
          List.pairwise_cons.mpr ⟨fun c member => first c (List.mem_cons_of_mem _ member), rest'⟩
        have whole := inductionHypothesis shorter
        rw [part_cons, if_pos rfl, List.cons_append] at whole
        rw [part_cons, part_cons, if_pos rfl, if_pos same, List.filter_cons_of_neg (by simpa using same), List.cons_append,
          List.cons_append, (List.cons.inj whole).2]
      · -- Behind a key that has risen the first one does not come again.
        have above : ∀ c ∈ b :: as, key c ≠ key a := by
          intro c member equal
          have risen : key a < key b := lt_of_le_of_ne (first b List.mem_cons_self) (Ne.symm same)
          rcases List.mem_cons.mp member with rfl | later
          · exact same equal
          · exact absurd (below c later) (not_le.mpr (equal ▸ risen))
        have none : part key (b :: as) (key a) = [] := by
          rw [part, List.filter_eq_nil_iff]
          intro c member
          simpa using above c member
        have all : ((b :: as).filter fun c => key c ≠ key a) = b :: as := by
          rw [List.filter_eq_self]
          intro c member
          simpa using above c member
        rw [part_cons, if_pos rfl, none, all]
        rfl

/-- A list whose keys never fall is made of its parts, one behind the other. -/
theorem Ascending.parts_flatten (rises : Ascending key as) : ((keys key as).map (part key as)).flatten = as := by
  induction length : as.length using Nat.strongRecOn generalizing as with
  | ind n inductionHypothesis =>
      cases as with
      | nil => rfl
      | cons a as =>
          let others := as.filter fun b => key b ≠ key a
          have fewer : others.length < n := by
            rw [← length, List.length_cons]
            exact Nat.lt_succ_of_le (List.length_filter_le _ _)
          have rest : Ascending key others := (List.pairwise_cons.mp rises).2.filter _
          have whole := inductionHypothesis _ fewer rest rfl
          have same : (keys key others).map (part key (a :: as)) = (keys key others).map (part key others) := by
            apply List.map_congr_left
            intro k member
            obtain ⟨b, inside, rfl⟩ := mem_keys.mp member
            have other : key b ≠ key a := by simpa using (List.mem_filter.mp inside).2
            rw [part_cons, if_neg other.symm, part, part, List.filter_filter]
            apply List.filter_congr
            intro c _
            by_cases equal : key c = key b <;> simp [equal, other]
          rw [keys_cons, List.map_cons, List.flatten_cons, same, whole]
          exact rises.head_part

end Webthings.Sorting
