import Mathlib.Data.List.Chain

namespace Webthings.Sorting

variable {α : Type} (r : α → α → Prop) [DecidableRel r]

/-- The entries that follow one another by the relation, up to the first that does not. -/
def climb : α → List α → List α
  | _, [] => []
  | last, a :: as => if r last a then a :: climb a as else []

/-- The longest beginning of a list in which each entry follows the one before it by the relation. -/
def rising : List α → List α
  | [] => []
  | a :: as => a :: climb r a as

@[simp] theorem rising_nil : rising r [] = [] := rfl

variable {r} {a last : α} {as bs : List α}

theorem climb_isChain : (last :: climb r last as).IsChain r := by
  induction as generalizing last with
  | nil => exact List.isChain_singleton last
  | cons a as inductionHypothesis =>
      rw [climb]
      split
      · rename_i up
        exact List.isChain_cons_cons.mpr ⟨up, inductionHypothesis⟩
      · exact List.isChain_singleton last

theorem climb_prefix : climb r last as <+: as := by
  induction as generalizing last with
  | nil => exact List.prefix_rfl
  | cons a as inductionHypothesis =>
      rw [climb]
      split
      · exact List.cons_prefix_cons.mpr ⟨rfl, inductionHypothesis⟩
      · exact List.nil_prefix

theorem climb_of_isChain (chain : (last :: as).IsChain r) : climb r last as = as := by
  induction as generalizing last with
  | nil => rfl
  | cons a as inductionHypothesis =>
      obtain ⟨up, rest⟩ := List.isChain_cons_cons.mp chain
      rw [climb, if_pos up, inductionHypothesis rest]

/-- What comes after the first entry that does not follow is left out. -/
theorem climb_append_stuck (stuck : climb r last as ≠ as) : climb r last (as ++ bs) = climb r last as := by
  induction as generalizing last with
  | nil => exact absurd rfl stuck
  | cons a as inductionHypothesis =>
      rw [List.cons_append, climb, climb]
      rw [climb] at stuck
      split
      · rename_i up
        rw [if_pos up] at stuck
        rw [inductionHypothesis fun same => stuck (by rw [same])]
      · rfl

theorem climb_append_down {top : α} (chain : (last :: as).IsChain r) (atEnd : (last :: as).getLast? = some top)
    (down : ¬ r top a) : climb r last (as ++ [a]) = as := by
  induction as generalizing last with
  | nil =>
      obtain rfl : last = top := by simpa using atEnd
      rw [List.nil_append, climb, if_neg down]
  | cons b as inductionHypothesis =>
      obtain ⟨up, rest⟩ := List.isChain_cons_cons.mp chain
      rw [List.getLast?_cons_cons] at atEnd
      rw [List.cons_append, climb, if_pos up, inductionHypothesis rest atEnd]

theorem rising_isChain (as : List α) : (rising r as).IsChain r := by
  cases as with
  | nil => exact List.isChain_nil
  | cons a as => exact climb_isChain

theorem rising_starts (as : List α) : rising r as <+: as := by
  cases as with
  | nil => exact List.prefix_rfl
  | cons a as => exact List.cons_prefix_cons.mpr ⟨rfl, climb_prefix⟩

/-- The whole list is rising exactly when each of its entries follows. -/
theorem rising_eq_self_iff : rising r as = as ↔ as.IsChain r := by
  constructor
  · intro whole
    rw [← whole]
    exact rising_isChain as
  · intro chain
    cases as with
    | nil => rfl
    | cons a as => rw [rising, climb_of_isChain chain]

/-- A list that has stopped rising does not rise again. -/
theorem rising_append_stuck (stuck : rising r as ≠ as) : rising r (as ++ bs) = rising r as := by
  cases as with
  | nil => exact absurd rfl stuck
  | cons a as =>
      rw [List.cons_append, rising, rising, climb_append_stuck]
      intro same
      exact stuck (by rw [rising, same])

/-- An entry that follows the last one goes on with a rising list. -/
theorem rising_append_up (whole : rising r as = as) (up : ∀ last ∈ as.getLast?, r last a) :
    rising r (as ++ [a]) = as ++ [a] := by
  apply rising_eq_self_iff.mpr
  apply List.isChain_append.mpr
  refine ⟨rising_eq_self_iff.mp whole, List.isChain_singleton a, fun last atEnd first atHead => ?_⟩
  rw [List.head?_cons, Option.mem_some_iff] at atHead
  rw [← atHead]
  exact up last atEnd

/-- An entry that does not follow the last one ends a rising list. -/
theorem rising_append_down (whole : rising r as = as) (atEnd : as.getLast? = some last) (down : ¬ r last a) :
    rising r (as ++ [a]) = as := by
  have chain := rising_eq_self_iff.mp whole
  cases as with
  | nil => cases atEnd
  | cons first as => rw [List.cons_append, rising, climb_append_down chain atEnd down]

end Webthings.Sorting
