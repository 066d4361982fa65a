import Mathlib.Data.List.Nodup

namespace Webthings.Memory

/-- A list of parents with the lists of their children: a parent without a list is not in memory, and `live` tells which
children are. -/
structure Nested (Parent Child : Type) where
  parents : List Parent
  children : Parent → Option (List Child)
  live : Child → Prop

variable {Parent Child : Type}

/-- The parents in memory are the ones that are linked, and each child in memory is linked by one parent at most. -/
structure Nested.Tidy (nested : Nested Parent Child) : Prop where
  linked : ∀ p, p ∈ nested.parents ↔ (nested.children p).isSome
  once : nested.parents.Nodup
  lives : ∀ p list, nested.children p = some list → ∀ c ∈ list, nested.live c
  distinct : ∀ p list, nested.children p = some list → list.Nodup
  apart : ∀ p q list other c, nested.children p = some list → nested.children q = some other → c ∈ list → c ∈ other →
    p = q

/-- No parent is without children. -/
def Nested.Occupied (nested : Nested Parent Child) : Prop := ∀ p list, nested.children p = some list → list ≠ []

section Operations

variable [DecidableEq Parent]

/-- A new parent is linked behind the others. -/
def Nested.plant (nested : Nested Parent Child) (p : Parent) : Nested Parent Child where
  parents := nested.parents ++ [p]
  children := fun q => if q = p then some [] else nested.children q
  live := nested.live

/-- A new child is linked behind the others of its parent. -/
def Nested.attach (nested : Nested Parent Child) (p : Parent) (c : Child) : Nested Parent Child where
  parents := nested.parents
  children := fun q => (nested.children q).map fun list => if q = p then list ++ [c] else list
  live := fun d => d = c ∨ nested.live d

/-- A child is freed, and `left` is what its parent has left; the parent goes with its last child. -/
def Nested.detach (nested : Nested Parent Child) (p : Parent) (c : Child) (left : List Child) :
    Nested Parent Child where
  parents := if left = [] then nested.parents.erase p else nested.parents
  children := fun q => if q = p then (if left = [] then none else some left) else nested.children q
  live := fun d => d ≠ c ∧ nested.live d

theorem Nested.Tidy.plant {nested : Nested Parent Child} (tidy : nested.Tidy) {p : Parent}
    (unborn : nested.children p = none) : (nested.plant p).Tidy := by
  have absent : p ∉ nested.parents := by
    rw [tidy.linked, unborn]
    simp
  have old : ∀ q list, (nested.plant p).children q = some list → ∀ c ∈ list, nested.children q = some list := by
    intro q list found c member
    unfold Nested.plant at found
    dsimp only at found
    by_cases here : q = p
    · rw [if_pos here] at found
      cases found
      cases member
    · rwa [if_neg here] at found
  constructor
  · intro q
    unfold Nested.plant
    dsimp only
    by_cases here : q = p
    · simp [here]
    · rw [if_neg here, ← tidy.linked q]
      simp [here]
  · exact List.nodup_append.mpr ⟨tidy.once, List.nodup_singleton p, fun q member r single same => by
      rw [List.mem_singleton] at single
      exact absent (single ▸ same ▸ member)⟩
  · exact fun q list found c member => tidy.lives q list (old q list found c member) c member
  · intro q list found
    cases list with
    | nil => exact List.nodup_nil
    | cons c rest => exact tidy.distinct q _ (old q _ found c List.mem_cons_self)
  · exact fun q r list other c found found' member member' =>
      tidy.apart q r list other c (old q list found c member) (old r other found' c member') member member'

/-- What a list of the nested lists is after a child was attached. -/
theorem Nested.attach_children {nested : Nested Parent Child} {p q : Parent} {c : Child} {list : List Child}
    (found : (nested.attach p c).children q = some list) :
    ∃ old, nested.children q = some old ∧ (q = p ∧ list = old ++ [c] ∨ q ≠ p ∧ list = old) := by
  obtain ⟨old, before, same⟩ := Option.map_eq_some_iff.mp found
  refine ⟨old, before, ?_⟩
  by_cases here : q = p
  · rw [if_pos here] at same
    exact Or.inl ⟨here, same.symm⟩
  · rw [if_neg here] at same
    exact Or.inr ⟨here, same.symm⟩

theorem Nested.Tidy.attach {nested : Nested Parent Child} (tidy : nested.Tidy) (p : Parent) {c : Child}
    (unborn : ¬ nested.live c) : (nested.attach p c).Tidy := by
  have old : ∀ q list d, nested.children q = some list → d ∈ list → d ≠ c := by
    rintro q list d found member rfl
    exact unborn (tidy.lives q list found d member)
  constructor
  · intro q
    change q ∈ nested.parents ↔ _
    rw [tidy.linked q]
    unfold Nested.attach
    dsimp only
    rw [Option.isSome_map]
  · exact tidy.once
  · intro q list found d member
    obtain ⟨before, was, ⟨_, rfl⟩ | ⟨_, rfl⟩⟩ := Nested.attach_children found
    · rcases List.mem_append.mp member with earlier | new
      · exact Or.inr (tidy.lives q before was d earlier)
      · exact Or.inl (List.mem_singleton.mp new)
    · exact Or.inr (tidy.lives q list was d member)
  · intro q list found
    obtain ⟨before, was, ⟨_, rfl⟩ | ⟨_, rfl⟩⟩ := Nested.attach_children found
    · refine List.nodup_append.mpr ⟨tidy.distinct q before was, List.nodup_singleton c, fun d member e single => ?_⟩
      rw [List.mem_singleton.mp single]
      exact old q before d was member
    · exact tidy.distinct q list was
  · intro q r list other d found found' member member'
    obtain ⟨before, was, cases⟩ := Nested.attach_children found
    obtain ⟨before', was', cases'⟩ := Nested.attach_children found'
    by_cases new : d = c
    · subst new
      have here : ∀ s was list, nested.children s = some was →
          (s = p ∧ list = was ++ [d] ∨ s ≠ p ∧ list = was) → d ∈ list → s = p := by
        rintro s was list there (⟨same, _⟩ | ⟨_, rfl⟩) inside
        · exact same
        · exact absurd rfl (old s _ d there inside)
      rw [here q before list was cases member, here r before' other was' cases' member']
    · have earlier : ∀ s was list, (s = p ∧ list = was ++ [c] ∨ s ≠ p ∧ list = was) → d ∈ list → d ∈ was := by
        rintro s was list (⟨_, rfl⟩ | ⟨_, rfl⟩) inside
        · simpa [new] using inside
        · exact inside
      exact tidy.apart q r before before' d was was' (earlier q before list cases member)
        (earlier r before' other cases' member')

/-- An attached child occupies its parent. -/
theorem Nested.Occupied.attach {nested : Nested Parent Child} {p : Parent} (c : Child)
    (others : ∀ q list, q ≠ p → nested.children q = some list → list ≠ []) : (nested.attach p c).Occupied := by
  intro q list found
  obtain ⟨before, was, ⟨_, rfl⟩ | ⟨other, rfl⟩⟩ := Nested.attach_children found
  · simp
  · exact others q list other was

/-- What a list of the nested lists was before a child was detached. -/
theorem Nested.detach_children {nested : Nested Parent Child} {p q : Parent} {c : Child} {left list : List Child}
    (found : (nested.detach p c left).children q = some list) :
    q = p ∧ list = left ∧ left ≠ [] ∨ q ≠ p ∧ nested.children q = some list := by
  unfold Nested.detach at found
  dsimp only at found
  by_cases here : q = p
  · rw [if_pos here] at found
    by_cases last : left = []
    · rw [if_pos last] at found
      cases found
    · rw [if_neg last] at found
      exact Or.inl ⟨here, (Option.some.inj found).symm, last⟩
  · rw [if_neg here] at found
    exact Or.inr ⟨here, found⟩

theorem Nested.Tidy.detach [DecidableEq Child] {nested : Nested Parent Child} (tidy : nested.Tidy) {p : Parent} {c : Child}
    {list : List Child} (found : nested.children p = some list) (member : c ∈ list) :
    (nested.detach p c (list.erase c)).Tidy := by
  have distinct := tidy.distinct p list found
  have linked : p ∈ nested.parents := by
    rw [tidy.linked, found]
    rfl
  -- Each list that is left is a part of the one that was there before, without the child.
  have before : ∀ q rest, (nested.detach p c (list.erase c)).children q = some rest →
      ∃ was, nested.children q = some was ∧ rest.Sublist was ∧ c ∉ rest := by
    intro q rest still
    rcases Nested.detach_children still with ⟨rfl, rfl, _⟩ | ⟨other, was⟩
    · exact ⟨list, found, List.erase_sublist, distinct.not_mem_erase⟩
    · refine ⟨rest, was, List.Sublist.refl rest, fun inside => other ?_⟩
      exact tidy.apart q p rest list c was found inside member
  constructor
  · intro q
    unfold Nested.detach
    dsimp only
    by_cases last : list.erase c = []
    · rw [if_pos last]
      by_cases here : q = p
      · subst here
        simp [tidy.once.not_mem_erase, last]
      · rw [List.mem_erase_of_ne here, tidy.linked q, if_neg here]
    · rw [if_neg last, tidy.linked q]
      by_cases here : q = p
      · subst here
        simp [found, last]
      · rw [if_neg here]
  · unfold Nested.detach
    dsimp only
    split
    · exact tidy.once.erase p
    · exact tidy.once
  · intro q rest still d inside
    obtain ⟨was, there, part, gone⟩ := before q rest still
    refine ⟨?_, tidy.lives q was there d (part.subset inside)⟩
    rintro rfl
    exact gone inside
  · intro q rest still
    obtain ⟨was, there, part, _⟩ := before q rest still
    exact (tidy.distinct q was there).sublist part
  · intro q r rest other d still still' inside inside'
    obtain ⟨was, there, part, _⟩ := before q rest still
    obtain ⟨was', there', part', _⟩ := before r other still'
    exact tidy.apart q r was was' d there there' (part.subset inside) (part'.subset inside')

theorem Nested.Occupied.detach {nested : Nested Parent Child} (occupied : nested.Occupied) (p : Parent) (c : Child)
    (left : List Child) : (nested.detach p c left).Occupied := by
  intro q list found
  rcases Nested.detach_children found with ⟨_, rfl, some⟩ | ⟨_, was⟩
  · exact some
  · exact occupied q list was

end Operations

end Webthings.Memory
