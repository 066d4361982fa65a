import Mathlib.Data.List.Nodup
import Mathlib.Logic.Function.Basic

namespace Webthings.Stores

/-- What a store holds: under each of its names, one value at most for each kind. -/
abbrev Contents (Name Kind Value : Type) := Name → Option (Kind → Option Value)

/-- What a request changes of the contents of a store. -/
inductive Change (Name Kind Value : Type) where
  | nothing
  | write (name : Name) (kind : Kind) (value : Value)
  | create (name : Name) (kind : Kind) (value : Value)
  | remove (name : Name)

section Changes

variable {Name Kind Value : Type} [DecidableEq Name] [DecidableEq Kind]

/-- A value is written under a name that the store has; a name that is created holds nothing else. -/
def Change.apply (contents : Contents Name Kind Value) : Change Name Kind Value → Contents Name Kind Value
  | .nothing => contents
  | .write name kind value =>
      Function.update contents name ((contents name).map fun held => Function.update held kind (some value))
  | .create name kind value =>
      Function.update contents name (some (Function.update (fun _ => none) kind (some value)))
  | .remove name => Function.update contents name none

end Changes

section Shelves

variable {Item Kind Value : Type} [DecidableEq Kind] (kind : Item → Kind) (value : Item → Value)

/-- What a list of items holds for a kind is the value of its first item of that kind. -/
def holds (items : List Item) (k : Kind) : Option Value := (items.find? fun item => kind item = k).map value

/-- No two items are of one kind. -/
def Distinct (items : List Item) : Prop := (items.map kind).Nodup

instance (items : List Item) : Decidable (Distinct kind items) := inferInstanceAs (Decidable (List.Nodup _))

/-- The item takes the place of the ones of its kind. -/
def replaced (items : List Item) (item : Item) : List Item :=
  (items.filter fun other => kind other ≠ kind item) ++ [item]

variable {kind value} {items : List Item} {item : Item}

theorem holds_mem {k : Kind} {v : Value} (held : holds kind value items k = some v) :
    ∃ item ∈ items, kind item = k ∧ value item = v := by
  obtain ⟨item, found, same⟩ := Option.map_eq_some_iff.mp held
  exact ⟨item, List.mem_of_find?_eq_some found, by simpa using List.find?_some found, same⟩

/-- Of items that are all of different kinds, each one is what its kind holds. -/
theorem Distinct.holds (distinct : Distinct kind items) (member : item ∈ items) :
    holds kind value items (kind item) = some (value item) := by
  have present : (items.find? fun other => kind other = kind item).isSome := by
    rw [List.find?_isSome]
    exact ⟨item, member, by simp⟩
  obtain ⟨other, found⟩ := Option.isSome_iff_exists.mp present
  have same : other = item := List.inj_on_of_nodup_map distinct (List.mem_of_find?_eq_some found) member
    (by simpa using List.find?_some found)
  unfold Stores.holds
  rw [found, same]
  rfl

theorem Distinct.replaced (distinct : Distinct kind items) (item : Item) :
    Distinct kind (replaced kind items item) := by
  unfold Distinct Stores.replaced
  rw [List.map_append, List.nodup_append]
  refine ⟨(List.Sublist.map kind List.filter_sublist).nodup distinct, List.nodup_singleton _, ?_⟩
  intro k member k' single
  obtain ⟨other, kept, rfl⟩ := List.mem_map.mp member
  rw [List.map_singleton, List.mem_singleton] at single
  rw [single]
  simpa using (List.mem_filter.mp kept).2

/-- The kind of the item holds its value, and the other kinds what they held. -/
theorem holds_replaced (items : List Item) (item : Item) :
    holds kind value (replaced kind items item) =
      Function.update (holds kind value items) (kind item) (some (value item)) := by
  funext k
  unfold holds replaced
  rw [List.find?_append]
  by_cases same : k = kind item
  · subst same
    have others :
        (items.filter fun other => kind other ≠ kind item).find? (fun other => kind other = kind item) = none := by
      rw [List.find?_eq_none]
      simp
    rw [Function.update_self, others]
    simp
  · have kept : (items.filter fun other => kind other ≠ kind item).find? (fun other => kind other = k) =
        items.find? fun other => kind other = k := by
      rw [List.find?_filter]
      congr 1
      funext other
      by_cases here : kind other = k
      · simp [here, same]
      · simp [here]
    have elsewhere : [item].find? (fun other => kind other = k) = none := by simp [Ne.symm same]
    rw [Function.update_of_ne same, kept, elsewhere, Option.or_none]

end Shelves

end Webthings.Stores
