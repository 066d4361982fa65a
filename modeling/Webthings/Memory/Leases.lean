import Mathlib.Data.List.Perm.Basic

namespace Webthings.Memory

/-- A resource is held from its acquisition to its release. -/
inductive Lease (Resource : Type) where
  | acquire (resource : Resource)
  | release (resource : Resource)
  deriving DecidableEq, Repr

namespace Lease

variable {Resource : Type}

/-- The resources that the operations acquire. -/
def acquired : List (Lease Resource) → List Resource
  | [] => []
  | .acquire resource :: ops => resource :: acquired ops
  | .release _ :: ops => acquired ops

/-- The resources that the operations release. -/
def released : List (Lease Resource) → List Resource
  | [] => []
  | .acquire _ :: ops => released ops
  | .release resource :: ops => resource :: released ops

theorem acquired_append (first second : List (Lease Resource)) :
    acquired (first ++ second) = acquired first ++ acquired second := by
  induction first with
  | nil => rfl
  | cons op ops ih => cases op <;> simp [acquired, ih]

theorem released_append (first second : List (Lease Resource)) :
    released (first ++ second) = released first ++ released second := by
  induction first with
  | nil => rfl
  | cons op ops ih => cases op <;> simp [released, ih]

@[simp] theorem acquired_releases (held : List Resource) : acquired (held.map .release) = [] := by
  induction held with
  | nil => rfl
  | cons resource held ih => exact ih

@[simp] theorem released_releases (held : List Resource) : released (held.map .release) = held := by
  induction held with
  | nil => rfl
  | cons resource held ih => exact congrArg (resource :: ·) ih

variable [DecidableEq Resource]

/-- The resources that are held after the operations, unless one of them releases what is not held. -/
def heldAfter : List (Lease Resource) → List Resource → Option (List Resource)
  | [], held => some held
  | .acquire resource :: ops, held => heldAfter ops (resource :: held)
  | .release resource :: ops, held => if resource ∈ held then heldAfter ops (held.erase resource) else none

/-- The operations release what they have acquired, and nothing else. -/
def Balanced (ops : List (Lease Resource)) : Prop := heldAfter ops [] = some []

theorem heldAfter_append (first second : List (Lease Resource)) (held : List Resource) :
    heldAfter (first ++ second) held = (heldAfter first held).bind (heldAfter second) := by
  induction first generalizing held with
  | nil => rfl
  | cons op ops ih =>
      cases op with
      | acquire resource => exact ih (resource :: held)
      | release resource =>
          rw [List.cons_append, heldAfter, heldAfter]
          split
          · exact ih (held.erase resource)
          · rfl

/-- All that is held can be released. -/
theorem heldAfter_releases (held : List Resource) : heldAfter (held.map .release) held = some [] := by
  induction held with
  | nil => rfl
  | cons resource held ih =>
      rw [List.map_cons, heldAfter, if_pos List.mem_cons_self, List.erase_cons_head]
      exact ih

/-- What is held before and what is acquired is held after or has been released, each once. -/
theorem heldAfter_perm {ops : List (Lease Resource)} {held left : List Resource} (done : heldAfter ops held = some left) :
    (held ++ acquired ops).Perm (left ++ released ops) := by
  induction ops generalizing held with
  | nil =>
      cases done
      exact List.Perm.refl _
  | cons op ops ih =>
      cases op with
      | acquire resource => exact List.perm_middle.trans (ih done)
      | release resource =>
          rw [heldAfter] at done
          split at done
          · rename_i member
            have taken := (List.perm_cons_erase member).append_right (acquired ops)
            exact (taken.trans ((ih done).cons resource)).trans List.perm_middle.symm
          · cases done

/-- What balanced operations release is what they have acquired, each once. -/
theorem Balanced.perm {ops : List (Lease Resource)} (balanced : Balanced ops) : (released ops).Perm (acquired ops) :=
  (heldAfter_perm balanced).symm

/-- The operations have acquired as many resources as they have released and left. -/
theorem heldAfter_count {ops : List (Lease Resource)} {held left : List Resource} (done : heldAfter ops held = some left) :
    held.length + (acquired ops).length = left.length + (released ops).length := by
  have same := (heldAfter_perm done).length_eq
  rwa [List.length_append, List.length_append] at same

end Lease

end Webthings.Memory
