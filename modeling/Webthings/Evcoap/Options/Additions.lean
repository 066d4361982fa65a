import Webthings.Evcoap.TypedGetters
import Webthings.Evcoap.Options.Fragments

namespace Webthings.Evcoap

/-- The set with one more option. -/
def EcOpts.plus (opts : EcOpts) (o : EcOpt) : EcOpts :=
  {opts with noptions := opts.noptions + 1, bundle := opts.bundle.insert o}

@[simp] theorem EcOpts.plus_noptions (opts : EcOpts) (o : EcOpt) : (opts.plus o).noptions = opts.noptions + 1 := rfl

theorem EcOpts.plus_perm (opts : EcOpts) (o : EcOpt) : (opts.plus o).bundle.list.Perm (o :: opts.bundle.list) :=
  opts.bundle.insert_perm o

/-- A value that takes one slot is not cut. -/
theorem optSegments_whole (v : List UInt8) (short : v.length ≤ ecCoapOptLenMax) : optSegments v = [v] := by
  have one : optSlots v.length = 1 := by
    unfold optSlots
    simp only [ecCoapOptLenMax] at short ⊢
    omega
  obtain ⟨segment, single⟩ := List.length_eq_one_iff.mp ((optSegments_length v).trans one)
  have whole := optSegments_flatten v
  rw [single, List.flatten_singleton] at whole
  rw [single, whole]

/-- A value that takes one slot is one more option, as long as there is a slot. -/
theorem ecOptsAddRaw_slot {sym : EcOptSym} {v : List UInt8} (valid : sym.Valid) (short : v.length ≤ ecCoapOptLenMax) :
    ∃ o, ecOptNew sym v = some o ∧ ∀ opts : EcOpts, ecOptsAddRaw opts sym v =
      if opts.noptions < ecProtoMaxOptions then (opts.plus o, 0) else (opts, -1) := by
  obtain ⟨o, created⟩ := Option.isSome_iff_exists.mp ((ecOptNew_isSome sym v).mpr ⟨short, valid⟩)
  refine ⟨o, created, fun opts => ?_⟩
  have one : optSlots v.length = 1 := by rw [← optSegments_length, optSegments_whole v short]; rfl
  unfold ecOptsAddRaw
  dsimp only
  rw [optSlots_eq, one, optSegments_whole v short]
  by_cases room : opts.noptions < ecProtoMaxOptions
  · have added : ecOptsAdd opts sym v = (opts.plus o, 0) := by
      unfold ecOptsAdd ecOptsPush
      rw [created]
      dsimp only
      rw [if_neg (Nat.ne_of_lt room)]
      rfl
    rw [if_neg (by omega), if_pos room, ecOptsAddSegments, added]
    rfl
  · rw [if_pos (by omega), if_neg room]

/-- The strings that the short adders take. -/
def ShortText (s : List UInt8) : Prop := (cString s).length ≠ 0 ∧ (cString s).length ≤ 270

instance (s : List UInt8) : Decidable (ShortText s) := inferInstanceAs (Decidable (_ ∧ _))

/-- The adders of short strings add what they take, as long as there is a slot. -/
theorem ecOptsAddShortString_slot {sym : EcOptSym} {s : List UInt8} (type : ecOptSym2type sym = .string)
    (short : ShortText s) :
    ∃ o, ecOptNew sym (cString s) = some o ∧ ∀ opts : EcOpts, ecOptsAddShortString opts sym s =
      if opts.noptions < ecProtoMaxOptions then (opts.plus o, 0) else (opts, -1) := by
  have valid : sym.Valid := by
    by_contra invalid
    rw [(ecOptSym2type_invalid sym).mpr invalid] at type
    cases type
  obtain ⟨o, created, slot⟩ := ecOptsAddRaw_slot valid short.2
  refine ⟨o, created, fun opts => ?_⟩
  unfold ecOptsAddShortString ecOptsAddString
  rw [if_neg (by rintro (empty | long); exacts [short.1 empty, absurd short.2 (Nat.not_le.mpr long)]),
    if_neg (not_not_intro type)]
  exact slot opts

theorem ecOptsAddShortString_refused {sym : EcOptSym} {s : List UInt8} (other : ¬ ShortText s) (opts : EcOpts) :
    ecOptsAddShortString opts sym s = (opts, -1) := by
  unfold ecOptsAddShortString
  rw [if_pos]
  by_contra inside
  push Not at inside
  exact other inside

end Webthings.Evcoap
