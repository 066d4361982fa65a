import Webthings.Evcoap.Options.Model

namespace Webthings.Evcoap

/-- The queue of options stays ordered from the lowest symbol to the highest. -/
structure Bundle where
  list : List EcOpt
  ordered : list.Pairwise fun a b => a.sym.value ≤ b.sym.value

/-- This is the order of the queue when it is walked from its tail. -/
def descends (a b : EcOpt) : Prop := b.sym.value ≤ a.sym.value

instance : DecidableRel descends := fun a b => inferInstanceAs (Decidable (b.sym.value ≤ a.sym.value))

instance : Std.Total descends := ⟨fun a b => Nat.le_total b.sym.value a.sym.value⟩

instance : IsTrans EcOpt descends := ⟨fun _ _ _ first second => Nat.le_trans second first⟩

def Bundle.empty : Bundle := ⟨[], List.Pairwise.nil⟩

/-- The walk from the tail puts `o` after the last option whose symbol is not above its own. -/
def Bundle.insert (b : Bundle) (o : EcOpt) : Bundle where
  list := (b.list.reverse.orderedInsert descends o).reverse
  ordered := by
    rw [List.pairwise_reverse]
    exact List.Pairwise.orderedInsert o _ (List.pairwise_reverse.mpr b.ordered)

@[simp] theorem Bundle.insert_length (b : Bundle) (o : EcOpt) :
    (b.insert o).list.length = b.list.length + 1 := by
  simp [insert, List.orderedInsert_length]

theorem Bundle.mem_insert (b : Bundle) (o x : EcOpt) : x ∈ (b.insert o).list ↔ x = o ∨ x ∈ b.list := by
  simp [insert, List.mem_orderedInsert]

theorem Bundle.insert_perm (b : Bundle) (o : EcOpt) : (b.insert o).list.Perm (o :: b.list) :=
  (List.reverse_perm _).trans
    ((List.perm_orderedInsert descends o b.list.reverse).trans ((List.reverse_perm b.list).cons o))

/-- An option whose symbol is not below any other goes to the tail. -/
theorem Bundle.insert_last (b : Bundle) (o : EcOpt) (last : ∀ x ∈ b.list, x.sym.value ≤ o.sym.value) :
    (b.insert o).list = b.list ++ [o] := by
  have first : b.list.reverse.orderedInsert descends o = o :: b.list.reverse := by
    cases reversed : b.list.reverse with
    | nil => rfl
    | cons x rest =>
        have member : x ∈ b.list := by
          rw [← List.mem_reverse, reversed]
          exact List.mem_cons_self
        exact List.orderedInsert_cons_of_le descends rest (last x member)
  change (b.list.reverse.orderedInsert descends o).reverse = b.list ++ [o]
  rw [first, List.reverse_cons, List.reverse_reverse]

/-- An option set: the encoding buffer, its fill, the option count and the queue. -/
structure EcOpts where
  enc : Nat → UInt8
  encSz : Nat
  noptions : Nat
  bundle : Bundle

def ecOptsInit : EcOpts where
  enc := fun _ => 0
  encSz := 0
  noptions := 0
  bundle := Bundle.empty

/-- Each operation returns the set as it leaves it and the C return code. -/
def ecOptsPush (opts : EcOpts) (o : EcOpt) : EcOpts × Int :=
  if opts.noptions = ecProtoMaxOptions then (opts, -1)
  else ({opts with noptions := opts.noptions + 1, bundle := opts.bundle.insert o}, 0)

def ecOptsAdd (opts : EcOpts) (sym : EcOptSym) (v : List UInt8) : EcOpts × Int :=
  match ecOptNew sym v with
  | none => (opts, -1)
  | some o => ecOptsPush opts o

/-- The slots that a value of any length is cut into: full segments and the remainder. -/
def optSegments (v : List UInt8) : List (List UInt8) :=
  let fullSegNo := v.length / ecCoapOptLenMax
  let rem := v.length % ecCoapOptLenMax
  ((List.range fullSegNo).map fun nseg => (v.drop (nseg * ecCoapOptLenMax)).take ecCoapOptLenMax) ++
    if rem ≠ 0 ∨ v.length = 0 then [v.drop (fullSegNo * ecCoapOptLenMax)] else []

/-- The two loops of `ec_opts_add_raw` add one segment after the other and stop at the first failure. -/
def ecOptsAddSegments (sym : EcOptSym) : List (List UInt8) → EcOpts → EcOpts × Int
  | [], opts => (opts, 0)
  | segment :: segments, opts =>
      let added := ecOptsAdd opts sym segment
      if added.2 = 0 then ecOptsAddSegments sym segments added.1 else (added.1, -1)

def ecOptsAddRaw (opts : EcOpts) (sym : EcOptSym) (v : List UInt8) : EcOpts × Int :=
  let fullSegNo := v.length / ecCoapOptLenMax
  let rem := v.length % ecCoapOptLenMax
  let toBeUsedOpts := fullSegNo + if rem ≠ 0 ∨ v.length = 0 then 1 else 0
  if opts.noptions + toBeUsedOpts > ecProtoMaxOptions then (opts, -1)
  else ecOptsAddSegments sym (optSegments v) opts

/-- The largest values that one to eight bytes hold. -/
def uiBytes : List Nat :=
  [2 ^ 8 - 1, 2 ^ 16 - 1, 2 ^ 24 - 1, 2 ^ 32 - 1, 2 ^ 40 - 1, 2 ^ 48 - 1, 2 ^ 56 - 1, 2 ^ 64 - 1]

/-- The encoder needs `elen` bytes of room; the little-endian build stores the highest byte first. -/
def ecOptEncodeUint (order : ByteOrder) (ui : UInt64) (elen : Nat) : Option (List UInt8) :=
  if ui = 0 then some []
  else
    let eBytes := uiBytes.findIdx (fun most => ui.toNat ≤ most) + 1
    if elen < eBytes then none
    else
      let low := (List.range eBytes).map fun j => ((ui.toNat >>> (8 * j)) &&& 0xff).toUInt8
      match order with
      | .little => some low.reverse
      | .big => some low

def ecOptsAddUint (order : ByteOrder) (opts : EcOpts) (sym : EcOptSym) (v : UInt64) : EcOpts × Int :=
  if ecOptSym2type sym ≠ .uint then (opts, -1)
  else
    match ecOptEncodeUint order v 8 with
    | none => (opts, -1)
    | some e => ecOptsAddRaw opts sym e

/-- The characters of a C string end before its first NUL. -/
def cString (s : List UInt8) : List UInt8 := s.takeWhile (· ≠ 0)

def ecOptsAddString (opts : EcOpts) (sym : EcOptSym) (s : List UInt8) : EcOpts × Int :=
  if ecOptSym2type sym ≠ .string then (opts, -1) else ecOptsAddRaw opts sym (cString s)

def ecOptsAddOpaque (opts : EcOpts) (sym : EcOptSym) (v : List UInt8) : EcOpts × Int :=
  if ecOptSym2type sym ≠ .opaqueValue then (opts, -1) else ecOptsAddRaw opts sym v

def ecOptsAddEmpty (opts : EcOpts) (sym : EcOptSym) : EcOpts × Int :=
  if ecOptSym2type sym ≠ .empty then (opts, -1) else ecOptsAddRaw opts sym []

/-- The string adders that ask for 1 to 270 characters. -/
def ecOptsAddShortString (opts : EcOpts) (sym : EcOptSym) (s : List UInt8) : EcOpts × Int :=
  if (cString s).length = 0 ∨ (cString s).length > 270 then (opts, -1) else ecOptsAddString opts sym s

/-- The opaque adders that ask for 1 to 8 bytes. -/
def ecOptsAddShortOpaque (opts : EcOpts) (sym : EcOptSym) (v : List UInt8) : EcOpts × Int :=
  if v.length = 0 ∨ v.length > 8 then (opts, -1) else ecOptsAddOpaque opts sym v

def ecOptsAddContentType (order : ByteOrder) (opts : EcOpts) (ct : UInt16) : EcOpts × Int :=
  ecOptsAddUint order opts .contentType ct.toUInt64

def ecOptsAddMaxAge (order : ByteOrder) (opts : EcOpts) (ma : UInt32) : EcOpts × Int :=
  ecOptsAddUint order opts .maxAge ma.toUInt64

/-- The parameter stands for `u_uri_is_absolute`. -/
def ecOptsAddProxyUri (isAbsolute : List UInt8 → Bool) (opts : EcOpts) (pu : List UInt8) : EcOpts × Int :=
  if (cString pu).length = 0 then (opts, -1)
  else if isAbsolute (cString pu) then ecOptsAddString opts .proxyUri pu
  else (opts, -1)

def ecOptsAddEtag (opts : EcOpts) (et : List UInt8) : EcOpts × Int := ecOptsAddShortOpaque opts .etag et

def ecOptsAddUriHost (opts : EcOpts) (uh : List UInt8) : EcOpts × Int := ecOptsAddShortString opts .uriHost uh

def ecOptsAddLocationPath (opts : EcOpts) (lp : List UInt8) : EcOpts × Int :=
  ecOptsAddShortString opts .locationPath lp

def ecOptsAddUriPort (order : ByteOrder) (opts : EcOpts) (up : UInt16) : EcOpts × Int :=
  ecOptsAddUint order opts .uriPort up.toUInt64

def ecOptsAddLocationQuery (opts : EcOpts) (lq : List UInt8) : EcOpts × Int :=
  ecOptsAddShortString opts .locationQuery lq

def ecOptsAddUriPath (opts : EcOpts) (up : List UInt8) : EcOpts × Int := ecOptsAddShortString opts .uriPath up

def ecOptsAddToken (opts : EcOpts) (t : List UInt8) : EcOpts × Int := ecOptsAddShortOpaque opts .token t

def ecOptsAddAccept (order : ByteOrder) (opts : EcOpts) (a : UInt16) : EcOpts × Int :=
  ecOptsAddUint order opts .accept a.toUInt64

def ecOptsAddIfMatch (opts : EcOpts) (im : List UInt8) : EcOpts × Int := ecOptsAddShortOpaque opts .ifMatch im

def ecOptsAddUriQuery (opts : EcOpts) (uq : List UInt8) : EcOpts × Int := ecOptsAddShortString opts .uriQuery uq

def ecOptsAddIfNoneMatch (opts : EcOpts) : EcOpts × Int := ecOptsAddEmpty opts .ifNoneMatch

def ecOptsAddObserve (order : ByteOrder) (opts : EcOpts) (o : UInt16) : EcOpts × Int :=
  ecOptsAddUint order opts .observe o.toUInt64

def ecOptsAddPublish (order : ByteOrder) (opts : EcOpts) (mm : UInt8) : EcOpts × Int :=
  ecOptsAddUint order opts .publish mm.toUInt64

def ecOptsAddBlock (order : ByteOrder) (opts : EcOpts) (which : EcOptSym) (num : UInt32) (more : Bool)
    (szx : UInt8) : EcOpts × Int :=
  if which ≠ .block1 ∧ which ≠ .block2 then (opts, -1)
  else if num > 0xfffff then (opts, -1)
  else if szx > 0x7 then (opts, -1)
  else
    let b : UInt32 := szx.toUInt32 ||| ((if more then (1 : UInt32) else 0) <<< (3 : UInt32)) ||| (num <<< (4 : UInt32))
    ecOptsAddUint order opts which b.toUInt64

def ecOptsAddBlock1 (order : ByteOrder) (opts : EcOpts) (num : UInt32) (more : Bool) (szx : UInt8) :
    EcOpts × Int := ecOptsAddBlock order opts .block1 num more szx

def ecOptsAddBlock2 (order : ByteOrder) (opts : EcOpts) (num : UInt32) (more : Bool) (szx : UInt8) :
    EcOpts × Int := ecOptsAddBlock order opts .block2 num more szx

/-- A value of 1 to 270 bytes is not cut. -/
theorem optSegments_one (v : List UInt8) (short : v.length < ecCoapOptLenMax) : optSegments v = [v] := by
  have full : v.length / ecCoapOptLenMax = 0 := Nat.div_eq_of_lt short
  have rem : v.length % ecCoapOptLenMax = v.length := Nat.mod_eq_of_lt short
  unfold optSegments
  dsimp only
  rw [full, rem, if_pos]
  · simp
  · by_cases empty : v.length = 0
    · exact Or.inr empty
    · exact Or.inl empty

/-- A value that is not cut makes one option. -/
theorem ecOptsAddRaw_one {opts : EcOpts} {sym : EcOptSym} {v : List UInt8} {o : EcOpt}
    (created : ecOptNew sym v = some o) (short : v.length < ecCoapOptLenMax) (room : opts.noptions < ecProtoMaxOptions) :
    ecOptsAddRaw opts sym v = ({opts with noptions := opts.noptions + 1, bundle := opts.bundle.insert o}, 0) := by
  have one : (v.length / ecCoapOptLenMax + if v.length % ecCoapOptLenMax ≠ 0 ∨ v.length = 0 then 1 else 0) = 1 := by
    rw [Nat.div_eq_of_lt short, Nat.mod_eq_of_lt short]
    split <;> omega
  have added : ecOptsAdd opts sym v = ({opts with noptions := opts.noptions + 1, bundle := opts.bundle.insert o}, 0) := by
    unfold ecOptsAdd ecOptsPush
    rw [created]
    dsimp only
    rw [if_neg (Nat.ne_of_lt room)]
  unfold ecOptsAddRaw
  dsimp only
  rw [one, if_neg (by omega), optSegments_one v short, ecOptsAddSegments, added]
  rfl

/-- Eight bytes are enough for every integer. -/
theorem ecOptEncodeUint_eight (order : ByteOrder) (ui : UInt64) :
    ∃ e, ecOptEncodeUint order ui 8 = some e ∧ e.length ≤ 8 := by
  have inside : uiBytes.findIdx (fun most => ui.toNat ≤ most) < uiBytes.length := by
    rw [List.findIdx_lt_length]
    have most := ui.toNat_lt
    exact ⟨2 ^ 64 - 1, by simp [uiBytes], by simpa using by omega⟩
  have eight : uiBytes.length = 8 := rfl
  unfold ecOptEncodeUint
  by_cases zero : ui = 0
  · rw [if_pos zero]
    exact ⟨[], rfl, Nat.zero_le 8⟩
  · rw [if_neg zero]
    dsimp only
    rw [if_neg (by omega)]
    cases order with
    | little =>
        refine ⟨_, rfl, ?_⟩
        rw [List.length_reverse, List.length_map, List.length_range]
        omega
    | big =>
        refine ⟨_, rfl, ?_⟩
        rw [List.length_map, List.length_range]
        omega

/-- A Token that was added is one more option of the set. -/
theorem ecOptsAddToken_ok {opts : EcOpts} {t : List UInt8} (added : (ecOptsAddToken opts t).2 = 0) :
    ∃ o, ecOptNew .token t = some o ∧
      (ecOptsAddToken opts t).1 = {opts with noptions := opts.noptions + 1, bundle := opts.bundle.insert o} := by
  unfold ecOptsAddToken ecOptsAddShortOpaque at added ⊢
  by_cases bounds : t.length = 0 ∨ t.length > 8
  · rw [if_pos bounds] at added
    exact absurd added (by simp)
  · have short : t.length < ecCoapOptLenMax := by
      simp only [ecCoapOptLenMax]
      omega
    rw [if_neg bounds] at added ⊢
    unfold ecOptsAddOpaque at added ⊢
    rw [if_neg (by decide)] at added ⊢
    unfold ecOptsAddRaw at added ⊢
    dsimp only at added ⊢
    rw [optSegments_one t short, ecOptsAddSegments] at added ⊢
    generalize (t.length / ecCoapOptLenMax + if t.length % ecCoapOptLenMax ≠ 0 ∨ t.length = 0 then 1 else 0) = used
      at added ⊢
    split at added
    · exact absurd added (by simp)
    · rename_i room
      rw [if_neg room]
      split at added
      · rename_i zero
        rw [if_pos zero, ecOptsAddSegments]
        unfold ecOptsAdd at zero ⊢
        split at zero
        · exact absurd zero (by simp)
        · rename_i o created
          unfold ecOptsPush at zero ⊢
          split at zero
          · exact absurd zero (by simp)
          · rename_i space
            rw [if_neg space]
            exact ⟨o, created, rfl⟩
      · exact absurd added (by simp)

/-- One call of the adding interface, with its arguments. -/
inductive AddCall where
  | add (sym : EcOptSym) (v : List UInt8)
  | raw (sym : EcOptSym) (v : List UInt8)
  | uint (sym : EcOptSym) (v : UInt64)
  | string (sym : EcOptSym) (s : List UInt8)
  | opaqueValue (sym : EcOptSym) (v : List UInt8)
  | empty (sym : EcOptSym)
  | contentType (ct : UInt16)
  | maxAge (ma : UInt32)
  | proxyUri (pu : List UInt8)
  | etag (et : List UInt8)
  | uriHost (uh : List UInt8)
  | locationPath (lp : List UInt8)
  | uriPort (up : UInt16)
  | locationQuery (lq : List UInt8)
  | uriPath (up : List UInt8)
  | token (t : List UInt8)
  | accept (a : UInt16)
  | ifMatch (im : List UInt8)
  | uriQuery (uq : List UInt8)
  | ifNoneMatch
  | observe (o : UInt16)
  | block (which : EcOptSym) (num : UInt32) (more : Bool) (szx : UInt8)
  | block1 (num : UInt32) (more : Bool) (szx : UInt8)
  | block2 (num : UInt32) (more : Bool) (szx : UInt8)
  | publish (mm : UInt8)
  deriving DecidableEq, Repr

def AddCall.apply (order : ByteOrder) (isAbsolute : List UInt8 → Bool) (opts : EcOpts) :
    AddCall → EcOpts × Int
  | .add sym v => ecOptsAdd opts sym v
  | .raw sym v => ecOptsAddRaw opts sym v
  | .uint sym v => ecOptsAddUint order opts sym v
  | .string sym s => ecOptsAddString opts sym s
  | .opaqueValue sym v => ecOptsAddOpaque opts sym v
  | .empty sym => ecOptsAddEmpty opts sym
  | .contentType ct => ecOptsAddContentType order opts ct
  | .maxAge ma => ecOptsAddMaxAge order opts ma
  | .proxyUri pu => ecOptsAddProxyUri isAbsolute opts pu
  | .etag et => ecOptsAddEtag opts et
  | .uriHost uh => ecOptsAddUriHost opts uh
  | .locationPath lp => ecOptsAddLocationPath opts lp
  | .uriPort up => ecOptsAddUriPort order opts up
  | .locationQuery lq => ecOptsAddLocationQuery opts lq
  | .uriPath up => ecOptsAddUriPath opts up
  | .token t => ecOptsAddToken opts t
  | .accept a => ecOptsAddAccept order opts a
  | .ifMatch im => ecOptsAddIfMatch opts im
  | .uriQuery uq => ecOptsAddUriQuery opts uq
  | .ifNoneMatch => ecOptsAddIfNoneMatch opts
  | .observe o => ecOptsAddObserve order opts o
  | .block which num more szx => ecOptsAddBlock order opts which num more szx
  | .block1 num more szx => ecOptsAddBlock1 order opts num more szx
  | .block2 num more szx => ecOptsAddBlock2 order opts num more szx
  | .publish mm => ecOptsAddPublish order opts mm

/-- A built set comes from `ec_opts_init` by successful calls of the adding interface. -/
inductive Built (order : ByteOrder) (isAbsolute : List UInt8 → Bool) : EcOpts → Prop where
  | init : Built order isAbsolute ecOptsInit
  | add {opts : EcOpts} (earlier : Built order isAbsolute opts) (call : AddCall)
      (accepted : (call.apply order isAbsolute opts).2 = 0) :
      Built order isAbsolute (call.apply order isAbsolute opts).1

/-- A set that was never encoded has a zeroed buffer and counts exactly its queue. -/
structure EcOpts.Unencoded (opts : EcOpts) : Prop where
  zeroed : opts.enc = fun _ => 0
  empty : opts.encSz = 0
  counted : opts.noptions = opts.bundle.list.length
  within : opts.noptions ≤ ecProtoMaxOptions

theorem ecOptsInit_unencoded : ecOptsInit.Unencoded := ⟨rfl, rfl, rfl, Nat.zero_le _⟩

/-- What a push preserves, every adder preserves. -/
structure AdderInvariant (invariant : EcOpts → Prop) : Prop where
  push : ∀ opts o, invariant opts → invariant (ecOptsPush opts o).1

section AdderInvariant

variable {invariant : EcOpts → Prop} (pushed : AdderInvariant invariant)
include pushed

theorem AdderInvariant.add (opts : EcOpts) (sym : EcOptSym) (v : List UInt8) (held : invariant opts) :
    invariant (ecOptsAdd opts sym v).1 := by
  rw [ecOptsAdd]
  cases ecOptNew sym v with
  | none => exact held
  | some o => exact pushed.push opts o held

theorem AdderInvariant.segments (sym : EcOptSym) (segments : List (List UInt8)) (opts : EcOpts)
    (held : invariant opts) : invariant (ecOptsAddSegments sym segments opts).1 := by
  induction segments generalizing opts with
  | nil => exact held
  | cons segment segments ih =>
      have first := pushed.add opts sym segment held
      simp only [ecOptsAddSegments]
      split
      · exact ih _ first
      · exact first

theorem AdderInvariant.raw (opts : EcOpts) (sym : EcOptSym) (v : List UInt8) (held : invariant opts) :
    invariant (ecOptsAddRaw opts sym v).1 := by
  rw [ecOptsAddRaw]
  by_cases full : opts.noptions + (v.length / ecCoapOptLenMax +
      if v.length % ecCoapOptLenMax ≠ 0 ∨ v.length = 0 then 1 else 0) > ecProtoMaxOptions
  · rw [if_pos full]
    exact held
  · rw [if_neg full]
    exact pushed.segments sym _ opts held

theorem AdderInvariant.uint (order : ByteOrder) (opts : EcOpts) (sym : EcOptSym) (v : UInt64)
    (held : invariant opts) : invariant (ecOptsAddUint order opts sym v).1 := by
  simp only [ecOptsAddUint]
  split
  · exact held
  · split
    · exact held
    · exact pushed.raw opts sym _ held

theorem AdderInvariant.string (opts : EcOpts) (sym : EcOptSym) (s : List UInt8) (held : invariant opts) :
    invariant (ecOptsAddString opts sym s).1 := by
  rw [ecOptsAddString]
  split
  · exact held
  · exact pushed.raw opts sym _ held

theorem AdderInvariant.opaqueValue (opts : EcOpts) (sym : EcOptSym) (v : List UInt8) (held : invariant opts) :
    invariant (ecOptsAddOpaque opts sym v).1 := by
  rw [ecOptsAddOpaque]
  split
  · exact held
  · exact pushed.raw opts sym _ held

theorem AdderInvariant.empty (opts : EcOpts) (sym : EcOptSym) (held : invariant opts) :
    invariant (ecOptsAddEmpty opts sym).1 := by
  rw [ecOptsAddEmpty]
  split
  · exact held
  · exact pushed.raw opts sym _ held

theorem AdderInvariant.shortString (opts : EcOpts) (sym : EcOptSym) (s : List UInt8)
    (held : invariant opts) : invariant (ecOptsAddShortString opts sym s).1 := by
  rw [ecOptsAddShortString]
  split
  · exact held
  · exact pushed.string opts sym s held

theorem AdderInvariant.shortOpaque (opts : EcOpts) (sym : EcOptSym) (v : List UInt8)
    (held : invariant opts) : invariant (ecOptsAddShortOpaque opts sym v).1 := by
  rw [ecOptsAddShortOpaque]
  split
  · exact held
  · exact pushed.opaqueValue opts sym v held

theorem AdderInvariant.proxyUri (isAbsolute : List UInt8 → Bool) (opts : EcOpts) (pu : List UInt8)
    (held : invariant opts) : invariant (ecOptsAddProxyUri isAbsolute opts pu).1 := by
  rw [ecOptsAddProxyUri]
  split
  · exact held
  · split
    · exact pushed.string opts .proxyUri pu held
    · exact held

theorem AdderInvariant.block (order : ByteOrder) (opts : EcOpts) (which : EcOptSym) (num : UInt32)
    (more : Bool) (szx : UInt8) (held : invariant opts) :
    invariant (ecOptsAddBlock order opts which num more szx).1 := by
  rw [ecOptsAddBlock]
  dsimp only
  by_cases other : which ≠ .block1 ∧ which ≠ .block2
  · rw [if_pos other]
    exact held
  · rw [if_neg other]
    by_cases wide : num > 0xfffff
    · rw [if_pos wide]
      exact held
    · rw [if_neg wide]
      by_cases large : szx > 0x7
      · rw [if_pos large]
        exact held
      · rw [if_neg large]
        exact pushed.uint order opts which _ held

theorem AdderInvariant.apply (order : ByteOrder) (isAbsolute : List UInt8 → Bool) (opts : EcOpts)
    (call : AddCall) (held : invariant opts) : invariant (call.apply order isAbsolute opts).1 := by
  cases call with
  | add sym v => exact pushed.add opts sym v held
  | raw sym v => exact pushed.raw opts sym v held
  | uint sym v => exact pushed.uint order opts sym v held
  | string sym s => exact pushed.string opts sym s held
  | opaqueValue sym v => exact pushed.opaqueValue opts sym v held
  | empty sym => exact pushed.empty opts sym held
  | contentType ct => exact pushed.uint order opts _ _ held
  | maxAge ma => exact pushed.uint order opts _ _ held
  | proxyUri pu => exact pushed.proxyUri isAbsolute opts pu held
  | etag et => exact pushed.shortOpaque opts _ et held
  | uriHost uh => exact pushed.shortString opts _ uh held
  | locationPath lp => exact pushed.shortString opts _ lp held
  | uriPort up => exact pushed.uint order opts _ _ held
  | locationQuery lq => exact pushed.shortString opts _ lq held
  | uriPath up => exact pushed.shortString opts _ up held
  | token t => exact pushed.shortOpaque opts _ t held
  | accept a => exact pushed.uint order opts _ _ held
  | ifMatch im => exact pushed.shortOpaque opts _ im held
  | uriQuery uq => exact pushed.shortString opts _ uq held
  | ifNoneMatch => exact pushed.empty opts _ held
  | observe o => exact pushed.uint order opts _ _ held
  | block which num more szx => exact pushed.block order opts which num more szx held
  | block1 num more szx => exact pushed.block order opts .block1 num more szx held
  | block2 num more szx => exact pushed.block order opts .block2 num more szx held
  | publish mm => exact pushed.uint order opts _ _ held

end AdderInvariant

theorem unencoded_adderInvariant : AdderInvariant EcOpts.Unencoded where
  push opts o held := by
    rw [ecOptsPush]
    split
    · exact held
    · rename_i room
      have within := held.within
      exact ⟨held.zeroed, held.empty, by simp [held.counted], by
        dsimp only
        simp only [ecProtoMaxOptions] at room within ⊢
        omega⟩

/-- A built set was never encoded. -/
theorem Built.unencoded {order : ByteOrder} {isAbsolute : List UInt8 → Bool} {opts : EcOpts}
    (built : Built order isAbsolute opts) : opts.Unencoded := by
  induction built with
  | init => exact ecOptsInit_unencoded
  | add _ call _ ih => exact unencoded_adderInvariant.apply order isAbsolute _ call ih

end Webthings.Evcoap
