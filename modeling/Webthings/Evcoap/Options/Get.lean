import Webthings.Evcoap.Options.Bundle

namespace Webthings.Evcoap

/-- The index has the semantics of a C array index. -/
def ecOptsGetNth (opts : EcOpts) (sym : EcOptSym) (n : Nat) : Option EcOpt :=
  (opts.bundle.list.filter fun o => o.sym = sym)[n]?

def ecOptsGet (opts : EcOpts) (sym : EcOptSym) : Option EcOpt := ecOptsGetNth opts sym 0

/-- The value of an ETag, by its index. -/
def ecOptsGetEtagNth (opts : EcOpts) (n : Nat) : Option (List UInt8) := (ecOptsGetNth opts .etag n).bind EcOpt.v

def ecOptsGetToken (opts : EcOpts) : Option (List UInt8) := (ecOptsGet opts .token).bind EcOpt.v

/-- The value of the first Token option, which is empty when there is none. -/
def requestToken (opts : EcOpts) : List UInt8 := ((ecOptsGet opts .token).map fun t => t.value).getD []

/-- The little-endian build takes the first byte as the highest, the other build as the lowest. -/
def ecOptDecodeUint (order : ByteOrder) (v : List UInt8) (l : Nat) : Option Nat :=
  if l > 8 then none
  else
    match order with
    | .little => some (v.foldl (fun ui byte => ui * 256 + byte.toNat) 0)
    | .big => some (v.foldr (fun byte ui => ui * 256 + byte.toNat) 0)

def ecOptsGetUint (order : ByteOrder) (opts : EcOpts) (sym : EcOptSym) : Option Nat :=
  if ecOptSym2type sym ≠ .uint then none
  else
    match ecOptsGet opts sym with
    | none => none
    | some o => ecOptDecodeUint order o.value o.l

def ecOptsGetObserve (order : ByteOrder) (opts : EcOpts) : Option UInt16 :=
  match ecOptsGetUint order opts .observe with
  | none => none
  | some tmp => if tmp > 0xffff then none else some tmp.toUInt16

def ecOptsGetUriPort (order : ByteOrder) (opts : EcOpts) : Option UInt16 :=
  match ecOptsGetUint order opts .uriPort with
  | none => none
  | some tmp => if tmp > 0xffff then none else some tmp.toUInt16

/-- An absent or undecodable option stands for an hour. -/
def ecOptsGetMaxAge (order : ByteOrder) (opts : EcOpts) : Option UInt32 :=
  match ecOptsGetUint order opts .maxAge with
  | none => some 3600
  | some tmp => if tmp > 0xffffffff then none else some tmp.toUInt32

/-- An option that is found has the symbol that was asked for. -/
theorem ecOptsGet_some {opts : EcOpts} {sym : EcOptSym} {o : EcOpt} (found : ecOptsGet opts sym = some o) :
    o.sym = sym ∧ o ∈ opts.bundle.list := by
  have member := List.mem_of_getElem? found
  rw [List.mem_filter] at member
  exact ⟨of_decide_eq_true member.2, member.1⟩

end Webthings.Evcoap
