import Webthings.Evcoap.ClientPairing
import Webthings.Evcoap.Observe
import Webthings.Evcoap.Options.Block

namespace Webthings.Evcoap

/-- The parts of a URI that `u_uri_crumble` finds, empty for NULL; the host of a URI without flags is a name. -/
structure UUri where
  scheme : List UInt8
  host : List UInt8
  path : List UInt8
  query : List UInt8
  noFlags : Bool
  deriving DecidableEq, Repr

/-- The response code `EC_IS_OK` asks for. -/
def ecIsOk (rc : EcRc) : Prop := 65 ≤ rc ∧ rc ≤ 95

instance (rc : EcRc) : Decidable (ecIsOk rc) := inferInstanceAs (Decidable (_ ∧ _))

/-- The block configuration of a context. -/
structure EcCfg where
  blockIsStateless : Bool
  blockSzx : UInt8
  deriving DecidableEq, Repr

/-- Block options are left to the user until a block size is set. -/
def ecCfgInit : EcCfg := ⟨true, 0⟩

def ecGetBlockSize (cfg : EcCfg) : Nat := if cfg.blockIsStateless then 0 else 1 <<< (cfg.blockSzx.toNat + 4)

/-- The strings that `strsep` cuts off, without the empty ones, are added until one fails. -/
def ecOptsAddTokens (add : EcOpts → List UInt8 → EcOpts × Int) : List (List UInt8) → EcOpts → EcOpts × Int
  | [], opts => (opts, 0)
  | token :: tokens, opts =>
      if token = [] then ecOptsAddTokens add tokens opts
      else
        let added := add opts token
        if added.2 ≠ 0 then (added.1, -1) else ecOptsAddTokens add tokens added.1

/-- The copy of the path or of the query has 1024 bytes. -/
def ecOptsAddSeparated (add : EcOpts → List UInt8 → EcOpts × Int) (delimiter : UInt8) (p : List UInt8) (opts : EcOpts) :
    EcOpts × Int :=
  if p = [] then (opts, 0)
  else if p.length ≥ 1024 then (opts, -1)
  else ecOptsAddTokens add (p.splitOn delimiter) opts

/-- The bytes of `coap`. -/
def coapScheme : List UInt8 := [99, 111, 97, 112]

/-- The options of a request that the URI determines. -/
def ecClientUriOpts (isAbsolute : List UInt8 → Bool) (useProxy : Bool) (uri : List UInt8) (u : UUri) (opts : EcOpts) :
    EcOpts × Int :=
  if u.scheme = [] ∨ u.host = [] then (opts, -1)
  else if useProxy then ecOptsAddProxyUri isAbsolute opts uri
  else if asciiStrcaseEqual u.scheme coapScheme = false then (opts, -1)
  else
    let hosted := if u.noFlags then ecOptsAddUriHost opts u.host else (opts, 0)
    if hosted.2 ≠ 0 then (hosted.1, -1)
    else
      let pathed := ecOptsAddSeparated ecOptsAddUriPath 47 u.path hosted.1
      if pathed.2 ≠ 0 then (pathed.1, -1)
      else
        let queried := ecOptsAddSeparated ecOptsAddUriQuery 38 u.query pathed.1
        if queried.2 ≠ 0 then (queried.1, -1) else queried

/-- The request of a client with what an adder makes of its options. -/
def EcClient.adding (cli : EcClient) (add : EcOpts → EcOpts × Int) : EcClient × Int :=
  let added := add cli.req.opts
  ({cli with req := {cli.req with opts := added.1}}, added.2)

def ecClientAddUriOpts (isAbsolute : List UInt8 → Bool) (useProxy : Bool) (uri : List UInt8) (crumbled : Option UUri)
    (cli : EcClient) : EcClient × Int :=
  match crumbled with
  | none => (cli, -1)
  | some u => cli.adding (ecClientUriOpts isAbsolute useProxy uri u)

def ecOptsGetPublish (order : ByteOrder) (opts : EcOpts) : Option UInt8 :=
  match ecOptsGetUint order opts .publish with
  | none => none
  | some tmp => if tmp > 0xff then none else some tmp.toUInt8

def ecRequestAddPublish (order : ByteOrder) (cli : EcClient) (allowedMethods : UInt8) : EcClient × Int :=
  if (ecOptsGetPublish order cli.req.opts).isSome then (cli, -1)
  else
    let added := cli.adding fun opts => ecOptsAddPublish order opts allowedMethods
    if added.2 ≠ 0 then (added.1, -1) else added

def ecRequestAddObserve (order : ByteOrder) (cli : EcClient) : EcClient × Int :=
  if (ecOptsGetObserve order cli.req.opts).isSome then (cli, -1)
  else
    let added := cli.adding fun opts => ecOptsAddObserve order opts 0
    if added.2 ≠ 0 then (added.1, -1) else added

def ecRequestAddAccept (order : ByteOrder) (cli : EcClient) (a : UInt16) : EcClient × Int :=
  cli.adding fun opts => ecOptsAddAccept order opts a

def ecRequestAddContentType (order : ByteOrder) (cli : EcClient) (ct : UInt16) : EcClient × Int :=
  cli.adding fun opts => ecOptsAddContentType order opts ct

def ecRequestAddBlock1 (order : ByteOrder) (cli : EcClient) (bnum : UInt32) (more : Bool) (bsz : Nat) : EcClient × Int :=
  cli.adding fun opts => addBlock order opts .block1 bnum more bsz

def ecRequestAddBlock2 (order : ByteOrder) (cli : EcClient) (bnum : UInt32) (more : Bool) (bsz : Nat) : EcClient × Int :=
  cli.adding fun opts => addBlock order opts .block2 bnum more bsz

/-- A payload above the block size of the context is refused, and so is an empty one. -/
def ecRequestSetPayload (cfg : EcCfg) (cli : EcClient) (payload : List UInt8) : EcClient × Int :=
  let bsz := ecGetBlockSize cfg
  if bsz ≠ 0 ∧ payload.length > bsz then (cli, -1)
  else
    let set := ecPduSetPayload cli.req payload
    ({cli with req := set.1}, set.2)

/-- An empty payload leaves the one that the request has had before. -/
theorem ecRequestSetPayload_init (cli : EcClient) (payload : List UInt8) :
    (ecRequestSetPayload ecCfgInit cli payload).1 =
      {cli with req := {cli.req with payload := if payload = [] then cli.req.payload else payload}} := by
  have unlimited : ecGetBlockSize ecCfgInit = 0 := rfl
  unfold ecRequestSetPayload ecPduSetPayload
  rw [unlimited, if_neg (by omega)]
  by_cases empty : payload = []
  · subst empty
    rfl
  · rw [if_neg (by simp [empty]), if_neg empty]

theorem ecOptsAddTokens_spares {add : EcOpts → List UInt8 → EcOpts × Int} {kept : EcOptSym}
    (spares : ∀ opts token, ecOptsGet (add opts token).1 kept = ecOptsGet opts kept) (tokens : List (List UInt8))
    (opts : EcOpts) : ecOptsGet (ecOptsAddTokens add tokens opts).1 kept = ecOptsGet opts kept := by
  induction tokens generalizing opts with
  | nil => rfl
  | cons token tokens ih =>
      rw [ecOptsAddTokens]
      split
      · exact ih opts
      · dsimp only
        split
        · exact spares opts token
        · rw [ih, spares]

theorem ecOptsAddSeparated_spares {add : EcOpts → List UInt8 → EcOpts × Int} {kept : EcOptSym}
    (spares : ∀ opts token, ecOptsGet (add opts token).1 kept = ecOptsGet opts kept) (delimiter : UInt8)
    (p : List UInt8) (opts : EcOpts) :
    ecOptsGet (ecOptsAddSeparated add delimiter p opts).1 kept = ecOptsGet opts kept := by
  unfold ecOptsAddSeparated
  split
  · rfl
  · split
    · rfl
    · exact ecOptsAddTokens_spares spares _ opts

/-- The options of the URI are Proxy-Uri, Uri-Host, Uri-Path and Uri-Query. -/
def UriSym (sym : EcOptSym) : Prop := sym = .proxyUri ∨ sym = .uriHost ∨ sym = .uriPath ∨ sym = .uriQuery

theorem ecClientUriOpts_spares (isAbsolute : List UInt8 → Bool) (useProxy : Bool) (uri : List UInt8) (u : UUri)
    (opts : EcOpts) (kept : EcOptSym) (other : ¬ UriSym kept) :
    ecOptsGet (ecClientUriOpts isAbsolute useProxy uri u opts).1 kept = ecOptsGet opts kept := by
  unfold UriSym at other
  push Not at other
  obtain ⟨notProxy, notHost, notPath, notQuery⟩ := other
  have path : ∀ opts, ecOptsGet (ecOptsAddSeparated ecOptsAddUriPath 47 u.path opts).1 kept = ecOptsGet opts kept := by
    intro opts
    apply ecOptsAddSeparated_spares
    intro opts token
    exact ecOptsAddShortString_spares kept notPath.symm token
  have query : ∀ opts, ecOptsGet (ecOptsAddSeparated ecOptsAddUriQuery 38 u.query opts).1 kept = ecOptsGet opts kept := by
    intro opts
    apply ecOptsAddSeparated_spares
    intro opts token
    exact ecOptsAddShortString_spares kept notQuery.symm token
  unfold ecClientUriOpts
  split
  · rfl
  · split
    · exact ecOptsAddProxyUri_spares isAbsolute uri kept notProxy.symm
    · split
      · rfl
      · have host : ecOptsGet (if u.noFlags then ecOptsAddUriHost opts u.host else (opts, 0)).1 kept =
            ecOptsGet opts kept := by
          split
          · exact ecOptsAddShortString_spares kept notHost.symm _
          · rfl
        generalize (if u.noFlags then ecOptsAddUriHost opts u.host else (opts, 0)) = hosted at host ⊢
        dsimp only
        split
        · exact host
        · split
          · rw [path, host]
          · split
            · rw [query, path, host]
            · rw [query, path, host]

/-- A client whose request has got options, none of them of the kept symbol, and whose flow may have got a token. -/
structure EcClient.Extends (kept : EcOptSym) (cli next : EcClient) : Prop where
  shape : ∃ opts token,
    next = {cli with req := {cli.req with opts := opts}, flow := {cli.flow with token := token}}
  spared : ecOptsGet next.req.opts kept = ecOptsGet cli.req.opts kept

theorem EcClient.Extends.refl (kept : EcOptSym) (cli : EcClient) : cli.Extends kept cli := ⟨⟨_, _, rfl⟩, rfl⟩

theorem EcClient.Extends.trans {kept : EcOptSym} {cli middle next : EcClient} (first : cli.Extends kept middle)
    (second : middle.Extends kept next) : cli.Extends kept next := by
  obtain ⟨⟨_, _, rfl⟩, spared⟩ := first
  obtain ⟨⟨opts, token, same⟩, kept⟩ := second
  exact ⟨⟨opts, token, same⟩, kept.trans spared⟩

theorem EcClient.Extends.payload {kept : EcOptSym} {cli next : EcClient} (extended : cli.Extends kept next) :
    next.req.payload = cli.req.payload := by
  obtain ⟨⟨_, _, rfl⟩, _⟩ := extended
  rfl

theorem EcClient.Extends.observe {kept : EcOptSym} {cli next : EcClient} (extended : cli.Extends kept next) :
    next.observe = cli.observe := by
  obtain ⟨⟨_, _, rfl⟩, _⟩ := extended
  rfl

section Extending

variable {kept : EcOptSym} (cli : EcClient)

theorem EcClient.adding_extends {add : EcOpts → EcOpts × Int}
    (spares : ∀ opts, ecOptsGet (add opts).1 kept = ecOptsGet opts kept) : cli.Extends kept (cli.adding add).1 :=
  ⟨⟨(add cli.req.opts).1, cli.flow.token, rfl⟩, spares cli.req.opts⟩

theorem ecClientAddUriOpts_extends (isAbsolute : List UInt8 → Bool) (useProxy : Bool) (uri : List UInt8)
    (crumbled : Option UUri) (other : ¬ UriSym kept) :
    cli.Extends kept (ecClientAddUriOpts isAbsolute useProxy uri crumbled cli).1 := by
  cases crumbled with
  | none => exact EcClient.Extends.refl kept cli
  | some u =>
      apply cli.adding_extends
      intro opts
      exact ecClientUriOpts_spares isAbsolute useProxy uri u opts kept other

theorem ecRequestAddPublish_extends (order : ByteOrder) (allowedMethods : UInt8) (other : .publish ≠ kept) :
    cli.Extends kept (ecRequestAddPublish order cli allowedMethods).1 := by
  have extended : cli.Extends kept (cli.adding fun opts => ecOptsAddPublish order opts allowedMethods).1 := by
    apply cli.adding_extends
    intro opts
    exact ecOptsAddUint_spares kept other order _
  unfold ecRequestAddPublish
  split
  · exact EcClient.Extends.refl kept cli
  · dsimp only
    split
    · exact extended
    · exact extended

theorem ecRequestAddObserve_extends (order : ByteOrder) (other : .observe ≠ kept) :
    cli.Extends kept (ecRequestAddObserve order cli).1 := by
  have extended : cli.Extends kept (cli.adding fun opts => ecOptsAddObserve order opts 0).1 := by
    apply cli.adding_extends
    intro opts
    exact ecOptsAddUint_spares kept other order _
  unfold ecRequestAddObserve
  split
  · exact EcClient.Extends.refl kept cli
  · dsimp only
    split
    · exact extended
    · exact extended

/-- Without a result the client is what the caller takes instead. -/
theorem ecRequestAddToken_extends (t rng : List UInt8) (other : .token ≠ kept) :
    cli.Extends kept ((ecRequestAddToken cli t rng).getD (cli, -1)).1 := by
  have spared : ecOptsGet (ecOptsAddShortOpaque cli.req.opts .token (if t = [] then rng else t)).1 kept =
      ecOptsGet cli.req.opts kept := ecOptsAddShortOpaque_spares kept other _
  unfold ecRequestAddToken
  dsimp only
  generalize (if t = [] then rng else t) = tok at spared ⊢
  split
  · exact ⟨⟨_, cli.flow.token, rfl⟩, spared⟩
  · unfold ecFlowSaveToken
    split
    · exact ⟨⟨_, _, rfl⟩, spared⟩
    · exact EcClient.Extends.refl kept cli

end Extending

/-- Two results of an adder have the same options and the same return code. -/
structure SameOptions (a b : EcClient × Int) : Prop where
  opts : a.1.req.opts = b.1.req.opts
  rc : a.2 = b.2

section Congruence

variable {cli cli' : EcClient} (same : cli.req.opts = cli'.req.opts)
include same

theorem EcClient.adding_same (add : EcOpts → EcOpts × Int) : SameOptions (cli.adding add) (cli'.adding add) := by
  unfold EcClient.adding
  rw [same]
  exact ⟨rfl, rfl⟩

theorem ecClientAddUriOpts_same (isAbsolute : List UInt8 → Bool) (useProxy : Bool) (uri : List UInt8)
    (crumbled : Option UUri) :
    SameOptions (ecClientAddUriOpts isAbsolute useProxy uri crumbled cli)
      (ecClientAddUriOpts isAbsolute useProxy uri crumbled cli') := by
  cases crumbled with
  | none => exact ⟨same, rfl⟩
  | some u => exact EcClient.adding_same same _

/-- An option that may be there only once is added to both or to neither. -/
theorem EcClient.adding_once_same (there : Bool) (add : EcOpts → EcOpts × Int) :
    SameOptions
      (if there then (cli, -1) else if (cli.adding add).2 ≠ 0 then ((cli.adding add).1, -1) else cli.adding add)
      (if there then (cli', -1) else if (cli'.adding add).2 ≠ 0 then ((cli'.adding add).1, -1) else cli'.adding add) := by
  have added := EcClient.adding_same same add
  rw [added.rc]
  split
  · exact ⟨same, rfl⟩
  · split
    · exact ⟨added.opts, rfl⟩
    · exact added

theorem ecRequestAddPublish_same (order : ByteOrder) (allowedMethods : UInt8) :
    SameOptions (ecRequestAddPublish order cli allowedMethods) (ecRequestAddPublish order cli' allowedMethods) := by
  unfold ecRequestAddPublish
  rw [same]
  exact EcClient.adding_once_same same _ fun opts => ecOptsAddPublish order opts allowedMethods

theorem ecRequestAddObserve_same (order : ByteOrder) :
    SameOptions (ecRequestAddObserve order cli) (ecRequestAddObserve order cli') := by
  unfold ecRequestAddObserve
  rw [same]
  exact EcClient.adding_once_same same _ fun opts => ecOptsAddObserve order opts 0

theorem ecRequestAddToken_same (t rng : List UInt8) :
    SameOptions ((ecRequestAddToken cli t rng).getD (cli, -1)) ((ecRequestAddToken cli' t rng).getD (cli', -1)) := by
  unfold ecRequestAddToken
  dsimp only
  generalize (if t = [] then rng else t) = tok
  rw [same]
  split
  · exact ⟨rfl, rfl⟩
  · unfold ecFlowSaveToken
    split
    · exact ⟨rfl, rfl⟩
    · exact ⟨same, rfl⟩

end Congruence

end Webthings.Evcoap
