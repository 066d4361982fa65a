import Webthings.Apps.CoapServer

namespace Webthings.Apps
open Webthings.Evcoap

/-- The block state of one direction of a transfer. -/
structure ClientBlock where
  blockNo : UInt32
  more : Bool
  blockSz : Nat
  deriving DecidableEq, Repr

/-- The global context of the test client; `pfn` tells whether there is a payload file. -/
structure ClientCtx where
  cli : EcClient
  uri : List UInt8
  method : EcMethod
  pfn : Bool
  observe : UInt32
  fail : Bool
  token : Bool
  blockSz : Nat
  data : List UInt8
  b1 : ClientBlock
  b2 : ClientBlock
  iblock : Nat
  mt : EcMt
  publish : Bool
  allowedMethods : EcMethodMask
  useProxy : Bool

/-- What a run of the client depends on: the parts of the URI, a random token and the payload file. -/
structure RunEnv where
  crumbled : Option UUri
  tok : Vector UInt8 8
  file : Option (List UInt8)

def defaultBlock : Nat := 128

/-- The block size that the user has asked for, or the default one. -/
def ClientCtx.blockSize (ctx : ClientCtx) : Nat := if ctx.blockSz = 0 then defaultBlock else ctx.blockSz

/-- The payload of one request; a block behind the end of the data is a fault. -/
def ClientCtx.setPayload (order : ByteOrder) (ctx : ClientCtx) (data : List UInt8) : Except EcFault (ClientCtx × Int) :=
  let bnum := ctx.b1.blockNo
  let blockSz := ctx.blockSize
  if data.length ≤ blockSz then
    .ok ({ctx with cli := (ecRequestSetPayload ecCfgInit ctx.cli data).1, b1 := {ctx.b1 with more := false}}, 0)
  else if data.length < bnum.toNat * blockSz then .error .overrun
  else
    let more := decide (bnum.toNat < data.length / blockSz)
    let pSz := if more then blockSz else data.length - bnum.toNat * blockSz
    let added := ecRequestAddBlock1 order ctx.cli bnum more blockSz
    if added.2 ≠ 0 then .ok ({ctx with cli := added.1}, -1)
    else
      let p := (data.drop (bnum.toNat * blockSz)).take pSz
      .ok ({ctx with cli := (ecRequestSetPayload ecCfgInit added.1 p).1, b1 := {ctx.b1 with more := more}}, 0)

/-- The options that a request of any method starts with. -/
def ClientCtx.baseOptions (order : ByteOrder) (isAbsolute : List UInt8 → Bool) (env : RunEnv) (ctx : ClientCtx) :
    EcClient × Int :=
  let cleared := {ctx.cli with req := {ctx.cli.req with opts := ecOptsInit}}
  let addressed := (ecClientAddUriOpts isAbsolute ctx.useProxy ctx.uri env.crumbled cleared).1
  let published :=
    if ctx.publish then ecRequestAddPublish order addressed ctx.allowedMethods.toUInt8 else (addressed, 0)
  if published.2 ≠ 0 then (published.1, -1)
  else
    let tokened :=
      if ctx.token then (ecRequestAddToken published.1 [] env.tok.toList).getD (published.1, -1) else published
    if tokened.2 ≠ 0 then (tokened.1, -1)
    else if ctx.observe ≠ 0 then
      let observed := ecRequestAddObserve order tokened.1
      if observed.2 ≠ 0 then (observed.1, -1) else observed
    else tokened

/-- The Block2 and Accept options of a GET. -/
def ClientCtx.getOptions (order : ByteOrder) (ctx : ClientCtx) : ClientCtx × Int :=
  let counted := if ctx.blockSz ≠ 0 then {ctx with iblock := ctx.iblock + 1} else ctx
  let blocked :=
    if ctx.blockSz ≠ 0 ∧ ctx.iblock = 0 then
      let added := ecRequestAddBlock2 order counted.cli 0 false ctx.blockSz
      ({counted with cli := added.1}, added.2)
    else if ctx.b2.more then
      let bsz := if ctx.blockSz ≠ 0 then min ctx.blockSz ctx.b2.blockSz else ctx.b2.blockSz
      let next : ClientBlock := {ctx.b2 with blockNo := ctx.b2.blockNo + 1, blockSz := bsz}
      let added := ecRequestAddBlock2 order counted.cli next.blockNo false bsz
      ({counted with cli := added.1, b2 := next}, added.2)
    else (counted, 0)
  if blocked.2 ≠ 0 then (blocked.1, -1)
  else if ctx.mt ≠ ecMtAny then
    let added := ecRequestAddAccept order blocked.1.cli ctx.mt.toUInt16
    ({blocked.1 with cli := added.1}, added.2)
  else blocked

/-- The payload and the Content-Type of a POST or a PUT; the file is loaded for the first block only. -/
def ClientCtx.putOptions (order : ByteOrder) (env : RunEnv) (ctx : ClientCtx) : Except EcFault (ClientCtx × Int) :=
  let loaded := if ctx.b1.blockNo = 0 then env.file.map fun file => {ctx with data := file} else some ctx
  match loaded with
  | none => .ok (ctx, -1)
  | some loaded =>
      match loaded.setPayload order loaded.data with
      | .error fault => .error fault
      | .ok (set, rc) =>
          if rc ≠ 0 then .ok (set, -1)
          else
            let added := ecRequestAddContentType order set.cli
              (if set.mt = ecMtAny then ecMtTextPlain else set.mt).toUInt16
            .ok ({set with cli := added.1}, added.2)

/-- A run prepares the request and hands it to `ec_request_send`, whose outcome is `sent`. -/
def clientRun (order : ByteOrder) (isAbsolute : List UInt8 → Bool) (env : RunEnv) (sent : Bool) (ctx : ClientCtx) :
    Except EcFault (ClientCtx × Int) :=
  let started : ClientCtx := {ctx with fail := false}
  let based := started.baseOptions order isAbsolute env
  let prepared : ClientCtx := {started with cli := based.1}
  if based.2 ≠ 0 then .ok ({prepared with fail := true}, -1)
  else
    let ready : Except EcFault (ClientCtx × Int) :=
      match ctx.method with
      | .get => .ok (prepared.getOptions order)
      | .post | .put => if ctx.pfn then prepared.putOptions order env else .ok (prepared, 0)
      | _ => .ok (prepared, 0)
    match ready with
    | .error fault => .error fault
    | .ok (request, rc) => if rc ≠ 0 ∨ sent = false then .ok ({request with fail := true}, -1) else .ok (request, 0)

/-- The callback on a final state or a notification; `saved` is the outcome of writing the payload to a file. The flag
tells whether the event loop is left. -/
def responseCb (order : ByteOrder) (state : EcCliState) (response : Response) (saved : Bool) (ctx : ClientCtx) :
    ClientCtx × Bool :=
  let failing : ClientCtx := {ctx with fail := true}
  if state ≠ .reqDone ∧ state ≠ .waitNfy then (failing, true)
  else if ¬ ecIsOk response.code then (failing, true)
  else if response.payload ≠ [] ∧ saved = false then (failing, true)
  else
    let uploaded : ClientCtx × Bool :=
      match ecResponseGetBlock1 order response.opts with
      | none => (ctx, true)
      | some b =>
          if b.bnum ≠ ctx.b1.blockNo then ({ctx with b1 := {ctx.b1 with blockSz := b.bsz}}, false)
          else ({ctx with b1 := {ctx.b1 with blockNo := ctx.b1.blockNo + 1, blockSz := b.bsz}}, true)
    if uploaded.2 = false then ({uploaded.1 with fail := true}, true)
    else
      let downloaded : ClientCtx × Bool :=
        match ecResponseGetBlock2 order response.opts with
        | none => (uploaded.1, true)
        | some b =>
            let noted : ClientCtx := {uploaded.1 with b2 := {uploaded.1.b2 with more := b.more, blockSz := b.bsz}}
            (noted, decide (¬ (b.more = true ∧ b.bnum ≠ ctx.b2.blockNo)))
      if downloaded.2 = false then ({downloaded.1 with fail := true}, true)
      else if ctx.observe ≠ 0 ∧ ctx.cli.observe.on then
        let left := ctx.observe - 1
        if left = 0 then
          ({downloaded.1 with observe := left, cli := {ctx.cli with observe := {ctx.cli.observe with cancel := true}}},
            true)
        else ({downloaded.1 with observe := left}, false)
      else (downloaded.1, true)

/-- The symbols of the options that a request of any method starts with. -/
def BaseSym (sym : EcOptSym) : Prop := UriSym sym ∨ sym = .publish ∨ sym = .token ∨ sym = .observe

theorem baseOptions_extends (order : ByteOrder) (isAbsolute : List UInt8 → Bool) (env : RunEnv) (ctx : ClientCtx)
    {kept : EcOptSym} (other : ¬ BaseSym kept) :
    EcClient.Extends kept {ctx.cli with req := {ctx.cli.req with opts := ecOptsInit}}
      (ctx.baseOptions order isAbsolute env).1 := by
  unfold BaseSym at other
  push Not at other
  obtain ⟨notUri, notPublish, notToken, notObserve⟩ := other
  unfold ClientCtx.baseOptions
  have addressed := ecClientAddUriOpts_extends {ctx.cli with req := {ctx.cli.req with opts := ecOptsInit}} isAbsolute
    ctx.useProxy ctx.uri env.crumbled notUri
  generalize {ctx.cli with req := {ctx.cli.req with opts := ecOptsInit}} = cleared at addressed ⊢
  dsimp only
  generalize (ecClientAddUriOpts isAbsolute ctx.useProxy ctx.uri env.crumbled cleared).1 = first at addressed ⊢
  have published : first.Extends kept (if ctx.publish = true then
      ecRequestAddPublish order first ctx.allowedMethods.toUInt8 else (first, 0)).1 := by
    split
    · exact ecRequestAddPublish_extends first order _ notPublish.symm
    · exact EcClient.Extends.refl kept first
  generalize (if ctx.publish = true then ecRequestAddPublish order first ctx.allowedMethods.toUInt8
    else (first, 0)) = second at published ⊢
  split
  · exact addressed.trans published
  · have tokened : second.1.Extends kept (if ctx.token = true then
        (ecRequestAddToken second.1 [] env.tok.toList).getD (second.1, -1) else second).1 := by
      split
      · exact ecRequestAddToken_extends second.1 _ _ notToken.symm
      · exact EcClient.Extends.refl kept second.1
    generalize (if ctx.token = true then (ecRequestAddToken second.1 [] env.tok.toList).getD (second.1, -1)
      else second) = third at tokened ⊢
    have sofar := (addressed.trans published).trans tokened
    have observed := sofar.trans (ecRequestAddObserve_extends third.1 order notObserve.symm)
    split
    · exact sofar
    · split
      · split
        · exact observed
        · exact observed
      · exact sofar

/-- What of the context stays the same through the rounds of a transfer. -/
structure ClientCtx.SameConfig (ctx ctx' : ClientCtx) : Prop where
  uri : ctx'.uri = ctx.uri
  method : ctx'.method = ctx.method
  pfn : ctx'.pfn = ctx.pfn
  observe : ctx'.observe = ctx.observe
  token : ctx'.token = ctx.token
  blockSz : ctx'.blockSz = ctx.blockSz
  publish : ctx'.publish = ctx.publish
  allowedMethods : ctx'.allowedMethods = ctx.allowedMethods
  useProxy : ctx'.useProxy = ctx.useProxy

theorem baseOptions_same (order : ByteOrder) (isAbsolute : List UInt8 → Bool) (env : RunEnv) {ctx ctx' : ClientCtx}
    (config : ctx.SameConfig ctx') :
    SameOptions (ctx'.baseOptions order isAbsolute env) (ctx.baseOptions order isAbsolute env) := by
  unfold ClientCtx.baseOptions
  rw [config.uri, config.useProxy, config.publish, config.allowedMethods, config.token, config.observe]
  have cleared : {ctx'.cli with req := {ctx'.cli.req with opts := ecOptsInit}}.req.opts =
      {ctx.cli with req := {ctx.cli.req with opts := ecOptsInit}}.req.opts := rfl
  generalize {ctx'.cli with req := {ctx'.cli.req with opts := ecOptsInit}} = a at cleared ⊢
  generalize {ctx.cli with req := {ctx.cli.req with opts := ecOptsInit}} = b at cleared ⊢
  dsimp only
  have addressed := (ecClientAddUriOpts_same cleared isAbsolute ctx.useProxy ctx.uri env.crumbled).opts
  generalize (ecClientAddUriOpts isAbsolute ctx.useProxy ctx.uri env.crumbled a).1 = first at addressed ⊢
  generalize (ecClientAddUriOpts isAbsolute ctx.useProxy ctx.uri env.crumbled b).1 = first' at addressed ⊢
  have published : SameOptions
      (if ctx.publish = true then ecRequestAddPublish order first ctx.allowedMethods.toUInt8 else (first, 0))
      (if ctx.publish = true then ecRequestAddPublish order first' ctx.allowedMethods.toUInt8 else (first', 0)) := by
    split
    · exact ecRequestAddPublish_same addressed order _
    · exact ⟨addressed, rfl⟩
  generalize (if ctx.publish = true then ecRequestAddPublish order first ctx.allowedMethods.toUInt8
    else (first, 0)) = second at published ⊢
  generalize (if ctx.publish = true then ecRequestAddPublish order first' ctx.allowedMethods.toUInt8
    else (first', 0)) = second' at published ⊢
  rw [published.rc]
  split
  · exact ⟨published.opts, rfl⟩
  · have tokened : SameOptions
        (if ctx.token = true then (ecRequestAddToken second.1 [] env.tok.toList).getD (second.1, -1) else second)
        (if ctx.token = true then (ecRequestAddToken second'.1 [] env.tok.toList).getD (second'.1, -1)
          else second') := by
      split
      · exact ecRequestAddToken_same published.opts _ _
      · exact published
    generalize (if ctx.token = true then (ecRequestAddToken second.1 [] env.tok.toList).getD (second.1, -1)
      else second) = third at tokened ⊢
    generalize (if ctx.token = true then (ecRequestAddToken second'.1 [] env.tok.toList).getD (second'.1, -1)
      else second') = third' at tokened ⊢
    have observed := ecRequestAddObserve_same tokened.opts order
    rw [tokened.rc]
    split
    · exact ⟨tokened.opts, rfl⟩
    · split
      · rw [observed.rc]
        split
        · exact ⟨observed.opts, rfl⟩
        · exact observed
      · exact tokened

end Webthings.Apps
