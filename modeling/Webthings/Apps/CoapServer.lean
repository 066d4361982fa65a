import Webthings.Evcoap.Resource
import Webthings.Transition.Machine

namespace Webthings.Apps
open Webthings.Evcoap

/-- What the callback of the test server reads of the transaction it serves. -/
structure Request where
  peer : SockAddr
  method : EcMethod
  uri : List UInt8
  urlstr : List UInt8
  path : List UInt8
  isProxy : Bool
  opts : EcOpts
  payload : List UInt8

/-- The response that the callback prepares; its payload is empty for NULL. -/
structure Response where
  code : EcRc
  opts : EcOpts
  payload : List UInt8

def Response.new : Response := ⟨ecRcUnset, ecOptsInit, []⟩

def Response.setCode (response : Response) (rc : EcRc) : Response := {response with code := rc}

/-- The response with what an adder makes of its options. -/
def Response.adding (response : Response) (add : EcOpts → EcOpts × Int) : Response × Int :=
  let added := add response.opts
  ({response with opts := added.1}, added.2)

def ecCreated : EcRc := 65
def ecChanged : EcRc := 68
def ecMethodNotAllowed : EcRc := 133
def ecPreconditionFailed : EcRc := 140
def ecRequestEntityTooLarge : EcRc := 141
def ecNotImplemented : EcRc := 161
def ecProxyingNotSupported : EcRc := 165

/-- The block state that the requests of all clients share. -/
structure BlockOpt where
  bnum : UInt32
  more : Bool
  bsz : Nat
  deriving DecidableEq, Repr

def BlockOpt.zero : BlockOpt := ⟨0, false, 0⟩

/-- The global context of the test server; `resources` are the URLs that callbacks are registered for. -/
structure ServerCtx where
  resources : List (List UInt8)
  fs : EcFilesys
  bsz : Nat
  sep : TimeVal
  b1 : BlockOpt
  resbuf : Option (List UInt8)
  resnum : Nat

/-- One call of the callback: the request, the random ETag, the Observe value that goes with a new observer, and the
listing that `ec_filesys_well_known_core` makes. -/
structure ServerCall where
  request : Request
  resched : Bool
  etag : EcEtag
  observer : Option UInt16
  wkc : Option (List UInt8)

/-- What a handler leaves; `stored` is the representation that it has added, which the code does not keep. -/
structure Served where
  ctx : ServerCtx
  response : Response
  rc : Int
  stored : Option EcRep

/-- The 16-bit value goes into the first bytes of the wider media type. -/
def ecRequestGetContentType (order : ByteOrder) (opts : EcOpts) : Option EcMt :=
  (ecOptsGetContentType order opts).map fun ct =>
    match order with
    | .little => ct.toUInt32
    | .big => ct.toUInt32 <<< 16

/-- The Accept values up to the capacity of the array, none when one of them cannot be decoded. -/
def ecOptsGetAcceptAll (order : ByteOrder) (opts : EcOpts) (mtaSz : Nat) : Option (List EcMt) :=
  ((opts.bundle.list.filter fun o => o.sym = .accept).take mtaSz).mapM fun o =>
    (ecOptDecodeUint order o.value o.l).map Nat.toUInt32

/-- The block size of the server, which the user may have set. -/
def ServerCtx.blockSize (ctx : ServerCtx) : Nat := if ctx.bsz = 0 then ecCoapBlockMax else ctx.bsz

/-- A nonzero size of the other side bounds the own one. -/
def boundedSize (bsz other : Nat) : Nat := if other = 0 then bsz else min bsz other

/-- The stateless Block2 handling; a block behind the end of the data has no result. -/
def setPayload (order : ByteOrder) (ctx : ServerCtx) (request : Request) (data : List UInt8) (response : Response) :
    Option Response :=
  let b2 := ecRequestGetBlock2 order request.opts
  let bsz := boundedSize ctx.blockSize ((b2.map BlockInfo.bsz).getD 0)
  let bnum := (b2.map BlockInfo.bnum).getD 0
  let set := fun (response : Response) (p : List UInt8) => if p = [] then response else {response with payload := p}
  if data.length ≤ bsz then some (set response data)
  else if data.length < bnum.toNat * bsz then none
  else
    let more := decide (bnum.toNat < data.length / bsz)
    let pSz := if more then bsz else data.length - bnum.toNat * bsz
    let added := response.adding fun opts => addBlock order opts .block2 bnum more bsz
    if added.2 ≠ 0 then some added.1
    else some (set added.1 ((data.drop (bnum.toNat * bsz)).take pSz))

def serveGet (order : ByteOrder) (ctx : ServerCtx) (call : ServerCall) (res : EcRes) (rep : EcRep)
    (response : Response) : Option Response :=
  (setPayload order ctx call.request rep.data response).map fun filled =>
    let tagged := ((filled.setCode ecContent).adding fun opts => ecOptsAddEtag opts rep.etag.toList).1
    let typed := (tagged.adding fun opts => ecOptsAddContentType order opts rep.mediaType.toUInt16).1
    let aged :=
      if res.maxAge ≠ UInt32.ofNat ecCoapDefaultMaxAge then
        (typed.adding fun opts => ecOptsAddMaxAge order opts res.maxAge).1
      else typed
    match ecOptsGetObserve order call.request.opts, call.observer with
    | some _, some oCnt => (aged.adding fun opts => ecOptsAddObserve order opts oCnt).1
    | _, _ => aged

def ecUnregisterCb (resources : List (List UInt8)) (url : List UInt8) : List (List UInt8) :=
  resources.eraseP fun path => asciiStrcaseEqual path url

def ecRegisterCb (resources : List (List UInt8)) (url : List UInt8) : List (List UInt8) × Int :=
  if resources.any (fun path => asciiStrcaseEqual path url) then (resources, -1) else (resources ++ [url], 0)

def serveDelete (ctx : ServerCtx) (uri : List UInt8) (response : Response) : ServerCtx × Response :=
  let deleted := ecFilesysDelResource ctx.fs uri
  if deleted.2 = 0 then
    ({ctx with fs := deleted.1, resources := ecUnregisterCb ctx.resources uri}, response.setCode ecDeleted)
  else (ctx, response.setCode ecNotFound)

/-- No transfer is open any more. -/
def ServerCtx.reset (ctx : ServerCtx) : ServerCtx := {ctx with resbuf := none, b1 := BlockOpt.zero}

/-- The payload is appended to the buffer, which the first block creates. -/
def ServerCtx.append (ctx : ServerCtx) (payload : List UInt8) : ServerCtx :=
  {ctx with resbuf := some (ctx.resbuf.getD [] ++ payload)}

/-- The expected block number is counted on. -/
def ServerCtx.counted (ctx : ServerCtx) : ServerCtx := {ctx with b1 := {ctx.b1 with bnum := ctx.b1.bnum + 1}}

/-- What the common first part of PUT and POST leaves; `more` is none when it has failed. -/
structure Receipt where
  ctx : ServerCtx
  response : Response
  more : Option Bool

/-- The Block1 handling of `serve_put` and of `serve_post`; the number is counted on even when it is not the expected one. -/
def receiveBlock (order : ByteOrder) (ctx : ServerCtx) (request : Request) (response : Response) : Receipt :=
  match ecRequestGetBlock1 order request.opts with
  | none => ⟨ctx.append request.payload, response, some false⟩
  | some b1 =>
      if b1.bnum ≠ ctx.b1.bnum then ⟨ctx.counted, response, none⟩
      else
        let bsz := boundedSize ctx.blockSize b1.bsz
        let added := response.adding fun opts => addBlock order opts .block1 b1.bnum b1.more bsz
        if added.2 ≠ 0 then ⟨ctx.counted, added.1, none⟩
        else ⟨ctx.counted.append request.payload, added.1, some b1.more⟩

/-- The error path of both handlers. -/
def failed (ctx : ServerCtx) (response : Response) : Served :=
  ⟨ctx.reset, response.setCode ecInternalServerError, -1, none⟩

/-- The media type of a request, text/plain when there is none. -/
def Request.mediaType (order : ByteOrder) (request : Request) : EcMt :=
  (ecRequestGetContentType order request.opts).getD ecMtTextPlain

/-- The update of a resource; the new representation replaces the one that was found if the media types match. -/
def servePut (order : ByteOrder) (ctx : ServerCtx) (call : ServerCall) (rep : RepRef) (response : Response) : Served :=
  let res := ecRepGetRes ctx.fs rep
  if res.isSome ∧ ecOptsGetIfNoneMatch call.request.opts then
    ⟨ctx, response.setCode ecPreconditionFailed, 0, none⟩
  else if call.request.payload.length > ctx.blockSize then
    ⟨ctx, response.setCode ecRequestEntityTooLarge, 0, none⟩
  else
    let mt := call.request.mediaType order
    let receipt := receiveBlock order ctx call.request response
    match receipt.more, res with
    | none, _ => failed receipt.ctx receipt.response
    | some true, _ => ⟨receipt.ctx, receipt.response.setCode ecChanged, 0, none⟩
    | some false, none => failed receipt.ctx receipt.response
    | some false, some res =>
        let data := receipt.ctx.resbuf.getD []
        let grown := ecResourceAddRep res data mt call.etag
        let updated := if res.mediaTypeAt rep.index = some mt then ecRepDel grown rep.index else grown
        let tagged := (receipt.response.adding fun opts => ecOptsAddEtag opts call.etag.toList).1
        ⟨{receipt.ctx with fs := receipt.ctx.fs.modified rep.uri updated}.reset, tagged.setCode ecChanged, 0,
          some (ecRepNew data mt call.etag)⟩

/-- The decimal digits that `%u` makes of a `size_t`. -/
def decimal (n : Nat) : List UInt8 := (Nat.toDigits 10 (n % 2 ^ 32)).map fun c => c.toNat.toUInt8

/-- The URI of the resource that a POST creates. -/
def createdUri (uri : List UInt8) (resnum : Nat) : List UInt8 := uri ++ 47 :: decimal resnum

/-- The nonempty pieces between slashes that `u_strtok` finds. -/
def slashTokens (uri : List UInt8) : List (List UInt8) := (uri.splitOn 47).filter (· ≠ [])

/-- The segments are added until one of them fails. -/
def addLocationPath : List (List UInt8) → Response → Response × Int
  | [], response => (response, 0)
  | segment :: segments, response =>
      let added := response.adding fun opts => ecOptsAddLocationPath opts segment
      if added.2 ≠ 0 then (added.1, -1) else addLocationPath segments added.1

/-- The creation of a resource under the URI of the request; a failure keeps what was done before it. -/
def createResource (order : ByteOrder) (ctx : ServerCtx) (call : ServerCall) (response : Response) : Served :=
  let ruri := createdUri call.request.uri ctx.resnum
  match ecResourceNew ruri ecMethodMaskAll (UInt32.ofNat ecCoapDefaultMaxAge) with
  | none => failed ctx response
  | some res =>
      let data := ctx.resbuf.getD []
      let mt := call.request.mediaType order
      let put := ecFilesysPutResource ctx.fs (ecResourceAddRep res data mt call.etag)
      if put.2 ≠ 0 then failed ctx response
      else
        let attached := {ctx with fs := put.1}
        let registered := ecRegisterCb ctx.resources ruri
        if registered.2 ≠ 0 then failed attached response
        else
          let served := {attached with resources := registered.1}
          let tokens := slashTokens ruri
          if tokens.length < 3 then failed served response
          else
            let located := addLocationPath (tokens.drop 2) response
            if located.2 ≠ 0 then failed served located.1
            else
              ⟨{served.reset with resnum := ctx.resnum + 1}, located.1.setCode ecCreated, 0,
                some (ecRepNew data mt call.etag)⟩

def servePost (order : ByteOrder) (ctx : ServerCtx) (call : ServerCall) (response : Response) : Served :=
  if call.request.payload.length > ctx.blockSize then
    ⟨ctx, response.setCode ecRequestEntityTooLarge, 0, none⟩
  else
    let receipt := receiveBlock order ctx call.request response
    match receipt.more with
    | none => failed receipt.ctx receipt.response
    | some true => ⟨receipt.ctx, receipt.response.setCode ecCreated, 0, none⟩
    | some false => createResource order receipt.ctx call receipt.response

def serveWkc (order : ByteOrder) (ctx : ServerCtx) (call : ServerCall) (response : Response) : Option Response :=
  if call.request.method ≠ .get then some (response.setCode ecMethodNotAllowed)
  else
    match call.wkc with
    | none => some response
    | some wkc => (setPayload order ctx call.request wkc response).map fun filled =>
        ((filled.setCode ecContent).adding fun opts => ecOptsAddContentType order opts ecMtLinkFormat.toUInt16).1

/-- The bytes of `/.well-known/core`. -/
def wellKnownCore : List UInt8 :=
  [47, 46, 119, 101, 108, 108, 45, 107, 110, 111, 119, 110, 47, 99, 111, 114, 101]

/-- What the callback leaves and returns to the server; a read behind the end of the data is a fault. -/
structure CallbackResult where
  served : Served
  cbrc : EcCbrc

/-- A result without any effect on the context. -/
def answered (ctx : ServerCtx) (response : Response) : CallbackResult := ⟨⟨ctx, response, 0, none⟩, .ready⟩

/-- The handler of the method, for a representation that was found. -/
def serveMethod (order : ByteOrder) (ctx : ServerCtx) (call : ServerCall) (rep : RepRef) (res : EcRes) :
    Except EcFault CallbackResult :=
  match call.request.method with
  | .get =>
      match res.reps[rep.index]? with
      | none => .error .overrun
      | some found =>
          match serveGet order ctx call res found Response.new with
          | none => .error .overrun
          | some response => .ok (answered ctx response)
  | .delete =>
      let deleted := serveDelete ctx call.request.uri Response.new
      .ok (answered deleted.1 deleted.2)
  | .put => .ok ⟨servePut order ctx call rep Response.new, .ready⟩
  | .post => .ok ⟨servePost order ctx call Response.new, .ready⟩
  | .unset => .ok (answered ctx (Response.new.setCode ecNotImplemented))

/-- The callback of all resources of the test server. -/
def serve (order : ByteOrder) (ctx : ServerCtx) (call : ServerCall) : Except EcFault CallbackResult :=
  let request := call.request
  if request.isProxy then .ok (answered ctx (Response.new.setCode ecProxyingNotSupported))
  else if call.resched = false ∧ ctx.sep.sec ≠ 0 then .ok ⟨⟨ctx, Response.new, 0, none⟩, .wait⟩
  else if asciiStrcaseEqual request.path wellKnownCore then
    match serveWkc order ctx call Response.new with
    | none => .error .overrun
    | some response => .ok (answered ctx response)
  else
    match ecOptsGetAcceptAll order request.opts 16 with
    | none => .ok ⟨⟨ctx, Response.new, 0, none⟩, .error⟩
    | some mta =>
        match ecFilesysGetSuitableRep ctx.fs request.urlstr mta none with
        | none => .ok (answered ctx (Response.new.setCode ecNotFound))
        | some rep =>
            match ecRepGetRes ctx.fs rep with
            | none => .ok ⟨⟨ctx, Response.new, 0, none⟩, .error⟩
            | some res =>
                if ecResourceCheckMethod res request.method ≠ 0 then
                  .ok (answered ctx (Response.new.setCode ecMethodNotAllowed))
                else serveMethod order ctx call rep res

end Webthings.Apps
