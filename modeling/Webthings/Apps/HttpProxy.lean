import Webthings.Apps.CoapClient

namespace Webthings.Apps
open Webthings.Evcoap
open Webthings.Transition

/-- The types of requests that evhttp passes on unless it is told otherwise. -/
inductive HttpType where
  | get
  | head
  | post
  | put
  | delete
  deriving DecidableEq, Repr

/-- A request; `host` is none without a Host header. -/
structure HttpRequest where
  type : HttpType
  host : Option (List UInt8)
  uri : List UInt8
  inputHeaders : List (String × String)
  inputBuffer : List UInt8

/-- A reply to the request with a number; the headers are all that were added to it so far. -/
structure HttpReply where
  request : Nat
  code : Nat
  reason : String
  headers : List (String × String)
  body : List UInt8

/-- A CoAP request of the proxy; `cbArgs` is the number of the HTTP request that it was sent for. -/
structure ProxyClient where
  cli : EcClient
  uri : List UInt8
  cbArgs : Option Nat

/-- The global context; `buf` is none for NULL. -/
structure ProxyCtx where
  cli : Option Nat
  curi : List UInt8
  buf : Option (List UInt8)
  bopt : ClientBlock

/-- The proxy, with all that it has been asked, has asked and has replied. -/
structure Proxy where
  ctx : ProxyCtx
  clients : List ProxyClient
  requests : List HttpRequest
  outputHeaders : Nat → List (String × String)
  replies : List HttpReply

def Proxy.init : Proxy := ⟨⟨none, [], none, ⟨0, false, 0⟩⟩, [], [], fun _ => [], []⟩

/-- What the proxy takes from libu and from the build: `mapUri` is the substitution of scheme and host. -/
structure ProxyLib where
  order : ByteOrder
  isAbsolute : List UInt8 → Bool
  uriCrumble : List UInt8 → Option UUri
  mapUri : List UInt8 → Option (List UInt8)
  b64Encode : List UInt8 → Option String

/-- A freed client is used, the buffer is NULL, or the payload array is overrun. -/
inductive ProxyFault where
  | freedClient
  | nullBuffer
  | overrun
  deriving DecidableEq, Repr

/-- What comes of `ec_request_send`: the answer is awaited, the client is refused at once, or it comes to a final state,
callback included, before the call returns. -/
inductive SendOutcome where
  | pending
  | refused
  | aborted (state : EcCliState)

/-- The allocations of `ec_request_new` and the outcome of sending the request. -/
structure RequestEnv where
  made : Bool
  outcome : SendOutcome

def ecMtApplicationXml : EcMt := 41
def ecMtApplicationOctetStream : EcMt := 42
def ecMtApplicationExi : EcMt := 47
def ecMtApplicationJson : EcMt := 50

def ecMtFromString (s : String) : Option EcMt :=
  if s.toLower = "text/plain" then some ecMtTextPlain
  else if s.toLower = "application/link-format" then some ecMtLinkFormat
  else if s.toLower = "application/xml" then some ecMtApplicationXml
  else if s.toLower = "application/octet-stream" then some ecMtApplicationOctetStream
  else if s.toLower = "application/exi" then some ecMtApplicationExi
  else if s.toLower = "application/json" then some ecMtApplicationJson
  else none

/-- The bytes up to the first NUL, which is what `%s` prints. -/
def cString (bytes : List UInt8) : List UInt8 := bytes.takeWhile (· ≠ 0)

/-- The data of the buffer moves into the reply, unless the caller passes NULL. -/
def Proxy.sendReply (w : Proxy) (req code : Nat) (reason : String) (databuf : Bool) : Proxy :=
  let body := if databuf then w.ctx.buf.getD [] else []
  {w with
    ctx := {w.ctx with buf := if databuf then w.ctx.buf.map fun _ => [] else w.ctx.buf}
    replies := w.replies ++ [⟨req, code, reason, w.outputHeaders req, body⟩]}

/-- The error path of the callback. -/
def Proxy.sendError (w : Proxy) (req : Nat) : Proxy := w.sendReply req 500 "wtf!" false

def Proxy.addHeaders (w : Proxy) (req : Nat) (headers : List (String × String)) : Proxy :=
  {w with outputHeaders := Function.update w.outputHeaders req (w.outputHeaders req ++ headers)}

def Proxy.modifyClient (w : Proxy) (id : Nat) (change : ProxyClient → ProxyClient) : Proxy :=
  {w with clients := w.clients.modify id change}

/-- The client is deallocated. -/
def ProxyClient.free (client : ProxyClient) : ProxyClient := {client with cli := {client.cli with freed := true}}

def contentTypeText (tmp : Nat) : String :=
  match tmp % 2 ^ 32 with
  | 0 => "text/plain; charset=UTF-8"
  | 40 => "application/link-format"
  | 41 => "application/xml"
  | 42 => "application/octet-stream"
  | 47 => "application/exi"
  | 50 => "application/json"
  | _ => "application/xml"

section Lib

variable (lib : ProxyLib)

/-- The loop over the ETag options ends at a NULL value. -/
def etagHeaders : List EcOpt → List (String × String)
  | [] => []
  | o :: rest =>
      match o.v with
      | none => []
      | some et =>
          if o.l = 0 then etagHeaders rest
          else
            match lib.b64Encode et with
            | none => etagHeaders rest
            | some s => ("ETag", s) :: etagHeaders rest

/-- The headers that an option is turned into; Max-Age falls through to the ETags. -/
def optionHeaders (opts : EcOpts) (sym : EcOptSym) (tmp : Nat) : List (String × String) :=
  match sym with
  | .proxyUri | .contentType => [("Content-Type", contentTypeText tmp)]
  | .maxAge | .etag => etagHeaders lib (opts.bundle.list.filter fun o => o.sym = .etag)
  | _ => []

/-- The loop over the options ends at the first one that is no integer. -/
def httpHeaders (opts : EcOpts) : List EcOpt → List (String × String)
  | [] => []
  | o :: rest =>
      match ecOptsGetUint lib.order opts o.sym with
      | none => []
      | some tmp => optionHeaders lib opts o.sym tmp ++ httpHeaders opts rest

/-- The headers for the HTTP client are taken from the response to the last CoAP request that was made. -/
def processSetHttpHeaders (w : Proxy) (req : Nat) : Except ProxyFault Proxy :=
  match w.ctx.cli.bind fun id => w.clients[id]? with
  | none => .ok w
  | some client =>
      if client.cli.freed then .error .freedClient
      else
        match ecClientGetResponsePdu client.cli with
        | none => .ok w
        | some res => .ok (w.addHeaders req (httpHeaders lib res.opts res.opts.bundle.list))

/-- The headers that are passed on to the CoAP server; the first one that cannot be ends the loop. -/
def processSetCoapHeaders (type : HttpType) : List (String × String) → EcClient → EcClient × Int
  | [], cli => (cli, 0)
  | (key, value) :: rest, cli =>
      if key = "Content-Type" then
        match ecMtFromString value with
        | none => (cli, -1)
        | some pmt =>
            let added := ecRequestAddContentType lib.order cli pmt.toUInt16
            if added.2 ≠ 0 then (added.1, -1) else processSetCoapHeaders type rest added.1
      else if key = "Accept" ∧ type ≠ .put ∧ type ≠ .post then
        match ecMtFromString value with
        | none => (cli, -1)
        | some pmt =>
            let added := ecRequestAddAccept lib.order cli pmt.toUInt16
            if added.2 ≠ 0 then (added.1, -1) else processSetCoapHeaders type rest added.1
      else processSetCoapHeaders type rest cli

/-- A confirmable request without options that the engine disposes of. -/
def proxyRequest (m : EcMethod) : EcClient where
  userown := false
  state := .none
  observe := EcCliObs.zero
  flow := {EcFlow.zero with method := m, conn := {EcConn.zero with isConfirmable := some true}}
  req := ecPduNewEmpty
  resSet := []
  dnsReq := false
  registered := false
  app := EcTimer.zero
  coap := EcTimer.zero
  obs := EcTimer.zero
  freed := false
  sent := []
  entered := []

def ecRequestNew (m : EcMethod) (uri : List UInt8) (made : Bool) : Option EcClient :=
  let addressed := ecClientAddUriOpts lib.isAbsolute false uri (lib.uriCrumble uri) (proxyRequest m)
  if made = false ∨ addressed.2 ≠ 0 then none else some addressed.1

/-- A client that is sent for an HTTP request; a failure that comes at once runs the callback first. -/
def ecRequestSend (w : Proxy) (id req : Nat) : SendOutcome → Except ProxyFault (Proxy × Int)
  | .pending => .ok (w.modifyClient id fun client => {client with cbArgs := some req}, 0)
  | .refused => .ok (w.modifyClient id ProxyClient.free, -1)
  | .aborted state =>
      let called := w.modifyClient id fun client =>
        {client with cbArgs := some req, cli := {client.cli with state := state}}
      match processSetHttpHeaders lib called req with
      | .error fault => .error fault
      | .ok headed => .ok ((headed.sendError req).modifyClient id ProxyClient.free, 0)

/-- The bytes of `http://` and of `(null)`. -/
def httpOrigin : List UInt8 := [104, 116, 116, 112, 58, 47, 47]
def nullText : List UInt8 := [40, 110, 117, 108, 108, 41]

/-- The requested URI, cut to the size of its array. -/
def HttpRequest.huri (request : HttpRequest) : List UInt8 :=
  (httpOrigin ++ request.host.getD nullText ++ request.uri).take 1023

def HttpType.method : HttpType → EcMethod
  | .get | .head => .get
  | .post => .post
  | .put => .put
  | .delete => .delete

/-- The request for the CoAP server with the headers and the body of the HTTP request. -/
def HttpRequest.coap (request : HttpRequest) (cli : EcClient) : EcClient :=
  match request.type with
  | .get | .head => (processSetCoapHeaders lib request.type request.inputHeaders cli).1
  | .put | .post =>
      let headed := (processSetCoapHeaders lib request.type request.inputHeaders cli).1
      (ecRequestSetPayload ecCfgInit headed request.inputBuffer).1
  | .delete => cli

/-- The context is reset for every request; `buffered` is the allocation of its buffer. -/
def Proxy.accept (w : Proxy) (request : HttpRequest) (buffered : Bool) : Proxy :=
  {w with
    ctx := {w.ctx with curi := [], buf := if buffered then some [] else none, bopt := ⟨0, false, 0⟩}
    requests := w.requests ++ [request]}

/-- A new client becomes the one of the context. -/
def Proxy.addClient (w : Proxy) (cli : EcClient) (uri : List UInt8) : Proxy :=
  {w with ctx := {w.ctx with cli := some w.clients.length}, clients := w.clients ++ [⟨cli, uri, none⟩]}

def processHttpRequest (w : Proxy) (request : HttpRequest) (buffered : Bool) (env : RequestEnv) :
    Except ProxyFault Proxy :=
  let accepted := w.accept request buffered
  if buffered = false then .ok accepted
  else
    match lib.mapUri request.huri with
    | none => .ok accepted
    | some curi =>
        let mapped : Proxy := {accepted with ctx := {accepted.ctx with curi := curi}}
        match ecRequestNew lib request.type.method curi env.made with
        | none => .ok {mapped with ctx := {mapped.ctx with cli := none}}
        | some cli =>
            (ecRequestSend lib (mapped.addClient (request.coap lib cli) curi) w.clients.length w.requests.length
              env.outcome).map Prod.fst

/-- The replies that a response code gets at once. -/
def replyAtOnce (rc : EcRc) : Option (Nat × String) :=
  if rc = ecChanged ∨ rc = ecDeleted then some (204, "No Content")
  else if rc = ecNotFound then some (404, "Not Found")
  else if rc = ecMethodNotAllowed then some (405, "Method Not Allowed")
  else if rc = ecNotImplemented then some (501, "Not Implemented")
  else none

/-- The request for the block behind the last one. -/
def requestNext (w : Proxy) (req : Nat) (env : RequestEnv) : Except ProxyFault Proxy :=
  match ecRequestNew lib .get w.ctx.curi env.made with
  | none => .ok (({w with ctx := {w.ctx with cli := none}} : Proxy).sendError req)
  | some cli =>
      let number := w.ctx.bopt.blockNo + 1
      let added := ecRequestAddBlock2 lib.order cli number false w.ctx.bopt.blockSz
      let counted : Proxy := {w with ctx := {w.ctx with bopt := {w.ctx.bopt with blockNo := number}}}
      let next := counted.addClient added.1 w.ctx.curi
      if added.2 ≠ 0 then .ok (next.sendError req)
      else
        match ecRequestSend lib next w.clients.length req env.outcome with
        | .error fault => .error fault
        | .ok (sent, rc) => if rc ≠ 0 then .ok (sent.sendError req) else .ok sent

def ecClientGetBlock2 (cli : EcClient) : Option BlockInfo :=
  (ecClientGetResponsePdu cli).bind fun res => ecResponseGetBlock2 lib.order res.opts

/-- The text of a response: none when a 2.05 has none, and only that code has any; the array has 1024 bytes, and the
terminator comes behind the payload. -/
def payloadText (cli : EcClient) : Except ProxyFault (Option (List UInt8)) :=
  let pl := ((ecClientGetResponsePdu cli).map EcPdu.payload).getD []
  if cli.flow.respCode ≠ ecContent then .ok (some [])
  else if pl = [] then .ok none
  else if pl.length ≥ 1024 then .error .overrun
  else .ok (some (cString pl))

/-- The headers that every reply with content has. -/
def contentHeaders : List (String × String) := [("Access-Control-Allow-Origin", "*"), ("Cache-Control", "no-cache")]

/-- A Block2 option of a response sets the block state of the context, but for the number. -/
def Proxy.noteBlock (w : Proxy) : Option BlockInfo → Proxy
  | none => w
  | some b => {w with ctx := {w.ctx with bopt := {w.ctx.bopt with more := b.more, blockSz := b.bsz}}}

def Proxy.setBuffer (w : Proxy) (data : List UInt8) : Proxy := {w with ctx := {w.ctx with buf := some data}}

/-- The block of a response is appended, and the reply is sent or the next block is asked for. -/
def processBlock (w : Proxy) (cli : EcClient) (req : Nat) (env : RequestEnv) : Except ProxyFault Proxy :=
  let b2 := ecClientGetBlock2 lib cli
  let noted := w.noteBlock b2
  if b2.any fun b => b.bnum ≠ w.ctx.bopt.blockNo then .ok (noted.sendError req)
  else
    match payloadText cli with
    | .error fault => .error fault
    | .ok none => .ok (noted.sendError req)
    | .ok (some text) =>
        match noted.ctx.buf with
        | none => .error .nullBuffer
        | some buf =>
            let filled := (noted.addHeaders req contentHeaders).setBuffer (buf ++ text)
            if filled.ctx.bopt.more = false then .ok (filled.sendReply req 200 "OK" true)
            else requestNext lib filled req env

/-- The callback for the client `cli`, which was sent for the HTTP request `req`. -/
def processCoapResponse (w : Proxy) (cli : EcClient) (req : Nat) (env : RequestEnv) : Except ProxyFault Proxy :=
  match processSetHttpHeaders lib w req with
  | .error fault => .error fault
  | .ok headed =>
      let rc := cli.flow.respCode
      if cli.state ≠ .reqDone ∨ rc = ecRcUnset then .ok (headed.sendError req)
      else
        match replyAtOnce rc with
        | some (code, reason) => .ok (headed.sendReply req code reason true)
        | none => processBlock lib (if rc = ecCreated then headed.sendReply req 201 "Created" true else headed) cli req env

/-- What the engine leaves in a client ahead of the callback. -/
structure Heard where
  state : EcCliState
  respCode : EcRc
  resSet : List EcPdu

def Heard.store (heard : Heard) (cli : EcClient) : EcClient :=
  {cli with state := heard.state, flow := {cli.flow with respCode := heard.respCode}, resSet := heard.resSet}

/-- The client that the callback is run for, and the HTTP request it was sent for. The callback comes with a final state,
for no request of the proxy asks for notifications. -/
def Proxy.caller (w : Proxy) (id : Nat) (heard : Heard) : Option (ProxyClient × Nat) :=
  match w.clients[id]? with
  | none => none
  | some client =>
      match client.cbArgs with
      | none => none
      | some req =>
          if client.cli.freed = false ∧ ecClientStateIsFinal heard.state = true then some (client, req) else none

/-- The events of the proxy: an HTTP request comes in, or a client has come to its end. -/
inductive ProxyEvent where
  | http (request : HttpRequest) (buffered : Bool) (env : RequestEnv)
  | coap (id : Nat) (heard : Heard) (env : RequestEnv)

/-- The callback of a client, which the engine frees behind it. -/
def coapEvent (w : Proxy) (id : Nat) (heard : Heard) (client : ProxyClient) (req : Nat) (env : RequestEnv) :
    Except ProxyFault Proxy :=
  let called := {client with cli := heard.store client.cli}
  (processCoapResponse lib {w with clients := w.clients.set id called} called.cli req env).map fun next =>
    next.modifyClient id ProxyClient.free

def proxyStep (w : Proxy) : ProxyEvent → Except ProxyFault Proxy
  | .http request buffered env => processHttpRequest lib w request buffered env
  | .coap id heard env =>
      match w.caller id heard with
      | none => .ok w
      | some (client, req) => coapEvent lib w id heard client req env

end Lib

end Webthings.Apps
