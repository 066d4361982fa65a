import Webthings.Evcoap.Server
import Webthings.Evcoap.ClientRuns

namespace Webthings.Evcoap
open Webthings.Transition

/-- The base: its server transactions with the list of the pending ones, and what all transactions share. -/
structure EcBase where
  heap : SrvId → Option EcServer
  servers : List SrvId
  nextSrv : SrvId
  dups : EcDups
  observing : List EcObservation
  resources : List (List UInt8)
  fb : Bool
  invoked : Nat
  resent : List Datagram
  clients : List EcClient

/-- The base right after its initialisation. -/
def ecInit : EcBase where
  heap := fun _ => none
  servers := []
  nextSrv := 0
  dups := EcDups.empty
  observing := []
  resources := []
  fb := false
  invoked := 0
  resent := []
  clients := []

/-- A server transaction of the base set to work. -/
def EcBase.work (b : EcBase) (id : SrvId) (srv : EcServer) : EcWork :=
  ⟨id, srv, b.servers, b.dups, b.observing, b.invoked⟩

/-- The base after the work of one server transaction. -/
def EcBase.store (b : EcBase) (w : EcWork) : EcBase :=
  {b with
    heap := fun id => if id = w.self then some w.srv else b.heap id
    servers := w.servers
    dups := w.dups
    observing := w.observing
    invoked := w.invoked}

/-- A datagram at a server socket with what its handling depends on. -/
structure ServerInput where
  raw : List UInt8
  beyond : Nat → UInt8
  sd : Int
  peer : SockAddr
  env : HandlerEnv

/-- A control PDU of the server or its response has the MID in the cached header bits. -/
def EcServer.hasMid (srv : EcServer) (mid : UInt16) : Bool :=
  (srv.octrl.any fun pdu => pdu.hdrBits.mid == mid) || (srv.res.any fun pdu => pdu.hdrBits.mid == mid)

/-- May match any outbound PDU of a server with the same endpoints. -/
def EcBase.lookupMatch (b : EcBase) (mid : UInt16) (sd : Int) (peer : SockAddr) (id : SrvId) : Bool :=
  match b.heap id with
  | none => false
  | some srv => srv.flow.conn.socket == sd && srv.flow.conn.peer == peer && srv.hasMid mid

def ecServersLookup (b : EcBase) (mid : UInt16) (sd : Int) (peer : SockAddr) : Option SrvId :=
  match ecNetSocklen peer with
  | none => none
  | some _ => b.servers.find? (b.lookupMatch mid sd peer)

/-- The common error exit of a handler that has a server: it sends the selected code and ends the transaction. -/
def ecServerFail (platform : Platform) (env : SendEnv) (rc : EcRc) (w : EcWork) : Except EcFault EcWork :=
  ecServerSetState (ecServerReply platform env (if rc = ecRcUnset then ecInternalServerError else rc) w).1 .internalErr

/-- The flow that stands in for the one of a server while a reset is matched against the observers. -/
def ecServerRstConn (platform : Platform) (sd : Int) (peer : SockAddr) : EcConn × Int :=
  let us := ecConnSaveUs platform EcConn.zero sd
  if us.2 ≠ 0 then (us.1, -1) else ecConnSavePeer us.1 peer

/-- What becomes of the pending server that a control message belongs to. -/
def ecServerControlled (platform : Platform) (h : EcHdr) (input : ServerInput) (w : EcWork) :
    Except EcFault (EcWork × EcNetCbrc) :=
  match h.t with
  | .rst => (ecServerSetState w .clientRst).map fun moved => (moved, .success)
  | .ack =>
      if w.srv.state ≠ .waitAck then
        (ecServerFail platform input.env.reply ecBadRequest w).map fun failed => (failed, .error)
      else (ecServerSetState w .respDone).map fun moved => (moved, .success)
  | .con | .non =>
      -- An empty code is no method, so this ends in the error exit whether or not the options decode.
      (ecServerFail platform input.env.reply (ecServerBody input.raw input.beyond).decoded.rc w).map fun failed =>
        (failed, .error)

/-- The pending server of a control message is the one that the lookup finds. -/
def ecServerMatched (platform : Platform) (b : EcBase) (h : EcHdr) (input : ServerInput) :
    Except EcFault (EcBase × EcNetCbrc) :=
  match ecServersLookup b h.mid input.sd input.peer with
  | none => .ok (b, .error)
  | some id =>
      match b.heap id with
      | none => .error .disposed
      | some srv =>
          (ecServerControlled platform h input (b.work id srv)).map fun handled => (b.store handled.1, handled.2)

/-- A reset goes to the observe machinery first. -/
def ecServerControl (platform : Platform) (b : EcBase) (h : EcHdr) (input : ServerInput) :
    Except EcFault (EcBase × EcNetCbrc) :=
  if h.t = .rst then
    let conn := ecServerRstConn platform input.sd input.peer
    if conn.2 ≠ 0 then .ok (b, .error)
    else
      match ecObserveCanceledByRst b.observing conn.1 h.mid with
      | some observing => .ok ({b with observing := observing}, .success)
      | none => ecServerMatched platform b h input
  else ecServerMatched platform b h input

/-- The flow endpoints are saved unless the socket is the one already. -/
def ecServerSaveConn (platform : Platform) (conn : EcConn) (sd : Int) (peer : SockAddr) : EcConn × Int :=
  if conn.socket ≠ sd then
    let us := ecConnSaveUs platform conn sd
    if us.2 ≠ 0 then (us.1, -1) else ecConnSavePeer us.1 peer
  else (conn, 0)

def ecServerSetMsgModel (srv : EcServer) (isCon : Bool) : EcServer :=
  {srv with flow := {srv.flow with conn := ecConnSetConfirmable srv.flow.conn isCon}}

/-- The method, the token and the URL of a request, saved in this order. -/
def ecServerSaveRequest (platform : Platform) (flow : EcFlow) (code : Nat) (opts : EcOpts) : Option (EcFlow × Int) :=
  let method := ecFlowSetMethod flow code
  if method.2 ≠ 0 then some (method.1, -1)
  else
    (ecFlowSaveToken method.1 (requestToken opts)).map fun tokened =>
      ecFlowSaveUrl tokened (platform.composeUrl opts.bundle.list tokened.conn.us)

def ecServerSetReq (srv : EcServer) (req : EcPdu) : EcServer := {srv with req := some req}

def ecServerNewResponse (srv : EcServer) : EcServer := {srv with res := some ecPduNewEmpty}

/-- The invocation of the callback that is registered for the request, or the answer that there is none. -/
def ecServerDispatch (platform : Platform) (resources : List (List UInt8)) (fb : Bool) (env : HandlerEnv)
    (w : EcWork) : Except EcFault (EcWork × EcNetCbrc) :=
  if resources.any (fun path => asciiStrcaseEqual path w.srv.flow.urlstr) ∨ fb = true then
    match ecServerUserfn platform env w with
    | .error fault => .error fault
    | .ok (run, rc) =>
        if rc ≠ 0 then (ecServerFail platform env.reply ecRcUnset run).map fun failed => (failed, .error)
        else .ok (run, .success)
  else
    (ecServerSetState (ecServerReply platform env.reply ecNotFound w).1 .respDone).map fun moved => (moved, .success)

/-- A new server transaction from its creation to the end of the handler. -/
def ecServerProcess (platform : Platform) (resources : List (List UInt8)) (fb : Bool) (h : EcHdr)
    (input : ServerInput) (w : EcWork) : Except EcFault (EcWork × EcNetCbrc) :=
  let saved := ecServerSaveConn platform w.srv.flow.conn input.sd input.peer
  let connected : EcServer := {w.srv with flow := {w.srv.flow with conn := saved.1}}
  if saved.2 ≠ 0 then
    (ecServerFail platform input.env.reply ecRcUnset {w with srv := connected}).map fun failed => (failed, .error)
  else
    let modelled := ecServerSetMsgModel connected (h.t == .con)
    let body := ecServerBody input.raw input.beyond
    if body.decoded.rc ≠ ecRcUnset then
      (ecServerFail platform input.env.reply body.decoded.rc {w with srv := modelled}).map fun failed =>
        (failed, .error)
    else
      match ecServerSaveRequest platform modelled.flow h.code.toNat body.decoded.opts with
      | none => .error .overrun
      | some (flow, rc) =>
          let flowing : EcServer := {modelled with flow := flow}
          if rc ≠ 0 then
            (ecServerFail platform input.env.reply ecRcUnset {w with srv := flowing}).map fun failed =>
              (failed, .error)
          else
            let answering := ecServerNewResponse (ecServerSetReq flowing (body.pdu input.raw h))
            match ecServerSetState {w with srv := answering} .reqOk with
            | .error fault => .error fault
            | .ok accepted =>
                let cancelled : EcWork :=
                  {accepted with observing := ecObserveCanceledByGet accepted.observing accepted.srv.flow}
                ecServerDispatch platform resources fb input.env cancelled

/-- On a brand new request, a server is created and set to work. -/
def ecServerRequest (platform : Platform) (b : EcBase) (h : EcHdr) (input : ServerInput) :
    Except EcFault (EcBase × EcNetCbrc) :=
  let created : EcBase := {b with nextSrv := b.nextSrv + 1}
  (ecServerProcess platform b.resources b.fb h input (b.work b.nextSrv ecServerNew)).map fun handled =>
    (created.store handled.1, handled.2)

/-- What follows when the message is not a duplicate. -/
def ecServerHandleNew (platform : Platform) (b : EcBase) (h : EcHdr) (input : ServerInput) :
    Except EcFault (EcBase × EcNetCbrc) :=
  if h.code = 0 then ecServerControl platform b h input
  else if ecIsMethod h.code.toNat then ecServerRequest platform b h input
  else .ok (b, .error)

def ecServerHandlePdu (platform : Platform) (b : EcBase) (input : ServerInput) :
    Except EcFault (EcBase × EcNetCbrc) :=
  if input.raw = [] ∨ input.sd = -1 then .ok (b, .error)
  else
    match ecPduDecodeHeader platform.order input.raw with
    | none => .ok (b, .error)
    | some h =>
        let check := ecDupsHandleIncomingClimsg platform b.dups h.mid input.sd input.peer input.raw input.env.resend
        let seen : EcBase := {b with dups := check.dups, resent := b.resent ++ check.resent.toList}
        if check.rc = 1 then .ok (seen, .success)
        else if check.rc ≠ 0 then .ok (seen, .error)
        else ecServerHandleNew platform seen h input

/-- What can happen to a base; `registry` is any change of the observers by notifications. -/
inductive BaseEvent where
  | datagram (input : ServerInput)
  | rescheduled (id : SrvId) (env : HandlerEnv)
  | coapTimeout (id : SrvId) (env : SendEnv)
  | wakeup (id : SrvId) (calls : List SrvApi) (env : SendEnv)
  | countdown (key : DupKey)
  | registry (observing : List EcObservation)
  | callbacks (resources : List (List UInt8)) (fb : Bool)
  | request (cli : EcClient) (tout : Option TimeVal) (destination : Bool)
  | client (cid : Nat) (event : ClientEvent)

/-- A timer of a server fires; a server that has been disposed of is memory that is not there. -/
def EcBase.fire (b : EcBase) (id : SrvId) (armed : EcServer → Bool)
    (handler : EcWork → Except EcFault EcWork) (fired : EcServer → EcServer) : Except EcFault EcBase :=
  match b.heap id with
  | none => .ok b
  | some srv =>
      if armed srv = false then .ok b
      else if srv.freed then .error .disposed
      else (handler (b.work id (fired srv))).map b.store

/-- The duplicate map is shared, so others change it by the base's own events only. -/
def EcBase.clientStep (platform : Platform) (b : EcBase) (cid : Nat) (event : ClientEvent) : Except EcFault EcBase :=
  match b.clients[cid]?, event with
  | none, _ => .ok b
  | some _, .shared _ => .ok b
  | some cli, event =>
      (Evcoap.clientStep platform ⟨cli, b.dups⟩ event).map fun w =>
        {b with clients := b.clients.set cid w.cli, dups := w.dups}

/-- The event loop calls back on what is registered with it; the user wakes live servers only. -/
def baseStep (platform : Platform) (b : EcBase) (event : BaseEvent) : Except EcFault EcBase :=
  match event with
  | .datagram input => (ecServerHandlePdu platform b input).map fun handled => handled.1
  | .rescheduled id env =>
      b.fire id (fun srv => srv.resched.pending) (reschedUserfn platform env)
        (fun srv => {srv with resched := srv.resched.fired})
  | .coapTimeout id env =>
      b.fire id (fun srv => srv.coap.pending) (ecSrvCoapTimeout platform env)
        (fun srv => {srv with coap := srv.coap.fired})
  | .wakeup id calls env =>
      match b.heap id with
      | none => .ok b
      | some srv =>
          if srv.freed then .ok b
          else (ecServerWakeup platform env calls (b.work id srv)).map fun woken => b.store woken.1
  | .countdown key => .ok {b with dups := ecDupZap b.dups key}
  | .registry observing => .ok {b with observing := observing}
  | .callbacks resources fb => .ok {b with resources := resources, fb := fb}
  | .request cli tout destination =>
      if cli.Fresh then
        (ecClientGo platform ⟨cli, b.dups⟩ tout destination).map fun started =>
          {b with clients := b.clients ++ [started.1.cli], dups := started.1.dups}
      else .ok b
  | .client cid event => b.clientStep platform cid event

def baseMachine (platform : Platform) : Machine EcBase BaseEvent EcFault := ⟨baseStep platform⟩

/-- The URL of a request without Uri-Host and Uri-Port to the loopback address: a slash before each path segment. -/
def loopbackUrl (opts : List EcOpt) : List UInt8 :=
  "coap://127.0.0.1:5683".toList.map (fun c => UInt8.ofNat c.toNat) ++
    opts.flatMap fun o => if o.sym = .uriPath then 0x2f :: o.value else []

/-- A host with one IPv4 address that serves requests for paths. -/
def serverPlatform : Platform where
  order := .little
  isAbsolute := fun _ => false
  formatSockaddrPort := fun ss => "127.0.0.1:".toList ++ Nat.toDigits 10 ss.port.toNat
  getsockname := fun _ => some loopback
  composeUrl := fun opts _ => some (loopbackUrl opts, false)

/-- The address of a client on the same host. -/
def loopbackPeer : SockAddr := ⟨.inet, [127, 0, 0, 1], 40000⟩

/-- A datagram from that client whose callback runs as given, and whose answers draw the MID `rng`. -/
def loopbackInput (raw : List UInt8) (run : CallbackRun) (rng : UInt16) : ServerInput :=
  ⟨raw, fun _ => 0, 5, loopbackPeer, ⟨run, true, true, ⟨rng, 0, true⟩, ⟨rng, 0, true⟩⟩⟩

/-- The user asks to be called again in five seconds. -/
def waits : CallbackRun := ⟨[], .wait, ⟨5, 0⟩⟩

/-- A confirmable GET of `/a` with MID 7, which the user cannot answer yet. -/
def waitingGet : ServerInput := loopbackInput [0x41, 1, 0, 7, 0x91, 0x61] waits 0

end Webthings.Evcoap
