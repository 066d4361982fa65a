import Webthings.Evcoap.Observe

namespace Webthings.Evcoap

/-- A server transaction; `parent` tells whether the list of its base holds it, `freed` marks a disposed one. -/
structure EcServer where
  state : EcSrvState
  flow : EcFlow
  req : Option EcPdu
  res : Option EcPdu
  octrl : Option EcPdu
  parent : Bool
  coap : EcTimer
  resched : EcTimer
  freed : Bool
  sent : List Sent

def ecServerNew : EcServer where
  state := .none
  flow := EcFlow.zero
  req := none
  res := none
  octrl := none
  parent := false
  coap := EcTimer.zero
  resched := EcTimer.zero
  freed := false
  sent := []

/-- The addresses of server transactions, which are never used twice here. -/
abbrev SrvId := Nat

/-- A server transaction at work, with what it shares with its base. -/
structure EcWork where
  self : SrvId
  srv : EcServer
  servers : List SrvId
  dups : EcDups
  observing : List EcObservation
  invoked : Nat

/-- The server's own log of what it has sent. -/
def EcServer.log (srv : EcServer) (purpose : Purpose) (datagram : Option Datagram) : EcServer :=
  {srv with sent := srv.sent ++ datagram.toList.map (Sent.mk purpose)}

def ecServerStateIsFinal (state : EcSrvState) : Bool :=
  match state with
  | .internalErr | .dupReq | .badReq | .respAckTimeout | .respDone | .clientRst => true
  | .none | .reqOk | .ackSent | .waitAck | .coapRetry => false

/-- The transition table; a request that it does not hold is rejected. -/
def ecServerCheckTransition (cur next : EcSrvState) : Bool :=
  match next with
  | .internalErr => true
  | .dupReq | .badReq | .reqOk => cur == .none
  | .ackSent => cur == .reqOk || cur == .waitAck
  | .waitAck => cur == .ackSent || cur == .coapRetry
  | .respAckTimeout => cur == .waitAck
  | .respDone => cur == .reqOk || cur == .waitAck || cur == .ackSent
  | .coapRetry => cur == .waitAck
  | .clientRst => true
  | .none => false

def ecSrvStartCoapTimer (srv : EcServer) : EcServer × Int :=
  let started := coapTimerStart srv.coap
  ({srv with coap := started.1}, started.2)

def ecSrvRestartCoapTimer (srv : EcServer) : Option EcServer :=
  (coapTimerRestart srv.coap).map fun coap => {srv with coap := coap}

def ecSrvStopCoapTimer (srv : EcServer) : EcServer := {srv with coap := ecTimerRemove srv.coap}

/-- The end of a server leaves the list, whatever is still armed for it. -/
def ecServerFree (w : EcWork) : EcWork :=
  {w with
    srv := {w.srv with res := none, req := none, octrl := none, parent := false, freed := true}
    servers := if w.srv.parent then w.servers.erase w.self else w.servers}

/-- What `ec_server_set_state` does between the check and the assignment of the new state. -/
def ecServerEnter (srv : EcServer) (next : EcSrvState) : Option EcServer :=
  if next = .waitAck then
    if srv.state = .ackSent then some (ecSrvStartCoapTimer {srv with flow := {srv.flow with isSep := true}}).1
    else if srv.state = .coapRetry then ecSrvRestartCoapTimer srv
    else some srv
  else some srv

def ecServerSetState (w : EcWork) (next : EcSrvState) : Except EcFault EcWork :=
  if ecServerCheckTransition w.srv.state next = false then .error (.serverRejected w.srv.state next)
  else
    match ecServerEnter w.srv next with
    | none => .error .nullEvent
    | some entered =>
        let moved : EcWork := {w with srv := {entered with state := next}}
        if ecServerStateIsFinal next then .ok (ecServerFree {moved with srv := ecSrvStopCoapTimer moved.srv})
        else .ok moved

/-- The response as it is when its encoding is attempted; there is none when the pairing has failed. -/
def ecServerPairResp (srv : EcServer) (res : EcPdu) : EcPdu × Int :=
  if srv.state ≠ .ackSent then ecPduSetSibling res (srv.req.map fun req => req.hdrBits.mid) else (res, 0)

/-- A confirmable request that is still unacknowledged gets a piggybacked response. -/
def ecServerEncodeResp (order : ByteOrder) (env : SendEnv) (srv : EcServer) (isCon : Bool) (res : EcPdu) :
    EcPdu × Int :=
  if isCon = true ∧ srv.flow.isSep = false ∧ srv.state ≠ .ackSent then
    ecPduEncodeResponsePiggyback order srv.flow res
  else ecPduEncodeResponseSeparate order env srv.flow res

/-- The result is the C return code; the purpose only goes into the log. -/
def ecServerSendResp (platform : Platform) (env : SendEnv) (purpose : Purpose) (w : EcWork) : EcWork × Int :=
  match w.srv.res with
  | none => (w, -1)
  | some res =>
      let paired := ecServerPairResp w.srv res
      let held : EcWork := {w with srv := {w.srv with res := some paired.1}}
      if paired.2 ≠ 0 then (held, -1)
      else if ¬ ecIsRespCode w.srv.flow.respCode then (held, -1)
      else
        match w.srv.flow.conn.isConfirmable with
        | none => (held, -1)
        | some isCon =>
            let encoded := ecServerEncodeResp platform.order env w.srv isCon paired.1
            let stored : EcServer := {w.srv with res := some encoded.1}
            if encoded.2 ≠ 0 then ({w with srv := stored}, -1)
            else
              let handed := ecPduSend platform env.sent w.srv.flow encoded.1 w.dups true
              ({w with srv := stored.log purpose handed.datagram, dups := handed.dups},
                if handed.datagram.isSome then 0 else -1)

/-- Both callers pass no payload. -/
def ecServerReply (platform : Platform) (env : SendEnv) (rc : EcRc) (w : EcWork) : EcWork × Int :=
  if ¬ ecIsRespCode rc then (w, -1)
  else
    let coded := ecFlowSetRespCode w.srv.flow rc
    if coded.2 ≠ 0 then (w, -1)
    else ecServerSendResp platform env .reply {w with srv := {w.srv with flow := coded.1}}

/-- The second half of the result is the C return code. -/
def ecServerReady (platform : Platform) (env : SendEnv) (isCon : Bool) (w : EcWork) :
    Except EcFault (EcWork × Int) :=
  if w.srv.state = .ackSent ∨ w.srv.state = .reqOk then
    let responded := ecServerSendResp platform env .response w
    if responded.2 ≠ 0 then .ok (responded.1, -1)
    else
      (ecServerSetState responded.1
        (if isCon = true ∧ responded.1.srv.state = .ackSent then .waitAck else .respDone)).map fun moved => (moved, 0)
  else .ok (w, -1)

/-- The separate ACK is kept as the control PDU of the server when it could be sent. -/
def ecServerSendSeparateAck (platform : Platform) (sent : Bool) (w : EcWork) : EcWork × Int :=
  if w.srv.state ≠ .reqOk then (w, -1)
  else if w.srv.octrl.isSome then (w, -1)
  else
    let paired := ecPduSetSibling ecPduNewEmpty (w.srv.req.map fun req => req.hdrBits.mid)
    if paired.2 ≠ 0 then (w, -1)
    else
      let encoded := ecPduEncodeResponseAck platform.order w.srv.flow paired.1
      if encoded.2 ≠ 0 then (w, -1)
      else
        let handed := ecPduSend platform sent w.srv.flow encoded.1 w.dups true
        match handed.datagram with
        | none => ({w with dups := handed.dups}, -1)
        | some datagram =>
            ({w with
                srv := {w.srv with octrl := some encoded.1}.log .ack (some datagram)
                dups := handed.dups}, 0)

def ecServerAdd (w : EcWork) : EcWork :=
  {w with srv := {w.srv with parent := true}, servers := w.servers ++ [w.self]}

def ecServerRescheduleUserfn (tv : TimeVal) (w : EcWork) : EcWork × Int :=
  let started := ecTimerStart {w.srv.resched with tout := tv} 1
  ({w with srv := {w.srv with resched := started.1}}, started.2)

/-- What a user callback can do to its server; the registry calls are open, any registry may come out. -/
inductive SrvApi where
  | setCode (rc : EcRc)
  | setPayload (payload : List UInt8)
  | add (call : AddCall)
  | observe (observing : List EcObservation)

def SrvApi.apply (platform : Platform) (w : EcWork) : SrvApi → EcWork
  | .setCode rc => {w with srv := {w.srv with flow := (ecFlowSetRespCode w.srv.flow rc).1}}
  | .setPayload payload => {w with srv := {w.srv with res := w.srv.res.map fun res => (ecPduSetPayload res payload).1}}
  | .add call =>
      {w with srv := {w.srv with res := w.srv.res.map fun res =>
        {res with opts := (call.apply platform.order platform.isAbsolute res.opts).1}}}
  | .observe observing => {w with observing := observing}

def applyCalls (platform : Platform) (calls : List SrvApi) (w : EcWork) : EcWork :=
  calls.foldl (SrvApi.apply platform) w

/-- One invocation of a user callback: its calls, its result and the time it asks to wait. -/
structure CallbackRun where
  calls : List SrvApi
  ret : EcCbrc
  tv : TimeVal

/-- What the handling of one datagram depends on: the callback's run and the outcomes of the sends. -/
structure HandlerEnv where
  run : CallbackRun
  resend : Bool
  ack : Bool
  response : SendEnv
  reply : SendEnv

/-- What follows when the user cannot answer yet. -/
def ecServerWait (platform : Platform) (env : HandlerEnv) (isCon : Bool) (w : EcWork) :
    Except EcFault (EcWork × Int) :=
  if w.srv.state = .reqOk then
    let acked := if isCon then ecServerSendSeparateAck platform env.ack w else (w, 0)
    if acked.2 ≠ 0 then .ok (acked.1, -1)
    else
      let added := ecServerAdd acked.1
      let rescheduled := if added.srv.flow.proxyUri then (added, 0) else ecServerRescheduleUserfn env.run.tv added
      if rescheduled.2 ≠ 0 then .ok (rescheduled.1, -1)
      else (ecServerSetState rescheduled.1 .ackSent).map fun moved => (moved, 0)
  else .ok (w, -1)

/-- The second half of the result is the C return code. -/
def ecServerUserfn (platform : Platform) (env : HandlerEnv) (w : EcWork) : Except EcFault (EcWork × Int) :=
  match w.srv.flow.conn.isConfirmable with
  | none => .ok (w, -1)
  | some isCon =>
      let called := applyCalls platform env.run.calls {w with invoked := w.invoked + 1}
      match env.run.ret with
      | .ready => ecServerReady platform env.response isCon called
      | .wait => ecServerWait platform env isCon called
      | .poll | .error => .ok (called, -1)

def reschedUserfn (platform : Platform) (env : HandlerEnv) (w : EcWork) : Except EcFault EcWork :=
  match ecServerUserfn platform env w with
  | .error fault => .error fault
  | .ok (run, rc) => if rc ≠ 0 then ecServerSetState run .internalErr else .ok run

def ecSrvCoapTimeout (platform : Platform) (env : SendEnv) (w : EcWork) : Except EcFault EcWork :=
  if w.srv.coap.retriesLeft = 0 then ecServerSetState w .respAckTimeout
  else
    match ecServerSetState w .coapRetry with
    | .error fault => .error fault
    | .ok retried =>
        let responded := ecServerSendResp platform env .retransmission retried
        if responded.2 ≠ 0 then ecServerSetState responded.1 .internalErr else ecServerSetState responded.1 .waitAck

/-- The calls are those that the user makes on the server before it is woken up. -/
def ecServerWakeup (platform : Platform) (env : SendEnv) (calls : List SrvApi) (w : EcWork) :
    Except EcFault (EcWork × Int) :=
  let called := applyCalls platform calls w
  match called.srv.flow.conn.isConfirmable with
  | none => .ok (called, -1)
  | some isCon => ecServerReady platform env isCon called

end Webthings.Evcoap
