import Webthings.Evcoap.Options.Get
import Webthings.Evcoap.Pdu

namespace Webthings.Evcoap

/-- The observation state of a client. -/
structure EcCliObs where
  on : Bool
  cancel : Bool
  lastCnt : UInt16
  lastTs : Nat
  deriving DecidableEq

def EcCliObs.zero : EcCliObs := ⟨false, false, 0, 0⟩

/-- A state that a client enters; `told` is the response with which its user is called back, if it is called back. -/
structure Entry where
  state : EcCliState
  told : Option (Option EcPdu)

/-- A client transaction; `registered` is its read event, `freed` marks a disposed one, and `entered` is the log of its
states. -/
structure EcClient where
  userown : Bool
  state : EcCliState
  observe : EcCliObs
  flow : EcFlow
  req : EcPdu
  resSet : List EcPdu
  dnsReq : Bool
  registered : Bool
  app : EcTimer
  coap : EcTimer
  obs : EcTimer
  freed : Bool
  sent : List Sent
  entered : List Entry

/-- A client and the duplicate map it shares with the rest of its base. -/
structure CliWork where
  cli : EcClient
  dups : EcDups

def ecClientStateIsFinal (state : EcCliState) : Bool :=
  match state with
  | .internalErr | .dnsFailed | .sendFailed | .coapTimeout | .appTimeout | .reqDone | .reqRst | .obsTimeout => true
  | .none | .dnsOk | .reqSent | .reqAckd | .coapRetry | .waitNfy => false

/-- The transition table; a request that it does not hold is rejected. -/
def ecClientCheckTransition (cur next : EcCliState) : Bool :=
  match next with
  | .internalErr => true
  | .dnsFailed => cur == .none
  | .dnsOk => cur == .none || ecClientStateIsFinal cur
  | .sendFailed | .reqSent => cur == .dnsOk || cur == .coapRetry
  | .reqAckd | .coapRetry | .coapTimeout => cur == .reqSent
  | .appTimeout | .reqDone | .reqRst => cur == .reqSent || cur == .reqAckd || cur == .waitNfy
  | .waitNfy => cur == .reqSent || cur == .reqAckd || cur == .waitNfy
  | .obsTimeout => cur == .waitNfy
  | .none => false

def ecCliStartAppTimer (cli : EcClient) : EcClient × Int :=
  let started := ecTimerStart cli.app 1
  ({cli with app := started.1}, started.2)

def ecCliStopAppTimer (cli : EcClient) : EcClient := {cli with app := ecTimerRemove cli.app}

def ecCliStartCoapTimer (cli : EcClient) : EcClient × Int :=
  let started := coapTimerStart cli.coap
  ({cli with coap := started.1}, started.2)

def ecCliRestartCoapTimer (cli : EcClient) : Option EcClient :=
  (coapTimerRestart cli.coap).map fun coap => {cli with coap := coap}

def ecCliStopCoapTimer (cli : EcClient) : EcClient := {cli with coap := ecTimerRemove cli.coap}

def ecClientGetResponsePdu (cli : EcClient) : Option EcPdu := cli.resSet.head?

/-- The observation timer runs for Max-Age and one second of tolerance. -/
def ecCliStartObsTimer (order : ByteOrder) (cli : EcClient) : EcClient × Int :=
  let sec :=
    match (ecClientGetResponsePdu cli).bind fun res => ecOptsGetMaxAge order res.opts with
    | none => ecCoapDefaultMaxAge
    | some maxAge => maxAge.toNat
  let started := ecTimerStart {cli.obs with tout := ⟨sec + 1, 0⟩} 1
  ({cli with obs := started.1}, started.2)

def ecCliRestartObsTimer (cli : EcClient) : Option EcClient :=
  (ecTimerRestart cli.obs).map fun obs => {cli with obs := obs}

def ecCliStopObsTimer (cli : EcClient) : EcClient := {cli with obs := ecTimerRemove cli.obs}

/-- The client's own log of what it has sent. -/
def EcClient.log (cli : EcClient) (purpose : Purpose) (datagram : Option Datagram) : EcClient :=
  {cli with sent := cli.sent ++ datagram.toList.map (Sent.mk purpose)}

/-- An ad-hoc flow has only the socket and the peer of the client's flow. -/
def ecClientAdHocFlow (cli : EcClient) : EcFlow :=
  {EcFlow.zero with conn := ecConnCopy cli.flow.conn {EcConn.zero with socket := -1}}

/-- The ACK of the separate response mirrors the MID of the first response in the set. -/
def ecClientSendAck (platform : Platform) (sent : Bool) (w : CliWork) : CliWork :=
  let paired := ecPduSetSibling ecPduNewEmpty ((ecClientGetResponsePdu w.cli).map fun res => res.hdrBits.mid)
  if paired.2 ≠ 0 then w
  else
    let encoded := ecPduEncodeResponseAck platform.order (ecClientAdHocFlow w.cli) paired.1
    if encoded.2 ≠ 0 then w
    else
      let handed := ecPduSend platform sent (ecClientAdHocFlow w.cli) encoded.1 w.dups true
      ⟨w.cli.log .ack handed.datagram, handed.dups⟩

/-- The RST that cancels an observation does not go through the duplicate map. -/
def ecClientRstPeer (platform : Platform) (sent : Bool) (w : CliWork) : CliWork :=
  let paired := ecPduSetSibling ecPduNewEmpty ((ecClientGetResponsePdu w.cli).map fun res => res.hdrBits.mid)
  if paired.2 ≠ 0 then w
  else
    let encoded := ecPduEncodeResponseRst platform.order (ecClientAdHocFlow w.cli) paired.1
    if encoded.2 ≠ 0 then w
    else
      let handed := ecPduSend platform sent (ecClientAdHocFlow w.cli) encoded.1 w.dups false
      ⟨w.cli.log .rst handed.datagram, handed.dups⟩

/-- What `ec_client_set_state` does between the check and the assignment of the new state. -/
def ecClientEnter (platform : Platform) (sent isCon : Bool) (next : EcCliState) (w : CliWork) :
    Except EcFault CliWork :=
  match next with
  | .reqSent =>
      if w.cli.state = .dnsOk then
        let started := ecCliStartAppTimer w.cli
        if started.2 ≠ 0 then .error .timerFailed
        else .ok {w with cli := if isCon then (ecCliStartCoapTimer started.1).1 else started.1}
      else if w.cli.state = .coapRetry then
        match ecCliRestartCoapTimer w.cli with
        | none => .error .nullEvent
        | some cli => .ok {w with cli := cli}
      else .ok w
  | .waitNfy =>
      if w.cli.state = .waitNfy then
        match ecCliRestartObsTimer w.cli with
        | none => .error .nullEvent
        | some cli => .ok {w with cli := cli}
      else
        let stopped := ecCliStopAppTimer w.cli
        let quenched := if isCon then ecCliStopCoapTimer stopped else stopped
        let started := ecCliStartObsTimer platform.order quenched
        if started.2 ≠ 0 then .error .timerFailed else .ok {w with cli := started.1}
  | .reqAckd => .ok {w with cli := if isCon then ecCliStopCoapTimer w.cli else w.cli}
  | .reqDone => .ok (if w.cli.state = .reqAckd ∧ isCon = true then ecClientSendAck platform sent w else w)
  | _ => .ok w

/-- The end of a transaction: a client that the user owns is kept, any other is freed. -/
def ecClientFinish (isCon : Bool) (cli : EcClient) : EcClient :=
  let stopped := ecCliStopAppTimer cli
  let quenched := if isCon then ecCliStopCoapTimer stopped else stopped
  let silent := ecCliStopObsTimer quenched
  if cli.userown then {silent with resSet := []}
  else {silent with resSet := [], registered := false, freed := true}

/-- The user is called back in the final states and for notifications, unless the observation has been cancelled. -/
def EcClient.entry (cli : EcClient) (next : EcCliState) : Entry :=
  ⟨next, if (ecClientStateIsFinal next || next == .waitNfy) && !cli.observe.cancel then some (ecClientGetResponsePdu cli)
    else none⟩

/-- The new state is assigned and the user is called back. -/
def EcClient.enter (cli : EcClient) (next : EcCliState) : EcClient :=
  {cli with state := next, entered := cli.entered ++ [cli.entry next]}

/-- The result tells whether the client has been disposed of. -/
def ecClientSetState (platform : Platform) (sent : Bool) (w : CliWork) (next : EcCliState) :
    Except EcFault (CliWork × Bool) :=
  if ecClientCheckTransition w.cli.state next = false then .error (.clientRejected w.cli.state next)
  else
    let isCon := w.cli.flow.conn.isConfirmable.getD false
    match ecClientEnter platform sent isCon next w with
    | .error fault => .error fault
    | .ok entered =>
        let moved : CliWork := {entered with cli := entered.cli.enter next}
        let cancelled := (ecClientStateIsFinal next || next == .waitNfy) && moved.cli.observe.cancel
        let told := if cancelled then ecClientRstPeer platform sent moved else moved
        if ecClientStateIsFinal next || cancelled then .ok ({told with cli := ecClientFinish isCon told.cli}, true)
        else .ok (told, false)

/-- The second half of the result is the C return code. -/
def ecClientHandleObservation (order : ByteOrder) (cli : EcClient) (now : Nat) : EcClient × Int :=
  match ecClientGetResponsePdu cli with
  | none => (cli, -1)
  | some res =>
      let counter := ecOptsGetObserve order res.opts
      if cli.observe.on then
        if cli.flow.respCode = ecInternalServerError then ({cli with observe := {cli.observe with on := false}}, 0)
        else
          match counter with
          | none => ({cli with observe := {cli.observe with on := false}}, 0)
          | some oCnt =>
              if cli.flow.respCode = ecDeleted then ({cli with observe := {cli.observe with on := false}}, 0)
              else if cli.observe.lastCnt - oCnt < 0x8000 ∧ now < cli.observe.lastTs + 0x4000 then (cli, -1)
              else ({cli with observe := {cli.observe with lastCnt := oCnt, lastTs := now}}, 0)
      else
        let asked := (ecOptsGet cli.req.opts .observe).isSome
        ({cli with observe := {cli.observe with on := asked && counter.isSome}}, 0)

/-- The result is the C return code. -/
def ecClientHandleEmptyPdu (platform : Platform) (sent : Bool) (w : CliWork) (t : EcMsgModel) :
    Except EcFault (CliWork × Int) :=
  match t with
  | .ack => (ecClientSetState platform sent w .reqAckd).map fun moved => (moved.1, 0)
  | .rst => (ecClientSetState platform sent w .reqRst).map fun moved => (moved.1, 0)
  | .con | .non => .ok (w, -1)

/-- A datagram with what its handling depends on: the memory behind it, the clock and the sends. -/
structure Incoming where
  raw : List UInt8
  beyond : Nat → UInt8
  sd : Int
  peer : SockAddr
  now : Nat
  resend : Bool
  sent : Bool

/-- The message that a handler has decoded, with its payload attached. -/
def EcBody.pdu (body : EcBody) (raw : List UInt8) (h : EcHdr) : EcPdu :=
  ⟨raw.take ecCoapHdrSize, h, (raw.drop body.payloadStart).take body.plen, body.decoded.opts, none⟩

/-- Taking a response in, up to the transition it asks for; there is none when it is refused. -/
def ecClientTakeResponse (platform : Platform) (cli : EcClient) (h : EcHdr) (input : Incoming) :
    EcClient × Option EcCliState :=
  let body := ecClientBody input.raw input.beyond
  if body.decoded.rc ≠ ecRcUnset then (cli, none)
  else if ((ecOptsGet body.decoded.opts .token).all fun t => t.value == cli.flow.token) = false then (cli, none)
  else
    let coded := ecFlowSetRespCode cli.flow h.code.toNat
    if coded.2 ≠ 0 then (cli, none)
    else
      let added := {cli with flow := coded.1, resSet := cli.resSet ++ [body.pdu input.raw h]}
      let observed := ecClientHandleObservation platform.order added input.now
      if observed.2 ≠ 0 then (observed.1, none)
      else (observed.1, some (if observed.1.observe.on then .waitNfy else .reqDone))

/-- What the handler leaves: the client and its map, its result, and the reply that it has repeated. -/
structure CliHandled where
  work : CliWork
  rc : EcNetCbrc
  resent : Option Datagram

/-- The message is neither too short, nor of another version, nor a request. -/
def ecClientHeader (order : ByteOrder) (raw : List UInt8) : Option EcHdr :=
  match ecPduDecodeHeader order raw with
  | none => none
  | some h => if 1 ≤ h.code.toNat ∧ h.code.toNat ≤ 31 then none else some h

/-- What follows when the message is not a duplicate. -/
def ecClientHandleNew (platform : Platform) (w : CliWork) (h : EcHdr) (input : Incoming) :
    Except EcFault (CliWork × EcNetCbrc) :=
  if h.code = 0 then
    (ecClientHandleEmptyPdu platform input.sent w h.t).map fun handled =>
      (handled.1, if handled.2 = 0 then .success else .error)
  else
    let taken := ecClientTakeResponse platform w.cli h input
    match taken.2 with
    | none => .ok ({w with cli := taken.1}, .error)
    | some next =>
        (ecClientSetState platform input.sent {w with cli := taken.1} next).map fun moved =>
          if moved.2 then (moved.1, .dead)
          else (if moved.1.cli.observe.on then {moved.1 with cli := {moved.1.cli with resSet := []}} else moved.1,
            .success)

def ecClientHandlePdu (platform : Platform) (w : CliWork) (input : Incoming) : Except EcFault CliHandled :=
  match ecClientHeader platform.order input.raw with
  | none => .ok ⟨w, .error, none⟩
  | some h =>
      let check := ecDupsHandleIncomingSrvmsg platform w.dups h.mid input.sd input.peer input.raw input.resend
      if check.rc = 1 then .ok ⟨w, .success, check.resent⟩
      else if check.rc ≠ 0 then .ok ⟨w, .error, check.resent⟩
      else
        (ecClientHandleNew platform {w with dups := check.dups} h input).map fun handled =>
          ⟨handled.1, handled.2, none⟩

/-- One resolved address, with the outcome of `socket`, of the send and of making it nonblocking. -/
structure AddrInfo where
  addr : SockAddr
  socket : Int
  sent : Bool
  nonblocking : Bool
  deriving DecidableEq, Repr

/-- The result tells whether the callback goes on to the registration or has returned. -/
def ecClientConnect (platform : Platform) : List AddrInfo → CliWork → Except EcFault (CliWork × Bool)
  | [], w => .ok (w, true)
  | ai :: ais, w =>
      let flow := {w.cli.flow with conn := {w.cli.flow.conn with socket := ai.socket}}
      if ai.socket = -1 then ecClientConnect platform ais {w with cli := {w.cli with flow := flow}}
      else
        match ecNetSocklen ai.addr with
        | none => .ok ({w with cli := {w.cli with flow := flow}}, false)
        | some _ =>
            let toPeer := {flow with conn := {flow.conn with peer := ai.addr}}
            let handed := ecPduSend platform ai.sent toPeer w.cli.req w.dups true
            match handed.datagram with
            | none =>
                let closed := {toPeer with conn := {toPeer.conn with socket := -1}}
                ecClientConnect platform ais ⟨{w.cli with flow := closed}, handed.dups⟩
            | some datagram =>
                let logged : CliWork := ⟨{w.cli with flow := toPeer}.log .request (some datagram), handed.dups⟩
                if ai.nonblocking then
                  (ecClientSetState platform false logged .reqSent).map fun moved => (moved.1, true)
                else (ecClientSetState platform false logged .internalErr).map fun moved => (moved.1, false)

/-- What the name resolution depends on: its answer, the random MID, and the registration of the read event. -/
structure DnsEnv where
  ais : Option (List AddrInfo)
  rng : UInt16
  sent : Bool
  registers : Bool

/-- The addresses are tried from a closed socket on, and the first that takes the request is kept. -/
def ecClientOpen (platform : Platform) (env : DnsEnv) (ais : List AddrInfo) (w : CliWork) :
    Except EcFault (CliWork × Bool) :=
  if w.cli.flow.conn.socket > 0 then
    let handed := ecPduSend platform env.sent w.cli.flow w.cli.req w.dups true
    let logged : CliWork := ⟨w.cli.log .request handed.datagram, handed.dups⟩
    match handed.datagram with
    | none => (ecClientSetState platform false logged .internalErr).map fun moved => (moved.1, false)
    | some _ => (ecClientSetState platform false logged .reqSent).map fun moved => (moved.1, true)
  else
    let flow := {w.cli.flow with conn := {w.cli.flow.conn with socket := -1}}
    ecClientConnect platform ais {w with cli := {w.cli with flow := flow}}

def ecClientDnsCb (platform : Platform) (env : DnsEnv) (w : CliWork) : Except EcFault CliWork :=
  let answered : CliWork := {w with cli := {w.cli with dnsReq := false}}
  match env.ais with
  | none => (ecClientSetState platform false answered .dnsFailed).map fun moved => moved.1
  | some ais =>
      match ecClientSetState platform false answered .dnsOk with
      | .error fault => .error fault
      | .ok (resolved, _) =>
          let encoded := ecPduEncodeRequest platform.order env.rng resolved.cli.flow resolved.cli.req
          let stored : CliWork := {resolved with cli := {resolved.cli with req := encoded.1}}
          if encoded.2 ≠ 0 then (ecClientSetState platform false stored .internalErr).map fun moved => moved.1
          else
            match ecClientOpen platform env ais stored with
            | .error fault => .error fault
            | .ok (opened, goesOn) =>
                if goesOn = false then .ok opened
                else if opened.cli.flow.conn.socket = -1 ∨ env.registers = false then
                  (ecClientSetState platform false opened .internalErr).map fun moved => moved.1
                else .ok {opened with cli := {opened.cli with registered := true}}

def ecCliCoapTimeout (platform : Platform) (sent : Bool) (w : CliWork) : Except EcFault CliWork :=
  if w.cli.coap.retriesLeft = 0 then (ecClientSetState platform sent w .coapTimeout).map fun moved => moved.1
  else
    match ecClientSetState platform sent w .coapRetry with
    | .error fault => .error fault
    | .ok (retried, _) =>
        let handed := ecPduSend platform sent retried.cli.flow retried.cli.req retried.dups true
        let logged : CliWork := ⟨retried.cli.log .request handed.datagram, handed.dups⟩
        (ecClientSetState platform sent logged (if handed.datagram.isSome then .reqSent else .sendFailed)).map
          fun moved => moved.1

def ecCliAppTimeout (platform : Platform) (sent : Bool) (w : CliWork) : Except EcFault CliWork :=
  (ecClientSetState platform sent w .appTimeout).map fun moved => moved.1

def ecCliObsTimeout (platform : Platform) (sent : Bool) (w : CliWork) : Except EcFault CliWork :=
  let off : CliWork := {w with cli := {w.cli with observe := {w.cli.observe with on := false}}}
  (ecClientSetState platform sent off .obsTimeout).map fun moved => moved.1

def ecClientCancelObservation (cli : EcClient) : EcClient := {cli with observe := {cli.observe with cancel := true}}

/-- The flag tells whether the destination could be worked out before the resolver was asked. -/
def ecClientGo (platform : Platform) (w : CliWork) (tout : Option TimeVal) (destination : Bool) :
    Except EcFault (CliWork × Int) :=
  if (w.cli.state = .none ∨ ecClientStateIsFinal w.cli.state = true) ∧ destination = true then
    let app := {w.cli.app with tout := tout.getD ⟨ecTimersAppTout, 0⟩}
    .ok ({w with cli := {w.cli with app := app, dnsReq := true}}, 0)
  else (ecClientSetState platform false w .internalErr).map fun moved => (moved.1, -1)

end Webthings.Evcoap
