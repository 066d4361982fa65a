import Webthings.Evcoap.ClientTrace
import Webthings.Transition.Twin

namespace Webthings.Evcoap
open Webthings.Transition

/-- What is compared of a datagram: a request up to its MID, anything else with its whole header. -/
structure Outline where
  purpose : Purpose
  hdr : List UInt8
  opts : List UInt8
  payload : List UInt8
  peer : SockAddr
  deriving DecidableEq

def Sent.outline (s : Sent) : Outline where
  purpose := s.purpose
  hdr := if s.purpose = .request then s.datagram.hdr.take 2 else s.datagram.hdr
  opts := s.datagram.opts
  payload := s.datagram.payload
  peer := s.datagram.peer

/-- Nothing tells two timers apart. -/
def EcTimer.Alike (old new : EcTimer) : Prop := old = new ∨ old.Idle ∧ new.Idle

section Timers

variable {old new : EcTimer}

theorem EcTimer.Alike.pending (alike : old.Alike new) : old.pending = new.pending := by
  rcases alike with same | ⟨idle, idle'⟩
  · rw [same]
  · exact idle.2.trans idle'.2.symm

/-- An armed timer is the same in both. -/
theorem EcTimer.Alike.armed (alike : old.Alike new) (armed : new.pending = true) : old = new := by
  rcases alike with same | ⟨_, idle⟩
  · exact same
  · exact absurd (idle.2.symm.trans armed) (by decide)

theorem EcTimer.Alike.retimed (alike : old.Alike new) (tout : TimeVal) :
    EcTimer.Alike {old with tout := tout} {new with tout := tout} := by
  rcases alike with same | ⟨idle, idle'⟩
  · exact Or.inl (by rw [same])
  · exact Or.inr ⟨idle, idle'⟩

theorem EcTimer.Alike.removed (alike : old.Alike new) : (ecTimerRemove old).Alike (ecTimerRemove new) := by
  rcases alike with same | ⟨idle, idle'⟩
  · exact Or.inl (by rw [same])
  · unfold ecTimerRemove
    rw [idle.1, idle'.1]
    exact Or.inr ⟨idle, idle'⟩

@[simp] theorem ecTimerRemove_tout (ti : EcTimer) : (ecTimerRemove ti).tout = ti.tout := by
  unfold ecTimerRemove
  split <;> rfl

/-- Timers that are started on one timeout succeed or fail together. -/
theorem EcTimer.Alike.started (alike : old.Alike new) (tout : old.tout = new.tout) (maxRetry : Nat) :
    (ecTimerStart old maxRetry).1.Alike (ecTimerStart new maxRetry).1 ∧
      (ecTimerStart old maxRetry).1.tout = (ecTimerStart new maxRetry).1.tout ∧
      (ecTimerStart old maxRetry).2 = (ecTimerStart new maxRetry).2 := by
  rcases alike with same | ⟨idle, idle'⟩
  · rw [same]
    exact ⟨Or.inl rfl, rfl, rfl⟩
  · unfold ecTimerStart
    rw [idle.1, idle'.1]
    split
    · exact ⟨Or.inr ⟨idle, idle'⟩, tout, rfl⟩
    · exact ⟨Or.inl (by simp [tout]), tout, rfl⟩

theorem EcTimer.Alike.restarted (alike : old.Alike new) :
    ecTimerRestart old = none ∧ ecTimerRestart new = none ∨
      ∃ next next', ecTimerRestart old = some next ∧ ecTimerRestart new = some next' ∧ next.Alike next' := by
  rcases alike with same | ⟨idle, idle'⟩
  · rw [same]
    cases ecTimerRestart new with
    | none => exact Or.inl ⟨rfl, rfl⟩
    | some next => exact Or.inr ⟨next, next, rfl, rfl, Or.inl rfl⟩
  · unfold ecTimerRestart
    rw [idle.1, idle'.1]
    exact Or.inl ⟨rfl, rfl⟩

end Timers

/-- What is sent on two connections goes to one peer, as far as it goes out. -/
structure EcConn.Reaches (old new : EcConn) : Prop where
  socket : old.socket = -1 ↔ new.socket = -1
  peer : old.peer = new.peer

/-- A client that has been used before behaves as another one: they differ in their sockets and requests, in idle timers
and in what the first has sent in the past. -/
structure Mirrors (past : List Outline) (old new : CliWork) : Prop where
  dups : old.dups = new.dups
  owned : old.cli.userown = true ∧ new.cli.userown = true
  live : old.cli.freed = false ∧ new.cli.freed = false
  state : old.cli.state = new.cli.state
  observe : old.cli.observe = new.cli.observe
  resSet : old.cli.resSet = new.cli.resSet
  token : old.cli.flow.token = new.cli.flow.token
  confirmable : old.cli.flow.conn.isConfirmable = new.cli.flow.conn.isConfirmable
  bundle : old.cli.req.opts.bundle = new.cli.req.opts.bundle
  registered : new.cli.registered = true → old.cli.registered = true
  app : old.cli.app.Alike new.cli.app
  tout : old.cli.app.tout = new.cli.app.tout
  coap : old.cli.coap.Alike new.cli.coap
  retrying : old.cli.state = .coapRetry → old.cli.coap = new.cli.coap
  obs : old.cli.obs.Alike new.cli.obs
  log : old.cli.sent.map Sent.outline = past ++ new.cli.sent.map Sent.outline
  reaches : new.cli.resSet ≠ [] → old.cli.flow.conn.Reaches new.cli.flow.conn

section Parts

variable {past : List Outline} {old new : CliWork}

/-- Both clients enter a state with the same callback. -/
theorem Mirrors.entry (same : Mirrors past old new) (next : EcCliState) : old.cli.entry next = new.cli.entry next := by
  unfold EcClient.entry ecClientGetResponsePdu
  rw [same.observe, same.resSet]

theorem Mirrors.moved (same : Mirrors past old new) {next : EcCliState}
    (retrying : next = .coapRetry → old.cli.coap = new.cli.coap) :
    Mirrors past {old with cli := old.cli.enter next} {new with cli := new.cli.enter next} :=
  {same with state := rfl, retrying := retrying}

theorem Mirrors.timed (same : Mirrors past old new) {app app' coap coap' obs obs' : EcTimer} (apps : app.Alike app')
    (tout : app.tout = app'.tout) (coaps : coap.Alike coap') (retrying : old.cli.state = .coapRetry → coap = coap')
    (obses : obs.Alike obs') :
    Mirrors past {old with cli := {old.cli with app := app, coap := coap, obs := obs}}
      {new with cli := {new.cli with app := app', coap := coap', obs := obs'}} :=
  {same with app := apps, tout := tout, coap := coaps, retrying := retrying, obs := obses}

/-- Both clients log datagrams that look alike. -/
theorem Mirrors.logged (same : Mirrors past old new) {purpose : Purpose} {datagram datagram' : Option Datagram}
    (alike : (datagram.toList.map (Sent.mk purpose)).map Sent.outline =
      (datagram'.toList.map (Sent.mk purpose)).map Sent.outline) {dups dups' : EcDups} (map : dups = dups') :
    Mirrors past ⟨old.cli.log purpose datagram, dups⟩ ⟨new.cli.log purpose datagram', dups'⟩ :=
  {same with
    dups := map
    log := by
      unfold EcClient.log
      dsimp only
      rw [List.map_append, List.map_append, same.log, alike, List.append_assoc]}

/-- Datagrams of one look that are sent on both connections arrive alike. -/
theorem EcConn.Reaches.sends {conn conn' : EcConn} (reaches : conn.Reaches conn') (purpose : Purpose) (sent : Bool)
    {hdr hdr' : List UInt8} (opts payload : List UInt8)
    (header : (Sent.mk purpose ⟨hdr, opts, payload, conn.socket, conn.peer⟩).outline =
      (Sent.mk purpose ⟨hdr', opts, payload, conn'.socket, conn'.peer⟩).outline) :
    ((ecNetSend sent hdr opts payload conn.socket conn.peer).toList.map (Sent.mk purpose)).map Sent.outline =
      ((ecNetSend sent hdr' opts payload conn'.socket conn'.peer).toList.map (Sent.mk purpose)).map Sent.outline := by
  unfold ecNetSend
  by_cases closed : conn.socket = -1
  · rw [if_pos closed, if_pos (reaches.socket.mp closed)]
  · rw [if_neg closed, if_neg fun closed' => closed (reaches.socket.mpr closed'), ← reaches.peer]
    rw [← reaches.peer] at header
    cases ecNetSocklen conn.peer with
    | none => rfl
    | some length =>
        cases sent with
        | false => rfl
        | true => exact congrArg (fun outline => [outline]) header

theorem EcConn.Reaches.delivers {conn conn' : EcConn} (reaches : conn.Reaches conn') (sent : Bool) :
    conn.delivers sent = conn'.delivers sent := by
  have open_iff : (conn.socket != -1) = (conn'.socket != -1) := by
    rw [Bool.eq_iff_iff, bne_iff_ne, bne_iff_ne]
    exact not_congr reaches.socket
  unfold EcConn.delivers
  rw [open_iff, reaches.peer]

/-- What a send makes of the duplicate map depends on the connection's peer alone. -/
theorem ecPduSend_sameDups (platform : Platform) (sent : Bool) {flow flow' : EcFlow} (pdu : EcPdu) (dups : EcDups)
    (cache : Bool) (peer : flow.conn.peer = flow'.conn.peer) :
    (ecPduSend platform sent flow pdu dups cache).dups = (ecPduSend platform sent flow' pdu dups cache).dups := by
  unfold ecPduSend
  rw [peer]
  dsimp only
  split
  · split <;> rfl
  · rfl

/-- The answer that an ad-hoc flow carries looks the same from both clients, and leaves one duplicate map. -/
theorem Mirrors.adHoc (same : Mirrors past old new) (platform : Platform) (sent : Bool) (purpose : Purpose) (pdu : EcPdu)
    (cache : Bool) (reaches : old.cli.flow.conn.Reaches new.cli.flow.conn) :
    let handed := ecPduSend platform sent (ecClientAdHocFlow old.cli) pdu old.dups cache
    let handed' := ecPduSend platform sent (ecClientAdHocFlow new.cli) pdu new.dups cache
    Mirrors past ⟨old.cli.log purpose handed.datagram, handed.dups⟩ ⟨new.cli.log purpose handed'.datagram, handed'.dups⟩ := by
  have route : EcConn.Reaches (ecClientAdHocFlow old.cli).conn (ecClientAdHocFlow new.cli).conn :=
    ⟨reaches.socket, reaches.peer⟩
  apply same.logged
  · rw [ecPduSend_datagram, ecPduSend_datagram]
    apply route.sends
    unfold Sent.outline
    rw [route.peer]
  · rw [same.dups]
    exact ecPduSend_sameDups platform sent pdu new.dups cache reaches.peer

/-- Both clients have one response. -/
theorem Mirrors.response (same : Mirrors past old new) :
    ecClientGetResponsePdu old.cli = ecClientGetResponsePdu new.cli := by
  unfold ecClientGetResponsePdu
  rw [same.resSet]

theorem Mirrors.answers (same : Mirrors past old new) {res : EcPdu} (response : ecClientGetResponsePdu new.cli = some res) :
    old.cli.flow.conn.Reaches new.cli.flow.conn := by
  apply same.reaches
  intro empty
  rw [ecClientGetResponsePdu, empty] at response
  cases response

theorem Mirrors.acked (same : Mirrors past old new) (platform : Platform) (sent : Bool) :
    Mirrors past (ecClientSendAck platform sent old) (ecClientSendAck platform sent new) := by
  unfold ecClientSendAck
  rw [same.response]
  cases response : ecClientGetResponsePdu new.cli with
  | none => exact same
  | some res => exact same.adHoc platform sent .ack _ true (same.answers response)

theorem Mirrors.reset (same : Mirrors past old new) (platform : Platform) (sent : Bool) :
    Mirrors past (ecClientRstPeer platform sent old) (ecClientRstPeer platform sent new) := by
  unfold ecClientRstPeer
  rw [same.response]
  cases response : ecClientGetResponsePdu new.cli with
  | none => exact same
  | some res => exact same.adHoc platform sent .rst _ false (same.answers response)

theorem Mirrors.appStopped (same : Mirrors past old new) :
    Mirrors past {old with cli := ecCliStopAppTimer old.cli} {new with cli := ecCliStopAppTimer new.cli} := by
  have tout : (ecTimerRemove old.cli.app).tout = (ecTimerRemove new.cli.app).tout := by
    rw [ecTimerRemove_tout, ecTimerRemove_tout, same.tout]
  exact same.timed same.app.removed tout same.coap same.retrying same.obs

/-- The retransmission timer of a confirmable request is stopped. -/
theorem Mirrors.coapStopped (same : Mirrors past old new) (isCon : Bool) :
    Mirrors past {old with cli := if isCon then ecCliStopCoapTimer old.cli else old.cli}
      {new with cli := if isCon then ecCliStopCoapTimer new.cli else new.cli} := by
  cases isCon with
  | false => exact same
  | true =>
      exact same.timed same.app same.tout same.coap.removed
        (fun retry => congrArg ecTimerRemove (same.retrying retry)) same.obs

theorem Mirrors.obsStopped (same : Mirrors past old new) :
    Mirrors past {old with cli := ecCliStopObsTimer old.cli} {new with cli := ecCliStopObsTimer new.cli} :=
  same.timed same.app same.tout same.coap same.retrying same.obs.removed

/-- A client whose user owns it is kept at the end of a transaction, without its timers and responses. -/
theorem ecClientFinish_owned {cli : EcClient} (owned : cli.userown = true) (isCon : Bool) : ecClientFinish isCon cli =
    {ecCliStopObsTimer (if isCon then ecCliStopCoapTimer (ecCliStopAppTimer cli) else ecCliStopAppTimer cli) with
      resSet := []} := by
  unfold ecClientFinish
  dsimp only
  rw [if_pos]
  cases isCon <;> exact owned

/-- The end of a transaction keeps both clients, without responses. -/
theorem Mirrors.finished (same : Mirrors past old new) (isCon : Bool) :
    Mirrors past {old with cli := ecClientFinish isCon old.cli} {new with cli := ecClientFinish isCon new.cli} := by
  have quiet := (same.appStopped.coapStopped isCon).obsStopped
  rw [ecClientFinish_owned same.owned.1, ecClientFinish_owned same.owned.2]
  exact {quiet with resSet := rfl, reaches := fun present => absurd rfl present}

/-- The timers of the first send. -/
theorem Mirrors.appStarted (same : Mirrors past old new) :
    Mirrors past {old with cli := (ecCliStartAppTimer old.cli).1} {new with cli := (ecCliStartAppTimer new.cli).1} ∧
      (ecCliStartAppTimer old.cli).2 = (ecCliStartAppTimer new.cli).2 := by
  obtain ⟨apps, tout, rc⟩ := same.app.started same.tout 1
  exact ⟨same.timed apps tout same.coap same.retrying same.obs, rc⟩

theorem Mirrors.coapStarted (same : Mirrors past old new) (settled : old.cli.state ≠ .coapRetry) :
    Mirrors past {old with cli := (ecCliStartCoapTimer old.cli).1} {new with cli := (ecCliStartCoapTimer new.cli).1} := by
  obtain ⟨coaps, _, _⟩ := (same.coap.retimed ⟨ecCoapRespTimeout, 0⟩).started rfl ecCoapMaxRetransmit
  exact same.timed same.app same.tout coaps (fun retry => absurd retry settled) same.obs

theorem Mirrors.obsStarted (same : Mirrors past old new) (order : ByteOrder) :
    Mirrors past {old with cli := (ecCliStartObsTimer order old.cli).1}
        {new with cli := (ecCliStartObsTimer order new.cli).1} ∧
      (ecCliStartObsTimer order old.cli).2 = (ecCliStartObsTimer order new.cli).2 := by
  have started := fun tout => (same.obs.retimed tout).started rfl 1
  unfold ecCliStartObsTimer
  rw [same.response]
  exact ⟨same.timed same.app same.tout same.coap same.retrying (started _).1, (started _).2.2⟩

/-- Both clients enter a state with one outcome. -/
theorem Mirrors.enters (same : Mirrors past old new) (platform : Platform) (sent isCon : Bool) (next : EcCliState) :
    Matched (Mirrors past) (ecClientEnter platform sent isCon next old) (ecClientEnter platform sent isCon next new) := by
  unfold ecClientEnter
  rw [same.state]
  cases next with
  | reqSent =>
      dsimp only
      by_cases resolved : new.cli.state = .dnsOk
      · rw [if_pos resolved, if_pos resolved]
        obtain ⟨started, rc⟩ := same.appStarted
        rw [rc]
        split
        · rfl
        · cases isCon with
          | false => exact started
          | true =>
              apply started.coapStarted
              change old.cli.state ≠ .coapRetry
              rw [same.state, resolved]
              decide
      · rw [if_neg resolved, if_neg resolved]
        by_cases retried : new.cli.state = .coapRetry
        · rw [if_pos retried, if_pos retried]
          have coap := same.retrying (same.state.trans retried)
          unfold ecCliRestartCoapTimer
          rw [coap]
          cases coapTimerRestart new.cli.coap with
          | none => rfl
          | some ti => exact same.timed same.app same.tout (Or.inl rfl) (fun _ => rfl) same.obs
        · rw [if_neg retried, if_neg retried]
          exact same
  | waitNfy =>
      dsimp only
      by_cases watching : new.cli.state = .waitNfy
      · rw [if_pos watching, if_pos watching]
        unfold ecCliRestartObsTimer
        rcases same.obs.restarted with ⟨absent, absent'⟩ | ⟨obs, obs', restarted, restarted', obses⟩
        · rw [absent, absent']
          rfl
        · rw [restarted, restarted']
          exact same.timed same.app same.tout same.coap same.retrying obses
      · rw [if_neg watching, if_neg watching]
        obtain ⟨started, rc⟩ := (same.appStopped.coapStopped isCon).obsStarted platform.order
        generalize ecCliStartObsTimer platform.order (if isCon then ecCliStopCoapTimer (ecCliStopAppTimer old.cli)
          else ecCliStopAppTimer old.cli) = first at started rc ⊢
        generalize ecCliStartObsTimer platform.order (if isCon then ecCliStopCoapTimer (ecCliStopAppTimer new.cli)
          else ecCliStopAppTimer new.cli) = second at started rc ⊢
        rw [rc]
        split
        · rfl
        · exact started
  | reqAckd => exact same.coapStopped isCon
  | reqDone =>
      dsimp only
      split
      · exact same.acked platform sent
      · exact same
  | none | dnsOk | coapRetry | internalErr | dnsFailed | sendFailed | coapTimeout | appTimeout | reqRst | obsTimeout =>
      exact same

/-- A transition of the one client is a transition of the other. -/
theorem Mirrors.setState (same : Mirrors past old new) (platform : Platform) (sent : Bool) (next : EcCliState)
    (retrying : next = .coapRetry → old.cli.coap = new.cli.coap) :
    Matched (fun moved moved' => Mirrors past moved.1 moved'.1 ∧ moved.2 = moved'.2)
      (ecClientSetState platform sent old next) (ecClientSetState platform sent new next) := by
  unfold ecClientSetState
  rw [same.state, same.confirmable]
  split
  · rfl
  · dsimp only
    obtain ⟨fault, failed, failed'⟩ | ⟨entered, entered', entering, entering', both⟩ :=
      (same.enters platform sent (new.cli.flow.conn.isConfirmable.getD false) next).cases
    · rw [failed, failed']
      rfl
    · have moved : Mirrors past {entered with cli := entered.cli.enter next}
          {entered' with cli := entered'.cli.enter next} := by
        apply both.moved
        intro retry
        subst retry
        cases entering
        cases entering'
        exact retrying rfl
      have cancel : (entered.cli.enter next).observe.cancel = (entered'.cli.enter next).observe.cancel :=
        congrArg EcCliObs.cancel both.observe
      rw [entering, entering']
      dsimp only
      rw [cancel]
      split
      · split
        · exact ⟨(moved.reset platform sent).finished _, rfl⟩
        · exact ⟨moved.finished _, rfl⟩
      · split
        · exact ⟨moved.reset platform sent, rfl⟩
        · exact ⟨moved, rfl⟩

end Parts

/-- Two requests look the same up to their MIDs, and neither is an answer. -/
structure EcPdu.Resembles (old new : EcPdu) : Prop where
  header : old.hdr.take 2 = new.hdr.take 2
  wire : old.opts.wire = new.opts.wire
  payload : old.payload = new.payload
  sibling : old.sibling = none ∧ new.sibling = none

/-- A mirrored client that has sent its request sends it again to the same peer. -/
structure Mirrors.Sending (past : List Outline) (old new : CliWork) : Prop extends Mirrors past old new where
  route : old.cli.flow.conn.Reaches new.cli.flow.conn
  request : old.cli.req.Resembles new.cli.req

section Handlers

variable {platform : Platform} {past : List Outline} {old new : CliWork}

/-- A request touches no record of the duplicate map. -/
theorem ecPduSend_unpaired {sent cache : Bool} {flow : EcFlow} {pdu : EcPdu} {dups : EcDups} (unpaired : pdu.sibling = none) :
    (ecPduSend platform sent flow pdu dups cache).dups = dups := by
  unfold ecPduSend
  rw [unpaired]
  cases cache <;> rfl

/-- Both clients send their requests, or neither does. -/
theorem Mirrors.requested (same : Mirrors past old new) (request : old.cli.req.Resembles new.cli.req)
    (route : old.cli.flow.conn.Reaches new.cli.flow.conn) (sent : Bool) :
    let handed := ecPduSend platform sent old.cli.flow old.cli.req old.dups true
    let handed' := ecPduSend platform sent new.cli.flow new.cli.req new.dups true
    handed.datagram.isSome = handed'.datagram.isSome ∧
      Mirrors past ⟨old.cli.log .request handed.datagram, handed.dups⟩
        ⟨new.cli.log .request handed'.datagram, handed'.dups⟩ := by
  dsimp only
  rw [ecPduSend_unpaired request.sibling.1, ecPduSend_unpaired request.sibling.2, ecPduSend_datagram, ecPduSend_datagram]
  have header : ∀ opts payload,
      (Sent.mk .request ⟨old.cli.req.hdr, opts, payload, old.cli.flow.conn.socket, old.cli.flow.conn.peer⟩).outline =
        (Sent.mk .request ⟨new.cli.req.hdr, opts, payload, new.cli.flow.conn.socket, new.cli.flow.conn.peer⟩).outline := by
    intro opts payload
    unfold Sent.outline
    rw [route.peer]
    exact congrArg (fun hdr => Outline.mk .request hdr opts payload new.cli.flow.conn.peer) request.header
  have alike := route.sends .request sent old.cli.req.opts.wire old.cli.req.payload (header _ _)
  rw [request.wire, request.payload] at alike ⊢
  exact ⟨by rw [ecNetSend_delivers, ecNetSend_delivers, route.delivers], same.logged alike same.dups⟩

/-- A transition changes neither connection and neither request. -/
theorem Mirrors.Sending.setState (same : Sending past old new) (sent : Bool) (next : EcCliState)
    (retrying : next = .coapRetry → old.cli.coap = new.cli.coap) :
    Matched (fun moved moved' => Sending past moved.1 moved'.1 ∧ moved.2 = moved'.2)
      (ecClientSetState platform sent old next) (ecClientSetState platform sent new next) := by
  obtain ⟨fault, failed, failed'⟩ | ⟨moved, moved', made, made', both, final⟩ :=
    (same.toMirrors.setState platform sent next retrying).cases
  · rw [failed, failed']
    rfl
  · obtain ⟨flow, req⟩ := ecClientSetState_line made
    obtain ⟨flow', req'⟩ := ecClientSetState_line made'
    have route : moved.1.cli.flow.conn.Reaches moved'.1.cli.flow.conn := by
      rw [flow, flow']
      exact same.route
    have request : moved.1.cli.req.Resembles moved'.1.cli.req := by
      rw [req, req']
      exact same.request
    rw [made, made']
    exact ⟨{both with route := route, request := request}, final⟩

/-- What is made of a transition is made of both. -/
theorem Mirrors.Sending.mapped (same : Sending past old new) {sent : Bool} {next : EcCliState} {Result : Type}
    {f : CliWork × Bool → Result} {related : Result → Result → Prop}
    (retrying : next = .coapRetry → old.cli.coap = new.cli.coap)
    (kept : ∀ moved moved', Sending past moved.1 moved'.1 → moved.2 = moved'.2 → related (f moved) (f moved')) :
    Matched related ((ecClientSetState platform sent old next).map f) ((ecClientSetState platform sent new next).map f) :=
  (same.setState sent next retrying).map fun moved moved' _ _ both => kept moved moved' both.1 both.2

theorem Mirrors.asked (same : Mirrors past old new) (sym : EcOptSym) :
    ecOptsGet old.cli.req.opts sym = ecOptsGet new.cli.req.opts sym := by
  unfold ecOptsGet ecOptsGetNth
  rw [same.bundle]

theorem Mirrors.takesIn (same : Mirrors past old new) (h : EcHdr) (input : Incoming) :
    old.cli.TakesIn h input ↔ new.cli.TakesIn h input := by
  constructor
  · rintro ⟨decoded, token, response⟩
    exact ⟨decoded, fun t found => (token t found).trans same.token, response⟩
  · rintro ⟨decoded, token, response⟩
    exact ⟨decoded, fun t found => (token t found).trans same.token.symm, response⟩

theorem Mirrors.judged (same : Mirrors past old new) (order : ByteOrder) (h : EcHdr) (input : Incoming) :
    old.cli.judged order h input = new.cli.judged order h input := by
  unfold EcClient.judged EcClient.shown
  rw [same.observe, same.resSet, same.asked]

/-- A response is added to both clients. -/
theorem Mirrors.Sending.added (same : Sending past old new) (h : EcHdr) (input : Incoming) {observe observe' : EcCliObs}
    (judgement : observe = observe') :
    Sending past {old with cli := {old.cli.added h input with observe := observe}}
      {new with cli := {new.cli.added h input with observe := observe'}} :=
  {same with
    observe := judgement
    resSet := congrArg (· ++ [input.pdu h]) same.resSet
    reaches := fun _ => same.route}

/-- A message makes the same of both clients. -/
theorem Mirrors.Sending.handled (same : Sending past old new) (h : EcHdr) (input : Incoming) :
    Matched (fun handled handled' => Sending past handled.1 handled'.1)
      (ecClientHandleNew platform old h input) (ecClientHandleNew platform new h input) := by
  by_cases code : h.code = 0
  · have moves : ∀ next, next ≠ EcCliState.coapRetry → Matched (fun emptied emptied' => Sending past emptied.1 emptied'.1)
        ((ecClientSetState platform input.sent old next).map fun moved => (moved.1, (0 : Int)))
        ((ecClientSetState platform input.sent new next).map fun moved => (moved.1, (0 : Int))) := by
      intro next other
      apply same.mapped (fun retry => absurd retry other)
      exact fun moved moved' both _ => both
    unfold ecClientHandleNew ecClientHandleEmptyPdu
    rw [if_pos code, if_pos code]
    cases h.t with
    | ack =>
        apply (moves .reqAckd (by decide)).map
        exact fun emptied emptied' _ _ both => both
    | rst =>
        apply (moves .reqRst (by decide)).map
        exact fun emptied emptied' _ _ both => both
    | con | non => exact same
  · by_cases taken : new.cli.TakesIn h input
    · have taken' := (same.takesIn h input).mpr taken
      unfold ecClientHandleNew
      rw [if_neg code, if_neg code, ecClientTakeResponse_taken platform taken, ecClientTakeResponse_taken platform taken',
        same.judged platform.order h input]
      cases new.cli.judged platform.order h input with
      | none => exact same.added h input same.observe
      | some observe =>
          have judged : Sending past _ _ := same.added h input (rfl : observe = observe)
          apply judged.mapped
          · intro retry
            rcases observe.asks_cases with waits | done
            · cases waits.symm.trans retry
            · cases done.symm.trans retry
          · intro moved moved' both final
            rw [final, both.observe]
            split
            · exact both
            · split
              · exact {both with resSet := rfl, reaches := fun present => absurd rfl present}
              · exact both
    · rw [ecClientHandleNew_refused platform code taken,
        ecClientHandleNew_refused platform code fun taken' => taken ((same.takesIn h input).mp taken')]
      exact same

theorem Mirrors.Sending.handledEntries (same : Sending past old new) (h : EcHdr) (input : Incoming) :
    ecClientHandleNewEntries platform old.cli h input = ecClientHandleNewEntries platform new.cli h input := by
  unfold ecClientHandleNewEntries
  split
  · rw [same.entry, same.entry]
  · by_cases taken : new.cli.TakesIn h input
    · have taken' := (same.takesIn h input).mpr taken
      rw [ecClientTakeResponse_taken platform taken, ecClientTakeResponse_taken platform taken',
        same.judged platform.order h input]
      cases new.cli.judged platform.order h input with
      | none => rfl
      | some observe =>
          have judged : Sending past _ _ := same.added h input (rfl : observe = observe)
          exact congrArg (fun entry => [entry]) (judged.entry observe.asks)
    · rw [ecClientTakeResponse_refused platform taken,
        ecClientTakeResponse_refused platform fun taken' => taken ((same.takesIn h input).mp taken')]

/-- The retransmission timers of both clients end their transactions, or send their requests again. -/
theorem Mirrors.Sending.retransmitted (same : Sending past old new) (sent : Bool) (coap : old.cli.coap = new.cli.coap) :
    Matched (Sending past) (ecCliCoapTimeout platform sent old) (ecCliCoapTimeout platform sent new) := by
  unfold ecCliCoapTimeout
  rw [coap]
  split
  · apply same.mapped fun retry => by cases retry
    exact fun moved moved' both _ => both
  · obtain ⟨fault, failed, failed'⟩ | ⟨⟨retried, _⟩, ⟨retried', _⟩, made, made', both, _⟩ :=
      (same.setState sent .coapRetry fun _ => coap).cases
    · rw [failed, failed']
      rfl
    · rw [made, made']
      obtain ⟨went, logged⟩ := both.requested both.request both.route sent
      dsimp only at went logged ⊢
      rw [went]
      have sending : Sending past _ _ := {logged with route := both.route, request := both.request}
      apply sending.mapped
      · intro retry
        split at retry <;> cases retry
      · exact fun moved moved' held _ => held

end Handlers

end Webthings.Evcoap
