import Webthings.Evcoap.ClientAcks
import Webthings.Evcoap.ClientList
import Webthings.Evcoap.EncodingSpace
import Webthings.Evcoap.Mirrors
import Webthings.Evcoap.Retransmissions

namespace Webthings.Evcoap
open Webthings.Transition

/-- The client that `ec_request_new` and the setters of the options make for the request of a client. -/
def EcClient.recreated (cli : EcClient) : EcClient where
  userown := cli.userown
  state := .none
  observe := EcCliObs.zero
  flow := {cli.flow with
    conn := {EcConn.zero with isConfirmable := cli.flow.conn.isConfirmable}
    respCode := ecRcUnset}
  req := {cli.req with
    hdr := ecPduNewEmpty.hdr
    hdrBits := ecPduNewEmpty.hdrBits
    opts := {ecOptsInit with noptions := cli.req.opts.bundle.list.length, bundle := cli.req.opts.bundle}}
  resSet := []
  dnsReq := false
  registered := false
  app := EcTimer.zero
  coap := EcTimer.zero
  obs := EcTimer.zero
  freed := false
  sent := []
  entered := []

/-- The transaction of a client that its user keeps is over: it has come to a final state, or its observation has been
cancelled and the last notification is in. -/
structure ClientLife.Ended (life : ClientLife) : Prop where
  owned : life.work.cli.userown = true
  live : life.work.cli.freed = false
  answered : life.resolving = 0
  done : ecClientStateIsFinal life.work.cli.state = true ∨
    life.work.cli.state = .waitNfy ∧ life.work.cli.observe.cancel = true ∧ life.work.cli.obs.evti = false

/-- What an event shows of a client: the states it enters with the callbacks, and the datagrams it sends. -/
structure Observed where
  entries : List Entry
  sent : List Outline

def lifeObserved (platform : Platform) (life : ClientLife) (event : LifeEvent) : Except EcFault Observed :=
  (lifeStep platform life event).map fun next =>
    ⟨next.work.cli.enteredSince life.work.cli, (next.work.cli.sentSince life.work.cli).map Sent.outline⟩

theorem lifeObserved_entries (platform : Platform) (life : ClientLife) (event : LifeEvent) :
    lifeObserved platform life event = (lifeStep platform life event).map fun next =>
      ⟨life.entries platform event, (next.work.cli.sentSince life.work.cli).map Sent.outline⟩ := by
  unfold lifeObserved
  cases stepped : lifeStep platform life event with
  | error fault => rfl
  | ok next =>
      dsimp only [Except.map]
      rw [lifeStep_enteredSince stepped]

/-- The event with the MID that another client draws. -/
def ClientEvent.redrawn (mid : UInt16) : ClientEvent → ClientEvent
  | .dns env => .dns {env with rng := mid}
  | other => other

def LifeEvent.redrawn (mid : UInt16) : LifeEvent → LifeEvent
  | .send tout destination => .send tout destination
  | .event other => .event (other.redrawn mid)

/-- The loop over the addresses goes on past this one. -/
def AddrInfo.Skipped (ai : AddrInfo) : Prop := ai.socket = -1 ∨ (ecNetSocklen ai.addr).isSome ∧ ai.sent = false

/-- The loop over the addresses ends with this one. -/
structure AddrInfo.Taken (ai : AddrInfo) : Prop where
  valid : ai.socket ≠ -1
  known : (ecNetSocklen ai.addr).isSome
  sent : ai.sent = true
  nonblocking : ai.nonblocking = true

/-- A new connection would come to the same as the one there is: to its peer, or to nothing. -/
def EcConn.Reconnects (conn : EcConn) (env : DnsEnv) (ais : List AddrInfo) : Prop :=
  if conn.delivers env.sent then
    ∃ skipped ai rest, ais = skipped ++ ai :: rest ∧ (∀ s ∈ skipped, s.Skipped) ∧ ai.Taken ∧ ai.addr = conn.peer
  else ∀ ai ∈ ais, ai.Skipped

/-- The last transaction has left nothing behind that the next one reads. -/
structure EcClient.Cleared (cli : EcClient) : Prop where
  final : ecClientStateIsFinal cli.state = true
  observe : cli.observe = EcCliObs.zero
  resSet : cli.resSet = []

/-- The steps that do not tell a used client from a new one: the used one is cleared when it is sent, the resolver finds
addresses that lead where its socket leads, its options are counted, and no message is heard that the new one does not
listen to. -/
def Careful (platform : Platform) (pair : ClientLife × ClientLife) : LifeEvent → Prop
  | .send _ _ => pair.1.work.cli.Cleared
  | .event (.dns env) => pair.1.resolving ≠ 0 → ∃ ais, env.ais = some ais ∧ pair.1.work.cli.req.opts.Counted ∧
      (pair.1.work.cli.flow.conn.socket > 0 → pair.1.work.cli.flow.conn.Reconnects env ais)
  | .event (.datagram input) => ∀ h, pair.1.work.Hears platform input h → pair.2.work.cli.registered = true
  | .event _ => True

section Encoding

variable {order : ByteOrder} {flow flow' : EcFlow} {pdu pdu' : EcPdu} {rng : UInt16}

/-- Up to the MID a header tells an option count up to its nibble. -/
theorem headerBytes_alike {n n' : Nat} (count : n % 16 = n' % 16) (code : UInt8) (t : EcMsgModel) (mid mid' : UInt16) :
    (headerBytes order n code t mid).take 2 = (headerBytes order n' code t mid').take 2 := by
  have mask : n &&& 0x0f = n' &&& 0x0f :=
    (Nat.and_two_pow_sub_one_eq_mod n 4).trans (count.trans (Nat.and_two_pow_sub_one_eq_mod n' 4).symm)
  unfold headerBytes
  rw [mask]
  rfl

/-- A request of a set type is encoded when its options are. -/
theorem ecPduEncodeRequest_encodes {isCon : Bool} (encodes : (ecOptsEncode pdu.opts).2 = 0)
    (model : flow.conn.isConfirmable = some isCon) : ecPduEncodeRequest order rng flow pdu =
      ({pdu with
        opts := pdu.opts.encoded
        hdr := headerBytes order pdu.opts.encoded.noptions (UInt8.ofNat flow.method.code) (if isCon then .con else .non)
          rng}, 0) := by
  have encoded := ecOptsEncode_fits pdu.opts ((ecOptsEncode_ok_iff pdu.opts).mp encodes)
  unfold ecPduEncodeRequest
  rw [encoded]
  dsimp only
  rw [model]
  rfl

theorem ecPduEncodeRequest_fails (fails : (ecOptsEncode pdu.opts).2 ≠ 0 ∨ flow.conn.isConfirmable = none) :
    (ecPduEncodeRequest order rng flow pdu).2 = -1 := by
  unfold ecPduEncodeRequest
  dsimp only
  split
  · rfl
  · rename_i encoded
    rcases fails with failed | unset
    · exact absurd failed encoded
    · rw [unset]

theorem ecPduEncodeRequest_opts : (ecPduEncodeRequest order rng flow pdu).1.opts = (ecOptsEncode pdu.opts).1 := by
  unfold ecPduEncodeRequest
  dsimp only
  split
  · rfl
  · split <;> rfl

theorem ecPduEncodeRequest_bundle : (ecPduEncodeRequest order rng flow pdu).1.opts.bundle = pdu.opts.bundle := by
  rw [ecPduEncodeRequest_opts]
  rfl

/-- Where the encoder puts nothing, the buffer is as it was allocated. -/
def EcOpts.Clean (opts : EcOpts) : Prop :=
  (ecOptsEncode opts).2 = 0 →
    overlay (encodedBytes 0 opts.bundle.list) opts.enc = overlay (encodedBytes 0 opts.bundle.list) ecOptsInit.enc

theorem EcOpts.Unencoded.clean {opts : EcOpts} (unencoded : opts.Unencoded) : opts.Clean := by
  intro _
  rw [unencoded.zeroed]
  rfl

/-- An encoding puts the same bytes over the same ones. -/
theorem EcPdu.EncodedTo.clean {req : EcPdu} (encoded : pdu.EncodedTo req) (clean : pdu.opts.Clean) : req.opts.Clean := by
  obtain ⟨order, rng, flow, rfl⟩ := encoded
  have bundle : (ecPduEncodeRequest order rng flow pdu).1.opts.bundle = pdu.opts.bundle := ecPduEncodeRequest_bundle
  intro encodes
  rw [ecOptsEncode_ok_iff, bundle, ← ecOptsEncode_ok_iff] at encodes
  rw [ecPduEncodeRequest_opts, ecOptsEncode_ok pdu.opts encodes]
  have again : overlay (encodedBytes 0 pdu.opts.bundle.list) (overlay (encodedBytes 0 pdu.opts.bundle.list) pdu.opts.enc) =
      overlay (encodedBytes 0 pdu.opts.bundle.list) pdu.opts.enc := overlay_again _ _
  exact again.trans (clean encodes)

/-- The request of a client that has been used: the header is that of the last encoding, and the options may have been
counted more than once. -/
structure EcPdu.Reuses (old new : EcPdu) : Prop where
  bundle : old.opts.bundle = new.opts.bundle
  wire : (ecOptsEncode old.opts).2 = 0 → old.opts.encoded.wire = new.opts.encoded.wire
  payload : old.payload = new.payload
  sibling : old.sibling = none ∧ new.sibling = none

/-- A request that is reused is encoded like a new one when its options are counted. -/
theorem EcPdu.Reuses.encoded (reuses : pdu.Reuses pdu') (order : ByteOrder) (method : flow.method = flow'.method)
    (model : flow.conn.isConfirmable = flow'.conn.isConfirmable) (mid mid' : UInt16)
    (count : pdu.opts.noptions % 16 = pdu'.opts.noptions % 16) :
    ((ecPduEncodeRequest order mid flow pdu).2 = -1 ∧ (ecPduEncodeRequest order mid' flow' pdu').2 = -1) ∨
      ((ecPduEncodeRequest order mid flow pdu).2 = 0 ∧ (ecPduEncodeRequest order mid' flow' pdu').2 = 0 ∧
        (ecPduEncodeRequest order mid flow pdu).1.Resembles (ecPduEncodeRequest order mid' flow' pdu').1) := by
  have bundle := reuses.bundle
  have both : (ecOptsEncode pdu.opts).2 = 0 ↔ (ecOptsEncode pdu'.opts).2 = 0 := by
    rw [ecOptsEncode_ok_iff, ecOptsEncode_ok_iff, bundle]
  by_cases encodes : (ecOptsEncode pdu'.opts).2 = 0
  · cases set : flow'.conn.isConfirmable with
    | none =>
        exact Or.inl ⟨ecPduEncodeRequest_fails (Or.inr (model.trans set)), ecPduEncodeRequest_fails (Or.inr set)⟩
    | some isCon =>
        rw [ecPduEncodeRequest_encodes (both.mpr encodes) (model.trans set), ecPduEncodeRequest_encodes encodes set]
        right
        refine ⟨rfl, rfl, ?_, ?_, reuses.payload, reuses.sibling⟩
        · rw [method]
          apply headerBytes_alike
          have posts : fencepostCount 0 pdu.opts.bundle.list = fencepostCount 0 pdu'.opts.bundle.list := by rw [bundle]
          change (pdu.opts.noptions + fencepostCount 0 pdu.opts.bundle.list) % 16 =
            (pdu'.opts.noptions + fencepostCount 0 pdu'.opts.bundle.list) % 16
          omega
        · exact reuses.wire (both.mpr encodes)
  · exact Or.inl ⟨ecPduEncodeRequest_fails (Or.inl (both.not.mpr encodes)), ecPduEncodeRequest_fails (Or.inl encodes)⟩

end Encoding

section Connecting

variable {platform : Platform} {past : List Outline} {w : CliWork}

/-- The loop leaves nothing of the addresses that it goes past but the last peer. -/
theorem ecClientConnect_skips (platform : Platform) {skipped : List AddrInfo} (rest : List AddrInfo)
    (closed : w.cli.flow.conn.socket = -1) (unpaired : w.cli.req.sibling = none) (skips : ∀ ai ∈ skipped, ai.Skipped) :
    ∃ peer, ecClientConnect platform (skipped ++ rest) w =
      ecClientConnect platform rest {w with cli := w.cli.routed (-1) peer} := by
  induction skipped generalizing w with
  | nil =>
      refine ⟨w.cli.flow.conn.peer, ?_⟩
      have same : {w with cli := w.cli.routed (-1) w.cli.flow.conn.peer} = w := by
        unfold EcClient.routed
        rw [← closed]
      rw [same]
      rfl
  | cons ai skipped ih =>
      have later : ∀ peer, ∃ peer', ecClientConnect platform (skipped ++ rest) {w with cli := w.cli.routed (-1) peer} =
          ecClientConnect platform rest {w with cli := w.cli.routed (-1) peer'} := by
        intro peer
        obtain ⟨peer', connected⟩ := ih (w := {w with cli := w.cli.routed (-1) peer}) rfl unpaired
          fun ai member => skips ai (List.mem_cons_of_mem _ member)
        exact ⟨peer', connected⟩
      rw [List.cons_append]
      rcases skips ai List.mem_cons_self with unopened | ⟨known, failed⟩
      · rw [ecClientConnect_unopened unopened]
        exact later _
      · by_cases unopened : ai.socket = -1
        · rw [ecClientConnect_unopened unopened]
          exact later _
        · obtain ⟨length, found⟩ := Option.isSome_iff_exists.mp known
          rw [ecClientConnect_failed unopened found failed, ecPduSend_unpaired unpaired]
          exact later _

/-- Two callbacks have sent one request, or both have come to an end without a request that is waited for. -/
inductive SentAlike (past : List Outline) : CliWork × Bool → CliWork × Bool → Prop where
  | sent {old new : CliWork} (same : Mirrors.Sending past old new) : SentAlike past (old, true) (new, true)
  | stopped {old new : CliWork} (same : Mirrors past old new)
      (ended : new.cli.state = .internalErr ∨ new.cli.state = .dnsOk) : SentAlike past (old, false) (new, false)

/-- What the callback does when the loop over the addresses is over. -/
def ecClientSettle (platform : Platform) (opened : CliWork × Bool) : Except EcFault (CliWork × Bool) :=
  if opened.2 = false then .ok (opened.1, false)
  else if opened.1.cli.flow.conn.socket = -1 then
    (ecClientSetState platform false opened.1 .internalErr).map fun moved => (moved.1, false)
  else .ok (opened.1, true)

/-- The callback of a resolver that has found addresses, for a client that can be sent. -/
theorem ecClientDnsSend_found {env : DnsEnv} {ais : List AddrInfo} (found : env.ais = some ais)
    (permitted : ecClientCheckTransition w.cli.state .dnsOk = true) : ecClientDnsSend platform env w =
      if (ecPduEncodeRequest platform.order env.rng w.cli.flow w.cli.req).2 ≠ 0 then
        (ecClientSetState platform false (w.addressed platform env.rng) .internalErr).map fun moved => (moved.1, false)
      else (ecClientOpen platform env ais (w.addressed platform env.rng)).bind (ecClientSettle platform) := by
  have answered : ecClientCheckTransition {w with cli := {w.cli with dnsReq := false}}.cli.state .dnsOk = true := permitted
  unfold ecClientDnsSend
  rw [found]
  dsimp only
  rw [ecClientSetState_idle (Or.inl rfl) answered]
  dsimp only
  by_cases encoded : (ecPduEncodeRequest platform.order env.rng w.cli.flow w.cli.req).2 = 0
  · rw [if_neg (by exact not_not.mpr encoded), if_neg (not_not.mpr encoded)]
    split
    · rename_i fault failed
      have opening : ecClientOpen platform env ais (w.addressed platform env.rng) = .error fault := failed
      rw [opening]
      rfl
    · rename_i opened goesOn finished
      have opening : ecClientOpen platform env ais (w.addressed platform env.rng) = .ok (opened, goesOn) := finished
      rw [opening]
      rfl
  · rw [if_pos (by exact encoded), if_pos encoded]
    rfl

section Pairs

variable {old new : CliWork}

/-- Both clients stop. -/
theorem Mirrors.stops (same : Mirrors past old new) :
    Matched (SentAlike past) ((ecClientSetState platform false old .internalErr).map fun moved => (moved.1, false))
      ((ecClientSetState platform false new .internalErr).map fun moved => (moved.1, false)) := by
  apply (same.setState platform false .internalErr fun retry => by cases retry).map
  intro moved moved' _ made both
  exact SentAlike.stopped both.1 (Or.inl (ecClientSetState_state made))

/-- Without responses it does not matter where the connections lead. -/
theorem Mirrors.routed (same : Mirrors past old new) (empty : new.cli.resSet = []) (socket socket' : Int)
    (peer peer' : SockAddr) :
    Mirrors past {old with cli := old.cli.routed socket peer} {new with cli := new.cli.routed socket' peer'} :=
  {same with reaches := fun present => absurd empty present}

theorem Mirrors.requests (same : Mirrors past old new) {req req' : EcPdu} (bundle : req.opts.bundle = req'.opts.bundle) :
    Mirrors past {old with cli := {old.cli with req := req}} {new with cli := {new.cli with req := req'}} :=
  {same with bundle := bundle}

/-- The datagram of the request on the client's connection. -/
def EcClient.requestDatagram (cli : EcClient) : Datagram :=
  ⟨cli.req.hdr, cli.req.opts.wire, cli.req.payload, cli.flow.conn.socket, cli.flow.conn.peer⟩

theorem Mirrors.Sending.logs (same : Sending past old new) :
    Sending past {old with cli := old.cli.log .request (some old.cli.requestDatagram)}
      {new with cli := new.cli.log .request (some new.cli.requestDatagram)} := by
  have outline : (Sent.mk .request old.cli.requestDatagram).outline = (Sent.mk .request new.cli.requestDatagram).outline := by
    unfold Sent.outline EcClient.requestDatagram
    rw [same.route.peer, same.request.wire, same.request.payload]
    exact congrArg (fun hdr => Outline.mk .request hdr _ _ _) same.request.header
  have alike : ((some old.cli.requestDatagram).toList.map (Sent.mk .request)).map Sent.outline =
      ((some new.cli.requestDatagram).toList.map (Sent.mk .request)).map Sent.outline :=
    congrArg (fun outline => [outline]) outline
  exact {same.toMirrors.logged alike same.dups with route := same.route, request := same.request}

/-- A request that has gone out nowhere ends the transaction. -/
theorem ecClientSettle_closed (closed : w.cli.flow.conn.socket = -1) : ecClientSettle platform (w, true) =
    (ecClientSetState platform false w .internalErr).map fun moved => (moved.1, false) := by
  unfold ecClientSettle
  rw [if_neg (by decide : ¬ true = false), if_pos closed]

theorem ecClientSettle_stopped (outcome : Except EcFault (CliWork × Bool)) :
    (outcome.map fun moved => (moved.1, false)).bind (ecClientSettle platform) =
      outcome.map fun moved => (moved.1, false) := by
  cases outcome <;> rfl

/-- A request that has gone out on a valid socket is waited for. -/
theorem ecClientSettle_sent (valid : w.cli.flow.conn.socket ≠ -1) :
    ((ecClientSetState platform false w .reqSent).map fun moved => (moved.1, true)).bind (ecClientSettle platform) =
      (ecClientSetState platform false w .reqSent).map fun moved => (moved.1, true) := by
  cases made : ecClientSetState platform false w .reqSent with
  | error fault => rfl
  | ok moved =>
      have socket : moved.1.cli.flow.conn.socket ≠ -1 := by
        rw [(ecClientSetState_line made).1]
        exact valid
      exact if_neg socket

/-- Both clients wait for their responses. -/
theorem Mirrors.Sending.waits (same : Sending past old new) (valid : old.cli.flow.conn.socket ≠ -1)
    (valid' : new.cli.flow.conn.socket ≠ -1) :
    Matched (SentAlike past)
      (((ecClientSetState platform false old .reqSent).map fun moved => (moved.1, true)).bind (ecClientSettle platform))
      (((ecClientSetState platform false new .reqSent).map fun moved => (moved.1, true)).bind
        (ecClientSettle platform)) := by
  rw [ecClientSettle_sent valid, ecClientSettle_sent valid']
  apply same.mapped fun retry => by cases retry
  exact fun moved moved' both _ => SentAlike.sent both

/-- One loop over the addresses makes the same of both clients. -/
theorem Mirrors.connects (same : Mirrors past old new) (request : old.cli.req.Resembles new.cli.req)
    (empty : new.cli.resSet = []) (resolved : new.cli.state = .dnsOk) (closed : old.cli.flow.conn.socket = -1)
    (closed' : new.cli.flow.conn.socket = -1) (ais : List AddrInfo) :
    Matched (SentAlike past) ((ecClientConnect platform ais old).bind (ecClientSettle platform))
      ((ecClientConnect platform ais new).bind (ecClientSettle platform)) := by
  induction ais generalizing old new with
  | nil =>
      change Matched _ (ecClientSettle platform (old, true)) (ecClientSettle platform (new, true))
      rw [ecClientSettle_closed closed, ecClientSettle_closed closed']
      exact same.stops
  | cons ai ais ih =>
      have later : ∀ peer peer', Matched (SentAlike past)
          ((ecClientConnect platform ais {old with cli := old.cli.routed (-1) peer}).bind (ecClientSettle platform))
          ((ecClientConnect platform ais {new with cli := new.cli.routed (-1) peer'}).bind (ecClientSettle platform)) :=
        fun peer peer' => ih (same.routed empty (-1) (-1) peer peer') request empty resolved rfl rfl
      by_cases unopened : ai.socket = -1
      · rw [ecClientConnect_unopened unopened, ecClientConnect_unopened unopened]
        exact later _ _
      · cases known : ecNetSocklen ai.addr with
        | none =>
            rw [ecClientConnect_unknown unopened known, ecClientConnect_unknown unopened known]
            exact SentAlike.stopped (same.routed empty _ _ _ _) (Or.inr resolved)
        | some length =>
            cases went : ai.sent with
            | false =>
                rw [ecClientConnect_failed unopened known went, ecClientConnect_failed unopened known went,
                  ecPduSend_unpaired request.sibling.1, ecPduSend_unpaired request.sibling.2]
                exact later _ _
            | true =>
                rw [ecClientConnect_taken unopened known went, ecClientConnect_taken unopened known went,
                  ecPduSend_unpaired request.sibling.1, ecPduSend_unpaired request.sibling.2]
                have routed := same.routed empty ai.socket ai.socket ai.addr ai.addr
                have sending : Sending past _ _ := {routed with route := ⟨Iff.rfl, rfl⟩, request := request}
                cases ai.nonblocking with
                | true => exact sending.logs.waits unopened unopened
                | false =>
                    rw [ecClientSettle_stopped, ecClientSettle_stopped]
                    exact sending.logs.stops

/-- A client with a socket sends its request there. -/
theorem ecClientOpen_connected {env : DnsEnv} {ais : List AddrInfo} (connected : w.cli.flow.conn.socket > 0)
    (unpaired : w.cli.req.sibling = none) : ecClientOpen platform env ais w =
      if w.cli.flow.conn.delivers env.sent then
        (ecClientSetState platform false {w with cli := w.cli.log .request (some w.cli.requestDatagram)} .reqSent).map
          fun moved => (moved.1, true)
      else (ecClientSetState platform false w .internalErr).map fun moved => (moved.1, false) := by
  have silent : w.cli.log .request none = w.cli := by simp [EcClient.log]
  have handed := ecNetSend_delivers env.sent w.cli.req.hdr w.cli.req.opts.wire w.cli.req.payload w.cli.flow.conn
  unfold ecClientOpen
  rw [if_pos connected]
  dsimp only
  rw [ecPduSend_datagram, ecPduSend_unpaired unpaired]
  cases went : w.cli.flow.conn.delivers env.sent with
  | true =>
      obtain ⟨datagram, sent⟩ := Option.isSome_iff_exists.mp (handed.trans went)
      rw [sent, ecNetSend_some sent]
      rfl
  | false =>
      rw [Option.isSome_eq_false_iff.mp (handed.trans went) |> Option.isNone_iff_eq_none.mp, silent]
      rfl

/-- A client with a socket and one that opens a new one come to the same peer, or to nothing. -/
theorem Mirrors.opens (same : Mirrors past old new) (request : old.cli.req.Resembles new.cli.req)
    (empty : new.cli.resSet = []) (resolved : new.cli.state = .dnsOk) (unopened : ¬ new.cli.flow.conn.socket > 0)
    {env env' : DnsEnv} {ais : List AddrInfo}
    (reconnects : old.cli.flow.conn.socket > 0 → old.cli.flow.conn.Reconnects env ais) :
    Matched (SentAlike past) ((ecClientOpen platform env ais old).bind (ecClientSettle platform))
      ((ecClientOpen platform env' ais new).bind (ecClientSettle platform)) := by
  rw [ecClientOpen_unconnected unopened]
  by_cases connected : old.cli.flow.conn.socket > 0
  · have known := reconnects connected
    rw [ecClientOpen_connected connected request.sibling.1]
    unfold EcConn.Reconnects at known
    split at known
    · rename_i delivers
      obtain ⟨skipped, ai, rest, rfl, skips, taken, peer⟩ := known
      obtain ⟨length, family⟩ := Option.isSome_iff_exists.mp taken.known
      obtain ⟨last, skipping⟩ := ecClientConnect_skips platform
        (w := {new with cli := new.cli.routed (-1) new.cli.flow.conn.peer}) (ai :: rest) rfl request.sibling.2 skips
      rw [if_pos delivers, skipping, ecClientConnect_taken taken.valid family taken.sent, taken.nonblocking,
        ecPduSend_unpaired (by exact request.sibling.2)]
      have valid : old.cli.flow.conn.socket ≠ -1 := by omega
      have routed := same.routed empty old.cli.flow.conn.socket ai.socket old.cli.flow.conn.peer ai.addr
      have sending : Sending past old {new with cli := new.cli.routed ai.socket ai.addr} :=
        {routed with
          route := ⟨⟨fun closed => absurd closed valid, fun closed => absurd closed taken.valid⟩, peer.symm⟩
          request := request}
      exact sending.logs.waits valid taken.valid
    · rename_i undelivered
      obtain ⟨last, skipping⟩ := ecClientConnect_skips platform
        (w := {new with cli := new.cli.routed (-1) new.cli.flow.conn.peer}) [] rfl request.sibling.2 known
      rw [List.append_nil] at skipping
      rw [if_neg undelivered, ecClientSettle_stopped, skipping, ecClientConnect]
      change Matched _ _ (ecClientSettle platform (_, true))
      rw [ecClientSettle_closed (by rfl)]
      exact (same.routed empty old.cli.flow.conn.socket (-1) old.cli.flow.conn.peer last).stops
  · rw [ecClientOpen_unconnected connected]
    exact (same.routed empty (-1) (-1) _ _).connects request empty resolved rfl rfl ais

end Pairs

end Connecting

/-- A used client and a new one wait for the resolver. -/
structure Resolves (past : List Outline) (old new : CliWork) : Prop where
  same : Mirrors past {old with cli := EcClient.enter {old.cli with dnsReq := false} .dnsOk}
    {new with cli := EcClient.enter {new.cli with dnsReq := false} .dnsOk}
  final : ecClientStateIsFinal old.cli.state = true
  first : new.cli.state = .none
  empty : new.cli.resSet = []
  unconnected : ¬ new.cli.flow.conn.socket > 0
  unregistered : new.cli.registered = false
  method : old.cli.flow.method = new.cli.flow.method
  request : old.cli.req.Reuses new.cli.req
  counted : new.cli.req.opts.noptions = new.cli.req.opts.bundle.list.length

/-- No timer runs in the state. -/
def EcCliState.Still (state : EcCliState) : Prop :=
  state ≠ .reqSent ∧ state ≠ .reqAckd ∧ state ≠ .coapRetry ∧ state ≠ .waitNfy

instance (state : EcCliState) : Decidable state.Still := inferInstanceAs (Decidable (_ ∧ _))

/-- Neither client waits for anything, and the new one does not listen. -/
structure Stilled (past : List Outline) (old new : CliWork) : Prop where
  live : old.cli.freed = false ∧ new.cli.freed = false
  still : old.cli.state.Still ∧ new.cli.state.Still
  unregistered : new.cli.registered = false
  log : old.cli.sent.map Sent.outline = past ++ new.cli.sent.map Sent.outline

section Resolving

variable {platform : Platform} {past : List Outline} {old new : CliWork}

/-- Both requests have the same option count. -/
theorem Resolves.count (resolves : Resolves past old new) (counted : old.cli.req.opts.Counted) :
    old.cli.req.opts.noptions % 16 = new.cli.req.opts.noptions % 16 := by
  have bundles : old.cli.req.opts.bundle = new.cli.req.opts.bundle := resolves.same.bundle
  rw [resolves.counted, ← bundles]
  exact counted

/-- The used client and the new one send one request. -/
theorem Resolves.dnsSend (resolves : Resolves past old new) {env : DnsEnv} {ais : List AddrInfo}
    (found : env.ais = some ais) (counted : old.cli.req.opts.Counted)
    (reconnects : old.cli.flow.conn.socket > 0 → old.cli.flow.conn.Reconnects env ais) (mid : UInt16) :
    Matched (SentAlike past) (ecClientDnsSend platform env old) (ecClientDnsSend platform {env with rng := mid} new) := by
  have permitted : ecClientCheckTransition old.cli.state .dnsOk = true := by simp [ecClientCheckTransition, resolves.final]
  have permitted' : ecClientCheckTransition new.cli.state .dnsOk = true := by simp [ecClientCheckTransition, resolves.first]
  have bundle : (ecPduEncodeRequest platform.order env.rng old.cli.flow old.cli.req).1.opts.bundle =
      (ecPduEncodeRequest platform.order mid new.cli.flow new.cli.req).1.opts.bundle := by
    rw [ecPduEncodeRequest_bundle, ecPduEncodeRequest_bundle]
    exact resolves.same.bundle
  have stored : Mirrors past (old.addressed platform env.rng) (new.addressed platform mid) :=
    resolves.same.requests bundle
  have sets := resolves.request.encoded platform.order resolves.method resolves.same.confirmable env.rng mid
    (resolves.count counted)
  rw [ecClientDnsSend_found found permitted, ecClientDnsSend_found (by exact found) permitted']
  dsimp only
  rcases sets with ⟨failed, failed'⟩ | ⟨encoded, encoded', resembles⟩
  · rw [failed, failed', if_pos (by decide), if_pos (by decide)]
    exact stored.stops
  · rw [encoded, encoded', if_neg (by decide), if_neg (by decide)]
    exact stored.opens resembles resolves.empty rfl resolves.unconnected reconnects

/-- What is left of both clients when a final state ends their transactions. -/
theorem Mirrors.stilled (same : Mirrors past old new) (still : new.cli.state.Still)
    (unregistered : new.cli.registered = false) : Stilled past old new where
  live := same.live
  still := ⟨by rw [same.state]; exact still, still⟩
  unregistered := unregistered
  log := same.log

/-- A live client is as registered as it was. -/
theorem EcClient.Keeps.unregistered {cli next : EcClient} (keeps : cli.Keeps next) (live : next.freed = false)
    (unregistered : cli.registered = false) : next.registered = false := by
  rcases keeps with freed | ⟨_, same⟩
  · rw [live] at freed
    cases freed
  · rw [same]
    exact unregistered

/-- The answer of the resolver leaves both clients waiting for one response, or done. -/
theorem Resolves.dnsCb (resolves : Resolves past old new) {env : DnsEnv} {ais : List AddrInfo}
    (found : env.ais = some ais) (counted : old.cli.req.opts.Counted)
    (reconnects : old.cli.flow.conn.socket > 0 → old.cli.flow.conn.Reconnects env ais) (mid : UInt16) :
    Matched (fun next next' => Mirrors.Sending past next next' ∨ Stilled past next next')
      (ecClientDnsCb platform env old) (ecClientDnsCb platform {env with rng := mid} new) := by
  rw [ecClientDnsCb_send, ecClientDnsCb_send]
  apply (resolves.dnsSend found counted reconnects mid).bind
  intro sent sent' _ made both
  have keeps := ecClientDnsSend_keeps made
  cases both with
  | sent same =>
      have unregistered := keeps.unregistered same.live.2 resolves.unregistered
      dsimp only
      rw [if_neg (by decide : ¬ true = false), if_neg (by decide : ¬ true = false)]
      split
      · apply (same.setState false .internalErr fun retry => by cases retry).map
        intro moved moved' _ made both
        right
        have state := ecClientSetState_state made
        apply both.1.stilled
        · rw [state]
          decide
        · exact (ecClientSetState_keeps made).unregistered both.1.live.2 unregistered
      · exact Or.inl {same with registered := fun _ => rfl}
  | stopped same ended =>
      dsimp only
      rw [if_pos rfl, if_pos rfl]
      right
      apply same.stilled
      · rcases ended with failed | resolved
        · rw [failed]
          decide
        · rw [resolved]
          decide
      · exact keeps.unregistered same.live.2 resolves.unregistered

end Resolving

theorem final_still {state : EcCliState} (final : ecClientStateIsFinal state = true) : state.Still := by
  cases state with
  | none | dnsOk | reqSent | reqAckd | coapRetry | waitNfy => cases final
  | internalErr | dnsFailed | sendFailed | coapTimeout | appTimeout | reqDone | reqRst | obsTimeout => decide

/-- No timer of a client in a still state is armed. -/
theorem ClientSound.still {cli : EcClient} (sound : ClientSound cli.core) (still : cli.state.Still) :
    cli.app.pending = false ∧ cli.coap.pending = false ∧ cli.obs.pending = false := by
  obtain ⟨app, coap, obs⟩ := sound.unsent still
  exact ⟨(sound.appExists.idle app).2, (sound.coapExists.idle coap).2, (sound.obsExists.idle obs).2⟩

/-- What an event that reaches no handler does to a client. -/
def CliWork.idled (w : CliWork) : ClientEvent → CliWork
  | .cancel => {w with cli := ecClientCancelObservation w.cli}
  | .shared dups => {w with dups := dups}
  | _ => w

/-- A client in a still state that hears nothing and has no request for the resolver does nothing. -/
theorem lifeStep_idle (platform : Platform) (life : ClientLife) (live : life.work.cli.freed = false)
    (sound : ClientSound life.work.cli.core) (still : life.work.cli.state.Still) (event : ClientEvent)
    (answered : ∀ env, event = .dns env → life.resolving = 0)
    (unheard : ∀ input, event = .datagram input → ∀ h, ¬ life.work.Hears platform input h) :
    lifeStep platform life (.event event) = .ok {life with work := life.work.idled event} ∧
      life.entries platform (.event event) = [] := by
  obtain ⟨app, coap, obs⟩ := sound.still still
  have alive : ¬ life.work.cli.freed = true := by simp [live]
  cases event with
  | dns env =>
      rw [lifeStep_dns env live, if_pos (answered env rfl)]
      exact ⟨rfl, ClientLife.entries_answered (answered env rfl) env⟩
  | datagram input =>
      rw [lifeStep_event (fun env same => by cases same), clientStep_unheard (unheard input rfl),
        ClientLife.entries_unheard (unheard input rfl)]
      exact ⟨rfl, rfl⟩
  | appTimeout sent =>
      rw [lifeStep_appTimeout sent live, ClientLife.entries, if_neg alive, app]
      exact ⟨rfl, rfl⟩
  | coapTimeout sent =>
      rw [lifeStep_coapTimeout sent live, ClientLife.entries, if_neg alive, coap]
      exact ⟨rfl, rfl⟩
  | obsTimeout sent =>
      rw [lifeStep_obsTimeout sent live, ClientLife.entries, if_neg alive, obs]
      exact ⟨rfl, rfl⟩
  | cancel | shared =>
      rw [lifeStep_event (fun env same => by cases same), clientStep, if_neg alive, ClientLife.entries, if_neg alive]
      exact ⟨rfl, rfl⟩

end Webthings.Evcoap
