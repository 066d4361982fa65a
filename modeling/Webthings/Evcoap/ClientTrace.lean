import Webthings.Evcoap.ClientLife

namespace Webthings.Evcoap
open Webthings.Transition

/-- The states that the loop over the addresses enters, and the ones that follow it. -/
def ecClientConnectStates (registers : Bool) : List AddrInfo → List EcCliState
  | [] => [.internalErr]
  | ai :: ais =>
      if ai.socket = -1 then ecClientConnectStates registers ais
      else
        match ecNetSocklen ai.addr with
        | none => []
        | some _ =>
            if ai.sent = false then ecClientConnectStates registers ais
            else if ai.nonblocking = false then [.internalErr]
            else if registers then [.reqSent] else [.reqSent, .internalErr]

/-- A datagram goes out on a valid socket, to a peer of a known family, when the system takes it. -/
def EcConn.delivers (conn : EcConn) (sent : Bool) : Bool :=
  conn.socket != -1 && (ecNetSocklen conn.peer).isSome && sent

/-- The states that the resolver's callback enters. -/
def ecClientDnsCbStates (platform : Platform) (env : DnsEnv) (cli : EcClient) : List EcCliState :=
  match env.ais with
  | none => [.dnsFailed]
  | some ais =>
      .dnsOk ::
        if (ecPduEncodeRequest platform.order env.rng cli.flow cli.req).2 ≠ 0 then [.internalErr]
        else if cli.flow.conn.socket > 0 then
          if cli.flow.conn.delivers env.sent = false then [.internalErr]
          else if env.registers then [.reqSent] else [.reqSent, .internalErr]
        else ecClientConnectStates env.registers ais

/-- The states that the retransmission timer enters. -/
def ecCliCoapTimeoutStates (sent : Bool) (cli : EcClient) : List EcCliState :=
  if cli.coap.retriesLeft = 0 then [.coapTimeout]
  else [.coapRetry, if cli.flow.conn.delivers sent then .reqSent else .sendFailed]

/-- The state that a message leads to, with the client that the message has been added to. -/
def ecClientHandleNewEntries (platform : Platform) (cli : EcClient) (h : EcHdr) (input : Incoming) : List Entry :=
  if h.code = 0 then
    match h.t with
    | .ack => [cli.entry .reqAckd]
    | .rst => [cli.entry .reqRst]
    | .con | .non => []
  else
    match ecClientTakeResponse platform cli h input with
    | (_, none) => []
    | (taken, some next) => [taken.entry next]

def ecClientHandlePduEntries (platform : Platform) (w : CliWork) (input : Incoming) : List Entry :=
  match ecClientHeader platform.order input.raw with
  | none => []
  | some h =>
      match ecDupsSearch platform w.dups h.mid input.peer with
      | some _ => []
      | none => ecClientHandleNewEntries platform w.cli h input

/-- What an event makes a live client enter: its step appends this to the log. -/
def ClientLife.entries (platform : Platform) (life : ClientLife) (event : LifeEvent) : List Entry :=
  if life.work.cli.freed then []
  else
    match event with
    | .send _ destination =>
        if (life.work.cli.state = .none ∨ ecClientStateIsFinal life.work.cli.state = true) ∧ destination = true then []
        else [life.work.cli.entry .internalErr]
    | .event (.dns env) =>
        if life.resolving = 0 then [] else (ecClientDnsCbStates platform env life.work.cli).map life.work.cli.entry
    | .event (.datagram input) =>
        if life.work.cli.registered then ecClientHandlePduEntries platform life.work input else []
    | .event (.appTimeout _) => if life.work.cli.app.pending then [life.work.cli.entry .appTimeout] else []
    | .event (.coapTimeout sent) =>
        if life.work.cli.coap.pending then (ecCliCoapTimeoutStates sent life.work.cli).map life.work.cli.entry else []
    | .event (.obsTimeout _) => if life.work.cli.obs.pending then [life.work.cli.entry .obsTimeout] else []
    | .event .cancel | .event (.shared _) => []

section Entries

variable {platform : Platform}

theorem ecNetSend_delivers (sent : Bool) (hdr opts payload : List UInt8) (conn : EcConn) :
    (ecNetSend sent hdr opts payload conn.socket conn.peer).isSome = conn.delivers sent := by
  rw [Bool.eq_iff_iff, ecNetSend_isSome]
  simp [EcConn.delivers, and_assoc]

/-- The family of an address is known and its socket valid: its send decides alone. -/
theorem ecNetSend_cases {hdr opts payload : List UInt8} {sd : Int} {peer : SockAddr} {length : Nat} (sent : Bool)
    (valid : sd ≠ -1) (known : ecNetSocklen peer = some length) :
    ecNetSend sent hdr opts payload sd peer = if sent then some ⟨hdr, opts, payload, sd, peer⟩ else none := by
  unfold ecNetSend
  rw [if_neg valid, known]

/-- The client with another socket and another peer. -/
def EcClient.routed (cli : EcClient) (socket : Int) (peer : SockAddr) : EcClient :=
  {cli with flow := {cli.flow with conn := {cli.flow.conn with socket := socket, peer := peer}}}

section Turns

variable {w : CliWork} {ai : AddrInfo} {ais : List AddrInfo} {length : Nat}

/-- An address for which there is no socket is skipped. -/
theorem ecClientConnect_unopened (unopened : ai.socket = -1) : ecClientConnect platform (ai :: ais) w =
    ecClientConnect platform ais {w with cli := w.cli.routed (-1) w.cli.flow.conn.peer} := by
  rw [ecClientConnect, if_pos unopened, unopened]
  rfl

/-- An address that does not take the request is closed. -/
theorem ecClientConnect_failed (valid : ai.socket ≠ -1) (known : ecNetSocklen ai.addr = some length)
    (failed : ai.sent = false) : ecClientConnect platform (ai :: ais) w = ecClientConnect platform ais
      ⟨w.cli.routed (-1) ai.addr,
        (ecPduSend platform false (w.cli.routed ai.socket ai.addr).flow w.cli.req w.dups true).dups⟩ := by
  rw [ecClientConnect]
  dsimp only
  rw [if_neg valid, known]
  dsimp only
  rw [ecPduSend_datagram, ecNetSend_cases ai.sent valid known, failed]
  rfl

/-- The first address that takes the request is kept. -/
theorem ecClientConnect_taken (valid : ai.socket ≠ -1) (known : ecNetSocklen ai.addr = some length)
    (went : ai.sent = true) : ecClientConnect platform (ai :: ais) w =
      (ecClientSetState platform false
        ⟨(w.cli.routed ai.socket ai.addr).log .request
            (some ⟨w.cli.req.hdr, w.cli.req.opts.wire, w.cli.req.payload, ai.socket, ai.addr⟩),
          (ecPduSend platform true (w.cli.routed ai.socket ai.addr).flow w.cli.req w.dups true).dups⟩
        (if ai.nonblocking then .reqSent else .internalErr)).map fun moved => (moved.1, ai.nonblocking) := by
  rw [ecClientConnect]
  dsimp only
  rw [if_neg valid, known]
  dsimp only
  rw [ecPduSend_datagram, ecNetSend_cases ai.sent valid known, went]
  cases ai.nonblocking <;> rfl

/-- An address of an unknown family ends the callback. -/
theorem ecClientConnect_unknown (valid : ai.socket ≠ -1) (unknown : ecNetSocklen ai.addr = none) :
    ecClientConnect platform (ai :: ais) w =
      .ok ({w with cli := w.cli.routed ai.socket w.cli.flow.conn.peer}, false) := by
  rw [ecClientConnect]
  dsimp only
  rw [if_neg valid, unknown]
  rfl

/-- A client without a socket opens one. -/
theorem ecClientOpen_unconnected {env : DnsEnv} {ais : List AddrInfo} (unconnected : ¬ w.cli.flow.conn.socket > 0) :
    ecClientOpen platform env ais w =
      ecClientConnect platform ais {w with cli := w.cli.routed (-1) w.cli.flow.conn.peer} := by
  unfold ecClientOpen
  rw [if_neg unconnected]
  rfl

end Turns

/-- A state that ends nothing and calls nobody back leaves the later ones what they tell. -/
theorem ecClientSetState_passes {sent : Bool} {w : CliWork} {next : EcCliState} {moved : CliWork × Bool}
    (silent : (ecClientStateIsFinal next || next == .waitNfy) = false)
    (made : ecClientSetState platform sent w next = .ok moved) : moved.1.cli.entry = w.cli.entry := by
  unfold ecClientSetState at made
  split at made
  · cases made
  · dsimp only at made
    split at made
    · cases made
    · rename_i entered entering
      obtain ⟨app, coap, obs, log, frame⟩ := ecClientEnter_frame entering
      rw [silent, Bool.false_and, Bool.or_false, (Bool.or_eq_false_iff.mp silent).1] at made
      cases made
      dsimp only
      rw [frame]
      rfl

/-- The states of the loop are those that it logs, and the failure that the callback logs after it. -/
theorem ecClientConnect_entered (registers : Bool) {ais : List AddrInfo} {w : CliWork} {opened : CliWork × Bool}
    (closed : w.cli.flow.conn.socket = -1) (done : ecClientConnect platform ais w = .ok opened) :
    w.cli.entered ++ (ecClientConnectStates registers ais).map w.cli.entry = opened.1.cli.entered ++
      if opened.2 = true ∧ (opened.1.cli.flow.conn.socket = -1 ∨ registers = false) then
        [opened.1.cli.entry .internalErr]
      else [] := by
  induction ais generalizing w with
  | nil =>
      cases done
      rw [if_pos ⟨rfl, Or.inl closed⟩]
      rfl
  | cons ai ais ih =>
      rw [ecClientConnectStates]
      by_cases unopened : ai.socket = -1
      · rw [ecClientConnect_unopened unopened] at done
        rw [if_pos unopened]
        exact ih (w := {w with cli := w.cli.routed (-1) w.cli.flow.conn.peer}) rfl done
      · rw [if_neg unopened]
        cases known : ecNetSocklen ai.addr with
        | none =>
            rw [ecClientConnect_unknown unopened known] at done
            cases done
            dsimp only
            rw [if_neg (by simp)]
            rfl
        | some length =>
            dsimp only
            cases went : ai.sent with
            | false =>
                rw [ecClientConnect_failed unopened known went] at done
                exact ih (w := ⟨w.cli.routed (-1) ai.addr, _⟩) rfl done
            | true =>
                rw [ecClientConnect_taken unopened known went] at done
                obtain ⟨moved, made, same⟩ := map_ok done
                subst same
                have log : moved.1.cli.entered =
                    w.cli.entered ++ [w.cli.entry (if ai.nonblocking then .reqSent else .internalErr)] := by
                  rw [ecClientSetState_entered made]
                  rfl
                have socket : moved.1.cli.flow.conn.socket = ai.socket := by rw [(ecClientSetState_line made).1]; rfl
                dsimp only
                rw [socket, log, if_neg (by simp)]
                cases nonblocking : ai.nonblocking with
                | false => simp
                | true =>
                    rw [nonblocking] at made
                    have tells : moved.1.cli.entry = w.cli.entry := by
                      rw [ecClientSetState_passes rfl made]
                      rfl
                    rw [tells]
                    cases registers <;> simp [unopened]

theorem ecClientOpen_entered {env : DnsEnv} {ais : List AddrInfo} {w : CliWork} {opened : CliWork × Bool}
    (done : ecClientOpen platform env ais w = .ok opened) :
    w.cli.entered ++ List.map w.cli.entry
        (if w.cli.flow.conn.socket > 0 then
          if w.cli.flow.conn.delivers env.sent = false then [.internalErr]
          else if env.registers then [.reqSent] else [.reqSent, .internalErr]
        else ecClientConnectStates env.registers ais) = opened.1.cli.entered ++
      if opened.2 = true ∧ (opened.1.cli.flow.conn.socket = -1 ∨ env.registers = false) then
        [opened.1.cli.entry .internalErr]
      else [] := by
  unfold ecClientOpen at done
  dsimp only at done
  split at done
  · rename_i positive
    rw [if_pos positive]
    rw [ecPduSend_datagram] at done
    split at done
    · rename_i failed
      obtain ⟨moved, made, same⟩ := map_ok done
      subst same
      have unsent : w.cli.flow.conn.delivers env.sent = false := by
        rw [← ecNetSend_delivers, failed]
        rfl
      rw [if_pos unsent, if_neg (by simp), ecClientSetState_entered made, List.append_nil]
      rfl
    · rename_i datagram went
      obtain ⟨moved, made, same⟩ := map_ok done
      subst same
      have sending : w.cli.flow.conn.delivers env.sent = true := by
        rw [← ecNetSend_delivers, went]
        rfl
      have log : moved.1.cli.entered = w.cli.entered ++ [w.cli.entry .reqSent] := by
        rw [ecClientSetState_entered made]
        rfl
      have tells : moved.1.cli.entry = w.cli.entry := by
        rw [ecClientSetState_passes rfl made]
        rfl
      have socket : moved.1.cli.flow.conn.socket = w.cli.flow.conn.socket := by rw [(ecClientSetState_line made).1]; rfl
      have valid : w.cli.flow.conn.socket ≠ -1 := by omega
      dsimp only
      rw [if_neg (by simp [sending]), socket, log, tells]
      cases env.registers <;> simp [valid]
  · rename_i negative
    rw [if_neg negative]
    have connected := ecClientConnect_entered env.registers (by rfl) done
    exact connected

/-- The resolver's callback logs the states that it enters. -/
theorem ecClientDnsCb_entered {env : DnsEnv} {w next : CliWork} (done : ecClientDnsCb platform env w = .ok next) :
    next.cli.entered = w.cli.entered ++ (ecClientDnsCbStates platform env w.cli).map w.cli.entry := by
  unfold ecClientDnsCbStates
  cases ecClientDnsCb_work done with
  | unresolved absent ended =>
      obtain ⟨moved, made, same⟩ := map_ok ended
      subst same
      rw [absent, ecClientSetState_entered made]
      rfl
  | unencoded ais found permitted refused ended =>
      obtain ⟨moved, made, same⟩ := map_ok ended
      subst same
      rw [found]
      dsimp only
      rw [if_pos refused, ecClientSetState_entered made, List.map_cons, List.append_cons w.cli.entered]
      rfl
  | opened ais found permitted encoded opened goesOn opening ended =>
      have entered := ecClientOpen_entered opening
      rw [found]
      dsimp only
      rw [if_neg (not_not.mpr encoded), List.map_cons, List.append_cons w.cli.entered]
      refine Eq.trans ?_ entered.symm
      rcases ended with ⟨returned, same⟩ | ⟨on, unsettled, failed⟩ | ⟨_, settled, same⟩
      · subst same
        rw [if_neg (by simp [returned]), List.append_nil]
      · obtain ⟨moved, made, same⟩ := map_ok failed
        subst same
        rw [if_pos ⟨on, unsettled⟩]
        exact ecClientSetState_entered made
      · subst same
        rw [if_neg fun both => settled both.2, List.append_nil]

theorem ecCliCoapTimeout_entered {sent : Bool} {w next : CliWork} (done : ecCliCoapTimeout platform sent w = .ok next) :
    next.cli.entered = w.cli.entered ++ (ecCliCoapTimeoutStates sent w.cli).map w.cli.entry := by
  unfold ecCliCoapTimeout at done
  unfold ecCliCoapTimeoutStates
  split at done
  · rename_i exhausted
    obtain ⟨moved, made, same⟩ := map_ok done
    subst same
    rw [if_pos exhausted]
    exact ecClientSetState_entered made
  · rename_i left
    split at done
    · cases done
    · rename_i retried ended retrying
      have line := ecClientSetState_line retrying
      have log := ecClientSetState_entered retrying
      have tells := ecClientSetState_passes rfl retrying
      dsimp only at line log tells
      obtain ⟨moved, made, same⟩ := map_ok done
      subst same
      rw [ecPduSend_datagram, ecNetSend_delivers, line.1] at made
      have went : moved.1.cli.entered = retried.cli.entered ++
          [retried.cli.entry (if w.cli.flow.conn.delivers sent then .reqSent else .sendFailed)] := by
        rw [ecClientSetState_entered made]
        rfl
      rw [if_neg left, went, log, tells, List.append_assoc]
      rfl

/-- A response is taken in without a transition. -/
theorem ecClientTakeResponse_entered (platform : Platform) (cli : EcClient) (h : EcHdr) (input : Incoming) :
    (ecClientTakeResponse platform cli h input).1.entered = cli.entered := by
  by_cases taken : cli.TakesIn h input
  · rw [ecClientTakeResponse_taken platform taken]
    cases cli.judged platform.order h input <;> rfl
  · rw [ecClientTakeResponse_refused platform taken]

theorem ecClientHandleNew_entered {w : CliWork} {h : EcHdr} {input : Incoming} {handled : CliWork × EcNetCbrc}
    (done : ecClientHandleNew platform w h input = .ok handled) :
    handled.1.cli.entered = w.cli.entered ++ ecClientHandleNewEntries platform w.cli h input := by
  unfold ecClientHandleNewEntries
  by_cases code : h.code = 0
  · rw [if_pos code]
    rcases ecClientHandleNew_empty code done with ⟨next, moved, ⟨type, rfl⟩ | ⟨type, rfl⟩, made, same⟩ | ⟨noAck, noRst, same⟩
    · subst same
      rw [type]
      exact ecClientSetState_entered made
    · subst same
      rw [type]
      exact ecClientSetState_entered made
    · subst same
      cases type : h.t with
      | ack => exact absurd type noAck
      | rst => exact absurd type noRst
      | con | non => exact (List.append_nil _).symm
  · rw [if_neg code]
    have log := ecClientTakeResponse_entered platform w.cli h input
    unfold ecClientHandleNew at done
    rw [if_neg code] at done
    dsimp only at done
    generalize ecClientTakeResponse platform w.cli h input = taken at done log
    obtain ⟨cli, next⟩ := taken
    cases next with
    | none =>
        cases done
        rw [List.append_nil]
        exact log
    | some next =>
        obtain ⟨moved, made, same⟩ := map_ok done
        have went := ecClientSetState_entered made
        dsimp only at went log ⊢
        rw [← log, ← went, ← same]
        split
        · rfl
        · split <;> rfl

/-- A datagram that is heard enters the states of its handling. -/
theorem ClientLife.entries_hears {life : ClientLife} {input : Incoming} {h : EcHdr}
    (hears : life.work.Hears platform input h) : life.entries platform (.event (.datagram input)) =
      ecClientHandleNewEntries platform life.work.cli h input := by
  unfold entries ecClientHandlePduEntries
  dsimp only
  rw [if_neg (by simp [hears.live]), if_pos hears.registered, hears.header]
  dsimp only
  rw [hears.fresh]

/-- A datagram that is not heard enters none. -/
theorem ClientLife.entries_unheard {life : ClientLife} {input : Incoming}
    (unheard : ∀ h, ¬ life.work.Hears platform input h) : life.entries platform (.event (.datagram input)) = [] := by
  unfold entries ecClientHandlePduEntries
  split
  · rfl
  · rename_i live
    dsimp only
    split
    · rename_i registered
      cases header : ecClientHeader platform.order input.raw with
      | none => rfl
      | some h =>
          dsimp only
          cases found : ecDupsSearch platform life.work.dups h.mid input.peer with
          | some recvd => rfl
          | none => exact absurd ⟨by simpa using live, registered, header, found⟩ (unheard h)
    · rfl

/-- A resolver that has answered enters none. -/
theorem ClientLife.entries_answered {life : ClientLife} (answered : life.resolving = 0) (env : DnsEnv) :
    life.entries platform (.event (.dns env)) = [] := by
  simp [entries, answered]

/-- Work that is done on a condition logs its entries on that condition. -/
theorem entered_if {life next : ClientLife} {armed : Bool} {work : Except EcFault CliWork} {entries : List Entry}
    (worked : ∀ result, work = .ok result → result.cli.entered = life.work.cli.entered ++ entries)
    (stepped : (if armed then work.map (fun work => ClientLife.mk work life.resolving) else .ok life) = .ok next) :
    next.work.cli.entered = life.work.cli.entered ++ if armed then entries else [] := by
  cases armed with
  | false =>
      cases stepped
      exact (List.append_nil _).symm
  | true =>
      obtain ⟨result, done, same⟩ := map_ok stepped
      subst same
      exact worked result done

/-- A single transition logs the state that was asked for. -/
theorem entered_one {w : CliWork} {next : EcCliState} {sent : Bool} :
    ∀ result, (ecClientSetState platform sent w next).map (fun moved => moved.1) = .ok result →
      result.cli.entered = w.cli.entered ++ [w.cli.entry next] := by
  intro result done
  obtain ⟨moved, made, same⟩ := map_ok done
  rw [← same]
  exact ecClientSetState_entered made

/-- The log of a client has the entries of a step after those that it had. -/
theorem lifeStep_entered {life next : ClientLife} {event : LifeEvent} (stepped : lifeStep platform life event = .ok next) :
    next.work.cli.entered = life.work.cli.entered ++ life.entries platform event := by
  cases freed : life.work.cli.freed with
  | true =>
      rw [lifeStep_freed freed stepped]
      unfold ClientLife.entries
      rw [freed]
      exact (List.append_nil _).symm
  | false =>
      have live : ¬ life.work.cli.freed = true := by simp [freed]
      cases event with
      | send tout destination =>
          rw [lifeStep_send tout destination freed] at stepped
          obtain ⟨gone, going, same⟩ := map_ok stepped
          subst same
          rw [ClientLife.entries, if_neg live]
          unfold ecClientGo at going
          split at going
          · rename_i goes
            cases going
            rw [if_pos goes]
            exact (List.append_nil _).symm
          · rename_i stays
            obtain ⟨moved, made, same⟩ := map_ok going
            subst same
            rw [if_neg stays]
            exact ecClientSetState_entered made
      | event event =>
          cases event with
          | dns env =>
              rw [lifeStep_dns env freed] at stepped
              rw [ClientLife.entries, if_neg live]
              split at stepped
              · rename_i answered
                cases stepped
                rw [if_pos answered]
                exact (List.append_nil _).symm
              · rename_i outstanding
                obtain ⟨work, resolved, same⟩ := map_ok stepped
                subst same
                dsimp only
                rw [if_neg outstanding]
                exact ecClientDnsCb_entered resolved
          | datagram input =>
              by_cases heard : ∃ h, life.work.Hears platform input h
              · obtain ⟨h, hears⟩ := heard
                rw [lifeStep_hears hears] at stepped
                obtain ⟨handled, handling, same⟩ := map_ok stepped
                subst same
                have entered := ecClientHandleNew_entered handling
                rw [ClientLife.entries_hears hears]
                exact entered
              · have unheard : ∀ h, ¬ life.work.Hears platform input h := fun h hears => heard ⟨h, hears⟩
                rw [lifeStep_event (fun env same => by cases same), clientStep_unheard unheard] at stepped
                cases stepped
                rw [ClientLife.entries_unheard unheard]
                exact (List.append_nil _).symm
          | appTimeout sent =>
              rw [lifeStep_appTimeout sent freed] at stepped
              rw [ClientLife.entries, if_neg live]
              apply entered_if (fun result done => ?_) stepped
              have entered := entered_one result done
              exact entered
          | coapTimeout sent =>
              rw [lifeStep_coapTimeout sent freed] at stepped
              rw [ClientLife.entries, if_neg live]
              apply entered_if (fun result done => ?_) stepped
              have entered := ecCliCoapTimeout_entered done
              exact entered
          | obsTimeout sent =>
              rw [lifeStep_obsTimeout sent freed] at stepped
              rw [ClientLife.entries, if_neg live]
              apply entered_if (fun result done => ?_) stepped
              have entered := entered_one result done
              exact entered
          | cancel | shared =>
              rw [lifeStep_event (fun env same => by cases same), clientStep, if_neg live] at stepped
              cases stepped
              rw [ClientLife.entries, if_neg live]
              exact (List.append_nil _).symm

/-- What a client has entered since it was another. -/
def EcClient.enteredSince (after before : EcClient) : List Entry := after.entered.drop before.entered.length

theorem lifeStep_enteredSince {life next : ClientLife} {event : LifeEvent}
    (stepped : lifeStep platform life event = .ok next) :
    next.work.cli.enteredSince life.work.cli = life.entries platform event := by
  unfold EcClient.enteredSince
  rw [lifeStep_entered stepped, List.drop_left]

end Entries

end Webthings.Evcoap
