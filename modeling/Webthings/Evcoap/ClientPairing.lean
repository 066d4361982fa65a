import Webthings.Evcoap.ClientResponses

namespace Webthings.Evcoap
open Webthings.Transition

/-- The user's token, or a random one when there is none, goes into the request and the flow. -/
def ecRequestAddToken (cli : EcClient) (t rng : List UInt8) : Option (EcClient × Int) :=
  let tok := if t = [] then rng else t
  let added := ecOptsAddToken cli.req.opts tok
  let requested : EcClient := {cli with req := {cli.req with opts := added.1}}
  if added.2 ≠ 0 then some (requested, -1)
  else (ecFlowSaveToken cli.flow tok).map fun flow => ({requested with flow := flow}, 0)

/-- The flow knows the token that the request carries. -/
def EcClient.KnowsToken (cli : EcClient) : Prop := cli.flow.token = requestToken cli.req.opts

/-- A live registered client gets a message that is no duplicate. -/
structure CliWork.Hears (platform : Platform) (w : CliWork) (input : Incoming) (h : EcHdr) : Prop where
  live : w.cli.freed = false
  registered : w.cli.registered = true
  header : ecClientHeader platform.order input.raw = some h
  fresh : ecDupsSearch platform w.dups h.mid input.peer = none

/-- The client with the record of a new message. -/
def CliWork.seen (platform : Platform) (w : CliWork) (input : Incoming) (h : EcHdr) : CliWork :=
  {w with dups := ecDupsInsert platform w.dups input.peer h.mid input.raw}

section Messages

variable {platform : Platform} {w : CliWork} {input : Incoming} {h : EcHdr}

theorem ecClientHandlePdu_hears (hears : w.Hears platform input h) : ecClientHandlePdu platform w input =
    (ecClientHandleNew platform (w.seen platform input h) h input).map fun handled => ⟨handled.1, handled.2, none⟩ :=
  ecClientHandlePdu_new platform w input h hears.header hears.fresh

/-- The response moves the client to one of its states: it is taken in, is not out of date, and can be followed. -/
def EcClient.Moves (order : ByteOrder) (cli : EcClient) (h : EcHdr) (input : Incoming) : Prop :=
  cli.TakesIn h input ∧ ∃ observe, cli.judged order h input = some observe ∧ cli.CanFollow observe.asks

/-- A response that moves the client is handled without an error. -/
theorem ecClientHandlePdu_moved (hears : w.Hears platform input h) (code : h.code ≠ 0)
    (moves : w.cli.Moves platform.order h input) : ∃ observe handled,
      w.cli.judged platform.order h input = some observe ∧ ecClientHandlePdu platform w input = .ok handled ∧
      handled.rc ≠ .error ∧ w.cli.Answered platform.order h input observe handled.work.cli := by
  obtain ⟨taken, observe, judged, follows⟩ := moves
  have seen : (w.seen platform input h).cli.TakesIn h input := taken
  obtain ⟨w', rc, answered, accepted, became⟩ := ecClientHandleNew_answered platform code seen judged follows
  rw [ecClientHandlePdu_hears hears, answered]
  exact ⟨observe, _, judged, rfl, accepted, became⟩

/-- A response that is handled without an error is one that moves the client. -/
theorem ecClientHandlePdu_accepted (hears : w.Hears platform input h) (code : h.code ≠ 0) {handled : CliHandled}
    (outcome : ecClientHandlePdu platform w input = .ok handled) (accepted : handled.rc ≠ .error) :
    w.cli.Moves platform.order h input := by
  rw [ecClientHandlePdu_hears hears] at outcome
  obtain ⟨answer, handling, same⟩ := map_ok outcome
  subst same
  rcases ecClientHandleNew_response code handling with ⟨_, refused⟩ | ⟨_, _, stale⟩ |
    ⟨observe, taken, judged, follows, _⟩
  · exact absurd (congrArg Prod.snd refused) accepted
  · exact absurd (congrArg Prod.snd stale) accepted
  · exact ⟨taken, observe, judged, follows⟩

end Messages

/-- A response moves the client to the end of its request, or to the next notification, only if it has the token that
the request carries. -/
def TokenPaired (platform : Platform) (w : CliWork) (event : ClientEvent) : Prop :=
  match event with
  | .datagram input => ∀ h handled, w.Hears platform input h → h.code ≠ 0 →
      ecClientHandlePdu platform w input = .ok handled → handled.rc ≠ .error →
      handled.work.cli.state = .reqDone ∨ handled.work.cli.state = .waitNfy →
      requestToken input.opts = requestToken w.cli.req.opts
  | _ => True

/-- A response that moves the client has a Token option and meets a flow that knows the token of the request, or it has
none and the request's token is empty. -/
def TokenPresent (platform : Platform) (w : CliWork) (event : ClientEvent) : Prop :=
  match event with
  | .datagram input => ∀ h, w.Hears platform input h → h.code ≠ 0 → w.cli.Moves platform.order h input →
      match ecOptsGet input.opts .token with
      | some _ => w.cli.KnowsToken
      | none => requestToken w.cli.req.opts = []
  | _ => True

/-- A response that moves the client has the token of the request when its own Token option, or none, says so. -/
theorem EcClient.TakesIn.token_iff {cli : EcClient} {h : EcHdr} {input : Incoming} (taken : cli.TakesIn h input) :
    requestToken input.opts = requestToken cli.req.opts ↔
      match ecOptsGet input.opts .token with
      | some _ => cli.KnowsToken
      | none => requestToken cli.req.opts = [] := by
  unfold KnowsToken
  cases found : ecOptsGet input.opts .token with
  | none =>
      have empty : requestToken input.opts = [] := by
        unfold requestToken
        rw [found]
        rfl
      rw [empty]
      exact eq_comm
  | some t =>
      have own : requestToken input.opts = cli.flow.token := by
        rw [← taken.token t found]
        unfold requestToken
        rw [found]
        rfl
      rw [own]

/-- The tokens are paired in all steps of a run exactly when none of its responses lacks the Token option. -/
theorem clientRun_tokens_iff (platform : Platform) (w : CliWork) (events : List ClientEvent) :
    (clientMachine platform).Meets (TokenPaired platform) w events ↔
      (clientMachine platform).Meets (TokenPresent platform) w events := by
  apply (clientMachine platform).meets_congr
  intro w event
  cases event with
  | datagram input =>
      constructor
      · intro paired h hears code moves
        obtain ⟨observe, handled, _, outcome, accepted, became⟩ := ecClientHandlePdu_moved hears code moves
        apply moves.1.token_iff.mp
        apply paired h handled hears code outcome accepted
        rw [became.state]
        exact observe.asks_cases.symm
      · intro present h handled hears code outcome accepted _
        have moves := ecClientHandlePdu_accepted hears code outcome accepted
        exact moves.1.token_iff.mpr (present h hears code moves)
  | dns env => exact Iff.rfl
  | appTimeout sent => exact Iff.rfl
  | coapTimeout sent => exact Iff.rfl
  | obsTimeout sent => exact Iff.rfl
  | cancel => exact Iff.rfl
  | shared dups => exact Iff.rfl

/-- A confirmable GET with the token AA. -/
def tokenedGet : EcClient := ((ecRequestAddToken confirmableGet [0xaa] []).getD (confirmableGet, -1)).1

/-- A piggybacked 2.05 response with the MID of the request and no options. -/
def tokenlessContent : Incoming := ⟨[0x60, 0x45, 0, 1], fun _ => 0, 5, loopback, 0, true, true⟩

/-- The response without a token ends the request with one. -/
theorem tokenlessContent_unpaired : ¬ ∀ platform w tout destination events start rc, w.cli.Fresh →
    ecClientGo platform w tout destination = .ok (start, rc) →
      (clientMachine platform).Meets (TokenPaired platform) start events := by
  intro always
  have run : ∃ start w h handled, ecClientGo loopbackPlatform ⟨tokenedGet, EcDups.empty⟩ none true = .ok (start, 0) ∧
      clientStep loopbackPlatform start (.dns resolvedOnce) = .ok w ∧ w.cli.freed = false ∧ w.cli.registered = true ∧
      ecClientHeader .little tokenlessContent.raw = some h ∧
      ecDupsSearch loopbackPlatform w.dups h.mid loopback = none ∧ h.code ≠ 0 ∧
      ecClientHandlePdu loopbackPlatform w tokenlessContent = .ok handled ∧ handled.rc ≠ .error ∧
      handled.work.cli.state = .reqDone ∧ requestToken w.cli.req.opts = [0xaa] ∧
      requestToken tokenlessContent.opts = [] :=
    ⟨_, _, _, _, rfl, rfl, rfl, rfl, rfl, rfl, by decide, rfl, by decide, rfl, rfl, rfl⟩
  obtain ⟨start, w, h, handled, started, resolved, live, registered, header, fresh, code, outcome, accepted, state,
    sent, received⟩ := run
  have meets := always loopbackPlatform ⟨tokenedGet, EcDups.empty⟩ none true
    [.dns resolvedOnce, .datagram tokenlessContent] start 0 ⟨rfl, rfl, rfl, rfl, rfl, rfl, rfl⟩ started
  have paired := (meets.2 w resolved).1 h handled ⟨live, registered, header, fresh⟩ code outcome accepted (Or.inl state)
  rw [sent, received] at paired
  cases paired

/-- Entering a state changes the timers and the log alone, and the timer for notifications only where it waits for them. -/
theorem ecClientEnter_timers {platform : Platform} {sent isCon : Bool} {next : EcCliState} {w entered : CliWork}
    (entering : ecClientEnter platform sent isCon next w = .ok entered) :
    ∃ app coap obs log, entered.cli = {w.cli with app := app, coap := coap, obs := obs, sent := log} ∧
      (next ≠ .waitNfy → obs = w.cli.obs) := by
  unfold ecClientEnter at entering
  cases next with
  | reqSent =>
      dsimp only at entering
      split at entering
      · split at entering
        · cases entering
        · cases entering
          cases isCon <;> exact ⟨_, _, _, _, rfl, fun _ => rfl⟩
      · split at entering
        · split at entering
          · cases entering
          · rename_i restarted
            cases entering
            obtain ⟨_, _, same⟩ := Option.map_eq_some_iff.mp restarted
            rw [← same]
            exact ⟨_, _, _, _, rfl, fun _ => rfl⟩
        · cases entering
          exact ⟨_, _, _, _, rfl, fun _ => rfl⟩
  | waitNfy =>
      dsimp only at entering
      split at entering
      · split at entering
        · cases entering
        · rename_i restarted
          cases entering
          obtain ⟨_, _, same⟩ := Option.map_eq_some_iff.mp restarted
          rw [← same]
          exact ⟨_, _, _, _, rfl, fun other => absurd rfl other⟩
      · cases isCon with
        | true =>
            rw [if_pos rfl] at entering
            split at entering
            · cases entering
            · cases entering
              exact ⟨_, _, _, _, rfl, fun other => absurd rfl other⟩
        | false =>
            rw [if_neg Bool.false_ne_true] at entering
            split at entering
            · cases entering
            · cases entering
              exact ⟨_, _, _, _, rfl, fun other => absurd rfl other⟩
  | reqAckd =>
      cases entering
      cases isCon <;> exact ⟨_, _, _, _, rfl, fun _ => rfl⟩
  | reqDone =>
      cases entering
      split
      · obtain ⟨log, framed⟩ := ecClientSendAck_frame platform sent w
        exact ⟨_, _, _, log, framed, fun _ => rfl⟩
      · exact ⟨_, _, _, _, rfl, fun _ => rfl⟩
  | none | dnsOk | coapRetry | internalErr | dnsFailed | sendFailed | coapTimeout | appTimeout | reqRst | obsTimeout =>
      cases entering
      exact ⟨_, _, _, _, rfl, fun _ => rfl⟩

theorem ecClientEnter_frame {platform : Platform} {sent isCon : Bool} {next : EcCliState} {w entered : CliWork}
    (entering : ecClientEnter platform sent isCon next w = .ok entered) :
    ∃ app coap obs log, entered.cli = {w.cli with app := app, coap := coap, obs := obs, sent := log} := by
  obtain ⟨app, coap, obs, log, framed, _⟩ := ecClientEnter_timers entering
  exact ⟨app, coap, obs, log, framed⟩

/-- A transition that is made enters its state, and ends the transaction or goes on. -/
theorem ecClientSetState_made {platform : Platform} {sent : Bool} {w : CliWork} {next : EcCliState}
    {moved : CliWork × Bool} (made : ecClientSetState platform sent w next = .ok moved) :
    ∃ entered log, ecClientEnter platform sent (w.cli.flow.conn.isConfirmable.getD false) next w = .ok entered ∧
      (moved.2 = true ∧ moved.1.cli = ecClientFinish (w.cli.flow.conn.isConfirmable.getD false)
          (EcClient.enter {entered.cli with sent := log} next) ∨
        moved.2 = false ∧ ecClientStateIsFinal next = false ∧
          moved.1 = {entered with cli := entered.cli.enter next}) := by
  unfold ecClientSetState at made
  split at made
  · cases made
  · dsimp only at made
    split at made
    · cases made
    · rename_i entered entering
      obtain ⟨log, reset⟩ := ecClientRstPeer_frame platform sent {entered with cli := entered.cli.enter next}
      split at made
      · cases made
        dsimp only
        split
        · exact ⟨entered, log, entering, Or.inl ⟨rfl, by rw [reset]; rfl⟩⟩
        · exact ⟨entered, entered.cli.sent, entering, Or.inl ⟨rfl, rfl⟩⟩
      · rename_i continues
        obtain ⟨unfinished, uncancelled⟩ := Bool.or_eq_false_iff.mp (Bool.not_eq_true _ ▸ continues)
        rw [uncancelled] at made
        cases made
        exact ⟨entered, entered.cli.sent, entering, Or.inr ⟨rfl, unfinished, rfl⟩⟩

/-- A transition that is made reaches the state that was asked for. -/
theorem ecClientSetState_state {platform : Platform} {sent : Bool} {w : CliWork} {next : EcCliState}
    {moved : CliWork × Bool} (made : ecClientSetState platform sent w next = .ok moved) : moved.1.cli.state = next := by
  obtain ⟨entered, log, _, ⟨_, ended⟩ | ⟨_, _, goes⟩⟩ := ecClientSetState_made made
  · rw [ended, (ecClientFinish_kept _ _).1]
    rfl
  · rw [goes]
    rfl

theorem ecClientFinish_entered (isCon : Bool) (cli : EcClient) : (ecClientFinish isCon cli).entered = cli.entered := by
  unfold ecClientFinish
  cases isCon <;> cases cli.userown <;> rfl

/-- The user keeps his client at the end, and the engine frees its own. -/
theorem ecClientFinish_freed (isCon : Bool) (cli : EcClient) :
    (ecClientFinish isCon cli).freed = (cli.freed || !cli.userown) := by
  unfold ecClientFinish
  cases isCon <;> cases cli.userown <;> simp [ecCliStopAppTimer, ecCliStopCoapTimer, ecCliStopObsTimer]

/-- A transition that is made is logged. -/
theorem ecClientSetState_entered {platform : Platform} {sent : Bool} {w : CliWork} {next : EcCliState}
    {moved : CliWork × Bool} (made : ecClientSetState platform sent w next = .ok moved) :
    moved.1.cli.entered = w.cli.entered ++ [w.cli.entry next] := by
  obtain ⟨entered, log, entering, outcome⟩ := ecClientSetState_made made
  obtain ⟨app, coap, obs, sent, frame⟩ := ecClientEnter_frame entering
  rcases outcome with ⟨_, ended⟩ | ⟨_, _, goes⟩
  · rw [ended, ecClientFinish_entered, frame]
    rfl
  · rw [goes, frame]
    rfl

theorem ecClientFinish_line (isCon : Bool) (cli : EcClient) :
    (ecClientFinish isCon cli).flow = cli.flow ∧ (ecClientFinish isCon cli).req = cli.req := by
  unfold ecClientFinish
  cases isCon <;> cases cli.userown <;> exact ⟨rfl, rfl⟩

/-- A transition that is made keeps the flow and the request. -/
theorem ecClientSetState_line {platform : Platform} {sent : Bool} {w : CliWork} {next : EcCliState}
    {moved : CliWork × Bool} (made : ecClientSetState platform sent w next = .ok moved) :
    moved.1.cli.flow = w.cli.flow ∧ moved.1.cli.req = w.cli.req := by
  obtain ⟨entered, log, entering, ⟨_, ended⟩ | ⟨_, _, goes⟩⟩ := ecClientSetState_made made
  · obtain ⟨app, coap, obs, sent, frame⟩ := ecClientEnter_frame entering
    rw [ended, (ecClientFinish_line _ _).1, (ecClientFinish_line _ _).2, frame]
    exact ⟨rfl, rfl⟩
  · obtain ⟨app, coap, obs, sent, frame⟩ := ecClientEnter_frame entering
    rw [goes, frame]
    exact ⟨rfl, rfl⟩

/-- A transition that is made is permitted. -/
theorem ecClientSetState_permitted {platform : Platform} {sent : Bool} {w : CliWork} {next : EcCliState}
    {moved : CliWork × Bool} (made : ecClientSetState platform sent w next = .ok moved) :
    ecClientCheckTransition w.cli.state next = true := by
  cases permitted : ecClientCheckTransition w.cli.state next with
  | true => rfl
  | false =>
      rw [ecClientSetState_rejected platform sent w next permitted] at made
      cases made

/-- The answer of the resolver and the start of a retransmission are entered, and change nothing else. -/
theorem ecClientSetState_idle {platform : Platform} {sent : Bool} {w : CliWork} {next : EcCliState}
    (idle : next = .dnsOk ∨ next = .coapRetry) (permitted : ecClientCheckTransition w.cli.state next = true) :
    ecClientSetState platform sent w next = .ok ({w with cli := w.cli.enter next}, false) := by
  unfold ecClientSetState
  rw [if_neg (by simp [permitted])]
  rcases idle with rfl | rfl <;> rfl

/-- A client for which the resolver has found addresses, with its request as the encoder leaves it. -/
def CliWork.addressed (platform : Platform) (rng : UInt16) (w : CliWork) : CliWork :=
  {w with
    cli := EcClient.enter {w.cli with
      dnsReq := false
      req := (ecPduEncodeRequest platform.order rng w.cli.flow w.cli.req).1} .dnsOk}

/-- The work that the resolver gives to a client: `next` is what the client has become. -/
inductive DnsWork (platform : Platform) (env : DnsEnv) (w next : CliWork) : Prop where
  | unresolved (absent : env.ais = none)
      (ended : (ecClientSetState platform false {w with cli := {w.cli with dnsReq := false}} .dnsFailed).map
        (fun moved => moved.1) = .ok next)
  | unencoded (ais : List AddrInfo) (found : env.ais = some ais)
      (permitted : ecClientCheckTransition w.cli.state .dnsOk = true)
      (refused : (ecPduEncodeRequest platform.order env.rng w.cli.flow w.cli.req).2 ≠ 0)
      (ended : (ecClientSetState platform false (w.addressed platform env.rng) .internalErr).map
        (fun moved => moved.1) = .ok next)
  | opened (ais : List AddrInfo) (found : env.ais = some ais)
      (permitted : ecClientCheckTransition w.cli.state .dnsOk = true)
      (encoded : (ecPduEncodeRequest platform.order env.rng w.cli.flow w.cli.req).2 = 0)
      (opened : CliWork) (goesOn : Bool)
      (opening : ecClientOpen platform env ais (w.addressed platform env.rng) = .ok (opened, goesOn))
      (ended : goesOn = false ∧ opened = next ∨
        goesOn = true ∧ (opened.cli.flow.conn.socket = -1 ∨ env.registers = false) ∧
          (ecClientSetState platform false opened .internalErr).map (fun moved => moved.1) = .ok next ∨
        goesOn = true ∧ ¬ (opened.cli.flow.conn.socket = -1 ∨ env.registers = false) ∧
          {opened with cli := {opened.cli with registered := true}} = next)

/-- The resolver's callback finds no addresses, or no room for the request, or it opens the client. -/
theorem ecClientDnsCb_work {platform : Platform} {env : DnsEnv} {w next : CliWork}
    (done : ecClientDnsCb platform env w = .ok next) : DnsWork platform env w next := by
  unfold ecClientDnsCb at done
  dsimp only at done
  cases found : env.ais with
  | none =>
      rw [found] at done
      exact .unresolved found done
  | some ais =>
      rw [found] at done
      dsimp only at done
      split at done
      · cases done
      · rename_i resolved ended made
        have permitted := ecClientSetState_permitted made
        rw [ecClientSetState_idle (Or.inl rfl) permitted] at made
        cases made
        by_cases encoded : (ecPduEncodeRequest platform.order env.rng w.cli.flow w.cli.req).2 = 0
        · rw [if_neg (by exact not_not.mpr encoded)] at done
          split at done
          · cases done
          · rename_i opened goesOn opening
            refine .opened ais found permitted encoded opened goesOn opening ?_
            cases goesOn with
            | false =>
                cases done
                exact Or.inl ⟨rfl, rfl⟩
            | true =>
                rw [if_neg (by decide)] at done
                by_cases unsettled : opened.cli.flow.conn.socket = -1 ∨ env.registers = false
                · rw [if_pos unsettled] at done
                  exact Or.inr (Or.inl ⟨rfl, unsettled, done⟩)
                · rw [if_neg unsettled] at done
                  exact Or.inr (Or.inr ⟨rfl, unsettled, Except.ok.inj done⟩)
        · rw [if_pos (by exact encoded)] at done
          exact .unencoded ais found permitted encoded done

/-- The encoding of a request keeps its sibling. -/
theorem ecPduEncodeRequest_sibling (order : ByteOrder) (rng : UInt16) (flow : EcFlow) (pdu : EcPdu) :
    (ecPduEncodeRequest order rng flow pdu).1.sibling = pdu.sibling := by
  unfold ecPduEncodeRequest
  dsimp only
  split
  · rfl
  · split <;> rfl

/-- A judgement that goes on observing is never the one before. -/
theorem EcCliObs.judge_changed {observe judgement : EcCliObs} {asked : Bool} {rc : EcRc} {counter : Option UInt16}
    {now : Nat} (judged : observe.judge asked rc counter now = some judgement) (on : judgement.on = true) :
    judgement ≠ observe := by
  intro same
  subst same
  unfold judge at judged
  rw [if_pos on] at judged
  split at judged
  · exact absurd (congrArg EcCliObs.on (Option.some.inj judged)) (by simp [on])
  · split at judged
    · exact absurd (congrArg EcCliObs.on (Option.some.inj judged)) (by simp [on])
    · rename_i oCnt
      split at judged
      · exact absurd (congrArg EcCliObs.on (Option.some.inj judged)) (by simp [on])
      · split at judged
        · cases judged
        · rename_i current
          have count := congrArg EcCliObs.lastCnt (Option.some.inj judged)
          have time := congrArg EcCliObs.lastTs (Option.some.inj judged)
          dsimp only at count time
          refine current ⟨?_, by omega⟩
          rw [count, UInt16.sub_self]
          decide

/-- An empty ACK, an empty RST, or a piggybacked response. -/
def EcHdr.Answers (h : EcHdr) : Prop := h.code = 0 ∧ (h.t = .ack ∨ h.t = .rst) ∨ h.code ≠ 0 ∧ h.t = .ack

/-- The MID in the header of the client's own request. -/
def EcClient.requestMid (order : ByteOrder) (cli : EcClient) : UInt16 := headerMid order cli.req.hdr

/-- An answer with another MID than the request leaves a waiting client as it is. -/
def MidPaired (platform : Platform) (w : CliWork) (event : ClientEvent) : Prop :=
  match event with
  | .datagram input => ∀ h, w.cli.state.Awaiting → ecPduDecodeHeader platform.order input.raw = some h → h.Answers →
      h.mid ≠ w.cli.requestMid platform.order →
      ∃ w', clientStep platform w (.datagram input) = .ok w' ∧ w'.cli = w.cli
  | _ => True

/-- An answer with another MID than the request, as far as it is heard, is a response that is not taken in. -/
def MidRefused (platform : Platform) (w : CliWork) (event : ClientEvent) : Prop :=
  match event with
  | .datagram input => ∀ h, w.cli.state.Awaiting → w.Hears platform input h → h.Answers →
      h.mid ≠ w.cli.requestMid platform.order → h.code ≠ 0 ∧ ¬ w.cli.TakesIn h input
  | _ => True

section Steps

variable {platform : Platform} {w : CliWork} {input : Incoming} {h : EcHdr}

/-- A message that is heard is handled. -/
theorem clientStep_hears (hears : w.Hears platform input h) : clientStep platform w (.datagram input) =
    (ecClientHandleNew platform (w.seen platform input h) h input).map fun handled => handled.1 := by
  unfold clientStep
  rw [if_neg (by simp [hears.live])]
  dsimp only
  rw [if_pos hears.registered, ecClientHandlePdu_hears hears]
  cases ecClientHandleNew platform (w.seen platform input h) h input <;> rfl

/-- A datagram that is not heard leaves the client as it is. -/
theorem clientStep_unheard (unheard : ∀ h, ¬ w.Hears platform input h) :
    clientStep platform w (.datagram input) = .ok w := by
  unfold clientStep
  split
  · rfl
  · rename_i live
    dsimp only
    split
    · rename_i registered
      cases header : ecClientHeader platform.order input.raw with
      | none =>
          unfold ecClientHandlePdu
          rw [header]
          rfl
      | some h =>
          cases found : ecDupsSearch platform w.dups h.mid input.peer with
          | some recvd =>
              obtain ⟨rc, resent, handled⟩ := ecClientHandlePdu_duplicate platform w input h header recvd found
              rw [handled]
              rfl
          | none => exact absurd ⟨by simpa using live, registered, header, found⟩ (unheard h)
    · rfl

/-- The work that an event gives to a client: `next` is what the client has become. -/
inductive ClientWork (platform : Platform) (w : CliWork) : ClientEvent → CliWork → Prop where
  | idle (event : ClientEvent) : ClientWork platform w event w
  | resolved (env : DnsEnv) (next : CliWork) (worked : ecClientDnsCb platform env w = .ok next) :
      ClientWork platform w (.dns env) next
  | heard (input : Incoming) (h : EcHdr) (handled : CliWork × EcNetCbrc) (hears : w.Hears platform input h)
      (worked : ecClientHandleNew platform (w.seen platform input h) h input = .ok handled) :
      ClientWork platform w (.datagram input) handled.1
  | appTimeout (sent : Bool) (next : CliWork)
      (worked : ecCliAppTimeout platform sent {w with cli := {w.cli with app := w.cli.app.fired}} = .ok next) :
      ClientWork platform w (.appTimeout sent) next
  | coapTimeout (sent : Bool) (next : CliWork)
      (worked : ecCliCoapTimeout platform sent {w with cli := {w.cli with coap := w.cli.coap.fired}} = .ok next) :
      ClientWork platform w (.coapTimeout sent) next
  | obsTimeout (sent : Bool) (next : CliWork)
      (worked : ecCliObsTimeout platform sent {w with cli := {w.cli with obs := w.cli.obs.fired}} = .ok next) :
      ClientWork platform w (.obsTimeout sent) next
  | cancel : ClientWork platform w .cancel {w with cli := ecClientCancelObservation w.cli}
  | shared (dups : EcDups) : ClientWork platform w (.shared dups) {w with dups := dups}

/-- An event calls the handler that is registered for it, or none. -/
theorem clientStep_work {event : ClientEvent} {next : CliWork} (stepped : clientStep platform w event = .ok next) :
    ClientWork platform w event next := by
  by_cases live : w.cli.freed = true
  · unfold clientStep at stepped
    rw [if_pos live] at stepped
    cases stepped
    exact .idle event
  · have whole := stepped
    unfold clientStep at stepped
    rw [if_neg live] at stepped
    cases event with
    | datagram input =>
        by_cases heard : ∃ h, w.Hears platform input h
        · obtain ⟨h, hears⟩ := heard
          rw [clientStep_hears hears] at whole
          obtain ⟨handled, worked, same⟩ := map_ok whole
          subst same
          exact .heard input h handled hears worked
        · rw [clientStep_unheard fun h hears => heard ⟨h, hears⟩] at whole
          cases whole
          exact .idle _
    | dns env =>
        dsimp only at stepped
        split at stepped
        · exact .resolved env next stepped
        · cases stepped
          exact .idle _
    | appTimeout sent =>
        dsimp only at stepped
        split at stepped
        · exact .appTimeout sent next stepped
        · cases stepped
          exact .idle _
    | coapTimeout sent =>
        dsimp only at stepped
        split at stepped
        · exact .coapTimeout sent next stepped
        · cases stepped
          exact .idle _
    | obsTimeout sent =>
        dsimp only at stepped
        split at stepped
        · exact .obsTimeout sent next stepped
        · cases stepped
          exact .idle _
    | cancel =>
        cases stepped
        exact .cancel
    | shared dups =>
        cases stepped
        exact .shared dups

/-- What a client hears has the header of the datagram. -/
theorem CliWork.Hears.decoded (hears : w.Hears platform input h) :
    ecPduDecodeHeader platform.order input.raw = some h := by
  have header := hears.header
  unfold ecClientHeader at header
  split at header
  · cases header
  · rename_i decoded
    split at header
    · cases header
    · cases header
      exact decoded

/-- A response that is taken in, and is handled, changes a waiting client. -/
theorem clientStep_taken_changes (hears : w.Hears platform input h) (code : h.code ≠ 0) (awaiting : w.cli.state.Awaiting)
    (taken : w.cli.TakesIn h input) {w' : CliWork} (stepped : clientStep platform w (.datagram input) = .ok w') :
    w'.cli ≠ w.cli := by
  intro same
  rw [clientStep_hears hears] at stepped
  obtain ⟨handled, handling, kept⟩ := map_ok stepped
  subst kept
  rcases ecClientHandleNew_response code handling with ⟨refused, _⟩ | ⟨_, _, stale⟩ |
    ⟨observe, _, judged, _, _, became⟩
  · exact refused taken
  · subst stale
    have longer := congrArg (fun cli => cli.resSet.length) same
    exact absurd longer (by simp [CliWork.seen, EcClient.added])
  · have state := became.state
    rw [same] at state
    rcases observe.asks_cases with waiting | done
    · have on := observe.asks_waitNfy.mp waiting
      apply EcCliObs.judge_changed judged on
      rw [← became.observe, same]
      rfl
    · rw [done] at state
      rcases awaiting with here | here | here <;> rw [here] at state <;> cases state

/-- An empty ACK or RST that is handled moves a waiting client on. -/
theorem clientStep_empty_changes (hears : w.Hears platform input h) (code : h.code = 0)
    (awaiting : w.cli.state.Awaiting) (type : h.t = .ack ∨ h.t = .rst) {w' : CliWork}
    (stepped : clientStep platform w (.datagram input) = .ok w') : w'.cli ≠ w.cli := by
  intro same
  rw [clientStep_hears hears] at stepped
  obtain ⟨handled, handling, kept⟩ := map_ok stepped
  subst kept
  rcases ecClientHandleNew_empty code handling with ⟨next, moved, asked, setState, moves⟩ | ⟨noAck, noRst, _⟩
  · subst moves
    have reached : next = w.cli.state := (ecClientSetState_state setState).symm.trans (congrArg EcClient.state same)
    rcases asked with ⟨_, ack⟩ | ⟨_, rst⟩
    · subst ack
      have permitted := ecClientSetState_permitted setState
      have origin : w.cli.state = .reqSent := (checkTransition_reqAckd w.cli.state).mp permitted
      cases reached.trans origin
    · subst rst
      rcases awaiting with here | here | here <;> cases reached.trans here
  · rcases type with ack | rst
    · exact absurd ack noAck
    · exact absurd rst noRst

/-- A response that is not taken in leaves the client as it is. -/
theorem clientStep_refused (hears : w.Hears platform input h) (code : h.code ≠ 0) (refused : ¬ w.cli.TakesIn h input) :
    clientStep platform w (.datagram input) = .ok (w.seen platform input h) := by
  have seen : ¬ (w.seen platform input h).cli.TakesIn h input := refused
  rw [clientStep_hears hears, ecClientHandleNew_refused platform code seen]
  rfl

end Steps

/-- The MIDs are paired in all steps of a run exactly when its answers with another MID are not taken in. -/
theorem clientRun_mids_iff (platform : Platform) (w : CliWork) (events : List ClientEvent) :
    (clientMachine platform).Meets (MidPaired platform) w events ↔
      (clientMachine platform).Meets (MidRefused platform) w events := by
  apply (clientMachine platform).meets_congr
  intro w event
  cases event with
  | datagram input =>
      constructor
      · intro paired h awaiting hears answers foreign
        obtain ⟨w', stepped, same⟩ := paired h awaiting hears.decoded answers foreign
        rcases answers with ⟨empty, type⟩ | ⟨code, _⟩
        · exact absurd same (clientStep_empty_changes hears empty awaiting type stepped)
        · exact ⟨code, fun taken => absurd same (clientStep_taken_changes hears code awaiting taken stepped)⟩
      · intro refused h awaiting decoded answers foreign
        by_cases heard : ∃ h', w.Hears platform input h'
        · obtain ⟨h', hears⟩ := heard
          have same : h' = h := Option.some.inj (hears.decoded.symm.trans decoded)
          subst same
          obtain ⟨code, untaken⟩ := refused h' awaiting hears answers foreign
          exact ⟨_, clientStep_refused hears code untaken, rfl⟩
        · exact ⟨w, clientStep_unheard (fun h' hears => heard ⟨h', hears⟩), rfl⟩
  | dns env => exact Iff.rfl
  | appTimeout sent => exact Iff.rfl
  | coapTimeout sent => exact Iff.rfl
  | obsTimeout sent => exact Iff.rfl
  | cancel => exact Iff.rfl
  | shared dups => exact Iff.rfl

/-- An empty ACK with the MID bytes 00 02 acknowledges a request with the MID bytes 01 00. -/
theorem foreignAck_unpaired : ¬ ∀ platform w tout destination events start rc, w.cli.Fresh →
    ecClientGo platform w tout destination = .ok (start, rc) →
      (clientMachine platform).Meets (MidPaired platform) start events := by
  intro always
  have run : ∃ start w w' h, ecClientGo loopbackPlatform ⟨confirmableGet, EcDups.empty⟩ none true = .ok (start, 0) ∧
      clientStep loopbackPlatform start (.dns resolvedOnce) = .ok w ∧ w.cli.state = .reqSent ∧
      ecPduDecodeHeader .little (emptyAck 2).raw = some h ∧ h.code = 0 ∧ h.t = .ack ∧
      h.mid ≠ w.cli.requestMid .little ∧
      clientStep loopbackPlatform w (.datagram (emptyAck 2)) = .ok w' ∧ w'.cli.state = .reqAckd :=
    ⟨_, _, _, _, rfl, rfl, rfl, rfl, by decide, by decide, by decide, rfl, rfl⟩
  obtain ⟨start, w, w', h, started, resolved, state, header, empty, type, foreign, stepped, acknowledged⟩ := run
  have meets := always loopbackPlatform ⟨confirmableGet, EcDups.empty⟩ none true
    [.dns resolvedOnce, .datagram (emptyAck 2)] start 0 ⟨rfl, rfl, rfl, rfl, rfl, rfl, rfl⟩ started
  obtain ⟨same, stepped', unchanged⟩ := (meets.2 w resolved).1 h (Or.inl state) header (Or.inl ⟨empty, Or.inl type⟩) foreign
  cases stepped.symm.trans stepped'
  rw [unchanged, state] at acknowledged
  cases acknowledged

end Webthings.Evcoap
