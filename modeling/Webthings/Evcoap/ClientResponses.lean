import Webthings.Evcoap.ClientRuns

namespace Webthings.Evcoap
open Webthings.Transition

/-- What a response makes of the observation state; there is nothing when the response is out of date. -/
def EcCliObs.judge (observe : EcCliObs) (asked : Bool) (rc : EcRc) (counter : Option UInt16) (now : Nat) :
    Option EcCliObs :=
  if observe.on then
    if rc = ecInternalServerError then some {observe with on := false}
    else
      match counter with
      | none => some {observe with on := false}
      | some oCnt =>
          if rc = ecDeleted then some {observe with on := false}
          else if observe.lastCnt - oCnt < 0x8000 ∧ now < observe.lastTs + 0x4000 then none
          else some {observe with lastCnt := oCnt, lastTs := now}
  else some {observe with on := asked && counter.isSome}

/-- A client judges by the first response of its set. -/
theorem ecClientHandleObservation_judge (order : ByteOrder) (cli : EcClient) (now : Nat) (res : EcPdu)
    (first : cli.resSet.head? = some res) : ecClientHandleObservation order cli now =
      match cli.observe.judge (ecOptsGet cli.req.opts .observe).isSome cli.flow.respCode
        (ecOptsGetObserve order res.opts) now with
      | none => (cli, -1)
      | some observe => ({cli with observe := observe}, 0) := by
  unfold ecClientHandleObservation ecClientGetResponsePdu EcCliObs.judge
  rw [first]
  dsimp only
  by_cases on : cli.observe.on = true
  · rw [if_pos on, if_pos on]
    by_cases failed : cli.flow.respCode = ecInternalServerError
    · rw [if_pos failed, if_pos failed]
    · rw [if_neg failed, if_neg failed]
      cases counter : ecOptsGetObserve order res.opts with
      | none => rfl
      | some oCnt =>
          dsimp only
          by_cases deleted : cli.flow.respCode = ecDeleted
          · rw [if_pos deleted, if_pos deleted]
          · rw [if_neg deleted, if_neg deleted]
            split <;> rfl
  · rw [if_neg on, if_neg on]

/-- The message that a response makes. -/
def Incoming.pdu (input : Incoming) (h : EcHdr) : EcPdu := (ecClientBody input.raw input.beyond).pdu input.raw h

/-- The options of a response, which are sound when `Decodes`. -/
def Incoming.opts (input : Incoming) : EcOpts := (ecClientBody input.raw input.beyond).decoded.opts

/-- The response gets into the response set: it decodes, has the token of the flow if any, and a response code. -/
structure EcClient.TakesIn (cli : EcClient) (h : EcHdr) (input : Incoming) : Prop where
  decoded : (ecClientBody input.raw input.beyond).decoded.rc = ecRcUnset
  token : ∀ t, ecOptsGet input.opts .token = some t → t.value = cli.flow.token
  response : ecIsRespCode h.code.toNat

/-- The client with a response added to its set. -/
def EcClient.added (cli : EcClient) (h : EcHdr) (input : Incoming) : EcClient :=
  {cli with flow := {cli.flow with respCode := h.code.toNat}, resSet := cli.resSet ++ [input.pdu h]}

/-- The response that the user gets to see. -/
def EcClient.shown (cli : EcClient) (h : EcHdr) (input : Incoming) : EcPdu := cli.resSet.headD (input.pdu h)

/-- The judgement on a response that has got into the set. -/
def EcClient.judged (order : ByteOrder) (cli : EcClient) (h : EcHdr) (input : Incoming) : Option EcCliObs :=
  cli.observe.judge (ecOptsGet cli.req.opts .observe).isSome h.code.toNat
    (ecOptsGetObserve order (cli.shown h input).opts) input.now

/-- The state that a response asks for. -/
def EcCliObs.asks (observe : EcCliObs) : EcCliState := if observe.on then .waitNfy else .reqDone

theorem EcCliObs.asks_cases (observe : EcCliObs) : observe.asks = .waitNfy ∨ observe.asks = .reqDone := by
  unfold asks
  split
  · exact Or.inl rfl
  · exact Or.inr rfl

theorem EcCliObs.asks_waitNfy (observe : EcCliObs) : observe.asks = .waitNfy ↔ observe.on = true := by
  unfold asks
  split
  · rename_i on
    exact ⟨fun _ => on, fun _ => rfl⟩
  · rename_i off
    exact ⟨fun waiting => (by cases waiting), fun on => absurd on off⟩

theorem EcClient.added_shown (cli : EcClient) (h : EcHdr) (input : Incoming) :
    (cli.added h input).resSet.head? = some (cli.shown h input) := by
  unfold added shown
  cases cli.resSet <;> rfl

/-- A response that does not get into the set leaves the client as it is. -/
theorem ecClientTakeResponse_refused (platform : Platform) {cli : EcClient} {h : EcHdr} {input : Incoming}
    (refused : ¬ cli.TakesIn h input) : ecClientTakeResponse platform cli h input = (cli, none) := by
  unfold ecClientTakeResponse
  dsimp only
  by_cases decoded : (ecClientBody input.raw input.beyond).decoded.rc = ecRcUnset
  · rw [if_neg (by simp [decoded])]
    split
    · rfl
    · rename_i matching
      have uncoded : ¬ ecIsRespCode h.code.toNat := by
        intro response
        refine refused ⟨decoded, fun t found => ?_, response⟩
        have token : ecOptsGet (ecClientBody input.raw input.beyond).decoded.opts .token = some t := found
        simpa [token] using matching
      unfold ecFlowSetRespCode
      rw [if_neg uncoded]
      rfl
  · rw [if_pos decoded]

/-- A response that gets into the set is judged. -/
theorem ecClientTakeResponse_taken (platform : Platform) {cli : EcClient} {h : EcHdr} {input : Incoming}
    (taken : cli.TakesIn h input) : ecClientTakeResponse platform cli h input =
      match cli.judged platform.order h input with
      | none => (cli.added h input, none)
      | some observe => ({cli.added h input with observe := observe}, some observe.asks) := by
  obtain ⟨decoded, token, response⟩ := taken
  have matching : ((ecOptsGet (ecClientBody input.raw input.beyond).decoded.opts .token).all
      fun t => t.value == cli.flow.token) = true := by
    cases found : ecOptsGet (ecClientBody input.raw input.beyond).decoded.opts .token with
    | none => rfl
    | some t => simp [token t found]
  have judgement : ecClientHandleObservation platform.order (cli.added h input) input.now =
      match cli.judged platform.order h input with
      | none => (cli.added h input, -1)
      | some observe => ({cli.added h input with observe := observe}, 0) :=
    ecClientHandleObservation_judge platform.order (cli.added h input) input.now _ (cli.added_shown h input)
  unfold ecClientTakeResponse
  dsimp only
  rw [if_neg (by simp [decoded]), if_neg (by simp [matching])]
  unfold ecFlowSetRespCode
  rw [if_pos response]
  dsimp only
  rw [if_neg (by simp)]
  change (if (ecClientHandleObservation platform.order (cli.added h input) input.now).2 ≠ 0 then
      ((ecClientHandleObservation platform.order (cli.added h input) input.now).1, none)
    else ((ecClientHandleObservation platform.order (cli.added h input) input.now).1,
      some (if (ecClientHandleObservation platform.order (cli.added h input) input.now).1.observe.on then
        EcCliState.waitNfy else .reqDone))) = _
  rw [judgement]
  cases cli.judged platform.order h input with
  | none => rfl
  | some observe => rfl

/-- The ACK of the first response of the set. -/
def EcClient.ack (order : ByteOrder) (sent : Bool) (cli : EcClient) : Option Datagram :=
  (ecClientGetResponsePdu cli).bind fun res =>
    ecNetSend sent (separateAck order res.hdrBits.mid).hdr (separateAck order res.hdrBits.mid).opts.wire []
      cli.flow.conn.socket cli.flow.conn.peer

/-- An acknowledgement logs its ACK, if it can be sent. -/
theorem ecClientSendAck_log (platform : Platform) (sent : Bool) (w : CliWork) :
    (ecClientSendAck platform sent w).cli = w.cli.log .ack (w.cli.ack platform.order sent) := by
  unfold ecClientSendAck EcClient.ack
  cases first : ecClientGetResponsePdu w.cli with
  | none => simp [ecPduSetSibling, EcClient.log]
  | some res =>
      have encoded : ecPduEncodeResponseAck platform.order (ecClientAdHocFlow w.cli)
          {ecPduNewEmpty with sibling := some res.hdrBits.mid} = (separateAck platform.order res.hdrBits.mid, 0) := rfl
      have paired : ecPduSetSibling ecPduNewEmpty (some res.hdrBits.mid) =
          ({ecPduNewEmpty with sibling := some res.hdrBits.mid}, 0) := rfl
      rw [Option.map_some, paired]
      dsimp only
      rw [if_neg (by simp), encoded, if_neg (by simp), ecPduSend_datagram]
      rfl

/-- The reset of a notification logs nothing but itself. -/
theorem ecClientRstPeer_log (platform : Platform) (sent : Bool) (w : CliWork) :
    ∃ datagram, (ecClientRstPeer platform sent w).cli = w.cli.log .rst datagram := by
  have quiet : w.cli = w.cli.log .rst none := by simp [EcClient.log]
  unfold ecClientRstPeer
  dsimp only
  split
  · exact ⟨none, quiet⟩
  · split
    · exact ⟨none, quiet⟩
    · exact ⟨_, rfl⟩

/-- A transition to the end of a request acknowledges a response on its own, if the request was confirmable. -/
def EcClient.acks (order : ByteOrder) (sent : Bool) (cli : EcClient) (next : EcCliState) : List Sent :=
  if next = .reqDone ∧ cli.state = .reqAckd ∧ cli.flow.conn.isConfirmable.getD false = true then
    (cli.ack order sent).toList.map (Sent.mk .ack)
  else []

/-- The transitions that a response asks for are permitted, and the observation timer is there when it is needed. -/
structure EcClient.CanFollow (cli : EcClient) (next : EcCliState) : Prop where
  permitted : ecClientCheckTransition cli.state next = true
  timer : next = .waitNfy → (cli.obs.evti = true ↔ cli.state = .waitNfy)

/-- What a client has become by the transition that a response asks for. -/
structure EcClient.Followed (order : ByteOrder) (sent : Bool) (cli : EcClient) (next : EcCliState)
    (followed : EcClient) (final : Bool) : Prop where
  state : followed.state = next
  observe : followed.observe = cli.observe
  log : ∃ rst, (∀ s ∈ rst, s.purpose = .rst) ∧ followed.sent = cli.sent ++ cli.acks order sent next ++ rst
  cleared : final = true → followed.resSet = []
  ongoing : final = false → next = .waitNfy

/-- The end of a transaction keeps the log and the observation state. -/
theorem ecClientFinish_kept (isCon : Bool) (cli : EcClient) :
    (ecClientFinish isCon cli).state = cli.state ∧ (ecClientFinish isCon cli).observe = cli.observe ∧
      (ecClientFinish isCon cli).sent = cli.sent ∧ (ecClientFinish isCon cli).resSet = [] := by
  unfold ecClientFinish
  cases isCon <;> cases cli.userown <;> exact ⟨rfl, rfl, rfl, rfl⟩

/-- Entering a state that a response asks for adds the ACK to the log. -/
structure EcClient.Entered (order : ByteOrder) (sent : Bool) (cli : EcClient) (next : EcCliState)
    (entered : EcClient) : Prop where
  observe : entered.observe = cli.observe
  log : entered.sent = cli.sent ++ cli.acks order sent next
  resSet : entered.resSet = cli.resSet

theorem ecClientEnter_follows (platform : Platform) (sent isCon : Bool) (w : CliWork) (next : EcCliState)
    (model : w.cli.flow.conn.isConfirmable.getD false = isCon) (answer : next = .waitNfy ∨ next = .reqDone)
    (timer : next = .waitNfy → (w.cli.obs.evti = true ↔ w.cli.state = .waitNfy)) :
    ∃ entered, ecClientEnter platform sent isCon next w = .ok entered ∧
      w.cli.Entered platform.order sent next entered.cli := by
  rcases answer with rfl | rfl
  · have silent : w.cli.acks platform.order sent .waitNfy = [] := if_neg (by simp)
    have known := timer rfl
    unfold ecClientEnter
    dsimp only
    by_cases watching : w.cli.state = .waitNfy
    · have armed := known.mpr watching
      unfold ecCliRestartObsTimer ecTimerRestart
      rw [if_pos watching, if_pos armed, Option.map_some]
      exact ⟨_, rfl, rfl, by rw [silent, List.append_nil], rfl⟩
    · have absent : w.cli.obs.evti = false := by
        cases armed : w.cli.obs.evti with
        | false => rfl
        | true => exact absurd (known.mp armed) watching
      rw [if_neg watching]
      cases isCon with
      | true =>
          obtain ⟨obs, started, _⟩ := ecCliStartObsTimer_fresh platform.order
            (ecCliStopCoapTimer (ecCliStopAppTimer w.cli)) absent
          rw [if_pos rfl, started]
          exact ⟨_, rfl, rfl, by rw [silent, List.append_nil]; rfl, rfl⟩
      | false =>
          obtain ⟨obs, started, _⟩ := ecCliStartObsTimer_fresh platform.order (ecCliStopAppTimer w.cli) absent
          rw [if_neg Bool.false_ne_true, started]
          exact ⟨_, rfl, rfl, by rw [silent, List.append_nil]; rfl, rfl⟩
  · refine ⟨_, rfl, ?_⟩
    by_cases acknowledged : w.cli.state = .reqAckd ∧ isCon = true
    · have acks : w.cli.acks platform.order sent .reqDone =
          (w.cli.ack platform.order sent).toList.map (Sent.mk .ack) :=
        if_pos ⟨rfl, acknowledged.1, model.trans acknowledged.2⟩
      rw [if_pos acknowledged, ecClientSendAck_log]
      exact ⟨rfl, by rw [acks]; rfl, rfl⟩
    · have acks : w.cli.acks platform.order sent .reqDone = [] :=
        if_neg fun both => acknowledged ⟨both.2.1, model.symm.trans both.2.2⟩
      rw [if_neg acknowledged]
      exact ⟨rfl, by rw [acks, List.append_nil], rfl⟩

/-- A response's transition is made exactly when the client can follow it. -/
theorem ecClientSetState_follows (platform : Platform) (sent : Bool) (w : CliWork) (next : EcCliState)
    (answer : next = .waitNfy ∨ next = .reqDone) (follows : w.cli.CanFollow next) :
    ∃ moved, ecClientSetState platform sent w next = .ok moved ∧
      w.cli.Followed platform.order sent next moved.1.cli moved.2 := by
  obtain ⟨entered, entering, observe, log, resSet⟩ := ecClientEnter_follows platform sent _ w next rfl answer
    follows.timer
  obtain ⟨datagram, reset⟩ := ecClientRstPeer_log platform sent {entered with cli := entered.cli.enter next}
  unfold ecClientSetState
  rw [if_neg (by simp [follows.permitted])]
  dsimp only
  rw [entering]
  dsimp only
  have watched : (ecClientStateIsFinal next || next == .waitNfy) = true := by
    rcases answer with rfl | rfl <;> rfl
  have asked : (entered.cli.enter next).observe.cancel = w.cli.observe.cancel := congrArg EcCliObs.cancel observe
  rw [watched, Bool.true_and, asked]
  cases cancelled : w.cli.observe.cancel with
  | true =>
      rw [Bool.or_true, if_pos rfl, if_pos rfl, reset]
      refine ⟨_, rfl, ?_⟩
      obtain ⟨state, kept, sentLog, cleared⟩ := ecClientFinish_kept (w.cli.flow.conn.isConfirmable.getD false)
        ((entered.cli.enter next).log .rst datagram)
      refine ⟨state, kept.trans observe, ⟨datagram.toList.map (Sent.mk .rst), ?_, ?_⟩, fun _ => cleared,
        fun live => (by cases live)⟩
      · intro s member
        obtain ⟨_, _, rfl⟩ := List.mem_map.mp member
        rfl
      · rw [sentLog, ← log]
        rfl
  | false =>
      rw [Bool.or_false, if_neg Bool.false_ne_true]
      rcases answer with rfl | rfl
      · rw [if_neg (by decide)]
        exact ⟨_, rfl, rfl, observe, ⟨[], by simp, by rw [List.append_nil, ← log]; rfl⟩, fun ended => (by cases ended),
          fun _ => rfl⟩
      · have final : ecClientStateIsFinal .reqDone = true := rfl
        rw [if_pos final]
        refine ⟨_, rfl, ?_⟩
        obtain ⟨state, kept, sentLog, cleared⟩ := ecClientFinish_kept (w.cli.flow.conn.isConfirmable.getD false)
          (entered.cli.enter .reqDone)
        exact ⟨state, kept.trans observe, ⟨[], by simp, by rw [List.append_nil, ← log, sentLog]; rfl⟩, fun _ => cleared,
          fun live => (by cases live)⟩

/-- A transition that the client cannot follow ends the run. -/
theorem ecClientSetState_unfollowed (platform : Platform) (sent : Bool) (w : CliWork) (next : EcCliState)
    (stuck : ¬ w.cli.CanFollow next) (answer : next = .waitNfy ∨ next = .reqDone) :
    ∃ fault, ecClientSetState platform sent w next = .error fault := by
  by_cases permitted : ecClientCheckTransition w.cli.state next = true
  · have untimed : ¬ (next = .waitNfy → (w.cli.obs.evti = true ↔ w.cli.state = .waitNfy)) := fun timer =>
      stuck ⟨permitted, timer⟩
    obtain ⟨waiting, other⟩ := Classical.not_imp.mp untimed
    subst waiting
    unfold ecClientSetState
    rw [if_neg (by simp [permitted])]
    dsimp only
    unfold ecClientEnter
    dsimp only
    by_cases watching : w.cli.state = .waitNfy
    · have absent : w.cli.obs.evti = false := by
        cases armed : w.cli.obs.evti with
        | false => rfl
        | true => exact absurd ⟨fun _ => watching, fun _ => armed⟩ other
      unfold ecCliRestartObsTimer ecTimerRestart
      rw [if_pos watching, if_neg (by simp [absent])]
      exact ⟨_, rfl⟩
    · have armed : w.cli.obs.evti = true := by
        cases armed : w.cli.obs.evti with
        | true => rfl
        | false => exact absurd ⟨fun present => absurd (armed.symm.trans present) (by decide),
            fun state => absurd state watching⟩ other
      have started : ∀ cli : EcClient, cli.obs = w.cli.obs → (ecCliStartObsTimer platform.order cli).2 = -1 := by
        intro cli same
        unfold ecCliStartObsTimer ecTimerStart
        dsimp only
        rw [same, if_neg (by decide), if_pos armed]
      rw [if_neg watching, if_pos]
      · exact ⟨_, rfl⟩
      · rw [started]
        · decide
        · cases w.cli.flow.conn.isConfirmable.getD false <;> rfl
  · exact ⟨_, ecClientSetState_rejected platform sent w next (Bool.eq_false_iff.mpr permitted)⟩

/-- What an accepted response makes of a client. -/
structure EcClient.Answered (order : ByteOrder) (cli : EcClient) (h : EcHdr) (input : Incoming) (judgement : EcCliObs)
    (answered : EcClient) : Prop where
  state : answered.state = judgement.asks
  observe : answered.observe = judgement
  log : ∃ rst, (∀ s ∈ rst, s.purpose = .rst) ∧
    answered.sent = cli.sent ++ (cli.added h input).acks order input.sent judgement.asks ++ rst
  resSet : answered.resSet = []

/-- A response that is refused leaves the client as it is. -/
theorem ecClientHandleNew_refused (platform : Platform) {w : CliWork} {h : EcHdr} {input : Incoming}
    (code : h.code ≠ 0) (refused : ¬ w.cli.TakesIn h input) :
    ecClientHandleNew platform w h input = .ok (w, .error) := by
  unfold ecClientHandleNew
  rw [if_neg code, ecClientTakeResponse_refused platform refused]

/-- A response that is out of date leaves its code and itself behind. -/
theorem ecClientHandleNew_stale (platform : Platform) {w : CliWork} {h : EcHdr} {input : Incoming}
    (code : h.code ≠ 0) (taken : w.cli.TakesIn h input) (stale : w.cli.judged platform.order h input = none) :
    ecClientHandleNew platform w h input = .ok ({w with cli := w.cli.added h input}, .error) := by
  unfold ecClientHandleNew
  rw [if_neg code, ecClientTakeResponse_taken platform taken, stale]

/-- A response that is neither is followed. -/
theorem ecClientHandleNew_answered (platform : Platform) {w : CliWork} {h : EcHdr} {input : Incoming}
    {observe : EcCliObs} (code : h.code ≠ 0) (taken : w.cli.TakesIn h input)
    (judged : w.cli.judged platform.order h input = some observe) (follows : w.cli.CanFollow observe.asks) :
    ∃ w' rc, ecClientHandleNew platform w h input = .ok (w', rc) ∧ rc ≠ .error ∧
      w.cli.Answered platform.order h input observe w'.cli := by
  obtain ⟨⟨moved, final⟩, setState, state, kept, log, cleared, ongoing⟩ := ecClientSetState_follows platform input.sent
    {w with cli := {w.cli.added h input with observe := observe}} observe.asks observe.asks_cases
    ⟨follows.permitted, follows.timer⟩
  unfold ecClientHandleNew
  rw [if_neg code, ecClientTakeResponse_taken platform taken, judged]
  dsimp only at setState kept ⊢
  rw [setState]
  cases final with
  | true => exact ⟨moved, .dead, rfl, by decide, state, kept, log, cleared rfl⟩
  | false =>
      have watching : moved.cli.observe.on = true := by rw [kept, observe.asks_waitNfy.mp (ongoing rfl)]
      refine ⟨{moved with cli := {moved.cli with resSet := []}}, .success, ?_, by decide, state, kept, log, rfl⟩
      change Except.ok (if moved.cli.observe.on then {moved with cli := {moved.cli with resSet := []}} else moved,
        EcNetCbrc.success) = _
      rw [if_pos watching]

/-- A response that the client cannot follow ends the run. -/
theorem ecClientHandleNew_unfollowed (platform : Platform) {w : CliWork} {h : EcHdr} {input : Incoming}
    {observe : EcCliObs} (code : h.code ≠ 0) (taken : w.cli.TakesIn h input)
    (judged : w.cli.judged platform.order h input = some observe) (stuck : ¬ w.cli.CanFollow observe.asks) :
    ∃ fault, ecClientHandleNew platform w h input = .error fault := by
  obtain ⟨fault, failed⟩ := ecClientSetState_unfollowed platform input.sent
    {w with cli := {w.cli.added h input with observe := observe}} observe.asks
    (fun follows => stuck ⟨follows.permitted, follows.timer⟩) observe.asks_cases
  unfold ecClientHandleNew
  rw [if_neg code, ecClientTakeResponse_taken platform taken, judged]
  dsimp only at failed ⊢
  rw [failed]
  exact ⟨fault, rfl⟩

/-- What a response makes of the client that handles it: it is refused, left behind out of date, or followed. -/
theorem ecClientHandleNew_response {platform : Platform} {w : CliWork} {h : EcHdr} {input : Incoming}
    {handled : CliWork × EcNetCbrc} (code : h.code ≠ 0)
    (handling : ecClientHandleNew platform w h input = .ok handled) :
    (¬ w.cli.TakesIn h input ∧ handled = (w, .error)) ∨
    (w.cli.TakesIn h input ∧ w.cli.judged platform.order h input = none ∧
      handled = ({w with cli := w.cli.added h input}, .error)) ∨
    ∃ observe, w.cli.TakesIn h input ∧ w.cli.judged platform.order h input = some observe ∧
      w.cli.CanFollow observe.asks ∧ handled.2 ≠ .error ∧
      w.cli.Answered platform.order h input observe handled.1.cli := by
  by_cases taken : w.cli.TakesIn h input
  · right
    cases judged : w.cli.judged platform.order h input with
    | none =>
        rw [ecClientHandleNew_stale platform code taken judged] at handling
        cases handling
        exact Or.inl ⟨taken, rfl, rfl⟩
    | some observe =>
        right
        by_cases follows : w.cli.CanFollow observe.asks
        · obtain ⟨w', rc, answered, accepted, became⟩ := ecClientHandleNew_answered platform code taken judged follows
          rw [answered] at handling
          cases handling
          exact ⟨observe, taken, rfl, follows, accepted, became⟩
        · obtain ⟨fault, failed⟩ := ecClientHandleNew_unfollowed platform code taken judged follows
          rw [failed] at handling
          cases handling
  · rw [ecClientHandleNew_refused platform code taken] at handling
    cases handling
    exact Or.inl ⟨taken, rfl⟩

/-- What an empty message makes of the client that handles it: an ACK or a reset moves it, any other is an error. -/
theorem ecClientHandleNew_empty {platform : Platform} {w : CliWork} {h : EcHdr} {input : Incoming}
    {handled : CliWork × EcNetCbrc} (code : h.code = 0)
    (handling : ecClientHandleNew platform w h input = .ok handled) :
    (∃ next moved, (h.t = .ack ∧ next = .reqAckd ∨ h.t = .rst ∧ next = .reqRst) ∧
      ecClientSetState platform input.sent w next = .ok moved ∧ handled = (moved.1, .success)) ∨
    (h.t ≠ .ack ∧ h.t ≠ .rst ∧ handled = (w, .error)) := by
  unfold ecClientHandleNew ecClientHandleEmptyPdu at handling
  rw [if_pos code] at handling
  cases type : h.t with
  | ack =>
      rw [type] at handling
      obtain ⟨_, emptied, same⟩ := map_ok handling
      obtain ⟨moved, made, done⟩ := map_ok emptied
      subst done same
      exact Or.inl ⟨.reqAckd, moved, Or.inl ⟨rfl, rfl⟩, made, rfl⟩
  | rst =>
      rw [type] at handling
      obtain ⟨_, emptied, same⟩ := map_ok handling
      obtain ⟨moved, made, done⟩ := map_ok emptied
      subst done same
      exact Or.inl ⟨.reqRst, moved, Or.inr ⟨rfl, rfl⟩, made, rfl⟩
  | con =>
      rw [type] at handling
      cases handling
      exact Or.inr ⟨by decide, by decide, rfl⟩
  | non =>
      rw [type] at handling
      cases handling
      exact Or.inr ⟨by decide, by decide, rfl⟩

end Webthings.Evcoap
