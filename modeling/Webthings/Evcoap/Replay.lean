import Webthings.Evcoap.Duplicates
import Webthings.Evcoap.FirstReplies
import Webthings.Evcoap.ServerRetransmit

namespace Webthings.Evcoap
open Webthings.Transition

/-- The response of a server can be put together, so that the socket alone can still refuse it. -/
def EcServer.Composes (srv : EcServer) : Prop :=
  ∃ res isCon, srv.res = some res ∧ srv.Pairs res ∧ ecIsRespCode srv.flow.respCode ∧
    srv.flow.conn.isConfirmable = some isCon ∧ res.opts.Encodes srv.flow.token

/-- A server with the code of an error reply. -/
def EcServer.failing (srv : EcServer) (rc : EcRc) : EcServer := {srv with flow := (ecFlowSetRespCode srv.flow rc).1}

/-- The log of a server and the records of its base stay as they are. -/
structure EcWork.Quiet (w w' : EcWork) : Prop where
  sent : w'.srv.sent = w.srv.sent
  dups : w'.dups = w.dups

theorem EcWork.Quiet.trans {w middle w' : EcWork} (first : w.Quiet middle) (second : middle.Quiet w') : w.Quiet w' :=
  ⟨second.sent.trans first.sent, second.dups.trans first.dups⟩

theorem EcWork.Quiet.moved {w w' moved : EcWork} {next : EcSrvState} (quiet : w.Quiet w')
    (finished : ecServerSetState w' next = .ok moved) : w.Quiet moved :=
  ⟨(ecServerSetState_sent finished).trans quiet.sent, (ecServerSetState_dups finished).trans quiet.dups⟩

section Silence

variable {platform : Platform}

/-- A response that cannot be put together is neither sent nor cached. -/
theorem ecServerSendResp_quiet (platform : Platform) (env : SendEnv) (purpose : Purpose) {w : EcWork}
    (uncomposed : ¬ w.srv.Composes) :
    w.Quiet (ecServerSendResp platform env purpose w).1 ∧ (ecServerSendResp platform env purpose w).2 ≠ 0 := by
  have refused : (-1 : Int) ≠ 0 := by decide
  unfold ecServerSendResp
  split
  · exact ⟨⟨rfl, rfl⟩, refused⟩
  · rename_i res held
    dsimp only
    split
    · exact ⟨⟨rfl, rfl⟩, refused⟩
    · rename_i paired
      have pairs := (ecServerPairResp_ok_iff w.srv res).mp (by simpa using paired)
      split
      · exact ⟨⟨rfl, rfl⟩, refused⟩
      · rename_i code
        have response : ecIsRespCode w.srv.flow.respCode := by simpa using code
        split
        · exact ⟨⟨rfl, rfl⟩, refused⟩
        · rename_i isCon model
          split
          · exact ⟨⟨rfl, rfl⟩, refused⟩
          · rename_i encoded
            have encodes := (ecServerEncodeResp_ok_iff platform.order env w.srv isCon res response model pairs).mp
              (by simpa using encoded)
            exact absurd ⟨res, isCon, held, pairs, response, model, encodes⟩ uncomposed

theorem ecServerReply_quiet (env : SendEnv) (rc : EcRc) {w : EcWork} (uncomposed : ¬ (w.srv.failing rc).Composes) :
    w.Quiet (ecServerReply platform env rc w).1 := by
  unfold ecServerReply
  split
  · exact ⟨rfl, rfl⟩
  · dsimp only
    split
    · exact ⟨rfl, rfl⟩
    · have quiet := (ecServerSendResp_quiet platform env .reply (w := {w with srv := w.srv.failing rc}) uncomposed).1
      exact ⟨quiet.sent, quiet.dups⟩

theorem ecServerFail_quiet {env : SendEnv} {rc : EcRc} {w failed : EcWork}
    (uncomposed : ∀ code, ¬ (w.srv.failing code).Composes) (finished : ecServerFail platform env rc w = .ok failed) :
    w.Quiet failed := (ecServerReply_quiet env _ (uncomposed _)).moved finished

/-- A control message that makes for no error reply sends nothing. -/
theorem ecServerControlled_quiet {h : EcHdr} {input : ServerInput} {w ended : EcWork} {rc : EcNetCbrc}
    (uncomposed : ControlFails h w.srv → ∀ code, ¬ (w.srv.failing code).Composes)
    (finished : ecServerControlled platform h input w = .ok (ended, rc)) : w.Quiet ended := by
  have failing : ∀ code, ControlFails h w.srv →
      (ecServerFail platform input.env.reply code w).map (fun failed => (failed, EcNetCbrc.error)) = .ok (ended, rc) →
      w.Quiet ended := by
    intro code fails failed
    obtain ⟨replied, reply, same⟩ := map_ok failed
    cases same
    exact ecServerFail_quiet (uncomposed fails) reply
  have ending : ∀ next, (ecServerSetState w next).map (fun moved => (moved, EcNetCbrc.success)) = .ok (ended, rc) →
      w.Quiet ended := by
    intro next entered
    obtain ⟨moved, state, same⟩ := map_ok entered
    cases same
    exact EcWork.Quiet.moved ⟨rfl, rfl⟩ state
  unfold ecServerControlled at finished
  split at finished
  · exact ending _ finished
  · rename_i ack
    split at finished
    · rename_i other
      exact failing _ (ControlFails.of_ack ack other) finished
    · exact ending _ finished
  · rename_i con
    exact failing _ (ControlFails.of_own (Or.inl con)) finished
  · rename_i non
    exact failing _ (ControlFails.of_own (Or.inr non)) finished

/-- A retransmission timer whose response cannot be put together again caches nothing. -/
theorem ecSrvCoapTimeout_quiet {env : SendEnv} {w next : EcWork}
    (uncomposed : w.srv.coap.retriesLeft ≠ 0 → ¬ {w.srv with state := .coapRetry}.Composes)
    (finished : ecSrvCoapTimeout platform env w = .ok next) : w.Quiet next := by
  unfold ecSrvCoapTimeout at finished
  split at finished
  · exact EcWork.Quiet.moved ⟨rfl, rfl⟩ finished
  · rename_i left
    cases moved : ecServerSetState w .coapRetry with
    | error fault =>
        rw [moved] at finished
        cases finished
    | ok retried =>
        have waiting : ecServerCheckTransition w.srv.state .coapRetry = true := by
          unfold ecServerSetState at moved
          split at moved
          · cases moved
          · rename_i permitted
            simpa using permitted
        rw [ecServerSetState_stay _ .coapRetry waiting rfl (by decide)] at moved
        cases moved
        rw [ecServerSetState_stay _ .coapRetry waiting rfl (by decide)] at finished
        obtain ⟨quiet, failed⟩ := ecServerSendResp_quiet platform env .retransmission
          (w := {w with srv := {w.srv with state := .coapRetry}}) (uncomposed left)
        dsimp only at finished
        rw [if_pos failed] at finished
        exact EcWork.Quiet.moved ⟨quiet.sent, quiet.dups⟩ finished

/-- A server that is ready with a response that cannot be put together sends nothing. -/
theorem ecServerReady_quiet {env : SendEnv} {isCon : Bool} {w w' : EcWork} {rc : Int} (uncomposed : ¬ w.srv.Composes)
    (finished : ecServerReady platform env isCon w = .ok (w', rc)) : w.Quiet w' := by
  obtain ⟨quiet, failed⟩ := ecServerSendResp_quiet platform env .response uncomposed
  unfold ecServerReady at finished
  split at finished
  · dsimp only at finished
    rw [if_pos failed] at finished
    cases finished
    exact quiet
  · cases finished
    exact ⟨rfl, rfl⟩

/-- The server as it is when a callback that is run again has made its calls. -/
def EcBase.recalled (platform : Platform) (b : EcBase) (id : SrvId) (env : HandlerEnv) (srv : EcServer) : EcServer :=
  (applyCalls platform env.run.calls
    {b.work id {srv with resched := srv.resched.fired} with invoked := b.invoked + 1}).srv

/-- The server as it is when the user wakes it up. -/
def EcBase.woken (platform : Platform) (b : EcBase) (id : SrvId) (calls : List SrvApi) (srv : EcServer) : EcServer :=
  (applyCalls platform calls (b.work id srv)).srv

theorem applyCalls_quiet (platform : Platform) (calls : List SrvApi) (w : EcWork) : w.Quiet (applyCalls platform calls w) := by
  obtain ⟨⟨code, res, same⟩, _, _⟩ := applyCalls_called platform calls w
  exact ⟨by rw [same], applyCalls_dups platform calls w⟩

/-- The callback of an acknowledged request sends nothing unless the user is ready with a response. -/
theorem ecServerUserfn_quiet {env : HandlerEnv} {w w' : EcWork} {rc : Int} (acked : w.srv.state = .ackSent)
    (uncomposed : env.run.ret = .ready →
      ¬ (applyCalls platform env.run.calls {w with invoked := w.invoked + 1}).srv.Composes)
    (finished : ecServerUserfn platform env w = .ok (w', rc)) : w.Quiet w' := by
  have called := applyCalls_quiet platform env.run.calls {w with invoked := w.invoked + 1}
  have state := (applyCalls_called platform env.run.calls {w with invoked := w.invoked + 1}).state.trans acked
  unfold ecServerUserfn at finished
  split at finished
  · cases finished
    exact ⟨rfl, rfl⟩
  · dsimp only at finished
    generalize applyCalls platform env.run.calls {w with invoked := w.invoked + 1} = after
      at called state uncomposed finished
    have start : w.Quiet after := ⟨called.sent, called.dups⟩
    split at finished
    · rename_i ready
      exact start.trans (ecServerReady_quiet (uncomposed ready) finished)
    · unfold ecServerWait at finished
      rw [if_neg (by rw [state]; decide)] at finished
      cases finished
      exact start
    · cases finished
      exact start
    · cases finished
      exact start

/-- A callback that is run again sends nothing unless the user is ready with a response. -/
theorem reschedUserfn_quiet {b : EcBase} {id : SrvId} {env : HandlerEnv} {srv : EcServer} {next : EcWork}
    (acked : srv.state = .ackSent)
    (uncomposed : env.run.ret = .ready → ¬ (b.recalled platform id env srv).Composes)
    (finished : reschedUserfn platform env (b.work id {srv with resched := srv.resched.fired}) = .ok next) :
    (b.work id srv).Quiet next := by
  unfold reschedUserfn at finished
  split at finished
  · cases finished
  · rename_i run rc ran
    have running := ecServerUserfn_quiet acked uncomposed ran
    have quiet : (b.work id srv).Quiet run := ⟨running.sent, running.dups⟩
    split at finished
    · exact quiet.moved finished
    · cases finished
      exact quiet

/-- A server that is woken up with a response that cannot be put together sends nothing. -/
theorem ecServerWakeup_quiet {b : EcBase} {id : SrvId} {env : SendEnv} {calls : List SrvApi} {srv : EcServer}
    {w' : EcWork} {rc : Int} (uncomposed : ¬ (b.woken platform id calls srv).Composes)
    (finished : ecServerWakeup platform env calls (b.work id srv) = .ok (w', rc)) : (b.work id srv).Quiet w' := by
  have called := applyCalls_quiet platform calls (b.work id srv)
  unfold ecServerWakeup at finished
  dsimp only at finished
  split at finished
  · cases finished
    exact called
  · exact called.trans (ecServerReady_quiet uncomposed finished)

end Silence

/-- What the life of a transaction keeps: the response of a server that is to answer separately answers nothing yet,
and a server that waits for an ACK has sent something. -/
structure EcServer.Tidy (srv : EcServer) : Prop where
  unpaired : srv.freed = false → srv.state = .ackSent → srv.pairedMid = none
  answered : srv.freed = false → srv.state = .waitAck → srv.sent ≠ []

theorem EcServer.Tidy.of_freed {srv : EcServer} (freed : srv.freed = true) : srv.Tidy :=
  ⟨fun live => absurd (freed.symm.trans live) (by decide), fun live => absurd (freed.symm.trans live) (by decide)⟩

theorem EcServer.Tidy.of_acked {srv : EcServer} (acked : srv.state = .ackSent) (unpaired : srv.pairedMid = none) :
    srv.Tidy := ⟨fun _ _ => unpaired, fun _ waiting => absurd (acked.symm.trans waiting) (by decide)⟩

theorem EcServer.Tidy.of_waiting {srv : EcServer} (waiting : srv.state = .waitAck) (answered : srv.sent ≠ []) :
    srv.Tidy := ⟨fun _ acked => absurd (waiting.symm.trans acked) (by decide), fun _ _ => answered⟩

/-- A base between events whose servers are all tidy. -/
structure EcBase.Orderly (b : EcBase) : Prop where
  settled : b.Settled
  tidy : ∀ id srv, b.heap id = some srv → srv.Tidy

theorem ecInit_orderly : ecInit.Orderly := ⟨ecInit_settled, fun _ _ stored => absurd stored (by simp [ecInit])⟩

section Logs

variable {platform : Platform} {b b' : EcBase}

/-- What an event makes of a server that has been there before goes on from the server's log. -/
theorem ServerLife.grows {event : BaseEvent} {id : SrvId} {srv old : EcServer} (orderly : b.Orderly)
    (life : ServerLife platform b event id srv) (held : b.heap id = some old) : ∃ more, srv.sent = old.sent ++ more := by
  have present : ∀ other, b.heap id = some other → other = old := fun other stored =>
    Option.some.inj (stored.symm.trans held)
  have fresh := orderly.settled.fresh.2
  cases life with
  | ended _ _ before _ stored live freed logs =>
      obtain ⟨more, same, _⟩ := logs
      exact ⟨more, present before stored ▸ same⟩
  | refused input _ freed logs => exact absurd (held.symm.trans fresh) (by simp)
  | waits input h _ accepts method waiting => exact absurd (held.symm.trans fresh) (by simp)
  | answers _ _ env before called res stored live acked call responds =>
      obtain ⟨⟨code, response, same⟩, _, _⟩ := call
      have log : called.sent = before.sent := by rw [same]
      refine ⟨[⟨.response, (called.encodedResp platform.order env true res).datagram called.flow.conn⟩], ?_⟩
      rw [← present before stored, ← log]
      rfl
  | repeats _ env before isCon res coap stored live armed waiting left responds =>
      rw [← present before stored]
      exact ⟨_, rfl⟩
  | fails _ calls env before w stored live acked called silent =>
      rw [← present before stored]
      refine ⟨[], ?_⟩
      rw [List.append_nil, called]
      exact (applyCalls_quiet platform calls (b.work id before)).sent
  | idle _ calls env before stored live quiet =>
      rw [← present before stored]
      refine ⟨[], ?_⟩
      rw [List.append_nil]
      exact (applyCalls_quiet platform calls (b.work id before)).sent

/-- What an event makes of a server is tidy. -/
theorem ServerLife.tidy {event : BaseEvent} {id : SrvId} {srv : EcServer} (orderly : b.Orderly)
    (life : ServerLife platform b event id srv) (created : id = b.nextSrv → srv.freed = true ∨ srv.pairedMid = none) :
    srv.Tidy := by
  cases life with
  | ended _ _ before _ stored live freed logs => exact EcServer.Tidy.of_freed freed
  | refused input _ freed logs => exact EcServer.Tidy.of_freed freed
  | waits input h _ accepts method waiting =>
      rcases created rfl with freed | unpaired
      · exact EcServer.Tidy.of_freed freed
      · exact EcServer.Tidy.of_acked waiting.state unpaired
  | answers _ _ env before called res stored live acked call responds =>
      exact EcServer.Tidy.of_waiting rfl (List.append_ne_nil_of_right_ne_nil _ (List.cons_ne_nil _ _))
  | repeats _ env before isCon res coap stored live armed waiting left responds =>
      exact EcServer.Tidy.of_waiting rfl (List.append_ne_nil_of_right_ne_nil _ (List.cons_ne_nil _ _))
  | fails _ calls env before w stored live acked called silent =>
      have state : w.srv.state = .ackSent := by
        rw [called]
        exact (applyCalls_called platform calls (b.work id before)).state.trans acked
      have unpaired : w.srv.pairedMid = none := by
        rw [called, applyCalls_pairedMid]
        exact (orderly.tidy id before stored).unpaired live acked
      refine EcServer.Tidy.of_acked state ?_
      have alike := (ecServerSendResp_recaches platform env .response w).alike
      change (ecServerSendResp platform env .response w).1.srv.pairedMid = none
      cases paired : (ecServerSendResp platform env .response w).1.srv.pairedMid with
      | none => rfl
      | some mid =>
          rcases alike.paired mid paired with earlier | ⟨other, _⟩
          · exact absurd (earlier.symm.trans unpaired) (by simp)
          · exact absurd state other
  | idle _ calls env before stored live quiet =>
      have state : (applyCalls platform calls (b.work id before)).srv.state = before.state :=
        (applyCalls_called platform calls (b.work id before)).state
      have log : (applyCalls platform calls (b.work id before)).srv.sent = before.sent :=
        (applyCalls_quiet platform calls (b.work id before)).sent
      have paired : (applyCalls platform calls (b.work id before)).srv.pairedMid = before.pairedMid :=
        applyCalls_pairedMid platform calls (b.work id before)
      exact ⟨fun _ acked => paired.trans ((orderly.tidy id before stored).unpaired live (state.symm.trans acked)),
        fun _ waiting => log ▸ (orderly.tidy id before stored).answered live (state.symm.trans waiting)⟩

/-- The work of an event leaves its server tidy. -/
theorem ServerWork.tidy {event : BaseEvent} {id : SrvId} {w : EcWork} (orderly : b.Orderly)
    (work : ServerWork platform b event id w) : w.srv.Tidy := by
  have life := work.life orderly.settled
  apply life.tidy orderly
  intro created
  have fresh := orderly.settled.fresh.2
  cases work with
  | request input h w rc accepts method worked =>
      exact (ecServerProcess_caches rfl ⟨_, EcDups.put_self b.dups _ _⟩ worked).2
  | control input h id srv w rc controls found stored worked =>
      rw [created, fresh] at stored
      cases stored
  | rescheduled id env srv w stored armed live worked =>
      rw [created, fresh] at stored
      cases stored
  | coapTimeout id env srv w stored armed live worked =>
      rw [created, fresh] at stored
      cases stored
  | wakeup id calls env srv w rc stored live worked =>
      rw [created, fresh] at stored
      cases stored

theorem baseStep_orderly {event : BaseEvent} (orderly : b.Orderly) (finished : baseStep platform b event = .ok b') :
    b'.Orderly := by
  refine ⟨baseStep_keeps_settled orderly.settled finished, fun id srv stored => ?_⟩
  rcases baseStep_effect finished with same | ⟨here, w, work, worked⟩
  · exact orderly.tidy id srv (same.heap ▸ stored)
  · rw [worked.heap] at stored
    split at stored
    · cases stored
      exact work.tidy orderly
    · exact orderly.tidy id srv stored

end Logs

/-- A server that has not sent anything yet. -/
def EcServer.Mute (srv : EcServer) : Prop := srv.freed = false ∧ srv.sent = []

/-- The events that put another reply into a record: a separate response that is sent again, an error reply to a
control message of a request that is no longer to be answered, and the ACK of a client. -/
def EcBase.Overwrites (platform : Platform) (b : EcBase) (event : BaseEvent) (key : DupKey) : Prop :=
  match event with
  | .datagram input => ∃ h, b.Accepts platform input h ∧
      ((∃ id srv rc, h.code = 0 ∧ ecServersLookup b h.mid input.sd input.peer = some id ∧ b.heap id = some srv ∧
          ControlFails h srv ∧ srv.Touches platform key ∧ (srv.failing rc).Composes) ∨
        (ecIsMethod h.code.toNat ∧ input.sd = 0 ∧ key = ecDupKeyNew platform h.mid SockAddr.zero))
  | .coapTimeout id _ => ∃ srv, b.heap id = some srv ∧ srv.freed = false ∧ srv.coap.pending = true ∧
      srv.coap.retriesLeft ≠ 0 ∧ srv.Touches platform key ∧ {srv with state := .coapRetry}.Composes
  | .request _ _ _ | .client _ _ => b.Touches platform event key
  | .rescheduled _ _ | .wakeup _ _ _ | .countdown _ | .registry _ | .callbacks _ _ => False

/-- The events that send the first reply to a request after its handler has returned: it answers no message, so that no
record keeps it. -/
def EcBase.RepliesLate (platform : Platform) (b : EcBase) (event : BaseEvent) (own : SrvId) : Prop :=
  match event with
  | .datagram input => ∃ h srv rc, b.Accepts platform input h ∧ h.code = 0 ∧
      ecServersLookup b h.mid input.sd input.peer = some own ∧ b.heap own = some srv ∧ srv.Mute ∧
      ControlFails h srv ∧ (srv.failing rc).Composes
  | .rescheduled id env => id = own ∧ env.run.ret = .ready ∧ ∃ srv, b.heap own = some srv ∧ srv.Mute ∧
      (b.recalled platform own env srv).Composes
  | .wakeup id calls _ => id = own ∧ ∃ srv, b.heap own = some srv ∧ srv.Mute ∧
      (b.woken platform own calls srv).Composes
  | .coapTimeout _ _ | .countdown _ | .registry _ | .callbacks _ _ | .request _ _ _ | .client _ _ => False

/-- The events that leave the first reply to a request in its record. -/
def KeepsReply (platform : Platform) (key : DupKey) (own : SrvId) (b : EcBase) (event : BaseEvent) : Prop :=
  ¬ b.RepliesLate platform event own ∧
    ∀ srv, b.heap own = some srv → srv.sent ≠ [] → ¬ b.Overwrites platform event key

/-- The record of a request holds the first reply of its server. -/
structure EcBase.Remembers (b : EcBase) (key : DupKey) (own : SrvId) (peer : SockAddr) : Prop where
  orderly : b.Orderly
  cached : ∃ srv recvd, b.heap own = some srv ∧ b.dups key = some recvd ∧
    ∀ first rest, srv.sent = first :: rest →
      (ecNetSocklen peer).isSome ∧ recvd.cachedPdu = some first.datagram.cached

section Runs

variable {platform : Platform} {b b' : EcBase} {key : DupKey}

/-- A live record that an event does not touch stays as it is. -/
theorem EcBase.Records.frame {event : BaseEvent} {dups : EcDups} (records : b.Records platform event dups)
    {recvd : EcRecvdPdu} (present : b.dups key = some recvd) (alive : event ≠ .countdown key)
    (untouched : ¬ b.Touches platform event key) : dups key = some recvd := by
  cases records with
  | kept event dups same => exact (same.frame key untouched).trans present
  | received input h dups accepts same =>
      exact (same.frame key untouched).trans (ecDupsInsert_kept input.raw accepts.fresh present)
  | heard cid cli input h dups stored hears same =>
      exact (same.frame key untouched).trans (ecDupsInsert_kept input.raw hears.fresh present)
  | zapped zap =>
      have other : key ≠ zap := fun same => alive (by rw [same])
      exact (EcDups.del_other b.dups other).trans present

/-- A live record that an event does not overwrite stays as it is. -/
theorem baseStep_keeps_record {event : BaseEvent} (orderly : b.Orderly) (finished : baseStep platform b event = .ok b')
    {recvd : EcRecvdPdu} (present : b.dups key = some recvd) (alive : event ≠ .countdown key)
    (kept : ¬ b.Overwrites platform event key) : b'.dups key = some recvd := by
  by_cases touched : b.Touches platform event key
  · have owing : ∀ id srv, b.heap id = some srv → srv.freed = false → ¬ srv.Owes platform key := by
      rintro id srv stored live ⟨ready, mid, _, paired⟩
      have acked : srv.state = .ackSent := by
        rcases (orderly.settled.pending id srv stored live).2.state with ⟨acked, _⟩ | ⟨waiting, _⟩
        · exact acked
        · have state : srv.state = .waitAck := waiting
          rw [state] at ready
          rcases ready with acked | accepted
          · cases acked
          · cases accepted
      rcases paired with paired | ⟨other, _⟩
      · exact absurd (paired.symm.trans ((orderly.tidy id srv stored).unpaired live acked)) (by simp)
      · exact other acked
    cases event with
    | datagram input =>
        obtain ⟨h, accepts, ⟨id, srv, empty, found, stored, fails, touches⟩ | ⟨method, peer, same, sender⟩⟩ := touched
        · have uncomposed : ∀ code, ¬ (srv.failing code).Composes := fun code composes =>
            kept ⟨h, accepts, Or.inl ⟨id, srv, code, empty, found, stored, fails, touches, composes⟩⟩
          have controls : b.Controls platform input h := ⟨accepts, empty, fun reset => by
            unfold ControlFails at fails
            rw [reset] at fails
            exact fails.elim⟩
          obtain ⟨w, rc, worked, _⟩ := ecServerControlled_ended platform h input ((b.seen platform input h).work id srv)
          obtain ⟨next, stepped, after⟩ :=
            (ServerWork.control input h id srv w rc controls found stored worked).step
          have same : next = b' := Except.ok.inj (stepped.symm.trans finished)
          have quiet := ecServerControlled_quiet (fun _ => uncomposed) worked
          rw [← same, after.dups, quiet.dups]
          exact ecDupsInsert_kept input.raw accepts.fresh present
        · rcases sender with own | ⟨zero, unknown⟩
          · rw [same, own] at present
            exact absurd (present.symm.trans accepts.fresh) (by simp)
          · exact absurd ⟨h, accepts, Or.inr ⟨method, zero, unknown ▸ same⟩⟩ kept
    | coapTimeout id env =>
        obtain ⟨srv, stored, live, armed, left, touches⟩ := touched
        have uncomposed : ¬ {srv with state := .coapRetry}.Composes := fun composes =>
          kept ⟨srv, stored, live, armed, left, touches, composes⟩
        rcases EcBase.fire_ok finished with same | ⟨other, w, held, _, _, worked, same⟩
        · exact same ▸ present
        · cases held.symm.trans stored
          have quiet := ecSrvCoapTimeout_quiet (fun _ => uncomposed) worked
          rw [same]
          change w.dups key = some recvd
          rw [quiet.dups]
          exact present
    | rescheduled id env =>
        obtain ⟨srv, stored, live, owed⟩ := touched
        exact absurd owed (owing id srv stored live)
    | wakeup id calls env =>
        obtain ⟨srv, stored, live, owed⟩ := touched
        exact absurd owed (owing id srv stored live)
    | request cli tout destination => exact absurd touched kept
    | client cid event => exact absurd touched kept
    | countdown zap => exact touched.elim
    | registry observing => exact touched.elim
    | callbacks resources fb => exact touched.elim
  · exact (baseStep_records finished).frame present alive touched

/-- The work of a mute server leaves it mute, unless it replies late. -/
theorem ServerWork.mute {event : BaseEvent} {own : SrvId} {w : EcWork} {srv : EcServer} (orderly : b.Orderly)
    (work : ServerWork platform b event own w) (held : b.heap own = some srv) (silent : srv.sent = [])
    (kept : ¬ b.RepliesLate platform event own) : w.srv.sent = [] := by
  have acked : srv.freed = false → srv.state = .ackSent := by
    intro live
    rcases (orderly.settled.pending own srv held live).2.state with ⟨acked, _⟩ | ⟨waiting, _⟩
    · exact acked
    · exact absurd silent ((orderly.tidy own srv held).answered live waiting)
  cases work with
  | control input h _ other _ rc controls found stored worked =>
      cases held.symm.trans stored
      obtain ⟨other, same, live⟩ := orderly.settled.listed own (ecServersLookup_mem found).1
      cases held.symm.trans same
      have quiet := ecServerControlled_quiet (fun fails code composes => kept
        ⟨h, srv, code, controls.toAccepts, controls.empty, found, held, ⟨live, silent⟩, fails, composes⟩) worked
      exact quiet.sent.trans silent
  | request input h _ rc accepts method worked =>
      exact absurd (held.symm.trans orderly.settled.fresh.2) (by simp)
  | rescheduled _ env other _ stored armed live worked =>
      cases held.symm.trans stored
      have quiet := reschedUserfn_quiet (acked live) (fun ready composes => kept
        ⟨rfl, ready, srv, held, ⟨live, silent⟩, composes⟩) worked
      exact quiet.sent.trans silent
  | coapTimeout _ env other _ stored armed live worked =>
      cases held.symm.trans stored
      obtain ⟨_, waiting, _⟩ := orderly.settled.timedOut held live armed
      exact absurd ((acked live).symm.trans waiting) (by decide)
  | wakeup _ calls env other _ rc stored live worked =>
      cases held.symm.trans stored
      have quiet := ecServerWakeup_quiet (fun composes => kept ⟨rfl, srv, held, ⟨live, silent⟩, composes⟩) worked
      exact quiet.sent.trans silent

/-- The first reply of a server stays the first one, and a mute server stays mute unless it replies late. -/
theorem baseStep_keeps_first {event : BaseEvent} {own : SrvId} {srv : EcServer} (orderly : b.Orderly)
    (finished : baseStep platform b event = .ok b') (held : b.heap own = some srv)
    (kept : ¬ b.RepliesLate platform event own) :
    ∃ srv', b'.heap own = some srv' ∧ ∀ first rest, srv'.sent = first :: rest → ∃ rest', srv.sent = first :: rest' := by
  rcases baseStep_effect finished with same | ⟨id, w, work, worked⟩
  · exact ⟨srv, same.heap ▸ held, fun first rest log => ⟨rest, log⟩⟩
  · have here : w.self = id := (work.done orderly.settled).same
    by_cases mine : own = id
    · subst mine
      refine ⟨w.srv, by rw [worked.heap, if_pos here.symm], fun first rest log => ?_⟩
      obtain ⟨more, grown⟩ := (work.life orderly.settled).grows orderly held
      cases sent : srv.sent with
      | nil =>
          have mute := work.mute orderly held sent kept
          exact absurd (log.symm.trans mute) (List.cons_ne_nil _ _)
      | cons earlier others =>
          rw [grown, sent] at log
          exact ⟨others, by rw [(List.cons.inj log).1]⟩
    · exact ⟨srv, by rw [worked.heap, if_neg (here ▸ mine), held], fun first rest log => ⟨rest, log⟩⟩

/-- A guarded event leaves the first reply of a request in its record. -/
theorem baseStep_remembers {event : BaseEvent} {own : SrvId} {peer : SockAddr} (remembers : b.Remembers key own peer)
    (kept : KeepsReply platform key own b event) (alive : event ≠ .countdown key)
    (finished : baseStep platform b event = .ok b') : b'.Remembers key own peer := by
  refine ⟨baseStep_orderly remembers.orderly finished, ?_⟩
  obtain ⟨srv, recvd, held, present, cached⟩ := remembers.cached
  obtain ⟨srv', held', firsts⟩ := baseStep_keeps_first remembers.orderly finished held kept.1
  cases sent : srv.sent with
  | nil =>
      obtain ⟨recvd', present', _⟩ := (baseStep_records finished).keeps present alive
      refine ⟨srv', recvd', held', present', fun first rest log => ?_⟩
      obtain ⟨rest', earlier⟩ := firsts first rest log
      exact absurd (earlier.symm.trans sent) (List.cons_ne_nil _ _)
  | cons first rest =>
      have untouched := kept.2 srv held (by rw [sent]; exact List.cons_ne_nil _ _)
      have present' := baseStep_keeps_record remembers.orderly finished present alive untouched
      refine ⟨srv', recvd, held', present', fun first rest log => ?_⟩
      obtain ⟨rest', earlier⟩ := firsts first rest log
      exact cached first rest' earlier

/-- A guarded run leaves the first reply of a request in its record. -/
theorem baseRun_remembers {events : List BaseEvent} {own : SrvId} {peer : SockAddr}
    (remembers : b.Remembers key own peer) (kept : (baseMachine platform).Meets (KeepsReply platform key own) b events)
    (alive : .countdown key ∉ events) (finished : (baseMachine platform).run b events = .ok b') :
    b'.Remembers key own peer := by
  induction events generalizing b with
  | nil =>
      have same : b = b' := by simpa using finished
      exact same ▸ remembers
  | cons event events ih =>
      obtain ⟨next, stepped, rest⟩ := (baseMachine platform).run_cons_ok finished
      have first := baseStep_remembers remembers kept.1 (fun same => alive (same ▸ List.mem_cons_self)) stepped
      exact ih first (kept.2 next stepped) (fun later => alive (List.mem_cons_of_mem event later)) rest

/-- The handling of a request leaves its first reply in its record. -/
theorem EcBase.Accepts.remembers {request : ServerInput} {h : EcHdr} (orderly : b.Orderly)
    (accepts : b.Accepts platform request h) (method : ecIsMethod h.code.toNat)
    (handled : baseStep platform b (.datagram request) = .ok b') :
    b'.Remembers (ecDupKeyNew platform h.mid request.peer) b.nextSrv request.peer := by
  refine ⟨baseStep_orderly orderly handled, ?_⟩
  obtain ⟨recvd, present, _⟩ := accepts.recorded handled
  rw [baseStep_request platform b request h accepts method] at handled
  obtain ⟨⟨w, outcome⟩, worked, same⟩ := map_ok handled
  cases same
  have done := (ServerWork.request request h w outcome accepts method worked).done orderly.settled
  have here : w.self = b.nextSrv := done.same
  have stored : (EcBase.store {b.seen platform request h with nextSrv := b.nextSrv + 1} w).heap b.nextSrv =
      some w.srv := if_pos here.symm
  obtain ⟨cached, _⟩ := ecServerProcess_caches rfl ⟨_, EcDups.put_self b.dups _ _⟩ worked
  rcases cached with silent | ⟨s, recvd, sent, family, kept, reply⟩
  · exact ⟨w.srv, recvd, stored, present, fun first rest log => absurd (log.symm.trans silent) (List.cons_ne_nil _ _)⟩
  · refine ⟨w.srv, recvd, stored, kept, fun first rest log => ?_⟩
    have sole : first = s := (List.cons.inj (log.symm.trans sent)).1
    exact ⟨family, sole ▸ reply⟩

/-- A message of this MID from this peer makes the base send one datagram, with the pieces of the first one, and does
nothing else. -/
def EcBase.Replays (platform : Platform) (b : EcBase) (mid : UInt16) (peer : SockAddr) (first : Datagram) : Prop :=
  ∀ duplicate h, duplicate.peer = peer → duplicate.raw ≠ [] → duplicate.sd ≠ -1 → duplicate.env.resend = true →
    ecPduDecodeHeader platform.order duplicate.raw = some h → h.mid = mid →
    baseStep platform b (.datagram duplicate) =
      .ok {b with resent := b.resent ++ [{first with sd := duplicate.sd, peer := duplicate.peer}]}

/-- A base that remembers a reply replays it. -/
theorem EcBase.Remembers.replays {own : SrvId} {mid : UInt16} {peer : SockAddr} {srv : EcServer} {first : Sent}
    {rest : List Sent} (remembers : b.Remembers (ecDupKeyNew platform mid peer) own peer)
    (stored : b.heap own = some srv) (replied : srv.sent = first :: rest) :
    b.Replays platform mid peer first.datagram := by
  obtain ⟨other, recvd, held, present, cached⟩ := remembers.cached
  cases held.symm.trans stored
  obtain ⟨family, reply⟩ := cached first rest replied
  intro duplicate h sender nonempty socket taken header own
  subst sender
  subst own
  have handed : ecNetSend duplicate.env.resend first.datagram.hdr first.datagram.opts first.datagram.payload
      duplicate.sd duplicate.peer = some {first.datagram with sd := duplicate.sd, peer := duplicate.peer} := by
    obtain ⟨length, known⟩ := Option.isSome_iff_exists.mp family
    unfold ecNetSend
    rw [if_neg socket, known, taken]
    rfl
  have check : ecDupsHandleIncomingClimsg platform b.dups h.mid duplicate.sd duplicate.peer duplicate.raw
      duplicate.env.resend =
      ⟨b.dups, 1, some {first.datagram with sd := duplicate.sd, peer := duplicate.peer}⟩ := by
    unfold ecDupsHandleIncomingClimsg ecDupsHandleIncoming ecDupsSearch
    rw [present]
    dsimp only
    rw [reply]
    dsimp only [Datagram.cached]
    rw [handed]
  dsimp only [baseStep]
  unfold ecServerHandlePdu
  rw [if_neg (by simp [nonempty, socket]), header]
  dsimp only
  rw [check, if_pos rfl]
  rfl

end Runs

/-- In every run from the initialisation, the first reply to an accepted request is what its duplicates get until the
countdown of its record fires, as long as every event since the request meets the guard. -/
theorem repliedRequest_replays (platform : Platform) (past later : List BaseEvent) (request : ServerInput) (h : EcHdr)
    (b start b' : EcBase) (reached : (baseMachine platform).run ecInit past = .ok b)
    (accepts : b.Accepts platform request h) (method : ecIsMethod h.code.toNat)
    (handled : baseStep platform b (.datagram request) = .ok start)
    (finished : (baseMachine platform).run start later = .ok b')
    (alive : .countdown (ecDupKeyNew platform h.mid request.peer) ∉ later)
    (kept : (baseMachine platform).Meets
      (KeepsReply platform (ecDupKeyNew platform h.mid request.peer) b.nextSrv) start later)
    (srv : EcServer) (first : Sent) (rest : List Sent) (stored : b'.heap b.nextSrv = some srv)
    (replied : srv.sent = first :: rest) : b'.Replays platform h.mid request.peer first.datagram := by
  have orderly : b.Orderly := (baseMachine platform).run_preserves EcBase.Orderly
    (fun _ _ _ held stepped => baseStep_orderly held stepped) ecInit_orderly reached
  have remembers := accepts.remembers orderly method handled
  exact (baseRun_remembers remembers kept alive finished).replays stored replied

/-- The separate response to an acknowledged GET is sent, and sent again. -/
def retransmittedAnswer : List BaseEvent := [.rescheduled 0 answersLater, .coapTimeout 0 ⟨0, 0x1234, true⟩]

/-- A duplicate then gets the response instead of the ACK. -/
theorem retransmittedAnswer_replaces : ¬ ∀ (platform : Platform) (past later : List BaseEvent) (request : ServerInput)
    (h : EcHdr) (b start b' : EcBase), (baseMachine platform).run ecInit past = .ok b →
    b.Accepts platform request h → ecIsMethod h.code.toNat → baseStep platform b (.datagram request) = .ok start →
    (baseMachine platform).run start later = .ok b' → .countdown (ecDupKeyNew platform h.mid request.peer) ∉ later →
    ∀ (srv : EcServer) (first : Sent) (rest : List Sent), b'.heap b.nextSrv = some srv → srv.sent = first :: rest →
      b'.Replays platform h.mid request.peer first.datagram := by
  intro always
  have run : ∃ start b' srv first rest after,
      baseStep serverPlatform {ecInit with fb := true} (.datagram waitingGet) = .ok start ∧
      (baseMachine serverPlatform).run start retransmittedAnswer = .ok b' ∧ b'.heap 0 = some srv ∧
      srv.sent = first :: rest ∧ first.datagram.hdr = [0x60, 0, 0, 7] ∧
      baseStep serverPlatform b' (.datagram waitingGet) = .ok after ∧
      after.resent.map (fun again => again.hdr.take 2) = [[0x40, 0x45]] :=
    ⟨_, _, _, _, _, _, rfl, rfl, rfl, rfl, rfl, rfl, rfl⟩
  obtain ⟨start, b', srv, first, rest, after, handled, finished, stored, sent, ack, again, response⟩ := run
  have accepts : EcBase.Accepts serverPlatform {ecInit with fb := true} waitingGet ⟨.con, 1, 1, 0x0700⟩ :=
    ⟨by decide, by decide, by decide, rfl⟩
  have replays := always serverPlatform [.callbacks [] true] retransmittedAnswer waitingGet ⟨.con, 1, 1, 0x0700⟩
    {ecInit with fb := true} start b' rfl accepts (by decide) handled finished (by simp [retransmittedAnswer]) srv first
    rest stored sent waitingGet ⟨.con, 1, 1, 0x0700⟩ rfl (by decide) (by decide) rfl (by decide) rfl
  have same := Except.ok.inj (again.symm.trans replays)
  rw [same] at response
  have last := congrArg List.getLast? response
  simp [ack] at last

/-- A duplicate of the GET meets the guard of every request. -/
theorem waitingGet_keepsReply (b : EcBase) (key : DupKey) (own : SrvId) :
    KeepsReply serverPlatform key own b (.datagram waitingGet) := by
  have code : ∀ h, b.Accepts serverPlatform waitingGet h → h.code = 1 := by
    intro h accepts
    have header : ecPduDecodeHeader serverPlatform.order waitingGet.raw = some ⟨.con, 1, 1, 0x0700⟩ := rfl
    rw [← Option.some.inj (header.symm.trans accepts.header)]
  constructor
  · rintro ⟨h, srv, rc, accepts, empty, _⟩
    exact absurd (empty.symm.trans (code h accepts)) (by decide)
  · rintro srv _ _ ⟨h, accepts, ⟨id, other, rc, empty, _⟩ | ⟨_, zero, _⟩⟩
    · exact absurd (empty.symm.trans (code h accepts)) (by decide)
    · exact absurd zero (by decide)

/-- A duplicate gets the ACK of the GET again, before its separate response is sent and after. -/
theorem waitingGet_replays : ∃ start b', baseStep serverPlatform {ecInit with fb := true} (.datagram waitingGet) =
      .ok start ∧
    (baseMachine serverPlatform).run start [.datagram waitingGet, .rescheduled 0 answersLater] = .ok b' ∧
    b'.Replays serverPlatform 0x0700 loopbackPeer ⟨[0x60, 0, 0, 7], [], [], 5, loopbackPeer⟩ := by
  have run : ∃ start middle b' ack rest srv acked,
      baseStep serverPlatform {ecInit with fb := true} (.datagram waitingGet) = .ok start ∧
      baseStep serverPlatform start (.datagram waitingGet) = .ok middle ∧
      middle.heap 0 = some acked ∧ acked.sent = [ack] ∧
      (baseMachine serverPlatform).run start [.datagram waitingGet, .rescheduled 0 answersLater] = .ok b' ∧
      b'.heap 0 = some srv ∧ srv.sent = ack :: rest ∧
      ack.datagram = ⟨[0x60, 0, 0, 7], [], [], 5, loopbackPeer⟩ := ⟨_, _, _, _, _, _, _, rfl, rfl, rfl, rfl, rfl, rfl, rfl, rfl⟩
  obtain ⟨start, middle, b', ack, rest, srv, acked, handled, again, held, only, finished, stored, sent, first⟩ := run
  have accepts : EcBase.Accepts serverPlatform {ecInit with fb := true} waitingGet ⟨.con, 1, 1, 0x0700⟩ :=
    ⟨by decide, by decide, by decide, rfl⟩
  refine ⟨start, b', handled, finished, ?_⟩
  rw [← first]
  apply repliedRequest_replays serverPlatform [.callbacks [] true] [.datagram waitingGet, .rescheduled 0 answersLater]
    waitingGet ⟨.con, 1, 1, 0x0700⟩ {ecInit with fb := true} start b' rfl accepts (by decide) handled finished (by simp)
  · refine ⟨waitingGet_keepsReply start _ _, fun next stepped => ⟨⟨?_, fun _ _ _ => id⟩, fun _ _ => trivial⟩⟩
    rintro ⟨_, _, mute, loaded, ⟨_, silent⟩, _⟩
    cases again.symm.trans stepped
    cases held.symm.trans loaded
    exact absurd (only.symm.trans silent) (List.cons_ne_nil _ _)
  · exact stored
  · exact sent

end Webthings.Evcoap
