import Webthings.Evcoap.Answers

namespace Webthings.Evcoap
open Webthings.Transition

/-- A datagram goes out over a connection. -/
structure Datagram.Over (d : Datagram) (conn : EcConn) : Prop where
  socket : d.sd = conn.socket
  peer : d.peer = conn.peer
  reachable : conn.Reachable

/-- A server keeps its endpoints, and whatever it sends goes out over them. -/
structure EcServer.Posts (old new : EcServer) : Prop where
  socket : new.flow.conn.socket = old.flow.conn.socket
  peer : new.flow.conn.peer = old.flow.conn.peer
  sent : ∃ more, new.sent = old.sent ++ more ∧ ∀ s ∈ more, s.datagram.Over old.flow.conn

namespace EcServer.Posts

variable {old middle new : EcServer}

theorem of_same (conn : new.flow.conn = old.flow.conn) (sent : new.sent = old.sent) : old.Posts new :=
  ⟨by rw [conn], by rw [conn], [], by rw [sent, List.append_nil], by simp⟩

theorem refl (srv : EcServer) : srv.Posts srv := of_same rfl rfl

theorem trans (first : old.Posts middle) (second : middle.Posts new) : old.Posts new := by
  obtain ⟨more, log, along⟩ := first.sent
  obtain ⟨more', log', along'⟩ := second.sent
  refine ⟨second.socket.trans first.socket, second.peer.trans first.peer, more ++ more',
    by rw [log', log, List.append_assoc], ?_⟩
  refine List.forall_mem_append.mpr ⟨along, fun s member => ?_⟩
  obtain ⟨socket, peer, valid, known⟩ := along' s member
  refine ⟨socket.trans first.socket, peer.trans first.peer, ?_⟩
  rw [first.socket] at valid
  rw [first.peer] at known
  exact ⟨valid, known⟩

/-- The log of a server takes in what was handed to the socket of its connection. -/
theorem of_log {srv : EcServer} {purpose : Purpose} {sent : Bool} {hdr opts payload : List UInt8}
    (conn : srv.flow.conn = old.flow.conn) (log : srv.sent = old.sent) :
    old.Posts (srv.log purpose (ecNetSend sent hdr opts payload old.flow.conn.socket old.flow.conn.peer)) := by
  have same : (srv.log purpose (ecNetSend sent hdr opts payload old.flow.conn.socket old.flow.conn.peer)).flow.conn =
      old.flow.conn := conn
  refine ⟨by rw [same], by rw [same], _, congrArg (· ++ _) log, ?_⟩
  intro s member
  obtain ⟨d, handed, rfl⟩ := List.mem_map.mp member
  have went := Option.mem_toList.mp handed
  have reached := (ecNetSend_isSome sent hdr opts payload old.flow.conn.socket old.flow.conn.peer).mp
    (Option.isSome_of_mem went)
  have whole := ecNetSend_some went
  subst whole
  exact ⟨rfl, rfl, reached.1, reached.2.1⟩

end EcServer.Posts

section Handlers

variable (platform : Platform)

theorem ecServerSendResp_posts (env : SendEnv) (purpose : Purpose) (w : EcWork) :
    w.srv.Posts (ecServerSendResp platform env purpose w).1.srv := by
  unfold ecServerSendResp
  split
  · exact EcServer.Posts.refl w.srv
  · dsimp only
    split
    · exact EcServer.Posts.of_same rfl rfl
    · split
      · exact EcServer.Posts.of_same rfl rfl
      · split
        · exact EcServer.Posts.of_same rfl rfl
        · split
          · exact EcServer.Posts.of_same rfl rfl
          · rw [ecPduSend_datagram]
            exact EcServer.Posts.of_log rfl rfl

theorem ecServerReply_posts (env : SendEnv) (rc : EcRc) (w : EcWork) :
    w.srv.Posts (ecServerReply platform env rc w).1.srv := by
  obtain ⟨code, same⟩ := ecFlowSetRespCode_frame w.srv.flow rc
  unfold ecServerReply
  split
  · exact EcServer.Posts.refl w.srv
  · dsimp only
    split
    · exact EcServer.Posts.refl w.srv
    · have coded : w.srv.Posts {w.srv with flow := (ecFlowSetRespCode w.srv.flow rc).1} :=
        EcServer.Posts.of_same (by rw [same]) rfl
      exact coded.trans (ecServerSendResp_posts platform env .reply
        {w with srv := {w.srv with flow := (ecFlowSetRespCode w.srv.flow rc).1}})

theorem ecServerSetState_posts {w moved : EcWork} {next : EcSrvState} (finished : ecServerSetState w next = .ok moved) :
    w.srv.Posts moved.srv := by
  have sent := ecServerSetState_sent finished
  refine EcServer.Posts.of_same ?_ sent
  unfold ecServerSetState at finished
  split at finished
  · cases finished
  · split at finished
    · cases finished
    · rename_i entered enters
      have conn : entered.flow.conn = w.srv.flow.conn := by
        unfold ecServerEnter at enters
        split at enters
        · split at enters
          · cases enters
            rfl
          · split at enters
            · obtain ⟨coap, _, same⟩ := Option.map_eq_some_iff.mp enters
              rw [← same]
            · cases enters
              rfl
        · cases enters
          rfl
      dsimp only at finished
      split at finished
      · cases finished
        exact conn
      · cases finished
        exact conn

theorem ecServerFail_posts {env : SendEnv} {rc : EcRc} {w failed : EcWork}
    (finished : ecServerFail platform env rc w = .ok failed) : w.srv.Posts failed.srv :=
  (ecServerReply_posts platform env _ w).trans (ecServerSetState_posts finished)

theorem ecServerSendSeparateAck_posts (sent : Bool) (w : EcWork) :
    w.srv.Posts (ecServerSendSeparateAck platform sent w).1.srv := by
  unfold ecServerSendSeparateAck
  split
  · exact EcServer.Posts.refl w.srv
  · split
    · exact EcServer.Posts.refl w.srv
    · dsimp only
      split
      · exact EcServer.Posts.refl w.srv
      · split
        · exact EcServer.Posts.refl w.srv
        · rw [ecPduSend_datagram]
          split
          · exact EcServer.Posts.refl w.srv
          · rename_i handed
            dsimp only
            rw [← handed]
            exact EcServer.Posts.of_log rfl rfl

theorem EcServer.Called.posts {srv called : EcServer} (call : srv.Called called) : srv.Posts called := by
  have conn := call.conn
  obtain ⟨⟨code, res, same⟩, _, _⟩ := call
  exact EcServer.Posts.of_same conn (by rw [same])

theorem ecServerReady_posts {env : SendEnv} {isCon : Bool} {w w' : EcWork} {rc : Int}
    (finished : ecServerReady platform env isCon w = .ok (w', rc)) : w.srv.Posts w'.srv := by
  have responded := ecServerSendResp_posts platform env .response w
  unfold ecServerReady at finished
  split at finished
  · dsimp only at finished
    split at finished
    · cases finished
      exact responded
    · obtain ⟨moved, entered, same⟩ := map_ok finished
      cases same
      exact responded.trans (ecServerSetState_posts entered)
  · cases finished
    exact EcServer.Posts.refl w.srv

theorem ecServerWait_posts {env : HandlerEnv} {isCon : Bool} {w w' : EcWork} {rc : Int}
    (finished : ecServerWait platform env isCon w = .ok (w', rc)) : w.srv.Posts w'.srv := by
  have acked : w.srv.Posts (if isCon then ecServerSendSeparateAck platform env.ack w else (w, 0)).1.srv := by
    split
    · exact ecServerSendSeparateAck_posts platform env.ack w
    · exact EcServer.Posts.refl w.srv
  unfold ecServerWait at finished
  generalize (if isCon then ecServerSendSeparateAck platform env.ack w else (w, 0)) = ack at acked finished
  split at finished
  · dsimp only at finished
    split at finished
    · cases finished
      exact acked
    · obtain ⟨resched, code, same⟩ := ecServerRescheduleUserfn_frame env.run.tv (ecServerAdd ack.1)
      rw [same] at finished
      dsimp only at finished
      have added : w.srv.Posts {(ecServerAdd ack.1).srv with resched := resched} :=
        acked.trans (EcServer.Posts.of_same rfl rfl)
      split at finished
      · cases finished
        exact added
      · obtain ⟨moved, entered, same⟩ := map_ok finished
        cases same
        exact added.trans (ecServerSetState_posts entered)
  · cases finished
    exact EcServer.Posts.refl w.srv

theorem ecServerUserfn_posts {env : HandlerEnv} {w w' : EcWork} {rc : Int}
    (finished : ecServerUserfn platform env w = .ok (w', rc)) : w.srv.Posts w'.srv := by
  have call := (applyCalls_called platform env.run.calls {w with invoked := w.invoked + 1}).posts
  unfold ecServerUserfn at finished
  split at finished
  · cases finished
    exact EcServer.Posts.refl w.srv
  · dsimp only at finished
    split at finished
    · exact call.trans (ecServerReady_posts platform finished)
    · exact call.trans (ecServerWait_posts platform finished)
    · cases finished
      exact call
    · cases finished
      exact call

theorem ecServerDispatch_posts {resources : List (List UInt8)} {fb : Bool} {env : HandlerEnv} {w w' : EcWork}
    {rc : EcNetCbrc} (finished : ecServerDispatch platform resources fb env w = .ok (w', rc)) : w.srv.Posts w'.srv := by
  unfold ecServerDispatch at finished
  split at finished
  · split at finished
    · cases finished
    · rename_i run code ran
      have called := ecServerUserfn_posts platform ran
      split at finished
      · obtain ⟨failed, ended, same⟩ := map_ok finished
        cases same
        exact called.trans (ecServerFail_posts platform ended)
      · cases finished
        exact called
  · obtain ⟨moved, entered, same⟩ := map_ok finished
    cases same
    exact (ecServerReply_posts platform env.reply ecNotFound w).trans (ecServerSetState_posts entered)

theorem ecServerControlled_posts {h : EcHdr} {input : ServerInput} {w ended : EcWork} {rc : EcNetCbrc}
    (finished : ecServerControlled platform h input w = .ok (ended, rc)) : w.srv.Posts ended.srv := by
  unfold ecServerControlled at finished
  split at finished
  · obtain ⟨moved, entered, same⟩ := map_ok finished
    cases same
    exact ecServerSetState_posts entered
  · split at finished
    · obtain ⟨failed, replied, same⟩ := map_ok finished
      cases same
      exact ecServerFail_posts platform replied
    · obtain ⟨moved, entered, same⟩ := map_ok finished
      cases same
      exact ecServerSetState_posts entered
  · obtain ⟨failed, replied, same⟩ := map_ok finished
    cases same
    exact ecServerFail_posts platform replied
  · obtain ⟨failed, replied, same⟩ := map_ok finished
    cases same
    exact ecServerFail_posts platform replied

theorem ecSrvCoapTimeout_posts {env : SendEnv} {w next : EcWork}
    (finished : ecSrvCoapTimeout platform env w = .ok next) : w.srv.Posts next.srv := by
  unfold ecSrvCoapTimeout at finished
  split at finished
  · exact ecServerSetState_posts finished
  · split at finished
    · cases finished
    · rename_i retried entered
      have responded := (ecServerSetState_posts entered).trans
        (ecServerSendResp_posts platform env .retransmission retried)
      dsimp only at finished
      split at finished
      · exact responded.trans (ecServerSetState_posts finished)
      · exact responded.trans (ecServerSetState_posts finished)

theorem ecServerWakeup_posts {env : SendEnv} {calls : List SrvApi} {w w' : EcWork} {rc : Int}
    (finished : ecServerWakeup platform env calls w = .ok (w', rc)) : w.srv.Posts w'.srv := by
  have call := (applyCalls_called platform calls w).posts
  unfold ecServerWakeup at finished
  dsimp only at finished
  split at finished
  · cases finished
    exact call
  · exact call.trans (ecServerReady_posts platform finished)

theorem reschedUserfn_posts {env : HandlerEnv} {w next : EcWork} (finished : reschedUserfn platform env w = .ok next) :
    w.srv.Posts next.srv := by
  unfold reschedUserfn at finished
  split at finished
  · cases finished
  · rename_i run rc ran
    have called := ecServerUserfn_posts platform ran
    split at finished
    · exact called.trans (ecServerSetState_posts finished)
    · cases finished
      exact called

end Handlers

/-- All that a server has sent has gone from this socket to this peer, and so will what it can still send. -/
structure EcServer.Addresses (sd : Int) (peer : SockAddr) (srv : EcServer) : Prop where
  posted : ∀ s ∈ srv.sent, s.datagram.sd = sd ∧ s.datagram.peer = peer
  posts : srv.freed = false → srv.flow.conn.Reachable → srv.flow.conn.socket = sd ∧ srv.flow.conn.peer = peer

theorem EcServer.Posts.addresses {old new : EcServer} {sd : Int} {peer : SockAddr} (posts : old.Posts new)
    (live : old.freed = false) (addresses : old.Addresses sd peer) : new.Addresses sd peer := by
  obtain ⟨more, log, along⟩ := posts.sent
  refine ⟨?_, fun _ reachable => ?_⟩
  · rw [log]
    refine List.forall_mem_append.mpr ⟨addresses.posted, fun s member => ?_⟩
    obtain ⟨socket, destination, reachable⟩ := along s member
    obtain ⟨own, its⟩ := addresses.posts live reachable
    exact ⟨socket.trans own, destination.trans its⟩
  · unfold EcConn.Reachable at reachable
    rw [posts.socket, posts.peer] at reachable ⊢
    exact addresses.posts live reachable

section Runs

variable {platform : Platform} {b b' : EcBase}

/-- The server of a new request talks to its sender. -/
theorem ecServerProcess_addresses {resources : List (List UInt8)} {fb : Bool} {h : EcHdr} {input : ServerInput}
    {w w' : EcWork} {rc : EcNetCbrc} (created : w.srv = ecServerNew) (socket : input.sd ≠ -1)
    (finished : ecServerProcess platform resources fb h input w = .ok (w', rc)) :
    w'.srv.Addresses input.sd input.peer := by
  rcases ecServerProcess_cases created finished with ⟨_, flow, code, failed⟩ | ⟨flow, prepares, dispatched⟩
  · have silent : w'.srv.sent = [] := ecServerFail_mute rfl failed
    have freed : w'.srv.freed = true := (ecServerFail_logs failed).1
    exact ⟨by simp [silent], by simp [freed]⟩
  · obtain ⟨reachable, ends, _⟩ := prepares.leads socket
    have accepted : (w.accepting h input flow).srv.Addresses input.sd input.peer :=
      ⟨fun s member => absurd member (by simp [EcWork.accepting, EcServer.accepted, ecServerNew]),
        fun _ reached => ends (reachable.mp reached)⟩
    exact (ecServerDispatch_posts platform dispatched).addresses rfl accepted

/-- What an event gives a server to do makes it post, or creates it for a request. -/
theorem ServerWork.posts {event : BaseEvent} {id : SrvId} {w : EcWork} (settled : b.Settled)
    (work : ServerWork platform b event id w) :
    (∃ old, b.heap id = some old ∧ old.freed = false ∧ old.Posts w.srv) ∨
    ∃ input h, event = .datagram input ∧ id = b.nextSrv ∧ b.Accepts platform input h ∧ ecIsMethod h.code.toNat ∧
      w.srv.Addresses input.sd input.peer := by
  cases work with
  | control input h id srv w rc controls found stored worked =>
      obtain ⟨held, same, live⟩ := settled.listed id (ecServersLookup_mem found).1
      cases stored.symm.trans same
      exact Or.inl ⟨srv, stored, live, ecServerControlled_posts platform worked⟩
  | request input h w rc accepts method worked =>
      exact Or.inr ⟨input, h, rfl, rfl, accepts, method, ecServerProcess_addresses rfl accepts.socket worked⟩
  | rescheduled id env srv w stored armed live worked =>
      have fired : srv.Posts {srv with resched := srv.resched.fired} := EcServer.Posts.of_same rfl rfl
      exact Or.inl ⟨srv, stored, live, fired.trans (reschedUserfn_posts platform worked)⟩
  | coapTimeout id env srv w stored armed live worked =>
      have fired : srv.Posts {srv with coap := srv.coap.fired} := EcServer.Posts.of_same rfl rfl
      exact Or.inl ⟨srv, stored, live, fired.trans (ecSrvCoapTimeout_posts platform worked)⟩
  | wakeup id calls env srv w rc stored live worked =>
      exact Or.inl ⟨srv, stored, live, ecServerWakeup_posts platform worked⟩

theorem ecServerMatched_resent {h : EcHdr} {input : ServerInput} {rc : EcNetCbrc}
    (finished : ecServerMatched platform b h input = .ok (b', rc)) : b'.resent = b.resent := by
  unfold ecServerMatched at finished
  split at finished
  · cases finished
    rfl
  · split at finished
    · cases finished
    · obtain ⟨worked, _, same⟩ := map_ok finished
      cases same
      rfl

/-- A message that is no duplicate has no reply repeated. -/
theorem ecServerHandleNew_resent {h : EcHdr} {input : ServerInput} {rc : EcNetCbrc}
    (finished : ecServerHandleNew platform b h input = .ok (b', rc)) : b'.resent = b.resent := by
  unfold ecServerHandleNew at finished
  split at finished
  · unfold ecServerControl at finished
    split at finished
    · dsimp only at finished
      split at finished
      · cases finished
        rfl
      · split at finished
        · cases finished
          rfl
        · exact ecServerMatched_resent finished
    · exact ecServerMatched_resent finished
  · split at finished
    · unfold ecServerRequest at finished
      dsimp only at finished
      obtain ⟨worked, _, same⟩ := map_ok finished
      cases same
      rfl
    · cases finished
      rfl

/-- A duplicate has the reply in its record repeated to its sender, or nothing. -/
theorem ecDupsHandleIncomingClimsg_repeats (dups : EcDups) {mid : UInt16} (sd : Int) {peer : SockAddr}
    (raw : List UInt8) (sent : Bool) {recvd : EcRecvdPdu}
    (present : dups (ecDupKeyNew platform mid peer) = some recvd) :
    ∃ rc resent, ecDupsHandleIncomingClimsg platform dups mid sd peer raw sent = ⟨dups, rc, resent⟩ ∧ rc ≠ 0 ∧
      ∀ d, resent = some d → ∃ cached, recvd.cachedPdu = some cached ∧
        d = ⟨cached.hdr, cached.opts, cached.payload, sd, peer⟩ := by
  unfold ecDupsHandleIncomingClimsg ecDupsHandleIncoming ecDupsSearch
  rw [present]
  dsimp only
  split
  · exact ⟨1, none, rfl, by decide, fun d repeated => (by cases repeated)⟩
  · rename_i cached reply
    split
    · exact ⟨-1, none, rfl, by decide, fun d repeated => (by cases repeated)⟩
    · rename_i datagram handed
      refine ⟨1, some datagram, rfl, by decide, fun d repeated => ⟨cached, reply, ?_⟩⟩
      cases repeated
      exact ecNetSend_some handed

theorem ecServerHandlePdu_repeats {input : ServerInput} {h : EcHdr} {recvd : EcRecvdPdu} {rc : EcNetCbrc}
    (header : ecPduDecodeHeader platform.order input.raw = some h)
    (present : b.dups (ecDupKeyNew platform h.mid input.peer) = some recvd)
    (finished : ecServerHandlePdu platform b input = .ok (b', rc)) : b' = b ∨
      ∃ cached, recvd.cachedPdu = some cached ∧
        b' = {b with resent := b.resent ++ [⟨cached.hdr, cached.opts, cached.payload, input.sd, input.peer⟩]} := by
  obtain ⟨code, resent, check, known, cached⟩ := ecDupsHandleIncomingClimsg_repeats b.dups input.sd input.raw
    input.env.resend present
  unfold ecServerHandlePdu at finished
  split at finished
  · cases finished
    exact Or.inl rfl
  · rw [header] at finished
    dsimp only at finished
    rw [check, if_pos known] at finished
    have same : b' = {b with resent := b.resent ++ resent.toList} := by
      split at finished <;> cases finished <;> rfl
    subst same
    cases resent with
    | none =>
        left
        rw [Option.toList_none, List.append_nil]
    | some d =>
        obtain ⟨reply, held, whole⟩ := cached d rfl
        subst whole
        exact Or.inr ⟨reply, held, rfl⟩

/-- A datagram is a duplicate whose cached reply is repeated to its sender, or nothing is repeated. -/
theorem baseStep_resent {event : BaseEvent} (finished : baseStep platform b event = .ok b') :
    b'.resent = b.resent ∨ ∃ input h recvd cached, event = .datagram input ∧
      ecPduDecodeHeader platform.order input.raw = some h ∧
      b.dups (ecDupKeyNew platform h.mid input.peer) = some recvd ∧ recvd.cachedPdu = some cached ∧
      b' = {b with resent := b.resent ++ [⟨cached.hdr, cached.opts, cached.payload, input.sd, input.peer⟩]} := by
  cases event with
  | datagram input =>
      obtain ⟨⟨handled, rc⟩, stepped, same⟩ := map_ok finished
      cases same
      by_cases unread : input.raw = [] ∨ input.sd = -1 ∨ ecPduDecodeHeader platform.order input.raw = none
      · left
        unfold ecServerHandlePdu at stepped
        split at stepped
        · cases stepped
          rfl
        · rename_i readable
          rw [show ecPduDecodeHeader platform.order input.raw = none by tauto] at stepped
          cases stepped
          rfl
      · obtain ⟨nonempty, socket, readable⟩ := by simpa only [not_or] using unread
        obtain ⟨h, header⟩ := Option.ne_none_iff_exists'.mp readable
        cases known : b.dups (ecDupKeyNew platform h.mid input.peer) with
        | none =>
            rw [ecServerHandlePdu_new platform b input h ⟨nonempty, socket, header, known⟩] at stepped
            have same : handled.resent = (b.seen platform input h).resent := ecServerHandleNew_resent stepped
            exact Or.inl same
        | some recvd =>
            rcases ecServerHandlePdu_repeats header known stepped with same | ⟨cached, reply, same⟩
            · exact Or.inl (by rw [same])
            · exact Or.inr ⟨input, h, recvd, cached, rfl, header, known, reply, same⟩
  | rescheduled id env =>
      left
      rcases EcBase.fire_ok finished with same | ⟨srv, w, _, _, _, _, same⟩
      · rw [same]
      · rw [same]
        rfl
  | coapTimeout id env =>
      left
      rcases EcBase.fire_ok finished with same | ⟨srv, w, _, _, _, _, same⟩
      · rw [same]
      · rw [same]
        rfl
  | wakeup id calls env =>
      left
      dsimp only [baseStep] at finished
      split at finished
      · cases finished
        rfl
      · split at finished
        · cases finished
          rfl
        · obtain ⟨worked, _, same⟩ := map_ok finished
          rw [← same]
          rfl
  | countdown key =>
      cases finished
      exact Or.inl rfl
  | registry observing =>
      cases finished
      exact Or.inl rfl
  | callbacks resources fb =>
      cases finished
      exact Or.inl rfl
  | request cli tout destination =>
      left
      dsimp only [baseStep] at finished
      split at finished
      · obtain ⟨started, _, same⟩ := map_ok finished
        rw [← same]
      · cases finished
        rfl
  | client cid event =>
      left
      dsimp only [baseStep] at finished
      unfold EcBase.clientStep at finished
      split at finished
      · cases finished
        rfl
      · cases finished
        rfl
      · obtain ⟨w, _, same⟩ := map_ok finished
        rw [← same]

/-- A request is among the events. -/
def Requested (platform : Platform) (events : List BaseEvent) (input : ServerInput) : Prop :=
  .datagram input ∈ events ∧ ∃ h, ecPduDecodeHeader platform.order input.raw = some h ∧ ecIsMethod h.code.toNat

/-- Each transaction has sent to the sender of one request only, and a reply is repeated to the sender of a message. -/
structure EcBase.Discreet (platform : Platform) (events : List BaseEvent) (b : EcBase) : Prop where
  transactions : ∀ id srv, b.heap id = some srv → ∃ input, Requested platform events input ∧
    ∀ s ∈ srv.sent, s.datagram.sd = input.sd ∧ s.datagram.peer = input.peer
  repeated : ∀ d ∈ b.resent, ∃ input, .datagram input ∈ events ∧ d.sd = input.sd ∧ d.peer = input.peer

/-- What the transactions of a base have sent and can still send. -/
structure EcBase.Addresses (platform : Platform) (past : List BaseEvent) (b : EcBase) : Prop where
  settled : b.Settled
  transactions : ∀ id srv, b.heap id = some srv →
    ∃ input, Requested platform past input ∧ srv.Addresses input.sd input.peer
  repeated : ∀ d ∈ b.resent, ∃ input, .datagram input ∈ past ∧ d.sd = input.sd ∧ d.peer = input.peer

theorem baseStep_addresses (past : List BaseEvent) (event : BaseEvent) (addresses : b.Addresses platform past)
    (finished : baseStep platform b event = .ok b') : b'.Addresses platform (past ++ [event]) := by
  have later : ∀ input, Requested platform past input → Requested platform (past ++ [event]) input :=
    fun input requested => ⟨List.mem_append_left _ requested.1, requested.2⟩
  refine ⟨baseStep_keeps_settled addresses.settled finished, fun id srv stored => ?_, ?_⟩
  · rcases baseStep_effect finished with same | ⟨at_, w, work, worked⟩
    · obtain ⟨input, requested, own⟩ := addresses.transactions id srv (same.heap ▸ stored)
      exact ⟨input, later input requested, own⟩
    · rw [worked.heap] at stored
      split at stored
      · cases stored
        rcases work.posts addresses.settled with ⟨old, held, live, posts⟩ |
          ⟨input, h, datagram, _, accepts, method, own⟩
        · obtain ⟨input, requested, own⟩ := addresses.transactions at_ old held
          exact ⟨input, later input requested, posts.addresses live own⟩
        · subst datagram
          exact ⟨input, ⟨List.mem_append_right _ List.mem_cons_self, h, accepts.header, method⟩, own⟩
      · obtain ⟨input, requested, own⟩ := addresses.transactions id srv stored
        exact ⟨input, later input requested, own⟩
  · have before : ∀ d ∈ b.resent, ∃ input, .datagram input ∈ past ++ [event] ∧ d.sd = input.sd ∧
        d.peer = input.peer := by
      intro d member
      obtain ⟨input, heard, own⟩ := addresses.repeated d member
      exact ⟨input, List.mem_append_left _ heard, own⟩
    rcases baseStep_resent finished with same | ⟨input, h, recvd, cached, datagram, _, _, _, same⟩
    · rw [same]
      exact before
    · subst datagram
      subst same
      refine List.forall_mem_append.mpr ⟨before, List.forall_mem_singleton.mpr ?_⟩
      exact ⟨input, List.mem_append_right _ List.mem_cons_self, rfl, rfl⟩

/-- In every run, a base only speaks to those who have spoken to it. -/
theorem baseRun_discreet (platform : Platform) (events : List BaseEvent) (b : EcBase)
    (finished : (baseMachine platform).run ecInit events = .ok b) : b.Discreet platform events := by
  have start : ecInit.Addresses platform [] :=
    ⟨ecInit_settled, fun id srv stored => (by cases stored), fun d member => absurd member List.not_mem_nil⟩
  have held := (baseMachine platform).run_history (fun past b => b.Addresses platform past)
    (fun past b event b' addresses stepped => baseStep_addresses past event addresses stepped) start finished
  refine ⟨fun id srv stored => ?_, held.repeated⟩
  obtain ⟨input, requested, own⟩ := held.transactions id srv stored
  exact ⟨input, requested, own.posted⟩

/-- A request that is answered, and answered again when it is repeated. -/
theorem promptGet_discreet : ∃ b srv s d,
    (baseMachine serverPlatform).run ecInit [.callbacks [] true, .datagram promptGet, .datagram promptGet] = .ok b ∧
    b.heap 0 = some srv ∧ srv.sent = [s] ∧ b.resent = [d] ∧
    b.Discreet serverPlatform [.callbacks [] true, .datagram promptGet, .datagram promptGet] := by
  have run : ∃ b srv s d, (baseMachine serverPlatform).run ecInit
      [.callbacks [] true, .datagram promptGet, .datagram promptGet] = .ok b ∧ b.heap 0 = some srv ∧ srv.sent = [s] ∧
      b.resent = [d] := ⟨_, _, _, _, rfl, rfl, rfl, rfl⟩
  obtain ⟨b, srv, s, d, finished, stored, sent, resent⟩ := run
  exact ⟨b, srv, s, d, finished, stored, sent, resent, baseRun_discreet serverPlatform _ b finished⟩

end Runs

end Webthings.Evcoap
