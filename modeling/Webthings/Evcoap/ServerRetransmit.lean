import Webthings.Evcoap.ServerLife
import Webthings.Evcoap.Reencode

namespace Webthings.Evcoap
open Webthings.Transition

/-- Every retransmission of a server is the datagram of its first transmission. -/
def EcServer.Repeats (srv : EcServer) : Prop :=
  ∀ first ∈ srv.sent, first.purpose = .response → ∀ again ∈ srv.sent, again.purpose = .retransmission →
    again.datagram = first.datagram

def EcBase.Repeats (b : EcBase) : Prop := ∀ id srv, b.heap id = some srv → srv.Repeats

/-- The calls of the user leave a response alone that waits for its ACK. -/
def LeavesSent (platform : Platform) (b : EcBase) (event : BaseEvent) : Prop :=
  match event with
  | .wakeup id calls _ => ∀ srv, b.heap id = some srv → srv.freed = false → srv.state = .waitAck →
      (applyCalls platform calls (b.work id srv)).srv = srv
  | .datagram _ | .rescheduled _ _ | .coapTimeout _ _ | .countdown _ | .registry _ | .callbacks _ _ | .request _ _ _
  | .client _ _ => True

/-- A response that is sent again mirrors no token and has no fencepost, and the unset local variable of the encoder
holds the MID of the transmission before. -/
def Repeatable (platform : Platform) (b : EcBase) (event : BaseEvent) : Prop :=
  match event with
  | .coapTimeout id env => ∀ srv res isCon, b.heap id = some srv → srv.freed = false → srv.coap.pending = true →
      srv.coap.retriesLeft ≠ 0 → {srv with coap := srv.coap.fired, state := .coapRetry}.Responds res isCon env.sent →
      srv.flow.token = [] ∧ fencepostCount 0 res.opts.bundle.list = 0 ∧
        env.wireMid res.hdrBits = headerMid platform.order res.hdr
  | .datagram _ | .rescheduled _ _ | .wakeup _ _ _ | .countdown _ | .registry _ | .callbacks _ _ | .request _ _ _
  | .client _ _ => True

/-- A separate response as it was sent: all its transmissions are the datagram that it still makes. -/
structure EcServer.Sealed (order : ByteOrder) (srv : EcServer) (res : EcPdu) : Prop where
  held : srv.res = some res
  separate : srv.flow.isSep = true
  model : srv.flow.conn.isConfirmable = some true
  first : ∃ s ∈ srv.sent, s.purpose = .response
  same : ∀ s ∈ srv.sent, s.purpose = .response ∨ s.purpose = .retransmission →
    s.datagram = res.datagram srv.flow.conn
  header : ∃ mid, res.hdr = headerBytes order res.opts.noptions (rcByte srv.flow.respCode) .con mid
  wire : res.opts.encoded.wire = res.opts.wire

/-- The log of a server in any state. -/
structure EcServer.Faithful (order : ByteOrder) (srv : EcServer) : Prop where
  repeats : srv.Repeats
  acked : srv.freed = false → srv.state = .ackSent → ∀ s ∈ srv.sent, s.purpose = .ack
  waiting : srv.freed = false → srv.state = .waitAck → ∃ res, srv.Sealed order res

theorem EcServer.Sealed.repeats {order : ByteOrder} {srv : EcServer} {res : EcPdu} (closed : srv.Sealed order res) :
    srv.Repeats := by
  intro first before response again after retransmission
  rw [closed.same first before (Or.inl response), closed.same again after (Or.inr retransmission)]

/-- A first separate response is sealed. -/
theorem EcServer.answered_sealed (order : ByteOrder) (env : SendEnv) (srv : EcServer) (res : EcPdu)
    (acked : srv.state = .ackSent) (acks : ∀ s ∈ srv.sent, s.purpose = .ack)
    (responds : srv.Responds res true env.sent) :
    (srv.answered order env res).Sealed order (srv.encodedResp order env true res) := by
  obtain ⟨opts, _, _, hdr⟩ := srv.encodedResp_parts order env true res responds (Or.inr (Or.inl acked))
  refine ⟨rfl, rfl, responds.model, ?_, ?_, ⟨env.wireMid res.hdrBits, ?_⟩, ?_⟩
  · exact ⟨⟨.response, _⟩, List.mem_append_right _ List.mem_cons_self, rfl⟩
  · intro s member purpose
    rcases List.mem_append.mp member with before | now
    · rw [acks s before] at purpose
      rcases purpose with response | retransmission
      · cases response
      · cases retransmission
    · have here : s = ⟨.response, _⟩ := List.mem_singleton.mp now
      rw [here]
      rfl
  · rw [opts]
    exact hdr
  · rw [opts]
    exact EcOpts.encoded_wire _

/-- A sealed response that is sent again is the same datagram exactly when nothing comes anew with its encoding. -/
theorem EcServer.Sealed.again_iff {order : ByteOrder} {srv retried : EcServer} {res : EcPdu} {env : SendEnv}
    (closed : srv.Sealed order res) (responds : retried.Responds res true env.sent)
    (flow : retried.flow = srv.flow) :
    (retried.encodedResp order env true res).datagram retried.flow.conn = res.datagram srv.flow.conn ↔
      srv.flow.token = [] ∧ fencepostCount 0 res.opts.bundle.list = 0 ∧
        env.wireMid res.hdrBits = headerMid order res.hdr := by
  obtain ⟨opts, payload, _, hdr⟩ := retried.encodedResp_parts order env true res responds
    (Or.inl (flow ▸ closed.separate))
  obtain ⟨mid, header⟩ := closed.header
  rw [flow] at opts hdr
  have parts : (retried.encodedResp order env true res).datagram retried.flow.conn = res.datagram srv.flow.conn ↔
      (retried.encodedResp order env true res).hdr = res.hdr ∧
        (retried.encodedResp order env true res).opts.wire = res.opts.wire := by
    unfold EcPdu.datagram
    rw [payload, flow]
    simp
  rw [parts, opts, hdr]
  constructor
  · rintro ⟨sameHeader, sameWire⟩
    have token : srv.flow.token = [] := by
      by_contra present
      exact mirrorToken_longer (flow ▸ responds.encodes.1) present (closed.wire.trans sameWire.symm)
    have unmirrored : mirrorToken res.opts srv.flow.token = (res.opts, 0) := by
      unfold mirrorToken
      rw [if_neg (by simp [token])]
    refine ⟨token, ?_, ?_⟩
    · rw [unmirrored, header] at sameHeader
      have counts := headerBytes_noptions sameHeader
      have atMost := (fencepostCount_le 0 res.opts.bundle.list res.opts.bundle.ascending).1
      change (res.opts.noptions + fencepostCount 0 res.opts.bundle.list) % 16 = res.opts.noptions % 16 at counts
      omega
    · rw [← sameHeader, headerMid_headerBytes]
  · rintro ⟨token, fenceless, mids⟩
    have unmirrored : mirrorToken res.opts srv.flow.token = (res.opts, 0) := by
      unfold mirrorToken
      rw [if_neg (by simp [token])]
    have counts : res.opts.encoded.noptions = res.opts.noptions := by
      change res.opts.noptions + fencepostCount 0 res.opts.bundle.list = res.opts.noptions
      rw [fenceless, Nat.add_zero]
    rw [unmirrored]
    refine ⟨?_, closed.wire⟩
    rw [mids, header, headerMid_headerBytes, counts]
    rfl

/-- A sealed response that was sent again as the same datagram is sealed. -/
theorem EcServer.Sealed.repeated {order : ByteOrder} {srv retried : EcServer} {res : EcPdu} {env : SendEnv}
    (closed : srv.Sealed order res) (responds : retried.Responds res true env.sent)
    (flow : retried.flow = srv.flow) (log : retried.sent = srv.sent) (coap : EcTimer)
    (same : (retried.encodedResp order env true res).datagram retried.flow.conn = res.datagram srv.flow.conn) :
    (retried.repeated order env true res coap).Sealed order (retried.encodedResp order env true res) := by
  obtain ⟨opts, _, _, hdr⟩ := retried.encodedResp_parts order env true res responds (Or.inl (flow ▸ closed.separate))
  refine ⟨rfl, flow ▸ closed.separate, responds.model, ?_, ?_, ⟨env.wireMid res.hdrBits, ?_⟩, ?_⟩
  · obtain ⟨s, member, purpose⟩ := closed.first
    exact ⟨s, List.mem_append_left _ (log ▸ member), purpose⟩
  · intro s member purpose
    change s.datagram = (retried.encodedResp order env true res).datagram retried.flow.conn
    rcases List.mem_append.mp member with before | now
    · rw [same]
      exact closed.same s (log ▸ before) purpose
    · have here : s = ⟨.retransmission, _⟩ := List.mem_singleton.mp now
      rw [here]
  · rw [opts]
    exact hdr
  · rw [opts]
    exact EcOpts.encoded_wire _

section Runs

variable {platform : Platform} {b : EcBase}

/-- The base with a faithful log for each server. -/
structure EcBase.Faithful (order : ByteOrder) (b : EcBase) : Prop where
  settled : b.Settled
  logs : ∀ id srv, b.heap id = some srv → srv.Faithful order

theorem EcServer.Faithful.of_new (order : ByteOrder) : ecServerNew.Faithful order where
  repeats := fun _ member => absurd member List.not_mem_nil
  acked := fun _ state => by cases state
  waiting := fun _ state => by cases state

/-- The end of a transaction adds no retransmission, and no response to one that waits for its ACK. -/
theorem EcServer.Faithful.ended {order : ByteOrder} {old srv : EcServer} (faithful : old.Faithful order)
    (unsent : old.state ≠ .waitAck → ∀ s ∈ old.sent, s.purpose ≠ .retransmission) (freed : srv.freed = true)
    (logs : old.Logs srv) : srv.Faithful order := by
  refine ⟨fun first before response again after retransmission => ?_, fun live => ?_, fun live => ?_⟩
  · obtain ⟨more, log, allowed⟩ := logs
    rw [log] at before after
    have early : again ∈ old.sent := by
      rcases List.mem_append.mp after with early | late
      · exact early
      · rcases allowed again late with ack | reply | ⟨other, _⟩
        · rw [ack] at retransmission
          cases retransmission
        · rw [reply] at retransmission
          cases retransmission
        · rw [other] at retransmission
          cases retransmission
    rcases List.mem_append.mp before with sooner | later
    · exact faithful.repeats first sooner response again early retransmission
    · rcases allowed first later with ack | reply | ⟨_, state⟩
      · rw [ack] at response
        cases response
      · rw [reply] at response
        cases response
      · exact absurd retransmission (unsent state again early)
  · exact absurd (live.symm.trans freed) (by decide)
  · exact absurd (live.symm.trans freed) (by decide)

theorem EcServer.Faithful.of_acks {order : ByteOrder} {srv : EcServer} (state : srv.state = .ackSent)
    (acks : ∀ s ∈ srv.sent, s.purpose = .ack) : srv.Faithful order where
  repeats := fun first before response => by
    rw [acks first before] at response
    cases response
  acked := fun _ _ => acks
  waiting := fun _ waiting => by
    rw [state] at waiting
    cases waiting

theorem EcServer.Sealed.faithful {order : ByteOrder} {srv : EcServer} {res : EcPdu} (closed : srv.Sealed order res)
    (state : srv.state = .waitAck) : srv.Faithful order where
  repeats := closed.repeats
  acked := fun _ acked => by
    rw [state] at acked
    cases acked
  waiting := fun _ _ => ⟨res, closed⟩

/-- An event that meets the guard leaves the server that it gives work to with a faithful log. -/
theorem ServerLife.faithful {event : BaseEvent} {id : SrvId} {srv : EcServer} (faithful : b.Faithful platform.order)
    (untouched : LeavesSent platform b event) (repeatable : Repeatable platform b event)
    (life : ServerLife platform b event id srv) : srv.Faithful platform.order := by
  cases life with
  | ended _ _ old _ stored live freed logs =>
      refine (faithful.logs id old stored).ended (fun other s member => ?_) freed logs
      rcases (faithful.settled.pending id old stored live).2.state with ⟨acked, _⟩ | ⟨waiting, _⟩
      · rw [(faithful.logs id old stored).acked live acked s member]
        decide
      · exact absurd waiting other
  | refused input _ freed logs =>
      exact (EcServer.Faithful.of_new platform.order).ended (fun _ s member => absurd member List.not_mem_nil) freed logs
  | waits input h _ accepts method waiting =>
      refine EcServer.Faithful.of_acks waiting.state fun s member => ?_
      rcases waiting.acked with ⟨_, _, sent⟩ | ⟨_, _, sent⟩
      · rw [sent] at member
        rw [List.mem_singleton.mp member]
      · rw [sent] at member
        cases member
  | answers _ _ env old called res stored live acked call responds =>
      obtain ⟨⟨code, response, same⟩, _, _⟩ := call
      have state : called.state = .ackSent := by
        rw [same]
        exact acked
      have acks : ∀ s ∈ called.sent, s.purpose = .ack := by
        rw [same]
        exact (faithful.logs id old stored).acked live acked
      exact (called.answered_sealed platform.order env res state acks responds).faithful rfl
  | repeats _ env old isCon res coap stored live armed waiting left responds =>
      obtain ⟨held, closed⟩ := (faithful.logs id old stored).waiting live waiting
      have response : held = res := Option.some.inj (closed.held.symm.trans responds.held)
      subst response
      have con : isCon = true := Option.some.inj (responds.model.symm.trans closed.model)
      subst con
      have same := (closed.again_iff responds rfl).mpr
        (repeatable old held true stored live armed left responds)
      exact (closed.repeated responds rfl rfl coap same).faithful rfl
  | fails _ calls env old w stored live acked called silent =>
      have call := applyCalls_called platform calls (b.work id old)
      rw [← called] at call
      obtain ⟨⟨code, response, same⟩, _, _⟩ := call
      refine EcServer.Faithful.of_acks ?_ ?_
      · rw [same]
        exact acked
      · rw [same]
        exact (faithful.logs id old stored).acked live acked
  | idle _ calls env old stored live quiet =>
      have call := applyCalls_called platform calls (b.work id old)
      rcases (faithful.settled.pending id old stored live).2.state with ⟨acked, _⟩ | ⟨waiting, _⟩
      · obtain ⟨⟨code, response, same⟩, _, _⟩ := call
        refine EcServer.Faithful.of_acks ?_ ?_
        · rw [same]
          exact acked
        · rw [same]
          exact (faithful.logs id old stored).acked live acked
      · rw [untouched old stored live waiting]
        exact faithful.logs id old stored

/-- A guarded step keeps the logs faithful. -/
theorem baseStep_faithful {event : BaseEvent} {b' : EcBase} (faithful : b.Faithful platform.order)
    (untouched : LeavesSent platform b event) (repeatable : Repeatable platform b event)
    (finished : baseStep platform b event = .ok b') : b'.Faithful platform.order := by
  refine ⟨baseStep_keeps_settled faithful.settled finished, fun id srv stored => ?_⟩
  rcases baseStep_effect finished with same | ⟨here, w, work, worked⟩
  · exact faithful.logs id srv (same.heap ▸ stored)
  · rw [worked.heap] at stored
    split at stored
    · cases stored
      exact (work.life faithful.settled).faithful faithful untouched repeatable
    · exact faithful.logs id srv stored

/-- A step that retransmits something else is not guarded. -/
theorem repeatable_of_repeats {event : BaseEvent} (faithful : b.Faithful platform.order)
    (repeats : ∀ b', baseStep platform b event = .ok b' → b'.Repeats) : Repeatable platform b event := by
  cases event with
  | coapTimeout id env =>
      intro srv res isCon stored live armed left responds
      obtain ⟨_, waiting, present⟩ := faithful.settled.timedOut stored live armed
      obtain ⟨held, closed⟩ := (faithful.logs id srv stored).waiting live waiting
      have response : held = res := Option.some.inj (closed.held.symm.trans responds.held)
      subst response
      have con : isCon = true := Option.some.inj (responds.model.symm.trans closed.model)
      subst con
      obtain ⟨w, worked, ends⟩ := ecSrvCoapTimeout_ended platform env
        (b.work id {srv with coap := srv.coap.fired}) live waiting present
      have alive : w.srv.freed = false := ends.mpr ⟨left, held, true, responds⟩
      obtain ⟨b', finished, after⟩ := (ServerWork.coapTimeout id env srv w stored armed live worked).step
      rcases ecSrvCoapTimeout_life waiting worked with ⟨freed, _⟩ | ⟨_, res, isCon, coap, again, same⟩
      · exact absurd (alive.symm.trans freed) (by decide)
      · have response : held = res := Option.some.inj (closed.held.symm.trans again.held)
        subst response
        have con : isCon = true := Option.some.inj (again.model.symm.trans closed.model)
        subst con
        have repeated : w.srv.Repeats := repeats b' finished w.self w.srv (by rw [after.heap, if_pos rfl])
        obtain ⟨s, member, purpose⟩ := closed.first
        rw [same] at repeated
        have equal := repeated s (List.mem_append_left _ member) purpose ⟨.retransmission, _⟩
          (List.mem_append_right _ List.mem_cons_self) rfl
        rw [closed.same s member (Or.inl purpose)] at equal
        exact (closed.again_iff responds rfl).mp equal
  | datagram | rescheduled | wakeup | countdown | registry | callbacks | request | client => trivial

end Runs

/-- Every step leaves sent responses alone, and every response that is sent again mirrors no token, has no fencepost and
happens on its MID, exactly when users leave sent responses alone and every retransmission is the first datagram. -/
theorem baseRun_repeats_iff (platform : Platform) (events : List BaseEvent) :
    (baseMachine platform).Meets (fun b event => LeavesSent platform b event ∧ Repeatable platform b event) ecInit events ↔
      (baseMachine platform).Meets (LeavesSent platform) ecInit events ∧
        (baseMachine platform).Always EcBase.Repeats ecInit events := by
  rw [Machine.meets_and_iff]
  apply and_congr_right
  intro untouched
  symm
  apply (baseMachine platform).always_iff_meets (Repeatable platform) (LeavesSent platform)
    (EcBase.Faithful platform.order) EcBase.Repeats
  · exact fun b faithful id srv stored => (faithful.logs id srv stored).repeats
  · intro b event faithful leaves
    constructor
    · intro repeatable b' finished id srv stored
      exact ((baseStep_faithful faithful leaves repeatable finished).logs id srv stored).repeats
    · exact repeatable_of_repeats faithful
  · exact fun b event b' faithful leaves repeatable finished => baseStep_faithful faithful leaves repeatable finished
  · exact ⟨ecInit_settled, fun id srv stored => absurd stored (by simp [ecInit])⟩
  · exact untouched

/-- The user answers when it is called again. -/
def answersLater : HandlerEnv := ⟨⟨[.setCode ecContent], .ready, ⟨0, 0⟩⟩, true, true, ⟨0x1234, 0, true⟩, ⟨0, 0, true⟩⟩

/-- A GET of `/a` with a Token of one byte is answered separately, and the answer is sent again on its MID. -/
def mirroredTwice : List BaseEvent :=
  [.callbacks [] true, .datagram (loopbackInput [0x42, 1, 0, 7, 0x91, 0x61, 0x21, 0xaa] waits 0),
    .rescheduled 0 answersLater, .coapTimeout 0 ⟨0, 0x1234, true⟩]

/-- The second transmission holds the Token twice. -/
theorem mirroredTwice_longer : ¬ (baseMachine serverPlatform).Always EcBase.Repeats ecInit mirroredTwice := by
  intro always
  have run : ∃ b srv ack first again, (baseMachine serverPlatform).run ecInit mirroredTwice = .ok b ∧
      b.heap 0 = some srv ∧ srv.sent = [ack, first, again] ∧ first.purpose = .response ∧
      again.purpose = .retransmission ∧ first.datagram.opts = [0xb1, 0xaa] ∧
      again.datagram.opts = [0xb1, 0xaa, 0x01, 0xaa] := ⟨_, _, _, _, _, rfl, rfl, rfl, rfl, rfl, rfl, rfl⟩
  obtain ⟨b, srv, ack, first, again, finished, stored, sent, response, retransmission, once, twice⟩ := run
  have start : (baseMachine serverPlatform).Always EcBase.Repeats ecInit (mirroredTwice ++ []) := always
  have same := start.reached finished 0 srv stored first (by simp [sent]) response again (by simp [sent]) retransmission
  rw [same, once] at twice
  exact absurd twice (by decide)

/-- A run has a retransmission that is another datagram. -/
theorem mirroredTwice_changes : ¬ ∀ platform events, (baseMachine platform).Always EcBase.Repeats ecInit events :=
  fun always => mirroredTwice_longer (always serverPlatform mirroredTwice)

/-- The run with the second Token has an event that does not meet the guard. -/
theorem mirroredTwice_unrepeatable :
    ¬ (baseMachine serverPlatform).Meets (Repeatable serverPlatform) ecInit mirroredTwice := by
  intro guarded
  have untouched : (baseMachine serverPlatform).Meets (LeavesSent serverPlatform) ecInit mirroredTwice :=
    ⟨trivial, fun _ _ => ⟨trivial, fun _ _ => ⟨trivial, fun _ _ => ⟨trivial, fun _ _ => trivial⟩⟩⟩⟩
  have always := (baseRun_repeats_iff serverPlatform mirroredTwice).mp
    ((Machine.meets_and_iff _).mpr ⟨untouched, guarded⟩)
  exact mirroredTwice_longer always.2

end Webthings.Evcoap
