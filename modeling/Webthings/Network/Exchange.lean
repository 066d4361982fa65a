import Webthings.Evcoap.ClientTrace
import Webthings.Evcoap.NumberSpaces
import Webthings.Network.Answering
import Webthings.Network.Asking

namespace Webthings.Network
open Webthings.Evcoap
open Webthings.Transition

/-- A client with a plain request and the base that it asks, with the calls of the callback there and with what the
callback of the client was given. -/
structure Exchange where
  work : CliWork
  base : EcBase
  served : List Served
  told : List EcPdu

/-- The network hands the base some datagram that the client has sent, or the client some datagram for it, or something
else happens to either. -/
inductive ExchangeEvent where
  | asks (n : Nat) (input : ServerInput)
  | answers (n : Nat) (input : Incoming)
  | server (event : BaseEvent)
  | client (event : ClientEvent)

/-- The response that an event has the callback of a client given, if any. -/
def telling (platform : Platform) (w : CliWork) : ClientEvent → List EcPdu
  | .datagram input =>
      match ecClientHeader platform.order input.raw with
      | none => []
      | some h => (ecClientDelivery platform w input).toList.map fun _ => w.cli.shown h input
  | _ => []

/-- The response that the callback is given when a response ends the request or goes on with the observation. -/
def answerOf (entry : Entry) : Option EcPdu :=
  if entry.state = .reqDone ∨ entry.state = .waitNfy then entry.told.join else none

/-- A datagram of a peer, as it comes in at a base. -/
def asked (home : SockAddr) (d : Datagram) (input : ServerInput) : ServerInput :=
  {input with raw := d.bytes, peer := home}

def Exchange.serve (far : Platform) (home : SockAddr) (s : Exchange) (event : BaseEvent) : Except EcFault Exchange :=
  (baseStep far s.base event).map fun base =>
    {s with base := base, served := s.served ++ serving far home s.base base event}

def Exchange.tell (near : Platform) (s : Exchange) (event : ClientEvent) : Except EcFault Exchange :=
  (clientStep near s.work event).map fun work => {s with work := work, told := s.told ++ telling near s.work event}

/-- The user's callback answers the request at once, no event puts an end to the records of the peer, and the client
takes in responses of the base only. -/
def Undisturbed (near far : Platform) (home : SockAddr) (s : Exchange) (event : ExchangeEvent) : Prop :=
  match event with
  | .asks n input => ∀ sent h, s.work.cli.sent[n]? = some sent →
      s.base.Accepts far (asked home sent.datagram input) h → ecIsMethod h.code.toNat →
      s.base.Prompt far (asked home sent.datagram input) h
  | .answers _ _ => True
  | .server event => Elsewhere far home s.base event
  | .client event => ∀ input h, event = .datagram input → s.work.Hears near input h → h.code ≠ 0 →
      ¬ s.work.cli.TakesIn h input

/-- A request that asks for no observation, and that its receiver reads whole. -/
structure Sendable (cli : EcClient) : Prop where
  method : ecIsMethod cli.flow.method.code
  unencoded : cli.req.opts.Unencoded
  faithful : WireFaithful cli.req.opts.bundle.list
  few : cli.req.opts.bundle.list.length + fencepostCount 0 cli.req.opts.bundle.list ≤ ecProtoMaxOptions
  unasked : ecOptsGet cli.req.opts .observe = none

/-- A call of the callback is for the request of a client. -/
structure Served.For (start : EcClient) (call : Served) : Prop where
  code : call.req.hdrBits.code = UInt8.ofNat start.flow.method.code
  options : call.req.opts.bundle.list = start.req.opts.bundle.list
  payload : call.req.payload = start.req.payload

/-- The callback of the base is invoked once at most, with the request of the client; what the callback of the client
is given is one response at most, and it is the one that the callback of the base has made. -/
structure Sound (far : Platform) (start : EcClient) (s : Exchange) : Prop where
  once : s.served.length ≤ 1
  request : ∀ call ∈ s.served, call.For start
  answered : s.told.length ≤ s.served.length
  response : ∀ pdu ∈ s.told, ∃ call ∈ s.served, pdu.Tells far call.run (requestToken start.req.opts)

/-- The base has not taken in the request. -/
structure Before (far : Platform) (home : SockAddr) (s : Exchange) : Prop where
  base : Unserved far home s.base
  served : s.served = []
  told : s.told = []

/-- The base has answered the request, which has the given MID there. -/
structure After (far : Platform) (home : SockAddr) (start : EcClient) (mid : UInt16) (own : SrvId) (first : Datagram)
    (call : Served) (s : Exchange) : Prop where
  base : Answered far home mid own first s.base
  served : s.served = [call]
  request : call.For start
  code : ecIsRespCode (calledCode call.run.calls ecRcUnset)
  bears : first.Bears far call.run (requestToken start.req.opts)
  mid : headerMid far.order s.work.cli.req.bytes = mid
  begun : s.work.cli.state ≠ .none
  told : s.told = [] ∨ ecClientStateIsFinal s.work.cli.state = true ∧
    ∃ pdu, s.told = [pdu] ∧ pdu.Tells far call.run (requestToken start.req.opts)

/-- What every step of an exchange keeps. -/
structure Conducted (near far : Platform) (home : SockAddr) (start : EcClient) (s : Exchange) : Prop where
  asking : Asking near.order start (s.served ≠ []) s.work.cli
  phase : Before far home s ∨ ∃ mid own first call, After far home start mid own first call s

section Requests

variable {order : ByteOrder} {start cli : EcClient} {answered : Prop}

/-- The request of a client is read whole by its receiver. -/
theorem Sendable.survives (sendable : Sendable start) (posted : Posted order start answered cli) (other : ByteOrder)
    (beyond : Nat → UInt8) : ∃ h, h.code = UInt8.ofNat start.flow.method.code ∧ h.mid = headerMid other cli.req.bytes ∧
      Survives other cli.req.bytes beyond h start.req.opts.bundle.list start.req.payload := by
  obtain ⟨rng, encoded, req⟩ := posted.encoded
  have survives := (encode_survives_iff order start.flow start.req (.request rng) start.flow.conn beyond
    (fun _ separate => by cases separate) sendable.unencoded encoded).mpr ⟨sendable.faithful, sendable.few⟩
  have read := survives.ordered other
  rw [req]
  exact ⟨_, rfl, rfl, read⟩

/-- What a receiver makes of a copy of the request. -/
theorem Sendable.received (sendable : Sendable start) (posted : Posted order start answered cli) {other : ByteOrder}
    (beyond : Nat → UInt8) {h : EcHdr} (header : ecPduDecodeHeader other cli.req.bytes = some h) :
    h.mid = headerMid other cli.req.bytes ∧ ecIsMethod h.code.toNat ∧
      requestToken (ecServerBody cli.req.bytes beyond).decoded.opts = requestToken start.req.opts ∧
      ∀ run, Served.For start ⟨(ecServerBody cli.req.bytes beyond).pdu cli.req.bytes h, run⟩ := by
  obtain ⟨h', code, mid, survives⟩ := sendable.survives posted other beyond
  cases header.symm.trans survives.header
  have carried := survives.server.pdu h
  refine ⟨mid, ?_, ?_, fun run => ⟨?_, carried.2.1, carried.2.2⟩⟩
  · rw [code]
    have valid := sendable.method
    revert valid
    cases start.flow.method <;> decide
  · unfold requestToken
    rw [ecOptsGet_same survives.server.options]
  · show ((ecServerBody cli.req.bytes beyond).pdu cli.req.bytes h).hdrBits.code = _
    rw [carried.1]
    exact code

/-- What is read from a datagram of the client is its request, or no request at all. -/
theorem Asking.sent (asking : Asking order start answered cli) {sent : Sent} (member : sent ∈ cli.sent) :
    Posted order start answered cli ∧ sent.datagram.bytes = cli.req.bytes ∨
      answered ∧ sent.datagram.Empty order := by
  obtain resolving | ⟨_, posted | failed⟩ := asking.phase
  · rw [resolving.sent] at member
    cases member
  · exact (posted.sent sent member).imp (fun copy => ⟨posted, copyOf_bytes copy⟩) id
  · exact Or.inr (failed.sent sent member)

theorem empty_code {d : Datagram} (empty : d.Empty order) {other : ByteOrder} {h : EcHdr}
    (header : ecPduDecodeHeader other d.bytes = some h) : h.code = 0 := by
  obtain ⟨t, mid, hdr, opts, payload⟩ := empty
  have bytes : d.bytes = headerBytes order 0 0 t mid ++ [] := by
    unfold Datagram.bytes
    rw [hdr, opts, payload, List.append_nil]
  have read := ecPduDecodeHeader_append order 0 0 t mid []
  rw [← bytes] at read
  rw [ecPduDecodeHeader_order read other] at header
  cases header
  rfl

theorem mid_decoded {raw : List UInt8} {h : EcHdr} (header : ecPduDecodeHeader order raw = some h) :
    h.mid = headerMid order raw := by
  rw [ecPduDecodeHeader_order header order] at header
  have same := Option.some.inj header
  rw [← same]

/-- A request that is read from a datagram of the client has the MID of its own. -/
theorem Asking.requests (asking : Asking order start answered cli) {sent : Sent} (member : sent ∈ cli.sent)
    {other : ByteOrder} {h : EcHdr} (header : ecPduDecodeHeader other sent.datagram.bytes = some h)
    (method : ecIsMethod h.code.toNat) : h.mid = headerMid other cli.req.bytes := by
  rcases asking.sent member with ⟨_, copy⟩ | ⟨_, empty⟩
  · rw [← copy]
    exact mid_decoded header
  · rw [empty_code empty header] at method
    exact absurd method.1 (by decide)

end Requests

section Bases

variable {near far : Platform} {home : SockAddr} {start : EcClient} {s next : Exchange} {mid : UInt16} {own : SrvId}
  {first : Datagram} {call : Served}

theorem Exchange.serve_ok {event : BaseEvent} (stepped : s.serve far home event = .ok next) :
    ∃ base, baseStep far s.base event = .ok base ∧
      next = {s with base := base, served := s.served ++ serving far home s.base base event} := by
  obtain ⟨base, finished, same⟩ := map_ok stepped
  exact ⟨base, finished, same.symm⟩

/-- The base goes on, and no callback is invoked for the client. -/
theorem Conducted.serve_silent (conducted : Conducted near far home start s) {event : BaseEvent}
    (before : ∀ base, Unserved far home s.base → baseStep far s.base event = .ok base →
      Unserved far home base ∧ serving far home s.base base event = [])
    (after : ∀ mid own first call base, After far home start mid own first call s →
      baseStep far s.base event = .ok base →
      Answered far home mid own first base ∧ serving far home s.base base event = [])
    (stepped : s.serve far home event = .ok next) : Conducted near far home start next := by
  obtain ⟨base, finished, same⟩ := Exchange.serve_ok stepped
  subst same
  rcases conducted.phase with unserved | ⟨mid, own, first, call, served⟩
  · obtain ⟨still, silent⟩ := before base unserved.base finished
    rw [silent, List.append_nil]
    exact ⟨conducted.asking, Or.inl ⟨still, unserved.served, unserved.told⟩⟩
  · obtain ⟨still, silent⟩ := after mid own first call base served finished
    rw [silent, List.append_nil]
    exact ⟨conducted.asking, Or.inr ⟨mid, own, first, call, {served with base := still}⟩⟩

/-- Others go on at the base. -/
theorem Conducted.server (known : (ecNetSocklen home).isSome)
    (distinct : ∀ peer, far.formatSockaddrPort peer = far.formatSockaddrPort home → peer = home)
    (conducted : Conducted near far home start s) {event : BaseEvent} (elsewhere : Elsewhere far home s.base event)
    (stepped : s.serve far home event = .ok next) : Conducted near far home start next := by
  apply conducted.serve_silent ?_ ?_ stepped
  · intro base unserved finished
    exact ⟨unserved.spared known distinct elsewhere finished,
      serving_elsewhere known unserved.apart.beside elsewhere (unserved.apart.aside event) finished⟩
  · intro mid own first call base served finished
    exact ⟨served.base.spared known distinct elsewhere finished,
      serving_elsewhere known served.base.apart.beside elsewhere (served.base.apart.aside event) finished⟩

/-- The first copy of the request that the base accepts is answered. -/
theorem Before.answers (sendable : Sendable start)
    (distinct : ∀ peer, far.formatSockaddrPort peer = far.formatSockaddrPort home → peer = home)
    (before : Before far home s) (posted : Posted near.order start (s.served ≠ []) s.work.cli)
    (begun : s.work.cli.state ≠ .none) {sent : Sent} (copy : sent.datagram.bytes = s.work.cli.req.bytes)
    {input : ServerInput} {h : EcHdr} (prompt : s.base.Prompt far (asked home sent.datagram input) h)
    (stepped : s.serve far home (.datagram (asked home sent.datagram input)) = .ok next) :
    ∃ first call, After far home start h.mid s.base.nextSrv first call next ∧ next.work = s.work ∧
      call.run = input.env.run := by
  obtain ⟨base, finished, same⟩ := Exchange.serve_ok stepped
  subst same
  obtain ⟨first, answered, bears, serves⟩ := before.base.answers distinct rfl prompt finished
  have raw : (asked home sent.datagram input).raw = s.work.cli.req.bytes := copy
  have header := prompt.accepts.header
  rw [raw] at header bears serves
  obtain ⟨mid, _, token, request⟩ := sendable.received posted input.beyond header
  refine ⟨first, ⟨(ecServerBody s.work.cli.req.bytes input.beyond).pdu s.work.cli.req.bytes h, input.env.run⟩,
    ⟨answered, ?_, request _, prompt.code, ?_, mid.symm, begun, Or.inl before.told⟩, rfl, rfl⟩
  · show s.served ++ _ = _
    rw [before.served, serves]
    rfl
  · rw [← token]
    exact bears

/-- A datagram of the client comes in at the base. -/
theorem Conducted.asks (sendable : Sendable start)
    (distinct : ∀ peer, far.formatSockaddrPort peer = far.formatSockaddrPort home → peer = home)
    (conducted : Conducted near far home start s) {sent : Sent} (member : sent ∈ s.work.cli.sent) {input : ServerInput}
    (prompt : ∀ h, s.base.Accepts far (asked home sent.datagram input) h → ecIsMethod h.code.toNat →
      s.base.Prompt far (asked home sent.datagram input) h)
    (stepped : s.serve far home (.datagram (asked home sent.datagram input)) = .ok next) :
    Conducted near far home start next := by
  have sender : (asked home sent.datagram input).peer = home := rfl
  rcases conducted.phase with before | ⟨mid, own, first, call, after⟩
  · obtain ⟨posted, copy⟩ := (conducted.asking.sent member).resolve_right fun empty => empty.1 before.served
    have begun := conducted.asking.begun member
    by_cases accepted : ∃ h, s.base.Accepts far (asked home sent.datagram input) h
    · obtain ⟨h, accepts⟩ := accepted
      have header := accepts.header
      have raw : (asked home sent.datagram input).raw = s.work.cli.req.bytes := copy
      rw [raw] at header
      have method : ecIsMethod h.code.toNat := (sendable.received posted input.beyond header).2.1
      obtain ⟨first, call, after, same, _⟩ := before.answers sendable distinct posted begun copy
        (prompt h accepts method) stepped
      refine ⟨?_, Or.inr ⟨_, _, first, call, after⟩⟩
      rw [same]
      exact conducted.asking.mono fun _ => by rw [after.served]; simp
    · have refused : ∀ h, ¬ s.base.Accepts far (asked home sent.datagram input) h :=
        fun h accepts => accepted ⟨h, accepts⟩
      apply conducted.serve_silent ?_ ?_ stepped
      · intro base unserved finished
        have same := unserved.refuses sender refused finished
        subst same
        exact ⟨unserved, by simp [serving]⟩
      · intro _ _ _ call' _ after _
        cases before.served.symm.trans after.served
  · apply conducted.serve_silent ?_ ?_ stepped
    · intro base unserved _
      obtain ⟨recvd, present, _⟩ := after.base.recorded
      cases (unserved.unrecorded mid).symm.trans present
    · intro mid own first call base served finished
      apply served.base.datagram distinct sender ?_ finished
      intro h header method
      exact (conducted.asking.requests member header method).trans served.mid

end Bases

section Clients

variable {near far : Platform} {home : SockAddr} {start : EcClient} {s next : Exchange} {mid : UInt16} {own : SrvId}
  {first : Datagram} {call : Served}

theorem Exchange.tell_ok {event : ClientEvent} (stepped : s.tell near event = .ok next) :
    ∃ work, clientStep near s.work event = .ok work ∧
      next = {s with work := work, told := s.told ++ telling near s.work event} := by
  obtain ⟨work, finished, same⟩ := map_ok stepped
  exact ⟨work, finished, same.symm⟩

/-- A callback is given what was taken in. -/
theorem telling_cases {w w' : CliWork} {event : ClientEvent} (stepped : clientStep near w event = .ok w') :
    telling near w event = [] ∨ ∃ input h, event = .datagram input ∧ Takes near w input h w'.cli ∧
      telling near w event = [w.cli.shown h input] := by
  cases event with
  | datagram input =>
      cases header : ecClientHeader near.order input.raw with
      | none =>
          left
          simp [telling, header]
      | some h =>
          cases delivers : ecClientDelivery near w input with
          | none =>
              left
              simp [telling, header, delivers]
          | some delivery =>
              right
              obtain ⟨_, h', _, hears, code, taken, _, _⟩ := ecClientDelivery_some delivers
              cases header.symm.trans hears.header
              refine ⟨input, h, rfl, ?_, ?_⟩
              · exact (clientStep_response hears code stepped).resolve_left fun refused => refused.1 taken
              · simp [telling, header, delivers]
  | dns env => exact Or.inl rfl
  | appTimeout sent => exact Or.inl rfl
  | coapTimeout sent => exact Or.inl rfl
  | obsTimeout sent => exact Or.inl rfl
  | cancel => exact Or.inl rfl
  | shared dups => exact Or.inl rfl

theorem answerOf_entry (cli : EcClient) (state : EcCliState) : answerOf (cli.entry state) =
    if (state = .reqDone ∨ state = .waitNfy) ∧ cli.observe.cancel = false then ecClientGetResponsePdu cli else none := by
  unfold answerOf EcClient.entry
  cases cli.observe.cancel <;> cases state <;> rfl

/-- What the callback is given for a datagram is in the log of the client. -/
theorem telling_logged {w w' : CliWork} {input : Incoming} (stepped : clientStep near w (.datagram input) = .ok w') :
    telling near w (.datagram input) = (w'.cli.enteredSince w.cli).filterMap answerOf := by
  by_cases heard : ∃ h, w.Hears near input h
  · obtain ⟨h, hears⟩ := heard
    rw [clientStep_hears hears] at stepped
    obtain ⟨handled, handling, same⟩ := map_ok stepped
    have log : handled.1.cli.entered = w.cli.entered ++ ecClientHandleNewEntries near w.cli h input := by
      have entered := ecClientHandleNew_entered handling
      exact entered
    have since : w'.cli.enteredSince w.cli = ecClientHandleNewEntries near w.cli h input := by
      unfold EcClient.enteredSince
      rw [← same, log, List.drop_left]
    rw [since]
    unfold telling ecClientHandleNewEntries ecClientDelivery
    dsimp only
    rw [hears.header]
    dsimp only
    by_cases code : h.code = 0
    · rw [if_pos code]
      cases h.t <;> simp [code, answerOf_entry]
    · rw [if_neg code]
      by_cases taken : w.cli.TakesIn h input
      · rw [ecClientTakeResponse_taken near taken]
        cases judged : w.cli.judged near.order h input with
        | none => simp
        | some judgement =>
            have cancel : judgement.cancel = w.cli.observe.cancel := EcCliObs.judge_cancel judged
            have first : ecClientGetResponsePdu {w.cli.added h input with observe := judgement} =
                some (w.cli.shown h input) := w.cli.added_shown h input
            have answers : answerOf (EcClient.entry {w.cli.added h input with observe := judgement} judgement.asks) =
                if w.cli.observe.cancel = false then some (w.cli.shown h input) else none := by
              rw [answerOf_entry, first, ← cancel]
              rcases judgement.asks_cases with asks | asks <;> simp [asks]
            dsimp only
            rw [List.filterMap_cons, answers]
            cases w.cli.observe.cancel <;> simp [hears.live, hears.registered, hears.fresh, code]
      · rw [ecClientTakeResponse_refused near taken]
        simp
  · have unheard : ∀ h, ¬ w.Hears near input h := fun h hears => heard ⟨h, hears⟩
    rw [clientStep_unheard unheard] at stepped
    cases stepped
    have silent : telling near w (.datagram input) = [] := by
      rcases telling_cases (clientStep_unheard unheard) with silent | ⟨_, h, same, takes, _⟩
      · exact silent
      · cases same
        exact absurd takes.hears (unheard h)
    rw [silent, EcClient.enteredSince, List.drop_length]
    rfl

/-- An event by which a client takes nothing in has its callback given nothing. -/
theorem telling_nothing {w w' : CliWork} {event : ClientEvent} (stepped : clientStep near w event = .ok w')
    (other : ∀ input h, event = .datagram input → w.Hears near input h → h.code ≠ 0 → ¬ w.cli.TakesIn h input) :
    telling near w event = [] := by
  rcases telling_cases stepped with silent | ⟨input, h, datagram, takes, _⟩
  · exact silent
  · exact absurd takes.taken (other input h datagram takes.hears takes.code)

/-- The callback of a client that has kept no response is given what has just come in. -/
theorem shown_plain {cli : EcClient} (plain : Plain cli) (h : EcHdr) (input : Incoming) :
    cli.shown h input = (ecClientBody input.raw input.beyond).pdu input.raw h := by
  unfold EcClient.shown Incoming.pdu
  rw [plain.empty]
  rfl

/-- A client keeps its request. -/
theorem clientStep_req {w w' : CliWork} {event : ClientEvent} (quiet : ClientQuiet w.cli) (begun : w.cli.state ≠ .none)
    (stepped : clientStep near w event = .ok w') : w'.cli.req = w.cli.req := by
  have posts : w.cli.Posts near.order (ecClientStateIsFinal w.cli.state = false) True w'.cli :=
    clientStep_posts (quiet.resolved begun) (fun _ => trivial) stepped
  exact posts.req

theorem clientStep_final {w w' : CliWork} {event : ClientEvent} (quiet : ClientQuiet w.cli)
    (final : ecClientStateIsFinal w.cli.state = true) (stepped : clientStep near w event = .ok w') :
    ecClientStateIsFinal w'.cli.state = true := by
  rcases clientStep_settles quiet (Or.inl final) stepped with still | ⟨_, watching⟩
  · exact still
  · rw [watching] at final
    cases final

/-- What else happens to the client has its callback given nothing. -/
theorem Conducted.client (sendable : Sendable start) (conducted : Conducted near far home start s) {event : ClientEvent}
    (other : ∀ input h, event = .datagram input → s.work.Hears near input h → h.code ≠ 0 →
      ¬ s.work.cli.TakesIn h input) (stepped : s.tell near event = .ok next) :
    Conducted near far home start next := by
  obtain ⟨work, finished, same⟩ := Exchange.tell_ok stepped
  rw [telling_nothing finished other, List.append_nil] at same
  subst same
  have asking := conducted.asking.step sendable.unasked
    (fun input h datagram hears code taken => absurd taken (other input h datagram hears code)) finished
  refine ⟨asking, conducted.phase.imp (fun before => ⟨before.base, before.served, before.told⟩) ?_⟩
  rintro ⟨mid, own, first, call, after⟩
  have quiet := conducted.asking.quiet
  refine ⟨mid, own, first, call, {after with
    mid := by rw [clientStep_req quiet after.begun finished]; exact after.mid
    begun := clientStep_begun after.begun finished
    told := after.told.imp_right fun told => ⟨clientStep_final quiet told.1 finished, told.2⟩}⟩

/-- A datagram for the client comes in there. -/
theorem Conducted.answers (sendable : Sendable start) (conducted : Conducted near far home start s) {d : Datagram}
    (member : d ∈ mail home s.base) {input : Incoming}
    (stepped : s.tell near (.datagram {input with raw := d.bytes}) = .ok next) :
    Conducted near far home start next := by
  rcases conducted.phase with before | ⟨mid, own, first, call, after⟩
  · rw [before.base.mail_nil] at member
    cases member
  · have bytes := after.base.mail_bytes d member
    have quiet := conducted.asking.quiet
    obtain ⟨work, finished, same⟩ := Exchange.tell_ok stepped
    subst same
    have asking : Asking near.order start (s.served ≠ []) work.cli :=
      conducted.asking.step sendable.unasked (fun _ _ _ _ _ _ => by rw [after.served]; simp) finished
    have mids : headerMid far.order work.cli.req.bytes = mid := by
      rw [clientStep_req quiet after.begun finished]
      exact after.mid
    refine ⟨asking, Or.inr ⟨mid, own, first, call, {after with
      mid := mids
      begun := clientStep_begun after.begun finished
      told := ?_}⟩⟩
    rcases telling_cases finished with silent | ⟨input', h, datagram, takes, shown⟩
    · show s.told ++ _ = [] ∨ _
      rw [silent, List.append_nil]
      exact after.told.imp_right fun told => ⟨clientStep_final quiet told.1 finished, told.2⟩
    · cases datagram
      obtain ⟨waiting, done⟩ := conducted.asking.takes sendable.unasked takes
      have untold : s.told = [] := after.told.resolve_right fun told => by simp [waiting] at told
      obtain ⟨os, options, reads⟩ := after.bears
      obtain ⟨h', code, survives⟩ := reads near.order input.beyond
      have header := ecClientHeader_decoded takes.hears.header
      dsimp only at header
      rw [bytes] at header
      cases header.symm.trans survives.header
      have carried := survives.client.pdu h
      right
      refine ⟨by rw [done]; rfl, s.work.cli.shown h {input with raw := d.bytes}, ?_, ?_⟩
      · show s.told ++ _ = _
        rw [shown, untold]
        rfl
      · rw [shown_plain conducted.asking.plain, bytes]
        exact ⟨by rw [carried.1]; exact code, by rw [carried.2.1]; exact options, carried.2.2⟩

end Clients

section Runs

variable {near far : Platform} {home : SockAddr} {start : EcClient} {s next : Exchange}

theorem Conducted.sound (conducted : Conducted near far home start s) : Sound far start s := by
  rcases conducted.phase with before | ⟨mid, own, first, call, after⟩
  · obtain ⟨_, served, told⟩ := before
    refine ⟨?_, ?_, ?_, ?_⟩
    · simp [served]
    · simp [served]
    · simp [told]
    · simp [told]
  · have served := after.served
    refine ⟨by simp [served], ?_, ?_, ?_⟩
    · simp only [served, List.mem_singleton]
      rintro _ rfl
      exact after.request
    · rcases after.told with untold | ⟨_, pdu, told, _⟩
      · simp [untold]
      · simp [told, served]
    · rcases after.told with untold | ⟨_, pdu, told, tells⟩
      · simp [untold]
      · simp only [told, served, List.mem_singleton]
        rintro _ rfl
        exact ⟨call, rfl, tells⟩

end Runs

/-- A confirmable GET of `/a` with a token of one byte. -/
def tokenGet : EcClient :=
  {confirmableGet with
    flow := {confirmableGet.flow with token := [0x2a]}
    req := {ecPduNewEmpty with opts := (ecOptsAddToken (ecOptsAddUriPath ecOptsInit [0x61]).1 [0x2a]).1}}

/-- The user answers at once, with two bytes. -/
def greeting : ServerInput :=
  ⟨[], fun _ => 0, 5, loopbackPeer,
    ⟨⟨[.setCode ecContent, .setPayload [0x68, 0x69]], .ready, ⟨0, 0⟩⟩, true, true, ⟨0, 0, true⟩, ⟨0, 0, true⟩⟩⟩

end Webthings.Network
