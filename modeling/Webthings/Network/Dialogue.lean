import Webthings.Network.Deferring
import Webthings.Network.Exchange

namespace Webthings.Network
open Webthings.Evcoap
open Webthings.Transition

/-- An exchange whose user may answer later, with the calls that have made the response so far. -/
structure Dialogue extends Exchange where
  made : List SrvApi

/-- A client is given an error, or the response that the user has made. -/
def EcPdu.Fair (platform : Platform) (made : List SrvApi) (token : List UInt8) (pdu : EcPdu) : Prop :=
  0x80 ≤ pdu.hdrBits.code.toNat ∨ (Presentable platform made token → pdu.Conveys platform made)

/-- The base after an event, with the calls of the callback and of the user. -/
def Dialogue.serves (far : Platform) (home : SockAddr) (s : Dialogue) (base : EcBase) (event : BaseEvent) : Dialogue :=
  ⟨{s.toExchange with base := base, served := s.served ++ serving far home s.base base event},
    s.made ++ making far home s.base base event⟩

/-- The client after an event, with what its callback was given. -/
def Dialogue.tells (near : Platform) (s : Dialogue) (work : CliWork) (event : ClientEvent) : Dialogue :=
  {s with work := work, told := s.told ++ telling near s.work event}

/-- The base has taken in the request, which has the given MID there. -/
structure Posed (far : Platform) (start : EcClient) (mid : UInt16) (req : EcPdu) (s : Dialogue) : Prop where
  request : ∀ run, Served.For start ⟨req, run⟩
  calls : ∀ call ∈ s.served, call.req = req
  mid : headerMid far.order s.work.cli.req.bytes = mid
  begun : s.work.cli.state ≠ .none

/-- The user has not answered yet. -/
structure Pending (far : Platform) (home : SockAddr) (start : EcClient) (mid : UInt16) (own : SrvId) (req : EcPdu)
    (s : Dialogue) : Prop where
  base : Drafted far home mid own req (requestToken start.req.opts) s.made s.base
  once : s.served.length ≤ 1
  untold : s.told = []

/-- The user has answered, or the base has given the request up. -/
structure Settled (far : Platform) (home : SockAddr) (start : EcClient) (mid : UInt16) (own : SrvId) (req : EcPdu)
    (again : Prop) (s : Dialogue) : Prop where
  base : Responded far home mid own req (requestToken start.req.opts) s.made again s.base
  twice : s.served.length ≤ 2
  once : again → s.served.length ≤ 1
  told : s.told = [] ∨ ecClientStateIsFinal s.work.cli.state = true ∧
    ∃ pdu, s.told = [pdu] ∧ EcPdu.Fair far s.made (requestToken start.req.opts) pdu

/-- What every step of a dialogue keeps. -/
structure Conversing (near far : Platform) (home : SockAddr) (start : EcClient) (s : Dialogue) : Prop where
  asking : Asking near.order start (∃ mid recvd, s.base.dups (ecDupKeyNew far mid home) = some recvd) s.work.cli
  phase : Before far home s.toExchange ∧ s.made = [] ∨ ∃ mid own req, Posed far start mid req s ∧
    (Pending far home start mid own req s ∨ ∃ again, Settled far home start mid own req again s)

section Steps

variable {near far : Platform} {home : SockAddr} {s next : Dialogue} {event : ExchangeEvent}

end Steps

section Bases

variable {near far : Platform} {home : SockAddr} {start : EcClient} {s : Dialogue} {mid : UInt16} {own : SrvId}
  {req : EcPdu} {again : Prop} {base : EcBase} {event : BaseEvent}

theorem Posed.serves (posed : Posed far start mid req s)
    (recalls : serving far home s.base base event = [] ∨ ∃ run, serving far home s.base base event = [⟨req, run⟩]) :
    Posed far start mid req (s.serves far home base event) := by
  refine ⟨posed.request, List.forall_mem_append.mpr ⟨posed.calls, ?_⟩, posed.mid, posed.begun⟩
  rcases recalls with silent | ⟨run, serves⟩
  · rw [silent]
    simp
  · rw [serves]
    simp

theorem Pending.serves (pending : Pending far home start mid own req s) (posed : Posed far start mid req s)
    (pursues : Pursues far home mid own req (requestToken start.req.opts) s.made s.base base event) :
    Posed far start mid req (s.serves far home base event) ∧
      (Pending far home start mid own req (s.serves far home base event) ∨
        ∃ again, Settled far home start mid own req again (s.serves far home base event)) := by
  have once := pending.once
  rcases pursues with ⟨drafted, silent⟩ | ⟨again, responded, silent | ⟨never, run, serves⟩⟩
  · have served : (s.serves far home base event).served.length = s.served.length := by
      simp [Dialogue.serves, silent]
    exact ⟨posed.serves (Or.inl silent), Or.inl ⟨drafted, by omega, pending.untold⟩⟩
  · have served : (s.serves far home base event).served.length = s.served.length := by
      simp [Dialogue.serves, silent]
    exact ⟨posed.serves (Or.inl silent), Or.inr ⟨again, responded, by omega, fun _ => by omega, Or.inl pending.untold⟩⟩
  · have served : (s.serves far home base event).served.length = s.served.length + 1 := by
      simp [Dialogue.serves, serves]
    exact ⟨posed.serves (Or.inr ⟨run, serves⟩),
      Or.inr ⟨again, responded, by omega, fun later => absurd later never, Or.inl pending.untold⟩⟩

theorem Settled.serves (settled : Settled far home start mid own req again s) (posed : Posed far start mid req s)
    (upholds : Upholds far home mid own req (requestToken start.req.opts) s.made again s.base base event) :
    Posed far start mid req (s.serves far home base event) ∧
      ∃ again, Settled far home start mid own req again (s.serves far home base event) := by
  obtain ⟨unmade, outcome⟩ := upholds
  have made : (s.serves far home base event).made = s.made := by simp [Dialogue.serves, unmade]
  have twice := settled.twice
  have told := settled.told
  rw [← made] at told
  rcases outcome with ⟨responded, silent⟩ | ⟨recalls, responded, run, serves⟩
  · have served : (s.serves far home base event).served.length = s.served.length := by
      simp [Dialogue.serves, silent]
    refine ⟨posed.serves (Or.inl silent), again, by rw [made]; exact responded, by omega, fun later => ?_, told⟩
    rw [served]
    exact settled.once later
  · have served : (s.serves far home base event).served.length = s.served.length + 1 := by
      simp [Dialogue.serves, serves]
    have once := settled.once recalls
    exact ⟨posed.serves (Or.inr ⟨run, serves⟩), False, by rw [made]; exact responded, by omega,
      fun never => never.elim, told⟩

/-- The base of a request that it has taken in goes on. -/
theorem Conversing.serves (conversing : Conversing near far home start s) (posed : Posed far start mid req s)
    (phase : Pending far home start mid own req s ∨ ∃ again, Settled far home start mid own req again s)
    (pursues : ∀ token made, Drafted far home mid own req token made s.base →
      Pursues far home mid own req token made s.base base event)
    (upholds : ∀ token made again, Responded far home mid own req token made again s.base →
      Upholds far home mid own req token made again s.base base event) :
    Conversing near far home start (s.serves far home base event) := by
  rcases phase with pending | ⟨again, settled⟩
  · obtain ⟨posed', phase⟩ := pending.serves posed (pursues _ _ pending.base)
    refine ⟨conversing.asking.mono fun _ => ?_, Or.inr ⟨mid, own, req, posed', phase⟩⟩
    rcases phase with pending | ⟨again, settled⟩
    · exact ⟨mid, pending.base.recorded⟩
    · exact ⟨mid, settled.base.recorded⟩
  · obtain ⟨posed', again, settled⟩ := settled.serves posed (upholds _ _ _ settled.base)
    exact ⟨conversing.asking.mono fun _ => ⟨mid, settled.base.recorded⟩,
      Or.inr ⟨mid, own, req, posed', Or.inr ⟨again, settled⟩⟩⟩

/-- A request that the base has not taken in gets no callback. -/
theorem Conversing.serves_nothing (conversing : Conversing near far home start s)
    (before : Before far home s.toExchange) (unmade : s.made = []) (still : Unserved far home base)
    (silent : serving far home s.base base event = []) (unanswered : making far home s.base base event = []) :
    Conversing near far home start (s.serves far home base event) := by
  refine ⟨conversing.asking.mono ?_, Or.inl ⟨⟨still, ?_, before.told⟩, ?_⟩⟩
  · rintro ⟨mid, recvd, present⟩
    cases (before.base.unrecorded mid).symm.trans present
  · show s.served ++ _ = []
    rw [silent, before.served]
    rfl
  · show s.made ++ _ = []
    rw [unanswered, unmade]
    rfl

/-- The base goes on. -/
theorem Conversing.server (known : (ecNetSocklen home).isSome)
    (distinct : ∀ peer, far.formatSockaddrPort peer = far.formatSockaddrPort home → peer = home)
    (conversing : Conversing near far home start s) (elsewhere : Elsewhere far home s.base event)
    (timely : Timely far home s.base event) (finished : baseStep far s.base event = .ok base) :
    Conversing near far home start (s.serves far home base event) := by
  rcases conversing.phase with ⟨before, unmade⟩ | ⟨mid, own, req, posed, phase⟩
  · have apart := before.base.apart
    exact conversing.serves_nothing before unmade (before.base.spared known distinct elsewhere finished)
      (serving_elsewhere known apart.beside elsewhere (apart.aside event) finished)
      (making_elsewhere known apart.beside elsewhere (apart.aside event) finished)
  · exact conversing.serves posed phase
      (fun _ _ drafted => drafted.goes known distinct elsewhere timely finished)
      (fun _ _ _ responded => responded.goes known distinct elsewhere timely finished)

/-- The first copy of the request that the base accepts gets a transaction. -/
theorem Conversing.attends (sendable : Sendable start)
    (distinct : ∀ peer, far.formatSockaddrPort peer = far.formatSockaddrPort home → peer = home)
    (conversing : Conversing near far home start s) (before : Before far home s.toExchange) (unmade : s.made = [])
    {answered : Prop} (posted : Posted near.order start answered s.work.cli) (begun : s.work.cli.state ≠ .none)
    {input : ServerInput} (copy : input.raw = s.work.cli.req.bytes) (sender : input.peer = home)
    (connected : input.sd ≠ 0) {h : EcHdr} (accepts : s.base.Accepts far input h)
    (finished : baseStep far s.base (.datagram input) = .ok base) :
    Conversing near far home start (s.serves far home base (.datagram input)) := by
  have header := accepts.header
  rw [copy] at header
  obtain ⟨mid, method, token, request⟩ := sendable.received posted input.beyond header
  rw [← copy] at token request
  have outcome := before.base.attends distinct sender connected accepts method token rfl finished
  have posed : (serving far home s.base base (.datagram input) = [] ∨ ∃ run, serving far home s.base base
      (.datagram input) = [⟨(ecServerBody input.raw input.beyond).pdu input.raw h, run⟩]) →
      Posed far start h.mid ((ecServerBody input.raw input.beyond).pdu input.raw h)
        (s.serves far home base (.datagram input)) := by
    have unserved : Posed far start h.mid ((ecServerBody input.raw input.beyond).pdu input.raw h) s :=
      ⟨request, by rw [before.served]; simp, mid.symm, begun⟩
    exact unserved.serves
  rcases outcome with ⟨responded, silent⟩ | ⟨outcome, serves⟩
  · have made : (s.serves far home base (.datagram input)).made = [] := by
      show s.made ++ _ = []
      rw [unmade, making_silent silent]
      rfl
    have served : (s.serves far home base (.datagram input)).served.length = 0 := by
      simp [Dialogue.serves, silent, before.served]
    exact ⟨conversing.asking.mono fun _ => ⟨_, responded.recorded⟩, Or.inr ⟨_, _, _, posed (Or.inl silent),
      Or.inr ⟨False, by rw [made]; exact responded, by omega, fun never => never.elim, Or.inl before.told⟩⟩⟩
  · have made : (s.serves far home base (.datagram input)).made = input.env.run.calls := by
      show s.made ++ (serving far home s.base base (.datagram input)).flatMap (fun call => call.run.calls) = _
      rw [unmade, serves]
      simp
    have served : (s.serves far home base (.datagram input)).served.length = 1 := by
      simp [Dialogue.serves, serves, before.served]
    rcases outcome with drafted | responded
    · exact ⟨conversing.asking.mono fun _ => ⟨_, drafted.recorded⟩, Or.inr ⟨_, _, _, posed (Or.inr ⟨_, serves⟩),
        Or.inl ⟨by rw [made]; exact drafted, by omega, before.told⟩⟩⟩
    · exact ⟨conversing.asking.mono fun _ => ⟨_, responded.recorded⟩, Or.inr ⟨_, _, _, posed (Or.inr ⟨_, serves⟩),
        Or.inr ⟨False, by rw [made]; exact responded, by omega, fun never => never.elim, Or.inl before.told⟩⟩⟩

/-- A datagram of the client comes in at the base. -/
theorem Conversing.asks (sendable : Sendable start)
    (distinct : ∀ peer, far.formatSockaddrPort peer = far.formatSockaddrPort home → peer = home)
    (conversing : Conversing near far home start s) {sent : Sent} (member : sent ∈ s.work.cli.sent)
    {input : ServerInput} (connected : input.sd ≠ 0)
    (finished : baseStep far s.base (.datagram (asked home sent.datagram input)) = .ok base) :
    Conversing near far home start (s.serves far home base (.datagram (asked home sent.datagram input))) := by
  have sender : (asked home sent.datagram input).peer = home := rfl
  rcases conversing.phase with ⟨before, unmade⟩ | ⟨mid, own, req, posed, phase⟩
  · have unanswered : ¬ ∃ mid recvd, s.base.dups (ecDupKeyNew far mid home) = some recvd := by
      rintro ⟨mid, recvd, present⟩
      cases (before.base.unrecorded mid).symm.trans present
    obtain ⟨posted, copy⟩ := (conversing.asking.sent member).resolve_right fun empty => unanswered empty.1
    have begun := conversing.asking.begun member
    by_cases accepted : ∃ h, s.base.Accepts far (asked home sent.datagram input) h
    · obtain ⟨h, accepts⟩ := accepted
      exact conversing.attends sendable distinct before unmade posted begun copy sender connected accepts finished
    · have same := before.base.refuses sender (fun h accepts => accepted ⟨h, accepts⟩) finished
      subst same
      have silent : serving far home s.base s.base (.datagram (asked home sent.datagram input)) = [] := by
        simp [serving]
      exact conversing.serves_nothing before unmade before.base silent (making_silent silent)
  · have requests : ∀ h, ecPduDecodeHeader far.order (asked home sent.datagram input).raw = some h →
        ecIsMethod h.code.toNat → h.mid = mid := by
      intro h header method
      exact (conversing.asking.requests member header method).trans posed.mid
    exact conversing.serves posed phase
      (fun _ _ drafted => drafted.hears distinct sender requests finished)
      (fun _ _ _ responded => responded.hears distinct sender requests finished)

end Bases

section Clients

variable {near far : Platform} {home : SockAddr} {start : EcClient} {s : Dialogue} {mid : UInt16} {own : SrvId}
  {req : EcPdu} {again : Prop} {work : CliWork} {event : ClientEvent}

theorem Posed.tells (posed : Posed far start mid req s) (quiet : ClientQuiet s.work.cli)
    (finished : clientStep near s.work event = .ok work) : Posed far start mid req (s.tells near work event) := by
  refine ⟨posed.request, posed.calls, ?_, clientStep_begun posed.begun finished⟩
  show headerMid far.order work.cli.req.bytes = mid
  rw [clientStep_req quiet posed.begun finished]
  exact posed.mid

/-- The client of a request goes on, and its callback is given nothing. -/
theorem Conversing.tells_nothing (conversing : Conversing near far home start s)
    (asking : Asking near.order start (∃ mid recvd, s.base.dups (ecDupKeyNew far mid home) = some recvd) work.cli)
    (finished : clientStep near s.work event = .ok work) (silent : telling near s.work event = []) :
    Conversing near far home start (s.tells near work event) := by
  have quiet := conversing.asking.quiet
  have told : (s.tells near work event).told = s.told := by simp [Dialogue.tells, silent]
  refine ⟨asking, conversing.phase.imp ?_ ?_⟩
  · rintro ⟨before, unmade⟩
    exact ⟨⟨before.base, before.served, told.trans before.told⟩, unmade⟩
  · rintro ⟨mid, own, req, posed, phase⟩
    refine ⟨mid, own, req, posed.tells quiet finished, phase.imp ?_ ?_⟩
    · intro pending
      exact ⟨pending.base, pending.once, told.trans pending.untold⟩
    · rintro ⟨again, settled⟩
      refine ⟨again, settled.base, settled.twice, settled.once, ?_⟩
      rw [told]
      exact settled.told.imp_right fun given => ⟨clientStep_final quiet given.1 finished, given.2⟩

/-- What else happens to the client has its callback given nothing. -/
theorem Conversing.client (sendable : Sendable start) (conversing : Conversing near far home start s)
    (other : ∀ input h, event = .datagram input → s.work.Hears near input h → h.code ≠ 0 →
      ¬ s.work.cli.TakesIn h input) (finished : clientStep near s.work event = .ok work) :
    Conversing near far home start (s.tells near work event) := by
  have asking := conversing.asking.step sendable.unasked
    (fun input h datagram hears code taken => absurd taken (other input h datagram hears code)) finished
  exact conversing.tells_nothing asking finished (telling_nothing finished other)

theorem fails_code {d : Datagram} (fails : d.Fails) {order : ByteOrder} {h : EcHdr}
    (header : ecPduDecodeHeader order d.bytes = some h) : 0x80 ≤ h.code.toNat := by
  have code : h.code = d.bytes.getD 1 0 := by
    unfold ecPduDecodeHeader at header
    split at header
    · cases header
    · split at header
      · cases header
      · cases header
        rfl
  have long : 1 < d.hdr.length := by
    apply Classical.byContradiction
    intro short
    unfold Datagram.Fails at fails
    rw [List.getD_eq_default _ _ (by omega)] at fails
    exact absurd fails (by decide)
  rw [code]
  unfold Datagram.bytes
  rw [List.append_assoc, List.getD_append _ _ _ _ long]
  exact fails

/-- What a client takes in from a base is an error, or the response that the user has made. -/
theorem shown_fair {made : List SrvApi} {token : List UInt8} {w : CliWork} {cli : EcClient} {d : Datagram}
    {input : Incoming} {h : EcHdr} (fair : d.Fair far made token) (plain : Plain w.cli)
    (takes : Takes near w {input with raw := d.bytes} h cli) :
    EcPdu.Fair far made token (w.cli.shown h {input with raw := d.bytes}) := by
  have header := ecClientHeader_decoded takes.hears.header
  dsimp only at header
  rw [shown_plain plain]
  rcases fair with empty | fails | conveys
  · exact absurd (empty_code empty header) takes.code
  · left
    exact fails_code fails header
  · right
    intro presentable
    obtain ⟨os, options, reads⟩ := conveys presentable
    obtain ⟨h', code, survives⟩ := reads near.order input.beyond
    cases header.symm.trans survives.header
    have carried := survives.client.pdu h
    exact ⟨by rw [carried.1]; exact code, by rw [carried.2.1]; exact options, carried.2.2⟩

/-- A datagram for the client comes in there. -/
theorem Conversing.answers (sendable : Sendable start) (conversing : Conversing near far home start s) {d : Datagram}
    (member : d ∈ mail home s.base) {input : Incoming}
    (finished : clientStep near s.work (.datagram {input with raw := d.bytes}) = .ok work) :
    Conversing near far home start (s.tells near work (.datagram {input with raw := d.bytes})) := by
  rcases conversing.phase with ⟨before, _⟩ | ⟨mid, own, req, posed, phase⟩
  · rw [before.base.mail_nil] at member
    cases member
  · have recorded : ∃ mid recvd, s.base.dups (ecDupKeyNew far mid home) = some recvd := by
      rcases phase with pending | ⟨again, settled⟩
      · exact ⟨mid, pending.base.recorded⟩
      · exact ⟨mid, settled.base.recorded⟩
    have asking := conversing.asking.step sendable.unasked (fun _ _ _ _ _ _ => recorded) finished
    rcases telling_cases finished with silent | ⟨input', h, datagram, takes, shown⟩
    · exact conversing.tells_nothing asking finished silent
    · cases datagram
      have quiet := conversing.asking.quiet
      obtain ⟨waiting, done⟩ := conversing.asking.takes sendable.unasked takes
      rcases phase with pending | ⟨again, settled⟩
      · have empty := pending.base.heard.mail d member
        exact absurd (empty_code empty (ecClientHeader_decoded takes.hears.header)) takes.code
      · have untold : s.told = [] := settled.told.resolve_right fun given => by simp [waiting] at given
        have fair := shown_fair (settled.base.heard.mail d member) conversing.asking.plain takes
        refine ⟨asking, Or.inr ⟨mid, own, req, posed.tells quiet finished, Or.inr ⟨again, settled.base, settled.twice,
          settled.once, Or.inr ⟨?_, _, ?_, fair⟩⟩⟩⟩
        · show ecClientStateIsFinal work.cli.state = true
          rw [done]
          rfl
        · show s.told ++ _ = _
          rw [untold, shown]
          rfl

end Clients

section Runs

variable {near far : Platform} {home : SockAddr} {start : EcClient} {s next : Dialogue}

end Runs

/-- The user cannot answer yet. -/
def unready : ServerInput := {greeting with env := {greeting.env with run := waits}}

end Webthings.Network
