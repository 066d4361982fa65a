import Webthings.Evcoap.DeferredReplies
import Webthings.Network.Answering

namespace Webthings.Network
open Webthings.Evcoap
open Webthings.Transition

/-- A live transaction of a peer that the user has not answered yet. -/
def awaiting (home : SockAddr) (b : EcBase) (id : SrvId) : Bool :=
  (b.heap id).any fun srv => !srv.freed && srv.state == .ackSent && srv.flow.conn.peer == home

/-- The calls by which an event has the user make the response to a peer: those of a callback, and those before a
wakeup, unless the transaction has been answered already. -/
def making (platform : Platform) (home : SockAddr) (b b' : EcBase) (event : BaseEvent) : List SrvApi :=
  match event with
  | .datagram _ => (serving platform home b b' event).flatMap fun call => call.run.calls
  | .rescheduled id _ =>
      if awaiting home b id then (serving platform home b b' event).flatMap fun call => call.run.calls else []
  | .wakeup id calls _ => if awaiting home b id then calls else []
  | .coapTimeout _ _ | .countdown _ | .registry _ | .callbacks _ _ | .request _ _ _ | .client _ _ => []

/-- The user wakes up a transaction of a peer only to answer it, with a response that can be sent. -/
def Timely (platform : Platform) (home : SockAddr) (b : EcBase) (event : BaseEvent) : Prop :=
  match event with
  | .wakeup id calls env => ∀ srv, b.heap id = some srv → srv.freed = false → srv.flow.conn.peer = home →
      srv.state = .ackSent ∧
        ∃ res isCon, (applyCalls platform calls (b.work id srv)).srv.Responds res isCon env.sent
  | .datagram _ | .rescheduled _ _ | .coapTimeout _ _ | .countdown _ | .registry _ | .callbacks _ _ | .request _ _ _
  | .client _ _ => True

/-- Whatever a base has said to a peer, and can say to it again, is of this kind. -/
structure Heard (platform : Platform) (home : SockAddr) (kind : Datagram → Prop) (b : EcBase) : Prop where
  sent : ∀ id srv s, b.heap id = some srv → s ∈ srv.sent → s.datagram.peer = home → kind s.datagram
  cached : ∀ mid recvd reply, b.dups (ecDupKeyNew platform mid home) = some recvd → recvd.cachedPdu = some reply →
    ∃ d, kind d ∧ d.cached = reply
  resent : ∀ d ∈ b.resent, d.peer = home → kind d

/-- Datagrams with the same pieces are of a kind, wherever they go. -/
def Wireborne (kind : Datagram → Prop) : Prop := ∀ d d' : Datagram, d.cached = d'.cached → kind d → kind d'

/-- A base that has the record of a peer's request, and a transaction for it. -/
structure Hosting (platform : Platform) (home : SockAddr) (mid : UInt16) (own : SrvId) (b : EcBase) : Prop where
  beside : Beside home (some own) b
  recorded : ∃ recvd, b.dups (ecDupKeyNew platform mid home) = some recvd

/-- A base whose user has not answered the request of a peer yet. -/
structure Drafted (platform : Platform) (home : SockAddr) (mid : UInt16) (own : SrvId) (req : EcPdu)
    (token : List UInt8) (made : List SrvApi) (b : EcBase) : Prop extends Hosting platform home mid own b where
  server : ∃ srv, b.heap own = some srv ∧ srv.freed = false ∧ srv.Drafting platform req token made
  heard : Heard platform home (Datagram.Empty platform.order) b

/-- A base whose user has answered the request of a peer, or which has given it up. -/
structure Responded (platform : Platform) (home : SockAddr) (mid : UInt16) (own : SrvId) (req : EcPdu)
    (token : List UInt8) (made : List SrvApi) (again : Prop) (b : EcBase) : Prop extends
    Hosting platform home mid own b where
  server : ∃ srv, b.heap own = some srv ∧ srv.Concluded platform req token made again
  heard : Heard platform home (Datagram.Fair platform made token) b

/-- A request that waits for its answer goes on waiting after an event, or is answered, or given up. -/
def Pursues (platform : Platform) (home : SockAddr) (mid : UInt16) (own : SrvId) (req : EcPdu) (token : List UInt8)
    (made : List SrvApi) (b b' : EcBase) (event : BaseEvent) : Prop :=
  Drafted platform home mid own req token (made ++ making platform home b b' event) b' ∧
      serving platform home b b' event = [] ∨
    ∃ again : Prop, Responded platform home mid own req token (made ++ making platform home b b' event) again b' ∧
      (serving platform home b b' event = [] ∨ ¬ again ∧ ∃ run, serving platform home b b' event = [⟨req, run⟩])

/-- A request that was answered stays so after an event, and may have its callback invoked once more. -/
def Upholds (platform : Platform) (home : SockAddr) (mid : UInt16) (own : SrvId) (req : EcPdu) (token : List UInt8)
    (made : List SrvApi) (again : Prop) (b b' : EcBase) (event : BaseEvent) : Prop :=
  making platform home b b' event = [] ∧
    (Responded platform home mid own req token made again b' ∧ serving platform home b b' event = [] ∨
      again ∧ Responded platform home mid own req token made False b' ∧
        ∃ run, serving platform home b b' event = [⟨req, run⟩])

section Kinds

variable {platform : Platform}

theorem empty_wireborne : Wireborne (Datagram.Empty platform.order) := by
  rintro ⟨hdr, opts, payload, sd, peer⟩ ⟨_, _, _, sd', peer'⟩ same ⟨t, mid, empty⟩
  cases same
  exact ⟨t, mid, empty⟩

theorem fair_wireborne (made : List SrvApi) (token : List UInt8) : Wireborne (Datagram.Fair platform made token) := by
  rintro ⟨hdr, opts, payload, sd, peer⟩ ⟨_, _, _, sd', peer'⟩ same fair
  cases same
  exact fair

end Kinds

section Saying

variable {platform : Platform} {home : SockAddr} {kind wider : Datagram → Prop} {b b' : EcBase}

theorem Heard.mono (heard : Heard platform home kind b) (within : ∀ d, kind d → wider d) :
    Heard platform home wider b := by
  refine ⟨fun id srv s stored member addressed => within _ (heard.sent id srv s stored member addressed),
    fun mid recvd reply present cached => ?_, fun d member addressed => within d (heard.resent d member addressed)⟩
  obtain ⟨d, same, whole⟩ := heard.cached mid recvd reply present cached
  exact ⟨d, within d same, whole⟩

/-- All that a peer gets is of this kind. -/
theorem Heard.mail (heard : Heard platform home kind b) : ∀ d ∈ mail home b, kind d := by
  intro d member
  obtain ⟨addressed, resent | ⟨id, srv, s, stored, inside, same⟩⟩ := mem_mail member
  · exact heard.resent d resent addressed
  · subst same
    exact heard.sent id srv s stored inside addressed

/-- Others have nothing said to a peer. -/
theorem Heard.spared {own : SrvId} (heard : Heard platform home kind b)
    (spared : Spared platform home (some own) b b') : Heard platform home kind b' := by
  refine ⟨fun id srv s stored member addressed => ?_, fun mid recvd reply present cached => ?_,
    fun d member addressed => heard.resent d (spared.resent d member addressed) addressed⟩
  · by_cases mine : id = own
    · subst mine
      rw [spared.own id rfl] at stored
      exact heard.sent id srv s stored member addressed
    · exact absurd addressed ((spared.beside.foreign id srv (by simpa using mine) stored).sent s member)
  · rw [spared.records] at present
    exact heard.cached mid recvd reply present cached

/-- What is repeated to a peer is of the kind of what it was told before. -/
theorem Heard.repeated {input : ServerInput} {cached : EcCachedPdu} {recvd : EcRecvdPdu} {mid : UInt16}
    (heard : Heard platform home kind b) (borne : Wireborne kind)
    (present : b.dups (ecDupKeyNew platform mid home) = some recvd) (reply : recvd.cachedPdu = some cached) :
    Heard platform home kind
      {b with resent := b.resent ++ [⟨cached.hdr, cached.opts, cached.payload, input.sd, input.peer⟩]} := by
  refine ⟨heard.sent, heard.cached, fun d member addressed => ?_⟩
  rcases List.mem_append.mp member with before | new
  · exact heard.resent d before addressed
  · obtain ⟨d', said, same⟩ := heard.cached mid recvd cached present reply
    rw [List.mem_singleton.mp new]
    exact borne d' _ same said

/-- A base after the work of a transaction has said what the transaction has, besides what it had said before. -/
theorem Heard.stored {c : EcBase} {w w' : EcWork} (heard : Heard platform home kind b) (heap : c.heap = b.heap)
    (resent : c.resent = b.resent) (said : w.Utters kind w')
    (before : ∀ s ∈ w.srv.sent, s.datagram.peer = home → kind s.datagram)
    (records : ∀ mid recvd reply, w.dups (ecDupKeyNew platform mid home) = some recvd →
      recvd.cachedPdu = some reply → ∃ d, kind d ∧ d.cached = reply) : Heard platform home kind (c.store w') := by
  refine ⟨fun id srv s stored member addressed => ?_, fun mid recvd reply present cached => ?_, ?_⟩
  · change (if id = w'.self then some w'.srv else c.heap id) = some srv at stored
    split at stored
    · cases stored
      obtain ⟨more, log, new⟩ := said.sent
      rw [log] at member
      rcases List.mem_append.mp member with old | fresh
      · exact before s old addressed
      · exact new s fresh
    · rw [heap] at stored
      exact heard.sent id srv s stored member addressed
  · rcases said.cached _ recvd reply present cached with ⟨old, held, same⟩ | new
    · exact records mid old reply held same
    · exact new
  · change ∀ d ∈ c.resent, _
    rw [resent]
    exact heard.resent

end Saying

section Others

variable {platform : Platform} {home : SockAddr} {mid : UInt16} {own : SrvId} {req : EcPdu} {token : List UInt8}
  {made : List SrvApi} {again : Prop} {b b' : EcBase} {event : BaseEvent}

theorem Hosting.spared (hosting : Hosting platform home mid own b) (spared : Spared platform home (some own) b b') :
    Hosting platform home mid own b' := by
  refine ⟨spared.beside, ?_⟩
  rw [spared.records]
  exact hosting.recorded

theorem Drafted.spared (drafted : Drafted platform home mid own req token made b)
    (spared : Spared platform home (some own) b b') : Drafted platform home mid own req token made b' := by
  refine ⟨drafted.toHosting.spared spared, ?_, drafted.heard.spared spared⟩
  rw [spared.own own rfl]
  exact drafted.server

theorem Responded.spared (responded : Responded platform home mid own req token made again b)
    (spared : Spared platform home (some own) b b') : Responded platform home mid own req token made again b' := by
  refine ⟨responded.toHosting.spared spared, ?_, responded.heard.spared spared⟩
  rw [spared.own own rfl]
  exact responded.server

theorem awaiting_iff {id : SrvId} : awaiting home b id = true ↔
    ∃ srv, b.heap id = some srv ∧ srv.freed = false ∧ srv.state = .ackSent ∧ srv.flow.conn.peer = home := by
  unfold awaiting
  cases b.heap id with
  | none => simp
  | some srv => simp [and_assoc]

theorem making_silent {input : ServerInput} (silent : serving platform home b b' (.datagram input) = []) :
    making platform home b b' (.datagram input) = [] := by
  unfold making
  rw [silent]
  rfl

/-- Others make no response to a peer. -/
theorem making_elsewhere (known : (ecNetSocklen home).isSome) {owner : Option SrvId} (beside : Beside home owner b)
    (elsewhere : Elsewhere platform home b event) (aside : Aside owner b event)
    (finished : baseStep platform b event = .ok b') : making platform home b b' event = [] := by
  have silent := serving_elsewhere known beside elsewhere aside finished
  cases event with
  | datagram input => simp [making, silent]
  | rescheduled id env => simp [making, silent]
  | wakeup id calls env =>
      show (if awaiting home b id = true then calls else []) = []
      split
      · rename_i awaits
        obtain ⟨srv, stored, live, _, talks⟩ := awaiting_iff.mp awaits
        exact absurd talks ((beside.woken aside stored live rfl).2.talks live)
      · rfl
  | coapTimeout id env => rfl
  | countdown key => rfl
  | registry observing => rfl
  | callbacks resources fb => rfl
  | request cli tout destination => rfl
  | client cid heard => rfl

end Others

section Own

variable {platform : Platform} {home : SockAddr} {mid : UInt16} {own : SrvId} {req : EcPdu} {token : List UInt8}
  {made : List SrvApi} {again : Prop} {b b' c : EcBase} {event : BaseEvent} {w : EcWork}

theorem Hosting.talks (hosting : Hosting platform home mid own b) {srv : EcServer} (stored : b.heap own = some srv)
    (live : srv.freed = false) : srv.flow.conn.peer = home := by
  obtain ⟨held, present, talks⟩ := hosting.beside.stored own rfl
  cases stored.symm.trans present
  exact talks live

/-- A base goes on hosting a peer when the peer's own transaction has worked. -/
theorem Hosting.worked (hosting : Hosting platform home mid own b) (work : ServerWork platform b event own w)
    (heap : c.heap = b.heap) (alive : event ≠ .countdown (ecDupKeyNew platform mid home))
    (finished : baseStep platform b event = .ok (c.store w)) :
    Hosting platform home mid own (c.store w) ∧ (c.store w).heap own = some w.srv ∧ w.srv.flow.conn.peer = home := by
  have self : w.self = own := (work.done hosting.beside.orderly.settled).same
  have here : (c.store w).heap own = some w.srv := if_pos self.symm
  have talks : w.srv.flow.conn.peer = home := by
    rcases work.posts hosting.beside.orderly.settled with ⟨old, held, live, posts⟩ | ⟨_, _, _, fresh, _⟩
    · exact posts.peer.trans (hosting.talks held live)
    · obtain ⟨srv, stored, _⟩ := hosting.beside.stored own rfl
      rw [fresh, hosting.beside.orderly.settled.fresh.2] at stored
      cases stored
  obtain ⟨recvd, present⟩ := hosting.recorded
  obtain ⟨later, held, _⟩ := (baseStep_records finished).keeps present alive
  refine ⟨⟨⟨baseStep_orderly hosting.beside.orderly finished, ?_, ?_⟩, later, held⟩, here, talks⟩
  · rintro id same
    cases same
    exact ⟨w.srv, here, fun _ => talks⟩
  · intro id srv other stored
    have there : (c.store w).heap id = c.heap id := if_neg fun same => other (by rw [same, self])
    rw [there, heap] at stored
    exact hosting.beside.foreign id srv other stored

/-- The callback of a transaction whose request is known is invoked with it. -/
theorem serving_rescheduled (platform : Platform) (env : HandlerEnv) {srv : EcServer} (held : b.heap own = some srv)
    (request : srv.req = some req) (here : (c.store w).heap own = some w.srv) (talks : w.srv.flow.conn.peer = home) :
    serving platform home b (c.store w) (.rescheduled own env) =
      if w.invoked = b.invoked then [] else [⟨req, env.run⟩] := by
  unfold serving
  change (if w.invoked = b.invoked then _ else _) = _
  split
  · rfl
  · simp only [callback, held, Option.bind_some, request, Option.map_some, here]
    rw [if_pos talks]

/-- What a base has said to a peer, when the peer's own transaction has worked on the records of the base. -/
theorem Heard.worked {kind : Datagram → Prop} (heard : Heard platform home kind b) {srv : EcServer} {w w' : EcWork}
    (heap : c.heap = b.heap) (resent : c.resent = b.resent) (held : b.heap own = some srv)
    (sent : w.srv.sent = srv.sent) (dups : w.dups = b.dups) (said : w.Utters kind w') :
    Heard platform home kind (c.store w') := by
  apply heard.stored heap resent said
  · rw [sent]
    exact fun s member addressed => heard.sent own srv s held member addressed
  · rw [dups]
    exact fun mid recvd reply present cached => heard.cached mid recvd reply present cached

/-- The callback is invoked again for a request that was not answered yet. -/
theorem Drafted.recalled {env : HandlerEnv} (drafted : Drafted platform home mid own req token made b)
    (finished : baseStep platform b (.rescheduled own env) = .ok b') :
    (b' = b ∨ Responded platform home mid own req token made False b') ∧
      serving platform home b b' (.rescheduled own env) = [] ∨
    Responded platform home mid own req token (made ++ env.run.calls) False b' ∧
      serving platform home b b' (.rescheduled own env) = [⟨req, env.run⟩] ∧ awaiting home b own = true := by
  obtain ⟨srv, stored, live, drafting⟩ := drafted.server
  rcases EcBase.fire_ok finished with same | ⟨held, w, present, armed, _, worked, same⟩
  · exact Or.inl ⟨Or.inl same, by rw [same]; simp [serving]⟩
  · cases stored.symm.trans present
    subst same
    have work := ServerWork.rescheduled own env srv w stored armed live worked
    obtain ⟨hosting, here, talks⟩ := drafted.toHosting.worked work rfl (by simp) finished
    have serves := serving_rescheduled platform env stored drafting.request here talks
    have fired : (b.work own {srv with resched := srv.resched.fired}).srv.Drafting platform req token made :=
      ⟨drafting.state, drafting.request, drafting.code, drafting.tagged, drafting.response⟩
    rcases fired.recalled worked with ⟨uncalled, freed, fails⟩ | ⟨called, concluded, fair⟩
    · change w.invoked = b.invoked at uncalled
      rw [if_pos uncalled] at serves
      have heard : Heard platform home (Datagram.Fair platform made token) b :=
        drafted.heard.mono fun d empty => Or.inl empty
      exact Or.inl ⟨Or.inr ⟨hosting, ⟨w.srv, here, Or.inl freed⟩,
        heard.worked rfl rfl stored rfl rfl (fails.mono fun d fails => Or.inr (Or.inl fails))⟩, serves⟩
    · have invoked : w.invoked ≠ b.invoked := by
        change w.invoked = b.invoked + 1 at called
        omega
      rw [if_neg invoked] at serves
      have heard : Heard platform home (Datagram.Fair platform (made ++ env.run.calls) token) b :=
        drafted.heard.mono fun d empty => Or.inl empty
      refine Or.inr ⟨⟨hosting, ⟨w.srv, here, ?_⟩, heard.worked rfl rfl stored rfl rfl fair⟩, serves, ?_⟩
      · exact concluded.imp_right fun answering => ⟨answering.1, fun pending => by cases answering.2 pending⟩
      · exact awaiting_iff.mpr ⟨srv, stored, live, drafting.state, drafted.talks stored live⟩

/-- The callback is invoked again for a request that was answered: its transaction ends. -/
theorem Responded.recalled {env : HandlerEnv} (responded : Responded platform home mid own req token made again b)
    (finished : baseStep platform b (.rescheduled own env) = .ok b') :
    (b' = b ∨ Responded platform home mid own req token made False b') ∧
      (serving platform home b b' (.rescheduled own env) = [] ∨
        again ∧ Responded platform home mid own req token made False b' ∧
          serving platform home b b' (.rescheduled own env) = [⟨req, env.run⟩]) := by
  obtain ⟨srv, stored, concluded⟩ := responded.server
  rcases EcBase.fire_ok finished with same | ⟨held, w, present, armed, live, worked, same⟩
  · exact ⟨Or.inl same, Or.inl (by rw [same]; simp [serving])⟩
  · cases stored.symm.trans present
    subst same
    obtain ⟨answering, recalls⟩ := concluded.resolve_left fun freed => by cases live.symm.trans freed
    have work := ServerWork.rescheduled own env srv w stored armed live worked
    obtain ⟨hosting, here, talks⟩ := responded.toHosting.worked work rfl (by simp) finished
    have serves := serving_rescheduled platform env stored answering.request here talks
    have fired : (b.work own {srv with resched := srv.resched.fired}).srv.Answering platform req token made :=
      ⟨answering.state, answering.request, answering.code, answering.tagged, answering.response⟩
    obtain ⟨freed, silent⟩ := @EcServer.Answering.recalled platform req token made _ _ env
      (Datagram.Fair platform made token) fired worked
    have after : Responded platform home mid own req token made False (b.store w) :=
      ⟨hosting, ⟨w.srv, here, Or.inl freed⟩, responded.heard.worked rfl rfl stored rfl rfl silent⟩
    refine ⟨Or.inr after, ?_⟩
    split at serves
    · exact Or.inl serves
    · exact Or.inr ⟨recalls armed, after, serves⟩

/-- The user answers a request by a wakeup. -/
theorem Drafted.woken {calls : List SrvApi} {env : SendEnv} (drafted : Drafted platform home mid own req token made b)
    (answers : ∀ srv, b.heap own = some srv → ∃ res isCon,
      (applyCalls platform calls (b.work own srv)).srv.Responds res isCon env.sent)
    (finished : baseStep platform b (.wakeup own calls env) = .ok b') :
    Responded platform home mid own req token (made ++ calls) True b' ∧ awaiting home b own = true := by
  obtain ⟨srv, stored, live, drafting⟩ := drafted.server
  obtain ⟨res, isCon, responds⟩ := answers srv stored
  have step := finished
  dsimp only [baseStep] at step
  rw [stored] at step
  dsimp only at step
  rw [if_neg (by simp [live])] at step
  obtain ⟨⟨w, rc⟩, worked, same⟩ := map_ok step
  subst same
  have work := ServerWork.wakeup own calls env srv w rc stored live worked
  obtain ⟨hosting, here, talks⟩ := drafted.toHosting.worked work rfl (by simp) finished
  have drafts : (b.work own srv).srv.Drafting platform req token made := drafting
  obtain ⟨concluded, fair⟩ := drafts.woken responds worked
  have heard : Heard platform home (Datagram.Fair platform (made ++ calls) token) b :=
    drafted.heard.mono fun d empty => Or.inl empty
  refine ⟨⟨hosting, ⟨w.srv, here, concluded⟩, heard.worked rfl rfl stored rfl rfl fair⟩, ?_⟩
  exact awaiting_iff.mpr ⟨srv, stored, live, drafting.state, drafted.talks stored live⟩

/-- A request that was answered is not answered by a wakeup any more. -/
theorem Responded.woken {calls : List SrvApi} {env : SendEnv}
    (responded : Responded platform home mid own req token made again b)
    (answers : ∀ srv, b.heap own = some srv → srv.freed = false → srv.state = .ackSent)
    (finished : baseStep platform b (.wakeup own calls env) = .ok b') : b' = b := by
  obtain ⟨srv, stored, concluded⟩ := responded.server
  have freed : srv.freed = true := by
    rcases concluded with freed | ⟨answering, _⟩
    · exact freed
    · apply Bool.eq_true_of_not_eq_false
      intro live
      cases answering.state.symm.trans (answers srv stored live)
  dsimp only [baseStep] at finished
  rw [stored] at finished
  dsimp only at finished
  rw [if_pos freed] at finished
  cases finished
  rfl

/-- Nothing is sent again before there is a response. -/
theorem Drafted.unexpired {env : SendEnv} (drafted : Drafted platform home mid own req token made b)
    (finished : baseStep platform b (.coapTimeout own env) = .ok b') : b' = b := by
  obtain ⟨srv, stored, live, drafting⟩ := drafted.server
  rcases EcBase.fire_ok finished with same | ⟨held, w, present, armed, _, worked, same⟩
  · exact same
  · cases stored.symm.trans present
    obtain ⟨_, waiting, _⟩ := drafted.beside.orderly.settled.timedOut stored live armed
    cases drafting.state.symm.trans waiting

/-- The answer to a request is sent again, or given up. -/
theorem Responded.expired {env : SendEnv} (responded : Responded platform home mid own req token made again b)
    (finished : baseStep platform b (.coapTimeout own env) = .ok b') :
    Responded platform home mid own req token made again b' := by
  obtain ⟨srv, stored, concluded⟩ := responded.server
  rcases EcBase.fire_ok finished with same | ⟨held, w, present, armed, live, worked, same⟩
  · rw [same]
    exact responded
  · cases stored.symm.trans present
    subst same
    obtain ⟨answering, recalls⟩ := concluded.resolve_left fun freed => by cases live.symm.trans freed
    have work := ServerWork.coapTimeout own env srv w stored armed live worked
    obtain ⟨hosting, here, talks⟩ := responded.toHosting.worked work rfl (by simp) finished
    have fired : (b.work own {srv with coap := srv.coap.fired}).srv.Answering platform req token made :=
      ⟨answering.state, answering.request, answering.code, answering.tagged, answering.response⟩
    obtain ⟨repeats, fair⟩ := fired.repeated worked
    refine ⟨hosting, ⟨w.srv, here, ?_⟩, responded.heard.worked rfl rfl stored rfl rfl fair⟩
    exact repeats.imp_right fun answering => ⟨answering.1, fun pending => recalls (answering.2 pending)⟩

theorem Responded.mono {again' : Prop} (responded : Responded platform home mid own req token made again b)
    (later : again → again') : Responded platform home mid own req token made again' b := by
  obtain ⟨hosting, ⟨srv, stored, concluded⟩, heard⟩ := responded
  refine ⟨hosting, ⟨srv, stored, concluded.imp_right fun answering => ?_⟩, heard⟩
  exact ⟨answering.1, fun pending => later (answering.2 pending)⟩

/-- A request that was answered does not wait for its answer. -/
theorem Responded.unawaiting (responded : Responded platform home mid own req token made again b) :
    ¬ awaiting home b own = true := by
  intro awaits
  obtain ⟨srv, stored, live, acked, _⟩ := awaiting_iff.mp awaits
  obtain ⟨held, present, concluded⟩ := responded.server
  cases stored.symm.trans present
  rcases concluded with freed | ⟨answering, _⟩
  · cases live.symm.trans freed
  · cases answering.state.symm.trans acked

theorem Wakes.cases (wakes : Wakes own event) : (∃ env, event = .rescheduled own env) ∨
    (∃ env, event = .coapTimeout own env) ∨ ∃ calls env, event = .wakeup own calls env := by
  cases event with
  | rescheduled id env =>
      cases wakes
      exact Or.inl ⟨env, rfl⟩
  | coapTimeout id env =>
      cases wakes
      exact Or.inr (Or.inl ⟨env, rfl⟩)
  | wakeup id calls env =>
      cases wakes
      exact Or.inr (Or.inr ⟨calls, env, rfl⟩)
  | datagram input => exact wakes.elim
  | countdown key => exact wakes.elim
  | registry observing => exact wakes.elim
  | callbacks resources fb => exact wakes.elim
  | request cli tout destination => exact wakes.elim
  | client cid heard => exact wakes.elim

/-- What becomes of a request that the user has not answered yet, whatever happens but a message of its peer. -/
theorem Drafted.goes (known : (ecNetSocklen home).isSome)
    (distinct : ∀ peer, platform.formatSockaddrPort peer = platform.formatSockaddrPort home → peer = home)
    (drafted : Drafted platform home mid own req token made b) (elsewhere : Elsewhere platform home b event)
    (timely : Timely platform home b event) (finished : baseStep platform b event = .ok b') :
    Pursues platform home mid own req token made b b' event := by
  unfold Pursues
  by_cases wakes : Wakes own event
  · rcases wakes.cases with ⟨env, same⟩ | ⟨env, same⟩ | ⟨calls, env, same⟩
    · subst same
      rcases drafted.recalled finished with ⟨outcome, silent⟩ | ⟨responded, serves, awaits⟩
      · have unmade : making platform home b b' (.rescheduled own env) = [] := by simp [making, silent]
        rw [unmade, List.append_nil]
        rcases outcome with same | responded
        · subst same
          exact Or.inl ⟨drafted, silent⟩
        · exact Or.inr ⟨False, responded, Or.inl silent⟩
      · have makes : making platform home b b' (.rescheduled own env) = env.run.calls := by
          simp [making, serves, awaits]
        rw [makes]
        exact Or.inr ⟨False, responded, Or.inr ⟨id, env.run, serves⟩⟩
    · subst same
      have same := drafted.unexpired finished
      subst same
      have unmade : making platform home b' b' (.coapTimeout own env) = [] := rfl
      rw [unmade, List.append_nil]
      exact Or.inl ⟨drafted, by simp [serving]⟩
    · subst same
      have answers : ∀ srv, b.heap own = some srv → ∃ res isCon,
          (applyCalls platform calls (b.work own srv)).srv.Responds res isCon env.sent := by
        intro srv stored
        obtain ⟨_, held, live, _⟩ := drafted.server
        cases stored.symm.trans held
        exact (timely srv stored live (drafted.talks stored live)).2
      obtain ⟨responded, awaits⟩ := drafted.woken answers finished
      have makes : making platform home b b' (.wakeup own calls env) = calls := by simp [making, awaits]
      rw [makes]
      exact Or.inr ⟨True, responded, Or.inl (serving_eq_nil fun _ _ _ none => by cases none)⟩
  · have aside : Aside (some own) b event := fun id _ same _ _ woken => wakes (by cases same; exact woken)
    have spared := baseStep_spares known distinct drafted.beside elsewhere aside finished
    rw [making_elsewhere known drafted.beside elsewhere aside finished, List.append_nil]
    exact Or.inl ⟨drafted.spared spared, serving_elsewhere known drafted.beside elsewhere aside finished⟩

/-- What becomes of a request that the user has answered, whatever happens but a message of its peer. -/
theorem Responded.goes (known : (ecNetSocklen home).isSome)
    (distinct : ∀ peer, platform.formatSockaddrPort peer = platform.formatSockaddrPort home → peer = home)
    (responded : Responded platform home mid own req token made again b) (elsewhere : Elsewhere platform home b event)
    (timely : Timely platform home b event) (finished : baseStep platform b event = .ok b') :
    Upholds platform home mid own req token made again b b' event := by
  by_cases wakes : Wakes own event
  · rcases wakes.cases with ⟨env, same⟩ | ⟨env, same⟩ | ⟨calls, env, same⟩
    · subst same
      have unmade : making platform home b b' (.rescheduled own env) = [] := by
        show (if awaiting home b own = true then _ else []) = []
        rw [if_neg responded.unawaiting]
      obtain ⟨outcome, silent | ⟨recalls, after, serves⟩⟩ := responded.recalled finished
      · refine ⟨unmade, Or.inl ⟨?_, silent⟩⟩
        rcases outcome with same | after
        · rw [same]
          exact responded
        · exact after.mono fun never => never.elim
      · exact ⟨unmade, Or.inr ⟨recalls, after, env.run, serves⟩⟩
    · subst same
      exact ⟨rfl, Or.inl ⟨responded.expired finished, serving_eq_nil fun _ _ _ none => by cases none⟩⟩
    · subst same
      have same := responded.woken
        (fun srv stored live => (timely srv stored live (responded.talks stored live)).1) finished
      subst same
      refine ⟨?_, Or.inl ⟨responded, serving_eq_nil fun _ _ _ none => by cases none⟩⟩
      show (if awaiting home b' own = true then calls else []) = []
      rw [if_neg responded.unawaiting]
  · have aside : Aside (some own) b event := fun id _ same _ _ woken => wakes (by cases same; exact woken)
    have spared := baseStep_spares known distinct responded.beside elsewhere aside finished
    exact ⟨making_elsewhere known responded.beside elsewhere aside finished,
      Or.inl ⟨responded.spared spared, serving_elsewhere known responded.beside elsewhere aside finished⟩⟩

end Own

section Messages

variable {platform : Platform} {home : SockAddr} {mid : UInt16} {own : SrvId} {req : EcPdu} {token : List UInt8}
  {made : List SrvApi} {again : Prop} {kind : Datagram → Prop} {b b' : EcBase} {input : ServerInput} {h : EcHdr}

/-- A record that a message has just got holds no reply. -/
theorem Heard.seen
    (distinct : ∀ peer, platform.formatSockaddrPort peer = platform.formatSockaddrPort home → peer = home)
    (heard : Heard platform home kind b) (sender : input.peer = home) (h : EcHdr) (sought : UInt16)
    (recvd : EcRecvdPdu) (reply : EcCachedPdu)
    (present : (b.seen platform input h).dups (ecDupKeyNew platform sought home) = some recvd)
    (cached : recvd.cachedPdu = some reply) : ∃ d, kind d ∧ d.cached = reply := by
  rcases seen_records distinct sender h sought with same | ⟨_, whole⟩
  · exact heard.cached sought recvd reply (same.symm.trans present) cached
  · cases present.symm.trans whole
    cases cached

/-- A later message of the peer gets an earlier reply again, or may end the transaction. -/
theorem Hosting.hears (borne : Wireborne kind)
    (distinct : ∀ peer, platform.formatSockaddrPort peer = platform.formatSockaddrPort home → peer = home)
    (hosting : Hosting platform home mid own b) (heard : Heard platform home kind b) (sender : input.peer = home)
    (requests : ∀ h, ecPduDecodeHeader platform.order input.raw = some h → ecIsMethod h.code.toNat → h.mid = mid)
    (finished : baseStep platform b (.datagram input) = .ok b') :
    Hosting platform home mid own b' ∧ serving platform home b b' (.datagram input) = [] ∧
      (b'.heap own = b.heap own ∧ Heard platform home kind b' ∨
        (∃ srv, b'.heap own = some srv ∧ srv.freed = true) ∧
          Heard platform home (fun d => kind d ∨ d.Fails) b') := by
  have orderly := baseStep_orderly hosting.beside.orderly finished
  obtain ⟨recvd, present⟩ := hosting.recorded
  by_cases accepted : ∃ h, b.Accepts platform input h
  · obtain ⟨h, accepts⟩ := accepted
    have other : ¬ ecIsMethod h.code.toNat := by
      intro method
      have fresh := accepts.fresh
      unfold ecDupsSearch at fresh
      rw [sender, requests h accepts.header method, present] at fresh
      cases fresh
    rcases baseStep_control accepts other finished with ⟨observing, same⟩ |
      ⟨id, srv, w, rc, controls, found, stored, worked, same⟩
    · subst same
      obtain ⟨later, held, _⟩ := (baseStep_records finished).keeps present (by simp)
      refine ⟨⟨⟨orderly, hosting.beside.stored, hosting.beside.foreign⟩, later, held⟩, by simp [serving, EcBase.seen],
        Or.inl ⟨rfl, heard.sent, ?_, heard.resent⟩⟩
      exact fun sought recvd reply => heard.seen distinct sender h sought recvd reply
    · subst same
      have talks := matched_peer found stored
      have mine : id = own := by
        apply Classical.byContradiction
        intro foreign
        obtain ⟨held, same, live⟩ := hosting.beside.orderly.settled.listed id (ecServersLookup_mem found).1
        cases stored.symm.trans same
        exact (hosting.beside.foreign id srv (by simpa using foreign) stored).talks live (talks.trans sender)
      subst mine
      have work := ServerWork.control input h id srv w rc controls found stored worked
      obtain ⟨hosts, here, _⟩ := hosting.worked work (c := b.seen platform input h) rfl (by simp) finished
      refine ⟨hosts, serving_eq_nil fun other call srv' calls there _ => ?_,
        Or.inr ⟨⟨w.srv, here, (ecServerControlled_logs worked).1⟩, ?_⟩⟩
      · obtain ⟨_, _, same⟩ := Option.map_eq_some_iff.mp calls
        cases same
        have self : w.self = id := (work.done hosting.beside.orderly.settled).same
        have fresh := hosting.beside.orderly.settled.fresh.2
        change (if b.nextSrv = w.self then some w.srv else b.heap b.nextSrv) = some srv' at there
        rw [if_neg (by rw [self]; rintro same; rw [same, stored] at fresh; cases fresh), fresh] at there
        cases there
      · refine (heard.mono fun d said => Or.inl said).stored rfl rfl
          ((ecServerControlled_utters worked).mono fun d fails => Or.inr fails) ?_ ?_
        · exact fun s member addressed => Or.inl (heard.sent id srv s stored member addressed)
        · intro sought recvd reply held cached
          obtain ⟨d, said, same⟩ := heard.seen distinct sender h sought recvd reply held cached
          exact ⟨d, Or.inl said, same⟩
  · rcases baseStep_refused (fun h accepts => accepted ⟨h, accepts⟩) finished with same |
      ⟨h, old, cached, _, held, reply, same⟩
    · subst same
      exact ⟨hosting, by simp [serving], Or.inl ⟨rfl, heard⟩⟩
    · subst same
      rw [sender] at held
      exact ⟨⟨⟨orderly, hosting.beside.stored, hosting.beside.foreign⟩, recvd, present⟩, by simp [serving],
        Or.inl ⟨rfl, heard.repeated borne held reply⟩⟩

theorem Drafted.hears
    (distinct : ∀ peer, platform.formatSockaddrPort peer = platform.formatSockaddrPort home → peer = home)
    (drafted : Drafted platform home mid own req token made b) (sender : input.peer = home)
    (requests : ∀ h, ecPduDecodeHeader platform.order input.raw = some h → ecIsMethod h.code.toNat → h.mid = mid)
    (finished : baseStep platform b (.datagram input) = .ok b') :
    Pursues platform home mid own req token made b b' (.datagram input) := by
  obtain ⟨hosting, silent, ⟨same, heard⟩ | ⟨⟨srv, here, freed⟩, heard⟩⟩ :=
    drafted.toHosting.hears empty_wireborne distinct drafted.heard sender requests finished
  · unfold Pursues
    rw [making_silent silent, List.append_nil]
    exact Or.inl ⟨⟨hosting, by rw [same]; exact drafted.server, heard⟩, silent⟩
  · unfold Pursues
    rw [making_silent silent, List.append_nil]
    refine Or.inr ⟨False, ⟨hosting, ⟨srv, here, Or.inl freed⟩, heard.mono fun d said => ?_⟩, Or.inl silent⟩
    exact said.imp_right fun fails => Or.inl fails

theorem Responded.hears
    (distinct : ∀ peer, platform.formatSockaddrPort peer = platform.formatSockaddrPort home → peer = home)
    (responded : Responded platform home mid own req token made again b) (sender : input.peer = home)
    (requests : ∀ h, ecPduDecodeHeader platform.order input.raw = some h → ecIsMethod h.code.toNat → h.mid = mid)
    (finished : baseStep platform b (.datagram input) = .ok b') :
    Upholds platform home mid own req token made again b b' (.datagram input) := by
  obtain ⟨hosting, silent, ⟨same, heard⟩ | ⟨⟨srv, here, freed⟩, heard⟩⟩ :=
    responded.toHosting.hears (fair_wireborne made token) distinct responded.heard sender requests finished
  · exact ⟨making_silent silent, Or.inl ⟨⟨hosting, by rw [same]; exact responded.server, heard⟩, silent⟩⟩
  · refine ⟨making_silent silent, Or.inl ⟨⟨hosting, ⟨srv, here, Or.inl freed⟩, heard.mono fun d said => ?_⟩, silent⟩⟩
    exact said.elim id fun fails => Or.inr (Or.inl fails)

/-- The server of a new request over a connected socket talks to its sender when its callback has been invoked. -/
theorem ecServerProcess_talks {resources : List (List UInt8)} {fb : Bool} {w w' : EcWork} {rc : EcNetCbrc}
    (created : w.srv = ecServerNew) (socket : input.sd ≠ -1) (connected : input.sd ≠ 0)
    (finished : ecServerProcess platform resources fb h input w = .ok (w', rc)) :
    w'.invoked = w.invoked ∧ w'.srv.freed = true ∨ w'.srv.flow.conn.peer = input.peer := by
  rcases ecServerProcess_cases created finished with ⟨_, flow, code, failed⟩ | ⟨flow, prepares, dispatched⟩
  · have uncalled := ecServerFail_invoked failed
    exact Or.inl ⟨uncalled, (ecServerFail_logs failed).1⟩
  · have talks : flow.conn.peer = input.peer := ((prepares.leads socket).2.1 connected).2
    exact Or.inr ((ecServerDispatch_posts platform dispatched).peer.trans talks)

/-- The first request of a peer that a base accepts gets a transaction of its own. -/
theorem Unserved.attends
    (distinct : ∀ peer, platform.formatSockaddrPort peer = platform.formatSockaddrPort home → peer = home)
    (unserved : Unserved platform home b) (sender : input.peer = home) (connected : input.sd ≠ 0)
    (accepts : b.Accepts platform input h) (method : ecIsMethod h.code.toNat)
    (tokened : requestToken (ecServerBody input.raw input.beyond).decoded.opts = token)
    (received : (ecServerBody input.raw input.beyond).pdu input.raw h = req)
    (finished : baseStep platform b (.datagram input) = .ok b') :
    Responded platform home h.mid b.nextSrv req token [] False b' ∧
      serving platform home b b' (.datagram input) = [] ∨
    (Drafted platform home h.mid b.nextSrv req token input.env.run.calls b' ∨
        Responded platform home h.mid b.nextSrv req token input.env.run.calls False b') ∧
      serving platform home b b' (.datagram input) = [⟨req, input.env.run⟩] := by
  have orderly := baseStep_orderly unserved.apart.orderly finished
  obtain ⟨recvd, recorded, _⟩ := accepts.recorded finished
  rw [sender] at recorded
  have header := accepts.header
  have step := finished
  rw [baseStep_request platform b input h accepts method] at step
  obtain ⟨⟨w, rc⟩, worked, same⟩ := map_ok step
  subst same
  have work := ServerWork.request input h w rc accepts method worked
  have self : w.self = b.nextSrv := (work.done unserved.apart.orderly.settled).same
  have talks := ecServerProcess_talks rfl accepts.socket connected worked
  have here : (EcBase.store {b.seen platform input h with nextSrv := b.nextSrv + 1} w).heap b.nextSrv = some w.srv :=
    if_pos self.symm
  have hosting : Hosting platform home h.mid b.nextSrv
      (EcBase.store {b.seen platform input h with nextSrv := b.nextSrv + 1} w) := by
    refine ⟨⟨orderly, ?_, fun id srv other stored => ?_⟩, recvd, recorded⟩
    · rintro id same
      cases same
      refine ⟨w.srv, here, fun live => ?_⟩
      rcases talks with ⟨_, freed⟩ | peer
      · cases live.symm.trans freed
      · exact peer.trans sender
    · change (if id = w.self then some w.srv else b.heap id) = some srv at stored
      rw [if_neg fun same => other (by rw [same, self])] at stored
      exact unserved.apart.foreign id srv (by simp) stored
  have unheard : ∀ kind, Heard platform home kind b := by
    refine fun kind => ⟨fun id srv s stored member addressed => ?_, fun sought recvd reply present _ => ?_,
      fun d member addressed => absurd addressed (unserved.silent d member)⟩
    · exact absurd addressed ((unserved.apart.foreign id srv (by simp) stored).sent s member)
    · cases (unserved.unrecorded sought).symm.trans present
  have heard : ∀ kind, ((b.seen platform input h).work b.nextSrv ecServerNew).Utters kind w →
      Heard platform home kind (EcBase.store {b.seen platform input h with nextSrv := b.nextSrv + 1} w) := by
    refine fun kind said => (unheard kind).stored rfl rfl said (fun s member => by cases member) ?_
    exact fun sought recvd reply => (unheard kind).seen distinct sender h sought recvd reply
  have serves : serving platform home b (EcBase.store {b.seen platform input h with nextSrv := b.nextSrv + 1} w)
      (.datagram input) = if w.invoked = b.invoked then [] else [⟨req, input.env.run⟩] := by
    unfold serving
    change (if w.invoked = b.invoked then _ else _) = _
    split
    · rfl
    · rename_i called
      have peer := talks.resolve_left fun uncalled => called uncalled.1
      simp only [callback, header, Option.map_some, here]
      rw [if_pos (peer.trans sender), received]
  rcases ecServerProcess_defers rfl tokened worked with ⟨uncalled, freed, fails⟩ | ⟨called, outcome⟩
  · change w.invoked = b.invoked at uncalled
    rw [if_pos uncalled] at serves
    exact Or.inl ⟨⟨hosting, ⟨w.srv, here, Or.inl freed⟩, heard _ (fails.mono fun d said => Or.inr (Or.inl said))⟩,
      serves⟩
  · have invoked : w.invoked ≠ b.invoked := by
      change w.invoked = b.invoked + 1 at called
      omega
    rw [if_neg invoked] at serves
    rw [received] at outcome
    refine Or.inr ⟨?_, serves⟩
    rcases outcome with ⟨freed, fair⟩ | ⟨drafting, empty⟩
    · exact Or.inr ⟨hosting, ⟨w.srv, here, Or.inl freed⟩, heard _ fair⟩
    · by_cases live : w.srv.freed = false
      · exact Or.inl ⟨hosting, ⟨w.srv, here, live, drafting⟩, heard _ empty⟩
      · have freed : w.srv.freed = true := by simpa using live
        exact Or.inr ⟨hosting, ⟨w.srv, here, Or.inl freed⟩, heard _ (empty.mono fun d said => Or.inl said)⟩

end Messages

end Webthings.Network
