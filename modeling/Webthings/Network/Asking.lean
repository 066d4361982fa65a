import Webthings.Evcoap.ClientPosts
import Webthings.Evcoap.Wire
import Webthings.Network.ObservationPhases

namespace Webthings.Network
open Webthings.Evcoap
open Webthings.Transition

/-- A client that observes nothing and has kept no response. -/
structure Plain (cli : EcClient) : Prop where
  off : cli.observe.on = false
  empty : cli.resSet = []

/-- The resolver has not answered yet, and the request is what it was at the start. -/
structure Resolving (start cli : EcClient) : Prop where
  state : cli.state = .none
  unregistered : cli.registered = false
  req : cli.req = start.req
  flow : cli.flow = start.flow
  sent : cli.sent = []

/-- What a client has sent since the resolver has answered: copies of its encoded request, and empty messages for an
answer. -/
structure Posted (order : ByteOrder) (start : EcClient) (answered : Prop) (cli : EcClient) : Prop where
  encoded : ∃ rng, (ecPduEncodeRequest order rng start.flow start.req).2 = 0 ∧
    cli.req = (ecPduEncodeRequest order rng start.flow start.req).1
  sent : ∀ s ∈ cli.sent, s.datagram.CopyOf cli.req ∨ answered ∧ s.datagram.Empty order

/-- A client that has failed before it has sent its request. -/
structure Failed (order : ByteOrder) (answered : Prop) (cli : EcClient) : Prop where
  final : ecClientStateIsFinal cli.state = true
  sent : ∀ s ∈ cli.sent, answered ∧ s.datagram.Empty order

/-- The resolver has not answered a client with a plain request, or the client has posted it, or has failed. -/
structure Asking (order : ByteOrder) (start : EcClient) (answered : Prop) (cli : EcClient) : Prop where
  quiet : ClientQuiet cli
  plain : Plain cli
  phase : Resolving start cli ∨ cli.state ≠ .none ∧ (Posted order start answered cli ∨ Failed order answered cli)

section Requests

theorem copyOf_bytes {pdu : EcPdu} {d : Datagram} (copy : d.CopyOf pdu) : d.bytes = pdu.bytes := by
  unfold Datagram.bytes EcPdu.bytes
  rw [copy.hdr, copy.opts, copy.payload]

variable {order : ByteOrder} {rng : UInt16} {start cli : EcClient} {answered : Prop}

/-- The encoder leaves the options of a request as they are. -/
theorem ecPduEncodeRequest_list (order : ByteOrder) (rng : UInt16) (flow : EcFlow) (pdu : EcPdu) :
    (ecPduEncodeRequest order rng flow pdu).1.opts.bundle.list = pdu.opts.bundle.list := by
  unfold ecPduEncodeRequest
  dsimp only
  split
  · rfl
  · split <;> rfl

theorem ecOptsGet_same {opts opts' : EcOpts} (same : opts'.bundle.list = opts.bundle.list) (sym : EcOptSym) :
    ecOptsGet opts' sym = ecOptsGet opts sym := by
  unfold ecOptsGet ecOptsGetNth
  rw [same]

theorem Posted.get (posted : Posted order start answered cli) (sym : EcOptSym) :
    ecOptsGet cli.req.opts sym = ecOptsGet start.req.opts sym := by
  obtain ⟨rng, _, same⟩ := posted.encoded
  rw [same, ecOptsGet_same (ecPduEncodeRequest_list order rng start.flow start.req)]

theorem Posted.unasked (posted : Posted order start answered cli)
    (unasked : ecOptsGet start.req.opts .observe = none) : ecOptsGet cli.req.opts .observe = none := by
  rw [posted.get]
  exact unasked

theorem Posted.mono {answered' : Prop} (posted : Posted order start answered cli) (later : answered → answered') :
    Posted order start answered' cli :=
  ⟨posted.encoded, fun s member => (posted.sent s member).imp_right fun empty => ⟨later empty.1, empty.2⟩⟩

theorem Failed.mono {answered' : Prop} (failed : Failed order answered cli) (later : answered → answered') :
    Failed order answered' cli := ⟨failed.final, fun s member => (failed.sent s member).imp_left later⟩

theorem Asking.mono {answered' : Prop} (asking : Asking order start answered cli) (later : answered → answered') :
    Asking order start answered' cli := by
  refine ⟨asking.quiet, asking.plain, asking.phase.imp_right fun ⟨state, phase⟩ => ⟨state, ?_⟩⟩
  exact phase.imp (fun posted => posted.mono later) fun failed => failed.mono later

/-- A client that has sent something has begun. -/
theorem Asking.begun (asking : Asking order start answered cli) {sent : Sent} (member : sent ∈ cli.sent) :
    cli.state ≠ .none := by
  obtain resolving | ⟨begun, _⟩ := asking.phase
  · rw [resolving.sent] at member
    cases member
  · exact begun

/-- A client that has begun and goes on waiting has posted its request. -/
theorem Asking.posted (asking : Asking order start answered cli) (waiting : ecClientStateIsFinal cli.state = false)
    (begun : cli.state ≠ .none) : Posted order start answered cli := by
  obtain resolving | ⟨_, posted | failed⟩ := asking.phase
  · exact absurd resolving.state begun
  · exact posted
  · cases waiting.symm.trans failed.final

end Requests

section Steps

variable {platform : Platform} {w w' : CliWork} {event : ClientEvent} {input : Incoming} {h : EcHdr} {start : EcClient}
  {answered : Prop}

/-- A response that a client without an observation takes in finds it waiting, and is its last one. -/
theorem Takes.plain {cli : EcClient} (takes : Takes platform w input h cli) (plain : Plain w.cli)
    (unasked : ecOptsGet w.cli.req.opts .observe = none ∨ ecClientStateIsFinal w.cli.state = true) :
    ecClientStateIsFinal w.cli.state = false ∧ cli.state = .reqDone ∧ Plain cli := by
  rcases takes.judged with ⟨stale, _⟩ | ⟨observe, judged, follows, became⟩
  · unfold EcClient.judged EcCliObs.judge at stale
    rw [if_neg (by simp [plain.off])] at stale
    cases stale
  · have waiting : ecClientStateIsFinal w.cli.state = false := by
      have permitted := follows.permitted
      apply Bool.eq_false_iff.mpr
      intro final
      rcases observe.asks_cases with watching | done
      · rw [watching] at permitted
        revert permitted final
        cases w.cli.state <;> decide
      · rw [done] at permitted
        revert permitted final
        cases w.cli.state <;> decide
    have none : ecOptsGet w.cli.req.opts .observe = none := unasked.resolve_right (by simp [waiting])
    have off : observe.on = false := by
      unfold EcClient.judged EcCliObs.judge at judged
      rw [if_neg (by simp [plain.off]), none] at judged
      rw [← Option.some.inj judged]
      rfl
    have asks : observe.asks = .reqDone := by
      unfold EcCliObs.asks
      rw [if_neg (by simp [off])]
    exact ⟨waiting, became.state.trans asks, by rw [became.observe]; exact off, became.resSet⟩

theorem clientStep_plain (plain : Plain w.cli)
    (unasked : ecOptsGet w.cli.req.opts .observe = none ∨ ecClientStateIsFinal w.cli.state = true)
    (stepped : clientStep platform w event = .ok w') : Plain w'.cli := by
  rcases clientStep_watches stepped with fades | ⟨input, h, _, takes⟩
  · refine ⟨Bool.eq_false_iff.mpr fun on => ?_, fades.empty plain.empty⟩
    cases plain.off.symm.trans (fades.on on)
  · exact (takes.plain plain unasked).2.2

/-- No transition leads back to the first state. -/
theorem begun_kept (platform : Platform) : KeptBySends platform (· ≠ .none) (fun cli => cli.state ≠ .none) where
  sends := by decide
  fails := by decide
  moves := fun _ _ _ _ later made _ => by rw [ecClientSetState_state made]; exact later
  flow := fun _ _ _ later => later
  req := fun _ _ _ later => later
  log := fun _ _ _ later => later

theorem ecClientDnsCb_begun {env : DnsEnv} (worked : ecClientDnsCb platform env w = .ok w') : w'.cli.state ≠ .none := by
  refine (begun_kept platform).resolved ?_ (fun _ later => later) worked
  intro next moved resolves made
  rw [ecClientSetState_state made]
  rcases resolves with failed | resolved
  · simp [failed]
  · simp [resolved]

/-- A client that has begun does not begin again. -/
theorem clientStep_begun (begun : w.cli.state ≠ .none) (stepped : clientStep platform w event = .ok w') :
    w'.cli.state ≠ .none := by
  have moved : ∀ {v : CliWork} {sent : Bool} {next : EcCliState} {moved : CliWork × Bool},
      ecClientSetState platform sent v next = .ok moved → moved.1.cli.state ≠ .none := by
    intro v sent next moved made
    have permitted := ecClientSetState_permitted made
    rw [ecClientSetState_state made]
    rintro rfl
    cases permitted
  have step := stepped
  cases clientStep_work stepped with
  | idle event => exact begun
  | resolved env next worked => exact ecClientDnsCb_begun worked
  | heard input h handled hears worked =>
      by_cases code : h.code = 0
      · rcases ecClientHandleNew_empty code worked with ⟨next, _, _, made, same⟩ | ⟨_, _, same⟩
        · subst same
          exact moved made
        · subst same
          exact begun
      · rcases clientStep_response hears code step with ⟨_, same⟩ | takes
        · rw [same]
          exact begun
        · rcases takes.judged with ⟨_, left⟩ | ⟨observe, _, _, became⟩
          · rw [left]
            exact begun
          · rw [became.state]
            rcases observe.asks_cases with watching | done
            · simp [watching]
            · simp [done]
  | appTimeout sent next worked =>
      obtain ⟨_, made, same⟩ := map_ok worked
      subst same
      exact moved made
  | coapTimeout sent next worked =>
      apply (begun_kept platform).retransmitted (by decide) (by decide) (by decide) ?_ worked
      exact begun
  | obsTimeout sent next worked =>
      obtain ⟨_, made, same⟩ := map_ok worked
      subst same
      exact moved made
  | cancel => exact begun
  | shared dups => exact begun

/-- Before the resolver has answered, nothing else touches the request. -/
theorem Resolving.step (resolving : Resolving start w.cli) (stepped : clientStep platform w event = .ok w') :
    Resolving start w'.cli ∨ ∃ env, ecClientDnsCb platform env w = .ok w' := by
  have stuck : ∀ {v : CliWork} {sent : Bool} {next : EcCliState} {moved : CliWork × Bool},
      v.cli.state = w.cli.state → ecClientCheckTransition .none next = false →
      ecClientSetState platform sent v next = .ok moved → False := by
    intro v sent next moved same refused made
    have permitted := ecClientSetState_permitted made
    rw [same, resolving.state] at permitted
    cases refused.symm.trans permitted
  cases clientStep_work stepped with
  | idle event => exact Or.inl resolving
  | resolved env next worked => exact Or.inr ⟨env, worked⟩
  | heard input h handled hears worked => cases resolving.unregistered.symm.trans hears.registered
  | appTimeout sent next worked =>
      obtain ⟨_, made, _⟩ := map_ok worked
      exact (stuck (by rfl) (by decide) made).elim
  | coapTimeout sent next worked =>
      have awaits := ecCliCoapTimeout_awaits worked
      cases resolving.state.symm.trans awaits
  | obsTimeout sent next worked =>
      obtain ⟨_, made, _⟩ := map_ok worked
      exact (stuck (by rfl) (by decide) made).elim
  | cancel => exact Or.inl ⟨resolving.state, resolving.unregistered, resolving.req, resolving.flow, resolving.sent⟩
  | shared dups => exact Or.inl resolving

/-- The resolver's answer has the request posted, or ends the client. -/
theorem Resolving.resolves (resolving : Resolving start w.cli) (plain : Plain w.cli) {env : DnsEnv}
    (worked : ecClientDnsCb platform env w = .ok w') :
    Posted platform.order start answered w'.cli ∨ Failed platform.order answered w'.cli := by
  rcases ecClientDnsCb_posts plain.empty worked with ⟨log, final⟩ | ⟨encoded, posts⟩
  · right
    refine ⟨final, ?_⟩
    rw [log, resolving.sent]
    simp
  · left
    obtain ⟨more, log, posted⟩ := posts.sent
    have req : (w.addressed platform env.rng).cli.req =
        (ecPduEncodeRequest platform.order env.rng start.flow start.req).1 := by
      rw [← resolving.req, ← resolving.flow]
      rfl
    rw [resolving.req, resolving.flow] at encoded
    have first : (w.addressed platform env.rng).cli.sent = [] := resolving.sent
    refine ⟨⟨env.rng, encoded, posts.req.trans req⟩, ?_⟩
    rw [log, first, posts.req]
    intro s member
    exact Or.inl ((posted s member).resolve_right fun empty => empty.1).2

/-- A client that has posted its request posts copies of it, and empty messages once there is an answer. -/
theorem Posted.step (posted : Posted platform.order start answered w.cli) (quiet : ClientQuiet w.cli)
    (plain : Plain w.cli) (begun : w.cli.state ≠ .none)
    (response : ∀ input h, event = .datagram input → w.Hears platform input h → h.code ≠ 0 → w.cli.TakesIn h input →
      answered) (stepped : clientStep platform w event = .ok w') : Posted platform.order start answered w'.cli := by
  have posts : w.cli.Posts platform.order (ecClientStateIsFinal w.cli.state = false) answered w'.cli := by
    apply clientStep_posts (quiet.resolved begun) ?_ stepped
    rintro (present | ⟨input, h, datagram, hears, code, taken⟩)
    · exact absurd plain.empty present
    · exact response input h datagram hears code taken
  obtain ⟨more, log, new⟩ := posts.sent
  obtain ⟨rng, encoded, req⟩ := posted.encoded
  refine ⟨⟨rng, encoded, posts.req.trans req⟩, ?_⟩
  rw [log, posts.req]
  exact List.forall_mem_append.mpr ⟨posted.sent, fun s member => (new s member).imp_left fun copy => copy.2⟩

/-- A client that has failed posts nothing. -/
theorem Failed.step (failed : Failed platform.order answered w.cli) (quiet : ClientQuiet w.cli) (plain : Plain w.cli)
    (begun : w.cli.state ≠ .none)
    (response : ∀ input h, event = .datagram input → w.Hears platform input h → h.code ≠ 0 → w.cli.TakesIn h input →
      answered) (stepped : clientStep platform w event = .ok w') : Failed platform.order answered w'.cli := by
  have posts : w.cli.Posts platform.order (ecClientStateIsFinal w.cli.state = false) answered w'.cli := by
    apply clientStep_posts (quiet.resolved begun) ?_ stepped
    rintro (present | ⟨input, h, datagram, hears, code, taken⟩)
    · exact absurd plain.empty present
    · exact response input h datagram hears code taken
  have still : ecClientStateIsFinal w'.cli.state = true := by
    rcases clientStep_settles quiet (Or.inl failed.final) stepped with final | ⟨_, watching⟩
    · exact final
    · have final := failed.final
      rw [watching] at final
      cases final
  obtain ⟨more, log, new⟩ := posts.sent
  refine ⟨still, ?_⟩
  rw [log]
  refine List.forall_mem_append.mpr ⟨failed.sent, fun s member => (new s member).resolve_left fun copy => ?_⟩
  cases failed.final.symm.trans copy.1

theorem Asking.step (asking : Asking platform.order start answered w.cli)
    (unasked : ecOptsGet start.req.opts .observe = none)
    (response : ∀ input h, event = .datagram input → w.Hears platform input h → h.code ≠ 0 → w.cli.TakesIn h input →
      answered) (stepped : clientStep platform w event = .ok w') : Asking platform.order start answered w'.cli := by
  have quiet := clientStep_keepsQuiet asking.quiet stepped
  obtain resolving | ⟨begun, posted | failed⟩ := asking.phase
  · have plain := clientStep_plain asking.plain (Or.inl (by rw [resolving.req]; exact unasked)) stepped
    rcases resolving.step stepped with still | ⟨env, worked⟩
    · exact ⟨quiet, plain, Or.inl still⟩
    · exact ⟨quiet, plain, Or.inr ⟨ecClientDnsCb_begun worked, resolving.resolves asking.plain worked⟩⟩
  · have plain := clientStep_plain asking.plain (Or.inl (posted.unasked unasked)) stepped
    exact ⟨quiet, plain, Or.inr ⟨clientStep_begun begun stepped,
      Or.inl (posted.step asking.quiet asking.plain begun response stepped)⟩⟩
  · have plain := clientStep_plain asking.plain (Or.inr failed.final) stepped
    exact ⟨quiet, plain, Or.inr ⟨clientStep_begun begun stepped,
      Or.inr (failed.step asking.quiet asking.plain begun response stepped)⟩⟩

/-- A response that an asking client takes in finds it waiting, and is its last one. -/
theorem Asking.takes (asking : Asking platform.order start answered w.cli)
    (unasked : ecOptsGet start.req.opts .observe = none) {cli : EcClient} (takes : Takes platform w input h cli) :
    ecClientStateIsFinal w.cli.state = false ∧ cli.state = .reqDone := by
  have absent : ecOptsGet w.cli.req.opts .observe = none ∨ ecClientStateIsFinal w.cli.state = true := by
    obtain resolving | ⟨_, posted | failed⟩ := asking.phase
    · exact Or.inl (by rw [resolving.req]; exact unasked)
    · exact Or.inl (posted.unasked unasked)
    · exact Or.inr failed.final
  obtain ⟨waiting, done, _⟩ := takes.plain asking.plain absent
  exact ⟨waiting, done⟩

end Steps

end Webthings.Network
