import Webthings.Evcoap.Recycling

namespace Webthings.Evcoap
open Webthings.Transition

/-- A used client and a new one are in one phase of their transactions. -/
inductive Paired (past : List Outline) : ClientLife → ClientLife → Prop where
  | resolving {old new : CliWork} (resolves : Resolves past old new) : Paired past ⟨old, 1⟩ ⟨new, 1⟩
  | sending {old new : CliWork} (same : Mirrors.Sending past old new) : Paired past ⟨old, 0⟩ ⟨new, 0⟩
  | still {old new : CliWork} (stilled : Stilled past old new) : Paired past ⟨old, 0⟩ ⟨new, 0⟩

/-- A step enters the same states with the same callbacks, and leaves both clients in one phase. -/
structure Agrees (platform : Platform) (past : List Outline) (old new : ClientLife) (event event' : LifeEvent) : Prop where
  entries : old.entries platform event = new.entries platform event'
  matched : Matched (Paired past) (lifeStep platform old event) (lifeStep platform new event')

/-- A step shows the same of both clients. -/
def Indistinct (platform : Platform) (mid : UInt16) (pair : ClientLife × ClientLife) (event : LifeEvent) : Prop :=
  lifeObserved platform pair.1 event = lifeObserved platform pair.2 (event.redrawn mid)

section Phases

variable {platform : Platform} {past : List Outline}

theorem Paired.log {old new : ClientLife} (paired : Paired past old new) :
    old.work.cli.sent.map Sent.outline = past ++ new.work.cli.sent.map Sent.outline := by
  cases paired with
  | resolving resolves => exact resolves.same.log
  | sending same => exact same.log
  | still stilled => exact stilled.log

/-- Both clients have sent the same since a step. -/
theorem Paired.sentSince {old new next next' : ClientLife}
    (before : old.work.cli.sent.map Sent.outline = past ++ new.work.cli.sent.map Sent.outline)
    (after : Paired past next next') : (next.work.cli.sentSince old.work.cli).map Sent.outline =
      (next'.work.cli.sentSince new.work.cli).map Sent.outline := by
  have length : old.work.cli.sent.length = past.length + new.work.cli.sent.length := by
    simpa using congrArg List.length before
  unfold EcClient.sentSince
  rw [List.map_drop, List.map_drop, after.log, length, ← List.drop_drop, List.drop_left]

/-- What a step shows is the same for both clients when they agree on it. -/
theorem Agrees.observed {old new : ClientLife} {event event' : LifeEvent} (agrees : Agrees platform past old new event event')
    (log : old.work.cli.sent.map Sent.outline = past ++ new.work.cli.sent.map Sent.outline) :
    lifeObserved platform old event = lifeObserved platform new event' := by
  rw [lifeObserved_entries, lifeObserved_entries]
  apply agrees.matched.map_eq
  intro next next' after
  rw [agrees.entries, after.sentSince log]

section Resolver

variable (registers : Bool) {skipped : List AddrInfo} (rest : List AddrInfo) {ai : AddrInfo}

theorem AddrInfo.Skipped.states (skips : ai.Skipped) :
    ecClientConnectStates registers (ai :: rest) = ecClientConnectStates registers rest := by
  rw [ecClientConnectStates]
  by_cases unopened : ai.socket = -1
  · rw [if_pos unopened]
  · rcases skips with closed | ⟨known, failed⟩
    · exact absurd closed unopened
    · obtain ⟨length, found⟩ := Option.isSome_iff_exists.mp known
      rw [if_neg unopened, found, failed]
      rfl

theorem ecClientConnectStates_skips (skips : ∀ ai ∈ skipped, ai.Skipped) :
    ecClientConnectStates registers (skipped ++ rest) = ecClientConnectStates registers rest := by
  induction skipped with
  | nil => rfl
  | cons ai skipped ih =>
      rw [List.cons_append, (skips ai List.mem_cons_self).states registers]
      exact ih fun ai member => skips ai (List.mem_cons_of_mem _ member)

theorem AddrInfo.Taken.states (taken : ai.Taken) :
    ecClientConnectStates registers (ai :: rest) = if registers then [.reqSent] else [.reqSent, .internalErr] := by
  obtain ⟨length, found⟩ := Option.isSome_iff_exists.mp taken.known
  rw [ecClientConnectStates, if_neg taken.valid, found, taken.sent, taken.nonblocking]
  rfl

/-- A new connection that comes to the same enters the same states. -/
theorem EcConn.Reconnects.states {conn : EcConn} {env : DnsEnv} {ais : List AddrInfo} (reconnects : conn.Reconnects env ais) :
    (if conn.delivers env.sent = false then [.internalErr]
      else if env.registers then [.reqSent] else [.reqSent, .internalErr]) = ecClientConnectStates env.registers ais := by
  unfold EcConn.Reconnects at reconnects
  split at reconnects
  · rename_i delivers
    obtain ⟨skipped, ai, rest, rfl, skips, taken, _⟩ := reconnects
    rw [if_neg (by simp [delivers]), ecClientConnectStates_skips env.registers _ skips, taken.states]
  · rename_i undelivered
    have states := ecClientConnectStates_skips env.registers [] reconnects
    rw [List.append_nil] at states
    rw [if_pos (by simpa using undelivered), states]
    rfl

end Resolver

/-- The resolver's callback enters the same states. -/
theorem Resolves.states {old new : CliWork} (resolves : Resolves past old new) {env : DnsEnv} {ais : List AddrInfo}
    (found : env.ais = some ais) (counted : old.cli.req.opts.Counted)
    (reconnects : old.cli.flow.conn.socket > 0 → old.cli.flow.conn.Reconnects env ais) (mid : UInt16) :
    ecClientDnsCbStates platform env old.cli = ecClientDnsCbStates platform {env with rng := mid} new.cli := by
  have opened : (if old.cli.flow.conn.socket > 0 then
      if old.cli.flow.conn.delivers env.sent = false then [EcCliState.internalErr]
      else if env.registers then [.reqSent] else [.reqSent, .internalErr]
    else ecClientConnectStates env.registers ais) = ecClientConnectStates env.registers ais := by
    split
    · rename_i connected
      exact (reconnects connected).states
    · rfl
  unfold ecClientDnsCbStates
  dsimp only
  rw [found]
  dsimp only
  rw [opened, if_neg resolves.unconnected]
  rcases resolves.request.encoded platform.order resolves.method resolves.same.confirmable env.rng mid
      (resolves.count counted) with
    ⟨failed, failed'⟩ | ⟨encoded, encoded', _⟩
  · rw [failed, failed']
  · rw [encoded, encoded']

/-- What the user and the rest of the base change of both clients. -/
theorem Mirrors.idled {old new : CliWork} (same : Mirrors past old new) (event : ClientEvent) (mid : UInt16) :
    Mirrors past (old.idled event) (new.idled (event.redrawn mid)) := by
  cases event with
  | cancel => exact {same with observe := congrArg (fun observe => {observe with cancel := true}) same.observe}
  | shared dups => exact {same with dups := rfl}
  | dns | datagram | appTimeout | coapTimeout | obsTimeout => exact same

section Sending

variable {old new : CliWork}

/-- A timer that runs in both clients, or in neither, calls back in both or in neither. -/
theorem Mirrors.Sending.fires (same : Sending past old new) {event : LifeEvent} {armed armed' : Bool}
    {work work' : Except EcFault CliWork} (states : List EcCliState) (alike : armed = armed')
    (entries : (ClientLife.mk old 0).entries platform event = if armed then states.map old.cli.entry else [])
    (entries' : (ClientLife.mk new 0).entries platform event = if armed' then states.map new.cli.entry else [])
    (step : lifeStep platform ⟨old, 0⟩ event = if armed then work.map fun work => ⟨work, 0⟩ else .ok ⟨old, 0⟩)
    (step' : lifeStep platform ⟨new, 0⟩ event = if armed' then work'.map fun work => ⟨work, 0⟩ else .ok ⟨new, 0⟩)
    (worked : armed' = true → Matched (Sending past) work work') :
    Agrees platform past ⟨old, 0⟩ ⟨new, 0⟩ event event := by
  have entered : old.cli.entry = new.cli.entry := funext same.entry
  subst alike
  constructor
  · rw [entries, entries', entered]
  · rw [step, step']
    cases armed with
    | false => exact Paired.sending same
    | true =>
        apply (worked rfl).map
        exact fun next next' _ _ both => Paired.sending both

/-- The resolver has answered both clients. -/
theorem Mirrors.Sending.answered (same : Sending past old new) (env : DnsEnv) (mid : UInt16) :
    Agrees platform past ⟨old, 0⟩ ⟨new, 0⟩ (.event (.dns env)) (.event (.dns {env with rng := mid})) := by
  constructor
  · rw [ClientLife.entries_answered rfl, ClientLife.entries_answered rfl]
  · rw [lifeStep_dns env same.live.1, lifeStep_dns _ same.live.2]
    exact Paired.sending same

/-- A message that the old client hears is heard by the new one, unless it does not listen yet. -/
theorem Mirrors.hears (same : Mirrors past old new) (input : Incoming) (h : EcHdr)
    (listens : old.Hears platform input h → new.cli.registered = true) :
    old.Hears platform input h ↔ new.Hears platform input h := by
  constructor
  · intro hears
    exact ⟨same.live.2, listens hears, hears.header, same.dups ▸ hears.fresh⟩
  · intro hears
    exact ⟨same.live.1, same.registered hears.registered, hears.header, same.dups ▸ hears.fresh⟩

theorem Mirrors.Sending.heard (same : Sending past old new) (input : Incoming)
    (listens : ∀ h, old.Hears platform input h → new.cli.registered = true) :
    Agrees platform past ⟨old, 0⟩ ⟨new, 0⟩ (.event (.datagram input)) (.event (.datagram input)) := by
  by_cases heard : ∃ h, old.Hears platform input h
  · obtain ⟨h, hears⟩ := heard
    have hears' := (same.hears input h (listens h)).mp hears
    have seen : Sending past (old.seen platform input h) (new.seen platform input h) :=
      {same with dups := congrArg (fun dups => ecDupsInsert platform dups input.peer h.mid input.raw) same.dups}
    constructor
    · rw [ClientLife.entries_hears hears, ClientLife.entries_hears hears']
      exact same.handledEntries h input
    · rw [lifeStep_hears hears, lifeStep_hears hears']
      apply (seen.handled h input).map
      exact fun handled handled' _ _ both => Paired.sending both
  · have unheard : ∀ h, ¬ old.Hears platform input h := fun h hears => heard ⟨h, hears⟩
    have unheard' : ∀ h, ¬ new.Hears platform input h :=
      fun h hears => heard ⟨h, (same.hears input h (listens h)).mpr hears⟩
    constructor
    · rw [ClientLife.entries_unheard unheard, ClientLife.entries_unheard unheard']
    · rw [lifeStep_event (fun env same => by cases same), lifeStep_event (fun env same => by cases same),
        clientStep_unheard unheard, clientStep_unheard unheard']
      exact Paired.sending same

theorem Mirrors.Sending.appTimeout (same : Sending past old new) (sent : Bool) :
    Agrees platform past ⟨old, 0⟩ ⟨new, 0⟩ (.event (.appTimeout sent)) (.event (.appTimeout sent)) := by
  apply same.fires [.appTimeout] same.app.pending
  · rw [ClientLife.entries, if_neg (by simp [same.live])]
    rfl
  · rw [ClientLife.entries, if_neg (by simp [same.live])]
    rfl
  · exact lifeStep_appTimeout sent same.live.1
  · exact lifeStep_appTimeout sent same.live.2
  · intro armed
    have fired : Sending past {old with cli := {old.cli with app := old.cli.app.fired}}
        {new with cli := {new.cli with app := new.cli.app.fired}} := by
      rw [same.app.armed armed]
      exact {same with app := Or.inl rfl, tout := rfl}
    apply fired.mapped fun retry => by cases retry
    exact fun moved moved' both _ => both

theorem Mirrors.Sending.coapTimeout (same : Sending past old new) (sent : Bool) :
    Agrees platform past ⟨old, 0⟩ ⟨new, 0⟩ (.event (.coapTimeout sent)) (.event (.coapTimeout sent)) := by
  have states : old.cli.coap.pending = true → ecCliCoapTimeoutStates sent old.cli = ecCliCoapTimeoutStates sent new.cli := by
    intro armed
    unfold ecCliCoapTimeoutStates
    rw [same.coap.armed (same.coap.pending ▸ armed), same.route.delivers]
  apply same.fires (ecCliCoapTimeoutStates sent new.cli) same.coap.pending
  · rw [ClientLife.entries, if_neg (by simp [same.live])]
    dsimp only
    split
    · rename_i armed
      rw [states armed]
    · rfl
  · rw [ClientLife.entries, if_neg (by simp [same.live])]
  · exact lifeStep_coapTimeout sent same.live.1
  · exact lifeStep_coapTimeout sent same.live.2
  · intro armed
    have coap := same.coap.armed armed
    have fired : Sending past {old with cli := {old.cli with coap := old.cli.coap.fired}}
        {new with cli := {new.cli with coap := new.cli.coap.fired}} := by
      rw [coap]
      exact {same with coap := Or.inl rfl, retrying := fun _ => rfl}
    exact fired.retransmitted sent (by rw [coap])

theorem Mirrors.Sending.obsTimeout (same : Sending past old new) (sent : Bool) :
    Agrees platform past ⟨old, 0⟩ ⟨new, 0⟩ (.event (.obsTimeout sent)) (.event (.obsTimeout sent)) := by
  apply same.fires [.obsTimeout] same.obs.pending
  · rw [ClientLife.entries, if_neg (by simp [same.live])]
    rfl
  · rw [ClientLife.entries, if_neg (by simp [same.live])]
    rfl
  · exact lifeStep_obsTimeout sent same.live.1
  · exact lifeStep_obsTimeout sent same.live.2
  · intro armed
    have fired :
        Sending past {old with cli := {old.cli with obs := old.cli.obs.fired, observe := {old.cli.observe with on := false}}}
          {new with cli := {new.cli with obs := new.cli.obs.fired, observe := {new.cli.observe with on := false}}} := by
      rw [same.obs.armed armed, same.observe]
      exact {same with obs := Or.inl rfl, observe := rfl}
    apply fired.mapped fun retry => by cases retry
    exact fun moved moved' both _ => both

/-- Clients that wait for one response agree on every event, unless the old one hears a message that the new one does not
listen to. -/
theorem Mirrors.Sending.agrees (same : Sending past old new) (event : ClientEvent) (mid : UInt16)
    (listens : ∀ input, event = .datagram input → ∀ h, old.Hears platform input h → new.cli.registered = true) :
    Agrees platform past ⟨old, 0⟩ ⟨new, 0⟩ (.event event) (.event (event.redrawn mid)) := by
  cases event with
  | dns env => exact same.answered env mid
  | datagram input => exact same.heard input (listens input rfl)
  | appTimeout sent => exact same.appTimeout sent
  | coapTimeout sent => exact same.coapTimeout sent
  | obsTimeout sent => exact same.obsTimeout sent
  | cancel =>
      have cancelled : Sending past {old with cli := ecClientCancelObservation old.cli}
          {new with cli := ecClientCancelObservation new.cli} :=
        {same with observe := congrArg (fun observe => {observe with cancel := true}) same.observe}
      constructor
      · simp [ClientLife.entries, ClientEvent.redrawn]
      · simp only [lifeStep, clientStep, ClientEvent.redrawn, same.live]
        exact Paired.sending cancelled
  | shared dups =>
      have shared : Sending past {old with dups := dups} {new with dups := dups} := {same with dups := rfl}
      constructor
      · simp [ClientLife.entries, ClientEvent.redrawn]
      · simp only [lifeStep, clientStep, ClientEvent.redrawn, same.live]
        exact Paired.sending shared

end Sending

section Idle

variable {old new : CliWork}

/-- What the user and the rest of the base change leaves both clients still. -/
theorem Stilled.idled (stilled : Stilled past old new) (event : ClientEvent) (mid : UInt16) :
    Stilled past (old.idled event) (new.idled (event.redrawn mid)) := by
  cases event with
  | cancel | shared | dns | datagram | appTimeout | coapTimeout | obsTimeout => exact {stilled with}

theorem Resolves.idled (resolves : Resolves past old new) (event : ClientEvent) (mid : UInt16) :
    Resolves past (old.idled event) (new.idled (event.redrawn mid)) := by
  have same := resolves.same.idled event mid
  cases event with
  | cancel | shared | dns | datagram | appTimeout | coapTimeout | obsTimeout => exact {resolves with same := same}

/-- Clients that wait for no message and no timer agree on what does not come from the resolver. -/
theorem agrees_idle {waiting : Nat} {event : ClientEvent} {mid : UInt16} (live : old.cli.freed = false ∧ new.cli.freed = false)
    (sound : ClientSound old.cli.core) (sound' : ClientSound new.cli.core) (still : old.cli.state.Still ∧ new.cli.state.Still)
    (unregistered : new.cli.registered = false) (answered : waiting = 0 ∨ ∀ env, event ≠ .dns env)
    (listens : ∀ input, event = .datagram input → ∀ h, old.Hears platform input h → new.cli.registered = true)
    (after : Paired past ⟨old.idled event, waiting⟩ ⟨new.idled (event.redrawn mid), waiting⟩) :
    Agrees platform past ⟨old, waiting⟩ ⟨new, waiting⟩ (.event event) (.event (event.redrawn mid)) := by
  obtain ⟨stepped, entered⟩ := lifeStep_idle platform ⟨old, waiting⟩ live.1 sound still.1 event
    (fun env resolver => answered.resolve_right fun other => other env resolver)
    (fun input datagram h hears => absurd (listens input datagram h hears) (by simp [unregistered]))
  obtain ⟨stepped', entered'⟩ := lifeStep_idle platform ⟨new, waiting⟩ live.2 sound' still.2
    (event.redrawn mid)
    (fun env resolver => answered.resolve_right fun other => by
      cases event with
      | dns env => exact other env rfl
      | datagram | appTimeout | coapTimeout | obsTimeout | cancel | shared => cases resolver)
    (fun input _ h hears => absurd hears.registered (by simp [unregistered]))
  constructor
  · rw [entered, entered']
  · rw [stepped, stepped']
    exact after

theorem Stilled.agrees (stilled : Stilled past old new) (sound : ClientSound old.cli.core) (sound' : ClientSound new.cli.core)
    (event : ClientEvent) (mid : UInt16)
    (listens : ∀ input, event = .datagram input → ∀ h, old.Hears platform input h → new.cli.registered = true) :
    Agrees platform past ⟨old, 0⟩ ⟨new, 0⟩ (.event event) (.event (event.redrawn mid)) :=
  agrees_idle stilled.live sound sound' stilled.still stilled.unregistered (Or.inl rfl) listens
    (Paired.still (stilled.idled event mid))

/-- The resolver's answer leads both clients to one phase. -/
theorem Resolves.answered (resolves : Resolves past old new) {env : DnsEnv} {ais : List AddrInfo} (found : env.ais = some ais)
    (counted : old.cli.req.opts.Counted)
    (reconnects : old.cli.flow.conn.socket > 0 → old.cli.flow.conn.Reconnects env ais) (mid : UInt16) :
    Agrees platform past ⟨old, 1⟩ ⟨new, 1⟩ (.event (.dns env)) (.event (.dns {env with rng := mid})) := by
  have live : old.cli.freed = false ∧ new.cli.freed = false := resolves.same.live
  have entered : old.cli.entry = new.cli.entry := funext resolves.same.entry
  constructor
  · simp [ClientLife.entries, live, entered, resolves.states found counted reconnects mid]
  · rw [lifeStep_dns env live.1, lifeStep_dns _ live.2, if_neg Nat.one_ne_zero, if_neg Nat.one_ne_zero]
    apply (resolves.dnsCb found counted reconnects mid).map
    intro next next' _ _ both
    rcases both with same | stilled
    · exact Paired.sending same
    · exact Paired.still stilled

theorem Resolves.agrees (resolves : Resolves past old new) (sound : ClientSound old.cli.core)
    (sound' : ClientSound new.cli.core) {event : ClientEvent} (mid : UInt16)
    (careful : Careful platform (⟨old, 1⟩, ⟨new, 1⟩) (.event event)) :
    Agrees platform past ⟨old, 1⟩ ⟨new, 1⟩ (.event event) (.event (event.redrawn mid)) := by
  have idle : (∀ env, event ≠ .dns env) →
      (∀ input, event = .datagram input → ∀ h, old.Hears platform input h → new.cli.registered = true) →
      Agrees platform past ⟨old, 1⟩ ⟨new, 1⟩ (.event event) (.event (event.redrawn mid)) := by
    intro other listens
    have live : old.cli.freed = false ∧ new.cli.freed = false := resolves.same.live
    have still : old.cli.state.Still ∧ new.cli.state.Still := by
      refine ⟨final_still resolves.final, ?_⟩
      rw [resolves.first]
      decide
    exact agrees_idle live sound sound' still resolves.unregistered (Or.inr other) listens
      (Paired.resolving (resolves.idled event mid))
  cases event with
  | dns env =>
      obtain ⟨ais, found, counted, reconnects⟩ := careful Nat.one_ne_zero
      exact resolves.answered found counted reconnects mid
  | datagram input =>
      apply idle fun env same => by cases same
      intro other same
      cases same
      exact careful
  | appTimeout | coapTimeout | obsTimeout | cancel | shared =>
      exact idle (fun env same => by cases same) fun input same => by cases same

end Idle

/-- Paired clients agree on every careful event. -/
theorem Paired.agrees {old new : ClientLife} (paired : Paired past old new) (sound : ClientSound old.work.cli.core)
    (sound' : ClientSound new.work.cli.core) {event : ClientEvent} (mid : UInt16)
    (careful : Careful platform (old, new) (.event event)) :
    Agrees platform past old new (.event event) (.event (event.redrawn mid)) := by
  have listens : ∀ input, event = .datagram input →
      ∀ h, old.work.Hears platform input h → new.work.cli.registered = true := by
    intro input same
    subst same
    exact careful
  cases paired with
  | resolving resolves => exact resolves.agrees sound sound' mid careful
  | sending same => exact same.agrees event mid listens
  | still stilled => exact stilled.agrees sound sound' event mid listens

section Sends

/-- An internal error ends the transaction from any state. -/
theorem ecClientSetState_internalErr {w : CliWork} (uncancelled : w.cli.observe.cancel = false) (sent : Bool) :
    ecClientSetState platform sent w .internalErr = .ok
      (⟨ecClientFinish (w.cli.flow.conn.isConfirmable.getD false) (w.cli.enter .internalErr), w.dups⟩, true) := by
  simp [ecClientSetState, ecClientCheckTransition, ecClientEnter, ecClientStateIsFinal, EcClient.enter, uncancelled]

variable {life : ClientLife}

/-- A used client that has been cleared and the new one wait for the resolver. -/
theorem ClientLife.Ended.resolves (ended : life.Ended) (cleared : life.work.cli.Cleared)
    (sound : ClientSound life.work.cli.core) (unpaired : life.work.cli.req.sibling = none)
    (clean : life.work.cli.req.opts.Clean) (tout : TimeVal) :
    Resolves (life.work.cli.sent.map Sent.outline)
      {life.work with cli := {life.work.cli with app := {life.work.cli.app with tout := tout}, dnsReq := true}}
      ⟨{life.work.cli.recreated with app := {life.work.cli.recreated.app with tout := tout}, dnsReq := true},
        life.work.dups⟩ := by
  obtain ⟨app, coap, obs⟩ := sound.unsent (final_still cleared.final)
  have zero : EcTimer.zero.Idle := ⟨rfl, rfl⟩
  have wire : (ecOptsEncode life.work.cli.req.opts).2 = 0 →
      life.work.cli.req.opts.encoded.wire = life.work.cli.recreated.req.opts.encoded.wire := fun encodes =>
    congrArg (fun enc => bytesAt enc 0 (encodedSize 0 life.work.cli.req.opts.bundle.list)) (clean encodes)
  have same : Mirrors (life.work.cli.sent.map Sent.outline)
      {life.work with cli := EcClient.enter {life.work.cli with
        app := {life.work.cli.app with tout := tout}, dnsReq := false} .dnsOk}
      ⟨EcClient.enter {life.work.cli.recreated with
        app := {life.work.cli.recreated.app with tout := tout}, dnsReq := false} .dnsOk, life.work.dups⟩ :=
    { dups := rfl
      owned := ⟨ended.owned, ended.owned⟩
      live := ⟨ended.live, rfl⟩
      state := rfl
      observe := cleared.observe
      resSet := cleared.resSet
      token := rfl
      confirmable := rfl
      bundle := rfl
      registered := fun registered => absurd registered Bool.false_ne_true
      app := EcTimer.Alike.retimed (Or.inr ⟨sound.appExists.idle app, zero⟩) tout
      tout := rfl
      coap := Or.inr ⟨sound.coapExists.idle coap, zero⟩
      retrying := fun retry => by cases retry
      obs := Or.inr ⟨sound.obsExists.idle obs, zero⟩
      log := (List.append_nil _).symm
      reaches := fun present => absurd rfl present }
  exact
    { same := same
      final := cleared.final
      first := rfl
      empty := rfl
      unconnected := Int.lt_irrefl 0
      unregistered := rfl
      method := rfl
      request := ⟨rfl, wire, rfl, unpaired, unpaired⟩
      counted := rfl }

/-- A client of its user that comes to an end without a callback has sent nothing more. -/
theorem ecClientFinish_ends (cli : EcClient) (owned : cli.userown = true) (isCon : Bool) (next : EcCliState) :
    (ecClientFinish isCon (cli.enter next)).freed = cli.freed ∧
      (ecClientFinish isCon (cli.enter next)).state = next ∧
      (ecClientFinish isCon (cli.enter next)).registered = cli.registered ∧
      (ecClientFinish isCon (cli.enter next)).sent = cli.sent := by
  rw [ecClientFinish_owned (by exact owned)]
  cases isCon <;> exact ⟨rfl, rfl, rfl, rfl⟩

/-- Both clients come to an end without having sent anything. -/
theorem ClientLife.Ended.stilled (ended : life.Ended) (isCon : Bool) : Stilled (life.work.cli.sent.map Sent.outline)
    ⟨ecClientFinish isCon (life.work.cli.enter .internalErr), life.work.dups⟩
    ⟨ecClientFinish isCon (life.work.cli.recreated.enter .internalErr), life.work.dups⟩ := by
  obtain ⟨live, state, _, sent⟩ := ecClientFinish_ends life.work.cli ended.owned isCon .internalErr
  obtain ⟨live', state', unregistered, sent'⟩ :=
    ecClientFinish_ends life.work.cli.recreated ended.owned isCon .internalErr
  constructor
  · exact ⟨live.trans ended.live, live'⟩
  · dsimp only
    rw [state, state']
    decide
  · exact unregistered
  · dsimp only
    rw [sent, sent']
    exact (List.append_nil _).symm

/-- Both clients are sent alike. -/
theorem ClientLife.Ended.agrees (platform : Platform) (ended : life.Ended) (cleared : life.work.cli.Cleared)
    (sound : ClientSound life.work.cli.core) (unpaired : life.work.cli.req.sibling = none)
    (clean : life.work.cli.req.opts.Clean) (tout : Option TimeVal) (destination : Bool) :
    Agrees platform (life.work.cli.sent.map Sent.outline) life (.new ⟨life.work.cli.recreated, life.work.dups⟩)
      (.send tout destination) (.send tout destination) := by
  have entered : life.work.cli.entry = life.work.cli.recreated.entry := by
    funext next
    unfold EcClient.entry ecClientGetResponsePdu
    rw [cleared.observe, cleared.resSet]
    rfl
  have uncancelled : life.work.cli.observe.cancel = false := by
    rw [cleared.observe]
    rfl
  constructor
  · simp [ClientLife.entries, ClientLife.new, ended.live, cleared.final, entered, EcClient.recreated]
  · rw [lifeStep_send tout destination ended.live, lifeStep_send tout destination (by rfl), ended.answered]
    unfold ecClientGo
    cases destination with
    | true =>
        rw [if_pos ⟨Or.inr cleared.final, rfl⟩, if_pos ⟨Or.inl rfl, rfl⟩]
        exact Paired.resolving (ended.resolves cleared sound unpaired clean (tout.getD ⟨ecTimersAppTout, 0⟩))
    | false =>
        rw [if_neg (by simp), if_neg (by simp), ecClientSetState_internalErr uncancelled,
          ecClientSetState_internalErr (by rfl)]
        exact Paired.still (ended.stilled _)

end Sends

end Phases

section Runs

variable {platform : Platform}

/-- A request of a client never answers a message. -/
theorem sibling_kept (platform : Platform) : KeptForLife platform fun cli => cli.req.sibling = none where
  sends := trivial
  fails := trivial
  moves := fun _ _ _ _ _ made unpaired => (congrArg EcPdu.sibling (ecClientSetState_line made).2).trans unpaired
  flow := fun _ _ _ unpaired => unpaired
  req := by
    rintro cli req ⟨order, rng, flow, rfl⟩ unpaired
    exact (ecPduEncodeRequest_sibling order rng flow cli.req).trans unpaired
  log := fun _ _ _ unpaired => unpaired
  sets := fun _ _ _ _ _ unpaired => unpaired
  tout := fun _ _ unpaired => unpaired
  appFired := fun _ unpaired => unpaired
  coapFired := fun _ unpaired => unpaired
  obsFired := fun _ unpaired => unpaired

/-- The options of a request are encoded over nothing but their own encoding. -/
theorem clean_kept (platform : Platform) : KeptForLife platform fun cli => cli.req.opts.Clean where
  sends := trivial
  fails := trivial
  moves := fun _ _ _ _ _ made clean => by
    rw [(ecClientSetState_line made).2]
    exact clean
  flow := fun _ _ _ clean => clean
  req := fun _ _ encoded clean => encoded.clean clean
  log := fun _ _ _ clean => clean
  sets := fun _ _ _ _ _ clean => clean
  tout := fun _ _ clean => clean
  appFired := fun _ clean => clean
  coapFired := fun _ clean => clean
  obsFired := fun _ clean => clean

/-- Both clients are in one phase, with their timers in order. -/
structure Paced (past : List Outline) (old new : ClientLife) : Prop where
  paired : Paired past old new
  sound : ClientSound old.work.cli.core
  sound' : ClientSound new.work.cli.core

/-- Agreement on a step keeps both clients in one phase, with their timers in order. -/
theorem Agrees.paced {past : List Outline} {old new : ClientLife} {event event' : LifeEvent}
    (agrees : Agrees platform past old new event event') (sound : ClientSound old.work.cli.core)
    (sound' : ClientSound new.work.cli.core) :
    Matched (Paced past) (lifeStep platform old event) (lifeStep platform new event') := by
  obtain ⟨fault, failed, failed'⟩ | ⟨next, next', stepped, stepped', after⟩ := agrees.matched.cases
  · rw [failed, failed']
    rfl
  · rw [stepped, stepped']
    exact ⟨after, (sound_kept platform).lifeStep sound stepped, (sound_kept platform).lifeStep sound' stepped'⟩

/-- Careful events show the same of clients in one phase. -/
theorem Paced.shows {past : List Outline} {old new : ClientLife} (paced : Paced past old new) {mid : UInt16}
    {events : List ClientEvent}
    (careful : ((lifeMachine platform).twin (LifeEvent.redrawn mid)).Meets (Careful platform) (old, new)
      (events.map .event)) :
    ((lifeMachine platform).twin (LifeEvent.redrawn mid)).Meets (Indistinct platform mid) (old, new)
      (events.map .event) := by
  have each : ((lifeMachine platform).twin (LifeEvent.redrawn mid)).Meets (fun _ event => ∃ other, event = .event other)
      (old, new) (events.map .event) := by
    apply Machine.meets_each
    intro event member
    obtain ⟨other, _, same⟩ := List.mem_map.mp member
    exact ⟨other, same.symm⟩
  have agreed : ∀ old new event, Paced past old new → (Careful platform (old, new) event ∧ ∃ other, event = .event other) →
      Agrees platform past old new event (event.redrawn mid) := by
    rintro old new event held ⟨allowed, other, rfl⟩
    exact held.paired.agrees held.sound held.sound' mid allowed
  apply (lifeMachine platform).twin_shows (lifeObserved platform) _ (Paced past) _ _ paced
    ((Machine.meets_and_iff _).mpr ⟨careful, each⟩)
  · exact fun old new event held allowed => (agreed old new event held allowed).observed held.paired.log
  · exact fun old new event held allowed => (agreed old new event held allowed).paced held.sound held.sound'

/-- A client that is sent again after its transaction has ended shows what a new client with its request would show, for
as long as nothing careless happens. -/
theorem recycled_alike (platform : Platform) {cli : EcClient} {dups : EcDups} (fresh : cli.Fresh)
    (unpaired : cli.req.sibling = none) (unencoded : cli.req.opts.Unencoded) {history : List LifeEvent} {life : ClientLife}
    (lived : (lifeMachine platform).run (.new ⟨cli, dups⟩) history = .ok life) (ended : life.Ended)
    (tout : Option TimeVal) (destination : Bool) (mid : UInt16) (events : List ClientEvent)
    (careful : ((lifeMachine platform).twin (LifeEvent.redrawn mid)).Meets (Careful platform)
      (life, .new ⟨life.work.cli.recreated, life.work.dups⟩) (.send tout destination :: events.map .event)) :
    ((lifeMachine platform).twin (LifeEvent.redrawn mid)).Meets (Indistinct platform mid)
      (life, .new ⟨life.work.cli.recreated, life.work.dups⟩) (.send tout destination :: events.map .event) := by
  have sound := lifeRun_sound fresh lived
  have sound' : ClientSound life.work.cli.recreated.core := ClientSound.of_idle ⟨rfl, rfl⟩ ⟨rfl, rfl⟩ ⟨rfl, rfl⟩
  have alone := (sibling_kept platform).lifeRun unpaired lived
  have clean := (clean_kept platform).lifeRun unencoded.clean lived
  have agrees := ended.agrees platform careful.1 sound alone clean tout destination
  constructor
  · exact agrees.observed (List.append_nil _).symm
  · rintro ⟨next, next'⟩ stepped
    have paced : Paced _ next next' := (lifeMachine platform).twin_related (agrees.paced sound sound') stepped
    exact paced.shows (careful.2 _ stepped)

end Runs

/-- A confirmable request that its user keeps, and what answers it. -/
def keptGet : EcClient := {confirmableGet with userown := true}

def answeredOnce : List LifeEvent := [.send none true, .event (.dns resolvedOnce), .event (.datagram tokenlessContent)]

/-- The answered client is sent to the address of its socket again, and acknowledged. -/
theorem sameAddress_careful : ∃ life,
    (lifeMachine loopbackPlatform).run (.new ⟨keptGet, EcDups.empty⟩) answeredOnce = .ok life ∧ life.Ended ∧
      ((lifeMachine loopbackPlatform).twin (LifeEvent.redrawn 7)).Meets (Careful loopbackPlatform)
        (life, .new ⟨life.work.cli.recreated, life.work.dups⟩)
        (.send none true :: [ClientEvent.dns resolvedOnce, .datagram (emptyAck 2)].map .event) := by
  refine ⟨_, rfl, ⟨rfl, rfl, rfl, Or.inl rfl⟩, ?_⟩
  apply Machine.meets_cons_ok ⟨rfl, rfl, rfl⟩ rfl
  apply Machine.meets_cons_ok ?_ rfl
  · apply Machine.meets_cons_ok (fun _ _ => rfl) rfl
    trivial
  · intro _
    refine ⟨_, rfl, rfl, fun _ => ?_⟩
    exact (if_pos rfl).mpr ⟨[], _, [], rfl, fun _ absent => (nomatch absent), ⟨by decide, rfl, rfl, rfl⟩, rfl⟩

theorem sameAddress_alike : ∃ life,
    (lifeMachine loopbackPlatform).run (.new ⟨keptGet, EcDups.empty⟩) answeredOnce = .ok life ∧ life.Ended ∧
      ((lifeMachine loopbackPlatform).twin (LifeEvent.redrawn 7)).Meets (Indistinct loopbackPlatform 7)
        (life, .new ⟨life.work.cli.recreated, life.work.dups⟩)
        (.send none true :: [ClientEvent.dns resolvedOnce, .datagram (emptyAck 2)].map .event) := by
  obtain ⟨life, lived, ended, careful⟩ := sameAddress_careful
  exact ⟨life, lived, ended,
    recycled_alike loopbackPlatform ⟨rfl, rfl, rfl, rfl, rfl, rfl, rfl⟩ rfl ⟨rfl, rfl, rfl, by decide⟩ lived ended none true 7
      _ careful⟩

section Lookups

variable (platform : Platform)

/-- A client that can be sent asks the resolver. -/
theorem lifeStep_asks {work : CliWork} (permitted : work.cli.state = .none ∨ ecClientStateIsFinal work.cli.state = true)
    (live : work.cli.freed = false) (tout : Option TimeVal) : ∃ asked : CliWork,
    lifeStep platform ⟨work, 0⟩ (.send tout true) = .ok ⟨asked, 1⟩ ∧ asked.cli.freed = false ∧
      asked.cli.state = work.cli.state := by
  rw [lifeStep_send tout true (by exact live)]
  unfold ecClientGo
  rw [if_pos ⟨permitted, rfl⟩]
  exact ⟨_, rfl, live, rfl⟩

/-- A used client rejects the failure of its lookup. -/
theorem lifeStep_usedLookup {life : ClientLife} (live : life.work.cli.freed = false) (outstanding : life.resolving ≠ 0)
    (final : ecClientStateIsFinal life.work.cli.state = true) (env : DnsEnv) (unresolved : env.ais = none) :
    lifeStep platform life (.event (.dns env)) = .error (.clientRejected life.work.cli.state .dnsFailed) := by
  have refused : ecClientCheckTransition life.work.cli.state .dnsFailed = false := by
    cases state : life.work.cli.state with
    | none => simp [state, ecClientStateIsFinal] at final
    | _ => rfl
  rw [lifeStep_dns env live, if_neg outstanding]
  unfold ecClientDnsCb
  rw [unresolved]
  dsimp only
  rw [ecClientSetState_rejected platform false _ .dnsFailed (by exact refused)]
  rfl

/-- A new client fails with its lookup. -/
theorem lifeStep_firstLookup {life : ClientLife} (live : life.work.cli.freed = false) (outstanding : life.resolving ≠ 0)
    (first : life.work.cli.state = .none) (env : DnsEnv) (unresolved : env.ais = none) :
    ∃ next, lifeStep platform life (.event (.dns env)) = .ok next := by
  have made : ∃ moved, ecClientSetState platform false {life.work with cli := {life.work.cli with dnsReq := false}}
      .dnsFailed = .ok moved := by
    simp [ecClientSetState, ecClientCheckTransition, ecClientEnter, ecClientStateIsFinal, first]
  obtain ⟨moved, made⟩ := made
  rw [lifeStep_dns env live, if_neg outstanding]
  unfold ecClientDnsCb
  rw [unresolved]
  dsimp only
  rw [made]
  exact ⟨_, rfl⟩

section Indistinct

variable {platform : Platform} {mid : UInt16} {pair : ClientLife × ClientLife} {event : LifeEvent}

/-- Clients of which only one goes on are told apart. -/
theorem Indistinct.fails {fault : EcFault} (alike : Indistinct platform mid pair event)
    (failed : lifeStep platform pair.1 event = .error fault) :
    lifeStep platform pair.2 (event.redrawn mid) = .error fault := by
  unfold Indistinct lifeObserved at alike
  rw [failed] at alike
  cases stepped : lifeStep platform pair.2 (event.redrawn mid) with
  | error fault' =>
      rw [stepped] at alike
      cases alike
      rfl
  | ok next =>
      rw [stepped] at alike
      cases alike

/-- Clients that both go on enter the same states. -/
theorem Indistinct.enters {next : ClientLife} (alike : Indistinct platform mid pair event)
    (stepped : lifeStep platform pair.2 (event.redrawn mid) = .ok next) :
    pair.1.entries platform event = pair.2.entries platform (event.redrawn mid) := by
  unfold Indistinct at alike
  rw [lifeObserved_entries, lifeObserved_entries, stepped] at alike
  obtain ⟨_, _, same⟩ := map_ok alike
  exact congrArg Observed.entries same

end Indistinct

/-- Every client whose transaction has ended shows that it has been used, when it is sent again and its lookup fails. -/
theorem ClientLife.Ended.diverges {life : ClientLife} (ended : life.Ended) (env : DnsEnv) (unresolved : env.ais = none)
    (mid : UInt16) : ¬ ((lifeMachine platform).twin (LifeEvent.redrawn mid)).Meets (Indistinct platform mid)
      (life, .new ⟨life.work.cli.recreated, life.work.dups⟩) [.send none true, .event (.dns env)] := by
  intro alike
  obtain ⟨work, resolving⟩ := life
  have answered : resolving = 0 := ended.answered
  subst answered
  have created : (CliWork.mk work.cli.recreated work.dups).cli.state = .none := rfl
  obtain ⟨asked', sent', live', first⟩ := lifeStep_asks platform (Or.inl created) rfl none
  rcases ended.done with final | ⟨watching, _, _⟩
  · obtain ⟨asked, sent, live, used⟩ := lifeStep_asks platform (Or.inr final) ended.live none
    have looked := (alike.2 _ ((lifeMachine platform).twin_step sent sent')).1
    have still : ecClientStateIsFinal asked.cli.state = true := by
      rw [used]
      exact final
    have rejected := looked.fails (lifeStep_usedLookup platform live Nat.one_ne_zero still env unresolved)
    have fails : ∃ last, lifeStep platform ⟨asked', 1⟩ (.event (.dns {env with rng := mid})) = .ok last :=
      lifeStep_firstLookup platform live' Nat.one_ne_zero first _ unresolved
    obtain ⟨last, failed⟩ := fails
    cases failed.symm.trans rejected
  · have entered : (ClientLife.mk work 0).entries platform (.send none true) =
        (ClientLife.mk ⟨work.cli.recreated, work.dups⟩ 0).entries platform (.send none true) := alike.1.enters sent'
    have watches : work.cli.state = .waitNfy := watching
    have live : work.cli.freed = false := ended.live
    simp [ClientLife.entries, live, watches, ecClientStateIsFinal, EcClient.recreated] at entered

end Lookups

/-- A client that has got its response is told apart from a new one by a lookup that fails. -/
theorem failedLookup_differs : ¬ ∀ platform cli dups history life, cli.Fresh → cli.req.sibling = none →
    cli.req.opts.Unencoded → (lifeMachine platform).run (.new ⟨cli, dups⟩) history = .ok life → life.Ended →
    ∀ tout destination mid (events : List ClientEvent),
      ((lifeMachine platform).twin (LifeEvent.redrawn mid)).Meets (Indistinct platform mid)
        (life, .new ⟨life.work.cli.recreated, life.work.dups⟩) (.send tout destination :: events.map .event) := by
  intro always
  obtain ⟨life, lived, ended, _⟩ := sameAddress_careful
  have alike := always loopbackPlatform keptGet EcDups.empty answeredOnce life ⟨rfl, rfl, rfl, rfl, rfl, rfl, rfl⟩ rfl
    ⟨rfl, rfl, rfl, by decide⟩ lived ended none true 7 [.dns ⟨none, 1, true, true⟩]
  exact ended.diverges loopbackPlatform _ rfl 7 alike

end Webthings.Evcoap
