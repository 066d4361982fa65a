import Webthings.Evcoap.ClientRejects

namespace Webthings.Evcoap
open Webthings.Transition

/-- The serial-number order on 16 bits. -/
def serialNewer (prev next : UInt16) : Prop := 0 < (next - prev).toNat ∧ (next - prev).toNat ≤ 2 ^ 15

/-- The comparison of the source, which goes backwards, tells exactly the counters that are not newer. -/
theorem serialNewer_iff (prev next : UInt16) : serialNewer prev next ↔ ¬ prev - next < 0x8000 := by
  have prevBound := prev.toNat_lt
  have nextBound := next.toNat_lt
  have half : (0x8000 : UInt16).toNat = 32768 := rfl
  unfold serialNewer
  rw [UInt16.lt_iff_toNat_lt, UInt16.toNat_sub, UInt16.toNat_sub, half]
  omega

/-- A response that the user callback gets: its Observe value, its time, whether it establishes the observation and
whether it ends it. -/
structure Delivery where
  count : Option UInt16
  time : Nat
  establishes : Bool
  ends : Bool

/-- The delivery has a newer Observe value than another, or 2^14 seconds have gone by. -/
def Delivery.NewerThan (next prev : Delivery) : Prop :=
  (∃ count count', prev.count = some count ∧ next.count = some count' ∧ serialNewer count count') ∨
    prev.time + 2 ^ 14 ≤ next.time

/-- The codes and the missing option that end an observation. -/
def endsObservation (rc : EcRc) (counter : Option UInt16) : Bool :=
  rc = ecInternalServerError ∨ rc = ecDeleted ∨ counter = none

/-- What a datagram delivers to the user callback, provided that its handling does not end the process. -/
def ecClientDelivery (platform : Platform) (w : CliWork) (input : Incoming) : Option Delivery :=
  if w.cli.freed = true ∨ w.cli.registered = false ∨ w.cli.observe.cancel = true then none
  else
    match ecClientHeader platform.order input.raw with
    | none => none
    | some h =>
        if (ecDupsSearch platform w.dups h.mid input.peer).isSome ∨ h.code = 0 then none
        else
          match (ecClientTakeResponse platform w.cli h input).2 with
          | none => none
          | some _ =>
              let counter := ecOptsGetObserve platform.order (w.cli.shown h input).opts
              some ⟨counter, input.now, w.cli.state != .waitNfy, endsObservation h.code.toNat counter⟩

/-- A client with the last response that was delivered. -/
structure Watched where
  work : CliWork
  last : Option Delivery

/-- The client's step, with the deliveries remembered. -/
def watchedStep (platform : Platform) (s : Watched) (event : ClientEvent) : Except EcFault Watched :=
  (clientStep platform s.work event).map fun w =>
    match event with
    | .datagram input => ⟨w, (ecClientDelivery platform s.work input).or s.last⟩
    | _ => ⟨w, s.last⟩

def watchedMachine (platform : Platform) : Machine Watched ClientEvent EcFault := ⟨watchedStep platform⟩

/-- What is delivered during an observation is newer than what was delivered before. -/
def Fresher (platform : Platform) (s : Watched) (event : ClientEvent) : Prop :=
  match event with
  | .datagram input => ∀ w delivery prev, clientStep platform s.work (.datagram input) = .ok w →
      ecClientDelivery platform s.work input = some delivery → s.work.cli.state = .waitNfy → s.last = some prev →
      delivery.NewerThan prev
  | _ => True

/-- What ends an observation, and the first notification after the response that has established it, is newer than what
was delivered before. -/
def Renewed (platform : Platform) (s : Watched) (event : ClientEvent) : Prop :=
  match event with
  | .datagram input => ∀ w delivery prev, clientStep platform s.work (.datagram input) = .ok w →
      ecClientDelivery platform s.work input = some delivery → s.work.cli.state = .waitNfy → s.last = some prev →
      delivery.ends = true ∨ prev.establishes = true → delivery.NewerThan prev
  | _ => True

/-- An observing client knows the last delivery, but for the one that has established the observation. -/
def Watched.Recalls (s : Watched) : Prop :=
  s.work.cli.state = .waitNfy → s.work.cli.observe.cancel = false →
    s.work.cli.observe.on = true ∧ ∀ prev, s.last = some prev → prev.establishes = false →
      prev.count = some s.work.cli.observe.lastCnt ∧ prev.time = s.work.cli.observe.lastTs

section Deliveries

variable {platform : Platform} {w : CliWork} {input : Incoming} {delivery : Delivery}

/-- A delivery comes from a response that is heard, taken in and not out of date. -/
theorem ecClientDelivery_some (delivers : ecClientDelivery platform w input = some delivery) :
    w.cli.observe.cancel = false ∧ ∃ h judgement, w.Hears platform input h ∧ h.code ≠ 0 ∧ w.cli.TakesIn h input ∧
      w.cli.judged platform.order h input = some judgement ∧
      delivery = ⟨ecOptsGetObserve platform.order (w.cli.shown h input).opts, input.now, w.cli.state != .waitNfy,
        endsObservation h.code.toNat (ecOptsGetObserve platform.order (w.cli.shown h input).opts)⟩ := by
  unfold ecClientDelivery at delivers
  split at delivers
  · cases delivers
  · rename_i hearing
    obtain ⟨live, registered, wanted⟩ : w.cli.freed = false ∧ w.cli.registered = true ∧ w.cli.observe.cancel = false := by
      simpa [not_or] using hearing
    split at delivers
    · cases delivers
    · rename_i h header
      split at delivers
      · cases delivers
      · rename_i new
        obtain ⟨fresh, code⟩ := not_or.mp new
        have absent : ecDupsSearch platform w.dups h.mid input.peer = none := by simpa using fresh
        split at delivers
        · cases delivers
        · rename_i next asked
          have taken : w.cli.TakesIn h input := by
            apply Classical.byContradiction
            intro refused
            rw [ecClientTakeResponse_refused platform refused] at asked
            cases asked
          rw [ecClientTakeResponse_taken platform taken] at asked
          cases judged : w.cli.judged platform.order h input with
          | none =>
              rw [judged] at asked
              cases asked
          | some judgement =>
              cases delivers
              exact ⟨wanted, h, judgement, ⟨live, registered, header, absent⟩, code, taken, judged, rfl⟩

/-- A response that moves a client which was not cancelled is delivered. -/
theorem ecClientDelivery_moves {h : EcHdr} {judgement : EcCliObs} (hears : w.Hears platform input h)
    (code : h.code ≠ 0) (taken : w.cli.TakesIn h input) (judged : w.cli.judged platform.order h input = some judgement)
    (wanted : w.cli.observe.cancel = false) : ∃ delivery, ecClientDelivery platform w input = some delivery := by
  unfold ecClientDelivery
  rw [if_neg (by simp [hears.live, hears.registered, wanted]), hears.header]
  dsimp only
  rw [if_neg (by simp [hears.fresh, code]), ecClientTakeResponse_taken platform taken, judged]
  exact ⟨_, rfl⟩

end Deliveries

/-- A judgement during an observation either ends it or has found a newer counter, or a later time. -/
theorem EcCliObs.judge_cases {observe judgement : EcCliObs} {asked : Bool} {rc : EcRc} {counter : Option UInt16}
    {now : Nat} (on : observe.on = true) (judged : observe.judge asked rc counter now = some judgement) :
    endsObservation rc counter = true ∧ judgement.on = false ∨
      endsObservation rc counter = false ∧ ∃ oCnt, counter = some oCnt ∧
        judgement = {observe with lastCnt := oCnt, lastTs := now} ∧
        (serialNewer observe.lastCnt oCnt ∨ observe.lastTs + 2 ^ 14 ≤ now) := by
  unfold judge at judged
  rw [if_pos on] at judged
  split at judged
  · rename_i failed
    cases judged
    exact Or.inl ⟨decide_eq_true (Or.inl failed), rfl⟩
  · rename_i working
    split at judged
    · cases judged
      exact Or.inl ⟨decide_eq_true (Or.inr (Or.inr rfl)), rfl⟩
    · rename_i oCnt
      split at judged
      · rename_i deleted
        cases judged
        exact Or.inl ⟨decide_eq_true (Or.inr (Or.inl deleted)), rfl⟩
      · rename_i present
        split at judged
        · cases judged
        · rename_i current
          cases judged
          refine Or.inr ⟨decide_eq_false ?_, oCnt, rfl, rfl, ?_⟩
          · rintro (failed | deleted | absent)
            · exact working failed
            · exact present deleted
            · cases absent
          · rw [serialNewer_iff]
            by_cases behind : observe.lastCnt - oCnt < 0x8000
            · have late : ¬ now < observe.lastTs + 0x4000 := fun early => current ⟨behind, early⟩
              right
              omega
            · exact Or.inl behind

/-- The transitions of a send do not lead into an observation. -/
theorem unwatched_kept (platform : Platform) :
    KeptBySends platform (· ≠ .waitNfy) fun cli => cli.state ≠ .waitNfy where
  sends := by decide
  fails := by decide
  moves := by
    intro sent w next moved other made _
    rw [ecClientSetState_state made]
    exact other
  flow := fun _ _ _ unwatched => unwatched
  req := fun _ _ _ unwatched => unwatched
  log := fun _ _ _ unwatched => unwatched

/-- The resolver's callback never leads into an observation. -/
theorem ecClientDnsCb_unwatched {platform : Platform} {env : DnsEnv} {w w' : CliWork}
    (done : ecClientDnsCb platform env w = .ok w') : w'.cli.state ≠ .waitNfy := by
  apply (unwatched_kept platform).resolved ?_ (fun _ unwatched => unwatched) done
  intro next moved either made
  rw [ecClientSetState_state made]
  rcases either with failed | resolved
  · simp [failed]
  · simp [resolved]

theorem ecCliCoapTimeout_unwatched {platform : Platform} {sent : Bool} {w w' : CliWork}
    (done : ecCliCoapTimeout platform sent w = .ok w') : w'.cli.state ≠ .waitNfy := by
  unfold ecCliCoapTimeout at done
  split at done
  · obtain ⟨moved, made, same⟩ := map_ok done
    subst same
    rw [ecClientSetState_state made]
    decide
  · split at done
    · cases done
    · obtain ⟨moved, again, same⟩ := map_ok done
      subst same
      rw [ecClientSetState_state again]
      split <;> decide

/-- An event without a datagram leaves an observation as it is, or cancels or leaves it. -/
theorem clientStep_unwatched {platform : Platform} {w w' : CliWork} {event : ClientEvent}
    (other : ∀ input, event ≠ .datagram input) (stepped : clientStep platform w event = .ok w') :
    w'.cli.state ≠ .waitNfy ∨ w'.cli.observe.cancel = true ∨
      w'.cli.state = w.cli.state ∧ w'.cli.observe = w.cli.observe := by
  cases clientStep_work stepped with
  | idle event => exact Or.inr (Or.inr ⟨rfl, rfl⟩)
  | heard input h handled hears worked => exact absurd rfl (other input)
  | resolved env next worked => exact Or.inl (ecClientDnsCb_unwatched worked)
  | appTimeout sent next worked =>
      obtain ⟨moved, made, same⟩ := map_ok worked
      subst same
      left
      rw [ecClientSetState_state made]
      decide
  | coapTimeout sent next worked => exact Or.inl (ecCliCoapTimeout_unwatched worked)
  | obsTimeout sent next worked =>
      obtain ⟨moved, made, same⟩ := map_ok worked
      subst same
      left
      rw [ecClientSetState_state made]
      decide
  | cancel => exact Or.inr (Or.inl rfl)
  | shared dups => exact Or.inr (Or.inr ⟨rfl, rfl⟩)

/-- A judgement leaves the wish to cancel alone. -/
theorem EcCliObs.judge_cancel {observe judgement : EcCliObs} {asked : Bool} {rc : EcRc} {counter : Option UInt16}
    {now : Nat} (judged : observe.judge asked rc counter now = some judgement) : judgement.cancel = observe.cancel := by
  unfold judge at judged
  split at judged
  · split at judged
    · cases judged
      rfl
    · split at judged
      · cases judged
        rfl
      · split at judged
        · cases judged
          rfl
        · split at judged
          · cases judged
          · cases judged
            rfl
  · cases judged
    rfl

/-- An empty message leads to no observation. -/
theorem clientStep_empty {platform : Platform} {w w' : CliWork} {input : Incoming} {h : EcHdr}
    (hears : w.Hears platform input h) (code : h.code = 0)
    (stepped : clientStep platform w (.datagram input) = .ok w') : w'.cli = w.cli ∨ w'.cli.state ≠ .waitNfy := by
  rw [clientStep_hears hears] at stepped
  obtain ⟨handled, handling, same⟩ := map_ok stepped
  subst same
  rcases ecClientHandleNew_empty code handling with ⟨next, moved, asked, setState, moves⟩ | ⟨_, _, other⟩
  · subst moves
    right
    rw [ecClientSetState_state setState]
    rcases asked with ⟨_, ack⟩ | ⟨_, rst⟩
    · rw [ack]
      decide
    · rw [rst]
      decide
  · subst other
    exact Or.inl rfl

section Watching

variable {platform : Platform}

/-- What one datagram makes of a client: nothing of importance to an observation, or an answered response. -/
theorem clientStep_datagram {w w' : CliWork} {input : Incoming}
    (stepped : clientStep platform w (.datagram input) = .ok w') :
    ecClientDelivery platform w input = none ∧ (w'.cli.state ≠ .waitNfy ∨ w'.cli.observe.cancel = true ∨
      w'.cli.state = w.cli.state ∧ w'.cli.observe = w.cli.observe) ∨
    ∃ h judgement delivery, w.cli.judged platform.order h input = some judgement ∧
      ecClientDelivery platform w input = some delivery ∧
      delivery = ⟨ecOptsGetObserve platform.order (w.cli.shown h input).opts, input.now, w.cli.state != .waitNfy,
        endsObservation h.code.toNat (ecOptsGetObserve platform.order (w.cli.shown h input).opts)⟩ ∧
      w'.cli.state = judgement.asks ∧ w'.cli.observe = judgement := by
  cases delivers : ecClientDelivery platform w input with
  | none =>
      left
      refine ⟨rfl, ?_⟩
      by_cases heard : ∃ h, w.Hears platform input h
      · obtain ⟨h, hears⟩ := heard
        by_cases code : h.code = 0
        · rcases clientStep_empty hears code stepped with same | elsewhere
          · exact Or.inr (Or.inr ⟨by rw [same], by rw [same]⟩)
          · exact Or.inl elsewhere
        · rw [clientStep_hears hears] at stepped
          obtain ⟨handled, handling, same⟩ := map_ok stepped
          subst same
          rcases ecClientHandleNew_response code handling with ⟨_, refused⟩ | ⟨_, _, stale⟩ |
            ⟨judgement, taken, judged, _, _, became⟩
          · subst refused
            exact Or.inr (Or.inr ⟨rfl, rfl⟩)
          · subst stale
            exact Or.inr (Or.inr ⟨rfl, rfl⟩)
          · by_cases wanted : w.cli.observe.cancel = false
            · obtain ⟨delivery, delivered⟩ := ecClientDelivery_moves hears code taken judged wanted
              cases delivers.symm.trans delivered
            · right
              left
              rw [became.observe, EcCliObs.judge_cancel judged]
              change w.cli.observe.cancel = true
              simpa using wanted
      · rw [clientStep_unheard fun h hears => heard ⟨h, hears⟩] at stepped
        cases stepped
        exact Or.inr (Or.inr ⟨rfl, rfl⟩)
  | some delivery =>
      right
      obtain ⟨_, h, judgement, hears, code, taken, judged, same⟩ := ecClientDelivery_some delivers
      refine ⟨h, judgement, delivery, judged, rfl, same, ?_⟩
      rw [clientStep_hears hears] at stepped
      obtain ⟨handled, handling, kept⟩ := map_ok stepped
      subst kept
      rcases ecClientHandleNew_response code handling with ⟨refused, _⟩ | ⟨_, stale, _⟩ |
        ⟨other, _, judged', _, _, became⟩
      · exact absurd taken refused
      · cases judged.symm.trans stale
      · cases judged.symm.trans judged'
        exact ⟨became.state, became.observe⟩

/-- An observation that an event leaves as it is, cancels or leaves is still recalled. -/
theorem Watched.Recalls.kept {s : Watched} {w : CliWork} (recalls : s.Recalls)
    (kept : w.cli.state ≠ .waitNfy ∨ w.cli.observe.cancel = true ∨
      w.cli.state = s.work.cli.state ∧ w.cli.observe = s.work.cli.observe) : Watched.Recalls ⟨w, s.last⟩ := by
  intro state wanted
  dsimp only at state wanted ⊢
  rcases kept with elsewhere | cancelled | ⟨sameState, sameObserve⟩
  · exact absurd state elsewhere
  · exact absurd (wanted.symm.trans cancelled) (by decide)
  · rw [sameState] at state
    rw [sameObserve] at wanted ⊢
    exact recalls state wanted

/-- Every event keeps what an observing client recalls. -/
theorem watchedStep_recalls {s next : Watched} {event : ClientEvent} (recalls : s.Recalls)
    (stepped : watchedStep platform s event = .ok next) : next.Recalls := by
  obtain ⟨w, clientStepped, same⟩ := map_ok stepped
  subst same
  cases event with
  | datagram input =>
      rcases clientStep_datagram clientStepped with ⟨silent, kept⟩ | ⟨h, judgement, delivery, judged, delivers, same,
        state, observe⟩
      · dsimp only
        rw [silent]
        exact recalls.kept kept
      · dsimp only
        rw [delivers]
        intro waiting wanted
        have on : judgement.on = true := judgement.asks_waitNfy.mp (state.symm.trans waiting)
        dsimp only at wanted ⊢
        rw [observe] at wanted ⊢
        refine ⟨on, fun prev last later => ?_⟩
        cases last
        rw [same] at later ⊢
        have watching : s.work.cli.state = .waitNfy := by simpa using later
        have before : s.work.cli.observe.cancel = false := (EcCliObs.judge_cancel judged).symm.trans wanted
        rcases EcCliObs.judge_cases (recalls watching before).1 judged with ⟨_, off⟩ | ⟨_, oCnt, counter, became, _⟩
        · exact absurd (on.symm.trans off) (by decide)
        · rw [became]
          exact ⟨counter, rfl⟩
  | dns env => exact recalls.kept (clientStep_unwatched (fun _ same => by cases same) clientStepped)
  | appTimeout sent => exact recalls.kept (clientStep_unwatched (fun _ same => by cases same) clientStepped)
  | coapTimeout sent => exact recalls.kept (clientStep_unwatched (fun _ same => by cases same) clientStepped)
  | obsTimeout sent => exact recalls.kept (clientStep_unwatched (fun _ same => by cases same) clientStepped)
  | cancel => exact recalls.kept (clientStep_unwatched (fun _ same => by cases same) clientStepped)
  | shared dups => exact recalls.kept (clientStep_unwatched (fun _ same => by cases same) clientStepped)

end Watching

/-- The deliveries of an observation are ever newer exactly when its first notification and its end are. -/
theorem watchedRun_fresher_iff (platform : Platform) (w : CliWork) (events : List ClientEvent)
    (start : w.cli.state ≠ .waitNfy) : (watchedMachine platform).Meets (Fresher platform) ⟨w, none⟩ events ↔
      (watchedMachine platform).Meets (Renewed platform) ⟨w, none⟩ events := by
  have initial : Watched.Recalls ⟨w, none⟩ := fun waiting => absurd waiting start
  apply (watchedMachine platform).meets_iff Watched.Recalls _ _
    (fun _ _ _ recalls stepped => watchedStep_recalls recalls stepped) ?_ events initial
  intro s event recalls
  cases event with
  | datagram input =>
      constructor
      · intro fresher w delivery prev stepped delivers watching last _
        exact fresher w delivery prev stepped delivers watching last
      · intro renewed w delivery prev stepped delivers watching last
        obtain ⟨wanted, h, judgement, _, _, _, judged, same⟩ := ecClientDelivery_some delivers
        obtain ⟨on, remembers⟩ := recalls watching wanted
        by_cases unchecked : delivery.ends = true ∨ prev.establishes = true
        · exact renewed w delivery prev stepped delivers watching last unchecked
        · obtain ⟨goesOn, later⟩ := not_or.mp unchecked
          obtain ⟨count, time⟩ := remembers prev last (by simpa using later)
          subst same
          rcases EcCliObs.judge_cases on judged with ⟨ends, _⟩ | ⟨_, oCnt, counter, _, newer⟩
          · exact absurd ends goesOn
          · rcases newer with newer | elapsed
            · exact Or.inl ⟨_, oCnt, count, counter, newer⟩
            · exact Or.inr (by rw [time]; exact elapsed)
  | dns env => exact Iff.rfl
  | appTimeout sent => exact Iff.rfl
  | coapTimeout sent => exact Iff.rfl
  | obsTimeout sent => exact Iff.rfl
  | cancel => exact Iff.rfl
  | shared dups => exact Iff.rfl

/-- An observation that is established with the count 5, and a notification with the count 4. -/
def olderNotification : List ClientEvent :=
  [.dns resolvedOnce, .datagram (observedContent 0x61 1 5 1700000000), .datagram (observedContent 0x51 2 4 1700000010)]

/-- The notification is delivered, though it is older than the response that has established the observation. -/
theorem olderNotification_delivered : ∃ start, ecClientGo loopbackPlatform ⟨observingGet, EcDups.empty⟩ none true =
    .ok (start, 0) ∧ start.cli.state ≠ .waitNfy ∧
    ¬ (watchedMachine loopbackPlatform).Meets (Fresher loopbackPlatform) ⟨start, none⟩ olderNotification := by
  have run : ∃ start s s' w delivery prev,
      ecClientGo loopbackPlatform ⟨observingGet, EcDups.empty⟩ none true = .ok (start, 0) ∧
      start.cli.state = .none ∧
      watchedStep loopbackPlatform ⟨start, none⟩ (.dns resolvedOnce) = .ok s ∧
      watchedStep loopbackPlatform s (.datagram (observedContent 0x61 1 5 1700000000)) = .ok s' ∧
      clientStep loopbackPlatform s'.work (.datagram (observedContent 0x51 2 4 1700000010)) = .ok w ∧
      ecClientDelivery loopbackPlatform s'.work (observedContent 0x51 2 4 1700000010) = some delivery ∧
      s'.work.cli.state = .waitNfy ∧ s'.last = some prev ∧ prev.count = some 5 ∧ delivery.count = some 4 ∧
      prev.time = 1700000000 ∧ delivery.time = 1700000010 :=
    ⟨_, _, _, _, _, _, rfl, rfl, rfl, rfl, rfl, rfl, rfl, rfl, rfl, rfl, rfl, rfl⟩
  obtain ⟨start, s, s', w, delivery, prev, started, state, resolved, established, notified, delivers, watching, last,
    five, four, before, after⟩ := run
  refine ⟨start, started, by rw [state]; decide, fun meets => ?_⟩
  rcases ((meets.2 s resolved).2 s' established).1 w delivery prev notified delivers watching last with
    ⟨count, count', known, known', newer⟩ | elapsed
  · cases five.symm.trans known
    cases four.symm.trans known'
    exact absurd newer.2 (by decide)
  · rw [before, after] at elapsed
    omega

/-- The deliveries of an observation are not ever newer. -/
theorem olderNotification_unordered : ¬ ∀ platform w events, w.cli.state ≠ .waitNfy →
    (watchedMachine platform).Meets (Fresher platform) ⟨w, none⟩ events := by
  intro always
  obtain ⟨start, _, before, older⟩ := olderNotification_delivered
  exact older (always loopbackPlatform start olderNotification before)

/-- The first notification of that run is not renewed. -/
theorem olderNotification_unrenewed : ∃ start, start.cli.state ≠ .waitNfy ∧
    ¬ (watchedMachine loopbackPlatform).Meets (Renewed loopbackPlatform) ⟨start, none⟩ olderNotification := by
  obtain ⟨start, _, before, older⟩ := olderNotification_delivered
  exact ⟨start, before, fun renewed =>
    older ((watchedRun_fresher_iff loopbackPlatform start olderNotification before).mpr renewed)⟩

end Webthings.Evcoap
