import Webthings.Evcoap.ClientFrame

namespace Webthings.Evcoap
open Webthings.Transition

/-- A transition of a client without responses leaves it without responses. -/
theorem ecClientSetState_resSet {platform : Platform} {sent : Bool} {w : CliWork} {next : EcCliState}
    {moved : CliWork × Bool} (made : ecClientSetState platform sent w next = .ok moved) (empty : w.cli.resSet = []) :
    moved.1.cli.resSet = [] := by
  obtain ⟨entered, log, entering, ⟨_, ended⟩ | ⟨_, _, goes⟩⟩ := ecClientSetState_made made
  · rw [ended]
    exact (ecClientFinish_kept _ _).2.2.2
  · obtain ⟨_, _, _, _, framed⟩ := ecClientEnter_frame entering
    rw [goes, framed]
    exact empty

/-- A client without responses stays without while nothing is heard. -/
theorem resSet_kept (platform : Platform) : KeptBySends platform (fun _ => True) fun cli => cli.resSet = [] where
  sends := trivial
  fails := trivial
  moves := fun _ _ _ _ _ made empty => ecClientSetState_resSet made empty
  flow := fun _ _ _ empty => empty
  req := fun _ _ _ empty => empty
  log := fun _ _ _ empty => empty

/-- A datagram that the handler rejects leaves the state, the responses, the code and the observation as they are. -/
def Traceless (platform : Platform) (w : CliWork) (event : ClientEvent) : Prop :=
  match event with
  | .datagram input => ∀ handled, w.cli.freed = false → w.cli.registered = true →
      ecClientHandlePdu platform w input = .ok handled → handled.rc = .error →
      handled.work.cli.state = w.cli.state ∧ handled.work.cli.resSet = w.cli.resSet ∧
        handled.work.cli.flow.respCode = w.cli.flow.respCode ∧ handled.work.cli.observe = w.cli.observe
  | _ => True

/-- No response that gets into the set is out of date. -/
def Unstale (platform : Platform) (w : CliWork) (event : ClientEvent) : Prop :=
  match event with
  | .datagram input => ∀ h, w.Hears platform input h → h.code ≠ 0 → w.cli.TakesIn h input →
      w.cli.judged platform.order h input ≠ none
  | _ => True

/-- A response that moves the client is the one that it is judged by and that the user gets. -/
def OwnJudged (platform : Platform) (w : CliWork) (event : ClientEvent) : Prop :=
  match event with
  | .datagram input => ∀ h, w.Hears platform input h → h.code ≠ 0 → w.cli.Moves platform.order h input →
      ecClientGetResponsePdu (w.cli.added h input) = some (input.pdu h)
  | _ => True

/-- A rejected datagram that is heard is empty, not taken in, or out of date. -/
theorem ecClientHandlePdu_rejected {platform : Platform} {w : CliWork} {input : Incoming} {h : EcHdr}
    {handled : CliHandled} (hears : w.Hears platform input h)
    (outcome : ecClientHandlePdu platform w input = .ok handled) (rejected : handled.rc = .error) :
    handled.work.cli = w.cli ∨ h.code ≠ 0 ∧ w.cli.TakesIn h input ∧ w.cli.judged platform.order h input = none ∧
      handled.work.cli = w.cli.added h input := by
  rw [ecClientHandlePdu_hears hears] at outcome
  obtain ⟨⟨moved, rc⟩, handling, same⟩ := map_ok outcome
  subst same
  have error : rc = .error := rejected
  subst error
  by_cases code : h.code = 0
  · left
    rcases ecClientHandleNew_empty code handling with ⟨_, _, _, _, success⟩ | ⟨_, _, other⟩
    · cases success
    · cases other
      rfl
  · rcases ecClientHandleNew_response code handling with ⟨_, refused⟩ | ⟨taken, judged, stale⟩ |
      ⟨_, _, _, _, accepted, _⟩
    · cases refused
      exact Or.inl rfl
    · cases stale
      exact Or.inr ⟨code, taken, judged, rfl⟩
    · exact absurd rfl accepted

/-- A datagram leaves no trace when it is rejected exactly when it is not taken in out of date. -/
theorem traceless_iff_unstale (platform : Platform) (w : CliWork) (event : ClientEvent) :
    Traceless platform w event ↔ Unstale platform w event := by
  cases event with
  | datagram input =>
      constructor
      · intro traceless h hears code taken stale
        have seen : (w.seen platform input h).cli.TakesIn h input := taken
        have outcome := ecClientHandlePdu_hears hears
        rw [ecClientHandleNew_stale platform code seen stale] at outcome
        obtain ⟨_, resSet, _⟩ := traceless _ hears.live hears.registered outcome rfl
        have longer := congrArg List.length resSet
        exact absurd longer (by simp [CliWork.seen, EcClient.added])
      · intro unstale handled live registered outcome rejected
        by_cases heard : ∃ h, w.Hears platform input h
        · obtain ⟨h, hears⟩ := heard
          rcases ecClientHandlePdu_rejected hears outcome rejected with same | ⟨code, taken, stale, _⟩
          · rw [same]
            exact ⟨rfl, rfl, rfl, rfl⟩
          · exact absurd stale (unstale h hears code taken)
        · have unheard := clientStep_unheard (fun h hears => heard ⟨h, hears⟩)
          unfold clientStep at unheard
          rw [if_neg (by simp [live])] at unheard
          dsimp only at unheard
          rw [if_pos registered, outcome] at unheard
          have same : handled.work = w := Except.ok.inj unheard
          rw [same]
          exact ⟨rfl, rfl, rfl, rfl⟩
  | dns env => exact Iff.rfl
  | appTimeout sent => exact Iff.rfl
  | coapTimeout sent => exact Iff.rfl
  | obsTimeout sent => exact Iff.rfl
  | cancel => exact Iff.rfl
  | shared dups => exact Iff.rfl

/-- A client has no response left after an event in which nothing is taken in out of date. -/
theorem clientStep_resSet {platform : Platform} {w w' : CliWork} {event : ClientEvent} (empty : w.cli.resSet = [])
    (unstale : Unstale platform w event) (stepped : clientStep platform w event = .ok w') : w'.cli.resSet = [] := by
  cases clientStep_work stepped with
  | idle event => exact empty
  | resolved env next worked =>
      exact (resSet_kept platform).resolved (fun _ _ _ made => ecClientSetState_resSet made empty) (fun _ kept => kept)
        worked
  | heard input h handled hears worked =>
      by_cases code : h.code = 0
      · rcases ecClientHandleNew_empty code worked with ⟨_, _, _, made, moves⟩ | ⟨_, _, other⟩
        · subst moves
          have cleared := ecClientSetState_resSet made
          exact cleared empty
        · subst other
          exact empty
      · rcases ecClientHandleNew_response code worked with ⟨_, refused⟩ | ⟨taken, stale, _⟩ | ⟨_, _, _, _, _, became⟩
        · subst refused
          exact empty
        · exact absurd stale (unstale h hears code taken)
        · exact became.resSet
  | appTimeout sent next worked =>
      obtain ⟨moved, made, same⟩ := map_ok worked
      subst same
      have cleared := ecClientSetState_resSet made
      exact cleared empty
  | coapTimeout sent next worked =>
      apply (resSet_kept platform).retransmitted trivial trivial trivial ?_ worked
      exact empty
  | obsTimeout sent next worked =>
      obtain ⟨moved, made, same⟩ := map_ok worked
      subst same
      have cleared := ecClientSetState_resSet made
      exact cleared empty
  | cancel => exact empty
  | shared dups => exact empty

/-- The rejected datagrams of a run leave no trace exactly when none of its responses is taken in out of date, and then
every accepted response is judged by itself and shown to the user. -/
theorem clientRun_rejects_iff (platform : Platform) (w : CliWork) (events : List ClientEvent) :
    ((clientMachine platform).Meets (Traceless platform) w events ↔
      (clientMachine platform).Meets (Unstale platform) w events) ∧
    (w.cli.resSet = [] → (clientMachine platform).Meets (Unstale platform) w events →
      (clientMachine platform).Meets (OwnJudged platform) w events) := by
  constructor
  · exact (clientMachine platform).meets_congr (traceless_iff_unstale platform) w events
  · intro start unstale
    apply unstale.imp (fun w => w.cli.resSet = []) (OwnJudged platform)
      (fun _ _ _ empty unstale stepped => clientStep_resSet empty unstale stepped) ?_ start
    intro w event empty _
    cases event with
    | datagram input =>
        intro h _ _ _
        unfold ecClientGetResponsePdu EcClient.added
        rw [empty]
        rfl
    | dns env => trivial
    | appTimeout sent => trivial
    | coapTimeout sent => trivial
    | obsTimeout sent => trivial
    | cancel => trivial
    | shared dups => trivial

/-- A confirmable GET that asks for notifications. -/
def observingGet : EcClient :=
  {confirmableGet with req := {ecPduNewEmpty with opts := (ecOptsAddObserve .little ecOptsInit 0).1}}

/-- A 2.05 response with an Observe option that comes in at a time; `first` is its first header byte. -/
def observedContent (first low count : UInt8) (now : Nat) : Incoming :=
  ⟨[first, 0x45, 0, low, 0xa1, count], fun _ => 0, 5, loopback, now, true, true⟩

/-- A second notification with the count of the first one stays in the response set of the client that rejects it. -/
theorem repeatedCount_traces : ¬ ∀ platform w tout destination events start rc, w.cli.Fresh →
    ecClientGo platform w tout destination = .ok (start, rc) →
      (clientMachine platform).Meets (Traceless platform) start events := by
  intro always
  have run : ∃ start w w' w'' handled,
      ecClientGo loopbackPlatform ⟨observingGet, EcDups.empty⟩ none true = .ok (start, 0) ∧
      clientStep loopbackPlatform start (.dns resolvedOnce) = .ok w ∧
      clientStep loopbackPlatform w (.datagram (observedContent 0x61 1 5 1700000000)) = .ok w' ∧
      clientStep loopbackPlatform w' (.datagram (observedContent 0x51 2 6 1700000010)) = .ok w'' ∧
      w''.cli.freed = false ∧ w''.cli.registered = true ∧ w''.cli.resSet = [] ∧
      ecClientHandlePdu loopbackPlatform w'' (observedContent 0x51 3 6 1700000020) = .ok handled ∧
      handled.rc = .error ∧ handled.work.cli.resSet.length = 1 :=
    ⟨_, _, _, _, _, rfl, rfl, rfl, rfl, rfl, rfl, rfl, rfl, rfl, rfl⟩
  obtain ⟨start, w, w', w'', handled, started, resolved, established, notified, live, registered, empty, outcome,
    rejected, kept⟩ := run
  have meets := always loopbackPlatform ⟨observingGet, EcDups.empty⟩ none true
    [.dns resolvedOnce, .datagram (observedContent 0x61 1 5 1700000000),
      .datagram (observedContent 0x51 2 6 1700000010), .datagram (observedContent 0x51 3 6 1700000020)] start 0
    ⟨rfl, rfl, rfl, rfl, rfl, rfl, rfl⟩ started
  have traceless := (((meets.2 w resolved).2 w' established).2 w'' notified).1 handled live registered outcome rejected
  rw [traceless.2.1, empty] at kept
  cases kept

end Webthings.Evcoap
