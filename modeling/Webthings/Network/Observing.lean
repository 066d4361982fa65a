import Webthings.Evcoap.ObserveCounters
import Webthings.Network.ObservationPhases
import Webthings.Sorting.Rising

namespace Webthings.Network
open Webthings.Evcoap
open Webthings.Sorting
open Webthings.Transition

/-- A notification as the client has heard it. -/
structure Arrival where
  sent : ObserveSent
  pdu : EcPdu

/-- One notification was sent in an earlier second than another. -/
def Arrival.Before (first next : Arrival) : Prop := first.sent.time < next.sent.time

instance : DecidableRel Arrival.Before := fun first next =>
  inferInstanceAs (Decidable (first.sent.time < next.sent.time))

/-- A server with what it has sent its observers, and an observing client with what it has heard of that and with what
its callback was given. -/
structure Observing where
  log : ObserveLog
  work : CliWork
  arrived : List Arrival
  shown : List EcPdu

/-- The server goes on, something happens to the client, or the network hands it a datagram that carries the value of
some index among those that were sent. -/
inductive ObservingEvent where
  | server (tick : ObserveTick)
  | client (event : ClientEvent)
  | arrives (n : Nat) (input : Incoming)

/-- The header of a message that an observing client hears. -/
def heard (platform : Platform) (w : CliWork) (input : Incoming) : Option EcHdr :=
  if w.cli.freed = true ∨ w.cli.registered = false ∨ ¬ Observes w then none
  else (ecClientHeader platform.order input.raw).filter fun h => (ecDupsSearch platform w.dups h.mid input.peer).isNone

/-- The network may lose, repeat, delay and reorder what was sent, so that any value can arrive at any time. -/
def observingStep (platform : Platform) (s : Observing) (event : ObservingEvent) : Except EcFault Observing :=
  match event with
  | .server tick => (observeStep platform s.log tick).map fun log => {s with log := log}
  | .client event => (clientStep platform s.work event).map fun work => {s with work := work}
  | .arrives n input =>
      match s.log.sent[n]? with
      | none => .ok s
      | some sent =>
          (clientStep platform s.work (.datagram input)).map fun work =>
            match heard platform s.work input with
            | none => {s with work := work}
            | some h =>
                {s with
                  work := work
                  arrived := s.arrived ++ [⟨sent, input.pdu h⟩]
                  shown := s.shown ++
                    (ecClientDelivery platform s.work input).toList.map fun _ => s.work.cli.shown h input}

def observingMachine (platform : Platform) : Machine Observing ObservingEvent EcFault := ⟨observingStep platform⟩

/-- A datagram is the notification with a value: it belongs to the observation, goes on with it, and has not been under
way for 2^14 seconds; the clock of the client is `skew` seconds ahead of the server's. -/
structure Carries (platform : Platform) (skew : Int) (s : Observing) (sent : ObserveSent) (h : EcHdr)
    (input : Incoming) : Prop where
  code : h.code ≠ 0
  ongoing : endsObservation h.code.toNat (some sent.count) = false
  taken : s.work.cli.TakesIn h input
  counter : ecOptsGetObserve platform.order (input.pdu h).opts = some sent.count
  clocks : (input.now : Int) = s.log.clock + skew
  prompt : s.log.clock < sent.time + 2 ^ 14
  /-- The clock of the client does not stand at the first hours of 1970. -/
  epoch : 2 ^ 14 ≤ input.now
  /-- After a notification was overtaken, none comes in 2^14 seconds after the last one that was shown. -/
  recent : ¬ s.arrived.IsChain Arrival.Before → input.now < s.work.cli.observe.lastTs + 2 ^ 14

/-- While the client observes, what it hears is a notification that was sent, or no response of the observation. -/
def Carried (platform : Platform) (skew : Int) (s : Observing) (event : ObservingEvent) : Prop :=
  match event with
  | .server _ => True
  | .client event => Observes s.work → ∀ input h, event = .datagram input → s.work.Hears platform input h →
      h.code ≠ 0 → ¬ s.work.cli.TakesIn h input
  | .arrives n input => Observes s.work → ∀ sent h, s.log.sent[n]? = some sent → s.work.Hears platform input h →
      Carries platform skew s sent h input

/-- The values that were sent tell their second, which is over. -/
structure Stamped (log : ObserveLog) : Prop where
  past : ∀ sent ∈ log.sent, sent.time ≤ log.clock
  counted : ∀ sent ∈ log.sent, sent.count = UInt16.ofNat sent.time

/-- The callback was given the notifications that had come in before one was overtaken, each as it was sent; these are
all of them exactly when none was. -/
def ShownInOrder (s : Observing) : Prop :=
  s.shown = (rising Arrival.Before s.arrived).map Arrival.pdu ∧
    (s.shown.length = s.arrived.length ↔ s.arrived.IsChain Arrival.Before)

/-- What a client that waits for notifications knows of the last one that was shown; once one was overtaken, the first
such one stands in its response set. -/
structure Recalls (order : ByteOrder) (skew : Int) (s : Observing) : Prop where
  on : s.work.cli.observe.on = true
  first : s.arrived = [] → s.work.cli.observe.lastTs = 0
  last : ∀ last, (rising Arrival.Before s.arrived).getLast? = some last →
    s.work.cli.observe.lastCnt = UInt16.ofNat last.sent.time ∧
    (last.sent.time : Int) + skew ≤ s.work.cli.observe.lastTs ∧
    (s.work.cli.observe.lastTs : Int) < last.sent.time + skew + 2 ^ 14 ∧
    (s.work.cli.observe.lastTs : Int) ≤ s.log.clock + skew
  set : s.arrived.IsChain Arrival.Before ∧ s.work.cli.resSet = [] ∨
    ¬ s.arrived.IsChain Arrival.Before ∧ ∃ left old last, s.work.cli.resSet.head? = some left ∧
      ecOptsGetObserve order left.opts = some (UInt16.ofNat old) ∧
      (rising Arrival.Before s.arrived).getLast? = some last ∧ old ≤ last.sent.time ∧ last.sent.time < old + 2 ^ 14

/-- The observation has not been established yet, is going on, or is over. -/
structure Kept (order : ByteOrder) (skew : Int) (s : Observing) : Prop where
  stamped : Stamped s.log
  quiet : ClientQuiet s.work.cli
  shown : s.shown = (rising Arrival.Before s.arrived).map Arrival.pdu
  phase : Unestablished s.work.cli ∧ s.arrived = [] ∨ Observes s.work ∧ Recalls order skew s ∨ Over s.work.cli

section Counters

/-- The counters of two seconds that are not too far apart are in the order of the seconds. -/
theorem serialNewer_seconds {a b : Nat} (behind : a < b + 2 ^ 15) (ahead : b ≤ a + 2 ^ 15) :
    serialNewer (UInt16.ofNat a) (UInt16.ofNat b) ↔ a < b := by
  unfold serialNewer
  rw [UInt16.toNat_sub, UInt16.toNat_ofNat', UInt16.toNat_ofNat']
  omega

/-- A notification that goes on with the observation is rejected when its counter is not newer and it comes early. -/
theorem judge_none_iff {observe : EcCliObs} {asked : Bool} {rc : EcRc} {count : UInt16} {now : Nat}
    (on : observe.on = true) (ongoing : endsObservation rc (some count) = false) :
    observe.judge asked rc (some count) now = none ↔
      ¬ serialNewer observe.lastCnt count ∧ now < observe.lastTs + 2 ^ 14 := by
  obtain ⟨working, present⟩ : rc ≠ ecInternalServerError ∧ rc ≠ ecDeleted := by
    simpa [endsObservation] using ongoing
  unfold EcCliObs.judge
  rw [if_pos on, if_neg working]
  dsimp only
  rw [if_neg present, serialNewer_iff, not_not]
  split
  · rename_i stale
    exact ⟨fun _ => stale, fun _ => rfl⟩
  · rename_i current
    exact ⟨fun accepted => (by cases accepted), fun stale => absurd stale current⟩

end Counters

section Server

variable {platform : Platform} {log next : ObserveLog}

theorem Stamped.extended (stamped : Stamped log) {new : List ObserveSent} (whole : next.sent = log.sent ++ new)
    (after : log.clock ≤ next.clock)
    (fresh : ∀ sent ∈ new, sent.time ≤ next.clock ∧ sent.count = UInt16.ofNat sent.time) : Stamped next where
  past := by
    rw [whole]
    exact List.forall_mem_append.mpr
      ⟨fun sent old => Nat.le_trans (stamped.past sent old) after, fun sent new => (fresh sent new).1⟩
  counted := by
    rw [whole]
    exact List.forall_mem_append.mpr ⟨stamped.counted, fun sent new => (fresh sent new).2⟩

theorem Stamped.waited (stamped : Stamped log) (same : next.sent = log.sent) (after : log.clock ≤ next.clock) :
    Stamped next :=
  @Stamped.extended log next stamped [] (by rw [same, List.append_nil]) after (by simp)

/-- The server stamps what it sends with its clock, which does not go back. -/
theorem observeStep_stamped {tick : ObserveTick} (stamped : Stamped log)
    (stepped : observeStep platform log tick = .ok next) : Stamped next ∧ log.clock ≤ next.clock := by
  obtain ⟨elapsed, lasts, event⟩ := tick
  have since : log.clock ≤ log.clock + elapsed + lasts := by omega
  cases event with
  | add flow args =>
      obtain ⟨added, _, same⟩ := map_ok stepped
      subst same
      refine ⟨stamped.extended rfl since ?_, since⟩
      intro sent member
      split at member
      · rw [List.mem_singleton.mp member]
        exact ⟨Nat.le_refl _, rfl⟩
      · cases member
  | round op env =>
      unfold observeStep at stepped
      dsimp only at stepped
      split at stepped
      · cases stepped
        exact ⟨stamped.waited rfl since, since⟩
      · split at stepped
        · obtain ⟨round, _, same⟩ := map_ok stepped
          subst same
          refine ⟨stamped.extended rfl since ?_, since⟩
          rw [observeSent_eq, List.filterMap_eq_map']
          exact List.forall_mem_map.mpr fun vp _ => ⟨Nat.le_add_right _ _, rfl⟩
        · cases stepped
          exact ⟨stamped.waited rfl since, since⟩
  | rem flow =>
      obtain ⟨reg, _, same⟩ := map_ok stepped
      subst same
      exact ⟨stamped.waited rfl since, since⟩
  | canceledByGet flow =>
      obtain ⟨reg, _, same⟩ := map_ok stepped
      subst same
      exact ⟨stamped.waited rfl since, since⟩
  | canceledByRst conn mid =>
      obtain ⟨reg, _, same⟩ := map_ok stepped
      subst same
      exact ⟨stamped.waited rfl since, since⟩

end Server

section Client

variable {platform : Platform} {w w' : CliWork} {input : Incoming} {h : EcHdr}

theorem heard_eq_some_iff : heard platform w input = some h ↔ Observes w ∧ w.Hears platform input h := by
  unfold heard
  constructor
  · intro hearing
    split at hearing
    · cases hearing
    · rename_i listening
      obtain ⟨live, registered, observes⟩ : w.cli.freed = false ∧ w.cli.registered = true ∧ Observes w := by
        simpa using listening
      obtain ⟨header, fresh⟩ := Option.filter_eq_some_iff.mp hearing
      exact ⟨observes, live, registered, header, by simpa using fresh⟩
  · rintro ⟨observes, hears⟩
    rw [if_neg (by simp [hears.live, hears.registered, observes]), hears.header]
    simp [hears.fresh]

/-- A response that an observing client takes in is out of date and is left behind, or is shown. -/
theorem clientStep_taken (observes : Observes w) (hears : w.Hears platform input h) (code : h.code ≠ 0)
    (taken : w.cli.TakesIn h input) (stepped : clientStep platform w (.datagram input) = .ok w') :
    w.cli.judged platform.order h input = none ∧ ecClientDelivery platform w input = none ∧
      w'.cli = w.cli.added h input ∨
    ∃ observe delivery, w.cli.judged platform.order h input = some observe ∧
      ecClientDelivery platform w input = some delivery ∧ w'.cli.observe = observe ∧ w'.cli.resSet = [] := by
  rcases clientStep_response hears code stepped with ⟨refused, _⟩ | takes
  · exact absurd taken refused
  · rcases takes.judged with ⟨stale, left⟩ | ⟨observe, judged, _, became⟩
    · left
      have silent : ecClientDelivery platform w input = none := by
        cases delivers : ecClientDelivery platform w input with
        | none => rfl
        | some delivery =>
            obtain ⟨_, h', _, hears', _, _, judged, _⟩ := ecClientDelivery_some delivers
            cases hears.header.symm.trans hears'.header
            cases stale.symm.trans judged
      exact ⟨stale, silent, left⟩
    · right
      obtain ⟨delivery, delivers⟩ := ecClientDelivery_moves hears code taken judged observes.2
      exact ⟨observe, delivery, judged, delivers, became.observe, became.resSet⟩

/-- What else happens to a client that goes on observing leaves its transaction alone. -/
theorem clientStep_observes {event : ClientEvent}
    (other : ∀ input h, event = .datagram input → w.Hears platform input h → h.code ≠ 0 → ¬ w.cli.TakesIn h input)
    (stepped : clientStep platform w event = .ok w') (observes : Observes w') : w'.cli = w.cli := by
  obtain ⟨watching, wanted⟩ := observes
  cases clientStep_work stepped with
  | idle event => rfl
  | heard input h handled hears worked =>
      by_cases code : h.code = 0
      · rcases clientStep_empty hears code stepped with same | elsewhere
        · exact same
        · exact absurd watching elsewhere
      · have refused : ¬ (w.seen platform input h).cli.TakesIn h input := other input h rfl hears code
        rw [ecClientHandleNew_refused platform code refused] at worked
        cases worked
        rfl
  | resolved env next worked => exact absurd watching (ecClientDnsCb_unwatched worked)
  | appTimeout sent next worked =>
      obtain ⟨moved, made, same⟩ := map_ok worked
      subst same
      rw [ecClientSetState_state made] at watching
      cases watching
  | coapTimeout sent next worked => exact absurd watching (ecCliCoapTimeout_unwatched worked)
  | obsTimeout sent next worked =>
      obtain ⟨moved, made, same⟩ := map_ok worked
      subst same
      rw [ecClientSetState_state made] at watching
      cases watching
  | cancel => cases wanted
  | shared dups => rfl

end Client

section Arrivals

variable {platform : Platform} {skew : Int} {s next : Observing} {sent : ObserveSent} {h : EcHdr} {input : Incoming}

/-- A notification that goes on with the observation is judged by the counter of the response that would be shown. -/
theorem Carries.judged_none_iff (carries : Carries platform skew s sent h input)
    (recalls : Recalls platform.order skew s) {count : UInt16}
    (counter : ecOptsGetObserve platform.order (s.work.cli.shown h input).opts = some count) :
    s.work.cli.judged platform.order h input = none ↔
      ¬ serialNewer s.work.cli.observe.lastCnt count ∧ input.now < s.work.cli.observe.lastTs + 2 ^ 14 := by
  have ongoing : endsObservation h.code.toNat (some count) = false := by
    simpa [endsObservation] using carries.ongoing
  unfold EcClient.judged
  rw [counter]
  exact judge_none_iff recalls.on ongoing

/-- While none was overtaken, a notification is shown as it is, unless it is overtaken itself. -/
theorem Carries.judged_rising (carries : Carries platform skew s sent h input)
    (recalls : Recalls platform.order skew s) (stamped : Stamped s.log) (member : sent ∈ s.log.sent)
    (chain : s.arrived.IsChain Arrival.Before) :
    s.work.cli.shown h input = input.pdu h ∧ (s.work.cli.judged platform.order h input = none ↔
      ∃ last, s.arrived.getLast? = some last ∧ ¬ last.Before ⟨sent, input.pdu h⟩) := by
  obtain ⟨_, empty⟩ | ⟨broken, _⟩ := recalls.set
  swap
  · exact absurd chain broken
  have own : s.work.cli.shown h input = input.pdu h := by
    unfold EcClient.shown
    rw [empty]
    rfl
  refine ⟨own, ?_⟩
  rw [carries.judged_none_iff recalls (by rw [own]; exact carries.counter), stamped.counted sent member]
  have past := stamped.past sent member
  have clocks := carries.clocks
  have prompt := carries.prompt
  cases atEnd : s.arrived.getLast? with
  | none =>
      have epoch := carries.epoch
      have first := recalls.first (List.getLast?_eq_none_iff.mp atEnd)
      constructor
      · rintro ⟨_, early⟩
        omega
      · rintro ⟨last, impossible, _⟩
        cases impossible
  | some last =>
      obtain ⟨count, arrivedLater, promptly, before⟩ := recalls.last last (by rwa [rising_eq_self_iff.mpr chain])
      rw [count]
      constructor
      · rintro ⟨behind, early⟩
        refine ⟨last, rfl, fun earlier => behind ?_⟩
        exact (serialNewer_seconds (by omega) (by omega)).mpr earlier
      · rintro ⟨_, same, down⟩
        cases same
        have overtaken : ¬ last.sent.time < sent.time := down
        refine ⟨fun newer => overtaken ?_, by omega⟩
        exact (serialNewer_seconds (by omega) (by omega)).mp newer

/-- Once one was overtaken, every notification is judged by it and rejected. -/
theorem Carries.judged_stuck (carries : Carries platform skew s sent h input)
    (recalls : Recalls platform.order skew s) (broken : ¬ s.arrived.IsChain Arrival.Before) :
    s.work.cli.judged platform.order h input = none := by
  obtain ⟨chain, _⟩ | ⟨_, left, old, last, stands, counter, atEnd, behind, close⟩ := recalls.set
  · exact absurd chain broken
  obtain ⟨count, _⟩ := recalls.last last atEnd
  have shown : s.work.cli.shown h input = left := by
    unfold EcClient.shown
    rw [List.headD_eq_head?_getD, stands]
    rfl
  apply (carries.judged_none_iff recalls (by rw [shown]; exact counter)).mpr
  refine ⟨fun newer => ?_, carries.recent broken⟩
  rw [count] at newer
  have ahead := (serialNewer_seconds (by omega) (by omega)).mp newer
  omega

/-- A notification that is shown is the last one from then on. -/
theorem Carries.accepted (carries : Carries platform skew s sent h input) (recalls : Recalls platform.order skew s)
    (stamped : Stamped s.log) (member : sent ∈ s.log.sent) (whole : rising Arrival.Before s.arrived = s.arrived)
    (up : ∀ last ∈ s.arrived.getLast?, last.Before ⟨sent, input.pdu h⟩) {work : CliWork} {shown : List EcPdu}
    (observe : work.cli.observe = {s.work.cli.observe with lastCnt := sent.count, lastTs := input.now})
    (cleared : work.cli.resSet = []) :
    Recalls platform.order skew ⟨s.log, work, s.arrived ++ [⟨sent, input.pdu h⟩], shown⟩ where
  on := by
    rw [observe]
    exact recalls.on
  first := by simp
  last := by
    intro last atEnd
    rw [rising_append_up whole up, List.getLast?_concat] at atEnd
    cases atEnd
    have past := stamped.past sent member
    have clocks := carries.clocks
    have prompt := carries.prompt
    rw [observe]
    dsimp only
    exact ⟨stamped.counted sent member, by omega, by omega, by omega⟩
  set := Or.inl ⟨rising_eq_self_iff.mp (rising_append_up whole up), cleared⟩

/-- A notification that is overtaken stays in the response set. -/
theorem Carries.overtaken (carries : Carries platform skew s sent h input) (recalls : Recalls platform.order skew s)
    (stamped : Stamped s.log) (member : sent ∈ s.log.sent) (chain : s.arrived.IsChain Arrival.Before)
    {last : Arrival} (atEnd : s.arrived.getLast? = some last) (down : ¬ last.Before ⟨sent, input.pdu h⟩)
    {work : CliWork} {shown : List EcPdu} (left : work.cli = s.work.cli.added h input) :
    Recalls platform.order skew ⟨s.log, work, s.arrived ++ [⟨sent, input.pdu h⟩], shown⟩ := by
  have whole := rising_eq_self_iff.mpr chain
  have stops := rising_append_down whole atEnd down
  obtain ⟨count, after, promptly, before⟩ := recalls.last last (by rwa [whole])
  have observe : work.cli.observe = s.work.cli.observe := by rw [left]; rfl
  refine ⟨by rw [observe]; exact recalls.on, by simp, ?_, Or.inr ⟨?_, ?_⟩⟩
  · intro other atEnd'
    rw [stops] at atEnd'
    rw [observe]
    exact recalls.last other (by rwa [whole])
  · rw [← rising_eq_self_iff, stops]
    simp
  · obtain ⟨_, empty⟩ | ⟨broken, _⟩ := recalls.set
    · have past := stamped.past sent member
      have clocks := carries.clocks
      have prompt := carries.prompt
      refine ⟨input.pdu h, sent.time, last, ?_, ?_, by rwa [stops], Nat.le_of_not_lt down, by omega⟩
      · rw [left]
        unfold EcClient.added
        rw [empty]
        rfl
      · rw [carries.counter, stamped.counted sent member]
    · exact absurd chain broken

/-- A notification that comes after one was overtaken changes nothing that matters. -/
theorem Recalls.stuck (recalls : Recalls platform.order skew s) (broken : ¬ s.arrived.IsChain Arrival.Before)
    {arrival : Arrival} {work : CliWork} {shown : List EcPdu} (left : work.cli = s.work.cli.added h input) :
    Recalls platform.order skew ⟨s.log, work, s.arrived ++ [arrival], shown⟩ := by
  have stops : rising Arrival.Before (s.arrived ++ [arrival]) = rising Arrival.Before s.arrived :=
    rising_append_stuck fun whole => broken (rising_eq_self_iff.mp whole)
  have observe : work.cli.observe = s.work.cli.observe := by rw [left]; rfl
  refine ⟨by rw [observe]; exact recalls.on, by simp, ?_, Or.inr ⟨?_, ?_⟩⟩
  · intro last atEnd
    rw [observe]
    exact recalls.last last (by rwa [stops] at atEnd)
  · exact fun chain => broken (List.isChain_append.mp chain).1
  · obtain ⟨chain, _⟩ | ⟨_, stands, old, last, first, counter, atEnd, times⟩ := recalls.set
    · exact absurd chain broken
    · refine ⟨stands, old, last, ?_, counter, by rwa [stops], times⟩
      rw [left]
      unfold EcClient.added
      rw [List.head?_append, first]
      rfl

/-- A notification that is heard is shown when it comes after the others and none was overtaken. -/
theorem Recalls.arrives (recalls : Recalls platform.order skew s) (stamped : Stamped s.log) (observes : Observes s.work)
    (shown : s.shown = (rising Arrival.Before s.arrived).map Arrival.pdu)
    (carries : Carries platform skew s sent h input) (member : sent ∈ s.log.sent)
    (hears : s.work.Hears platform input h) {work : CliWork}
    (stepped : clientStep platform s.work (.datagram input) = .ok work)
    (same : next = ⟨s.log, work, s.arrived ++ [⟨sent, input.pdu h⟩],
      s.shown ++ (ecClientDelivery platform s.work input).toList.map fun _ => s.work.cli.shown h input⟩) :
    next.shown = (rising Arrival.Before next.arrived).map Arrival.pdu ∧ Recalls platform.order skew next := by
  subst same
  have taken := clientStep_taken observes hears carries.code carries.taken stepped
  by_cases chain : s.arrived.IsChain Arrival.Before
  · have whole := rising_eq_self_iff.mpr chain
    obtain ⟨own, tells⟩ := carries.judged_rising recalls stamped member chain
    rcases taken with ⟨stale, silent, left⟩ | ⟨observe, delivery, judged, delivers, became, cleared⟩
    · obtain ⟨last, atEnd, down⟩ := tells.mp stale
      refine ⟨?_, carries.overtaken recalls stamped member chain atEnd down left⟩
      dsimp only
      rw [rising_append_down whole atEnd down, shown, whole, silent]
      exact List.append_nil _
    · have up : ∀ last ∈ s.arrived.getLast?, last.Before ⟨sent, input.pdu h⟩ := by
        intro last atEnd
        apply Classical.byContradiction
        intro down
        cases judged.symm.trans (tells.mpr ⟨last, atEnd, down⟩)
      have updated : observe = {s.work.cli.observe with lastCnt := sent.count, lastTs := input.now} := by
        unfold EcClient.judged at judged
        rw [own, carries.counter] at judged
        rcases EcCliObs.judge_cases recalls.on judged with ⟨ends, _⟩ | ⟨_, oCnt, counter, same, _⟩
        · exact absurd (ends.symm.trans carries.ongoing) (by decide)
        · cases counter
          exact same
      refine ⟨?_, carries.accepted recalls stamped member whole up (became.trans updated) cleared⟩
      dsimp only
      rw [rising_append_up whole up, shown, whole, delivers, own]
      simp
  · have stops : rising Arrival.Before (s.arrived ++ [⟨sent, input.pdu h⟩]) = rising Arrival.Before s.arrived :=
      rising_append_stuck fun whole => chain (rising_eq_self_iff.mp whole)
    rcases taken with ⟨_, silent, left⟩ | ⟨_, _, judged, _⟩
    · refine ⟨?_, recalls.stuck chain left⟩
      dsimp only
      rw [stops, shown, silent]
      exact List.append_nil _
    · cases (carries.judged_stuck recalls chain).symm.trans judged

end Arrivals

section Runs

variable {platform : Platform} {skew : Int}

/-- What the client recalls does not depend on what the server does meanwhile. -/
theorem Recalls.later {order : ByteOrder} {s next : Observing} (recalls : Recalls order skew s)
    (same : next.work.cli = s.work.cli) (arrived : next.arrived = s.arrived) (after : s.log.clock ≤ next.log.clock) :
    Recalls order skew next where
  on := by
    rw [same]
    exact recalls.on
  first := by
    rw [same, arrived]
    exact recalls.first
  last := by
    rw [same, arrived]
    intro last atEnd
    obtain ⟨count, later, promptly, before⟩ := recalls.last last atEnd
    exact ⟨count, later, promptly, by omega⟩
  set := by
    rw [same, arrived]
    exact recalls.set

/-- An observation that has just been established has nothing to recall. -/
theorem Established.recalls {order : ByteOrder} {s : Observing} (established : Established s.work.cli)
    (arrived : s.arrived = []) : Recalls order skew s := by
  refine ⟨established.on, fun _ => established.first, ?_, Or.inl ⟨?_, established.empty⟩⟩
  · rw [arrived]
    intro last atEnd
    cases atEnd
  · rw [arrived]
    exact List.isChain_nil

/-- An event of the client alone leads from one phase of its observation to the same or to a later one. -/
theorem Kept.happened {order : ByteOrder} {s : Observing} (kept : Kept order skew s) {event : ClientEvent}
    {work : CliWork} (other : Observes s.work → ∀ input h, event = .datagram input → s.work.Hears platform input h →
      h.code ≠ 0 → ¬ s.work.cli.TakesIn h input)
    (happened : clientStep platform s.work event = .ok work) : Kept order skew {s with work := work} := by
  refine ⟨kept.stamped, clientStep_keepsQuiet kept.quiet happened, kept.shown, ?_⟩
  rcases kept.phase with ⟨fresh, arrived⟩ | ⟨observes, recalls⟩ | gone
  · rcases clientStep_unestablished fresh happened with still | established
    · exact Or.inl ⟨still, arrived⟩
    · right
      cases cancelled : work.cli.observe.cancel with
      | false => exact Or.inl ⟨⟨established.watching, cancelled⟩, established.recalls arrived⟩
      | true => exact Or.inr (Or.inl cancelled)
  · right
    rcases clientStep_leaves kept.quiet observes happened with still | gone
    · have same := clientStep_observes (other observes) happened still
      exact Or.inl ⟨still, recalls.later same rfl (Nat.le_refl _)⟩
    · exact Or.inr gone
  · exact Or.inr (Or.inr (clientStep_over kept.quiet gone happened))

/-- Every step of the server, the client and the network keeps what was shown in order. -/
theorem observingStep_kept {s next : Observing} {event : ObservingEvent} (kept : Kept platform.order skew s)
    (carried : Carried platform skew s event) (stepped : observingStep platform s event = .ok next) :
    Kept platform.order skew next := by
  cases event with
  | server tick =>
      obtain ⟨log, ticked, same⟩ := map_ok stepped
      subst same
      obtain ⟨stamped, after⟩ := observeStep_stamped kept.stamped ticked
      refine ⟨stamped, kept.quiet, kept.shown, ?_⟩
      exact kept.phase.imp id (Or.imp (fun observing => ⟨observing.1, observing.2.later rfl rfl after⟩) id)
  | client event =>
      obtain ⟨work, happened, same⟩ := map_ok stepped
      subst same
      exact kept.happened carried happened
  | arrives n input =>
      unfold observingStep at stepped
      dsimp only at stepped
      split at stepped
      · cases stepped
        exact kept
      · rename_i sent found
        obtain ⟨work, happened, same⟩ := map_ok stepped
        cases hearing : heard platform s.work input with
        | none =>
            rw [hearing] at same
            subst same
            apply kept.happened ?_ happened
            intro observes input' h same hears
            cases same
            cases hearing.symm.trans (heard_eq_some_iff.mpr ⟨observes, hears⟩)
        | some h =>
            rw [hearing] at same
            obtain ⟨observes, hears⟩ := heard_eq_some_iff.mp hearing
            have member := List.mem_of_getElem? found
            have carries := carried observes sent h found hears
            have recalls : Recalls platform.order skew s := by
              rcases kept.phase with ⟨fresh, _⟩ | ⟨_, recalls⟩ | gone
              · exact absurd observes.1 fresh.elsewhere
              · exact recalls
              · exact absurd observes gone.unobserved
            obtain ⟨shown, still⟩ := recalls.arrives kept.stamped observes kept.shown carries member hears happened
              same.symm
            subst same
            refine ⟨kept.stamped, clientStep_keepsQuiet kept.quiet happened, shown, ?_⟩
            exact Or.inr ((clientStep_leaves kept.quiet observes happened).imp (fun goesOn => ⟨goesOn, still⟩) id)

theorem Kept.inOrder {order : ByteOrder} {s : Observing} (kept : Kept order skew s) : ShownInOrder s := by
  refine ⟨kept.shown, ?_⟩
  rw [kept.shown, List.length_map, ← rising_eq_self_iff]
  exact ⟨(rising_starts s.arrived).eq_of_length, congrArg List.length⟩

/-- Over a network that loses, repeats, delays and reorders notifications, the callback of an observing client is given
exactly those that come in before one is overtaken, in the order in which they were sent. -/
theorem observing_shownInOrder {w start : CliWork} {tout : Option TimeVal} {destination : Bool} {rc : Int}
    (fresh : w.cli.Fresh) (blank : w.cli.observe = EcCliObs.zero) (empty : w.cli.resSet = [])
    (started : ecClientGo platform w tout destination = .ok (start, rc)) (now : Nat) (events : List ObservingEvent)
    (carried : (observingMachine platform).Meets (Carried platform skew) ⟨.new now, start, [], []⟩ events) :
    (observingMachine platform).Always ShownInOrder ⟨.new now, start, [], []⟩ events := by
  have quiet := (ecClientGo_quiet platform w tout destination fresh).of_ok started
  have unestablished : Unestablished start.cli := by
    apply ecClientGo_unestablished ?_ started
    exact ⟨by rw [fresh.1]; decide, by rw [blank]; rfl, by rw [blank]; rfl, empty⟩
  have stamped : Stamped (.new now) := ⟨by simp [ObserveLog.new], by simp [ObserveLog.new]⟩
  exact carried.always (Kept platform.order skew) _ (fun _ kept => kept.inOrder)
    (fun _ _ _ kept allowed stepped => observingStep_kept kept allowed stepped)
    ⟨stamped, quiet, rfl, Or.inl ⟨unestablished, rfl⟩⟩

end Runs

/-- A 2.05 response with an Observe option of two bytes that comes in at a time. -/
def notification (first mid high low : UInt8) (now : Nat) : Incoming :=
  ⟨[first, 0x45, 0, mid, 0xa2, high, low], fun _ => 0, 5, loopback, now, true, true⟩

/-- The observation is established, and of the three notifications the second overtakes the first. -/
def overtaking : List ObservingEvent :=
  [.server ⟨0, 0, .add (observedGet 40000) (observeArgs 0)⟩, .client (.dns resolvedOnce),
    .client (.datagram (notification 0x61 1 0xf1 0 1700000000)),
    .server ⟨60, 0, .round ⟨0⟩ (steadyRound fun _ => true)⟩, .server ⟨60, 0, .round ⟨0⟩ (steadyRound fun _ => true)⟩,
    .arrives 2 (notification 0x51 3 0xf1 0x78 1700000120), .arrives 1 (notification 0x51 2 0xf1 0x3c 1700000120),
    .server ⟨60, 0, .round ⟨0⟩ (steadyRound fun _ => true)⟩, .arrives 3 (notification 0x51 4 0xf1 0xb4 1700000180)]

/-- A 2.05 notification without a Token option is carried when its counter and the times fit. -/
theorem content_carries {s : Observing} {sent : ObserveSent} {input : Incoming} {h h' : EcHdr}
    (hears : s.work.Hears loopbackPlatform input h) (header : ecClientHeader .little input.raw = some h')
    (content : h'.code = 0x45) (decoded : (ecClientBody input.raw input.beyond).decoded.rc = ecRcUnset)
    (tokenless : ecOptsGet input.opts .token = none)
    (counter : ecOptsGetObserve .little (input.pdu h').opts = some sent.count) (clocks : input.now = s.log.clock)
    (prompt : s.log.clock < sent.time + 2 ^ 14) (epoch : 2 ^ 14 ≤ input.now)
    (recent : input.now < s.work.cli.observe.lastTs + 2 ^ 14 ∨ s.arrived.IsChain Arrival.Before) :
    Carries loopbackPlatform 0 s sent h input := by
  cases header.symm.trans hears.header
  refine ⟨by rw [content]; decide, ?_, ⟨decoded, fun t found => ?_, ?_⟩, counter, by omega, prompt, epoch, ?_⟩
  · simp [endsObservation, content, ecInternalServerError, ecDeleted]
  · cases tokenless.symm.trans found
  · rw [content]
    decide
  · intro broken
    exact recent.resolve_right broken

/-- Of the three notifications only the one that came first is shown, though the last one is the newest. -/
theorem overtaking_shown : ∃ start final,
    ecClientGo loopbackPlatform ⟨observingGet, EcDups.empty⟩ none true = .ok (start, 0) ∧
    (observingMachine loopbackPlatform).run ⟨.new 1700000000, start, [], []⟩ overtaking = .ok final ∧
    final.arrived.length = 3 ∧ final.shown.length = 1 ∧ ShownInOrder final := by
  have run : ∃ start s1 s2 s3 s4 s5 s6 s7 s8 final,
      ecClientGo loopbackPlatform ⟨observingGet, EcDups.empty⟩ none true = .ok (start, 0) ∧
      observingStep loopbackPlatform ⟨.new 1700000000, start, [], []⟩
        (.server ⟨0, 0, .add (observedGet 40000) (observeArgs 0)⟩) = .ok s1 ∧ ¬ Observes s1.work ∧
      observingStep loopbackPlatform s1 (.client (.dns resolvedOnce)) = .ok s2 ∧ ¬ Observes s2.work ∧
      observingStep loopbackPlatform s2 (.client (.datagram (notification 0x61 1 0xf1 0 1700000000))) = .ok s3 ∧
      observingStep loopbackPlatform s3 (.server ⟨60, 0, .round ⟨0⟩ (steadyRound fun _ => true)⟩) = .ok s4 ∧
      observingStep loopbackPlatform s4 (.server ⟨60, 0, .round ⟨0⟩ (steadyRound fun _ => true)⟩) = .ok s5 ∧
      s5.log.clock = 1700000120 ∧ s5.log.sent[2]? = some ⟨⟨0⟩, 1700000120, 0xf178, false⟩ ∧ s5.arrived = [] ∧
      observingStep loopbackPlatform s5 (.arrives 2 (notification 0x51 3 0xf1 0x78 1700000120)) = .ok s6 ∧
      s6.log.clock = 1700000120 ∧ s6.log.sent[1]? = some ⟨⟨0⟩, 1700000060, 0xf13c, false⟩ ∧
      s6.work.cli.observe.lastTs = 1700000120 ∧
      observingStep loopbackPlatform s6 (.arrives 1 (notification 0x51 2 0xf1 0x3c 1700000120)) = .ok s7 ∧
      observingStep loopbackPlatform s7 (.server ⟨60, 0, .round ⟨0⟩ (steadyRound fun _ => true)⟩) = .ok s8 ∧
      s8.log.clock = 1700000180 ∧ s8.log.sent[3]? = some ⟨⟨0⟩, 1700000180, 0xf1b4, false⟩ ∧
      s8.work.cli.observe.lastTs = 1700000120 ∧
      (observingMachine loopbackPlatform).run ⟨.new 1700000000, start, [], []⟩ overtaking = .ok final ∧
      final.arrived.length = 3 ∧ final.shown.length = 1 :=
    ⟨_, _, _, _, _, _, _, _, _, _, rfl, rfl, by decide, rfl, by decide, rfl, rfl, rfl, rfl, rfl, rfl, rfl, rfl, rfl,
      rfl, rfl, rfl, rfl, rfl, rfl, rfl, rfl, rfl⟩
  obtain ⟨start, s1, s2, s3, s4, s5, s6, s7, s8, final, started, first, idle, resolved, waiting, established, second,
    third, clock5, sent5, none5, arrives5, clock6, sent6, last6, arrives6, fourth, clock8, sent8, last8, finished,
    arrived, shown⟩ := run
  refine ⟨start, final, started, finished, arrived, shown, ?_⟩
  have carried : (observingMachine loopbackPlatform).Meets (Carried loopbackPlatform 0)
      ⟨.new 1700000000, start, [], []⟩ overtaking := by
    refine Machine.meets_cons_ok trivial first (Machine.meets_cons_ok (fun watching => absurd watching idle) resolved
      (Machine.meets_cons_ok (fun watching => absurd watching waiting) established
      (Machine.meets_cons_ok trivial second (Machine.meets_cons_ok trivial third
      (Machine.meets_cons_ok ?_ arrives5 (Machine.meets_cons_ok ?_ arrives6
      (Machine.meets_cons_ok trivial fourth ⟨?_, fun _ _ => trivial⟩)))))))
    · intro _ sent h found hears
      cases sent5.symm.trans found
      exact content_carries hears rfl rfl rfl rfl rfl clock5.symm (by rw [clock5]; decide) (by decide)
        (Or.inr (by rw [none5]; exact List.isChain_nil))
    · intro _ sent h found hears
      cases sent6.symm.trans found
      exact content_carries hears rfl rfl rfl rfl rfl clock6.symm (by rw [clock6]; decide) (by decide)
        (Or.inl (by rw [last6]; decide))
    · intro _ sent h found hears
      cases sent8.symm.trans found
      exact content_carries hears rfl rfl rfl rfl rfl clock8.symm (by rw [clock8]; decide) (by decide)
        (Or.inl (by rw [last8]; decide))
  have fresh : observingGet.Fresh := ⟨rfl, rfl, rfl, rfl, rfl, rfl, rfl⟩
  exact (observing_shownInOrder fresh rfl rfl started 1700000000 (overtaking ++ []) carried).reached finished

end Webthings.Network
