import Webthings.Evcoap.RegistryInvariant

namespace Webthings.Evcoap
open Webthings.Memory
open Webthings.Transition

/-- A GET whose callback can still register its source; `since` is the identity of the first observer that was created
after it had arrived, and `called` tells that the callback has registered it. -/
structure PendingGet where
  flow : EcFlow
  since : Nat
  called : Bool

/-- The registry with the requests that have arrived. -/
structure Registrations where
  reg : Registry
  gets : List PendingGet

def Registrations.empty : Registrations := ⟨Registry.empty, []⟩

/-- What else happens to the registry, which adds no observer. -/
inductive Withdrawal where
  | rem (flow : EcFlow)
  | canceledByRst (conn : EcConn) (mid : UInt16)
  | round (op : ObservationPtr) (env : RoundEnv)

def Withdrawal.event : Withdrawal → RegistryEvent
  | .rem flow => .rem flow
  | .canceledByRst conn mid => .canceledByRst conn mid
  | .round op env => .round op env

/-- What can happen: a GET arrives and its callback runs at once, the callback of one that waits runs again, or observers
are withdrawn; `call` is the call of `ec_add_observer` that the callback makes, if any. -/
inductive RegistrationEvent where
  | get (flow : EcFlow) (call : Option ObserveArgs)
  | rescheduled (id : Nat) (call : Option ObserveArgs)
  | withdrawal (event : Withdrawal)

/-- The callback of a request registers its source, once at most. -/
def PendingGet.call (reg : Registry) (get : PendingGet) (args : Option ObserveArgs) :
    Except EcFault (Registry × PendingGet) :=
  match args with
  | none => .ok (reg, get)
  | some args =>
      if get.called then .ok (reg, get)
      else (reg.ecAddObserver get.flow args).map fun added => (added.1, {get with called := true})

/-- A GET from an address of an unknown family gets no server; any other one cancels what its source observes first. -/
def registrationStep (platform : Platform) (s : Registrations) (event : RegistrationEvent) :
    Except EcFault Registrations :=
  match event with
  | .get flow call =>
      if (ecNetSocklen flow.conn.peer).isNone then .ok s
      else
        match s.reg.ecObserveCanceledByGet {flow with method := .get} with
        | .error fault => .error fault
        | .ok reg =>
            (PendingGet.call reg ⟨flow, reg.observers.next, false⟩ call).map fun called =>
              ⟨called.1, s.gets ++ [called.2]⟩
  | .rescheduled id call =>
      match s.gets[id]? with
      | none => .ok s
      | some get => (get.call s.reg call).map fun called => ⟨called.1, s.gets.set id called.2⟩
  | .withdrawal event => (registryStep platform s.reg event.event).map fun reg => {s with reg := reg}

def registrationMachine (platform : Platform) : Machine Registrations RegistrationEvent EcFault :=
  ⟨registrationStep platform⟩

/-- No two observers of an observation have the same source. -/
def Registry.UniqueSources (reg : Registry) : Prop :=
  ∀ op obs, reg.observations.cells op = some obs → ∀ vp ∈ obs.observers, ∀ wp ∈ obs.observers, ∀ ovr ovr',
    reg.observers.cells vp = some ovr → reg.observers.cells wp = some ovr' → ovr.conn.peer = ovr'.conn.peer → vp = wp

/-- What keeps the sources unique: no observation links an observer that is yet to be created, and no two linked
observations have the same URL. -/
structure Registry.Separate (reg : Registry) : Prop where
  unique : reg.UniqueSources
  born : ∀ op obs, reg.observations.cells op = some obs → ∀ vp ∈ obs.observers, vp.id < reg.observers.next
  urls : ∀ op ∈ reg.observing, ∀ op' ∈ reg.observing, ∀ obs obs', reg.observations.cells op = some obs →
    reg.observations.cells op' = some obs' → asciiStrcaseEqual obs.uri obs'.uri = true → op = op'

/-- The source of a request observes its URL since the request has arrived, if at all. -/
def PendingGet.Cancelled (get : PendingGet) (reg : Registry) : Prop :=
  get.since ≤ reg.observers.next ∧
    ∀ op ∈ reg.observing, ∀ obs, reg.observations.cells op = some obs →
      asciiStrcaseEqual obs.uri get.flow.urlstr = true → ∀ vp ∈ obs.observers, ∀ ovr,
        reg.observers.cells vp = some ovr → ovr.conn.peer = get.flow.conn.peer → get.since ≤ vp.id

/-- A registry has nothing that another one has not, apart from what belongs to the notifications. -/
structure Registry.Within (next reg : Registry) : Prop where
  later : reg.observers.next ≤ next.observers.next
  observing : ∀ op ∈ next.observing, op ∈ reg.observing
  observations : ∀ op obs', next.observations.cells op = some obs' →
    ∃ obs, reg.observations.cells op = some obs ∧ obs'.uri = obs.uri ∧ ∀ vp ∈ obs'.observers, vp ∈ obs.observers
  observers : ∀ vp ovr', next.observers.cells vp = some ovr' →
    ∃ ovr, reg.observers.cells vp = some ovr ∧ ovr'.conn = ovr.conn

theorem Registry.Within.refl (reg : Registry) : reg.Within reg where
  later := Nat.le_refl _
  observing := fun _ member => member
  observations := fun _ obs found => ⟨obs, found, rfl, fun _ member => member⟩
  observers := fun _ ovr found => ⟨ovr, found, rfl⟩

theorem Registry.Within.trans {last next reg : Registry} (second : last.Within next) (first : next.Within reg) :
    last.Within reg where
  later := Nat.le_trans first.later second.later
  observing := fun op member => first.observing op (second.observing op member)
  observations := by
    intro op obs found
    obtain ⟨middle, there, uri, observers⟩ := second.observations op obs found
    obtain ⟨start, here, uri', observers'⟩ := first.observations op middle there
    exact ⟨start, here, uri.trans uri', fun vp member => observers' vp (observers vp member)⟩
  observers := by
    intro vp ovr found
    obtain ⟨middle, there, conn⟩ := second.observers vp ovr found
    obtain ⟨start, here, conn'⟩ := first.observers vp middle there
    exact ⟨start, here, conn.trans conn'⟩

theorem Registry.Within.unique {next reg : Registry} (within : next.Within reg) (unique : reg.UniqueSources) :
    next.UniqueSources := by
  intro op obs found vp member wp member' ovr ovr' live live' same
  obtain ⟨before, there, _, observers⟩ := within.observations op obs found
  obtain ⟨first, here, conn⟩ := within.observers vp ovr live
  obtain ⟨second, here', conn'⟩ := within.observers wp ovr' live'
  exact unique op before there vp (observers vp member) wp (observers wp member') first second here here'
    (by rw [← conn, ← conn', same])

theorem Registry.Within.separate {next reg : Registry} (within : next.Within reg) (separate : reg.Separate) :
    next.Separate where
  unique := within.unique separate.unique
  born := by
    intro op obs found vp member
    obtain ⟨before, there, _, observers⟩ := within.observations op obs found
    exact Nat.lt_of_lt_of_le (separate.born op before there vp (observers vp member)) within.later
  urls := by
    intro op linked op' linked' obs obs' found found' same
    obtain ⟨before, there, uri, _⟩ := within.observations op obs found
    obtain ⟨before', there', uri', _⟩ := within.observations op' obs' found'
    exact separate.urls op (within.observing op linked) op' (within.observing op' linked') before before' there there'
      (by rw [← uri, ← uri', same])

theorem Registry.Within.cancelled {next reg : Registry} (within : next.Within reg) {get : PendingGet}
    (cancelled : get.Cancelled reg) : get.Cancelled next := by
  refine ⟨Nat.le_trans cancelled.1 within.later, ?_⟩
  intro op linked obs found spelled vp member ovr live source
  obtain ⟨before, there, uri, observers⟩ := within.observations op obs found
  obtain ⟨old, here, conn⟩ := within.observers vp ovr live
  exact cancelled.2 op (within.observing op linked) before there (by rw [← uri, spelled]) vp (observers vp member) old
    here (by rw [← conn, source])

section Within

variable {reg : Registry} {op : ObservationPtr} {vp : ObserverPtr}

/-- A change of an observation that keeps its URL and adds no observer stays within. -/
theorem Registry.modify_within (reg : Registry) (op : ObservationPtr) (f : ObservationCell → ObservationCell)
    (uri : ∀ obs, (f obs).uri = obs.uri) (observers : ∀ obs, reg.observations.cells op = some obs →
      ∀ vp ∈ (f obs).observers, vp ∈ obs.observers) :
    ({reg with observations := reg.observations.modify op f} : Registry).Within reg where
  later := Nat.le_refl _
  observing := fun _ member => member
  observers := fun _ ovr found => ⟨ovr, found, rfl⟩
  observations := by
    intro q obs' found
    dsimp only at found
    rw [Heap.modify_cells] at found
    obtain ⟨obs, there, same⟩ := Option.map_eq_some_iff.mp found
    subst same
    refine ⟨obs, there, ?_⟩
    split
    · rename_i here
      subst here
      exact ⟨uri obs, observers obs there⟩
    · exact ⟨rfl, fun _ member => member⟩

theorem Registry.setNotify_within (reg : Registry) (op : ObservationPtr) (pending : Bool) :
    (reg.setNotify op pending).Within reg :=
  reg.modify_within op _ (fun _ => rfl) fun _ _ _ member => member

theorem Registry.saveLastMid_within (reg : Registry) (vp : ObserverPtr) (mid : UInt16) :
    (reg.saveLastMid vp mid).Within reg where
  later := Nat.le_refl _
  observing := fun _ member => member
  observations := fun _ obs found => ⟨obs, found, rfl, fun _ member => member⟩
  observers := by
    intro wp ovr' found
    rw [reg.saveLastMid_cells] at found
    obtain ⟨ovr, there, same⟩ := Option.map_eq_some_iff.mp found
    subst same
    refine ⟨ovr, there, ?_⟩
    split <;> rfl

/-- Memory that is freed, and pointers to it that are dropped, stay within. -/
theorem Registry.free_within (reg : Registry) (op : ObservationPtr) (vp : ObserverPtr) :
    (⟨reg.observing.erase op, reg.observations.free op, reg.observers⟩ : Registry).Within reg ∧
      ({reg with observers := reg.observers.free vp} : Registry).Within reg ∧
      ({reg with observations := reg.observations.free op} : Registry).Within reg := by
  have observations : ∀ q obs', (reg.observations.free op).cells q = some obs' →
      reg.observations.cells q = some obs' := by
    intro q obs' found
    by_cases here : q = op
    · subst here
      rw [Heap.free_self] at found
      cases found
    · rwa [Heap.free_other _ here] at found
  refine ⟨⟨Nat.le_refl _, fun _ member => List.mem_of_mem_erase member, ?_, fun _ ovr found => ⟨ovr, found, rfl⟩⟩,
    ⟨Nat.le_refl _, fun _ member => member, fun _ obs found => ⟨obs, found, rfl, fun _ member => member⟩, ?_⟩,
    ⟨Nat.le_refl _, fun _ member => member, ?_, fun _ ovr found => ⟨ovr, found, rfl⟩⟩⟩
  · exact fun q obs found => ⟨obs, observations q obs found, rfl, fun _ member => member⟩
  · intro wp ovr' found
    by_cases here : wp = vp
    · subst here
      change (reg.observers.free wp).cells wp = some ovr' at found
      rw [Heap.free_self] at found
      cases found
    · refine ⟨ovr', ?_, rfl⟩
      change (reg.observers.free vp).cells wp = some ovr' at found
      rwa [Heap.free_other _ here] at found
  · exact fun q obs found => ⟨obs, observations q obs found, rfl, fun _ member => member⟩

theorem Registry.without_within {obs : ObservationCell} (found : reg.observations.cells op = some obs)
    (vp : ObserverPtr) : (reg.without op vp (obs.observers.erase vp)).Within reg := by
  let left := obs.observers.erase vp
  let emptied : Registry := {reg with observations := reg.observations.modify op fun obs => {obs with observers := left}}
  have shrunk : emptied.Within reg := reg.modify_within op _ (fun _ => rfl) fun obs' there wp member => by
    rw [found] at there
    cases there
    exact List.mem_of_mem_erase member
  let freed : Registry := {emptied with observers := emptied.observers.free vp}
  have released : freed.Within reg := (emptied.free_within op vp).2.1.trans shrunk
  change (if left = [] then (⟨freed.observing.erase op, freed.observations.free op, freed.observers⟩ : Registry)
    else freed).Within reg
  split
  · exact (freed.free_within op vp).1.trans released
  · exact released

/-- A removal that has come to an end has removed an observer from an observation in memory. -/
theorem Registry.ecObserverRemove_done {removed : Registry × Bool}
    (done : reg.ecObserverRemove op vp = .ok removed) :
    ∃ obs, reg.observations.cells op = some obs ∧ removed.1 = reg.without op vp (obs.observers.erase vp) := by
  cases found : reg.observations.cells op with
  | none =>
      rw [Registry.ecObserverRemove, found] at done
      cases done
  | some obs =>
      cases live : reg.observers.cells vp with
      | none =>
          rw [Registry.ecObserverRemove, found, live] at done
          cases done
      | some ovr =>
          rw [Registry.ecObserverRemove_live found live] at done
          cases done
          exact ⟨obs, rfl, rfl⟩

/-- A source is removed from nothing, or from one observation. -/
theorem Registry.removeSource_done {flow : EcFlow} {next : Registry} (done : reg.removeSource flow = .ok next) :
    next = reg ∨ ∃ op vp obs, reg.observations.cells op = some obs ∧
      next = reg.without op vp (obs.observers.erase vp) := by
  rcases Registry.removeSource_cases done with ⟨_, same⟩ | ⟨op, _, _, _, ⟨_, same⟩ | ⟨vp, last, _, removed⟩⟩
  · exact Or.inl same
  · exact Or.inl same
  · obtain ⟨obs, found, left⟩ := Registry.ecObserverRemove_done removed
    exact Or.inr ⟨op, vp, obs, found, left⟩

/-- A reset removes nobody, or one observer. -/
theorem Registry.canceledByRst_done {conn : EcConn} {mid : UInt16} {result : Registry × Bool}
    (done : reg.ecObserveCanceledByRst conn mid = .ok result) :
    result.1 = reg ∨ ∃ op vp obs, reg.observations.cells op = some obs ∧
      result.1 = reg.without op vp (obs.observers.erase vp) := by
  unfold Registry.ecObserveCanceledByRst at done
  split at done
  · cases done
  · cases done
    exact Or.inl rfl
  · obtain ⟨removed, finished, same⟩ := map_ok done
    obtain ⟨obs, found, left⟩ := Registry.ecObserverRemove_done finished
    rw [← same]
    exact Or.inr ⟨_, _, obs, found, left⟩

theorem Registry.removeSource_within {flow : EcFlow} {next : Registry} (done : reg.removeSource flow = .ok next) :
    next.Within reg := by
  rcases Registry.removeSource_done done with same | ⟨op, vp, obs, found, left⟩
  · rw [same]
    exact Registry.Within.refl reg
  · rw [left]
    exact Registry.without_within found vp

theorem Registry.canceledByRst_within {conn : EcConn} {mid : UInt16} {result : Registry × Bool}
    (done : reg.ecObserveCanceledByRst conn mid = .ok result) : result.1.Within reg := by
  rcases Registry.canceledByRst_done done with same | ⟨op, vp, obs, found, left⟩
  · rw [same]
    exact Registry.Within.refl reg
  · rw [left]
    exact Registry.without_within found vp

theorem ecObCbLoop_within {platform : Platform} {env : RoundEnv} {cnt : UInt16} (list : List ObserverPtr)
    {round final : Round} (done : ecObCbLoop platform env op cnt list round = .ok final) :
    final.reg.Within round.reg := by
  induction list generalizing round with
  | nil =>
      cases done
      exact Registry.Within.refl _
  | cons vp rest ih =>
      obtain ⟨_, _, ⟨_, _, later⟩ | ⟨_, ended⟩⟩ := ecObCbLoop_turn platform cnt rest done
      · exact (ih later).trans (round.reg.saveLastMid_within vp _)
      · rw [← ended]
        exact Registry.Within.refl _

theorem ecObCb_within {platform : Platform} {env : RoundEnv} {round : Round}
    (done : ecObCb platform env reg op = .ok round) : round.reg.Within reg := by
  rcases ecObCb_done platform done with ⟨unchanged, _⟩ | ⟨cnt, obs, last, _, walked, finished⟩
  · rw [unchanged]
    exact Registry.Within.refl reg
  · have within : last.reg.Within reg := ecObCbLoop_within obs.observers walked
    obtain ⟨_, kept | started⟩ := Round.rearm_done finished
    · rw [kept]
      exact within
    · rw [started]
      exact (last.reg.setNotify_within op true).trans within

/-- Whatever withdraws observers adds none. -/
theorem withdrawal_within {platform : Platform} {event : Withdrawal} {next : Registry}
    (done : registryStep platform reg event.event = .ok next) : next.Within reg := by
  cases event with
  | rem flow => exact Registry.removeSource_within done
  | canceledByRst conn mid =>
      obtain ⟨result, finished, same⟩ := map_ok done
      rw [← same]
      exact Registry.canceledByRst_within finished
  | round op env =>
      change reg.timeout platform env op = .ok next at done
      unfold Registry.timeout at done
      split at done
      · cases done
        exact Registry.Within.refl reg
      · split at done
        · cases done
          exact Registry.Within.refl reg
        · obtain ⟨round, finished, same⟩ := map_ok done
          rw [← same]
          exact (ecObCb_within finished).trans (reg.setNotify_within op false)

end Within

theorem asciiStrcaseEqual_common {s t u : List UInt8} (first : asciiStrcaseEqual s u = true)
    (second : asciiStrcaseEqual t u = true) : asciiStrcaseEqual s t = true := by
  unfold asciiStrcaseEqual at *
  simp only [beq_iff_eq] at *
  rw [first, second]

theorem asciiStrcaseEqual_comm (s t : List UInt8) : asciiStrcaseEqual s t = asciiStrcaseEqual t s :=
  Bool.beq_comm

section Additions

variable {reg : Registry} {op : ObservationPtr}

/-- What an observation was before an observer was added to one of them. -/
theorem Registry.withObserver_cells {ovr : ObserverCell} {q : ObservationPtr} {obs' : ObservationCell}
    (found : (reg.withObserver op ovr).observations.cells q = some obs') :
    ∃ obs, reg.observations.cells q = some obs ∧ obs'.uri = obs.uri ∧ obs'.maxAge = obs.maxAge ∧
      obs'.notify = obs.notify ∧
      (obs'.observers = obs.observers ∨ q = op ∧ obs'.observers = obs.observers ++ [reg.observers.top]) := by
  unfold Registry.withObserver at found
  dsimp only at found
  rw [Heap.modify_cells] at found
  obtain ⟨obs, there, same⟩ := Option.map_eq_some_iff.mp found
  subst same
  refine ⟨obs, there, ?_⟩
  by_cases here : q = op
  · rw [if_pos here]
    exact ⟨rfl, rfl, rfl, Or.inr ⟨here, rfl⟩⟩
  · rw [if_neg here]
    exact ⟨rfl, rfl, rfl, Or.inl rfl⟩

/-- The observers of an observation after one was added are those from before and the new one. -/
theorem Registry.withObserver_members {ovr : ObserverCell} {q : ObservationPtr} {obs' : ObservationCell}
    (found : (reg.withObserver op ovr).observations.cells q = some obs') :
    ∃ obs, reg.observations.cells q = some obs ∧ obs'.uri = obs.uri ∧ obs'.notify = obs.notify ∧
      ∀ vp ∈ obs'.observers, vp ∈ obs.observers ∨ q = op ∧ vp = reg.observers.top := by
  obtain ⟨obs, there, uri, _, notify, same | ⟨here, grown⟩⟩ := Registry.withObserver_cells found
  · refine ⟨obs, there, uri, notify, fun vp member => Or.inl ?_⟩
    rwa [same] at member
  · refine ⟨obs, there, uri, notify, fun vp member => ?_⟩
    rw [grown] at member
    exact (List.mem_append.mp member).imp id fun new => ⟨here, List.mem_singleton.mp new⟩

/-- What an observation was before another one was opened. -/
theorem Registry.withObservation_cells {new : ObservationCell} {q : ObservationPtr} {obs : ObservationCell}
    (found : (reg.withObservation new).observations.cells q = some obs) :
    q = reg.observations.top ∧ obs = {new with notify := true} ∨
      q ≠ reg.observations.top ∧ reg.observations.cells q = some obs := by
  by_cases here : q = reg.observations.top
  · left
    rw [here, reg.withObservation_top] at found
    exact ⟨here, (Option.some.inj found).symm⟩
  · right
    rw [reg.withObservation_other new here] at found
    exact ⟨here, found⟩

/-- An observation with an observer is not a new one, which has none. -/
theorem Registry.withObservation_observed {new : ObservationCell} (childless : new.observers = []) {q : ObservationPtr}
    {obs : ObservationCell} (found : (reg.withObservation new).observations.cells q = some obs) {vp : ObserverPtr}
    (member : vp ∈ obs.observers) : q ≠ reg.observations.top ∧ reg.observations.cells q = some obs := by
  rcases Registry.withObservation_cells found with ⟨_, same⟩ | earlier
  · rw [same] at member
    dsimp only at member
    rw [childless] at member
    cases member
  · exact earlier

/-- An observer that was there before is not the new one. -/
theorem Registry.Separate.old (separate : reg.Separate) {obs : ObservationCell}
    (found : reg.observations.cells op = some obs) {vp : ObserverPtr} (member : vp ∈ obs.observers)
    (ovr : ObserverCell) : vp ≠ reg.observers.top ∧ (reg.observers.alloc ovr).cells vp = reg.observers.cells vp := by
  have other : vp ≠ reg.observers.top := by
    rintro rfl
    exact absurd (separate.born op obs found _ member) (Nat.lt_irrefl reg.observers.next)
  exact ⟨other, Heap.alloc_other _ _ other⟩

/-- An observer from a new source keeps the sources unique. -/
theorem Registry.Separate.withObserver (separate : reg.Separate) {ovr : ObserverCell}
    (alone : ∀ obs, reg.observations.cells op = some obs → ∀ vp ∈ obs.observers, ∀ other,
      reg.observers.cells vp = some other → other.conn.peer ≠ ovr.conn.peer) :
    (reg.withObserver op ovr).Separate where
  unique := by
    intro q obs' found vp member wp member' first second live live' same
    obtain ⟨obs, there, _, _, observers⟩ := Registry.withObserver_members found
    change (reg.observers.alloc ovr).cells vp = some first at live
    change (reg.observers.alloc ovr).cells wp = some second at live'
    rcases observers vp member with old | ⟨rfl, rfl⟩
    · rw [(separate.old there old ovr).2] at live
      rcases observers wp member' with old' | ⟨rfl, rfl⟩
      · rw [(separate.old there old' ovr).2] at live'
        exact separate.unique q obs there vp old wp old' first second live live' same
      · rw [Heap.alloc_top] at live'
        cases live'
        exact absurd same (alone obs there vp old first live)
    · rw [Heap.alloc_top] at live
      cases live
      rcases observers wp member' with old' | ⟨_, rfl⟩
      · rw [(separate.old there old' ovr).2] at live'
        exact absurd same.symm (alone obs there wp old' second live')
      · rfl
  born := by
    intro q obs' found vp member
    obtain ⟨obs, there, _, _, observers⟩ := Registry.withObserver_members found
    change vp.id < reg.observers.next + 1
    rcases observers vp member with old | ⟨_, rfl⟩
    · exact Nat.lt_succ_of_lt (separate.born q obs there vp old)
    · exact Nat.lt_succ_self reg.observers.next
  urls := by
    intro q linked q' linked' obs obs' found found' same
    obtain ⟨before, there, uri, _⟩ := Registry.withObserver_members found
    obtain ⟨before', there', uri', _⟩ := Registry.withObserver_members found'
    exact separate.urls q linked q' linked' before before' there there' (by rw [← uri, ← uri', same])

/-- A new observer is younger than every request. -/
theorem PendingGet.Cancelled.withObserver {get : PendingGet} (cancelled : get.Cancelled reg) (separate : reg.Separate)
    (op : ObservationPtr) (ovr : ObserverCell) : get.Cancelled (reg.withObserver op ovr) := by
  refine ⟨Nat.le_succ_of_le cancelled.1, ?_⟩
  intro q linked obs' found spelled vp member other live source
  obtain ⟨obs, there, uri, _, observers⟩ := Registry.withObserver_members found
  change (reg.observers.alloc ovr).cells vp = some other at live
  rcases observers vp member with old | ⟨_, rfl⟩
  · rw [(separate.old there old ovr).2] at live
    exact cancelled.2 q linked obs there (by rw [← uri, spelled]) vp old other live source
  · exact cancelled.1

/-- A new observation has a URL of its own when the search has found none. -/
theorem Registry.Separate.withObservation (separate : reg.Separate) {new : ObservationCell}
    (childless : new.observers = []) (searched : reg.ecObservationSearch new.uri = .ok none) :
    (reg.withObservation new).Separate := by
  have linked : ∀ q ∈ (reg.withObservation new).observing, q ≠ reg.observations.top → q ∈ reg.observing := by
    intro q member other
    rcases List.mem_append.mp member with earlier | last
    · exact earlier
    · exact absurd (List.mem_singleton.mp last) other
  have unspelled : ∀ q ∈ reg.observing, ∀ obs, reg.observations.cells q = some obs →
      asciiStrcaseEqual obs.uri new.uri ≠ true := by
    intro q member obs found spelled
    obtain ⟨cell, there, unequal⟩ := reg.observations.search_none searched q member
    rw [found] at there
    cases there
    rw [spelled] at unequal
    cases unequal
  constructor
  · intro q obs found vp member wp member' first second live live' same
    have there := (Registry.withObservation_observed childless found member).2
    exact separate.unique q obs there vp member wp member' first second live live' same
  · intro q obs found vp member
    exact separate.born q obs (Registry.withObservation_observed childless found member).2 vp member
  · intro q member q' member' obs obs' found found' same
    rcases Registry.withObservation_cells found with ⟨here, new⟩ | ⟨other, there⟩
    · rcases Registry.withObservation_cells found' with ⟨here', _⟩ | ⟨other', there'⟩
      · rw [here, here']
      · refine absurd ?_ (unspelled q' (linked q' member' other') obs' there')
        rw [new, asciiStrcaseEqual_comm] at same
        exact same
    · rcases Registry.withObservation_cells found' with ⟨here', new'⟩ | ⟨other', there'⟩
      · refine absurd ?_ (unspelled q (linked q member other) obs there)
        rw [new'] at same
        exact same
      · exact separate.urls q (linked q member other) q' (linked q' member' other') obs obs' there there' same

/-- A new observation has no observers yet. -/
theorem PendingGet.Cancelled.withObservation {get : PendingGet} (cancelled : get.Cancelled reg)
    {new : ObservationCell} (childless : new.observers = []) : get.Cancelled (reg.withObservation new) := by
  refine ⟨cancelled.1, ?_⟩
  intro q linked obs found spelled vp member
  obtain ⟨other, there⟩ := Registry.withObservation_observed childless found member
  have earlier : q ∈ reg.observing := by
    rcases List.mem_append.mp linked with earlier | last
    · exact earlier
    · exact absurd (List.mem_singleton.mp last) other
  exact cancelled.2 q earlier obs there spelled vp member

/-- The observers that a request finds have all come after it, so those of its source that it finds are its rivals. -/
def PendingGet.Rival (get : PendingGet) (reg : Registry) : Prop :=
  ∃ op, reg.ecObservationSearch get.flow.urlstr = .ok (some op) ∧ ∃ obs, reg.observations.cells op = some obs ∧
    ∃ vp ∈ obs.observers, get.since ≤ vp.id ∧
      ∃ ovr, reg.observers.cells vp = some ovr ∧ ovr.conn.peer = get.flow.conn.peer

/-- What the registration of an observer makes of a registry: nothing, an observer of an observation that is there or
of a new one, or a new observation that is freed again. -/
inductive Registry.Adds (reg : Registry) (flow : EcFlow) (args : ObserveArgs) : Registry → Prop where
  | refused (observations : Heap ObservationCell) (same : observations.cells = reg.observations.cells) :
      reg.Adds flow args {reg with observations := observations}
  | joined (op : ObservationPtr) (ovr : ObserverCell) (given : args.cb = true)
      (searched : reg.ecObservationSearch flow.urlstr = .ok (some op)) (created : ecObserverNew flow args = some ovr) :
      reg.Adds flow args (reg.withObserver op ovr)
  | opened (new : ObservationCell) (ovr : ObserverCell) (searched : reg.ecObservationSearch flow.urlstr = .ok none)
      (made : ecObservationNew flow.urlstr args = some new) :
      reg.Adds flow args ((reg.withObservation new).withObserver reg.observations.top ovr)
  | abandoned (new : ObservationCell) (searched : reg.ecObservationSearch flow.urlstr = .ok none)
      (made : ecObservationNew flow.urlstr args = some new) :
      reg.Adds flow args {reg.withObservation new with
        observations := (reg.withObservation new).observations.free reg.observations.top}

/-- A registration that succeeds has created an observer. -/
theorem Registry.ecAddObserver_adds {flow : EcFlow} {args : ObserveArgs} {added : Registry × Int}
    (done : reg.ecAddObserver flow args = .ok added) :
    reg.Adds flow args added.1 ∧ (added.2 = 0 → reg.observers.next < added.1.observers.next) := by
  unfold Registry.ecAddObserver at done
  by_cases given : args.cb = false
  · rw [if_pos given] at done
    cases done
    exact ⟨.refused reg.observations rfl, fun succeeded => by cases succeeded⟩
  · rw [if_neg given] at done
    cases searched : reg.ecObservationSearch flow.urlstr with
    | error fault =>
        rw [searched] at done
        cases done
    | ok result =>
        rw [searched] at done
        cases result with
        | some op =>
            dsimp only at done
            cases created : ecObserverNew flow args with
            | none =>
                rw [Registry.ecObserverAdd, created] at done
                cases done
                exact ⟨.refused reg.observations rfl, fun succeeded => by cases succeeded⟩
            | some ovr =>
                obtain ⟨_, obs, found, _⟩ := reg.observations.search_some searched
                rw [Registry.ecObserverAdd_ok created found] at done
                cases done
                exact ⟨.joined op ovr (by simpa using given) searched created, fun _ => Nat.lt_succ_self _⟩
        | none =>
            dsimp only at done
            by_cases opens : (ecObservationNew flow.urlstr args).isSome ∧ args.countdown = true
            · obtain ⟨new, made⟩ := Option.isSome_iff_exists.mp opens.1
              rw [reg.ecObservationAdd_opens made opens.2] at done
              dsimp only at done
              cases created : ecObserverNew flow args with
              | none =>
                  rw [Registry.ecObserverAdd, created] at done
                  dsimp only at done
                  rw [if_pos (by decide), Registry.ecObservationFree, reg.withObservation_top] at done
                  dsimp only at done
                  rw [(ecObservationNew_made made).2] at done
                  cases done
                  exact ⟨.abandoned new searched made, fun succeeded => by cases succeeded⟩
              | some ovr =>
                  rw [Registry.ecObserverAdd_ok created (reg.withObservation_top new)] at done
                  dsimp only at done
                  rw [if_neg (by decide)] at done
                  cases done
                  exact ⟨.opened new ovr searched made, fun _ => Nat.lt_succ_self _⟩
            · obtain ⟨observations, refused, same⟩ := reg.ecObservationAdd_refused opens
              rw [refused] at done
              cases done
              exact ⟨.refused observations same, fun succeeded => by cases succeeded⟩

/-- A registration keeps the sources unique when the request has no rival or its observer cannot be created. -/
theorem PendingGet.register (separate : reg.Separate) {get : PendingGet} {args : ObserveArgs}
    {added : Registry × Int} (cancelled : get.Cancelled reg)
    (alone : args.cb = true → (ecObserverNew get.flow args).isSome → ¬ get.Rival reg)
    (done : reg.ecAddObserver get.flow args = .ok added) :
    added.1.Separate ∧ ∀ other : PendingGet, other.Cancelled reg → other.Cancelled added.1 := by
  obtain ⟨next, rc⟩ := added
  have adds : reg.Adds get.flow args next := (Registry.ecAddObserver_adds done).1
  dsimp only
  cases adds with
  | refused observations same =>
      have within : Registry.Within {reg with observations := observations} reg := by
        refine ⟨Nat.le_refl _, fun _ member => member, fun q obs found => ?_, fun _ ovr found => ⟨ovr, found, rfl⟩⟩
        change observations.cells q = some obs at found
        rw [same] at found
        exact ⟨obs, found, rfl, fun _ member => member⟩
      exact ⟨within.separate separate, fun other old => within.cancelled old⟩
  | joined op ovr given searched created =>
      obtain ⟨linked, obs, found, spelled⟩ := reg.observations.search_some searched
      refine ⟨separate.withObserver ?_, fun other old => old.withObserver separate op ovr⟩
      intro obs' there vp member other live same
      rw [found] at there
      cases there
      have source := same.trans (ecObserverNew_flow created).1
      refine alone given (by rw [created]; rfl) ⟨op, searched, obs, found, vp, member, ?_⟩
      exact ⟨cancelled.2 op linked obs found spelled vp member other live source, other, live, source⟩
  | opened new ovr searched made =>
      obtain ⟨uri, childless⟩ := ecObservationNew_made made
      have opened := separate.withObservation childless (by rw [uri]; exact searched)
      refine ⟨opened.withObserver ?_, fun other old =>
        (old.withObservation childless).withObserver opened reg.observations.top ovr⟩
      intro obs' there vp member
      rw [reg.withObservation_top] at there
      cases there
      rw [childless] at member
      cases member
  | abandoned new searched made =>
      obtain ⟨uri, childless⟩ := ecObservationNew_made made
      have opened := separate.withObservation childless (by rw [uri]; exact searched)
      have freed := ((reg.withObservation new).free_within reg.observations.top ⟨0⟩).2.2
      exact ⟨freed.separate opened, fun other old => freed.cancelled (old.withObservation childless)⟩

/-- A request of a rival's source adds an observer with the same source. -/
theorem PendingGet.register_rival {get : PendingGet} {args : ObserveArgs} (given : args.cb = true)
    (created : (ecObserverNew get.flow args).isSome) (rival : get.Rival reg) :
    ∃ added, reg.ecAddObserver get.flow args = .ok added ∧ ¬ added.1.UniqueSources := by
  obtain ⟨op, searched, obs, found, vp, member, _, other, live, source⟩ := rival
  obtain ⟨ovr, created⟩ := Option.isSome_iff_exists.mp created
  refine ⟨(reg.withObserver op ovr, 0), ?_, fun unique => ?_⟩
  · rw [Registry.ecAddObserver, if_neg (by simp [given]), searched]
    exact Registry.ecObserverAdd_ok created found
  · have grown : (reg.withObserver op ovr).observations.cells op =
        some {obs with observers := obs.observers ++ [reg.observers.top]} := by
      unfold Registry.withObserver
      rw [Heap.modify_self, found]
      rfl
    have still : (reg.withObserver op ovr).observers.cells vp = some other := reg.observers.alloc_old ovr live
    have same := unique op _ grown vp (List.mem_append_left _ member) reg.observers.top
      (List.mem_append_right _ (List.mem_singleton_self _)) other ovr still (reg.observers.alloc_top ovr)
      (source.trans (ecObserverNew_flow created).1.symm)
    exact reg.observers.ne_top live same

/-- After its arrival a request finds no observer of its source for its URL. -/
theorem canceledByGet_cancels (separate : reg.Separate) {flow : EcFlow} (known : (ecNetSocklen flow.conn.peer).isSome)
    {next : Registry} (done : reg.ecObserveCanceledByGet {flow with method := .get} = .ok next) :
    next.Within reg ∧ PendingGet.Cancelled ⟨flow, next.observers.next, false⟩ next := by
  unfold Registry.ecObserveCanceledByGet at done
  rw [if_neg (by simp)] at done
  have within := Registry.removeSource_within done
  obtain ⟨length, known⟩ := Option.isSome_iff_exists.mp known
  refine ⟨within, Nat.le_refl _, ?_⟩
  intro op linked obs found spelled vp member ovr live source
  exfalso
  obtain ⟨before, there, uri, observers⟩ := within.observations op obs found
  obtain ⟨old, here, conn⟩ := within.observers vp ovr live
  have matched : ∀ cell : ObserverCell, cell.conn.peer = flow.conn.peer ↔
      observerMatch flow.conn 0 cell.toEcObserver = true := by
    intro cell
    have compared : observerMatch flow.conn 0 cell.toEcObserver = (flow.conn.peer == cell.conn.peer) := by
      simp [observerMatch, ecSourceMatch, known]
    rw [compared, beq_iff_eq]
    exact eq_comm
  rw [conn] at source
  rcases Registry.removeSource_cases done with ⟨searched, _⟩ | ⟨op', obs', searched, there', removal⟩
  · obtain ⟨cell, cell_found, unequal⟩ := reg.observations.search_none searched op (within.observing op linked)
    rw [there] at cell_found
    cases cell_found
    rw [← uri, spelled] at unequal
    cases unequal
  · obtain ⟨linked', cell, found', spelled'⟩ := reg.observations.search_some searched
    have sameOp : op = op' := separate.urls op (within.observing op linked) op' linked' before cell there found'
      (asciiStrcaseEqual_common (by rw [← uri]; exact spelled) spelled')
    subst sameOp
    cases there.symm.trans there'
    rcases removal with ⟨observed, _⟩ | ⟨wp, last, observed, removed⟩
    · obtain ⟨cell, cell_found, unmatched⟩ := reg.observers.search_none observed vp (observers vp member)
      rw [here] at cell_found
      cases cell_found
      rw [(matched old).mp source] at unmatched
      cases unmatched
    · obtain ⟨member', cell, cell_found, hit⟩ := reg.observers.search_some observed
      have sameVp : vp = wp := separate.unique op before there vp (observers vp member) wp member' old cell here cell_found
        (source.trans ((matched cell).mpr hit).symm)
      subst sameVp
      rw [Registry.ecObserverRemove_live there here] at removed
      cases removed
      rw [Registry.without_observers, Heap.free_self] at live
      cases live

end Additions

/-- The sources are unique, and every request that has arrived has cancelled what its source observed before. -/
structure Registrations.Orderly (s : Registrations) : Prop where
  separate : s.reg.Separate
  cancelled : ∀ get ∈ s.gets, get.Cancelled s.reg

/-- A callback that registers late has no rival: nothing that its source has registered for the same resource since the
request has arrived is still there. -/
def RegistrationEvent.Alone (s : Registrations) : RegistrationEvent → Prop
  | .rescheduled id (some args) => ∀ get, s.gets[id]? = some get → get.called = false → args.cb = true →
      (ecObserverNew get.flow args).isSome → ¬ get.Rival s.reg
  | _ => True

theorem Registrations.empty_orderly : Registrations.empty.Orderly where
  separate :=
    { unique := fun op obs found => by cases found
      born := fun op obs found => by cases found
      urls := fun op member => by cases member }
  cancelled := fun get member => by cases member

/-- The call of a callback that is alone keeps the sources unique. -/
theorem PendingGet.call_orderly {reg : Registry} (separate : reg.Separate) {get : PendingGet}
    {call : Option ObserveArgs} (cancelled : get.Cancelled reg)
    (alone : ∀ args, call = some args → get.called = false → args.cb = true → (ecObserverNew get.flow args).isSome →
      ¬ get.Rival reg)
    {called : Registry × PendingGet} (done : get.call reg call = .ok called) :
    called.1.Separate ∧ (∀ other : PendingGet, other.Cancelled reg → other.Cancelled called.1) ∧
      called.2.Cancelled called.1 := by
  unfold PendingGet.call at done
  cases call with
  | none =>
      cases done
      exact ⟨separate, fun _ old => old, cancelled⟩
  | some args =>
      dsimp only at done
      by_cases before : get.called = true
      · rw [if_pos before] at done
        cases done
        exact ⟨separate, fun _ old => old, cancelled⟩
      · rw [if_neg before] at done
        obtain ⟨added, finished, same⟩ := map_ok done
        have kept := get.register separate cancelled (alone args rfl (by simpa using before)) finished
        rw [← same]
        exact ⟨kept.1, kept.2, kept.2 get cancelled⟩

/-- A step whose callback is alone keeps the sources unique. -/
theorem registrationStep_alone {platform : Platform} {s next : Registrations} {event : RegistrationEvent}
    (orderly : s.Orderly) (alone : event.Alone s) (stepped : registrationStep platform s event = .ok next) :
    next.Orderly := by
  cases event with
  | get flow call =>
      unfold registrationStep at stepped
      dsimp only at stepped
      by_cases unknown : (ecNetSocklen flow.conn.peer).isNone = true
      · rw [if_pos unknown] at stepped
        cases stepped
        exact orderly
      · rw [if_neg unknown] at stepped
        have known : (ecNetSocklen flow.conn.peer).isSome := by simpa [Option.isSome_iff_ne_none] using unknown
        cases done : s.reg.ecObserveCanceledByGet {flow with method := .get} with
        | error fault =>
            rw [done] at stepped
            cases stepped
        | ok reg =>
            rw [done] at stepped
            obtain ⟨called, finished, same⟩ := map_ok stepped
            obtain ⟨within, cancelled⟩ := canceledByGet_cancels orderly.separate known done
            have separate := within.separate orderly.separate
            have kept := PendingGet.call_orderly separate cancelled (fun args _ _ _ _ rival => by
              obtain ⟨op, _, obs, found, vp, member, since, _⟩ := rival
              exact absurd (separate.born op obs found vp member) (Nat.not_lt.mpr since)) finished
            rw [← same]
            refine ⟨kept.1, fun get member => ?_⟩
            rcases List.mem_append.mp member with earlier | new
            · exact kept.2.1 get (within.cancelled (orderly.cancelled get earlier))
            · rw [List.mem_singleton.mp new]
              exact kept.2.2
  | rescheduled id call =>
      unfold registrationStep at stepped
      dsimp only at stepped
      cases found : s.gets[id]? with
      | none =>
          rw [found] at stepped
          cases stepped
          exact orderly
      | some get =>
          rw [found] at stepped
          obtain ⟨called, finished, same⟩ := map_ok stepped
          have member := List.mem_of_getElem? found
          have kept := PendingGet.call_orderly orderly.separate (orderly.cancelled get member) (fun args here => by
            subst here
            exact alone get found) finished
          rw [← same]
          refine ⟨kept.1, fun other member => ?_⟩
          rcases List.mem_or_eq_of_mem_set member with earlier | new
          · exact kept.2.1 other (orderly.cancelled other earlier)
          · rw [new]
            exact kept.2.2
  | withdrawal event =>
      obtain ⟨reg, finished, same⟩ := map_ok stepped
      have within := withdrawal_within finished
      rw [← same]
      exact ⟨within.separate orderly.separate, fun get member => within.cancelled (orderly.cancelled get member)⟩

/-- A step whose callback has a rival adds an observer with the same source. -/
theorem registrationStep_rival (platform : Platform) {s : Registrations} {event : RegistrationEvent}
    (rivalled : ¬ event.Alone s) :
    ∃ next, registrationStep platform s event = .ok next ∧ ¬ next.reg.UniqueSources := by
  cases event with
  | get flow call => exact absurd trivial rivalled
  | withdrawal event => exact absurd trivial rivalled
  | rescheduled id call =>
      cases call with
      | none => exact absurd trivial rivalled
      | some args =>
          have facts : ∃ get, s.gets[id]? = some get ∧ get.called = false ∧ args.cb = true ∧
              (ecObserverNew get.flow args).isSome ∧ get.Rival s.reg := by
            by_contra none
            refine rivalled fun get found uncalled given created rival => none ?_
            exact ⟨get, found, uncalled, given, created, rival⟩
          obtain ⟨get, found, uncalled, given, created, rival⟩ := facts
          obtain ⟨added, done, duplicate⟩ := PendingGet.register_rival given created rival
          refine ⟨⟨added.1, s.gets.set id {get with called := true}⟩, ?_, duplicate⟩
          unfold registrationStep
          dsimp only
          rw [found]
          dsimp only
          rw [PendingGet.call, if_neg (by simp [uncalled]), done]
          rfl

/-- In every state that a run passes through, every source observes a resource once at most, exactly when no callback of
the run registers its source after a rival. -/
theorem registrations_unique_iff (platform : Platform) (events : List RegistrationEvent) :
    (registrationMachine platform).Always (fun s => s.reg.UniqueSources) Registrations.empty events ↔
      (registrationMachine platform).Meets (fun s event => event.Alone s) Registrations.empty events := by
  refine (registrationMachine platform).always_iff_meets (fun s event => event.Alone s) (fun _ _ => True)
    Registrations.Orderly (fun s => s.reg.UniqueSources) (fun s orderly => orderly.separate.unique) ?_ ?_ events
    Registrations.empty_orderly ((registrationMachine platform).meets_true _ events)
  · intro s event orderly _
    constructor
    · exact fun alone next stepped => (registrationStep_alone orderly alone stepped).separate.unique
    · intro unique
      by_contra rivalled
      obtain ⟨next, stepped, duplicate⟩ := registrationStep_rival platform rivalled
      exact duplicate (unique next stepped)
  · exact fun s event next orderly _ alone stepped => registrationStep_alone orderly alone stepped

/-- Two GETs of one source for one resource wait, and the callbacks of both register it. -/
def twiceRegistered : List RegistrationEvent :=
  [.get (observedGet 40000) none, .get (observedGet 40000) none, .rescheduled 0 (some (observeArgs 0)),
    .rescheduled 1 (some (observeArgs 0))]

/-- The resource is observed twice by the source then. -/
theorem twiceRegistered_duplicates :
    ¬ ∀ (platform : Platform) (events : List RegistrationEvent),
      (registrationMachine platform).Always (fun s => s.reg.UniqueSources) Registrations.empty events := by
  intro claim
  have always := claim loopbackPlatform (twiceRegistered ++ [])
  have run : ∃ s, (registrationMachine loopbackPlatform).run Registrations.empty twiceRegistered = .ok s ∧
      (∃ obs, s.reg.observations.cells ⟨0⟩ = some obs ∧ obs.observers = [⟨0⟩, ⟨1⟩]) ∧
      ∃ ovr ovr', s.reg.observers.cells ⟨0⟩ = some ovr ∧ s.reg.observers.cells ⟨1⟩ = some ovr' ∧
        ovr.conn.peer = ovr'.conn.peer :=
    ⟨_, rfl, ⟨_, rfl, rfl⟩, _, _, rfl, rfl, rfl⟩
  obtain ⟨s, finished, ⟨obs, found, observers⟩, ovr, ovr', live, live', same⟩ := run
  have unique := always.reached finished ⟨0⟩ obs found ⟨0⟩ (by rw [observers]; simp) ⟨1⟩ (by rw [observers]; simp) ovr
    ovr' live live' same
  simp at unique

end Webthings.Evcoap
