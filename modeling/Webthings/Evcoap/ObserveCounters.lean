import Webthings.Evcoap.Notifications
import Webthings.Evcoap.Options.Frame
import Webthings.Evcoap.Registrations
import Mathlib.Data.List.Chain

namespace Webthings.Evcoap
open Webthings.Memory
open Webthings.Transition

/-- The counter is the time in seconds, when the system tells it, cut down to 16 bits. -/
def ecGetObserveCounter (t : Option Nat) : Option UInt16 := t.map UInt16.ofNat

/-- An Observe value that an observer was sent and the second in which it was sent; `registers` tells the response that
has registered the observer from the notifications. -/
structure ObserveSent where
  observer : ObserverPtr
  time : Nat
  count : UInt16
  registers : Bool

/-- What a message with an Observe option leaves behind. -/
def observeSent (now : Nat) (registers : Bool) (vp : ObserverPtr) : Option ObserveSent :=
  (ecGetObserveCounter (some now)).map fun cnt => ⟨vp, now, cnt, registers⟩

/-- The registry with the clock, the time at which the countdown of each observation was started last, and the Observe
values that were sent. -/
structure ObserveLog where
  reg : Registry
  clock : Nat
  started : ObservationPtr → Nat
  sent : List ObserveSent

def ObserveLog.new (start : Nat) : ObserveLog := ⟨Registry.empty, start, fun _ => 0, []⟩

/-- An event, the seconds that have gone by since the one before, and those that it takes. -/
structure ObserveTick where
  elapsed : Nat
  lasts : Nat
  event : RegistryEvent

/-- The countdowns after a step that has started those that are pending now and were not before. -/
def restarted (before after : Registry) (now : Nat) (started : ObservationPtr → Nat) (q : ObservationPtr) : Nat :=
  if (after.observations.cells q).any (fun obs => obs.notify) = true ∧
    (before.observations.cells q).any (fun obs => obs.notify) = false then now else started q

/-- The countdown of the observation is over. -/
def ObserveLog.Due (s : ObserveLog) (op : ObservationPtr) (obs : ObservationCell) (now : Nat) : Prop :=
  obs.notify = true ∧ s.started op + obs.maxAge.toNat ≤ now

instance (s : ObserveLog) (op : ObservationPtr) (obs : ObservationCell) (now : Nat) : Decidable (s.Due op obs now) :=
  inferInstanceAs (Decidable (_ ∧ _))

/-- A callback adds the Observe option to its response after the observer, when that could be added; the event loop
starts a round when the countdown is over, and the round sets it again when it is through. -/
def observeStep (platform : Platform) (s : ObserveLog) (tick : ObserveTick) : Except EcFault ObserveLog :=
  let now := s.clock + tick.elapsed
  let later := now + tick.lasts
  match tick.event with
  | .add flow args =>
      (s.reg.ecAddObserver flow args).map fun added =>
        ⟨added.1, later, restarted s.reg added.1 now s.started,
          s.sent ++ if added.2 = 0 then (observeSent later true s.reg.observers.top).toList else []⟩
  | .round op env =>
      match s.reg.observations.cells op with
      | none => .ok {s with clock := later}
      | some obs =>
          if s.Due op obs now then
            let fired := s.reg.setNotify op false
            (ecObCb platform {env with counter := ecGetObserveCounter (some now)} fired op).map fun round =>
              ⟨round.reg, later, restarted fired round.reg later s.started,
                s.sent ++ round.told.filterMap (observeSent now false)⟩
          else .ok {s with clock := later}
  | event => (registryStep platform s.reg event).map fun reg => {s with reg := reg, clock := later}

def observeMachine (platform : Platform) : Machine ObserveLog ObserveTick EcFault := ⟨observeStep platform⟩

/-- The Observe values that an observer was sent, from the response that has registered it on. -/
def ObserveLog.valuesOf (s : ObserveLog) (vp : ObserverPtr) : List ObserveSent :=
  s.sent.filter fun sent => sent.observer = vp

/-- A value that is sent less than 2^14 seconds after another one is newer, and a client that got the other one last does
not take it for an old one. -/
def InOrder (prev next : ObserveSent) : Prop :=
  next.time < prev.time + 2 ^ 14 → serialNewer prev.count next.count ∧
    ∀ (observe : EcCliObs) asked rc now, observe.lastCnt = prev.count →
      (observe.judge asked rc (some next.count) now).isSome

/-- The notification of an observer goes out in the round, and those of the observers before it do. -/
def Registry.Notifies (reg : Registry) (env : RoundEnv) (op : ObservationPtr) (vp : ObserverPtr) : Prop :=
  ∃ obs before after, reg.observations.cells op = some obs ∧ obs.observers = before ++ vp :: after ∧
    ∀ wp ∈ before ++ [vp], reg.Informs env op wp

/-- A round notifies no observer in the second in which it was registered. -/
def JoinedBefore (s : ObserveLog) (tick : ObserveTick) : Prop :=
  match tick.event with
  | .round op env => ∀ obs, s.reg.observations.cells op = some obs → s.Due op obs (s.clock + tick.elapsed) →
      ∀ sent ∈ s.sent, sent.registers = true → s.reg.Notifies env op sent.observer →
        sent.time ≠ s.clock + tick.elapsed
  | _ => True

/-- The counters of two seconds less than 2^14 apart are in the order of the seconds. -/
theorem serialNewer_counter {earlier later : Nat} (after : earlier ≤ later) (close : later < earlier + 2 ^ 14) :
    serialNewer (UInt16.ofNat earlier) (UInt16.ofNat later) ↔ earlier < later := by
  unfold serialNewer
  rw [UInt16.toNat_sub, UInt16.toNat_ofNat', UInt16.toNat_ofNat']
  omega

/-- A newer value is not out of date for a client. -/
theorem serialNewer.judged {prev next : UInt16} (newer : serialNewer prev next) {observe : EcCliObs} (asked : Bool)
    (rc : EcRc) (now : Nat) (last : observe.lastCnt = prev) : (observe.judge asked rc (some next) now).isSome := by
  have fresh : ¬ observe.lastCnt - next < 0x8000 := last ▸ (serialNewer_iff prev next).mp newer
  unfold EcCliObs.judge
  split
  · split
    · rfl
    · dsimp only
      split
      · rfl
      · rw [if_neg fun both => fresh both.1]
        rfl
  · rfl

section Registries

variable {reg next : Registry} {op : ObservationPtr}

/-- What keeps the rounds of an observation apart: its countdown takes time, each observer has one turn, and observers
belong to one observation only. -/
structure Registry.Paced (reg : Registry) : Prop where
  aged : ∀ op obs, reg.observations.cells op = some obs → 0 < obs.maxAge.toNat
  once : ∀ op obs, reg.observations.cells op = some obs → obs.observers.Nodup
  born : ∀ op obs, reg.observations.cells op = some obs → ∀ vp ∈ obs.observers, vp.id < reg.observers.next
  apart : ∀ op op' obs obs', reg.observations.cells op = some obs → reg.observations.cells op' = some obs' →
    ∀ vp ∈ obs.observers, vp ∈ obs'.observers → op = op'

/-- A registry has the observations of another one, some without some of their observers or their countdown. -/
structure Registry.Shrunk (next reg : Registry) : Prop where
  later : reg.observers.next ≤ next.observers.next
  cells : ∀ op obs', next.observations.cells op = some obs' → ∃ obs, reg.observations.cells op = some obs ∧
    obs'.maxAge = obs.maxAge ∧ (obs'.notify = true → obs.notify = true) ∧ obs'.observers.Sublist obs.observers

theorem Registry.Shrunk.refl (reg : Registry) : reg.Shrunk reg :=
  ⟨Nat.le_refl _, fun _ obs found => ⟨obs, found, rfl, id, List.Sublist.refl _⟩⟩

theorem Registry.Paced.shrunk (paced : reg.Paced) (shrunk : next.Shrunk reg) : next.Paced where
  aged := by
    intro op obs' found
    obtain ⟨obs, there, age, _⟩ := shrunk.cells op obs' found
    rw [age]
    exact paced.aged op obs there
  once := by
    intro op obs' found
    obtain ⟨obs, there, _, _, fewer⟩ := shrunk.cells op obs' found
    exact (paced.once op obs there).sublist fewer
  born := by
    intro op obs' found vp member
    obtain ⟨obs, there, _, _, fewer⟩ := shrunk.cells op obs' found
    exact Nat.lt_of_lt_of_le (paced.born op obs there vp (fewer.subset member)) shrunk.later
  apart := by
    intro op op' obs obs' found found' vp member member'
    obtain ⟨before, there, _, _, fewer⟩ := shrunk.cells op obs found
    obtain ⟨before', there', _, _, fewer'⟩ := shrunk.cells op' obs' found'
    exact paced.apart op op' before before' there there' vp (fewer.subset member) (fewer'.subset member')

/-- An observer that goes takes at most its observation along. -/
theorem Registry.without_shrunk {obs : ObservationCell} (found : reg.observations.cells op = some obs)
    (vp : ObserverPtr) : (reg.without op vp (obs.observers.erase vp)).Shrunk reg where
  later := by
    rw [Registry.without_observers]
    exact Nat.le_refl _
  cells := by
    intro q obs' there
    have left : ∀ obs', (reg.observations.modify op fun obs' =>
        {obs' with observers := obs.observers.erase vp}).cells q = some obs' →
        ∃ before, reg.observations.cells q = some before ∧ obs'.maxAge = before.maxAge ∧
          (obs'.notify = true → before.notify = true) ∧ obs'.observers.Sublist before.observers := by
      intro obs' there
      rw [Heap.modify_cells] at there
      obtain ⟨before, here, same⟩ := Option.map_eq_some_iff.mp there
      subst same
      by_cases it : q = op
      · subst it
        cases found.symm.trans here
        rw [if_pos rfl]
        exact ⟨obs, found, rfl, id, List.erase_sublist⟩
      · rw [if_neg it]
        exact ⟨before, here, rfl, id, List.Sublist.refl _⟩
    unfold Registry.without at there
    dsimp only at there
    split at there
    · by_cases it : q = op
      · subst it
        rw [Heap.free_self] at there
        cases there
      · rw [Heap.free_other _ it] at there
        exact left obs' there
    · exact left obs' there

theorem Registry.removeSource_shrunk {flow : EcFlow} (done : reg.removeSource flow = .ok next) : next.Shrunk reg := by
  rcases Registry.removeSource_done done with same | ⟨op, vp, obs, found, left⟩
  · rw [same]
    exact Registry.Shrunk.refl reg
  · rw [left]
    exact Registry.without_shrunk found vp

theorem Registry.canceledByRst_shrunk {conn : EcConn} {mid : UInt16} {result : Registry × Bool}
    (done : reg.ecObserveCanceledByRst conn mid = .ok result) : result.1.Shrunk reg := by
  rcases Registry.canceledByRst_done done with same | ⟨op, vp, obs, found, left⟩
  · rw [same]
    exact Registry.Shrunk.refl reg
  · rw [left]
    exact Registry.without_shrunk found vp

theorem Registry.Paced.unborn (paced : reg.Paced) {obs : ObservationCell}
    (found : reg.observations.cells op = some obs) : reg.observers.top ∉ obs.observers := by
  intro member
  exact absurd (paced.born op obs found _ member) (Nat.lt_irrefl reg.observers.next)

/-- A new observer belongs to its observation only. -/
theorem Registry.Paced.withObserver (paced : reg.Paced) (op : ObservationPtr) (ovr : ObserverCell) :
    (reg.withObserver op ovr).Paced where
  aged := by
    intro q obs' found
    obtain ⟨obs, there, _, age, _⟩ := Registry.withObserver_cells found
    rw [age]
    exact paced.aged q obs there
  once := by
    intro q obs' found
    obtain ⟨obs, there, _, _, _, same | ⟨_, grown⟩⟩ := Registry.withObserver_cells found
    · rw [same]
      exact paced.once q obs there
    · rw [grown]
      apply List.nodup_append.mpr
      refine ⟨paced.once q obs there, List.nodup_singleton _, fun vp member wp new same => ?_⟩
      rw [same, List.mem_singleton.mp new] at member
      exact paced.unborn there member
  born := by
    intro q obs' found vp member
    change vp.id < reg.observers.next + 1
    obtain ⟨obs, there, _, _, members⟩ := Registry.withObserver_members found
    rcases members vp member with old | ⟨_, new⟩
    · exact Nat.lt_succ_of_lt (paced.born q obs there vp old)
    · rw [new]
      exact Nat.lt_succ_self reg.observers.next
  apart := by
    intro q q' first second found found' vp member member'
    obtain ⟨obs, there, _, _, members⟩ := Registry.withObserver_members found
    obtain ⟨obs', there', _, _, members'⟩ := Registry.withObserver_members found'
    rcases members vp member with old | ⟨here, new⟩
    · rcases members' vp member' with old' | ⟨_, new'⟩
      · exact paced.apart q q' obs obs' there there' vp old old'
      · exact absurd (new' ▸ old) (paced.unborn there)
    · rcases members' vp member' with old' | ⟨here', _⟩
      · exact absurd (new ▸ old') (paced.unborn there')
      · rw [here, here']

/-- A new observation has no observers yet. -/
theorem Registry.Paced.withObservation (paced : reg.Paced) {new : ObservationCell} (childless : new.observers = [])
    (aged : 0 < new.maxAge.toNat) : (reg.withObservation new).Paced where
  aged := by
    intro q obs found
    rcases Registry.withObservation_cells found with ⟨_, same⟩ | ⟨_, there⟩
    · rw [same]
      exact aged
    · exact paced.aged q obs there
  once := by
    intro q obs found
    rcases Registry.withObservation_cells found with ⟨_, same⟩ | ⟨_, there⟩
    · rw [same]
      dsimp only
      rw [childless]
      exact List.nodup_nil
    · exact paced.once q obs there
  born := by
    intro q obs found vp member
    exact paced.born q obs (Registry.withObservation_observed childless found member).2 vp member
  apart := by
    intro q q' obs obs' found found' vp member member'
    have there := (Registry.withObservation_observed childless found member).2
    have there' := (Registry.withObservation_observed childless found' member').2
    exact paced.apart q q' obs obs' there there' vp member member'

/-- A new observation has a Max-Age: the one that was asked for, or the default for zero. -/
theorem ecObservationNew_aged {uri : List UInt8} {args : ObserveArgs} {new : ObservationCell}
    (made : ecObservationNew uri args = some new) : 0 < new.maxAge.toNat := by
  unfold ecObservationNew at made
  split at made
  · cases made
  · split at made
    · cases made
    · cases made
      dsimp only
      split
      · decide
      · rename_i asked
        apply Nat.pos_of_ne_zero
        intro zero
        exact asked (UInt32.toNat_inj.mp zero)

/-- A registration keeps the rounds apart, and gives no observer that was there to another observation. -/
theorem Registry.Adds.paced {flow : EcFlow} {args : ObserveArgs} (adds : reg.Adds flow args next) (paced : reg.Paced) :
    next.Paced ∧ reg.observers.next ≤ next.observers.next ∧
      ∀ q obs', next.observations.cells q = some obs' →
        (∃ obs, reg.observations.cells q = some obs ∧ obs'.notify = obs.notify ∧
          ∀ vp ∈ obs'.observers, vp ∈ obs.observers ∨ vp = reg.observers.top) ∨
        ∀ vp ∈ obs'.observers, vp = reg.observers.top := by
  cases adds with
  | refused observations same =>
      have shrunk : Registry.Shrunk {reg with observations := observations} reg := by
        refine ⟨Nat.le_refl _, fun q obs found => ?_⟩
        change observations.cells q = some obs at found
        rw [same] at found
        exact ⟨obs, found, rfl, id, List.Sublist.refl _⟩
      refine ⟨paced.shrunk shrunk, Nat.le_refl _, fun q obs found => Or.inl ?_⟩
      change observations.cells q = some obs at found
      rw [same] at found
      exact ⟨obs, found, rfl, fun vp member => Or.inl member⟩
  | joined op ovr given searched created =>
      refine ⟨paced.withObserver op ovr, Nat.le_succ _, fun q obs' found => Or.inl ?_⟩
      obtain ⟨obs, there, _, notify, members⟩ := Registry.withObserver_members found
      exact ⟨obs, there, notify, fun vp member => (members vp member).imp id And.right⟩
  | opened new ovr searched made =>
      have childless := (ecObservationNew_made made).2
      have opened := paced.withObservation childless (ecObservationNew_aged made)
      refine ⟨opened.withObserver reg.observations.top ovr, Nat.le_succ _, fun q obs' found => ?_⟩
      obtain ⟨obs, there, _, notify, members⟩ := Registry.withObserver_members found
      rcases Registry.withObservation_cells there with ⟨_, same⟩ | ⟨_, before⟩
      · right
        intro vp member
        rcases members vp member with old | ⟨_, top⟩
        · rw [same] at old
          dsimp only at old
          rw [childless] at old
          cases old
        · exact top
      · exact Or.inl ⟨obs, before, notify, fun vp member => (members vp member).imp id And.right⟩
  | abandoned new searched made =>
      have childless := (ecObservationNew_made made).2
      have freed : ∀ q obs, ((reg.withObservation new).observations.free reg.observations.top).cells q = some obs →
          reg.observations.cells q = some obs := by
        intro q obs found
        by_cases here : q = reg.observations.top
        · rw [here, Heap.free_self] at found
          cases found
        · rwa [Heap.free_other _ here, reg.withObservation_other new here] at found
      refine ⟨paced.shrunk ⟨Nat.le_refl _, fun q obs found => ?_⟩, Nat.le_refl _, fun q obs found => Or.inl ?_⟩
      · exact ⟨obs, freed q obs found, rfl, id, List.Sublist.refl _⟩
      · exact ⟨obs, freed q obs found, rfl, fun vp member => Or.inl member⟩

/-- The walk sends to the first observers of the list, and it opens and closes nothing. -/
theorem ecObCbLoop_sent {platform : Platform} {env : RoundEnv} {cnt : UInt16} (list : List ObserverPtr)
    {round final : Round} (done : ecObCbLoop platform env op cnt list round = .ok final) :
    final.reg.observations = round.reg.observations ∧ final.reg.observers.next = round.reg.observers.next ∧
      ∃ told, told <+: list ∧ final.told = round.told ++ told ∧ ∀ vp ∈ told, round.reg.Informs env op vp := by
  induction list generalizing round with
  | nil =>
      cases done
      exact ⟨rfl, rfl, [], List.nil_prefix, (List.append_nil _).symm, fun vp member => by cases member⟩
  | cons vp rest ih =>
      obtain ⟨attempt, observer, ⟨informs, sent, later⟩ | ⟨unsent, ended⟩⟩ := ecObCbLoop_turn platform cnt rest done
      · obtain ⟨same, next, told, begins, grown, others⟩ := ih later
        refine ⟨same, next, vp :: told, List.cons_prefix_cons.mpr ⟨rfl, begins⟩, ?_, ?_⟩
        · rw [grown]
          simp [Round.told, sent, observer]
        · intro wp member
          rcases List.mem_cons.mp member with first | later
          · rw [first]
            exact informs
          · exact (round.reg.saveLastMid_informs env op vp wp _).mp (others wp later)
      · rw [← ended]
        refine ⟨rfl, rfl, [], List.nil_prefix, ?_, fun vp member => by cases member⟩
        simp [Round.told, unsent]

/-- A round sends to the first observers of its observation, whose countdown is all that it can change. -/
theorem ecObCb_sent {platform : Platform} {env : RoundEnv} {round : Round} {obs : ObservationCell}
    (found : reg.observations.cells op = some obs) (done : ecObCb platform env reg op = .ok round) :
    (round.reg.observations = reg.observations ∨ round.reg.observations = (reg.setNotify op true).observations) ∧
      round.reg.observers.next = reg.observers.next ∧ round.told <+: obs.observers ∧
      ∀ vp ∈ round.told, reg.Informs env op vp := by
  rcases ecObCb_done platform done with ⟨unchanged, silent⟩ | ⟨cnt, obs', last, there, walked, finished⟩
  · rw [unchanged, silent]
    exact ⟨Or.inl rfl, rfl, List.nil_prefix, fun vp member => by cases member⟩
  · rw [found] at there
    cases there
    obtain ⟨same, next, told, begins, grown, informs⟩ := ecObCbLoop_sent obs.observers walked
    obtain ⟨heard, kept | started⟩ := Round.rearm_done finished
    · rw [heard, kept, grown]
      exact ⟨Or.inl same, next, begins, informs⟩
    · rw [heard, started, grown]
      refine ⟨Or.inr ?_, next, begins, informs⟩
      unfold Registry.setNotify
      rw [same]

theorem Registry.setNotify_cells (reg : Registry) (op q : ObservationPtr) (pending : Bool) :
    (reg.setNotify op pending).observations.cells q =
      (reg.observations.cells q).map fun obs => if q = op then {obs with notify := pending} else obs :=
  Heap.modify_cells _ _ _ _

/-- A round of an observation that was due leaves the other ones as they are, and its own one but for the countdown. -/
theorem ecObCb_fired {platform : Platform} {env : RoundEnv} {round : Round} {obs : ObservationCell}
    (found : reg.observations.cells op = some obs) (done : ecObCb platform env (reg.setNotify op false) op = .ok round)
    {q : ObservationPtr} {obs' : ObservationCell} (there : round.reg.observations.cells q = some obs') :
    ∃ before, reg.observations.cells q = some before ∧ obs'.maxAge = before.maxAge ∧
      obs'.observers = before.observers ∧ (q ≠ op → obs' = before) := by
  have fired : ∀ before : ObservationCell, (if q = op then {before with notify := false} else before) = obs' ∨
      (if q = op then {before with notify := true} else before) = obs' →
      obs'.maxAge = before.maxAge ∧ obs'.observers = before.observers ∧ (q ≠ op → obs' = before) := by
    intro before same
    by_cases here : q = op
    · rw [if_pos here, if_pos here] at same
      rcases same with same | same
      · rw [← same]
        exact ⟨rfl, rfl, fun other => absurd here other⟩
      · rw [← same]
        exact ⟨rfl, rfl, fun other => absurd here other⟩
    · rw [if_neg here, if_neg here, or_self] at same
      rw [same]
      exact ⟨rfl, rfl, fun _ => rfl⟩
  rcases (ecObCb_sent (Registry.setNotify_found found false) done).1 with same | same
  · rw [same, reg.setNotify_cells] at there
    obtain ⟨before, here, became⟩ := Option.map_eq_some_iff.mp there
    exact ⟨before, here, fired before (Or.inl became)⟩
  · rw [same, Registry.setNotify_cells, reg.setNotify_cells, Option.map_map] at there
    obtain ⟨before, here, became⟩ := Option.map_eq_some_iff.mp there
    refine ⟨before, here, fired before (Or.inr ?_)⟩
    rw [← became]
    by_cases it : q = op <;> simp [it]

end Registries

theorem observeSent_eq (now : Nat) (registers : Bool) :
    observeSent now registers = fun vp => some ⟨vp, now, UInt16.ofNat now, registers⟩ := rfl

/-- What the values that were sent and the countdowns have to do with the clock and with each other. -/
structure ObserveLog.Kept (s : ObserveLog) : Prop where
  paced : s.reg.Paced
  known : ∀ sent ∈ s.sent, sent.observer.id < s.reg.observers.next
  past : ∀ sent ∈ s.sent, sent.time ≤ s.clock
  counted : ∀ sent ∈ s.sent, sent.count = UInt16.ofNat sent.time
  ordered : s.sent.Pairwise fun prev next => prev.observer = next.observer → prev.time < next.time
  /-- A pending countdown was started after the last round. -/
  spaced : ∀ op obs, s.reg.observations.cells op = some obs → obs.notify = true → ∀ sent ∈ s.sent,
    sent.registers = false → sent.observer ∈ obs.observers → sent.time ≤ s.started op

theorem ObserveLog.new_kept (start : Nat) : (ObserveLog.new start).Kept where
  paced := by
    constructor <;> (intros; contradiction)
  known := by simp [ObserveLog.new]
  past := by simp [ObserveLog.new]
  counted := by simp [ObserveLog.new]
  ordered := List.Pairwise.nil
  spaced := by simp [ObserveLog.new]

section Logs

variable {s : ObserveLog} {reg : Registry} {later : Nat}

/-- Observers that go away and time that goes by change nothing about the values that were sent. -/
theorem ObserveLog.Kept.withdrawn (kept : s.Kept) (shrunk : reg.Shrunk s.reg) (after : s.clock ≤ later) :
    ObserveLog.Kept {s with reg := reg, clock := later} where
  paced := kept.paced.shrunk shrunk
  known := fun sent member => Nat.lt_of_lt_of_le (kept.known sent member) shrunk.later
  past := fun sent member => Nat.le_trans (kept.past sent member) after
  counted := kept.counted
  ordered := kept.ordered
  spaced := by
    intro op obs' found pending sent member notifies observes
    obtain ⟨obs, there, _, before, fewer⟩ := shrunk.cells op obs' found
    exact kept.spaced op obs there (before pending) sent member notifies (fewer.subset observes)

theorem ObserveLog.Kept.waited (kept : s.Kept) (after : s.clock ≤ later) : ObserveLog.Kept {s with clock := later} :=
  kept.withdrawn (Registry.Shrunk.refl s.reg) after

/-- A countdown that was pending before goes on. -/
theorem restarted_pending {before after : Registry} {started : ObservationPtr → Nat} {q : ObservationPtr}
    {obs : ObservationCell} (found : before.observations.cells q = some obs) (pending : obs.notify = true) :
    restarted before after later started q = started q := by
  unfold restarted
  rw [found, if_neg]
  simp [pending]

/-- Values that are sent to observers of their own, each of which was sent nothing as late as that, join those that were
sent before. -/
theorem ObserveLog.Kept.joined (kept : s.Kept) {next : ObserveLog} {new : List ObserveSent}
    (whole : next.sent = s.sent ++ new) (paced : next.reg.Paced)
    (grows : s.reg.observers.next ≤ next.reg.observers.next) (after : s.clock ≤ next.clock)
    (known : ∀ sent ∈ new, sent.observer.id < next.reg.observers.next) (past : ∀ sent ∈ new, sent.time ≤ next.clock)
    (counted : ∀ sent ∈ new, sent.count = UInt16.ofNat sent.time)
    (apart : new.Pairwise fun prev next => prev.observer ≠ next.observer)
    (newer : ∀ old ∈ s.sent, ∀ sent ∈ new, old.observer = sent.observer → old.time < sent.time)
    (spaced : ∀ op obs, next.reg.observations.cells op = some obs → obs.notify = true → ∀ sent ∈ s.sent ++ new,
      sent.registers = false → sent.observer ∈ obs.observers → sent.time ≤ next.started op) : next.Kept where
  paced := paced
  known := by
    rw [whole]
    exact List.forall_mem_append.mpr ⟨fun sent old => Nat.lt_of_lt_of_le (kept.known sent old) grows, known⟩
  past := by
    rw [whole]
    exact List.forall_mem_append.mpr ⟨fun sent old => Nat.le_trans (kept.past sent old) after, past⟩
  counted := by
    rw [whole]
    exact List.forall_mem_append.mpr ⟨kept.counted, counted⟩
  ordered := by
    rw [whole]
    exact List.pairwise_append.mpr ⟨kept.ordered, apart.imp fun other same => absurd same other, newer⟩
  spaced := by
    rw [whole]
    exact spaced

/-- The response that registers an observer is the first message with a value that it gets. -/
theorem ObserveLog.Kept.added (kept : s.Kept) {flow : EcFlow} {args : ObserveArgs} {now : Nat} {code : Int}
    (done : s.reg.ecAddObserver flow args = .ok (reg, code)) (after : s.clock ≤ later) :
    ObserveLog.Kept ⟨reg, later, restarted s.reg reg now s.started,
      s.sent ++ if code = 0 then (observeSent later true s.reg.observers.top).toList else []⟩ := by
  obtain ⟨paced, grows, members⟩ := (Registry.ecAddObserver_adds done).1.paced kept.paced
  have entered : ∀ sent ∈ (if code = 0 then (observeSent later true s.reg.observers.top).toList else []),
      code = 0 ∧ sent = ⟨s.reg.observers.top, later, UInt16.ofNat later, true⟩ := by
    intro sent member
    split at member
    · rename_i success
      exact ⟨success, List.mem_singleton.mp member⟩
    · cases member
  have stranger : ∀ sent ∈ s.sent, sent.observer ≠ s.reg.observers.top := by
    intro sent member same
    have known := kept.known sent member
    rw [same] at known
    exact absurd known (Nat.lt_irrefl s.reg.observers.next)
  refine kept.joined rfl paced grows after ?_ ?_ ?_ ?_ ?_ ?_
  · intro sent new
    obtain ⟨success, same⟩ := entered sent new
    subst success
    rw [same]
    exact (Registry.ecAddObserver_adds done).2 rfl
  · intro sent new
    rw [(entered sent new).2]
  · intro sent new
    rw [(entered sent new).2]
  · split
    · exact List.pairwise_singleton _ _
    · exact List.Pairwise.nil
  · intro old there sent new same
    rw [(entered sent new).2] at same
    exact absurd same (stranger old there)
  · intro op obs' found pending sent member notifies observes
    rcases List.mem_append.mp member with old | new
    · rcases members op obs' found with ⟨obs, there, notify, belongs⟩ | only
      · have before : obs.notify = true := notify ▸ pending
        show sent.time ≤ restarted s.reg reg now s.started op
        rw [restarted_pending there before]
        rcases belongs sent.observer observes with observed | top
        · exact kept.spaced op obs there before sent old notifies observed
        · exact absurd top (stranger sent old)
      · exact absurd (only sent.observer observes) (stranger sent old)
    · rw [(entered sent new).2] at notifies
      cases notifies

/-- A round of an observation that is due, in a second in which none of those that it notifies was registered. -/
theorem ObserveLog.Kept.rounded (kept : s.Kept) {platform : Platform} {env : RoundEnv} {op : ObservationPtr}
    {obs : ObservationCell} {now : Nat} {round : Round} (found : s.reg.observations.cells op = some obs)
    (due : s.Due op obs now) (since : s.clock ≤ now) (after : now ≤ later)
    (done : ecObCb platform env (s.reg.setNotify op false) op = .ok round)
    (joined : ∀ sent ∈ s.sent, sent.registers = true → sent.observer ∈ round.told → sent.time ≠ now) :
    ObserveLog.Kept ⟨round.reg, later, restarted (s.reg.setNotify op false) round.reg later s.started,
      s.sent ++ round.told.filterMap (observeSent now false)⟩ := by
  obtain ⟨pending, elapsed⟩ := due
  obtain ⟨_, next, begins, _⟩ := ecObCb_sent (Registry.setNotify_found found false) done
  have shrunk : round.reg.Shrunk s.reg := by
    refine ⟨Nat.le_of_eq next.symm, fun q obs' there => ?_⟩
    obtain ⟨before, here, age, observers, other⟩ := ecObCb_fired found done there
    refine ⟨before, here, age, fun notify => ?_, observers ▸ List.Sublist.refl _⟩
    by_cases it : q = op
    · rw [it, found] at here
      cases here
      exact pending
    · exact other it ▸ notify
  have told : ∀ vp ∈ round.told, vp ∈ obs.observers := fun vp member => begins.subset member
  have entered : ∀ sent ∈ round.told.filterMap (observeSent now false),
      sent.observer ∈ round.told ∧ sent.time = now ∧ sent.count = UInt16.ofNat now := by
    rw [observeSent_eq, List.filterMap_eq_map']
    exact List.forall_mem_map.mpr fun vp notified => ⟨notified, rfl, rfl⟩
  refine kept.joined rfl (kept.paced.shrunk shrunk) shrunk.later (Nat.le_trans since after) ?_ ?_ ?_ ?_ ?_ ?_
  · intro sent new
    exact Nat.lt_of_lt_of_le (kept.paced.born op obs found _ (told _ (entered sent new).1)) shrunk.later
  · intro sent new
    rw [(entered sent new).2.1]
    exact after
  · intro sent new
    rw [(entered sent new).2.2, (entered sent new).2.1]
  · rw [observeSent_eq, List.filterMap_eq_map']
    exact List.pairwise_map.mpr ((kept.paced.once op obs found).sublist begins.sublist)
  · intro old there sent new same
    obtain ⟨notified, time, _⟩ := entered sent new
    rw [time]
    rw [← same] at notified
    cases registers : old.registers with
    | true =>
        have before := kept.past old there
        have apart := joined old there registers notified
        omega
    | false =>
        have before := kept.spaced op obs found pending old there registers (told _ notified)
        have aged := kept.paced.aged op obs found
        omega
  · intro q obs' there notify sent member notifies observes
    obtain ⟨before, here, _, observers, other⟩ := ecObCb_fired found done there
    by_cases it : q = op
    · have renewed : restarted (s.reg.setNotify op false) round.reg later s.started q = later := by
        unfold restarted
        rw [there, it, Registry.setNotify_found found, if_pos]
        simp [notify]
      show sent.time ≤ restarted (s.reg.setNotify op false) round.reg later s.started q
      rw [renewed]
      rcases List.mem_append.mp member with old | new
      · exact Nat.le_trans (kept.past sent old) (Nat.le_trans since after)
      · rw [(entered sent new).2.1]
        exact after
    · have same := other it
      subst same
      have untouched : (s.reg.setNotify op false).observations.cells q = some obs' := by
        rw [Registry.setNotify_cells, here, Option.map_some, if_neg it]
      show sent.time ≤ restarted (s.reg.setNotify op false) round.reg later s.started q
      rw [restarted_pending untouched notify]
      rcases List.mem_append.mp member with old | new
      · exact kept.spaced q obs' here notify sent old notifies observes
      · have notified := told _ (entered sent new).1
        exact absurd (kept.paced.apart q op obs' obs here found _ observes notified) it

/-- The values that an observer was sent are in order. -/
theorem ObserveLog.Kept.inOrder (kept : s.Kept) (vp : ObserverPtr) : (s.valuesOf vp).IsChain InOrder := by
  have ordered := kept.ordered.filter fun sent => sent.observer = vp
  apply List.Pairwise.isChain
  refine ordered.imp_of_mem fun {prev next} first second sooner close => ?_
  obtain ⟨sent, is⟩ := List.mem_filter.mp first
  obtain ⟨sent', is'⟩ := List.mem_filter.mp second
  have own : prev.observer = next.observer := (of_decide_eq_true is).trans (of_decide_eq_true is').symm
  have newer : serialNewer prev.count next.count := by
    rw [kept.counted prev sent, kept.counted next sent']
    exact (serialNewer_counter (Nat.le_of_lt (sooner own)) close).mpr (sooner own)
  exact ⟨newer, fun _ asked rc now last => newer.judged asked rc now last⟩

end Logs

section Runs

variable {platform : Platform}

/-- The observers that a round tells are those whose notifications go out. -/
theorem ecObCb_notifies {env : RoundEnv} {reg : Registry} {op : ObservationPtr} {obs : ObservationCell} {round : Round}
    (found : reg.observations.cells op = some obs)
    (done : ecObCb platform env (reg.setNotify op false) op = .ok round) {vp : ObserverPtr}
    (notified : vp ∈ round.told) : reg.Notifies env op vp := by
  obtain ⟨_, _, ⟨rest, all⟩, informs⟩ := ecObCb_sent (Registry.setNotify_found found false) done
  obtain ⟨before, after, told⟩ := List.append_of_mem notified
  refine ⟨obs, before, after ++ rest, found, ?_, fun wp member => ?_⟩
  · rw [← all, told, List.append_assoc, List.cons_append]
  · apply (Registry.setNotify_informs found false env wp).mp
    apply informs
    rw [told]
    rcases List.mem_append.mp member with earlier | last
    · exact List.mem_append_left _ earlier
    · rw [List.mem_singleton.mp last]
      exact List.mem_append_right _ List.mem_cons_self

/-- What one event makes of the values that were sent. -/
theorem observeStep_kept {s next : ObserveLog} {tick : ObserveTick} (kept : s.Kept) (joined : JoinedBefore s tick)
    (stepped : observeStep platform s tick = .ok next) : next.Kept := by
  obtain ⟨elapsed, lasts, event⟩ := tick
  have since : s.clock ≤ s.clock + elapsed + lasts := by omega
  cases event with
  | add flow args =>
      obtain ⟨⟨reg, code⟩, done, same⟩ := map_ok stepped
      rw [← same]
      exact kept.added done since
  | rem flow =>
      obtain ⟨reg, done, same⟩ := map_ok stepped
      rw [← same]
      exact kept.withdrawn (Registry.removeSource_shrunk done) since
  | canceledByGet flow =>
      obtain ⟨reg, done, same⟩ := map_ok stepped
      rw [← same]
      refine kept.withdrawn ?_ since
      change s.reg.ecObserveCanceledByGet flow = .ok reg at done
      unfold Registry.ecObserveCanceledByGet at done
      split at done
      · cases done
        exact Registry.Shrunk.refl s.reg
      · exact Registry.removeSource_shrunk done
  | canceledByRst conn mid =>
      obtain ⟨reg, done, same⟩ := map_ok stepped
      obtain ⟨result, finished, became⟩ := map_ok done
      rw [← same, ← became]
      exact kept.withdrawn (Registry.canceledByRst_shrunk finished) since
  | round op env =>
      cases found : s.reg.observations.cells op with
      | none =>
          have waits : observeStep platform s ⟨elapsed, lasts, .round op env⟩ =
              .ok {s with clock := s.clock + elapsed + lasts} := by
            unfold observeStep
            dsimp only
            rw [found]
          rw [waits] at stepped
          cases stepped
          exact kept.waited since
      | some obs =>
          unfold observeStep at stepped
          dsimp only at stepped
          rw [found] at stepped
          dsimp only at stepped
          by_cases due : s.Due op obs (s.clock + elapsed)
          · rw [if_pos due] at stepped
            obtain ⟨round, done, same⟩ := map_ok stepped
            rw [← same]
            apply kept.rounded found due (Nat.le_add_right _ _) (Nat.le_add_right _ _) done
            intro sent member registers notified
            exact joined obs found due sent member registers (ecObCb_notifies found done notified)
          · rw [if_neg due] at stepped
            cases stepped
            exact kept.waited since

/-- The Observe values that an observer is sent are in order in every run whose rounds notify no observer in the second
in which it was registered. -/
theorem observeCounters_ordered (platform : Platform) (start : Nat) (ticks : List ObserveTick)
    (joined : (observeMachine platform).Meets JoinedBefore (.new start) ticks) :
    (observeMachine platform).Always (fun s => ∀ vp, (s.valuesOf vp).IsChain InOrder) (.new start) ticks :=
  joined.always ObserveLog.Kept _ (fun _ kept vp => kept.inOrder vp)
    (fun _ _ _ kept allowed stepped => observeStep_kept kept allowed stepped) (ObserveLog.new_kept start)

end Runs

/-- An observer registers for a minute and is joined by another one after some time; then a round is tried. -/
def joinedRounds (joins waits : Nat) : List ObserveTick :=
  [⟨0, 0, .add (observedGet 40000) (observeArgs 0)⟩, ⟨joins, 0, .add (observedGet 40001) (observeArgs 0)⟩,
    ⟨waits, 0, .round ⟨0⟩ (steadyRound fun _ => true)⟩]

/-- Half a minute lies between the registration of the second observer and its notification. -/
theorem earlyJoiner_ordered : (observeMachine loopbackPlatform).Always
    (fun s => ∀ vp, (s.valuesOf vp).IsChain InOrder) (.new 1700000000) (joinedRounds 30 30) := by
  apply observeCounters_ordered
  have joined : ∃ s s', observeStep loopbackPlatform (.new 1700000000)
        ⟨0, 0, .add (observedGet 40000) (observeArgs 0)⟩ = .ok s ∧
      observeStep loopbackPlatform s ⟨30, 0, .add (observedGet 40001) (observeArgs 0)⟩ = .ok s' ∧
      s'.clock = 1700000030 ∧ s'.sent = [⟨⟨0⟩, 1700000000, 0xf100, true⟩, ⟨⟨1⟩, 1700000030, 0xf11e, true⟩] :=
    ⟨_, _, rfl, rfl, rfl, rfl⟩
  obtain ⟨s, s', first, second, clock, sent⟩ := joined
  refine Machine.meets_cons_ok trivial first (Machine.meets_cons_ok trivial second ⟨?_, fun _ _ => trivial⟩)
  intro obs _ _ entry member _ _
  rw [clock]
  rw [sent] at member
  rcases List.mem_cons.mp member with same | rest
  · rw [same]
    decide
  · rw [List.mem_singleton.mp rest]
    decide

/-- The second observer registers when the minute is over, just before the round, and gets the same value twice. -/
theorem lateJoiner_repeats : ¬ ∀ platform start ticks,
    (observeMachine platform).Always (fun s => ∀ vp, (s.valuesOf vp).IsChain InOrder) (.new start) ticks := by
  intro always
  have run : ∃ s, (observeMachine loopbackPlatform).run (.new 1700000000) (joinedRounds 60 0) = .ok s ∧
      s.valuesOf ⟨1⟩ = [⟨⟨1⟩, 1700000060, 0xf13c, true⟩, ⟨⟨1⟩, 1700000060, 0xf13c, false⟩] := ⟨_, rfl, rfl⟩
  obtain ⟨s, ran, values⟩ := run
  have ordered := ((always loopbackPlatform 1700000000 (joinedRounds 60 0 ++ [])).reached ran) ⟨1⟩
  rw [values] at ordered
  obtain ⟨newer, _⟩ := List.isChain_pair.mp ordered (by decide)
  exact absurd newer.1 (by decide)

end Webthings.Evcoap
