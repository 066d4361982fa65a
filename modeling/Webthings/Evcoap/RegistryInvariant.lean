import Webthings.Evcoap.Rounds
import Webthings.Memory.Nested

namespace Webthings.Evcoap
open Webthings.Memory
open Webthings.Transition

/-- The two levels of lists that the registry links, and what of them is in memory. -/
def Registry.nested (reg : Registry) : Nested ObservationPtr ObserverPtr where
  parents := reg.observing
  children := fun op => (reg.observations.cells op).map fun obs => obs.observers
  live := fun vp => (reg.observers.cells vp).isSome

/-- Each linked observation is in memory and has an observer, and each observer that it links is in memory. -/
structure Registry.Sound (reg : Registry) : Prop where
  linked : ∀ op ∈ reg.observing, ∃ obs, reg.observations.cells op = some obs ∧ obs.observers ≠ []
  lives : ∀ op obs, reg.observations.cells op = some obs → ∀ vp ∈ obs.observers, (reg.observers.cells vp).isSome

/-- The lists are tidy and no observation is without observers. -/
structure Registry.WellFormed (reg : Registry) : Prop where
  tidy : reg.nested.Tidy
  occupied : reg.nested.Occupied

theorem Registry.children_iff {reg : Registry} {op : ObservationPtr} {list : List ObserverPtr} :
    reg.nested.children op = some list ↔ ∃ obs, reg.observations.cells op = some obs ∧ obs.observers = list :=
  Option.map_eq_some_iff

theorem Registry.children_of {reg : Registry} {op : ObservationPtr} {obs : ObservationCell}
    (found : reg.observations.cells op = some obs) : reg.nested.children op = some obs.observers :=
  children_iff.mpr ⟨obs, found, rfl⟩

theorem Registry.empty_wellFormed : Registry.empty.WellFormed where
  tidy := by
    constructor
    · exact fun p => iff_of_false List.not_mem_nil (by simp [Registry.nested, Registry.empty, Heap.empty])
    · exact List.nodup_nil
    · exact fun p list found => by cases found
    · exact fun p list found => by cases found
    · exact fun p q list other c found => by cases found
  occupied := fun p list found => by cases found

section WellFormed

variable {reg : Registry} {op : ObservationPtr} {obs : ObservationCell} {vp : ObserverPtr}

theorem Registry.WellFormed.found (wellFormed : reg.WellFormed) (linked : op ∈ reg.observing) :
    ∃ obs, reg.observations.cells op = some obs := by
  have there := (wellFormed.tidy.linked op).mp linked
  obtain ⟨list, found⟩ := Option.isSome_iff_exists.mp there
  obtain ⟨obs, cell, _⟩ := Registry.children_iff.mp found
  exact ⟨obs, cell⟩

theorem Registry.WellFormed.lives (wellFormed : reg.WellFormed) (found : reg.observations.cells op = some obs)
    (member : vp ∈ obs.observers) : ∃ ovr, reg.observers.cells vp = some ovr :=
  Option.isSome_iff_exists.mp (wellFormed.tidy.lives op obs.observers (Registry.children_of found) vp member)

theorem Registry.WellFormed.sound (wellFormed : reg.WellFormed) : reg.Sound where
  linked := by
    intro op member
    obtain ⟨obs, found⟩ := wellFormed.found member
    exact ⟨obs, found, wellFormed.occupied op obs.observers (Registry.children_of found)⟩
  lives := fun op obs found vp member =>
    Option.isSome_iff_exists.mpr (wellFormed.lives found member)

/-- A change that keeps the lists and what of them is in memory keeps the registry well formed. -/
theorem Registry.WellFormed.congr (wellFormed : reg.WellFormed) {next : Registry} (same : next.nested = reg.nested) :
    next.WellFormed := ⟨same ▸ wellFormed.tidy, same ▸ wellFormed.occupied⟩

/-- The search of the observations finds a linked one or none. -/
theorem Registry.WellFormed.observationSearch (wellFormed : reg.WellFormed) (uri : List UInt8) :
    ∃ result, reg.ecObservationSearch uri = .ok result ∧
      ∀ op, result = some op → op ∈ reg.observing ∧ ∃ obs, reg.observations.cells op = some obs := by
  refine ⟨_, reg.observations.search_live EcFault.disposed _ reg.observing ?_, ?_⟩
  · intro op member
    obtain ⟨obs, found⟩ := wellFormed.found member
    rw [found]
    rfl
  · intro op found
    have member := List.mem_of_find?_eq_some found
    exact ⟨member, wellFormed.found member⟩

/-- The search of an observation's observers finds one of them or none. -/
theorem Registry.WellFormed.observerSearch (wellFormed : reg.WellFormed) (found : reg.observations.cells op = some obs)
    (conn : EcConn) (mid : UInt16) :
    ∃ result, reg.ecObserverSearch obs conn mid = .ok result ∧
      ∀ vp, result = some vp → vp ∈ obs.observers ∧ ∃ ovr, reg.observers.cells vp = some ovr := by
  refine ⟨_, reg.observers.search_live EcFault.disposed _ obs.observers ?_, ?_⟩
  · exact fun vp member => Option.isSome_iff_exists.mpr (wellFormed.lives found member)
  · intro vp there
    have member := List.mem_of_find?_eq_some there
    exact ⟨member, wellFormed.lives found member⟩

/-- A removal detaches the observer from its observation. -/
theorem Registry.without_nested (found : reg.observations.cells op = some obs) (vp : ObserverPtr)
    (left : List ObserverPtr) : (reg.without op vp left).nested = reg.nested.detach op vp left := by
  have live : ∀ wp, ((reg.observers.free vp).cells wp).isSome ↔ wp ≠ vp ∧ (reg.observers.cells wp).isSome := by
    intro wp
    by_cases here : wp = vp
    · simp [here]
    · simp [Heap.free_other reg.observers here, here]
  unfold without Registry.nested Nested.detach
  dsimp only
  by_cases last : left = []
  · rw [if_pos last, if_pos last]
    congr 1
    · funext q
      by_cases here : q = op
      · simp [here, last]
      · rw [if_neg here, Heap.free_other _ here, Heap.modify_other _ _ here]
    · funext wp
      exact propext (live wp)
  · rw [if_neg last, if_neg last]
    congr 1
    · funext q
      by_cases here : q = op
      · simp [here, last, found]
      · rw [if_neg here, Heap.modify_other _ _ here]
    · funext wp
      exact propext (live wp)

theorem Registry.WellFormed.observerRemove (wellFormed : reg.WellFormed)
    (found : reg.observations.cells op = some obs) (member : vp ∈ obs.observers) :
    ∃ removed, reg.ecObserverRemove op vp = .ok removed ∧ removed.1.WellFormed := by
  obtain ⟨ovr, live⟩ := wellFormed.lives found member
  refine ⟨_, Registry.ecObserverRemove_live found live, ?_⟩
  have nested := Registry.without_nested found vp (obs.observers.erase vp)
  constructor
  · rw [nested]
    exact wellFormed.tidy.detach (Registry.children_of found) member
  · rw [nested]
    exact wellFormed.occupied.detach op vp _

theorem Registry.WellFormed.removeSource (wellFormed : reg.WellFormed) (flow : EcFlow) :
    ∃ next, reg.removeSource flow = .ok next ∧ next.WellFormed := by
  unfold Registry.removeSource
  obtain ⟨result, searched, linked⟩ := wellFormed.observationSearch flow.urlstr
  rw [searched]
  cases result with
  | none => exact ⟨reg, rfl, wellFormed⟩
  | some op =>
      obtain ⟨_, obs, found⟩ := linked op rfl
      dsimp only
      rw [found]
      obtain ⟨result, searched, there⟩ := wellFormed.observerSearch found flow.conn 0
      dsimp only
      rw [searched]
      cases result with
      | none => exact ⟨reg, rfl, wellFormed⟩
      | some vp =>
          obtain ⟨removed, done, kept⟩ := wellFormed.observerRemove found (there vp rfl).1
          refine ⟨removed.1, ?_, kept⟩
          dsimp only
          rw [done]
          rfl

theorem Registry.WellFormed.canceledByGet (wellFormed : reg.WellFormed) (flow : EcFlow) :
    ∃ next, reg.ecObserveCanceledByGet flow = .ok next ∧ next.WellFormed := by
  unfold Registry.ecObserveCanceledByGet
  split
  · exact ⟨reg, rfl, wellFormed⟩
  · exact wellFormed.removeSource flow

/-- The search for the observer to be reset finds it in a linked observation. -/
theorem Registry.WellFormed.rstSearch (wellFormed : reg.WellFormed) (conn : EcConn) (mid : UInt16)
    (list : List ObservationPtr) (linked : ∀ op ∈ list, op ∈ reg.observing) :
    ∃ result, reg.rstSearch conn mid list = .ok result ∧
      ∀ op vp, result = some (op, vp) → ∃ obs, reg.observations.cells op = some obs ∧ vp ∈ obs.observers := by
  induction list with
  | nil => exact ⟨none, rfl, fun op vp same => by cases same⟩
  | cons op rest ih =>
      obtain ⟨obs, found⟩ := wellFormed.found (linked op List.mem_cons_self)
      obtain ⟨result, searched, there⟩ := wellFormed.observerSearch found conn mid
      rw [Registry.rstSearch, found]
      dsimp only
      rw [searched]
      cases result with
      | none => exact ih fun op' member => linked op' (List.mem_cons_of_mem op member)
      | some vp =>
          refine ⟨some (op, vp), rfl, ?_⟩
          intro op' vp' same
          cases same
          exact ⟨obs, found, (there vp rfl).1⟩

theorem Registry.WellFormed.canceledByRst (wellFormed : reg.WellFormed) (conn : EcConn) (mid : UInt16) :
    ∃ result, reg.ecObserveCanceledByRst conn mid = .ok result ∧ result.1.WellFormed := by
  unfold Registry.ecObserveCanceledByRst
  obtain ⟨result, searched, there⟩ := wellFormed.rstSearch conn mid reg.observing fun _ member => member
  rw [searched]
  cases result with
  | none => exact ⟨_, rfl, wellFormed⟩
  | some pair =>
      obtain ⟨op, vp⟩ := pair
      obtain ⟨obs, found, member⟩ := there op vp rfl
      obtain ⟨removed, done, kept⟩ := wellFormed.observerRemove found member
      refine ⟨(removed.1, true), ?_, kept⟩
      dsimp only
      rw [done]
      rfl

/-- A change of an observation that keeps its observers keeps the lists. -/
theorem Registry.modify_nested (reg : Registry) (op : ObservationPtr) (f : ObservationCell → ObservationCell)
    (same : ∀ obs, (f obs).observers = obs.observers) :
    ({reg with observations := reg.observations.modify op f} : Registry).nested = reg.nested := by
  unfold Registry.nested
  dsimp only
  congr 1
  funext q
  rw [Heap.modify_cells, Option.map_map]
  congr 1
  funext obs
  dsimp only [Function.comp]
  split
  · exact same obs
  · rfl

theorem Registry.saveMids_nested (reg : Registry) (env : RoundEnv) (list : List ObserverPtr) :
    (reg.saveMids env list).nested = reg.nested := by
  obtain ⟨observing, observations, lives, _, _⟩ := reg.saveMids_frame env list
  unfold Registry.nested
  rw [observing, observations]
  congr 1
  funext vp
  rw [lives vp]

/-- The registry with an observer that has just been created for an observation. -/
def Registry.withObserver (reg : Registry) (op : ObservationPtr) (ovr : ObserverCell) : Registry :=
  {reg with
    observers := reg.observers.alloc ovr
    observations := reg.observations.modify op fun obs =>
      {obs with observers := obs.observers ++ [reg.observers.top]}}

theorem Registry.ecObserverAdd_ok {flow : EcFlow} {args : ObserveArgs} {ovr : ObserverCell}
    (created : ecObserverNew flow args = some ovr) (found : reg.observations.cells op = some obs) :
    reg.ecObserverAdd op flow args = .ok (reg.withObserver op ovr, 0) := by
  rw [Registry.ecObserverAdd, created, found]
  rfl

/-- A new observer of an observation is attached to it. -/
theorem Registry.withObserver_nested (reg : Registry) (op : ObservationPtr) (ovr : ObserverCell) :
    (reg.withObserver op ovr).nested = reg.nested.attach op reg.observers.top := by
  unfold Registry.withObserver Registry.nested Nested.attach
  dsimp only
  congr 1
  · funext q
    rw [Heap.modify_cells, Option.map_map, Option.map_map]
    congr 1
    funext obs
    dsimp only [Function.comp]
    split <;> rfl
  · funext vp
    by_cases here : vp = reg.observers.top
    · simp [here]
    · rw [Heap.alloc_other _ _ here]
      simp [here]

theorem Registry.WellFormed.observerAdd (wellFormed : reg.WellFormed) {flow : EcFlow} {args : ObserveArgs}
    (found : reg.observations.cells op = some obs) :
    ∃ result, reg.ecObserverAdd op flow args = .ok result ∧ result.1.WellFormed := by
  cases created : ecObserverNew flow args with
  | none => exact ⟨(reg, -1), by rw [Registry.ecObserverAdd, created], wellFormed⟩
  | some ovr =>
      have nested := reg.withObserver_nested op ovr
      have unborn : ¬ reg.nested.live reg.observers.top := by
        change ¬ (reg.observers.cells reg.observers.top).isSome
        simp
      refine ⟨_, Registry.ecObserverAdd_ok created found, ?_, ?_⟩
      · rw [nested]
        exact wellFormed.tidy.attach op unborn
      · rw [nested]
        exact Nested.Occupied.attach _ fun q list _ there => wellFormed.occupied q list there

/-- A new observation has the URL it was asked for and no observers yet. -/
theorem ecObservationNew_made {uri : List UInt8} {args : ObserveArgs} {new : ObservationCell}
    (created : ecObservationNew uri args = some new) : new.uri = uri ∧ new.observers = [] := by
  unfold ecObservationNew at created
  split at created
  · cases created
  · split at created
    · cases created
    · cases created
      exact ⟨rfl, rfl⟩

/-- The registry with an observation that has just been created and started. -/
def Registry.withObservation (reg : Registry) (new : ObservationCell) : Registry :=
  {reg with
    observations := (reg.observations.alloc new).modify reg.observations.top fun obs => {obs with notify := true}
    observing := reg.observing ++ [reg.observations.top]}

theorem Registry.withObservation_top (reg : Registry) (new : ObservationCell) :
    (reg.withObservation new).observations.cells reg.observations.top = some {new with notify := true} := by
  refine (Heap.modify_self _ _ _).trans ?_
  rw [Heap.alloc_top]
  rfl

theorem Registry.withObservation_other (reg : Registry) (new : ObservationCell) {q : ObservationPtr}
    (other : q ≠ reg.observations.top) :
    (reg.withObservation new).observations.cells q = reg.observations.cells q :=
  (Heap.modify_other _ _ other).trans (Heap.alloc_other _ _ other)

theorem Registry.withObservation_nested (reg : Registry) {new : ObservationCell} (childless : new.observers = []) :
    (reg.withObservation new).nested = reg.nested.plant reg.observations.top := by
  unfold Registry.nested Nested.plant
  congr 1
  funext q
  by_cases here : q = reg.observations.top
  · subst here
    rw [if_pos rfl, reg.withObservation_top, Option.map_some]
    exact congrArg some childless
  · rw [if_neg here, reg.withObservation_other new here]

/-- A new observation is linked behind the others, without an observer yet. -/
theorem Registry.ecObservationAdd_opens (reg : Registry) {uri : List UInt8} {args : ObserveArgs} {new : ObservationCell}
    (created : ecObservationNew uri args = some new) (countdown : args.countdown = true) :
    reg.ecObservationAdd uri args = .ok (reg.withObservation new, some reg.observations.top) := by
  unfold Registry.ecObservationAdd Registry.ecObservationStartCountdown
  rw [created, countdown]
  dsimp only
  rw [Heap.alloc_top]
  rfl

/-- An observation that could not be created or started leaves the memory as it is. -/
theorem Registry.ecObservationAdd_refused (reg : Registry) {uri : List UInt8} {args : ObserveArgs}
    (refused : ¬ ((ecObservationNew uri args).isSome ∧ args.countdown = true)) :
    ∃ observations : Heap ObservationCell,
      reg.ecObservationAdd uri args = .ok ({reg with observations := observations}, none) ∧
        observations.cells = reg.observations.cells := by
  unfold Registry.ecObservationAdd
  cases created : ecObservationNew uri args with
  | none => exact ⟨reg.observations, rfl, rfl⟩
  | some new =>
      have halted : args.countdown = false := by
        rw [created] at refused
        simpa using refused
      refine ⟨(reg.observations.alloc new).free reg.observations.top, ?_, ?_⟩
      · unfold Registry.ecObservationStartCountdown Registry.ecObservationFree
        dsimp only
        rw [Heap.alloc_top, halted]
        dsimp only
        simp [Heap.alloc_top, (ecObservationNew_made created).2, Heap.freeAll, Except.map]
      · funext q
        by_cases here : q = reg.observations.top
        · simp [here]
        · rw [Heap.free_other _ here, Heap.alloc_other _ _ here]

/-- A call of `ec_add_observer` that links a new observation. -/
def Registry.Opens (reg : Registry) (flow : EcFlow) (args : ObserveArgs) : Prop :=
  args.cb = true ∧ reg.ecObservationSearch flow.urlstr = .ok none ∧
    (ecObservationNew flow.urlstr args).isSome ∧ args.countdown = true

/-- An observer is added without harm unless it was to be the first one of a new observation and cannot be created. -/
theorem Registry.WellFormed.addObserver (wellFormed : reg.WellFormed) {flow : EcFlow} {args : ObserveArgs}
    (careful : reg.Opens flow args → (ecObserverNew flow args).isSome) :
    ∃ result, reg.ecAddObserver flow args = .ok result ∧ result.1.WellFormed := by
  unfold Registry.ecAddObserver
  by_cases given : args.cb = false
  · exact ⟨(reg, -1), if_pos given, wellFormed⟩
  · rw [if_neg given]
    obtain ⟨result, searched, linked⟩ := wellFormed.observationSearch flow.urlstr
    rw [searched]
    cases result with
    | some op =>
        obtain ⟨_, obs, found⟩ := linked op rfl
        exact wellFormed.observerAdd found
    | none =>
        by_cases opens : (ecObservationNew flow.urlstr args).isSome ∧ args.countdown = true
        · have created := careful ⟨by simpa using given, searched, opens.1, opens.2⟩
          obtain ⟨ovr, created⟩ := Option.isSome_iff_exists.mp created
          obtain ⟨new, made⟩ := Option.isSome_iff_exists.mp opens.1
          have nested := reg.withObservation_nested (ecObservationNew_made made).2
          have attached := Registry.ecObserverAdd_ok created (reg.withObservation_top new)
          have grown := (reg.withObservation new).withObserver_nested reg.observations.top ovr
          have unborn : reg.nested.children reg.observations.top = none := by
            change (reg.observations.cells reg.observations.top).map _ = none
            simp
          have unobserved : ¬ (reg.withObservation new).nested.live (reg.withObservation new).observers.top := by
            change ¬ (reg.observers.cells reg.observers.top).isSome
            simp
          refine ⟨((reg.withObservation new).withObserver reg.observations.top ovr, 0), ?_, ?_, ?_⟩
          · dsimp only
            rw [reg.ecObservationAdd_opens made opens.2]
            dsimp only
            rw [attached]
            simp
          · rw [grown]
            refine Nested.Tidy.attach ?_ _ unobserved
            rw [nested]
            exact wellFormed.tidy.plant unborn
          · rw [grown]
            refine Nested.Occupied.attach _ fun q list other there => ?_
            rw [nested] at there
            refine wellFormed.occupied q list ?_
            simpa [Nested.plant, other] using there
        · obtain ⟨observations, added, same⟩ := reg.ecObservationAdd_refused opens
          have nested : ({reg with observations := observations} : Registry).nested = reg.nested := by
            unfold Registry.nested
            rw [same]
          refine ⟨({reg with observations := observations}, -1), ?_, wellFormed.congr nested⟩
          dsimp only
          rw [added]

/-- An observation whose first observer cannot be created is freed, and stays linked. -/
theorem Registry.addObserver_dangles {flow : EcFlow} {args : ObserveArgs} (opens : reg.Opens flow args)
    (failed : ecObserverNew flow args = none) :
    ∃ result, reg.ecAddObserver flow args = .ok result ∧ ¬ result.1.Sound := by
  obtain ⟨given, searched, made, countdown⟩ := opens
  obtain ⟨new, made⟩ := Option.isSome_iff_exists.mp made
  let opened := reg.withObservation new
  refine ⟨({opened with observations := opened.observations.free reg.observations.top}, -1), ?_, ?_⟩
  · unfold Registry.ecAddObserver
    rw [if_neg (by simp [given]), searched]
    dsimp only
    rw [reg.ecObservationAdd_opens made countdown]
    dsimp only
    rw [Registry.ecObserverAdd, failed]
    dsimp only
    rw [if_pos (by decide), Registry.ecObservationFree, reg.withObservation_top]
    dsimp only
    rw [(ecObservationNew_made made).2]
    rfl
  · intro sound
    have member : reg.observations.top ∈ opened.observing := List.mem_append_right _ (List.mem_singleton_self _)
    obtain ⟨obs, there, _⟩ := sound.linked reg.observations.top member
    change (opened.observations.free reg.observations.top).cells reg.observations.top = some obs at there
    rw [Heap.free_self] at there
    cases there

/-- The round comes to an observer whose callback produces nothing, and whose notification goes out. -/
def Registry.ReachesDeletion (reg : Registry) (env : RoundEnv) (op : ObservationPtr) (obs : ObservationCell) : Prop :=
  env.counter.isSome ∧ ∃ before vp after, obs.observers = before ++ vp :: after ∧
    (∀ wp ∈ before, reg.Informs env op wp) ∧ reg.Deletes env op vp

theorem Registry.WellFormed.setNotify (wellFormed : reg.WellFormed) (op : ObservationPtr) (pending : Bool) :
    (reg.setNotify op pending).WellFormed :=
  wellFormed.congr (reg.modify_nested op _ fun _ => rfl)

/-- A round that comes to no deletion leaves a well formed registry. -/
theorem Registry.WellFormed.round (wellFormed : reg.WellFormed) (platform : Platform) (env : RoundEnv)
    (found : reg.observations.cells op = some obs) (undeleted : ¬ reg.ReachesDeletion env op obs) :
    ∃ round, ecObCb platform env reg op = .ok round ∧ round.reg.WellFormed := by
  have saved : ∀ list, (reg.saveMids env list).WellFormed := fun list => wellFormed.congr (reg.saveMids_nested env list)
  cases clock : env.counter with
  | none => exact ⟨_, by rw [ecObCb, clock], wellFormed⟩
  | some cnt =>
      have ticking : env.counter.isSome := by rw [clock]; rfl
      rcases all_or_first (reg.Informs env op) obs.observers with all | ⟨before, vp, after, split, good, bad⟩
      · obtain ⟨attempts, _, failed, result⟩ := ecObCb_informs platform found clock all
        refine ⟨_, result, ?_⟩
        dsimp only
        split
        · exact (saved obs.observers).setNotify op true
        · exact saved obs.observers
      · have member : vp ∈ obs.observers := by
          rw [split]
          simp
        have live := Option.isSome_iff_exists.mpr (wellFormed.lives found member)
        obtain ⟨attempts, _, result⟩ := ecObCb_fails platform found clock split good live bad fun deletes =>
          undeleted ⟨ticking, before, vp, after, split, good, deletes⟩
        exact ⟨_, result, saved before⟩

/-- A round that comes to a deletion walks on from memory that it has freed. -/
theorem Registry.round_dangles (platform : Platform) {env : RoundEnv} (found : reg.observations.cells op = some obs)
    (deletion : reg.ReachesDeletion env op obs) : ecObCb platform env reg op = .error .disposed := by
  obtain ⟨ticking, before, vp, after, split, good, deletes⟩ := deletion
  obtain ⟨cnt, clock⟩ := Option.isSome_iff_exists.mp ticking
  exact ecObCb_deletes platform found clock split good deletes

end WellFormed

/-- What can happen to the registry. -/
inductive RegistryEvent where
  | add (flow : EcFlow) (args : ObserveArgs)
  | rem (flow : EcFlow)
  | canceledByGet (flow : EcFlow)
  | canceledByRst (conn : EcConn) (mid : UInt16)
  | round (op : ObservationPtr) (env : RoundEnv)

/-- The event loop starts a round when the timer of the observation is pending, which then is no more. -/
def Registry.timeout (platform : Platform) (env : RoundEnv) (reg : Registry) (op : ObservationPtr) :
    Except EcFault Registry :=
  match reg.observations.cells op with
  | none => .ok reg
  | some obs =>
      if obs.notify = false then .ok reg
      else (ecObCb platform env (reg.setNotify op false) op).map fun round => round.reg

def registryStep (platform : Platform) (reg : Registry) (event : RegistryEvent) : Except EcFault Registry :=
  match event with
  | .add flow args => (reg.ecAddObserver flow args).map fun added => added.1
  | .rem flow => reg.ecRemObserver flow
  | .canceledByGet flow => reg.ecObserveCanceledByGet flow
  | .canceledByRst conn mid => (reg.ecObserveCanceledByRst conn mid).map fun canceled => canceled.1
  | .round op env => reg.timeout platform env op

def registryMachine (platform : Platform) : Machine Registry RegistryEvent EcFault := ⟨registryStep platform⟩

/-- The step uses no freed memory, and leaves none of it linked and no linked observation without observers. -/
def SoundStep (platform : Platform) (reg : Registry) (event : RegistryEvent) : Prop :=
  Avoids (fun fault => fault = EcFault.disposed) Registry.Sound (registryStep platform reg event)

/-- The observer that a new observation is opened for can be created, and no round comes to a deletion. -/
def RegistryEvent.Careful (reg : Registry) : RegistryEvent → Prop
  | .add flow args => reg.Opens flow args → (ecObserverNew flow args).isSome
  | .round op env => ∀ obs, reg.observations.cells op = some obs → obs.notify = true →
      ¬ reg.ReachesDeletion env op obs
  | _ => True

theorem Registry.setNotify_reaches {reg : Registry} {op : ObservationPtr} {obs : ObservationCell}
    (found : reg.observations.cells op = some obs) (pending : Bool) (env : RoundEnv) :
    (reg.setNotify op pending).ReachesDeletion env op {obs with notify := pending} ↔
      reg.ReachesDeletion env op obs := by
  have informs := Registry.setNotify_informs found pending env
  have deletes := Registry.setNotify_deletes found pending env
  unfold Registry.ReachesDeletion
  simp only [informs, deletes]

/-- A careful step uses no freed memory and leaves a well formed registry. -/
theorem registryStep_careful (platform : Platform) {reg : Registry} {event : RegistryEvent}
    (wellFormed : reg.WellFormed) (careful : event.Careful reg) :
    ∃ next, registryStep platform reg event = .ok next ∧ next.WellFormed := by
  cases event with
  | add flow args =>
      obtain ⟨result, added, kept⟩ := wellFormed.addObserver careful
      exact ⟨result.1, by rw [registryStep, added]; rfl, kept⟩
  | rem flow => exact wellFormed.removeSource flow
  | canceledByGet flow => exact wellFormed.canceledByGet flow
  | canceledByRst conn mid =>
      obtain ⟨result, canceled, kept⟩ := wellFormed.canceledByRst conn mid
      exact ⟨result.1, by rw [registryStep, canceled]; rfl, kept⟩
  | round op env =>
      change ∃ next, reg.timeout platform env op = .ok next ∧ next.WellFormed
      unfold Registry.timeout
      cases found : reg.observations.cells op with
      | none => exact ⟨reg, rfl, wellFormed⟩
      | some obs =>
          dsimp only
          by_cases idle : obs.notify = false
          · exact ⟨reg, if_pos idle, wellFormed⟩
          · have undeleted := careful obs found (by simpa using idle)
            obtain ⟨round, finished, kept⟩ := (wellFormed.setNotify op false).round platform env
              (Registry.setNotify_found found false) (mt (Registry.setNotify_reaches found false env).mp undeleted)
            exact ⟨round.reg, by rw [if_neg idle, finished]; rfl, kept⟩

/-- A step that is not careful uses freed memory or leaves some of it linked. -/
theorem registryStep_careless (platform : Platform) {reg : Registry} {event : RegistryEvent}
    (careless : ¬ event.Careful reg) :
    ¬ SoundStep platform reg event := by
  cases event with
  | add flow args =>
      obtain ⟨opens, failed⟩ := Classical.not_imp.mp careless
      obtain ⟨result, added, broken⟩ := Registry.addObserver_dangles opens (Option.not_isSome_iff_eq_none.mp failed)
      rw [SoundStep, registryStep, added]
      exact broken
  | round op env =>
      obtain ⟨obs, careless⟩ := not_forall.mp careless
      obtain ⟨found, careless⟩ := Classical.not_imp.mp careless
      obtain ⟨pending, careless⟩ := Classical.not_imp.mp careless
      have dangles := Registry.round_dangles platform (Registry.setNotify_found found false)
        ((Registry.setNotify_reaches found false env).mpr (not_not.mp careless))
      change ¬ Avoids _ Registry.Sound (reg.timeout platform env op)
      unfold Registry.timeout
      rw [found]
      dsimp only
      rw [if_neg (by simp [pending]), dangles]
      exact fun avoided => avoided rfl
  | rem flow => exact absurd trivial careless
  | canceledByGet flow => exact absurd trivial careless
  | canceledByRst conn mid => exact absurd trivial careless

/-- From the empty registry on, no step uses freed memory and every step leaves live observations with observers exactly
when every step is careful. -/
theorem registryRun_sound_iff (platform : Platform) (events : List RegistryEvent) :
    (registryMachine platform).Meets (SoundStep platform) Registry.empty events ↔
      (registryMachine platform).Meets (fun reg event => event.Careful reg) Registry.empty events := by
  refine (registryMachine platform).meets_iff_kept Registry.WellFormed _ _ ?_ ?_ events Registry.empty_wellFormed
  · intro reg event next wellFormed careful stepped
    obtain ⟨other, same, kept⟩ := registryStep_careful platform wellFormed careful
    have result : (registryMachine platform).step reg event = .ok other := same
    rw [result] at stepped
    cases stepped
    exact kept
  · intro reg event wellFormed
    constructor
    · exact fun avoided => not_not.mp fun careless => registryStep_careless platform careless avoided
    · intro careful
      obtain ⟨next, stepped, kept⟩ := registryStep_careful platform wellFormed careful
      rw [SoundStep, stepped]
      exact kept.sound

/-- The flow of a GET of `/a` from an observer on this host. -/
def observedGet (port : UInt16) : EcFlow :=
  {EcFlow.zero with conn := observerConn port, method := .get, urlstr := [0x2f, 0x61]}

/-- The user registers the source of a request for one minute, with an ETag of the given size. -/
def observeArgs (etagSz : Nat) : ObserveArgs := ⟨true, 60, 0, etagSz, true, true, true⟩

/-- An ETag of nine bytes makes the first registration for a resource fail, and leaves its freed observation linked. -/
theorem longEtag_dangles :
    ¬ ∀ (platform : Platform) (events : List RegistryEvent),
      (registryMachine platform).Meets (SoundStep platform) Registry.empty events := by
  intro claim
  have step := (claim loopbackPlatform [.add (observedGet 40000) (observeArgs 9)]).1
  have failed : ∃ reg, registryStep loopbackPlatform Registry.empty (.add (observedGet 40000) (observeArgs 9)) =
      .ok reg ∧ reg.observing = [⟨0⟩] ∧ reg.observations.cells ⟨0⟩ = none := ⟨_, rfl, rfl, rfl⟩
  obtain ⟨reg, added, linked, freed⟩ := failed
  rw [SoundStep, added] at step
  obtain ⟨obs, found, _⟩ := step.linked ⟨0⟩ (by rw [linked]; simp)
  rw [freed] at found
  cases found

end Webthings.Evcoap
