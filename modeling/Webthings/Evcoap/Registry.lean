import Webthings.Evcoap.Observe
import Webthings.Memory.Heap

namespace Webthings.Evcoap
open Webthings.Memory

/-- The size of the token array of an observer. -/
@[simp] def ecObserverTokenMax : Nat := 8

@[simp] def ecUriMax : Nat := 512

/-- An observer in memory; its token fits the array. -/
structure ObserverCell extends EcObserver where
  token : List UInt8
  mediaType : Nat
  tokenFits : token.length ≤ ecObserverTokenMax

/-- An observation in memory; `notify` tells whether its timer is pending. -/
structure ObservationCell where
  uri : List UInt8
  maxAge : UInt32
  observers : List (Ptr ObserverCell)
  notify : Bool

abbrev ObservationPtr := Ptr ObservationCell

abbrev ObserverPtr := Ptr ObserverCell

/-- The list of the observed resources with the memory that it links. -/
structure Registry where
  observing : List ObservationPtr
  observations : Heap ObservationCell
  observers : Heap ObserverCell

def Registry.empty : Registry := ⟨[], Heap.empty, Heap.empty⟩

def Registry.ecObservationSearch (reg : Registry) (uri : List UInt8) : Except EcFault (Option ObservationPtr) :=
  reg.observations.search EcFault.disposed (fun obs => asciiStrcaseEqual obs.uri uri) reg.observing

def Registry.ecObserverSearch (reg : Registry) (obs : ObservationCell) (conn : EcConn) (mid : UInt16) :
    Except EcFault (Option ObserverPtr) :=
  reg.observers.search EcFault.disposed (fun ovr => observerMatch conn mid ovr.toEcObserver) obs.observers

/-- The arguments of `ec_add_observer` apart from the server, and whether there is memory for an observation with its
timer, whether the timer can be added and whether there is memory for an observer. -/
structure ObserveArgs where
  cb : Bool
  maxAge : UInt32
  mediaType : Nat
  etagSz : Nat
  observation : Bool
  countdown : Bool
  observer : Bool

/-- The size of the ETag is compared with the size of the token array. -/
def ecObserverNew (flow : EcFlow) (args : ObserveArgs) : Option ObserverCell :=
  if fits : flow.token.length ≤ ecObserverTokenMax then
    if args.etagSz > ecObserverTokenMax then none
    else if args.observer = false then none
    else
      some {
        conn := ecConnCopy flow.conn EcConn.zero
        notified := none
        token := flow.token
        mediaType := args.mediaType
        tokenFits := fits }
  else none

/-- The URL has to fit the array of the observation with its NUL. -/
def ecObservationNew (uri : List UInt8) (args : ObserveArgs) : Option ObservationCell :=
  if args.observation = false then none
  else if uri.length ≥ ecUriMax then none
  else
    some {
      uri := uri
      maxAge := if args.maxAge = 0 then UInt32.ofNat ecCoapDefaultMaxAge else args.maxAge
      observers := []
      notify := false }

/-- The second half of the result is the C return code. -/
def Registry.ecObservationStartCountdown (reg : Registry) (op : ObservationPtr) (countdown : Bool) :
    Except EcFault (Registry × Int) :=
  match reg.observations.cells op with
  | none => .error .disposed
  | some _ =>
      if countdown then
        .ok ({reg with observations := reg.observations.modify op fun obs => {obs with notify := true}}, 0)
      else .ok (reg, -1)

/-- The timer goes with the observation, and the list that links it is left as it is. -/
def Registry.ecObservationFree (reg : Registry) (op : ObservationPtr) : Except EcFault Registry :=
  match reg.observations.cells op with
  | none => .error .disposed
  | some obs =>
      (reg.observers.freeAll EcFault.disposed obs.observers).map fun observers =>
        {reg with observers := observers, observations := reg.observations.free op}

/-- The new observation is linked before it has an observer. -/
def Registry.ecObservationAdd (reg : Registry) (uri : List UInt8) (args : ObserveArgs) :
    Except EcFault (Registry × Option ObservationPtr) :=
  match ecObservationNew uri args with
  | none => .ok (reg, none)
  | some obs =>
      let op := reg.observations.top
      let created : Registry := {reg with observations := reg.observations.alloc obs}
      match created.ecObservationStartCountdown op args.countdown with
      | .error fault => .error fault
      | .ok (started, rc) =>
          if rc ≠ 0 then (started.ecObservationFree op).map fun freed => (freed, none)
          else .ok ({started with observing := started.observing ++ [op]}, some op)

def Registry.ecObserverAdd (reg : Registry) (op : ObservationPtr) (flow : EcFlow) (args : ObserveArgs) :
    Except EcFault (Registry × Int) :=
  match ecObserverNew flow args with
  | none => .ok (reg, -1)
  | some ovr =>
      match reg.observations.cells op with
      | none => .error .disposed
      | some _ =>
          .ok ({reg with
            observers := reg.observers.alloc ovr
            observations := reg.observations.modify op fun obs =>
              {obs with observers := obs.observers ++ [reg.observers.top]}}, 0)

/-- A failure frees the observation that was created, which is still linked. -/
def Registry.ecAddObserver (reg : Registry) (flow : EcFlow) (args : ObserveArgs) : Except EcFault (Registry × Int) :=
  if args.cb = false then .ok (reg, -1)
  else
    match reg.ecObservationSearch flow.urlstr with
    | .error fault => .error fault
    | .ok (some op) => reg.ecObserverAdd op flow args
    | .ok none =>
        match reg.ecObservationAdd flow.urlstr args with
        | .error fault => .error fault
        | .ok (added, none) => .ok (added, -1)
        | .ok (added, some op) =>
            match added.ecObserverAdd op flow args with
            | .error fault => .error fault
            | .ok (attached, rc) =>
                if rc ≠ 0 then (attached.ecObservationFree op).map fun freed => (freed, -1) else .ok (attached, 0)

/-- The second half of the result is `drained`, which tells that the observation has gone with its last observer. -/
def Registry.ecObserverRemove (reg : Registry) (op : ObservationPtr) (vp : ObserverPtr) :
    Except EcFault (Registry × Bool) :=
  match reg.observations.cells op, reg.observers.cells vp with
  | some obs, some _ =>
      let left := obs.observers.erase vp
      let removed : Registry := {reg with
        observers := reg.observers.free vp
        observations := reg.observations.modify op fun obs => {obs with observers := left}}
      if left = [] then
        ({removed with observing := removed.observing.erase op}.ecObservationFree op).map fun freed => (freed, true)
      else .ok (removed, false)
  | _, _ => .error .disposed

/-- The observer that has registered for the resource from the source of the request goes, if there is one. -/
def Registry.removeSource (reg : Registry) (flow : EcFlow) : Except EcFault Registry :=
  match reg.ecObservationSearch flow.urlstr with
  | .error fault => .error fault
  | .ok none => .ok reg
  | .ok (some op) =>
      match reg.observations.cells op with
      | none => .error .disposed
      | some obs =>
          match reg.ecObserverSearch obs flow.conn 0 with
          | .error fault => .error fault
          | .ok none => .ok reg
          | .ok (some vp) => (reg.ecObserverRemove op vp).map fun removed => removed.1

def Registry.ecRemObserver (reg : Registry) (flow : EcFlow) : Except EcFault Registry := reg.removeSource flow

/-- A GET cancels the observation of its source, whether or not it asks for a new one. -/
def Registry.ecObserveCanceledByGet (reg : Registry) (flow : EcFlow) : Except EcFault Registry :=
  if flow.method ≠ .get then .ok reg else reg.removeSource flow

/-- The loop over the observations that looks for the observer to be reset. -/
def Registry.rstSearch (reg : Registry) (conn : EcConn) (mid : UInt16) :
    List ObservationPtr → Except EcFault (Option (ObservationPtr × ObserverPtr))
  | [] => .ok none
  | op :: rest =>
      match reg.observations.cells op with
      | none => .error .disposed
      | some obs =>
          match reg.ecObserverSearch obs conn mid with
          | .error fault => .error fault
          | .ok (some vp) => .ok (some (op, vp))
          | .ok none => reg.rstSearch conn mid rest

/-- The second half of the result tells whether an observer was found. -/
def Registry.ecObserveCanceledByRst (reg : Registry) (conn : EcConn) (mid : UInt16) :
    Except EcFault (Registry × Bool) :=
  match reg.rstSearch conn mid reg.observing with
  | .error fault => .error fault
  | .ok none => .ok (reg, false)
  | .ok (some (op, vp)) => (reg.ecObserverRemove op vp).map fun removed => (removed.1, true)

/-- The registry without an observer, and without its observation when it was the last one there. -/
def Registry.without (reg : Registry) (op : ObservationPtr) (vp : ObserverPtr) (left : List ObserverPtr) : Registry :=
  let observations := reg.observations.modify op fun obs => {obs with observers := left}
  if left = [] then ⟨reg.observing.erase op, observations.free op, reg.observers.free vp⟩
  else ⟨reg.observing, observations, reg.observers.free vp⟩

@[simp] theorem Registry.without_observers (reg : Registry) (op : ObservationPtr) (vp : ObserverPtr)
    (left : List ObserverPtr) : (reg.without op vp left).observers = reg.observers.free vp := by
  unfold without
  dsimp only
  split <;> rfl

/-- The removal of a live observer from a live observation has no other effect. -/
theorem Registry.ecObserverRemove_live {reg : Registry} {op : ObservationPtr} {vp : ObserverPtr} {obs : ObservationCell}
    {ovr : ObserverCell} (found : reg.observations.cells op = some obs) (live : reg.observers.cells vp = some ovr) :
    reg.ecObserverRemove op vp =
      .ok (reg.without op vp (obs.observers.erase vp), decide (obs.observers.erase vp = [])) := by
  unfold ecObserverRemove without
  rw [found, live]
  dsimp only
  by_cases last : obs.observers.erase vp = []
  · rw [if_pos last, if_pos last]
    unfold ecObservationFree
    dsimp only
    rw [Heap.modify_self, found]
    dsimp only [Option.map]
    rw [last]
    rfl
  · rw [if_neg last, if_neg last]
    simp [last]

/-- An observer has the endpoints and the token of its flow. -/
theorem ecObserverNew_flow {flow : EcFlow} {args : ObserveArgs} {cell : ObserverCell}
    (created : ecObserverNew flow args = some cell) : cell.conn.peer = flow.conn.peer ∧ cell.token = flow.token := by
  unfold ecObserverNew at created
  split at created
  · split at created
    · cases created
    · split at created
      · cases created
      · cases created
        exact ⟨rfl, rfl⟩
  · cases created

/-- The source has no observer at an observation of the URL and nothing changes, or its observer is removed. -/
theorem Registry.removeSource_cases {reg next : Registry} {flow : EcFlow} (done : reg.removeSource flow = .ok next) :
    (reg.ecObservationSearch flow.urlstr = .ok none ∧ next = reg) ∨
    ∃ op obs, reg.ecObservationSearch flow.urlstr = .ok (some op) ∧ reg.observations.cells op = some obs ∧
      ((reg.ecObserverSearch obs flow.conn 0 = .ok none ∧ next = reg) ∨
        ∃ vp last, reg.ecObserverSearch obs flow.conn 0 = .ok (some vp) ∧
          reg.ecObserverRemove op vp = .ok (next, last)) := by
  unfold Registry.removeSource at done
  split at done
  · cases done
  · rename_i searched
    cases done
    exact Or.inl ⟨searched, rfl⟩
  · rename_i op searched
    split at done
    · cases done
    · rename_i obs found
      refine Or.inr ⟨op, obs, searched, found, ?_⟩
      split at done
      · cases done
      · rename_i observed
        cases done
        exact Or.inl ⟨observed, rfl⟩
      · rename_i vp observed
        cases removed : reg.ecObserverRemove op vp with
        | error fault =>
            rw [removed] at done
            cases done
        | ok result =>
            rw [removed] at done
            cases done
            exact Or.inr ⟨vp, result.2, observed, removed⟩

end Webthings.Evcoap
