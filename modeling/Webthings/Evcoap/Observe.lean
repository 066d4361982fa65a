import Webthings.Evcoap.Pdu

namespace Webthings.Evcoap

/-- An observer of a resource: its source, and the MID of the last notification sent to it, if there was one. -/
structure EcObserver where
  conn : EcConn
  notified : Option UInt16
  deriving DecidableEq

/-- The member `last_mid`, which the allocation leaves at zero until a notification is sent. -/
def EcObserver.lastMid (ovr : EcObserver) : UInt16 := ovr.notified.getD 0

/-- A MID other than zero is in the member only when a notification had it. -/
theorem EcObserver.lastMid_eq_iff (ovr : EcObserver) {mid : UInt16} (nonzero : mid ≠ 0) :
    ovr.lastMid = mid ↔ ovr.notified = some mid := by
  unfold EcObserver.lastMid
  cases ovr.notified with
  | none => simp [Ne.symm nonzero]
  | some sent => simp

/-- An observed resource with its observers in the order of their registration. -/
structure EcObservation where
  uri : List UInt8
  observers : List EcObserver
  deriving DecidableEq

def asciiLower (c : UInt8) : UInt8 := if 65 ≤ c ∧ c ≤ 90 then c + 32 else c

/-- The comparison that ignores case finds no difference. -/
def asciiStrcaseEqual (s t : List UInt8) : Bool := s.map asciiLower == t.map asciiLower

def ecObservationSearch (observing : List EcObservation) (uri : List UInt8) : Option EcObservation :=
  observing.find? fun obs => asciiStrcaseEqual obs.uri uri

/-- Without security the source of a request is its address and port. -/
def ecSourceMatch (reqSrc obsSrc : EcConn) : Bool :=
  match ecNetSocklen reqSrc.peer with
  | none => false
  | some _ => reqSrc.peer == obsSrc.peer

/-- A MID other than zero has to be the one sent last, too. -/
def observerMatch (conn : EcConn) (mid : UInt16) (ovr : EcObserver) : Bool :=
  ecSourceMatch conn ovr.conn && (mid == 0 || ovr.lastMid == mid)

def ecObserverSearch (obs : EcObservation) (conn : EcConn) (mid : UInt16) : Option EcObserver :=
  obs.observers.find? (observerMatch conn mid)

/-- The first observation with a matching observer loses it, and goes with its last one. -/
def ecObserverRemove (here : EcObservation → Bool) (conn : EcConn) (mid : UInt16) :
    List EcObservation → List EcObservation
  | [] => []
  | obs :: rest =>
      if here obs && (ecObserverSearch obs conn mid).isSome then
        let left := obs.observers.eraseP (observerMatch conn mid)
        if left = [] then rest else {obs with observers := left} :: rest
      else obs :: ecObserverRemove here conn mid rest

/-- A reset from an observer cancels its observation; there is no result when it has none. -/
def ecObserveCanceledByRst (observing : List EcObservation) (conn : EcConn) (mid : UInt16) :
    Option (List EcObservation) :=
  if observing.any fun obs => (ecObserverSearch obs conn mid).isSome then
    some (ecObserverRemove (fun _ => true) conn mid observing)
  else none

/-- A GET of an observed resource cancels the observation of its source. -/
def ecObserveCanceledByGet (observing : List EcObservation) (flow : EcFlow) : List EcObservation :=
  if flow.method ≠ .get then observing
  else
    match ecObservationSearch observing flow.urlstr with
    | none => observing
    | some found => ecObserverRemove (fun obs => obs == found) flow.conn 0 observing

/-- The endpoints of an observer on this host. -/
def observerConn (port : UInt16) : EcConn := ⟨5, SockAddr.zero, ⟨.inet, [127, 0, 0, 1], port⟩, none⟩

end Webthings.Evcoap
