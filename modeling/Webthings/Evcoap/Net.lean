import Webthings.Evcoap.Options.Bundle

namespace Webthings.Evcoap

/-- The address families that `ec_net_socklen` tells apart. -/
inductive SaFamily where
  | unspec
  | inet
  | inet6
  deriving DecidableEq, Repr

/-- A socket address; zeroed memory is the unspecified one. -/
structure SockAddr where
  family : SaFamily
  addr : List UInt8
  port : UInt16
  deriving DecidableEq, Repr

def SockAddr.zero : SockAddr := ⟨.unspec, [], 0⟩

/-- What the code takes from the platform and from the libraries outside of the repository. -/
structure Platform where
  order : ByteOrder
  isAbsolute : List UInt8 → Bool
  formatSockaddrPort : SockAddr → List Char
  getsockname : Int → Option SockAddr
  composeUrl : List EcOpt → SockAddr → Option (List UInt8 × Bool)

def ecNetSocklen (ss : SockAddr) : Option Nat :=
  match ss.family with
  | .inet => some 16
  | .inet6 => some 28
  | .unspec => none

/-- A datagram handed to `sendmsg`: header, options and payload, its socket and its destination. -/
structure Datagram where
  hdr : List UInt8
  opts : List UInt8
  payload : List UInt8
  sd : Int
  peer : SockAddr
  deriving DecidableEq, Repr

/-- The flag `sent` is the outcome of `sendmsg`. -/
def ecNetSend (sent : Bool) (hdr opts payload : List UInt8) (sd : Int) (peer : SockAddr) : Option Datagram :=
  if sd = -1 then none
  else
    match ecNetSocklen peer with
    | none => none
    | some _ => if sent then some ⟨hdr, opts, payload, sd, peer⟩ else none

theorem ecNetSend_some {sent : Bool} {hdr opts payload : List UInt8} {sd : Int} {peer : SockAddr}
    {datagram : Datagram} (handed : ecNetSend sent hdr opts payload sd peer = some datagram) :
    datagram = ⟨hdr, opts, payload, sd, peer⟩ := by
  unfold ecNetSend at handed
  split at handed
  · cases handed
  · split at handed
    · cases handed
    · split at handed
      · cases handed
        rfl
      · cases handed

/-- A successful socket, a valid descriptor and a known address family are all that a send needs. -/
theorem ecNetSend_isSome (sent : Bool) (hdr opts payload : List UInt8) (sd : Int) (peer : SockAddr) :
    (ecNetSend sent hdr opts payload sd peer).isSome ↔ sd ≠ -1 ∧ (ecNetSocklen peer).isSome ∧ sent = true := by
  unfold ecNetSend
  by_cases invalid : sd = -1
  · simp [invalid]
  · rw [if_neg invalid]
    cases ecNetSocklen peer with
    | none => simp
    | some length => cases sent <;> simp [invalid]

/-- The endpoint pair of a flow; `isConfirmable` is none while it is not set. -/
structure EcConn where
  socket : Int
  us : SockAddr
  peer : SockAddr
  isConfirmable : Option Bool
  deriving DecidableEq

def EcConn.zero : EcConn := ⟨0, SockAddr.zero, SockAddr.zero, none⟩

def ecConnSaveUs (platform : Platform) (conn : EcConn) (sd : Int) : EcConn × Int :=
  if sd = -1 then (conn, -1)
  else
    match platform.getsockname sd with
    | none => (conn, -1)
    | some us => ({conn with us := us, socket := sd}, 0)

def ecConnSavePeer (conn : EcConn) (peer : SockAddr) : EcConn × Int :=
  match ecNetSocklen peer with
  | none => (conn, -1)
  | some _ => ({conn with peer := peer}, 0)

def ecConnSetConfirmable (conn : EcConn) (isCon : Bool) : EcConn := {conn with isConfirmable := some isCon}

/-- The pair of a connection that identifies an observer. -/
def ecConnCopy (src dst : EcConn) : EcConn := {dst with socket := src.socket, peer := src.peer}

/-- The message flow of a transaction; `token` holds `token_sz` bytes and `urlstr` a C string. -/
structure EcFlow where
  conn : EcConn
  method : EcMethod
  respCode : EcRc
  urlstr : List UInt8
  proxyUri : Bool
  isSep : Bool
  token : List UInt8
  deriving DecidableEq

def EcFlow.zero : EcFlow := ⟨EcConn.zero, .unset, ecRcUnset, [], false, false, []⟩

def ecFlowSetMethod (flow : EcFlow) (code : Nat) : EcFlow × Int :=
  match EcMethod.ofCode code with
  | none => (flow, -1)
  | some method => ({flow with method := method}, 0)

def ecFlowSetRespCode (flow : EcFlow) (rc : EcRc) : EcFlow × Int :=
  if ecIsRespCode rc then ({flow with respCode := rc}, 0) else (flow, -1)

/-- The array has eight bytes; a copy that runs over its end has no result. -/
def ecFlowSaveToken (flow : EcFlow) (tok : List UInt8) : Option EcFlow :=
  if tok.length ≤ ecFlowTokenMax then some {flow with token := tok} else none

/-- `ec_flow_save_url` on what the URL composer returned, none when it failed. -/
def ecFlowSaveUrl (flow : EcFlow) (url : Option (List UInt8 × Bool)) : EcFlow × Int :=
  match url with
  | none => (flow, -1)
  | some (urlstr, isProxy) => ({flow with urlstr := urlstr, proxyUri := isProxy}, 0)

/-- A timer interval. -/
structure TimeVal where
  sec : Nat
  usec : Nat
  deriving DecidableEq, Repr

/-- A timer; `evti` tells whether its event exists, `pending` whether the event loop will fire it. -/
structure EcTimer where
  retriesLeft : Nat
  evti : Bool
  pending : Bool
  tout : TimeVal
  deriving DecidableEq

def EcTimer.zero : EcTimer := ⟨0, false, false, ⟨0, 0⟩⟩

/-- Creating and adding the event is assumed to succeed. -/
def ecTimerStart (ti : EcTimer) (maxRetry : Nat) : EcTimer × Int :=
  if maxRetry = 0 then (ti, -1)
  else if ti.evti then (ti, -1)
  else ({ti with retriesLeft := maxRetry, evti := true, pending := true}, 0)

def ecTimerRemove (ti : EcTimer) : EcTimer :=
  if ti.evti then {ti with retriesLeft := 0, evti := false, pending := false} else ti

/-- The event is deleted and added again; there is no result when it does not exist. -/
def ecTimerRestart (ti : EcTimer) : Option EcTimer :=
  if ti.evti then some {ti with pending := true} else none

/-- The retransmission timer of a transaction starts with the response timeout. -/
def coapTimerStart (ti : EcTimer) : EcTimer × Int :=
  ecTimerStart {ti with tout := ⟨ecCoapRespTimeout, 0⟩} ecCoapMaxRetransmit

/-- A restart doubles the timeout and uses up one retry, unless none is left. -/
def coapTimerRestart (ti : EcTimer) : Option EcTimer :=
  if ti.retriesLeft = 0 then some ti
  else ecTimerRestart {ti with tout := {ti.tout with sec := ti.tout.sec * 2}, retriesLeft := ti.retriesLeft - 1}

/-- The event loop fires the timer once. -/
def EcTimer.fired (ti : EcTimer) : EcTimer := {ti with pending := false}

/-- An event that does not exist is not pending. -/
def EcTimer.Sound (ti : EcTimer) : Prop := ti.pending = true → ti.evti = true

@[simp] theorem ecTimerRemove_pending (ti : EcTimer) (sound : ti.Sound) : (ecTimerRemove ti).pending = false := by
  unfold ecTimerRemove
  split
  · rfl
  · rename_i absent
    cases armed : ti.pending with
    | false => rfl
    | true => exact absurd (sound armed) absent

@[simp] theorem ecTimerRemove_evti (ti : EcTimer) : (ecTimerRemove ti).evti = false := by
  unfold ecTimerRemove
  split
  · rfl
  · rename_i absent
    simpa using absent

end Webthings.Evcoap
