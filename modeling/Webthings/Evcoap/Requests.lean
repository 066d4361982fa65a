import Webthings.Evcoap.ServerInvariant

namespace Webthings.Evcoap
open Webthings.Transition

/-- The endpoints and the message model that a request gives to its flow. -/
def requestConn (platform : Platform) (h : EcHdr) (input : ServerInput) : EcConn :=
  ecConnSetConfirmable (ecServerSaveConn platform EcConn.zero input.sd input.peer).1 (h.t == .con)

/-- A request with a flow that all of it could be saved in. -/
structure ServerInput.Prepares (platform : Platform) (h : EcHdr) (input : ServerInput) (flow : EcFlow) : Prop where
  saved : (ecServerSaveConn platform EcConn.zero input.sd input.peer).2 = 0
  decoded : (ecServerBody input.raw input.beyond).decoded.rc = ecRcUnset
  request : ecServerSaveRequest platform {EcFlow.zero with conn := requestConn platform h input} h.code.toNat
    (ecServerBody input.raw input.beyond).decoded.opts = some (flow, 0)

/-- The server that a request is dispatched to. -/
def EcServer.accepted (flow : EcFlow) (req : EcPdu) : EcServer :=
  {ecServerNew with state := .reqOk, flow := flow, req := some req, res := some ecPduNewEmpty}

/-- A new server that has accepted its request, at work. -/
def EcWork.accepting (w : EcWork) (h : EcHdr) (input : ServerInput) (flow : EcFlow) : EcWork :=
  {w with
    srv := EcServer.accepted flow ((ecServerBody input.raw input.beyond).pdu input.raw h)
    observing := ecObserveCanceledByGet w.observing flow}

/-- The method, the token and the URL leave the endpoints of a flow as they are. -/
theorem ecServerSaveRequest_conn {platform : Platform} {flow saved : EcFlow} {code : Nat} {opts : EcOpts} {rc : Int}
    (finished : ecServerSaveRequest platform flow code opts = some (saved, rc)) : saved.conn = flow.conn := by
  unfold ecServerSaveRequest at finished
  dsimp only at finished
  have method : (ecFlowSetMethod flow code).1.conn = flow.conn := by
    unfold ecFlowSetMethod
    split <;> rfl
  split at finished
  · cases finished
    exact method
  · obtain ⟨tokened, token, url⟩ := Option.map_eq_some_iff.mp finished
    unfold ecFlowSaveToken at token
    split at token
    · cases token
      unfold ecFlowSaveUrl at url
      split at url <;> cases url <;> exact method
    · cases token

/-- The peer of a new flow is the sender of the request, unless the socket is the one of zeroed memory. -/
theorem ecServerSaveConn_peer (platform : Platform) (sd : Int) (peer : SockAddr)
    (saved : (ecServerSaveConn platform EcConn.zero sd peer).2 = 0) :
    (ecServerSaveConn platform EcConn.zero sd peer).1.peer = peer ∨
      sd = 0 ∧ (ecServerSaveConn platform EcConn.zero sd peer).1.peer = SockAddr.zero := by
  unfold ecServerSaveConn at saved ⊢
  by_cases other : EcConn.zero.socket ≠ sd
  · rw [if_pos other] at saved ⊢
    dsimp only at saved ⊢
    by_cases named : (ecConnSaveUs platform EcConn.zero sd).2 ≠ 0
    · rw [if_pos named] at saved
      cases saved
    · rw [if_neg named] at saved ⊢
      unfold ecConnSavePeer at saved ⊢
      cases known : ecNetSocklen peer with
      | none =>
          rw [known] at saved
          cases saved
      | some length => exact Or.inl rfl
  · rw [if_neg other]
    exact Or.inr ⟨(not_not.mp other).symm, rfl⟩

variable {platform : Platform}

theorem ServerInput.Prepares.conn {h : EcHdr} {input : ServerInput} {flow : EcFlow}
    (prepares : input.Prepares platform h flow) : flow.conn = requestConn platform h input :=
  ecServerSaveRequest_conn prepares.request

theorem ServerInput.Prepares.peer {h : EcHdr} {input : ServerInput} {flow : EcFlow}
    (prepares : input.Prepares platform h flow) :
    flow.conn.peer = input.peer ∨ input.sd = 0 ∧ flow.conn.peer = SockAddr.zero := by
  rw [prepares.conn]
  exact ecServerSaveConn_peer platform input.sd input.peer prepares.saved

/-- A request that prepares its flow is dispatched. -/
theorem ecServerProcess_prepared {resources : List (List UInt8)} {fb : Bool} {h : EcHdr} {input : ServerInput}
    {flow : EcFlow} {w : EcWork} (created : w.srv = ecServerNew) (prepares : input.Prepares platform h flow) :
    ecServerProcess platform resources fb h input w =
      ecServerDispatch platform resources fb input.env (w.accepting h input flow) := by
  obtain ⟨saved, decoded, request⟩ := prepares
  unfold requestConn at request
  unfold ecServerProcess
  rw [created]
  dsimp only [ecServerNew, ecServerSetMsgModel, EcFlow.zero] at saved request ⊢
  rw [if_neg (by simpa using saved), if_neg (by simpa using decoded), request]
  dsimp only
  rw [if_neg (by simp), ecServerSetState_stay _ .reqOk rfl rfl (by decide)]
  rfl

/-- A request that finishes is dispatched, or ends in the error exit without a response to send. -/
theorem ecServerProcess_cases {resources : List (List UInt8)} {fb : Bool} {h : EcHdr} {input : ServerInput}
    {w w' : EcWork} {rc : EcNetCbrc} (created : w.srv = ecServerNew)
    (finished : ecServerProcess platform resources fb h input w = .ok (w', rc)) :
    ((¬ ∃ flow, input.Prepares platform h flow) ∧
      ∃ flow code, ecServerFail platform input.env.reply code {w with srv := {ecServerNew with flow := flow}} = .ok w') ∨
    ∃ flow, input.Prepares platform h flow ∧
      ecServerDispatch platform resources fb input.env (w.accepting h input flow) = .ok (w', rc) := by
  by_cases prepared : ∃ flow, input.Prepares platform h flow
  · obtain ⟨flow, prepares⟩ := prepared
    rw [ecServerProcess_prepared created prepares] at finished
    exact Or.inr ⟨flow, prepares, finished⟩
  · refine Or.inl ⟨prepared, ?_⟩
    unfold ecServerProcess at finished
    rw [created] at finished
    dsimp only at finished
    split at finished
    · obtain ⟨failed, ended, same⟩ := map_ok finished
      cases same
      exact ⟨_, _, ended⟩
    · rename_i saved
      split at finished
      · obtain ⟨failed, ended, same⟩ := map_ok finished
        cases same
        exact ⟨_, _, ended⟩
      · rename_i decoded
        split at finished
        · cases finished
        · rename_i flow code request
          split at finished
          · obtain ⟨failed, ended, same⟩ := map_ok finished
            cases same
            exact ⟨_, _, ended⟩
          · rename_i zero
            have none : code = 0 := by simpa using zero
            exact absurd ⟨flow, not_not.mp saved, by simpa using decoded, none ▸ request⟩ prepared

end Webthings.Evcoap
