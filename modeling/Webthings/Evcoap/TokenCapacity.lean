import Webthings.Evcoap.BaseSteps
import Webthings.Evcoap.Registry
import Webthings.Evcoap.Requests

namespace Webthings.Evcoap
open Webthings.Transition

/-- A copy has run over the end of its array. -/
abbrev EcFault.Overruns (fault : EcFault) : Prop := fault = .overrun

/-- Work that writes no token. -/
structure EcWork.SameToken (w w' : EcWork) : Prop where
  self : w'.self = w.self
  token : w'.srv.flow.token = w.srv.flow.token

theorem EcWork.SameToken.refl (w : EcWork) : w.SameToken w := ⟨rfl, rfl⟩

theorem EcWork.SameToken.trans {w middle w' : EcWork} (first : w.SameToken middle) (second : middle.SameToken w') :
    w.SameToken w' := ⟨second.self.trans first.self, second.token.trans first.token⟩

theorem EcWork.SameToken.of_core {w w' : EcWork} (core : w'.core = w.core) : w.SameToken w' :=
  ⟨congrArg ServerCore.self core, congrArg ServerCore.token core⟩

theorem ecServerEnter_token {srv entered : EcServer} {next : EcSrvState} (enters : ecServerEnter srv next = some entered) :
    entered.flow.token = srv.flow.token := by
  unfold ecServerEnter ecSrvRestartCoapTimer at enters
  split at enters
  · split at enters
    · cases enters
      rfl
    · split at enters
      · obtain ⟨coap, _, same⟩ := Option.map_eq_some_iff.mp enters
        rw [← same]
      · cases enters
        rfl
  · cases enters
    rfl

/-- A transition writes no token. -/
theorem ecServerSetState_token (w : EcWork) (next : EcSrvState) :
    Avoids EcFault.Overruns w.SameToken (ecServerSetState w next) := by
  unfold ecServerSetState
  split
  · simp
  · split
    · simp
    · rename_i entered enters
      have token := ecServerEnter_token enters
      dsimp only
      split
      · exact ⟨rfl, token⟩
      · exact ⟨rfl, token⟩

section Handlers

variable (platform : Platform)

theorem ecServerReady_token (env : SendEnv) (isCon : Bool) (w : EcWork) :
    Avoids EcFault.Overruns (fun ready => w.SameToken ready.1) (ecServerReady platform env isCon w) := by
  have responded := EcWork.SameToken.of_core (ecServerSendResp_core platform env .response w)
  unfold ecServerReady
  split
  · dsimp only
    split
    · exact responded
    · rw [avoids_map]
      exact (ecServerSetState_token _ _).weaken fun moved kept => responded.trans kept
  · exact .refl w

theorem ecServerWait_token (env : HandlerEnv) (isCon : Bool) (w : EcWork) :
    Avoids EcFault.Overruns (fun waited => w.SameToken waited.1) (ecServerWait platform env isCon w) := by
  unfold ecServerWait
  split
  · have acked : w.SameToken (if isCon then ecServerSendSeparateAck platform env.ack w else (w, 0)).1 := by
      split
      · exact .of_core (ecServerSendSeparateAck_core platform env.ack w)
      · exact .refl w
    generalize (if isCon then ecServerSendSeparateAck platform env.ack w else (w, 0)) = acking at acked ⊢
    dsimp only
    split
    · exact acked
    · obtain ⟨resched, rc, same⟩ := ecServerRescheduleUserfn_frame env.run.tv (ecServerAdd acking.1)
      have added : w.SameToken {ecServerAdd acking.1 with srv := {(ecServerAdd acking.1).srv with resched := resched}} :=
        acked.trans ⟨rfl, rfl⟩
      rw [same]
      split
      · exact added
      · rw [avoids_map]
        exact (ecServerSetState_token _ _).weaken fun moved kept => added.trans kept
  · exact .refl w

theorem ecServerUserfn_token (env : HandlerEnv) (w : EcWork) :
    Avoids EcFault.Overruns (fun run => w.SameToken run.1) (ecServerUserfn platform env w) := by
  unfold ecServerUserfn
  split
  · exact .refl w
  · rename_i isCon _
    have called : w.SameToken (applyCalls platform env.run.calls {w with invoked := w.invoked + 1}) :=
      .of_core (applyCalls_core platform env.run.calls {w with invoked := w.invoked + 1})
    dsimp only
    split
    · exact (ecServerReady_token platform env.response isCon _).weaken fun ready kept => called.trans kept
    · exact (ecServerWait_token platform env isCon _).weaken fun waited kept => called.trans kept
    · exact called
    · exact called

theorem ecServerFail_token (env : SendEnv) (rc : EcRc) (w : EcWork) :
    Avoids EcFault.Overruns w.SameToken (ecServerFail platform env rc w) := by
  have replied := EcWork.SameToken.of_core (ecServerReply_core platform env
    (if rc = ecRcUnset then ecInternalServerError else rc) w)
  exact (ecServerSetState_token _ _).weaken fun failed kept => replied.trans kept

theorem ecServerControlled_token (h : EcHdr) (input : ServerInput) (w : EcWork) :
    Avoids EcFault.Overruns (fun handled => w.SameToken handled.1) (ecServerControlled platform h input w) := by
  unfold ecServerControlled
  split
  · exact avoids_map.mpr (ecServerSetState_token w .clientRst)
  · split
    · exact avoids_map.mpr (ecServerFail_token platform input.env.reply ecBadRequest w)
    · exact avoids_map.mpr (ecServerSetState_token w .respDone)
  · exact avoids_map.mpr (ecServerFail_token platform input.env.reply _ w)
  · exact avoids_map.mpr (ecServerFail_token platform input.env.reply _ w)

/-- What follows the saving of a token leaves it as it is. -/
theorem ecServerDispatch_token (resources : List (List UInt8)) (fb : Bool) (env : HandlerEnv) (w : EcWork) :
    Avoids EcFault.Overruns (fun handled => w.SameToken handled.1) (ecServerDispatch platform resources fb env w) := by
  unfold ecServerDispatch
  split
  · have running := ecServerUserfn_token platform env w
    split
    · rename_i fault failed
      rw [failed] at running
      exact running
    · rename_i run rc finished
      have kept : w.SameToken run := running.of_ok finished
      split
      · rw [avoids_map]
        exact (ecServerFail_token platform env.reply ecRcUnset run).weaken fun failed same => kept.trans same
      · exact kept
  · have replied := EcWork.SameToken.of_core (ecServerReply_core platform env.reply ecNotFound w)
    rw [avoids_map]
    exact (ecServerSetState_token _ _).weaken fun moved kept => replied.trans kept

end Handlers

/-- The server of a request has its token, unless the request was rejected ahead of the callback, and so have the
observers that are made of it. -/
structure EcServer.HoldsToken (platform : Platform) (h : EcHdr) (input : ServerInput) (srv : EcServer) : Prop where
  fits : srv.flow.token.length ≤ ecFlowTokenMax
  saved : srv.flow.token = requestToken (ecServerBody input.raw input.beyond).decoded.opts ∨
    srv.state = .internalErr ∧ ¬ ∃ flow, input.Prepares platform h flow
  observers : ∀ args cell, ecObserverNew srv.flow args = some cell → cell.token = srv.flow.token

/-- The handling of a datagram copies no more than a token array holds, and the right token. -/
def EcBase.TokensFit (platform : Platform) (b : EcBase) (input : ServerInput) : Prop :=
  Avoids EcFault.Overruns (fun handled => ∀ h srv, b.Accepts platform input h → handled.1.heap b.nextSrv = some srv →
    srv.HoldsToken platform h input) (ecServerHandlePdu platform b input)

/-- The handling of a datagram comes to the copy of its token: it is a new request with endpoints and options. -/
structure EcBase.CopiesToken (platform : Platform) (b : EcBase) (input : ServerInput) (h : EcHdr) : Prop where
  accepts : b.Accepts platform input h
  method : ecIsMethod h.code.toNat
  endpoints : (ecServerSaveConn platform EcConn.zero input.sd input.peer).2 = 0
  options : (ecServerBody input.raw input.beyond).decoded.rc = ecRcUnset

/-- A token is saved whole, and only if its array holds it. -/
theorem ecServerSaveRequest_token {platform : Platform} {flow : EcFlow} {code : Nat} {opts : EcOpts}
    (method : ecIsMethod code) :
    (ecServerSaveRequest platform flow code opts = none ↔ ecFlowTokenMax < (requestToken opts).length) ∧
      ∀ saved rc, ecServerSaveRequest platform flow code opts = some (saved, rc) → saved.token = requestToken opts := by
  obtain ⟨m, known⟩ := (ecIsMethod_iff code).mp method
  have methodical : ecFlowSetMethod flow code = ({flow with method := m}, 0) := by
    unfold ecFlowSetMethod
    rw [known]
  unfold ecServerSaveRequest ecFlowSaveToken
  rw [methodical]
  dsimp only
  rw [if_neg (by simp)]
  by_cases short : (requestToken opts).length ≤ ecFlowTokenMax
  · rw [if_pos short]
    refine ⟨by simpa using short, fun saved rc finished => ?_⟩
    have url := Option.some.inj finished
    unfold ecFlowSaveUrl at url
    dsimp only at url
    split at url
    · cases url
      rfl
    · cases url
      rfl
  · rw [if_neg short]
    exact ⟨by simpa using short, fun saved rc finished => by cases finished⟩

section Requests

variable {platform : Platform} {resources : List (List UInt8)} {fb : Bool} {h : EcHdr} {input : ServerInput} {w : EcWork}

/-- A request that is rejected has a token that fits, or none. -/
theorem ecServerFail_holds {env : SendEnv} {rc : EcRc} {flow : EcFlow} (fits : flow.token.length ≤ ecFlowTokenMax)
    (rejected : ¬ ∃ flow, input.Prepares platform h flow) :
    Avoids EcFault.Overruns (fun failed => failed.self = w.self ∧ failed.srv.HoldsToken platform h input)
      (ecServerFail platform env rc {w with srv := {ecServerNew with flow := flow}}) := by
  have kept := ecServerFail_token platform env rc {w with srv := {ecServerNew with flow := flow}}
  unfold ecServerFail at kept ⊢
  rw [ecServerSetState_final _ .internalErr rfl rfl] at kept ⊢
  refine ⟨kept.self, ?_, Or.inr ⟨rfl, rejected⟩, fun args cell created => (ecObserverNew_flow created).2⟩
  rw [kept.token]
  exact fits

/-- A new request is rejected or has its token, unless the token is too long for the array. -/
theorem ecServerProcess_token (created : w.srv = ecServerNew) (method : ecIsMethod h.code.toNat)
    (short : (ecServerSaveConn platform EcConn.zero input.sd input.peer).2 = 0 →
      (ecServerBody input.raw input.beyond).decoded.rc = ecRcUnset →
      (requestToken (ecServerBody input.raw input.beyond).decoded.opts).length ≤ ecFlowTokenMax) :
    Avoids EcFault.Overruns (fun handled => handled.1.self = w.self ∧ handled.1.srv.HoldsToken platform h input)
      (ecServerProcess platform resources fb h input w) := by
  by_cases prepared : ∃ flow, input.Prepares platform h flow
  · obtain ⟨flow, prepares⟩ := prepared
    rw [ecServerProcess_prepared created prepares]
    have token := (ecServerSaveRequest_token method).2 flow 0 prepares.request
    refine (ecServerDispatch_token platform resources fb input.env _).weaken fun handled kept => ?_
    have same : handled.1.srv.flow.token = flow.token := kept.token
    refine ⟨kept.self, ?_, Or.inl (same.trans token), fun args cell created => (ecObserverNew_flow created).2⟩
    rw [same, token]
    exact short prepares.saved prepares.decoded
  · have failing : ∀ flow rc, flow.token.length ≤ ecFlowTokenMax → Avoids EcFault.Overruns
        (fun handled : EcWork × EcNetCbrc => handled.1.self = w.self ∧ handled.1.srv.HoldsToken platform h input)
        ((ecServerFail platform input.env.reply rc {w with srv := {ecServerNew with flow := flow}}).map fun failed =>
          (failed, .error)) := by
      intro flow rc fits
      exact avoids_map.mpr (ecServerFail_holds fits prepared)
    unfold ecServerProcess
    rw [created]
    dsimp only
    split
    · exact failing _ _ (Nat.zero_le _)
    · rename_i saved
      have endpoints := not_not.mp saved
      split
      · exact failing _ _ (Nat.zero_le _)
      · rename_i decoded
        have fits := short endpoints (by simpa using decoded)
        split
        · rename_i overrun
          have long := (ecServerSaveRequest_token method).1.mp overrun
          exact absurd fits (Nat.not_le.mpr long)
        · rename_i flow code request
          have token := (ecServerSaveRequest_token method).2 flow code request
          split
          · exact failing _ _ (by rw [token]; exact fits)
          · rename_i zero
            have none : code = 0 := by simpa using zero
            exact absurd ⟨flow, endpoints, by simpa using decoded, none ▸ request⟩ prepared

/-- A token that is too long for the array is copied over its end. -/
theorem ecServerProcess_overruns (created : w.srv = ecServerNew) (method : ecIsMethod h.code.toNat)
    (endpoints : (ecServerSaveConn platform EcConn.zero input.sd input.peer).2 = 0)
    (options : (ecServerBody input.raw input.beyond).decoded.rc = ecRcUnset)
    (long : ecFlowTokenMax < (requestToken (ecServerBody input.raw input.beyond).decoded.opts).length) :
    ecServerProcess platform resources fb h input w = .error .overrun := by
  have saved : (ecServerSaveConn platform ecServerNew.flow.conn input.sd input.peer).2 = 0 := endpoints
  unfold ecServerProcess
  rw [created]
  dsimp only
  rw [if_neg (by simpa using saved), if_neg (by simpa using options), (ecServerSaveRequest_token method).1.mpr long]

end Requests

section Datagrams

variable {platform : Platform} {b : EcBase} {input : ServerInput}

/-- A control message belongs to a server that was there before. -/
theorem ecServerMatched_old {h : EcHdr} (fresh : b.heap b.nextSrv = none) :
    Avoids EcFault.Overruns (fun handled => handled.1.heap b.nextSrv = none)
      (ecServerMatched platform (b.seen platform input h) h input) := by
  unfold ecServerMatched
  split
  · exact fresh
  · rename_i id found
    split
    · simp
    · rename_i srv stored
      have other : b.nextSrv ≠ id := by
        intro same
        rw [← same] at stored
        exact absurd (stored.symm.trans fresh) (by simp)
      rw [avoids_map]
      refine (ecServerControlled_token platform h input _).weaken fun handled kept => ?_
      have here : handled.1.self = id := kept.self
      change (if b.nextSrv = handled.1.self then some handled.1.srv else b.heap b.nextSrv) = none
      rw [if_neg (by rw [here]; exact other), fresh]

theorem ecServerControl_old {h : EcHdr} (fresh : b.heap b.nextSrv = none) :
    Avoids EcFault.Overruns (fun handled => handled.1.heap b.nextSrv = none)
      (ecServerControl platform (b.seen platform input h) h input) := by
  unfold ecServerControl
  split
  · dsimp only
    split
    · exact fresh
    · split
      · exact fresh
      · exact ecServerMatched_old fresh
  · exact ecServerMatched_old fresh

/-- The tokens fit exactly when every request that comes to the copy has a token of at most eight bytes. -/
theorem tokensFit_iff (fresh : b.heap b.nextSrv = none) :
    b.TokensFit platform input ↔ ∀ h, b.CopiesToken platform input h →
      (requestToken (ecServerBody input.raw input.beyond).decoded.opts).length ≤ ecFlowTokenMax := by
  constructor
  · rintro fit h ⟨accepts, method, endpoints, options⟩
    by_contra long
    unfold EcBase.TokensFit at fit
    rw [ecServerHandlePdu_request platform b input h accepts method] at fit
    unfold ecServerRequest at fit
    rw [ecServerProcess_overruns rfl method endpoints options (Nat.lt_of_not_le long)] at fit
    exact fit rfl
  · intro short
    unfold EcBase.TokensFit
    rcases ecServerHandlePdu_cases platform b input with ⟨resent, rc, quiet⟩ | ⟨h, accepts⟩
    · rw [quiet]
      intro h srv _ stored
      exact absurd (stored.symm.trans fresh) (by simp)
    · have only : ∀ other, b.Accepts platform input other → other = h := fun other again =>
        Option.some.inj (again.header.symm.trans accepts.header)
      by_cases method : ecIsMethod h.code.toNat
      · rw [ecServerHandlePdu_request platform b input h accepts method]
        unfold ecServerRequest
        dsimp only
        rw [avoids_map]
        refine (ecServerProcess_token rfl method fun endpoints options =>
          short h ⟨accepts, method, endpoints, options⟩).weaken fun handled done other srv again stored => ?_
        have here : handled.1.self = b.nextSrv := done.1
        have held : (if b.nextSrv = handled.1.self then some handled.1.srv else b.heap b.nextSrv) = some srv := stored
        rw [if_pos here.symm] at held
        cases held
        rw [only other again]
        exact done.2
      · have old : Avoids EcFault.Overruns (fun handled => handled.1.heap b.nextSrv = none)
            (ecServerHandlePdu platform b input) := by
          rw [ecServerHandlePdu_new platform b input h accepts]
          unfold ecServerHandleNew
          split
          · exact ecServerControl_old fresh
          · exact fresh
        refine old.weaken fun handled absent other srv _ stored => ?_
        exact absurd (stored.symm.trans absent) (by simp)

end Datagrams

/-- A confirmable GET of `/a` with a token of `n` bytes, which the user cannot answer yet. -/
def tokenGet (n : Nat) : ServerInput :=
  loopbackInput ([0x42, 1, 0, 7, 0x91, 0x61, UInt8.ofNat (0x20 + n)] ++ List.replicate n 0xaa) waits 0

/-- A token of eight bytes fits. -/
theorem eightByteToken_fits : ecInit.TokensFit serverPlatform (tokenGet 8) :=
  (tokensFit_iff rfl).mpr fun _ _ => by decide

/-- A token of nine bytes is copied over the end of the array. -/
theorem nineByteToken_overruns : ¬ ∀ (platform : Platform) (b : EcBase) (input : ServerInput), b.Settled →
    b.TokensFit platform input := by
  intro always
  have fits := always serverPlatform ecInit (tokenGet 9) ecInit_settled
  have overruns : ecServerHandlePdu serverPlatform ecInit (tokenGet 9) = .error .overrun := rfl
  unfold EcBase.TokensFit at fits
  rw [overruns] at fits
  exact fits rfl

end Webthings.Evcoap
