import Webthings.Evcoap.Answers

namespace Webthings.Evcoap
open Webthings.Transition

/-- A response with a 5.xx code over this connection. -/
def Sent.ServerError (s : Sent) (conn : EcConn) : Prop := ∃ code : EcRc, 160 ≤ code ∧ code ≤ 191 ∧ s.Carries conn code

/-- The result of a callback cannot be turned into a response: it is an error, or a response that does not go out. -/
def EcWork.CallbackFails (platform : Platform) (env : HandlerEnv) (w : EcWork) : Prop :=
  env.run.ret = .error ∨
    (env.run.ret = .ready ∧
      ¬ (((w.called platform env).state = .ackSent ∨ (w.called platform env).state = .reqOk) ∧
        ∃ res isCon, (w.called platform env).Responds res isCon env.response.sent))

/-- A deferred request whose callback is due to run again. -/
structure EcBase.Due (b : EcBase) (id : SrvId) (srv : EcServer) : Prop where
  stored : b.heap id = some srv
  armed : srv.resched.pending = true
  live : srv.freed = false

/-- The work of a deferred request when its reschedule timer fires. -/
def EcBase.resumed (b : EcBase) (id : SrvId) (srv : EcServer) : EcWork :=
  b.work id {srv with resched := srv.resched.fired}

/-- The callback of a deferred request runs again and fails. -/
def FailsAgain (platform : Platform) (b : EcBase) (event : BaseEvent) : Prop :=
  match event with
  | .rescheduled id env => ∃ srv, b.Due id srv ∧ (b.resumed id srv).CallbackFails platform env
  | _ => False

/-- A callback that fails when it runs again has its peer get a 5.xx response before the server is disposed of. -/
def ReportsFailure (platform : Platform) (b : EcBase) (event : BaseEvent) : Prop :=
  match event with
  | .rescheduled id env => ∀ srv, b.Due id srv → (b.resumed id srv).CallbackFails platform env →
      ∃ b' srv' more, baseStep platform b (.rescheduled id env) = .ok b' ∧ b'.heap id = some srv' ∧
        srv'.sent = srv.sent ++ more ∧ ∃ s ∈ more, s.ServerError srv.flow.conn
  | _ => True

/-- A response that does not go out leaves the log as it is. -/
theorem ecServerReady_silent (platform : Platform) {env : SendEnv} (isCon : Bool) {w : EcWork}
    (fails : ¬ ((w.srv.state = .ackSent ∨ w.srv.state = .reqOk) ∧ ∃ res isCon, w.srv.Responds res isCon env.sent)) :
    ∃ run rc, ecServerReady platform env isCon w = .ok (run, rc) ∧ rc ≠ 0 ∧ run.self = w.self ∧
      run.srv.sent = w.srv.sent := by
  unfold ecServerReady
  by_cases ready : w.srv.state = .ackSent ∨ w.srv.state = .reqOk
  · have stays : (ecServerSendResp platform env .response w).2 ≠ 0 := by
      intro sent
      obtain ⟨res, other, responds⟩ := ecServerSendResp_ok platform env .response w sent
      exact fails ⟨ready, res, other, responds⟩
    obtain ⟨res, dups, same⟩ := ecServerSendResp_fails platform env .response w stays
    rw [if_pos ready]
    dsimp only
    rw [if_pos stays, same]
    exact ⟨_, _, rfl, by decide, rfl, rfl⟩
  · rw [if_neg ready]
    exact ⟨w, _, rfl, by decide, rfl, rfl⟩

/-- A callback that fails leaves its failure to the caller, and has sent nothing. -/
theorem ecServerUserfn_silent {platform : Platform} {env : HandlerEnv} {w : EcWork}
    (fails : w.CallbackFails platform env) :
    ∃ run rc, ecServerUserfn platform env w = .ok (run, rc) ∧ rc ≠ 0 ∧ run.self = w.self ∧
      run.srv.sent = w.srv.sent := by
  have core := applyCalls_core platform env.run.calls {w with invoked := w.invoked + 1}
  have self := congrArg ServerCore.self core
  have called := applyCalls_called platform env.run.calls {w with invoked := w.invoked + 1}
  have sent : (applyCalls platform env.run.calls {w with invoked := w.invoked + 1}).srv.sent = w.srv.sent := by
    obtain ⟨⟨code, res, same⟩, _, _⟩ := called
    rw [same]
  unfold EcWork.CallbackFails EcWork.called at fails
  unfold ecServerUserfn
  cases w.srv.flow.conn.isConfirmable with
  | none => exact ⟨w, _, rfl, by decide, rfl, rfl⟩
  | some isCon =>
      dsimp only
      generalize applyCalls platform env.run.calls {w with invoked := w.invoked + 1} = after at fails self sent ⊢
      cases ret : env.run.ret with
      | ready =>
          rw [ret] at fails
          have stays := (fails.resolve_left (by decide)).2
          obtain ⟨run, rc, finished, failed, same, quiet⟩ := ecServerReady_silent platform isCon stays
          exact ⟨run, rc, finished, failed, same.trans self, quiet.trans sent⟩
      | error => exact ⟨after, _, rfl, by decide, self, sent⟩
      | wait | poll =>
          rw [ret] at fails
          exact absurd fails (by simp)

/-- A callback that fails when it runs again has its server disposed of, and nothing is sent. -/
theorem reschedUserfn_silent {platform : Platform} {env : HandlerEnv} {w : EcWork} (fails : w.CallbackFails platform env) :
    ∃ ended, reschedUserfn platform env w = .ok ended ∧ ended.self = w.self ∧ ended.srv.freed = true ∧
      ended.srv.sent = w.srv.sent := by
  obtain ⟨run, rc, finished, failed, same, quiet⟩ := ecServerUserfn_silent fails
  unfold reschedUserfn
  rw [finished]
  dsimp only
  rw [if_pos failed, ecServerSetState_final _ .internalErr rfl rfl]
  exact ⟨_, rfl, same, rfl, quiet⟩

/-- The step of a base whose deferred request fails again: the server is disposed of, its log stays. -/
theorem baseStep_failsAgain {platform : Platform} {b : EcBase} {id : SrvId} {env : HandlerEnv} {srv : EcServer}
    (due : b.Due id srv) (fails : (b.resumed id srv).CallbackFails platform env) :
    ∃ b' srv', baseStep platform b (.rescheduled id env) = .ok b' ∧ b'.heap id = some srv' ∧ srv'.freed = true ∧
      srv'.sent = srv.sent := by
  obtain ⟨ended, finished, self, freed, quiet⟩ := reschedUserfn_silent fails
  obtain ⟨b', stepped, worked⟩ := (ServerWork.rescheduled id env srv ended due.stored due.armed due.live finished).step
  refine ⟨b', ended.srv, stepped, ?_, freed, quiet⟩
  rw [worked.heap id, self]
  exact if_pos rfl

/-- A callback that fails when it runs first has its peer get a 5.00 response, if there is room for one. -/
theorem ecServerDispatch_reports (platform : Platform) (resources : List (List UInt8)) (fb : Bool) {env : HandlerEnv}
    {w : EcWork} {mid : UInt16} {conn : EcConn} {token : List UInt8} {isCon : Bool} (owing : w.srv.Owing mid conn token)
    (model : conn.isConfirmable = some isCon) (fits : w.srv.Fits) (ack : env.ack = true)
    (response : env.response.sent = true) (reply : env.reply.sent = true)
    (serves : resources.any (fun path => asciiStrcaseEqual path w.srv.flow.urlstr) ∨ fb = true)
    (fails : w.CallbackFails platform env) (room : (w.called platform env).Fits) (there : conn.Reachable) :
    ∃ w' rc s, ecServerDispatch platform resources fb env w = .ok (w', rc) ∧ w'.srv.sent = [s] ∧ s.ServerError conn := by
  obtain ⟨w', rc, dispatched, _, waiting | answering⟩ :=
    owing.dispatched platform resources fb env model fits ack response reply True (iff_true_intro serves)
  · unfold EcWork.CallbackFails at fails
    rw [waiting.2.1] at fails
    exact absurd fails (by simp)
  · obtain ⟨_, code, owes, answered⟩ := answering
    obtain ⟨s, sent, carries⟩ := answered.replied ⟨fun _ => room, there⟩
    refine ⟨w', rc, s, dispatched, sent, code, ?_⟩
    cases owes with
    | user _ replies =>
        unfold EcWork.CallbackFails at fails
        rw [replies.ready] at fails
        have owed := owing.called platform env
        obtain ⟨res, responds⟩ := owed.responds model there replies.code room
        refine absurd ⟨Or.inr owed.state, res, isCon, ?_⟩ (fails.resolve_left (by decide)).2
        rw [response]
        exact responds
    | error => exact ⟨by decide, by decide, carries⟩
    | missing unserved => exact absurd trivial unserved

/-- No failure of a callback that runs again is reported. -/
theorem reportsFailure_iff (platform : Platform) (b : EcBase) (event : BaseEvent) :
    ReportsFailure platform b event ↔ ¬ FailsAgain platform b event := by
  cases event with
  | rescheduled id env =>
      constructor
      · intro reports again
        obtain ⟨srv, due, fails⟩ := again
        obtain ⟨b', srv', stepped, stored, _, quiet⟩ := baseStep_failsAgain due fails
        obtain ⟨next, other, more, finished, found, grows, s, member, _⟩ := reports srv due fails
        rw [stepped] at finished
        cases finished
        rw [stored] at found
        cases found
        rw [quiet] at grows
        have none : more = [] := List.self_eq_append_right.mp grows
        rw [none] at member
        cases member
      · intro holds srv due fails
        exact absurd ⟨srv, due, fails⟩ holds
  | datagram | coapTimeout | wakeup | countdown | registry | callbacks | request | client =>
      exact iff_of_true trivial id

/-- The failures of the deferred requests of a run are reported in exactly the runs that have none. -/
theorem deferredFailures_iff (platform : Platform) (b : EcBase) (events : List BaseEvent) :
    (baseMachine platform).Meets (ReportsFailure platform) b events ↔
      (baseMachine platform).Meets (fun b event => ¬ FailsAgain platform b event) b events := by
  apply (baseMachine platform).meets_congr
  exact reportsFailure_iff platform

/-- The user reports an error when it is called again. -/
def errs : HandlerEnv := ⟨⟨[], .error, ⟨0, 0⟩⟩, true, true, ⟨0, 0, true⟩, ⟨0, 0, true⟩⟩

def waitingError : List BaseEvent := [.callbacks [] true, .datagram waitingGet, .rescheduled 0 errs]

/-- The client of a deferred GET hears nothing of the error that the callback reports five seconds later. -/
theorem waitingError_unreported :
    ¬ ∀ platform events, (baseMachine platform).Meets (ReportsFailure platform) ecInit events := by
  intro always
  have run : ∃ b srv, (baseMachine serverPlatform).run ecInit [.callbacks [] true, .datagram waitingGet] = .ok b ∧
      b.heap 0 = some srv ∧ srv.resched.pending = true ∧ srv.freed = false := ⟨_, _, rfl, rfl, rfl, rfl⟩
  obtain ⟨b, srv, finished, stored, armed, live⟩ := run
  have met : (baseMachine serverPlatform).Meets (ReportsFailure serverPlatform) ecInit
      ([.callbacks [] true, .datagram waitingGet] ++ .rescheduled 0 errs :: []) := always serverPlatform waitingError
  have reports := met.at_split finished
  exact (reportsFailure_iff _ _ _).mp reports ⟨srv, ⟨stored, armed, live⟩, Or.inl rfl⟩

end Webthings.Evcoap
