import Webthings.Evcoap.ServerInvariant
import Webthings.Evcoap.ServerResponse

namespace Webthings.Evcoap
open Webthings.Transition

/-- A message that the server can read and that has no live record. -/
structure EcBase.Accepts (platform : Platform) (b : EcBase) (input : ServerInput) (h : EcHdr) : Prop where
  nonempty : input.raw ≠ []
  socket : input.sd ≠ -1
  header : ecPduDecodeHeader platform.order input.raw = some h
  fresh : ecDupsSearch platform b.dups h.mid input.peer = none

/-- The base with the record of a new message. -/
def EcBase.seen (platform : Platform) (b : EcBase) (input : ServerInput) (h : EcHdr) : EcBase :=
  {b with dups := ecDupsInsert platform b.dups input.peer h.mid input.raw}

/-- A control message that the observe machinery leaves to the pending servers. -/
structure EcBase.Controls (platform : Platform) (b : EcBase) (input : ServerInput) (h : EcHdr) : Prop extends
    b.Accepts platform input h where
  empty : h.code = 0
  unobserved : h.t = .rst → (ecServerRstConn platform input.sd input.peer).2 = 0 ∧
    ecObserveCanceledByRst b.observing (ecServerRstConn platform input.sd input.peer).1 h.mid = none

/-- A new message is recorded and handled. -/
theorem ecServerHandlePdu_new (platform : Platform) (b : EcBase) (input : ServerInput) (h : EcHdr)
    (accepts : b.Accepts platform input h) :
    ecServerHandlePdu platform b input = ecServerHandleNew platform (b.seen platform input h) h input := by
  unfold ecServerHandlePdu
  rw [if_neg (by simp [accepts.nonempty, accepts.socket]), accepts.header]
  dsimp only
  unfold ecDupsHandleIncomingClimsg
  rw [ecDupsHandleIncoming_new platform (-1) b.dups h.mid input.sd input.peer input.raw input.env.resend
    accepts.fresh, if_neg (by simp), if_neg (by simp)]
  dsimp only [Option.toList_none]
  rw [List.append_nil]
  rfl

/-- A message with a live record leaves the base as it is, but for the log of repeated replies. -/
theorem ecServerHandlePdu_duplicate (platform : Platform) (b : EcBase) (input : ServerInput) (h : EcHdr)
    (header : ecPduDecodeHeader platform.order input.raw = some h) (recvd : EcRecvdPdu)
    (present : ecDupsSearch platform b.dups h.mid input.peer = some recvd) :
    ∃ resent rc, ecServerHandlePdu platform b input = .ok ({b with resent := resent}, rc) := by
  unfold ecServerHandlePdu
  split
  · exact ⟨_, _, rfl⟩
  · obtain ⟨duplicate, same⟩ := ecDupsHandleIncoming_duplicate platform (-1) (by decide) b.dups h.mid input.sd
      input.peer input.raw input.env.resend recvd present
    rw [header]
    dsimp only
    unfold ecDupsHandleIncomingClimsg
    rw [same]
    split
    · exact ⟨_, _, rfl⟩
    · -- Here `split` has used `duplicate` to leave the error branch alone.
      exact ⟨_, _, rfl⟩

/-- A datagram is unreadable, a duplicate, or accepted. -/
theorem ecServerHandlePdu_cases (platform : Platform) (b : EcBase) (input : ServerInput) :
    (∃ resent rc, ecServerHandlePdu platform b input = .ok ({b with resent := resent}, rc)) ∨
      ∃ h, b.Accepts platform input h := by
  by_cases bad : input.raw = [] ∨ input.sd = -1
  · refine Or.inl ⟨b.resent, .error, ?_⟩
    unfold ecServerHandlePdu
    rw [if_pos bad]
  · obtain ⟨nonempty, socket⟩ := not_or.mp bad
    cases header : ecPduDecodeHeader platform.order input.raw with
    | none =>
        refine Or.inl ⟨b.resent, .error, ?_⟩
        unfold ecServerHandlePdu
        rw [if_neg bad, header]
    | some h =>
        cases found : ecDupsSearch platform b.dups h.mid input.peer with
        | some recvd => exact Or.inl (ecServerHandlePdu_duplicate platform b input h header recvd found)
        | none => exact Or.inr ⟨h, nonempty, socket, header, found⟩

/-- A new request is handled as one. -/
theorem ecServerHandlePdu_request (platform : Platform) (b : EcBase) (input : ServerInput) (h : EcHdr)
    (accepts : b.Accepts platform input h) (method : ecIsMethod h.code.toNat) :
    ecServerHandlePdu platform b input = ecServerRequest platform (b.seen platform input h) h input := by
  have code : h.code ≠ 0 := by
    intro empty
    rw [empty] at method
    exact absurd method.1 (by decide)
  rw [ecServerHandlePdu_new platform b input h accepts]
  unfold ecServerHandleNew
  rw [if_neg code, if_pos method]

/-- A request gets a server of its own. -/
theorem baseStep_request (platform : Platform) (b : EcBase) (input : ServerInput) (h : EcHdr)
    (accepts : b.Accepts platform input h) (method : ecIsMethod h.code.toNat) :
    baseStep platform b (.datagram input) =
      (ecServerProcess platform b.resources b.fb h input ((b.seen platform input h).work b.nextSrv ecServerNew)).map
        fun handled => EcBase.store {b.seen platform input h with nextSrv := b.nextSrv + 1} handled.1 := by
  dsimp only [baseStep]
  rw [ecServerHandlePdu_request platform b input h accepts method]
  unfold ecServerRequest
  dsimp only [EcBase.seen]
  cases ecServerProcess platform b.resources b.fb h input
    (EcBase.work {b with dups := ecDupsInsert platform b.dups input.peer h.mid input.raw} b.nextSrv ecServerNew) <;> rfl

/-- A control message goes to the pending servers. -/
theorem ecServerHandlePdu_control (platform : Platform) (b : EcBase) (input : ServerInput) (h : EcHdr)
    (controls : b.Controls platform input h) :
    ecServerHandlePdu platform b input = ecServerMatched platform (b.seen platform input h) h input := by
  rw [ecServerHandlePdu_new platform b input h controls.toAccepts]
  unfold ecServerHandleNew ecServerControl
  rw [if_pos controls.empty]
  split
  · rename_i reset
    obtain ⟨named, absent⟩ := controls.unobserved reset
    have unobserved : ecObserveCanceledByRst (b.seen platform input h).observing
        (ecServerRstConn platform input.sd input.peer).1 h.mid = none := absent
    dsimp only
    rw [if_neg (by simp [named]), unobserved]
  · rfl

/-- The work that an event gives to one server: `w` is what the server has become. -/
inductive ServerWork (platform : Platform) (b : EcBase) : BaseEvent → SrvId → EcWork → Prop where
  | control (input : ServerInput) (h : EcHdr) (id : SrvId) (srv : EcServer) (w : EcWork) (rc : EcNetCbrc)
      (controls : b.Controls platform input h) (found : ecServersLookup b h.mid input.sd input.peer = some id)
      (stored : b.heap id = some srv)
      (worked : ecServerControlled platform h input ((b.seen platform input h).work id srv) = .ok (w, rc)) :
      ServerWork platform b (.datagram input) id w
  | request (input : ServerInput) (h : EcHdr) (w : EcWork) (rc : EcNetCbrc)
      (accepts : b.Accepts platform input h) (method : ecIsMethod h.code.toNat)
      (worked : ecServerProcess platform b.resources b.fb h input
        ((b.seen platform input h).work b.nextSrv ecServerNew) = .ok (w, rc)) :
      ServerWork platform b (.datagram input) b.nextSrv w
  | rescheduled (id : SrvId) (env : HandlerEnv) (srv : EcServer) (w : EcWork) (stored : b.heap id = some srv)
      (armed : srv.resched.pending = true) (live : srv.freed = false)
      (worked : reschedUserfn platform env (b.work id {srv with resched := srv.resched.fired}) = .ok w) :
      ServerWork platform b (.rescheduled id env) id w
  | coapTimeout (id : SrvId) (env : SendEnv) (srv : EcServer) (w : EcWork) (stored : b.heap id = some srv)
      (armed : srv.coap.pending = true) (live : srv.freed = false)
      (worked : ecSrvCoapTimeout platform env (b.work id {srv with coap := srv.coap.fired}) = .ok w) :
      ServerWork platform b (.coapTimeout id env) id w
  | wakeup (id : SrvId) (calls : List SrvApi) (env : SendEnv) (srv : EcServer) (w : EcWork) (rc : Int)
      (stored : b.heap id = some srv) (live : srv.freed = false)
      (worked : ecServerWakeup platform env calls (b.work id srv) = .ok (w, rc)) :
      ServerWork platform b (.wakeup id calls env) id w

/-- The servers of a base are the ones of another. -/
structure EcBase.SameServers (b b' : EcBase) : Prop where
  heap : b'.heap = b.heap
  servers : b'.servers = b.servers
  nextSrv : b'.nextSrv = b.nextSrv

/-- The servers of a base after the work of one of them. -/
structure EcBase.Worked (b : EcBase) (w : EcWork) (b' : EcBase) : Prop where
  heap : ∀ id, b'.heap id = if id = w.self then some w.srv else b.heap id
  servers : b'.servers = w.servers
  dups : b'.dups = w.dups

theorem EcBase.worked_store {b c : EcBase} {w : EcWork} (heap : c.heap = b.heap) : b.Worked w (c.store w) where
  heap := fun id => by
    rw [← heap]
    rfl
  servers := rfl
  dups := rfl

section Steps

variable {platform : Platform} {b b' : EcBase}

/-- An event either leaves all servers alone or gives work to one of them. -/
def EcBase.Effect (platform : Platform) (b : EcBase) (event : BaseEvent) (b' : EcBase) : Prop :=
  b.SameServers b' ∨ ∃ id w, ServerWork platform b event id w ∧ b.Worked w b'

theorem ecServerMatched_effect {h : EcHdr} {input : ServerInput} {rc : EcNetCbrc}
    (controls : b.Controls platform input h)
    (finished : ecServerMatched platform (b.seen platform input h) h input = .ok (b', rc)) :
    b.Effect platform (.datagram input) b' := by
  unfold ecServerMatched at finished
  split at finished
  · cases finished
    exact Or.inl ⟨rfl, rfl, rfl⟩
  · rename_i id found
    split at finished
    · cases finished
    · rename_i srv stored
      obtain ⟨⟨w, outcome⟩, worked, same⟩ := map_ok finished
      cases same
      exact Or.inr ⟨id, w, .control input h id srv w _ controls found stored worked, EcBase.worked_store rfl⟩

theorem ecServerHandlePdu_effect {input : ServerInput} {rc : EcNetCbrc}
    (finished : ecServerHandlePdu platform b input = .ok (b', rc)) : b.Effect platform (.datagram input) b' := by
  rcases ecServerHandlePdu_cases platform b input with ⟨resent, other, quiet⟩ | ⟨h, accepts⟩
  · rw [quiet] at finished
    cases finished
    exact Or.inl ⟨rfl, rfl, rfl⟩
  · have handled := finished
    rw [ecServerHandlePdu_new platform b input h accepts] at handled
    unfold ecServerHandleNew at handled
    split at handled
    · rename_i empty
      unfold ecServerControl at handled
      split at handled
      · dsimp only at handled
        split at handled
        · cases handled
          exact Or.inl ⟨rfl, rfl, rfl⟩
        · rename_i named
          split at handled
          · cases handled
            exact Or.inl ⟨rfl, rfl, rfl⟩
          · rename_i absent
            exact ecServerMatched_effect ⟨accepts, empty, fun _ => ⟨by simpa using named, absent⟩⟩ handled
      · rename_i other
        exact ecServerMatched_effect ⟨accepts, empty, fun reset => absurd reset other⟩ handled
    · split at handled
      · rename_i method
        unfold ecServerRequest at handled
        dsimp only at handled
        obtain ⟨⟨w, outcome⟩, worked, same⟩ := map_ok handled
        cases same
        exact Or.inr ⟨b.nextSrv, w, .request input h w _ accepts method worked, EcBase.worked_store rfl⟩
      · cases handled
        exact Or.inl ⟨rfl, rfl, rfl⟩

/-- A timer that fires gives work to the server that has armed it. -/
theorem EcBase.fire_ok {id : SrvId} {armed : EcServer → Bool} {handler : EcWork → Except EcFault EcWork}
    {fired : EcServer → EcServer} (finished : b.fire id armed handler fired = .ok b') :
    b' = b ∨ ∃ srv w, b.heap id = some srv ∧ armed srv = true ∧ srv.freed = false ∧
      handler (b.work id (fired srv)) = .ok w ∧ b' = b.store w := by
  unfold fire at finished
  split at finished
  · cases finished
    exact Or.inl rfl
  · rename_i srv stored
    split at finished
    · cases finished
      exact Or.inl rfl
    · rename_i ready
      split at finished
      · cases finished
      · rename_i live
        obtain ⟨w, worked, same⟩ := map_ok finished
        exact Or.inr ⟨srv, w, stored, by simpa using ready, by simpa using live, worked, same.symm⟩

/-- What one event can do to the servers of a base. -/
theorem baseStep_effect {event : BaseEvent} (finished : baseStep platform b event = .ok b') :
    b.Effect platform event b' := by
  cases event with
  | datagram input =>
      obtain ⟨⟨handled, rc⟩, stepped, same⟩ := map_ok finished
      cases same
      exact ecServerHandlePdu_effect stepped
  | rescheduled id env =>
      rcases EcBase.fire_ok finished with same | ⟨srv, w, stored, armed, live, worked, same⟩
      · exact Or.inl (same ▸ ⟨rfl, rfl, rfl⟩)
      · subst same
        exact Or.inr ⟨id, w, .rescheduled id env srv w stored armed live worked, EcBase.worked_store rfl⟩
  | coapTimeout id env =>
      rcases EcBase.fire_ok finished with same | ⟨srv, w, stored, armed, live, worked, same⟩
      · exact Or.inl (same ▸ ⟨rfl, rfl, rfl⟩)
      · subst same
        exact Or.inr ⟨id, w, .coapTimeout id env srv w stored armed live worked, EcBase.worked_store rfl⟩
  | wakeup id calls env =>
      dsimp only [baseStep] at finished
      split at finished
      · cases finished
        exact Or.inl ⟨rfl, rfl, rfl⟩
      · rename_i srv stored
        split at finished
        · cases finished
          exact Or.inl ⟨rfl, rfl, rfl⟩
        · rename_i live
          obtain ⟨⟨w, rc⟩, worked, same⟩ := map_ok finished
          subst same
          exact Or.inr ⟨id, w, .wakeup id calls env srv w rc stored (by simpa using live) worked,
            EcBase.worked_store rfl⟩
  | countdown key =>
      cases finished
      exact Or.inl ⟨rfl, rfl, rfl⟩
  | registry observing =>
      cases finished
      exact Or.inl ⟨rfl, rfl, rfl⟩
  | callbacks resources fb =>
      cases finished
      exact Or.inl ⟨rfl, rfl, rfl⟩
  | request cli tout destination =>
      dsimp only [baseStep] at finished
      split at finished
      · obtain ⟨started, _, same⟩ := map_ok finished
        subst same
        exact Or.inl ⟨rfl, rfl, rfl⟩
      · cases finished
        exact Or.inl ⟨rfl, rfl, rfl⟩
  | client cid event =>
      dsimp only [baseStep] at finished
      unfold EcBase.clientStep at finished
      split at finished
      · cases finished
        exact Or.inl ⟨rfl, rfl, rfl⟩
      · cases finished
        exact Or.inl ⟨rfl, rfl, rfl⟩
      · obtain ⟨w, _, same⟩ := map_ok finished
        subst same
        exact Or.inl ⟨rfl, rfl, rfl⟩

/-- The event that gives work to a server finishes with that work done. -/
theorem ServerWork.step {event : BaseEvent} {id : SrvId} {w : EcWork} (work : ServerWork platform b event id w) :
    ∃ b', baseStep platform b event = .ok b' ∧ b.Worked w b' := by
  have firing : ∀ (armed : EcServer → Bool) (handler : EcWork → Except EcFault EcWork) (fired : EcServer → EcServer)
      (srv : EcServer), b.heap id = some srv → armed srv = true → srv.freed = false →
      handler (b.work id (fired srv)) = .ok w → b.fire id armed handler fired = .ok (b.store w) := by
    intro armed handler fired srv stored ready live worked
    unfold EcBase.fire
    rw [stored]
    dsimp only
    rw [if_neg (by simp [ready]), if_neg (by simp [live]), worked]
    rfl
  cases work with
  | control input h id srv w rc controls found stored worked =>
      refine ⟨(b.seen platform input h).store w, ?_, EcBase.worked_store rfl⟩
      have lookup : ecServersLookup (b.seen platform input h) h.mid input.sd input.peer = some id := found
      have held : (b.seen platform input h).heap id = some srv := stored
      dsimp only [baseStep]
      rw [ecServerHandlePdu_control platform b input h controls]
      unfold ecServerMatched
      rw [lookup]
      dsimp only
      rw [held]
      dsimp only
      rw [worked]
      rfl
  | request input h w rc accepts method worked =>
      refine ⟨EcBase.store {b.seen platform input h with nextSrv := b.nextSrv + 1} w, ?_, EcBase.worked_store rfl⟩
      rw [baseStep_request platform b input h accepts method, worked]
      rfl
  | rescheduled id env srv w stored armed live worked =>
      exact ⟨b.store w, firing _ _ _ srv stored armed live worked, EcBase.worked_store rfl⟩
  | coapTimeout id env srv w stored armed live worked =>
      exact ⟨b.store w, firing _ _ _ srv stored armed live worked, EcBase.worked_store rfl⟩
  | wakeup id calls env srv w rc stored live worked =>
      refine ⟨b.store w, ?_, EcBase.worked_store rfl⟩
      dsimp only [baseStep]
      rw [stored]
      dsimp only
      rw [if_neg (by simp [live]), worked]
      rfl

/-- What an event leaves of the reschedule timer of a server: the firing has disarmed it. -/
def EcBase.leftArmed (b : EcBase) (event : BaseEvent) (id : SrvId) : Bool :=
  match event with
  | .rescheduled _ _ => false
  | _ => (b.heap id).any fun srv => srv.resched.pending

/-- The work of a server in a settled base ends with the server pending or disposed of. -/
theorem ServerWork.done {event : BaseEvent} {id : SrvId} {w : EcWork} (settled : b.Settled)
    (work : ServerWork platform b event id w) : WorkDone id b.servers (b.leftArmed event id) w.core := by
  cases work with
  | control input h id srv w rc controls found stored worked =>
      obtain ⟨held, same, live⟩ := settled.listed id (ecServersLookup_mem found).1
      rw [stored] at same
      cases same
      have sound : WorkSound id b.servers srv.resched.pending ((b.seen platform input h).work id srv).core :=
        settled.sound stored live
      have done := (ecServerControlled_done platform h input _ sound).of_ok worked
      simpa [EcBase.leftArmed, stored] using done
  | request input h w rc accepts method worked =>
      obtain ⟨fresh, absent⟩ := settled.fresh
      have done : WorkDone b.nextSrv b.servers false w.core := (ecServerProcess_done platform b.resources b.fb h input
        ((b.seen platform input h).work b.nextSrv ecServerNew) rfl settled.once fresh).of_ok worked
      simpa [EcBase.leftArmed, absent] using done
  | rescheduled id env srv w stored armed live worked =>
      exact (reschedUserfn_done platform env _ (settled.rescheduled stored live)).of_ok worked
  | coapTimeout id env srv w stored armed live worked =>
      obtain ⟨sound, waiting, present⟩ := settled.timedOut stored live armed
      have done := (ecSrvCoapTimeout_done platform env _ sound waiting present).of_ok worked
      simpa [EcBase.leftArmed, stored] using done
  | wakeup id calls env srv w rc stored live worked =>
      obtain ⟨member, pending⟩ := settled.pending id srv stored live
      have done := (ecServerWakeup_done platform env calls (b.work id srv) settled.once member pending).of_ok worked
      simpa [EcBase.leftArmed, stored, EcBase.work] using done

/-- A finished event leaves a settled base settled. -/
theorem baseStep_keeps_settled {event : BaseEvent} (settled : b.Settled) (finished : baseStep platform b event = .ok b') :
    b'.Settled := (baseStep_settled platform b event settled).of_ok finished

end Steps

end Webthings.Evcoap
