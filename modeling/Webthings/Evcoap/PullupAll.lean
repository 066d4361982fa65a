import Webthings.Evcoap.ClientList
import Webthings.Evcoap.ClientTimers

namespace Webthings.Evcoap
open Webthings.Transition

/-- The buffer of the loop is one byte longer. -/
def ecCoapMaxReqSize : Nat := 1500

/-- What `ec_net_pullup` returns: a datagram, an interruption, or any other error, an empty socket among them. -/
inductive Pulled where
  | datagram (input : Incoming)
  | interrupted
  | failed

/-- The loop of `ec_net_pullup_all` between two turns, with the argument of its handler. -/
structure Pullup (Arg : Type) where
  arg : Arg
  returned : Bool

/-- An empty datagram, and one that fills the buffer, are not processed. -/
def Incoming.skipped (input : Incoming) : Bool :=
  input.raw.length == 0 || input.raw.length == ecCoapMaxReqSize + 1

def ecNetPullupTurn {Arg : Type} (pduProc : Arg → Incoming → Except EcFault (Arg × EcNetCbrc)) (loop : Pullup Arg)
    (pulled : Pulled) : Except EcFault (Pullup Arg) :=
  if loop.returned then .ok loop
  else
    match pulled with
    | .datagram input =>
        if input.skipped then .ok loop
        else (pduProc loop.arg input).map fun handled => ⟨handled.1, handled.2 == .dead⟩
    | .interrupted => .ok loop
    | .failed => .ok {loop with returned := true}

def ecNetPullupAll {Arg : Type} (pduProc : Arg → Incoming → Except EcFault (Arg × EcNetCbrc)) :
    Machine (Pullup Arg) Pulled EcFault := ⟨ecNetPullupTurn pduProc⟩

/-- The handler that a client registers; its argument must not have been freed. -/
def ecClientPduProc (platform : Platform) (w : CliWork) (input : Incoming) : Except EcFault (CliWork × EcNetCbrc) :=
  if w.cli.freed then .error .disposed
  else (ecClientHandlePdu platform w input).map fun handled => (handled.work, handled.rc)

/-- The handler returns `EC_NET_CBRC_DEAD` if it disposes of the client. -/
def DeathReported (platform : Platform) (w : CliWork) (input : Incoming) : Prop :=
  ∀ handled, ecClientHandlePdu platform w input = .ok handled → handled.work.cli.freed = true → handled.rc = .dead

/-- A reset, which is no duplicate, reaches a client that waits and that the engine owns. -/
structure ResetDisposes (platform : Platform) (w : CliWork) (input : Incoming) (h : EcHdr) : Prop where
  header : ecClientHeader platform.order input.raw = some h
  fresh : ecDupsSearch platform w.dups h.mid input.peer = none
  code : h.code = 0
  type : h.t = .rst
  awaiting : w.cli.state.Awaiting
  engine : w.cli.userown = false

section Deaths

variable {platform : Platform} {sent : Bool} {w : CliWork}

/-- A transition that does not announce an end leaves the client alive. -/
theorem ecClientSetState_ongoing {next : EcCliState} {moved : CliWork × Bool}
    (made : ecClientSetState platform sent w next = .ok moved) (ongoing : moved.2 = false) :
    moved.1.cli.freed = w.cli.freed := by
  obtain ⟨entered, log, entering, ⟨ends, _⟩ | ⟨_, _, goes⟩⟩ := ecClientSetState_made made
  · cases ends.symm.trans ongoing
  · rw [goes]
    exact (ecClientEnter_keeps entering).1

/-- A permitted transition to a final state is announced, and frees the client that the engine owns. -/
theorem ecClientSetState_ended {next : EcCliState} (final : ecClientStateIsFinal next = true)
    (permitted : ecClientCheckTransition w.cli.state next = true) :
    ∃ moved, ecClientSetState platform sent w next = .ok (moved, true) ∧
      moved.cli.freed = (w.cli.freed || !w.cli.userown) := by
  obtain ⟨entered, log, entering, framed⟩ := ecClientEnter_final platform sent
    (w.cli.flow.conn.isConfirmable.getD false) w final
  obtain ⟨rst, reset⟩ := ecClientRstPeer_frame platform sent {entered with cli := entered.cli.enter next}
  unfold ecClientSetState
  rw [if_neg (by simp [permitted])]
  dsimp only
  rw [entering, final]
  dsimp only
  rw [Bool.true_or, if_pos rfl]
  refine ⟨_, rfl, ?_⟩
  dsimp only
  rw [ecClientFinish_freed]
  split
  · rw [reset, framed]
    rfl
  · rw [framed]
    rfl

/-- No transition finds the client disposed of. -/
theorem ecClientSetState_present {next : EcCliState} :
    Avoids (· = .disposed) (fun _ => True) (ecClientSetState platform sent w next) := by
  have entering : Avoids (· = .disposed) (fun _ => True)
      (ecClientEnter platform sent (w.cli.flow.conn.isConfirmable.getD false) next w) := by
    unfold ecClientEnter
    cases next with
    | reqSent =>
        dsimp only
        split
        · split
          · exact fun same => by cases same
          · trivial
        · split
          · split
            · exact fun same => by cases same
            · trivial
          · trivial
    | waitNfy =>
        dsimp only
        split
        · split
          · exact fun same => by cases same
          · trivial
        · generalize (if w.cli.flow.conn.isConfirmable.getD false then ecCliStopCoapTimer (ecCliStopAppTimer w.cli)
            else ecCliStopAppTimer w.cli) = quenched
          split
          · exact fun same => by cases same
          · trivial
    | none | dnsOk | reqAckd | coapRetry | internalErr | dnsFailed | sendFailed | coapTimeout | appTimeout | reqDone
    | reqRst | obsTimeout => trivial
  unfold ecClientSetState
  split
  · exact fun same => by cases same
  · dsimp only
    split
    · rename_i fault failed
      exact entering.of_error failed
    · split <;> trivial

end Deaths

section Datagrams

variable {platform : Platform} {w : CliWork} {input : Incoming} {h : EcHdr}

/-- A new message that disposes of the client is reported, unless it is a reset. -/
theorem ecClientHandleNew_dead {handled : CliWork × EcNetCbrc} (live : w.cli.freed = false)
    (handling : ecClientHandleNew platform w h input = .ok handled) (freed : handled.1.cli.freed = true) :
    handled.2 = .dead ∨ h.code = 0 ∧ h.t = .rst ∧ w.cli.state.Awaiting ∧ w.cli.userown = false := by
  by_cases code : h.code = 0
  · right
    rcases ecClientHandleNew_empty code handling with ⟨next, moved, asked, made, same⟩ | ⟨_, _, same⟩
    · subst same
      rcases asked with ⟨_, acked⟩ | ⟨type, reset⟩
      · -- An ACK moves the client on, and no transition to REQ_ACKD is an end.
        subst acked
        have ongoing : moved.2 = false := by
          unfold ecClientSetState at made
          split at made
          · cases made
          · dsimp only at made
            split at made
            · cases made
            · cases made
              rfl
        have kept := ecClientSetState_ongoing made ongoing
        rw [live] at kept
        exact absurd (kept.symm.trans freed) (by decide)
      · subst reset
        have permitted := ecClientSetState_permitted made
        have ending : ∃ ended, ecClientSetState platform input.sent w .reqRst = .ok (ended, true) ∧
            ended.cli.freed = (w.cli.freed || !w.cli.userown) := ecClientSetState_ended rfl permitted
        obtain ⟨ended, same, gone⟩ := ending
        have reached : moved = (ended, true) := Except.ok.inj (made.symm.trans same)
        subst reached
        rw [live, Bool.false_or] at gone
        exact ⟨code, type, (checkTransition_reqRst w.cli.state).mp permitted, by simpa using gone.symm.trans freed⟩
    · subst same
      exact absurd (live.symm.trans freed) (by decide)
  · left
    by_cases taken : w.cli.TakesIn h input
    · cases judged : w.cli.judged platform.order h input with
      | none =>
          rw [ecClientHandleNew_stale platform code taken judged] at handling
          cases handling
          exact absurd (live.symm.trans freed) (by decide)
      | some observe =>
          unfold ecClientHandleNew at handling
          rw [if_neg code, ecClientTakeResponse_taken platform taken, judged] at handling
          dsimp only at handling
          obtain ⟨moved, made, same⟩ := map_ok handling
          subst same
          cases final : moved.2 with
          | true => rfl
          | false =>
              have kept := ecClientSetState_ongoing made final
              rw [final] at freed
              have gone : moved.1.cli.freed = true := by
                rw [if_neg (by decide)] at freed
                split at freed
                · exact freed
                · exact freed
              exact absurd ((kept.trans live).symm.trans gone) (by decide)
    · rw [ecClientHandleNew_refused platform code taken] at handling
      cases handling
      exact absurd (live.symm.trans freed) (by decide)

/-- The handler reports the end of a live client exactly when the datagram is not such a reset. -/
theorem deathReported_iff (live : w.cli.freed = false) :
    DeathReported platform w input ↔ ∀ h, ¬ ResetDisposes platform w input h := by
  constructor
  · intro reported h disposes
    have permitted : ecClientCheckTransition w.cli.state .reqRst = true :=
      (checkTransition_reqRst w.cli.state).mpr disposes.awaiting
    have ending : ∃ moved, ecClientSetState platform input.sent (w.seen platform input h) .reqRst = .ok (moved, true) ∧
        moved.cli.freed = (w.cli.freed || !w.cli.userown) := ecClientSetState_ended rfl permitted
    obtain ⟨moved, made, gone⟩ := ending
    have freed : moved.cli.freed = true := by
      rw [gone, disposes.engine]
      exact Bool.or_true _
    have handling : ecClientHandlePdu platform w input = .ok ⟨moved, .success, none⟩ := by
      rw [ecClientHandlePdu_new platform w input h disposes.header disposes.fresh]
      change (ecClientHandleNew platform (w.seen platform input h) h input).map _ = _
      unfold ecClientHandleNew ecClientHandleEmptyPdu
      rw [if_pos disposes.code, disposes.type]
      dsimp only
      rw [made]
      rfl
    cases reported _ handling freed
  · intro spared handled handling freed
    cases header : ecClientHeader platform.order input.raw with
    | none =>
        unfold ecClientHandlePdu at handling
        rw [header] at handling
        cases handling
        exact absurd (live.symm.trans freed) (by decide)
    | some h =>
        cases found : ecDupsSearch platform w.dups h.mid input.peer with
        | some recvd =>
            obtain ⟨rc, resent, same⟩ := ecClientHandlePdu_duplicate platform w input h header recvd found
            rw [same] at handling
            cases handling
            exact absurd (live.symm.trans freed) (by decide)
        | none =>
            rw [ecClientHandlePdu_new platform w input h header found] at handling
            obtain ⟨answer, answered, same⟩ := map_ok handling
            subst same
            have seen : (w.seen platform input h).cli.freed = false := live
            rcases ecClientHandleNew_dead seen answered freed with dead | ⟨code, type, awaiting, engine⟩
            · exact dead
            · exact absurd ⟨header, found, code, type, awaiting, engine⟩ (spared h)

/-- A call of the handler on a live client never finds it disposed of. -/
theorem ecClientPduProc_present (live : w.cli.freed = false) :
    Avoids (· = .disposed) (fun _ => True) (ecClientPduProc platform w input) := by
  unfold ecClientPduProc
  rw [if_neg (by simp [live]), avoids_map]
  unfold ecClientHandlePdu
  split
  · trivial
  · rename_i h _
    dsimp only
    split
    · trivial
    · split
      · trivial
      · rw [avoids_map]
        unfold ecClientHandleNew ecClientHandleEmptyPdu
        split
        · rw [avoids_map]
          split
          · rw [avoids_map]
            exact ecClientSetState_present
          · rw [avoids_map]
            exact ecClientSetState_present
          · trivial
          · trivial
        · dsimp only
          split
          · trivial
          · rw [avoids_map]
            exact ecClientSetState_present

end Datagrams

/-- What holds of every call that the loop makes. -/
def OfCalls (guard : CliWork → Incoming → Prop) (loop : Pullup CliWork) (pulled : Pulled) : Prop :=
  match pulled with
  | .datagram input => loop.returned = false → input.skipped = false → guard loop.arg input
  | .interrupted | .failed => True

/-- The loop has returned, or the client is there. -/
def Pullup.Live (loop : Pullup CliWork) : Prop := loop.returned = true ∨ loop.arg.cli.freed = false

/-- A turn whose call reports the end of the client leaves it alive, or returns. -/
theorem ecNetPullupTurn_live {platform : Platform} {loop : Pullup CliWork} {pulled : Pulled} (live : loop.Live)
    (reported : OfCalls (DeathReported platform) loop pulled) :
    Avoids (· = .disposed) Pullup.Live (ecNetPullupTurn (ecClientPduProc platform) loop pulled) := by
  unfold ecNetPullupTurn
  split
  · exact live
  · rename_i running
    have continues : loop.returned = false := by simpa using running
    have present : loop.arg.cli.freed = false := live.resolve_left running
    cases pulled with
    | interrupted => exact live
    | failed => exact Or.inl rfl
    | datagram input =>
        dsimp only
        split
        · exact live
        · rename_i processed
          have called := reported continues (by simpa using processed)
          have safe : Avoids (· = .disposed) (fun _ => True) (ecClientPduProc platform loop.arg input) :=
            ecClientPduProc_present present
          rw [avoids_map]
          cases outcome : ecClientPduProc platform loop.arg input with
          | error fault => exact safe.of_error outcome
          | ok handled =>
              change (handled.2 == .dead) = true ∨ handled.1.cli.freed = false
              unfold ecClientPduProc at outcome
              rw [if_neg (by simp [present])] at outcome
              obtain ⟨whole, handling, same⟩ := map_ok outcome
              subst same
              cases freed : whole.work.cli.freed with
              | false => exact Or.inr rfl
              | true =>
                  left
                  dsimp only
                  rw [called whole handling freed]
                  rfl

/-- Every call of the loop reports the end of the client, and none is made after it, exactly when no call of the loop
is made with a reset that disposes of the client. -/
theorem pullupAll_reports_iff (platform : Platform) (w : CliWork) (live : w.cli.freed = false) (pulls : List Pulled) :
    ((ecNetPullupAll (ecClientPduProc platform)).Meets (OfCalls (DeathReported platform)) ⟨w, false⟩ pulls ∧
        (ecNetPullupAll (ecClientPduProc platform)).run ⟨w, false⟩ pulls ≠ .error .disposed) ↔
      (ecNetPullupAll (ecClientPduProc platform)).Meets
        (OfCalls fun w input => ∀ h, ¬ ResetDisposes platform w input h) ⟨w, false⟩ pulls := by
  have start : (Pullup.mk w false).Live := Or.inr live
  have agree : ∀ loop pulled, loop.Live → (OfCalls (DeathReported platform) loop pulled ↔
      OfCalls (fun w input => ∀ h, ¬ ResetDisposes platform w input h) loop pulled) := by
    intro loop pulled held
    cases pulled with
    | interrupted => exact Iff.rfl
    | failed => exact Iff.rfl
    | datagram input =>
        apply forall_congr'
        intro running
        apply forall_congr'
        intro _
        exact deathReported_iff (held.resolve_left (by simp [running]))
  have same := (ecNetPullupAll (ecClientPduProc platform)).meets_iff_kept Pullup.Live _ _
    (fun loop pulled next held spared turned =>
      (ecNetPullupTurn_live held ((agree loop pulled held).mpr spared)).of_ok turned)
    agree pulls start
  constructor
  · exact fun reports => same.mp reports.1
  · intro spared
    have reports := same.mpr spared
    refine ⟨reports, fun failed => ?_⟩
    have avoided := (ecNetPullupAll (ecClientPduProc platform)).run_avoids (OfCalls (DeathReported platform)) Pullup.Live
      (· = .disposed) (fun loop pulled held called => ecNetPullupTurn_live held called) start reports
    exact avoided.of_error failed rfl

/-- The handler of a live client reports its end, and the loop calls no handler after it, exactly when the handler is
not called with a reset that disposes of the client. -/
theorem clientDeath_iff (platform : Platform) (w : CliWork) (live : w.cli.freed = false) :
    (∀ input, DeathReported platform w input ↔ ∀ h, ¬ ResetDisposes platform w input h) ∧
      ∀ pulls, ((ecNetPullupAll (ecClientPduProc platform)).Meets (OfCalls (DeathReported platform)) ⟨w, false⟩ pulls ∧
          (ecNetPullupAll (ecClientPduProc platform)).run ⟨w, false⟩ pulls ≠ .error .disposed) ↔
        (ecNetPullupAll (ecClientPduProc platform)).Meets
          (OfCalls fun w input => ∀ h, ¬ ResetDisposes platform w input h) ⟨w, false⟩ pulls :=
  ⟨fun _ => deathReported_iff live, pullupAll_reports_iff platform w live⟩

/-- The response to a request, with a second one behind it in the socket. -/
def responseTwice : List Pulled := [.interrupted, .datagram tokenlessContent, .datagram tokenlessContent]

/-- The first response is reported as the end of the client, so nobody gets the second one. -/
theorem responseTwice_reported : ∃ w, clientRun loopbackPlatform ⟨confirmableGet, EcDups.empty⟩ none true
    [.dns resolvedOnce] = .ok w ∧ (ecNetPullupAll (ecClientPduProc loopbackPlatform)).run ⟨w, false⟩ responseTwice ≠
      .error .disposed := by
  refine ⟨_, rfl, (((clientDeath_iff loopbackPlatform _ rfl).2 responseTwice).mpr ?_).2⟩
  refine ⟨trivial, fun first interrupted => ?_⟩
  cases interrupted
  refine ⟨fun _ _ h disposes => ?_, fun second answered => ?_⟩
  · have code := disposes.code
    cases disposes.header
    exact absurd code (by decide)
  · cases answered
    exact ⟨fun running => absurd running (by decide), fun _ _ => trivial⟩

/-- A reset of version 1 with no options. -/
def emptyRst (low : UInt8) : Incoming := ⟨[0x70, 0, 0, low], fun _ => 0, 5, loopback, 0, true, true⟩

/-- The peer resets the request, and another datagram is behind the reset in the socket. -/
def resetAndMore : List Pulled := [.datagram (emptyRst 1), .datagram (emptyAck 2)]

/-- A reset disposes of a client and is not reported, and the loop calls the handler with the freed client. -/
theorem resetAndMore_unreported : ∃ w, clientRun loopbackPlatform ⟨confirmableGet, EcDups.empty⟩ none true
    [.dns resolvedOnce] = .ok w ∧ w.cli.freed = false ∧ ¬ DeathReported loopbackPlatform w (emptyRst 1) ∧
      (ecNetPullupAll (ecClientPduProc loopbackPlatform)).run ⟨w, false⟩ resetAndMore = .error .disposed := by
  refine ⟨_, rfl, rfl, fun reported => ?_, rfl⟩
  have dead := reported _ rfl rfl
  cases dead

end Webthings.Evcoap
