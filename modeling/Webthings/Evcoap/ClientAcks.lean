import Webthings.Evcoap.ClientPairing

namespace Webthings.Evcoap
open Webthings.Transition

/-- What a client has sent since it was another. -/
def EcClient.sentSince (after before : EcClient) : List Sent := after.sent.drop before.sent.length

/-- A response that moves the client is acknowledged exactly when it is confirmable, with its own MID. -/
def AckDisciplined (platform : Platform) (w : CliWork) (event : ClientEvent) : Prop :=
  match event with
  | .datagram input => ∀ h handled, w.Hears platform input h → h.code ≠ 0 →
      ecClientHandlePdu platform w input = .ok handled → handled.rc ≠ .error →
      ((handled.work.cli.sentSince w.cli).filter fun s => s.purpose = .ack).map
          (fun s => ecPduDecodeHeader platform.order s.datagram.hdr) =
        if h.t = .con then [some ⟨.ack, 0, 0, h.mid⟩] else []
  | _ => True

/-- The end of a confirmable request that the peer has acknowledged before, while sends succeed. -/
structure EcClient.Acknowledges (cli : EcClient) (sent : Bool) (judgement : EcCliObs) : Prop where
  ends : judgement.on = false
  acknowledged : cli.state = .reqAckd
  confirmable : cli.flow.conn.isConfirmable.getD false = true
  socket : cli.flow.conn.socket ≠ -1
  family : (ecNetSocklen cli.flow.conn.peer).isSome
  sends : sent = true

/-- A response that moves the client is confirmable exactly when it ends a confirmable request that was acknowledged
before, and then no response in the set comes before it with another MID. -/
def AckDue (platform : Platform) (w : CliWork) (event : ClientEvent) : Prop :=
  match event with
  | .datagram input => ∀ h, w.Hears platform input h → h.code ≠ 0 → w.cli.TakesIn h input →
      ∀ judgement, w.cli.judged platform.order h input = some judgement → w.cli.CanFollow judgement.asks →
      (h.t = .con ↔ w.cli.Acknowledges input.sent judgement) ∧ (h.t = .con → (w.cli.shown h input).hdrBits.mid = h.mid)
  | _ => True

section Acks

variable {order : ByteOrder} {cli : EcClient} {h : EcHdr} {input : Incoming} {judgement : EcCliObs}

/-- The ACK that a client logs when it acknowledges. -/
theorem EcClient.Acknowledges.acks (acknowledges : cli.Acknowledges input.sent judgement) :
    ∃ datagram, (cli.added h input).acks order input.sent judgement.asks = [⟨.ack, datagram⟩] ∧
      datagram.hdr = (separateAck order (cli.shown h input).hdrBits.mid).hdr := by
  obtain ⟨ends, acknowledged, confirmable, socket, family, sends⟩ := acknowledges
  have done : judgement.asks = .reqDone := if_neg (by simp [ends])
  have shown : ecClientGetResponsePdu (cli.added h input) = some (cli.shown h input) := cli.added_shown h input
  have due : (cli.added h input).acks order input.sent judgement.asks =
      ((cli.added h input).ack order input.sent).toList.map (Sent.mk .ack) := if_pos ⟨done, acknowledged, confirmable⟩
  have handed : ((cli.added h input).ack order input.sent).isSome := by
    unfold ack
    rw [shown]
    exact (ecNetSend_isSome _ _ _ _ _ _).mpr ⟨socket, family, sends⟩
  obtain ⟨datagram, sent⟩ := Option.isSome_iff_exists.mp handed
  rw [due, sent]
  refine ⟨datagram, rfl, ?_⟩
  unfold ack at sent
  rw [shown] at sent
  rw [ecNetSend_some sent]

/-- A client that does not acknowledge logs no ACK. -/
theorem EcClient.acks_silent (silent : ¬ cli.Acknowledges input.sent judgement) :
    (cli.added h input).acks order input.sent judgement.asks = [] := by
  unfold acks
  split
  · rename_i due
    obtain ⟨done, acknowledged, confirmable⟩ := due
    cases handed : (cli.added h input).ack order input.sent with
    | none => rfl
    | some datagram =>
        have some : (ecNetSend input.sent (separateAck order (cli.shown h input).hdrBits.mid).hdr
            (separateAck order (cli.shown h input).hdrBits.mid).opts.wire [] cli.flow.conn.socket
            cli.flow.conn.peer).isSome := by
          have shown : ecClientGetResponsePdu (cli.added h input) = some (cli.shown h input) := cli.added_shown h input
          unfold ack at handed
          rw [shown] at handed
          exact Option.isSome_iff_exists.mpr ⟨datagram, handed⟩
        obtain ⟨socket, family, sends⟩ := (ecNetSend_isSome _ _ _ _ _ _).mp some
        have ends : judgement.on = false := by
          cases on : judgement.on with
          | false => rfl
          | true =>
              rw [judgement.asks_waitNfy.mpr on] at done
              cases done
        exact absurd ⟨ends, acknowledged, confirmable, socket, family, sends⟩ silent
  · rfl

/-- The ACKs among what an answered client has sent are those of its transition. -/
theorem EcClient.Answered.acks {answered : EcClient} (became : cli.Answered order h input judgement answered) :
    (answered.sentSince cli).filter (fun s => s.purpose = .ack) =
      (cli.added h input).acks order input.sent judgement.asks := by
  obtain ⟨rst, resets, log⟩ := became.log
  have own : ∀ s ∈ (cli.added h input).acks order input.sent judgement.asks, s.purpose = .ack := by
    intro s member
    unfold EcClient.acks at member
    split at member
    · obtain ⟨_, _, rfl⟩ := List.mem_map.mp member
      rfl
    · cases member
  have since : answered.sentSince cli = (cli.added h input).acks order input.sent judgement.asks ++ rst := by
    unfold sentSince
    rw [log, List.append_assoc, List.drop_left]
  rw [since, List.filter_append, List.filter_eq_self.mpr (by simpa using own), List.filter_eq_nil_iff.mpr,
    List.append_nil]
  intro s member
  rw [resets s member]
  decide

end Acks

/-- A client acknowledges as it should in all steps of a run exactly when it is due there. -/
theorem clientRun_acks_iff (platform : Platform) (w : CliWork) (events : List ClientEvent) :
    (clientMachine platform).Meets (AckDisciplined platform) w events ↔
      (clientMachine platform).Meets (AckDue platform) w events := by
  apply (clientMachine platform).meets_congr
  intro w event
  cases event with
  | datagram input =>
      -- Both sides say how the ACKs of one accepted response, which are known, relate to its type and MID.
      have each : ∀ (h : EcHdr) (judgement : EcCliObs),
          ((w.cli.added h input).acks platform.order input.sent judgement.asks).map
              (fun s => ecPduDecodeHeader platform.order s.datagram.hdr) =
            (if h.t = .con then [some ⟨.ack, 0, 0, h.mid⟩] else []) ↔
          (h.t = .con ↔ w.cli.Acknowledges input.sent judgement) ∧
            (h.t = .con → (w.cli.shown h input).hdrBits.mid = h.mid) := by
        intro h judgement
        by_cases acknowledges : w.cli.Acknowledges input.sent judgement
        · obtain ⟨datagram, acks, header⟩ := acknowledges.acks
          rw [acks, List.map_cons, List.map_nil, header, separateAck_header]
          by_cases con : h.t = .con
          · simp [con, acknowledges]
          · simp [con, acknowledges]
        · rw [EcClient.acks_silent acknowledges, List.map_nil]
          by_cases con : h.t = .con
          · simp [con, acknowledges]
          · simp [con, acknowledges]
      constructor
      · intro disciplined h hears code taken judgement judged follows
        obtain ⟨other, handled, judged', outcome, accepted, became⟩ :=
          ecClientHandlePdu_moved hears code ⟨taken, judgement, judged, follows⟩
        cases judged.symm.trans judged'
        have sent := disciplined h handled hears code outcome accepted
        rw [became.acks] at sent
        exact (each h judgement).mp sent
      · intro due h handled hears code outcome accepted
        obtain ⟨taken, judgement, judged, follows⟩ := ecClientHandlePdu_accepted hears code outcome accepted
        obtain ⟨other, handled', judged', outcome', _, became⟩ :=
          ecClientHandlePdu_moved hears code ⟨taken, judgement, judged, follows⟩
        cases judged.symm.trans judged'
        cases outcome.symm.trans outcome'
        rw [became.acks]
        exact (each h judgement).mpr (due h hears code taken judgement judged follows)
  | dns env => exact Iff.rfl
  | appTimeout sent => exact Iff.rfl
  | coapTimeout sent => exact Iff.rfl
  | obsTimeout sent => exact Iff.rfl
  | cancel => exact Iff.rfl
  | shared dups => exact Iff.rfl

/-- A confirmable 2.05 response with the MID bytes 00 09 and no options. -/
def confirmableContent : Incoming := ⟨[0x40, 0x45, 0, 9], fun _ => 0, 5, loopback, 0, true, true⟩

/-- A confirmable response that comes before the ACK of its request is not acknowledged. -/
theorem confirmableContent_silent : ¬ ∀ platform w tout destination events start rc, w.cli.Fresh →
    ecClientGo platform w tout destination = .ok (start, rc) →
      (clientMachine platform).Meets (AckDisciplined platform) start events := by
  intro always
  have run : ∃ start w h handled, ecClientGo loopbackPlatform ⟨confirmableGet, EcDups.empty⟩ none true =
        .ok (start, 0) ∧
      clientStep loopbackPlatform start (.dns resolvedOnce) = .ok w ∧ w.cli.freed = false ∧ w.cli.registered = true ∧
      ecClientHeader .little confirmableContent.raw = some h ∧
      ecDupsSearch loopbackPlatform w.dups h.mid loopback = none ∧ h.code ≠ 0 ∧ h.t = .con ∧
      ecClientHandlePdu loopbackPlatform w confirmableContent = .ok handled ∧ handled.rc ≠ .error ∧
      handled.work.cli.sentSince w.cli = [] :=
    ⟨_, _, _, _, rfl, rfl, rfl, rfl, rfl, rfl, by decide, by decide, rfl, by decide, rfl⟩
  obtain ⟨start, w, h, handled, started, resolved, live, registered, header, fresh, code, con, outcome, accepted,
    silent⟩ := run
  have meets := always loopbackPlatform ⟨confirmableGet, EcDups.empty⟩ none true
    [.dns resolvedOnce, .datagram confirmableContent] start 0 ⟨rfl, rfl, rfl, rfl, rfl, rfl, rfl⟩ started
  have disciplined := (meets.2 w resolved).1 h handled ⟨live, registered, header, fresh⟩ code outcome accepted
  rw [silent, if_pos con] at disciplined
  cases disciplined

end Webthings.Evcoap
