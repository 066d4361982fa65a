import Webthings.Evcoap.Caching

namespace Webthings.Evcoap
open Webthings.Transition

/-- A message with this MID from this peer changes nothing but the log of repeated replies, at whichever socket it
arrives. -/
structure EcBase.Suppresses (platform : Platform) (b : EcBase) (mid : UInt16) (peer : SockAddr) : Prop where
  server : ∀ input h, input.peer = peer → ecPduDecodeHeader platform.order input.raw = some h → h.mid = mid →
    ∃ resent, baseStep platform b (.datagram input) = .ok {b with resent := resent}
  client : ∀ cid input h, input.peer = peer → ecPduDecodeHeader platform.order input.raw = some h → h.mid = mid →
    baseStep platform b (.client cid (.datagram input)) = .ok b

section Lifetime

variable {platform : Platform} {b b' : EcBase}

/-- The record of a new message does not displace another one. -/
theorem ecDupsInsert_kept {dups : EcDups} {peer : SockAddr} {mid : UInt16} (raw : List UInt8) {key : DupKey}
    {recvd : EcRecvdPdu} (fresh : ecDupsSearch platform dups mid peer = none) (present : dups key = some recvd) :
    ecDupsInsert platform dups peer mid raw key = some recvd := by
  have other : key ≠ ecDupKeyNew platform mid peer := by
    intro same
    subst same
    cases fresh.symm.trans present
  unfold ecDupsInsert
  rw [EcDups.put_other dups _ other]
  exact present

/-- A record outlives every event but its own countdown. -/
theorem EcBase.Records.keeps {event : BaseEvent} {dups : EcDups} (records : b.Records platform event dups)
    {key : DupKey} {recvd : EcRecvdPdu} (present : b.dups key = some recvd) (alive : event ≠ .countdown key) :
    ∃ recvd', dups key = some recvd' ∧ recvd'.origin = recvd.origin := by
  cases records with
  | kept event dups same => exact same.kept present
  | received input h dups accepts same => exact same.kept (ecDupsInsert_kept input.raw accepts.fresh present)
  | heard cid cli input h dups stored hears same => exact same.kept (ecDupsInsert_kept input.raw hears.fresh present)
  | zapped zap =>
      have other : key ≠ zap := fun same => alive (by rw [same])
      exact ⟨recvd, (EcDups.del_other b.dups other).trans present, rfl⟩

/-- A record outlives every run without its countdown. -/
theorem baseRun_keeps {events : List BaseEvent} (finished : (baseMachine platform).run b events = .ok b')
    {key : DupKey} {recvd : EcRecvdPdu} (present : b.dups key = some recvd) (alive : .countdown key ∉ events) :
    ∃ recvd', b'.dups key = some recvd' ∧ recvd'.origin = recvd.origin := by
  induction events generalizing b recvd with
  | nil =>
      have same : b = b' := by simpa using finished
      exact ⟨recvd, same ▸ present, rfl⟩
  | cons event events ih =>
      obtain ⟨next, stepped, rest⟩ := (baseMachine platform).run_cons_ok finished
      obtain ⟨middle, held, origin⟩ := (baseStep_records stepped).keeps present fun same =>
        alive (same ▸ List.mem_cons_self)
      obtain ⟨last, kept, origin'⟩ := ih rest held fun later => alive (List.mem_cons_of_mem event later)
      exact ⟨last, kept, origin'.trans origin⟩

/-- The acceptance of a message leaves its record. -/
theorem EcBase.Accepts.recorded {input : ServerInput} {h : EcHdr} (accepts : b.Accepts platform input h)
    (finished : baseStep platform b (.datagram input) = .ok b') :
    ∃ recvd, b'.dups (ecDupKeyNew platform h.mid input.peer) = some recvd ∧
      recvd.origin = (input.peer, h.mid, input.raw) := by
  obtain ⟨⟨handled, rc⟩, stepped, same⟩ := map_ok finished
  cases same
  exact (ecServerHandlePdu_received accepts stepped).kept (EcDups.put_self b.dups _ _)

/-- A message that a client hears gets its record, too. -/
theorem CliWork.Hears.recorded {w next : CliWork} {input : Incoming} {h : EcHdr} (hears : w.Hears platform input h)
    (finished : clientStep platform w (.datagram input) = .ok next) :
    ∃ recvd, next.dups (ecDupKeyNew platform h.mid input.peer) = some recvd ∧
      recvd.origin = (input.peer, h.mid, input.raw) := by
  rw [clientStep_hears hears] at finished
  obtain ⟨handled, worked, same⟩ := map_ok finished
  subst same
  have answered := (ecClientHandleNew_recaches platform (w.seen platform input h) h input).of_ok worked
  exact answered.dups.kept (EcDups.put_self w.dups _ _)

/-- A client takes no notice of a message with a live record. -/
theorem clientStep_duplicate {w : CliWork} {input : Incoming} {h : EcHdr} {recvd : EcRecvdPdu}
    (header : ecPduDecodeHeader platform.order input.raw = some h)
    (present : ecDupsSearch platform w.dups h.mid input.peer = some recvd) :
    clientStep platform w (.datagram input) = .ok w := by
  unfold clientStep
  split
  · rfl
  · dsimp only
    split
    · cases response : ecClientHeader platform.order input.raw with
      | none =>
          unfold ecClientHandlePdu
          rw [response]
          rfl
      | some other =>
          have same : other = h := by
            unfold ecClientHeader at response
            rw [header] at response
            dsimp only at response
            split at response
            · cases response
            · exact (Option.some.inj response).symm
          subst same
          obtain ⟨rc, resent, duplicate⟩ := ecClientHandlePdu_duplicate platform w input other response recvd present
          rw [duplicate]
          rfl
    · rfl

/-- A message with a live record is suppressed. -/
theorem EcBase.Suppresses.of_record {mid : UInt16} {peer : SockAddr} {recvd : EcRecvdPdu}
    (present : ecDupsSearch platform b.dups mid peer = some recvd) : b.Suppresses platform mid peer where
  server := by
    intro input h sender header own
    subst sender
    subst own
    obtain ⟨resent, rc, duplicate⟩ := ecServerHandlePdu_duplicate platform b input h header recvd present
    refine ⟨resent, ?_⟩
    dsimp only [baseStep]
    rw [duplicate]
    rfl
  client := by
    intro cid input h sender header own
    subst sender
    subst own
    dsimp only [baseStep]
    unfold EcBase.clientStep
    cases stored : b.clients[cid]? with
    | none => rfl
    | some cli =>
        have quiet := clientStep_duplicate (w := ⟨cli, b.dups⟩) header present
        obtain ⟨inside, here⟩ := List.getElem?_eq_some_iff.mp stored
        have kept : b.clients.set cid cli = b.clients := by
          rw [← here]
          exact List.set_getElem_self inside
        dsimp only
        rw [quiet]
        change Except.ok {b with clients := b.clients.set cid cli, dups := b.dups} = _
        rw [kept]

/-- Once a message has been accepted, its MID and its peer are suppressed in every run until the countdown of its
record fires. -/
theorem acceptedMessage_suppresses (accepted : ServerInput) (h : EcHdr) (start : EcBase) (events : List BaseEvent)
    (accepts : b.Accepts platform accepted h) (handled : baseStep platform b (.datagram accepted) = .ok start)
    (finished : (baseMachine platform).run start events = .ok b')
    (alive : .countdown (ecDupKeyNew platform h.mid accepted.peer) ∉ events) :
    b'.Suppresses platform h.mid accepted.peer := by
  obtain ⟨recvd, present, _⟩ := accepts.recorded handled
  obtain ⟨last, kept, _⟩ := baseRun_keeps finished present alive
  exact EcBase.Suppresses.of_record kept

/-- A confirmable GET that comes again, and again after its user has given up on it, is not served twice. -/
theorem waitingGet_suppresses : ∃ start b',
    baseStep serverPlatform {ecInit with fb := true} (.datagram waitingGet) = .ok start ∧
    (baseMachine serverPlatform).run start [.datagram waitingGet, .rescheduled 0 waitingGet.env] = .ok b' ∧
    b'.Suppresses serverPlatform 0x0700 loopbackPeer := by
  have ends : ∃ start b', baseStep serverPlatform {ecInit with fb := true} (.datagram waitingGet) = .ok start ∧
      (baseMachine serverPlatform).run start [.datagram waitingGet, .rescheduled 0 waitingGet.env] = .ok b' :=
    ⟨_, _, rfl, rfl⟩
  obtain ⟨start, b', handled, finished⟩ := ends
  have accepts : EcBase.Accepts serverPlatform {ecInit with fb := true} waitingGet ⟨.con, 1, 1, 0x0700⟩ :=
    ⟨by decide, by decide, by decide, rfl⟩
  exact ⟨start, b', handled, finished, acceptedMessage_suppresses waitingGet ⟨.con, 1, 1, 0x0700⟩ start _ accepts
    handled finished (by simp)⟩

end Lifetime

end Webthings.Evcoap
