import Webthings.Evcoap.Addressees
import Webthings.Evcoap.Composing

namespace Webthings.Network
open Webthings.Evcoap
open Webthings.Transition

/-- A call of the user's callback: the request that it is for, and what it does. -/
structure Served where
  req : EcPdu
  run : CallbackRun

/-- The transaction whose callback an event can invoke, with the call that it makes. -/
def callback (platform : Platform) (b : EcBase) : BaseEvent → Option (SrvId × Served)
  | .datagram input => (ecPduDecodeHeader platform.order input.raw).map fun h =>
      (b.nextSrv, ⟨(ecServerBody input.raw input.beyond).pdu input.raw h, input.env.run⟩)
  | .rescheduled id env => (b.heap id).bind fun srv => srv.req.map fun req => (id, ⟨req, env.run⟩)
  | _ => none

/-- The call of the user's callback that an event has made for a request of a peer, if any. -/
def serving (platform : Platform) (home : SockAddr) (b b' : EcBase) (event : BaseEvent) : List Served :=
  if b'.invoked = b.invoked then []
  else
    match callback platform b event with
    | none => []
    | some (id, call) =>
        match b'.heap id with
        | none => []
        | some srv => if srv.flow.conn.peer = home then [call] else []

/-- What a base has sent to a peer: by its transactions, and as the answer to a duplicate. -/
def mail (home : SockAddr) (b : EcBase) : List Datagram :=
  ((List.range b.nextSrv).flatMap (fun id => ((b.heap id).map fun srv => srv.sent.map Sent.datagram).getD []) ++
    b.resent).filter fun d => d.peer = home

/-- A transaction for someone else, who alone was sent something and alone can be. -/
structure Foreign (home : SockAddr) (srv : EcServer) : Prop where
  talks : srv.freed = false → srv.flow.conn.peer ≠ home
  sent : ∀ s ∈ srv.sent, s.datagram.peer ≠ home

/-- All transactions of a base are for someone else, but for one that has ended. -/
structure Apart (home : SockAddr) (own : Option SrvId) (b : EcBase) : Prop where
  orderly : b.Orderly
  done : ∀ id, own = some id → ∃ srv, b.heap id = some srv ∧ srv.freed = true
  foreign : ∀ id srv, some id ≠ own → b.heap id = some srv → Foreign home srv

/-- All transactions of a base are for someone else, but for one that is the peer's while it lasts. -/
structure Beside (home : SockAddr) (own : Option SrvId) (b : EcBase) : Prop where
  orderly : b.Orderly
  stored : ∀ id, own = some id → ∃ srv, b.heap id = some srv ∧ (srv.freed = false → srv.flow.conn.peer = home)
  foreign : ∀ id srv, some id ≠ own → b.heap id = some srv → Foreign home srv

/-- A timer or the user gives work to this transaction. -/
def Wakes (id : SrvId) : BaseEvent → Prop
  | .rescheduled other _ | .coapTimeout other _ | .wakeup other _ _ => other = id
  | .datagram _ | .countdown _ | .registry _ | .callbacks _ _ | .request _ _ _ | .client _ _ => False

/-- No timer and no user gives work to the transaction of a peer while it lasts. -/
def Aside (own : Option SrvId) (b : EcBase) (event : BaseEvent) : Prop :=
  ∀ id srv, own = some id → b.heap id = some srv → srv.freed = false → ¬ Wakes id event

/-- An event of others: it is no message from a peer, and puts no end and no reply to the peer's records. -/
def Elsewhere (platform : Platform) (home : SockAddr) (b : EcBase) (event : BaseEvent) : Prop :=
  match event with
  | .datagram input => input.peer ≠ home
  | .countdown key => ∀ mid, key ≠ ecDupKeyNew platform mid home
  | .request _ _ _ => ∀ mid, ¬ b.Touches platform event (ecDupKeyNew platform mid home)
  | .client _ heard => (∀ input, heard = .datagram input → input.peer ≠ home) ∧
      ∀ mid, ¬ b.Touches platform event (ecDupKeyNew platform mid home)
  | .rescheduled _ _ | .coapTimeout _ _ | .wakeup _ _ _ | .registry _ | .callbacks _ _ => True

/-- What an event of others leaves to a peer: its records, its transaction and what it was sent. -/
structure Spared (platform : Platform) (home : SockAddr) (own : Option SrvId) (b b' : EcBase) : Prop where
  beside : Beside home own b'
  records : ∀ mid, b'.dups (ecDupKeyNew platform mid home) = b.dups (ecDupKeyNew platform mid home)
  own : ∀ id, own = some id → b'.heap id = b.heap id
  resent : ∀ d ∈ b'.resent, d.peer = home → d ∈ b.resent

section Keys

variable {platform : Platform} {home : SockAddr}

/-- An address that the platform prints like no other shares no key. -/
theorem ecDupKeyNew_home
    (distinct : ∀ peer, platform.formatSockaddrPort peer = platform.formatSockaddrPort home → peer = home)
    {mid mid' : UInt16} {peer : SockAddr} (same : ecDupKeyNew platform mid peer = ecDupKeyNew platform mid' home) :
    mid = mid' ∧ peer = home := by
  have digits : ∀ n : Nat, '+' ∉ Nat.toDigits 10 n := fun n member =>
    absurd (decimal_digits n '+' member) (by decide)
  obtain ⟨mids, peers⟩ := append_separator_injective '+' (digits mid.toNat) (digits mid'.toNat) same
  exact ⟨UInt16.toNat_inj.mp (decimal_injective mids), distinct peer peers⟩

end Keys

section Others

variable {platform : Platform} {home : SockAddr} {own : Option SrvId} {b b' : EcBase} {event : BaseEvent}

theorem Foreign.posts {old new : EcServer} (foreign : Foreign home old) (live : old.freed = false)
    (posts : old.Posts new) : Foreign home new := by
  obtain ⟨more, log, along⟩ := posts.sent
  have talks := foreign.talks live
  refine ⟨fun _ => by rw [posts.peer]; exact talks, ?_⟩
  rw [log]
  refine List.forall_mem_append.mpr ⟨foreign.sent, fun s member => ?_⟩
  rw [(along s member).peer]
  exact talks

/-- The transaction of a request from elsewhere is a foreign one. -/
theorem ecServerProcess_foreign (known : (ecNetSocklen home).isSome) {resources : List (List UInt8)} {fb : Bool}
    {h : EcHdr} {input : ServerInput} {w w' : EcWork} {rc : EcNetCbrc} (created : w.srv = ecServerNew)
    (elsewhere : input.peer ≠ home)
    (finished : ecServerProcess platform resources fb h input w = .ok (w', rc)) :
    Foreign home w'.srv ∧ (w'.invoked = w.invoked ∨ w'.srv.flow.conn.peer ≠ home) := by
  rcases ecServerProcess_cases created finished with ⟨_, flow, code, failed⟩ | ⟨flow, prepares, dispatched⟩
  · have silent : w'.srv.sent = [] := ecServerFail_mute rfl failed
    have freed : w'.srv.freed = true := (ecServerFail_logs failed).1
    have uncalled := ecServerFail_invoked failed
    exact ⟨⟨by simp [freed], by simp [silent]⟩, Or.inl uncalled⟩
  · have talks : flow.conn.peer ≠ home := by
      rcases prepares.peer with sender | ⟨_, unknown⟩
      · rw [sender]
        exact elsewhere
      · intro same
        rw [← same, unknown] at known
        cases known
    have accepted : Foreign home (w.accepting h input flow).srv :=
      ⟨fun _ => talks, fun s member => absurd member (by simp [EcWork.accepting, EcServer.accepted, ecServerNew])⟩
    have posts := ecServerDispatch_posts platform dispatched
    exact ⟨accepted.posts rfl posts, Or.inr (by rw [posts.peer]; exact talks)⟩

theorem Apart.beside (apart : Apart home own b) : Beside home own b := by
  refine ⟨apart.orderly, fun id mine => ?_, apart.foreign⟩
  obtain ⟨srv, stored, freed⟩ := apart.done id mine
  exact ⟨srv, stored, fun live => by cases live.symm.trans freed⟩

/-- Nothing gives work to a transaction that has ended. -/
theorem Apart.aside (apart : Apart home own b) (event : BaseEvent) : Aside own b event := by
  intro id srv mine stored live
  obtain ⟨held, present, freed⟩ := apart.done id mine
  cases stored.symm.trans present
  cases live.symm.trans freed

/-- A transaction that a timer or the user gives work to is a foreign one. -/
theorem Beside.woken (beside : Beside home own b) (aside : Aside own b event) {id : SrvId} {srv : EcServer}
    (stored : b.heap id = some srv) (live : srv.freed = false) (wakes : Wakes id event) :
    some id ≠ own ∧ Foreign home srv := by
  have other : some id ≠ own := fun same => aside id srv same.symm stored live wakes
  exact ⟨other, beside.foreign id srv other stored⟩

/-- The transaction that a control message belongs to is the sender's. -/
theorem matched_peer {mid : UInt16} {sd : Int} {peer : SockAddr} {id : SrvId} {srv : EcServer}
    (found : ecServersLookup b mid sd peer = some id) (stored : b.heap id = some srv) : srv.flow.conn.peer = peer := by
  have matched := (ecServersLookup_mem found).2
  unfold EcBase.lookupMatch at matched
  rw [stored] at matched
  simp only [Bool.and_eq_true, beq_iff_eq] at matched
  exact matched.1.2

/-- The work of others is done by a foreign transaction. -/
theorem Beside.works (known : (ecNetSocklen home).isSome) (beside : Beside home own b)
    (elsewhere : Elsewhere platform home b event) (aside : Aside own b event) {id : SrvId} {w : EcWork}
    (work : ServerWork platform b event id w) : some id ≠ own ∧ Foreign home w.srv := by
  have goesOn : ∀ srv, b.heap id = some srv → srv.freed = false → some id ≠ own → srv.Posts w.srv →
      some id ≠ own ∧ Foreign home w.srv := fun srv stored live other posts =>
    ⟨other, (beside.foreign id srv other stored).posts live posts⟩
  cases work with
  | control input h id srv w rc controls found stored worked =>
      obtain ⟨held, present, live⟩ := beside.orderly.settled.listed id (ecServersLookup_mem found).1
      cases stored.symm.trans present
      refine goesOn srv stored live (fun same => ?_) (ecServerControlled_posts platform worked)
      obtain ⟨held, present, talks⟩ := beside.stored id same.symm
      cases stored.symm.trans present
      exact elsewhere ((matched_peer found stored).symm.trans (talks live))
  | request input h w rc accepts method worked =>
      refine ⟨fun same => ?_, (ecServerProcess_foreign known rfl elsewhere worked).1⟩
      obtain ⟨held, present, _⟩ := beside.stored _ same.symm
      cases beside.orderly.settled.fresh.2.symm.trans present
  | rescheduled id env srv w stored armed live worked =>
      have fired : srv.Posts {srv with resched := srv.resched.fired} := EcServer.Posts.of_same rfl rfl
      exact goesOn srv stored live (beside.woken aside stored live rfl).1
        (fired.trans (reschedUserfn_posts platform worked))
  | coapTimeout id env srv w stored armed live worked =>
      have fired : srv.Posts {srv with coap := srv.coap.fired} := EcServer.Posts.of_same rfl rfl
      exact goesOn srv stored live (beside.woken aside stored live rfl).1
        (fired.trans (ecSrvCoapTimeout_posts platform worked))
  | wakeup id calls env srv w rc stored live worked =>
      exact goesOn srv stored live (beside.woken aside stored live rfl).1 (ecServerWakeup_posts platform worked)

/-- Others do not touch the records of a peer. -/
theorem Beside.untouched (known : (ecNetSocklen home).isSome)
    (distinct : ∀ peer, platform.formatSockaddrPort peer = platform.formatSockaddrPort home → peer = home)
    (beside : Beside home own b) (elsewhere : Elsewhere platform home b event) (aside : Aside own b event)
    (mid : UInt16) : ¬ b.Touches platform event (ecDupKeyNew platform mid home) := by
  have touching : ∀ srv : EcServer, srv.Touches platform (ecDupKeyNew platform mid home) →
      srv.flow.conn.peer = home := by
    rintro srv ⟨other, same, _⟩
    exact (ecDupKeyNew_home distinct same.symm).2
  have woken : ∀ id srv, b.heap id = some srv → srv.freed = false → Wakes id event →
      ¬ srv.Touches platform (ecDupKeyNew platform mid home) := fun id srv stored live wakes touched =>
    (beside.woken aside stored live wakes).2.talks live (touching srv touched)
  intro touched
  cases event with
  | datagram input =>
      obtain ⟨h, accepts, ⟨id, srv, _, found, stored, _, touches⟩ | ⟨_, peer, same, sender⟩⟩ := touched
      · exact elsewhere ((matched_peer found stored).symm.trans (touching srv touches))
      · have own := (ecDupKeyNew_home distinct same.symm).2
        rcases sender with sender | ⟨_, unknown⟩
        · exact elsewhere (sender.symm.trans own)
        · rw [← own, unknown] at known
          cases known
  | rescheduled id env =>
      obtain ⟨srv, stored, live, owed⟩ := touched
      exact woken id srv stored live rfl owed.2
  | coapTimeout id env =>
      obtain ⟨srv, stored, live, _, _, touches⟩ := touched
      exact woken id srv stored live rfl touches
  | wakeup id calls env =>
      obtain ⟨srv, stored, live, owed⟩ := touched
      exact woken id srv stored live rfl owed.2
  | request cli tout destination => exact elsewhere mid touched
  | client cid heard => exact elsewhere.2 mid touched
  | countdown key => exact touched
  | registry observing => exact touched
  | callbacks resources fb => exact touched

/-- The records of a peer stay as they are. -/
theorem Beside.recorded (known : (ecNetSocklen home).isSome)
    (distinct : ∀ peer, platform.formatSockaddrPort peer = platform.formatSockaddrPort home → peer = home)
    (beside : Beside home own b) (elsewhere : Elsewhere platform home b event) (aside : Aside own b event)
    (finished : baseStep platform b event = .ok b') (mid : UInt16) :
    b'.dups (ecDupKeyNew platform mid home) = b.dups (ecDupKeyNew platform mid home) := by
  have untouched := beside.untouched known distinct elsewhere aside mid
  have inserted : ∀ (peer : SockAddr) (mid' : UInt16) (raw : List UInt8), peer ≠ home →
      ecDupsInsert platform b.dups peer mid' raw (ecDupKeyNew platform mid home) =
        b.dups (ecDupKeyNew platform mid home) := fun peer mid' raw other =>
    EcDups.put_other _ _ fun same => other (ecDupKeyNew_home distinct same.symm).2
  have records := baseStep_records finished
  generalize b'.dups = dups at records ⊢
  cases records with
  | kept event dups same => exact same.frame _ untouched
  | received input h dups accepts same =>
      exact (same.frame _ untouched).trans (inserted input.peer h.mid input.raw elsewhere)
  | heard cid cli input h dups stored hears same =>
      exact (same.frame _ untouched).trans (inserted input.peer h.mid input.raw (elsewhere.1 input rfl))
  | zapped zap => exact EcDups.del_other b.dups fun same => elsewhere mid same.symm

/-- An event of others leaves a peer alone. -/
theorem baseStep_spares (known : (ecNetSocklen home).isSome)
    (distinct : ∀ peer, platform.formatSockaddrPort peer = platform.formatSockaddrPort home → peer = home)
    (beside : Beside home own b) (elsewhere : Elsewhere platform home b event) (aside : Aside own b event)
    (finished : baseStep platform b event = .ok b') : Spared platform home own b b' := by
  have orderly := baseStep_orderly beside.orderly finished
  have resent : ∀ d ∈ b'.resent, d.peer = home → d ∈ b.resent := by
    rcases baseStep_resent finished with same | ⟨input, h, recvd, cached, datagram, _, _, _, same⟩
    · rw [same]
      exact fun d member _ => member
    · subst datagram
      rw [same]
      intro d member sent
      rcases List.mem_append.mp member with before | new
      · exact before
      · rw [List.mem_singleton.mp new] at sent
        exact absurd sent elsewhere
  have records := beside.recorded known distinct elsewhere aside finished
  rcases baseStep_effect finished with same | ⟨id, w, work, worked⟩
  · refine ⟨⟨orderly, ?_, ?_⟩, records, fun id _ => by rw [same.heap], resent⟩
    · rw [same.heap]
      exact beside.stored
    · rw [same.heap]
      exact beside.foreign
  · have here : w.self = id := (work.done beside.orderly.settled).same
    obtain ⟨other, foreign⟩ := beside.works known elsewhere aside work
    have kept : ∀ id', own = some id' → b'.heap id' = b.heap id' := by
      intro id' mine
      rw [worked.heap, if_neg]
      intro same
      rw [mine, same, here] at other
      exact other rfl
    refine ⟨⟨orderly, fun id' mine => ?_, fun id' srv notMine stored => ?_⟩, records, kept, resent⟩
    · rw [kept id' mine]
      exact beside.stored id' mine
    · rw [worked.heap] at stored
      split at stored
      · cases stored
        exact foreign
      · exact beside.foreign id' srv notMine stored

/-- An event of others leaves a transaction that has ended what it is. -/
theorem Spared.apart (spared : Spared platform home own b b') (apart : Apart home own b) : Apart home own b' := by
  refine ⟨spared.beside.orderly, fun id mine => ?_, spared.beside.foreign⟩
  rw [spared.own id mine]
  exact apart.done id mine

/-- A call for a transaction that the event does not leave to a peer is none for the peer. -/
theorem serving_eq_nil (others : ∀ id call srv, callback platform b event = some (id, call) → b'.heap id = some srv →
    b'.invoked ≠ b.invoked → srv.flow.conn.peer ≠ home) : serving platform home b b' event = [] := by
  unfold serving
  split
  · rfl
  · rename_i called
    split
    · rfl
    · rename_i id call calls
      split
      · rfl
      · rename_i srv stored
        exact if_neg (others id call srv calls stored called)

/-- An event of others makes no call for a peer. -/
theorem serving_elsewhere (known : (ecNetSocklen home).isSome) (beside : Beside home own b)
    (elsewhere : Elsewhere platform home b event) (aside : Aside own b event)
    (finished : baseStep platform b event = .ok b') : serving platform home b b' event = [] := by
  have fresh := beside.orderly.settled.fresh.2
  refine serving_eq_nil fun id call srv calls stored called => ?_
  cases event with
  | datagram input =>
      obtain ⟨h, _, same⟩ := Option.map_eq_some_iff.mp calls
      cases same
      rcases baseStep_effect finished with same | ⟨id, w, work, worked⟩
      · rw [same.heap, fresh] at stored
        cases stored
      · have here : w.self = id := (work.done beside.orderly.settled).same
        rw [worked.heap, here] at stored
        cases work with
        | control _ h id old w rc controls found held process =>
            rw [if_neg (by rintro rfl; cases held.symm.trans fresh), fresh] at stored
            cases stored
        | request _ h w rc accepts method process =>
            rw [if_pos rfl] at stored
            cases stored
            rcases (ecServerProcess_foreign known rfl elsewhere process).2 with uncalled | talks
            · rw [baseStep_request platform b input h accepts method, process] at finished
              cases finished
              exact absurd uncalled called
            · exact talks
  | rescheduled id env =>
      obtain ⟨srv', _, calls⟩ := Option.bind_eq_some_iff.mp calls
      obtain ⟨req, _, same⟩ := Option.map_eq_some_iff.mp calls
      cases same
      rcases EcBase.fire_ok finished with same | ⟨old, w, held, armed, live, process, same⟩
      · exact absurd (by rw [same]) called
      · have here := (ServerWork.rescheduled id env old w held armed live process).done beside.orderly.settled
        have self : id = w.self := here.same.symm
        rw [same] at stored
        change (if id = w.self then some w.srv else b.heap id) = some srv at stored
        rw [if_pos self] at stored
        cases stored
        rw [(reschedUserfn_posts platform process).peer]
        exact (beside.woken aside held live rfl).2.talks live
  | coapTimeout id env => cases calls
  | wakeup id calls' env => cases calls
  | countdown key => cases calls
  | registry observing => cases calls
  | callbacks resources fb => cases calls
  | request cli tout destination => cases calls
  | client cid heard => cases calls

end Others

end Webthings.Network
