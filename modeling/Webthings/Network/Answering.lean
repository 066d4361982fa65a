import Webthings.Evcoap.PromptReplies
import Webthings.Network.Serving

namespace Webthings.Network
open Webthings.Evcoap
open Webthings.Transition

/-- A base that has taken in no message of a peer. -/
structure Unserved (platform : Platform) (home : SockAddr) (b : EcBase) : Prop where
  apart : Apart home none b
  unrecorded : ∀ mid, b.dups (ecDupKeyNew platform mid home) = none
  silent : ∀ d ∈ b.resent, d.peer ≠ home

/-- A base that has answered the request of a peer: the transaction has ended, and its reply is in the record. -/
structure Answered (platform : Platform) (home : SockAddr) (mid : UInt16) (own : SrvId) (first : Datagram)
    (b : EcBase) : Prop where
  apart : Apart home (some own) b
  server : ∃ srv, b.heap own = some srv ∧ srv.sent = [⟨.response, first⟩]
  addressed : first.peer = home
  recorded : ∃ recvd, b.dups (ecDupKeyNew platform mid home) = some recvd ∧ recvd.cachedPdu = some first.cached
  unanswered : ∀ other recvd, other ≠ mid → b.dups (ecDupKeyNew platform other home) = some recvd →
    recvd.cachedPdu = none
  resent : ∀ d ∈ b.resent, d.peer = home → d.bytes = first.bytes

/-- A message of a peer that the base does not accept as a new one leaves it as it is, or has a record. -/
theorem baseStep_refused {platform : Platform} {b b' : EcBase} {input : ServerInput}
    (refused : ∀ h, ¬ b.Accepts platform input h) (finished : baseStep platform b (.datagram input) = .ok b') :
    b' = b ∨ ∃ h recvd cached, ecPduDecodeHeader platform.order input.raw = some h ∧
      b.dups (ecDupKeyNew platform h.mid input.peer) = some recvd ∧ recvd.cachedPdu = some cached ∧
      b' = {b with resent := b.resent ++ [⟨cached.hdr, cached.opts, cached.payload, input.sd, input.peer⟩]} := by
  rcases baseStep_resent finished with same | ⟨_, h, recvd, cached, datagram, header, present, reply, whole⟩
  · left
    obtain ⟨⟨handled, rc⟩, stepped, kept⟩ := map_ok finished
    cases kept
    rcases ecServerHandlePdu_cases platform b input with ⟨resent, other, quiet⟩ | ⟨h, accepts⟩
    · rw [quiet] at stepped
      cases stepped
      have log : resent = b.resent := same
      rw [log]
    · exact absurd accepts (refused h)
  · cases datagram
    exact Or.inr ⟨h, recvd, cached, header, present, reply, whole⟩

/-- A new message that is no request gets a record, and goes to a pending server at best. -/
theorem baseStep_control {platform : Platform} {b b' : EcBase} {input : ServerInput} {h : EcHdr}
    (accepts : b.Accepts platform input h) (other : ¬ ecIsMethod h.code.toNat)
    (finished : baseStep platform b (.datagram input) = .ok b') :
    (∃ observing, b' = {b.seen platform input h with observing := observing}) ∨
    ∃ id srv w rc, b.Controls platform input h ∧ ecServersLookup b h.mid input.sd input.peer = some id ∧
      b.heap id = some srv ∧
      ecServerControlled platform h input ((b.seen platform input h).work id srv) = .ok (w, rc) ∧
      b' = (b.seen platform input h).store w := by
  have matching : ∀ {rc : EcNetCbrc} {handled : EcBase}, b.Controls platform input h →
      ecServerMatched platform (b.seen platform input h) h input = .ok (handled, rc) →
      (∃ observing, handled = {b.seen platform input h with observing := observing}) ∨
      ∃ id srv w rc, b.Controls platform input h ∧ ecServersLookup b h.mid input.sd input.peer = some id ∧
        b.heap id = some srv ∧
        ecServerControlled platform h input ((b.seen platform input h).work id srv) = .ok (w, rc) ∧
        handled = (b.seen platform input h).store w := by
    intro rc handled controls matched
    unfold ecServerMatched at matched
    split at matched
    · cases matched
      exact Or.inl ⟨_, rfl⟩
    · rename_i id found
      split at matched
      · cases matched
      · rename_i srv stored
        obtain ⟨⟨w, outcome⟩, worked, same⟩ := map_ok matched
        cases same
        exact Or.inr ⟨id, srv, w, _, controls, found, stored, worked, rfl⟩
  obtain ⟨⟨handled, rc⟩, stepped, kept⟩ := map_ok finished
  cases kept
  rw [ecServerHandlePdu_new platform b input h accepts] at stepped
  unfold ecServerHandleNew at stepped
  split at stepped
  · rename_i empty
    unfold ecServerControl at stepped
    split at stepped
    · dsimp only at stepped
      split at stepped
      · cases stepped
        exact Or.inl ⟨_, rfl⟩
      · rename_i named
        split at stepped
        · cases stepped
          exact Or.inl ⟨_, rfl⟩
        · rename_i absent
          exact matching ⟨accepts, empty, fun _ => ⟨by simpa using named, absent⟩⟩ stepped
    · rename_i unreset
      exact matching ⟨accepts, empty, fun reset => absurd reset unreset⟩ stepped
  · cases stepped
    exact Or.inl ⟨_, rfl⟩

section Mail

variable {platform : Platform} {home : SockAddr} {mid : UInt16} {own : SrvId} {first : Datagram} {b : EcBase}

theorem mem_mail {d : Datagram} (member : d ∈ mail home b) : d.peer = home ∧
    (d ∈ b.resent ∨ ∃ id srv s, b.heap id = some srv ∧ s ∈ srv.sent ∧ s.datagram = d) := by
  obtain ⟨logged, addressed⟩ := List.mem_filter.mp member
  refine ⟨of_decide_eq_true addressed, ?_⟩
  rcases List.mem_append.mp logged with sent | resent
  · obtain ⟨id, _, log⟩ := List.mem_flatMap.mp sent
    cases stored : b.heap id with
    | none => simp [stored] at log
    | some srv =>
        simp only [stored, Option.map_some, Option.getD_some] at log
        obtain ⟨s, inside, same⟩ := List.mem_map.mp log
        exact Or.inr ⟨id, srv, s, stored, inside, same⟩
  · exact Or.inl resent

theorem sent_mail (settled : b.Settled) {id : SrvId} {srv : EcServer} (stored : b.heap id = some srv) {s : Sent}
    (member : s ∈ srv.sent) (addressed : s.datagram.peer = home) : s.datagram ∈ mail home b := by
  refine List.mem_filter.mpr ⟨?_, decide_eq_true addressed⟩
  apply List.mem_append_left
  refine List.mem_flatMap.mpr ⟨id, List.mem_range.mpr (settled.allocated id srv stored), ?_⟩
  simp only [stored, Option.map_some, Option.getD_some]
  exact List.mem_map_of_mem member

/-- A peer that no message was taken in of gets none. -/
theorem Unserved.mail_nil (unserved : Unserved platform home b) : mail home b = [] := by
  refine List.eq_nil_iff_forall_not_mem.mpr fun d member => ?_
  obtain ⟨addressed, resent | ⟨id, srv, s, stored, inside, same⟩⟩ := mem_mail member
  · exact unserved.silent d resent addressed
  · subst same
    exact (unserved.apart.foreign id srv (by simp) stored).sent s inside addressed

/-- All that an answered peer gets has the bytes of the first answer. -/
theorem Answered.mail_bytes (answered : Answered platform home mid own first b) :
    ∀ d ∈ mail home b, d.bytes = first.bytes := by
  intro d member
  obtain ⟨addressed, resent | ⟨id, srv, s, stored, inside, same⟩⟩ := mem_mail member
  · exact answered.resent d resent addressed
  · by_cases mine : id = own
    · obtain ⟨held, present, log⟩ := answered.server
      subst mine
      cases stored.symm.trans present
      rw [log, List.mem_singleton] at inside
      subst inside
      subst same
      rfl
    · subst same
      exact absurd addressed ((answered.apart.foreign id srv (by simpa using mine) stored).sent s inside)

end Mail

section Others

variable {platform : Platform} {home : SockAddr} {mid : UInt16} {own : SrvId} {first : Datagram} {b b' : EcBase}
  {event : BaseEvent}

theorem Unserved.spared (known : (ecNetSocklen home).isSome)
    (distinct : ∀ peer, platform.formatSockaddrPort peer = platform.formatSockaddrPort home → peer = home)
    (unserved : Unserved platform home b) (elsewhere : Elsewhere platform home b event)
    (finished : baseStep platform b event = .ok b') : Unserved platform home b' := by
  have spared := baseStep_spares known distinct unserved.apart.beside elsewhere (unserved.apart.aside event)
    finished
  refine ⟨spared.apart unserved.apart, fun other => ?_, fun d member addressed => ?_⟩
  · rw [spared.records]
    exact unserved.unrecorded other
  · exact unserved.silent d (spared.resent d member addressed) addressed

theorem Answered.spared (known : (ecNetSocklen home).isSome)
    (distinct : ∀ peer, platform.formatSockaddrPort peer = platform.formatSockaddrPort home → peer = home)
    (answered : Answered platform home mid own first b) (elsewhere : Elsewhere platform home b event)
    (finished : baseStep platform b event = .ok b') : Answered platform home mid own first b' := by
  have spared := baseStep_spares known distinct answered.apart.beside elsewhere (answered.apart.aside event)
    finished
  refine ⟨spared.apart answered.apart, ?_, answered.addressed, ?_, fun other recvd different present => ?_,
    fun d member addressed => ?_⟩
  · rw [spared.own own rfl]
    exact answered.server
  · rw [spared.records]
    exact answered.recorded
  · rw [spared.records] at present
    exact answered.unanswered other recvd different present
  · exact answered.resent d (spared.resent d member addressed) addressed

end Others

section Messages

variable {platform : Platform} {home : SockAddr} {mid : UInt16} {own : SrvId} {first : Datagram} {b b' : EcBase}
  {input : ServerInput}

/-- The first message of a peer that is not accepted leaves the base as it is. -/
theorem Unserved.refuses (unserved : Unserved platform home b) (sender : input.peer = home)
    (refused : ∀ h, ¬ b.Accepts platform input h) (finished : baseStep platform b (.datagram input) = .ok b') :
    b' = b := by
  rcases baseStep_refused refused finished with same | ⟨h, recvd, cached, _, present, _⟩
  · exact same
  · rw [sender, unserved.unrecorded] at present
    cases present

/-- A request leaves no trace in the records of other messages. -/
theorem baseStep_otherRecords
    (distinct : ∀ peer, platform.formatSockaddrPort peer = platform.formatSockaddrPort home → peer = home) {h : EcHdr}
    (accepts : b.Accepts platform input h) (method : ecIsMethod h.code.toNat)
    (finished : baseStep platform b (.datagram input) = .ok b') {other : UInt16} (different : other ≠ h.mid) :
    b'.dups (ecDupKeyNew platform other home) = b.dups (ecDupKeyNew platform other home) := by
  have untouched : ¬ b.Touches platform (.datagram input) (ecDupKeyNew platform other home) := by
    rintro ⟨h', accepts', ⟨_, _, empty, _⟩ | ⟨_, peer, same, _⟩⟩
    · cases accepts'.header.symm.trans accepts.header
      rw [empty] at method
      exact absurd method.1 (by decide)
    · cases accepts'.header.symm.trans accepts.header
      exact different (ecDupKeyNew_home distinct same.symm).1.symm
  have inserted : (b.seen platform input h).dups (ecDupKeyNew platform other home) =
      b.dups (ecDupKeyNew platform other home) :=
    EcDups.put_other _ _ fun same => different (ecDupKeyNew_home distinct same.symm).1.symm
  have records := baseStep_records finished
  generalize b'.dups = dups at records ⊢
  cases records with
  | kept event dups same => exact same.frame _ untouched
  | received input h' dups accepts' same =>
      cases accepts'.header.symm.trans accepts.header
      exact (same.frame _ untouched).trans inserted

/-- A base answers the first request of a peer that it accepts, and invokes one callback for it. -/
theorem Unserved.answers
    (distinct : ∀ peer, platform.formatSockaddrPort peer = platform.formatSockaddrPort home → peer = home)
    (unserved : Unserved platform home b) (sender : input.peer = home) {h : EcHdr}
    (prompt : b.Prompt platform input h) (finished : baseStep platform b (.datagram input) = .ok b') :
    ∃ first, Answered platform home h.mid b.nextSrv first b' ∧
      first.Bears platform input.env.run (requestToken (ecServerBody input.raw input.beyond).decoded.opts) ∧
      serving platform home b b' (.datagram input) =
        [⟨(ecServerBody input.raw input.beyond).pdu input.raw h, input.env.run⟩] := by
  have accepts := prompt.accepts
  have orderly := baseStep_orderly unserved.apart.orderly finished
  have remembers := accepts.remembers unserved.apart.orderly prompt.method finished
  have others : ∀ other, other ≠ h.mid →
      b'.dups (ecDupKeyNew platform other home) = b.dups (ecDupKeyNew platform other home) :=
    fun other different => baseStep_otherRecords distinct accepts prompt.method finished different
  obtain ⟨w, first, prompted, processed⟩ := prompt.answers
  rw [baseStep_request platform b input h accepts prompt.method, processed] at finished
  cases finished
  have heap : ∀ id, (EcBase.store {b.seen platform input h with nextSrv := b.nextSrv + 1} w).heap id =
      if id = b.nextSrv then some w.srv else b.heap id := fun id => by
    rw [← prompted.self]
    rfl
  have stored :
      (EcBase.store {b.seen platform input h with nextSrv := b.nextSrv + 1} w).heap b.nextSrv = some w.srv := by
    rw [heap, if_pos rfl]
  refine ⟨first, ⟨⟨orderly, ?_, ?_⟩, ⟨w.srv, stored, prompted.sent⟩, prompted.addressee.trans sender, ?_, ?_, ?_⟩,
    prompted.bears, ?_⟩
  · rintro id same
    cases same
    exact ⟨w.srv, stored, prompted.freed⟩
  · intro id srv other held
    rw [heap, if_neg fun same => other (by rw [same])] at held
    exact unserved.apart.foreign id srv (by simp) held
  · obtain ⟨srv, recvd, held, present, cached⟩ := remembers.cached
    cases held.symm.trans stored
    rw [sender] at present
    exact ⟨recvd, present, (cached ⟨.response, first⟩ [] prompted.sent).2⟩
  · intro other recvd different present
    rw [others other different, unserved.unrecorded] at present
    cases present
  · intro d member addressed
    exact absurd addressed (unserved.silent d member)
  · have header := accepts.header
    have called : (EcBase.store {b.seen platform input h with nextSrv := b.nextSrv + 1} w).invoked ≠ b.invoked := by
      change w.invoked ≠ b.invoked
      rw [prompted.invoked]
      omega
    unfold serving
    rw [if_neg called]
    simp only [callback, header, Option.map_some, stored]
    rw [if_pos (prompted.peer.trans sender)]

/-- No live transaction is for the peer. -/
theorem Apart.unmatched {owner : Option SrvId} (apart : Apart home owner b) {id : SrvId} {sought : UInt16} {sd : Int}
    (found : ecServersLookup b sought sd home = some id) : False := by
  obtain ⟨srv, stored, live⟩ := apart.orderly.settled.listed id (ecServersLookup_mem found).1
  have other : some id ≠ owner := by
    intro same
    obtain ⟨held, present, freed⟩ := apart.done id same.symm
    cases stored.symm.trans present
    cases live.symm.trans freed
  exact (apart.foreign id srv other stored).talks live (matched_peer found stored)

/-- The record of a new message of a peer leaves the others as they are. -/
theorem seen_records
    (distinct : ∀ peer, platform.formatSockaddrPort peer = platform.formatSockaddrPort home → peer = home)
    (sender : input.peer = home) (h : EcHdr) (sought : UInt16) :
    (b.seen platform input h).dups (ecDupKeyNew platform sought home) = b.dups (ecDupKeyNew platform sought home) ∨
      sought = h.mid ∧
        (b.seen platform input h).dups (ecDupKeyNew platform sought home) = some ⟨home, h.mid, none, input.raw⟩ := by
  unfold EcBase.seen ecDupsInsert
  dsimp only
  rw [sender]
  by_cases own : sought = h.mid
  · subst own
    exact Or.inr ⟨rfl, EcDups.put_self _ _ _⟩
  · exact Or.inl (EcDups.put_other _ _ fun same => own (ecDupKeyNew_home distinct same).1)

/-- A new message of an answered peer that is no request gets a record and nothing else. -/
theorem Answered.disregards
    (distinct : ∀ peer, platform.formatSockaddrPort peer = platform.formatSockaddrPort home → peer = home)
    (answered : Answered platform home mid own first b) (sender : input.peer = home) {h : EcHdr}
    (accepts : b.Accepts platform input h) (other : ¬ ecIsMethod h.code.toNat)
    (finished : baseStep platform b (.datagram input) = .ok b') :
    Answered platform home mid own first b' ∧ serving platform home b b' (.datagram input) = [] := by
  have orderly := baseStep_orderly answered.apart.orderly finished
  obtain ⟨recvd, present, cached⟩ := answered.recorded
  rcases baseStep_control accepts other finished with ⟨observing, same⟩ | ⟨_, _, _, _, _, found, _⟩
  · subst same
    refine ⟨⟨⟨orderly, answered.apart.done, answered.apart.foreign⟩, answered.server, answered.addressed,
      ⟨recvd, ?_, cached⟩, ?_, answered.resent⟩, by simp [serving, EcBase.seen]⟩
    · rcases seen_records distinct sender h mid with same | ⟨same, _⟩
      · exact same.trans present
      · have fresh := accepts.fresh
        unfold ecDupsSearch at fresh
        rw [sender, ← same, present] at fresh
        cases fresh
    · intro sought recvd' different held
      rcases seen_records distinct sender h sought with same | ⟨_, whole⟩
      · exact answered.unanswered sought recvd' different (same.symm.trans held)
      · cases held.symm.trans whole
        rfl
  · rw [sender] at found
    exact (answered.apart.unmatched found).elim

/-- A message of an answered peer that is no new one is answered with the first answer, if at all. -/
theorem Answered.repeats (answered : Answered platform home mid own first b) (sender : input.peer = home)
    (refused : ∀ h, ¬ b.Accepts platform input h) (finished : baseStep platform b (.datagram input) = .ok b') :
    Answered platform home mid own first b' ∧ serving platform home b b' (.datagram input) = [] := by
  rcases baseStep_refused refused finished with same | ⟨h, recvd, cached, _, present, reply, same⟩
  · subst same
    exact ⟨answered, by simp [serving]⟩
  · rw [sender] at present
    have bytes : cached.hdr ++ cached.opts ++ cached.payload = first.bytes := by
      by_cases own : h.mid = mid
      · obtain ⟨held, recorded, same⟩ := answered.recorded
        rw [own] at present
        cases present.symm.trans recorded
        cases reply.symm.trans same
        rfl
      · rw [answered.unanswered h.mid recvd own present] at reply
        cases reply
    subst same
    have orderly := baseStep_orderly answered.apart.orderly finished
    refine ⟨⟨⟨orderly, answered.apart.done, answered.apart.foreign⟩, answered.server, answered.addressed,
      answered.recorded, answered.unanswered, ?_⟩, by simp [serving]⟩
    intro d member addressed
    rcases List.mem_append.mp member with before | new
    · exact answered.resent d before addressed
    · rw [List.mem_singleton.mp new]
      exact bytes

/-- Whatever a peer sends after its request, no callback is invoked for it and it gets no other answer. -/
theorem Answered.datagram
    (distinct : ∀ peer, platform.formatSockaddrPort peer = platform.formatSockaddrPort home → peer = home)
    (answered : Answered platform home mid own first b) (sender : input.peer = home)
    (requests : ∀ h, ecPduDecodeHeader platform.order input.raw = some h → ecIsMethod h.code.toNat → h.mid = mid)
    (finished : baseStep platform b (.datagram input) = .ok b') :
    Answered platform home mid own first b' ∧ serving platform home b b' (.datagram input) = [] := by
  by_cases accepted : ∃ h, b.Accepts platform input h
  · obtain ⟨h, accepts⟩ := accepted
    refine answered.disregards distinct sender accepts (fun method => ?_) finished
    have own := requests h accepts.header method
    obtain ⟨recvd, present, _⟩ := answered.recorded
    have fresh := accepts.fresh
    unfold ecDupsSearch at fresh
    rw [sender, own, present] at fresh
    cases fresh
  · exact answered.repeats sender (fun h accepts => accepted ⟨h, accepts⟩) finished

end Messages

end Webthings.Network
