import Webthings.Evcoap.Duplicates

namespace Webthings.Evcoap
open Webthings.Transition

/-- The sender has drawn the MID itself; an ACK or a reset has the MID of the message that it answers. -/
def EcMsgModel.Own (t : EcMsgModel) : Prop := t = .con ∨ t = .non

/-- The sender has drawn the MID of these bytes itself. -/
def OwnMid (order : ByteOrder) (raw : List UInt8) : Prop :=
  ∃ h, ecPduDecodeHeader order raw = some h ∧ h.t.Own

/-- The message that an event brings, with its sender. -/
def BaseEvent.arrival (event : BaseEvent) : Option (List UInt8 × SockAddr) :=
  match event with
  | .datagram input => some (input.raw, input.peer)
  | .client _ (.datagram input) => some (input.raw, input.peer)
  | _ => none

/-- The message of an event that is looked up among the records, by the server or by a client that listens. -/
def EcBase.checked (platform : Platform) (b : EcBase) (event : BaseEvent) :
    Option (EcHdr × List UInt8 × SockAddr) :=
  match event with
  | .datagram input =>
      if input.raw = [] ∨ input.sd = -1 then none
      else (ecPduDecodeHeader platform.order input.raw).map fun h => (h, input.raw, input.peer)
  | .client cid (.datagram input) =>
      match b.clients[cid]? with
      | none => none
      | some cli =>
          if cli.freed = false ∧ cli.registered = true then
            (ecClientHeader platform.order input.raw).map fun h => (h, input.raw, input.peer)
          else none
  | _ => none

/-- The handlers leave the message of an event aside as a duplicate: it is looked up, and the base stays as it is but for
the log of repeated replies. -/
structure EcBase.Suppressed (platform : Platform) (b : EcBase) (event : BaseEvent) (h : EcHdr) (raw : List UInt8)
    (peer : SockAddr) : Prop where
  checked : b.checked platform event = some (h, raw, peer)
  quiet : ∃ resent, baseStep platform b event = .ok {b with resent := resent}

/-- The message of an event meets a record. -/
structure EcBase.Duplicates (platform : Platform) (b : EcBase) (event : BaseEvent) (h : EcHdr) (raw : List UInt8)
    (peer : SockAddr) (recvd : EcRecvdPdu) : Prop where
  checked : b.checked platform event = some (h, raw, peer)
  found : ecDupsSearch platform b.dups h.mid peer = some recvd

/-- Within the lifetime of its record, no peer draws a MID again for another message. -/
def KeepsMids (platform : Platform) (b : EcBase) (event : BaseEvent) : Prop :=
  ∀ h raw peer recvd, b.Duplicates platform event h raw peer recvd → h.t.Own → OwnMid platform.order recvd.raw →
    recvd.raw = raw

/-- The record that a message meets is from the same number space: a MID that the peer has drawn does not meet one that
it answers. And the peer answers one MID with one message. -/
def SpacesApart (platform : Platform) (b : EcBase) (event : BaseEvent) : Prop :=
  ∀ h raw peer recvd, b.Duplicates platform event h raw peer recvd →
    (h.t.Own ↔ OwnMid platform.order recvd.raw) ∧ (¬ h.t.Own → recvd.raw = raw)

/-- Each message that the run suppresses has a record of the very same message, which an earlier event has brought. -/
def TrulySuppresses (platform : Platform) (start : EcBase) (events : List BaseEvent) : Prop :=
  ∀ before event after b h raw peer, events = before ++ event :: after →
    (baseMachine platform).run start before = .ok b → b.Suppressed platform event h raw peer →
    ∃ recvd, ecDupsSearch platform b.dups h.mid peer = some recvd ∧ recvd.raw = raw ∧
      ∃ earlier ∈ before, earlier.arrival = some (raw, peer)

/-- Every record is filed under its MID and its sender, and stands for a message that an event has brought. -/
def EcDups.Witnessed (platform : Platform) (past : List BaseEvent) (dups : EcDups) : Prop :=
  ∀ key recvd, dups key = some recvd → key = ecDupKeyNew platform recvd.mid recvd.who ∧
    ∃ earlier ∈ past, earlier.arrival = some (recvd.raw, recvd.who)

section History

variable {platform : Platform} {past : List BaseEvent} {dups dups' : EcDups}

theorem EcDups.Witnessed.recached (witnessed : dups.Witnessed platform past) {touched : DupKey → Prop}
    (recached : dups.Recached touched dups') : dups'.Witnessed platform past := by
  intro key recvd present
  have same : (dups' key).map EcRecvdPdu.origin = (dups key).map EcRecvdPdu.origin := congrFun recached.origins key
  rw [present] at same
  obtain ⟨old, held, origin⟩ := Option.map_eq_some_iff.mp same.symm
  obtain ⟨who, mid, raw⟩ : old.who = recvd.who ∧ old.mid = recvd.mid ∧ old.raw = recvd.raw := by
    simpa [EcRecvdPdu.origin] using origin
  have filed := witnessed key old held
  rw [who, mid, raw] at filed
  exact filed

theorem EcDups.Witnessed.later (witnessed : dups.Witnessed platform past) (event : BaseEvent) :
    dups.Witnessed platform (past ++ [event]) := by
  intro key recvd present
  obtain ⟨filed, earlier, member, brought⟩ := witnessed key recvd present
  exact ⟨filed, earlier, List.mem_append_left [event] member, brought⟩

/-- A new record is filed like the others. -/
theorem EcDups.Witnessed.insert (witnessed : dups.Witnessed platform past) {event : BaseEvent} {raw : List UInt8}
    {peer : SockAddr} (mid : UInt16) (arrival : event.arrival = some (raw, peer)) :
    (ecDupsInsert platform dups peer mid raw).Witnessed platform (past ++ [event]) := by
  intro key recvd present
  unfold ecDupsInsert at present
  by_cases here : key = ecDupKeyNew platform mid peer
  · subst here
    rw [EcDups.put_self] at present
    cases present
    exact ⟨rfl, event, List.mem_append_right past List.mem_cons_self, arrival⟩
  · rw [EcDups.put_other dups _ here] at present
    exact witnessed.later event key recvd present

theorem baseStep_witnessed {b b' : EcBase} {event : BaseEvent} (witnessed : b.dups.Witnessed platform past)
    (finished : baseStep platform b event = .ok b') : b'.dups.Witnessed platform (past ++ [event]) := by
  have records := baseStep_records finished
  generalize b'.dups = after at records ⊢
  cases records with
  | kept event dups same => exact (witnessed.recached same).later event
  | received input h dups accepts same => exact (witnessed.insert h.mid rfl).recached same
  | heard cid cli input h dups stored hears same => exact (witnessed.insert h.mid rfl).recached same
  | zapped zap =>
      intro key recvd present
      by_cases here : key = zap
      · subst here
        rw [ecDupZap, EcDups.del_self] at present
        cases present
      · rw [ecDupZap, EcDups.del_other b.dups here] at present
        exact witnessed.later _ key recvd present

/-- The records of a run from an empty map stand for messages of the run. -/
theorem baseRun_witnessed {b : EcBase} {events : List BaseEvent}
    (finished : (baseMachine platform).run ecInit events = .ok b) : b.dups.Witnessed platform events := by
  have initial : ecInit.dups.Witnessed platform [] := fun key recvd present => by cases present
  have reached := (baseMachine platform).run_history (fun past state => state.dups.Witnessed platform past)
    (fun past state event next witnessed stepped => baseStep_witnessed witnessed stepped) initial finished
  exact reached

end History

/-- The clients and the server read the same header. -/
theorem ecClientHeader_decoded {order : ByteOrder} {raw : List UInt8} {h : EcHdr}
    (header : ecClientHeader order raw = some h) : ecPduDecodeHeader order raw = some h := by
  unfold ecClientHeader at header
  split at header
  · cases header
  · rename_i other decoded
    split at header
    · cases header
    · cases header
      exact decoded

/-- The message that is looked up is the one that the event brings. -/
theorem checked_arrival {platform : Platform} {b : EcBase} {event : BaseEvent} {h : EcHdr} {raw : List UInt8}
    {peer : SockAddr} (lookedUp : b.checked platform event = some (h, raw, peer)) :
    event.arrival = some (raw, peer) ∧ ecPduDecodeHeader platform.order raw = some h := by
  cases event with
  | datagram input =>
      dsimp only [EcBase.checked] at lookedUp
      split at lookedUp
      · cases lookedUp
      · obtain ⟨other, header, same⟩ := Option.map_eq_some_iff.mp lookedUp
        cases same
        exact ⟨rfl, header⟩
  | client cid event =>
      cases event with
      | datagram input =>
          dsimp only [EcBase.checked] at lookedUp
          split at lookedUp
          · cases lookedUp
          · split at lookedUp
            · obtain ⟨other, header, same⟩ := Option.map_eq_some_iff.mp lookedUp
              cases same
              exact ⟨rfl, ecClientHeader_decoded header⟩
            · cases lookedUp
      | _ => cases lookedUp
  | _ => cases lookedUp

/-- A message that meets a record changes nothing but the log of repeated replies. -/
theorem EcBase.Duplicates.quiet {platform : Platform} {b : EcBase} {event : BaseEvent} {h : EcHdr} {raw : List UInt8}
    {peer : SockAddr} {recvd : EcRecvdPdu} (duplicates : b.Duplicates platform event h raw peer recvd) :
    ∃ resent, baseStep platform b event = .ok {b with resent := resent} := by
  obtain ⟨arrival, header⟩ := checked_arrival duplicates.checked
  have suppresses := EcBase.Suppresses.of_record duplicates.found
  cases event with
  | datagram input =>
      cases arrival
      exact suppresses.server input h rfl header rfl
  | client cid event =>
      cases event with
      | datagram input =>
          cases arrival
          exact ⟨b.resent, suppresses.client cid input h rfl header rfl⟩
      | _ => cases arrival
  | _ => cases arrival

/-- The handlers leave a message aside exactly when it meets a record. -/
theorem suppressed_iff {platform : Platform} {b : EcBase} {event : BaseEvent} {h : EcHdr} {raw : List UInt8}
    {peer : SockAddr} : b.Suppressed platform event h raw peer ↔ ∃ recvd, b.Duplicates platform event h raw peer recvd := by
  constructor
  · rintro ⟨checked, resent, finished⟩
    cases found : ecDupsSearch platform b.dups h.mid peer with
    | some recvd => exact ⟨recvd, checked, found⟩
    | none =>
        -- A new message would have got a record.
        cases event with
        | datagram input =>
            dsimp only [EcBase.checked] at checked
            split at checked
            · cases checked
            · rename_i readable
              obtain ⟨nonempty, socket⟩ := not_or.mp readable
              obtain ⟨other, header, same⟩ := Option.map_eq_some_iff.mp checked
              cases same
              have accepts : b.Accepts platform input h := ⟨nonempty, socket, header, found⟩
              obtain ⟨recvd, present, _⟩ := accepts.recorded finished
              cases found.symm.trans present
        | client cid event =>
            cases event with
            | datagram input =>
                dsimp only [EcBase.checked] at checked
                cases stored : b.clients[cid]? with
                | none =>
                    rw [stored] at checked
                    cases checked
                | some cli =>
                    rw [stored] at checked
                    dsimp only at checked
                    split at checked
                    · rename_i listens
                      obtain ⟨other, header, same⟩ := Option.map_eq_some_iff.mp checked
                      cases same
                      have hears : CliWork.Hears platform ⟨cli, b.dups⟩ input h :=
                        ⟨listens.1, listens.2, header, found⟩
                      dsimp only [baseStep] at finished
                      unfold EcBase.clientStep at finished
                      rw [stored] at finished
                      dsimp only at finished
                      obtain ⟨next, stepped, same⟩ := map_ok finished
                      obtain ⟨recvd, present, _⟩ := hears.recorded stepped
                      have kept : next.dups = b.dups := congrArg EcBase.dups same
                      rw [kept] at present
                      cases found.symm.trans present
                    · cases checked
            | _ => cases checked
        | _ => cases checked
  · rintro ⟨recvd, duplicates⟩
    exact ⟨duplicates.checked, duplicates.quiet⟩

/-- In a run whose peers keep their MIDs, the suppressed messages are the ones received before exactly when no MID of a
peer meets one that it answers, and no answer to a MID meets another one. -/
theorem trulySuppresses_iff (platform : Platform) (injective : Function.Injective platform.formatSockaddrPort)
    (events : List BaseEvent) (kept : (baseMachine platform).Meets (KeepsMids platform) ecInit events) :
    TrulySuppresses platform ecInit events ↔ (baseMachine platform).Meets (SpacesApart platform) ecInit events := by
  constructor
  · intro truly
    apply (baseMachine platform).meets_of_splits
    intro before event after b split reached h raw peer recvd duplicates
    obtain ⟨other, found, same, _⟩ := truly before event after b h raw peer split reached
      (suppressed_iff.mpr ⟨recvd, duplicates⟩)
    cases duplicates.found.symm.trans found
    have header := (checked_arrival duplicates.checked).2
    refine ⟨⟨fun own => ⟨h, same ▸ header, own⟩, fun ⟨h', header', own⟩ => ?_⟩, fun _ => same⟩
    rw [same, header] at header'
    cases header'
    exact own
  · intro apart before event after b h raw peer split reached suppressed
    obtain ⟨recvd, duplicates⟩ := suppressed_iff.mp suppressed
    subst split
    obtain ⟨spaces, answer⟩ := apart.at_split reached h raw peer recvd duplicates
    have same : recvd.raw = raw := by
      by_cases own : h.t.Own
      · exact kept.at_split reached h raw peer recvd duplicates own (spaces.mp own)
      · exact answer own
    obtain ⟨filed, earlier, member, brought⟩ := baseRun_witnessed reached _ recvd duplicates.found
    obtain ⟨_, sender⟩ := ecDupKeyNew_injective platform injective filed
    exact ⟨recvd, duplicates.found, same, earlier, member, by rw [brought, same, sender]⟩

/-- The longest beginning of one kind is told from what follows. -/
theorem leading_append_injective (kind : Char → Bool) {first first' second second' : List Char}
    (leading : ∀ c ∈ first, kind c = true) (leading' : ∀ c ∈ first', kind c = true)
    (ends : second.takeWhile kind = []) (ends' : second'.takeWhile kind = [])
    (same : first ++ second = first' ++ second') : first = first' ∧ second = second' := by
  have begins := congrArg (List.takeWhile kind) same
  rw [List.takeWhile_append_of_pos leading, List.takeWhile_append_of_pos leading', ends, ends', List.append_nil,
    List.append_nil] at begins
  subst begins
  exact ⟨rfl, List.append_cancel_left same⟩

/-- What is printed of an IPv4 address after its first byte. -/
def dottedRest (bytes : List UInt8) : List Char := bytes.flatMap fun byte => '.' :: Nat.toDigits 10 byte.toNat

/-- What is printed of an IPv4 address. -/
def dotted (bytes : List UInt8) : List Char :=
  match bytes with
  | [] => []
  | byte :: bytes => Nat.toDigits 10 byte.toNat ++ dottedRest bytes

/-- What is printed of an IPv4 address and a port. -/
def addressBody (ss : SockAddr) : List Char := dotted ss.addr ++ ':' :: Nat.toDigits 10 ss.port.toNat

/-- Addresses of the other families stand apart by their first character. -/
def familyMark (family : SaFamily) : List Char :=
  match family with
  | .inet => []
  | .inet6 => ['[']
  | .unspec => ['?']

/-- The printed form of an address and a port. -/
def formatAddress (ss : SockAddr) : List Char := familyMark ss.family ++ addressBody ss

theorem dottedRest_ends (bytes : List UInt8) : (dottedRest bytes).takeWhile Char.isDigit = [] := by
  cases bytes <;> rfl

theorem dottedRest_injective : Function.Injective dottedRest := by
  intro bytes bytes' same
  induction bytes generalizing bytes' with
  | nil =>
      cases bytes' with
      | nil => rfl
      | cons byte' bytes' => cases same
  | cons byte bytes ih =>
      cases bytes' with
      | nil => cases same
      | cons byte' bytes' =>
          obtain ⟨head, tail⟩ := leading_append_injective Char.isDigit (decimal_digits byte.toNat)
            (decimal_digits byte'.toNat) (dottedRest_ends bytes) (dottedRest_ends bytes') (List.cons.inj same).2
          rw [UInt8.toNat_inj.mp (decimal_injective head), ih tail]

theorem dotted_injective : Function.Injective dotted := by
  have nonempty : ∀ (byte : UInt8) (bytes : List UInt8), dotted (byte :: bytes) ≠ [] := fun byte bytes empty =>
    absurd (List.append_eq_nil_iff.mp empty).1 Nat.toDigits_ne_nil
  intro bytes bytes' same
  cases bytes with
  | nil =>
      cases bytes' with
      | nil => rfl
      | cons byte' bytes' => exact absurd same.symm (nonempty byte' bytes')
  | cons byte bytes =>
      cases bytes' with
      | nil => exact absurd same (nonempty byte bytes)
      | cons byte' bytes' =>
          obtain ⟨head, tail⟩ := leading_append_injective Char.isDigit (decimal_digits byte.toNat)
            (decimal_digits byte'.toNat) (dottedRest_ends bytes) (dottedRest_ends bytes') same
          rw [UInt8.toNat_inj.mp (decimal_injective head), dottedRest_injective tail]

theorem dotted_characters (bytes : List UInt8) : ∀ c ∈ dotted bytes, c.isDigit = true ∨ c = '.' := by
  intro c member
  cases bytes with
  | nil => cases member
  | cons byte bytes =>
      rcases List.mem_append.mp member with first | rest
      · exact Or.inl (decimal_digits _ c first)
      · obtain ⟨other, _, inside⟩ := List.mem_flatMap.mp rest
        rcases List.mem_cons.mp inside with dot | digit
        · exact Or.inr dot
        · exact Or.inl (decimal_digits _ c digit)

theorem addressBody_injective {ss ss' : SockAddr} (same : addressBody ss = addressBody ss') :
    ss.addr = ss'.addr ∧ ss.port = ss'.port := by
  have colon : ∀ bytes : List UInt8, ':' ∉ dotted bytes := by
    intro bytes member
    rcases dotted_characters bytes ':' member with digit | dot
    · exact absurd digit (by decide)
    · exact absurd dot (by decide)
  obtain ⟨addr, port⟩ := append_separator_injective ':' (colon _) (colon _) same
  exact ⟨dotted_injective addr, UInt16.toNat_inj.mp (decimal_injective port)⟩

theorem formatAddress_injective : Function.Injective formatAddress := by
  let mark : Char → Bool := fun c => c == '[' || c == '?'
  have marks : ∀ (family : SaFamily), ∀ c ∈ familyMark family, mark c = true := by
    intro family c member
    have printed : c = '[' ∨ c = '?' := by
      cases family with
      | inet => cases member
      | inet6 => exact Or.inl (List.mem_singleton.mp member)
      | unspec => exact Or.inr (List.mem_singleton.mp member)
    simpa [mark] using printed
  have body : ∀ ss : SockAddr, (addressBody ss).takeWhile mark = [] := by
    intro ss
    have plain : ∀ c ∈ addressBody ss, mark c = false := by
      intro c member
      have kinds : c.isDigit = true ∨ c = '.' ∨ c = ':' := by
        rcases List.mem_append.mp member with early | late
        · exact (dotted_characters ss.addr c early).imp id Or.inl
        · rcases List.mem_cons.mp late with colon | digit
          · exact Or.inr (Or.inr colon)
          · exact Or.inl (decimal_digits _ c digit)
      apply Bool.eq_false_iff.mpr
      intro marked
      have found : c = '[' ∨ c = '?' := by simpa [mark] using marked
      rcases found with here | here <;> rw [here] at kinds <;> exact absurd kinds (by decide)
    cases printed : addressBody ss with
    | nil => rfl
    | cons c rest =>
        rw [List.takeWhile_cons, plain c (printed ▸ List.mem_cons_self)]
        rfl
  intro ss ss' same
  obtain ⟨family, rest⟩ := leading_append_injective mark (marks ss.family) (marks ss'.family) (body ss) (body ss') same
  obtain ⟨addr, port⟩ := addressBody_injective rest
  have families : ss.family = ss'.family := by
    cases first : ss.family <;> cases second : ss'.family <;> rw [first, second] at family <;>
      first | rfl | cases family
  obtain ⟨_, _, _⟩ := ss
  obtain ⟨_, _, _⟩ := ss'
  dsimp only at families addr port
  rw [families, addr, port]

/-- A host that prints whole addresses. -/
def numericPlatform : Platform := {serverPlatform with formatSockaddrPort := formatAddress}

/-- A GET on MID 7 is answered in a message of its own, for which this endpoint draws MID 7 as well. -/
def sharedMid : List BaseEvent :=
  [.callbacks [] true, .datagram waitingGet,
    .rescheduled 0 ⟨⟨[.setCode ecContent], .ready, ⟨0, 0⟩⟩, true, true, ⟨0x0700, 0, true⟩, ⟨0, 0, true⟩⟩]

/-- The ACK of that answer. -/
def answerAck : ServerInput := loopbackInput [0x60, 0, 0, 7] waits 0

theorem sharedMid_duplicates : ∃ b recvd, (baseMachine numericPlatform).run ecInit sharedMid = .ok b ∧
    b.Duplicates numericPlatform (.datagram answerAck) ⟨.ack, 0, 0, 0x0700⟩ answerAck.raw answerAck.peer recvd := by
  have run : ∃ b recvd, (baseMachine numericPlatform).run ecInit sharedMid = .ok b ∧
      b.dups (ecDupKeyNew numericPlatform 0x0700 loopbackPeer) = some recvd := ⟨_, _, rfl, rfl⟩
  obtain ⟨b, recvd, finished, found⟩ := run
  exact ⟨b, recvd, finished, rfl, found⟩

/-- No peer draws a MID twice in this run. -/
theorem sharedMid_keepsMids : (baseMachine numericPlatform).Meets (KeepsMids numericPlatform) ecInit
    (sharedMid ++ [.datagram answerAck]) := by
  have silent : ∀ b event, b.checked numericPlatform event = none → KeepsMids numericPlatform b event := by
    intro b event unchecked h raw peer recvd duplicates
    cases unchecked.symm.trans duplicates.checked
  refine ⟨silent _ _ rfl, fun registered stepped => ⟨?_, fun served _ => ⟨silent _ _ rfl, fun answered _ => ⟨?_,
    fun _ _ => trivial⟩⟩⟩⟩
  · cases stepped
    intro h raw peer recvd duplicates
    cases duplicates.found
  · intro h raw peer recvd duplicates own
    have header : (⟨.ack, 0, 0, 0x0700⟩, answerAck.raw, answerAck.peer) = (h, raw, peer) :=
      Option.some.inj duplicates.checked
    cases header
    rcases own with con | non
    · cases con
    · cases non

theorem answerAck_unseen : ∀ earlier ∈ sharedMid, earlier.arrival ≠ some (answerAck.raw, answerAck.peer) := by
  intro earlier listed same
  rcases List.mem_cons.mp listed with first | listed
  · rw [first] at same
    cases same
  · rcases List.mem_cons.mp listed with second | listed
    · rw [second] at same
      cases same
    · rw [List.mem_singleton.mp listed] at same
      cases same

/-- The ACK is suppressed though nobody has ever sent it before. -/
theorem answerAck_suppressed : ¬ ∀ platform events, Function.Injective platform.formatSockaddrPort →
    (baseMachine platform).Meets (KeepsMids platform) ecInit events →
    ∀ before event after b h raw peer, events = before ++ event :: after →
      (baseMachine platform).run ecInit before = .ok b → b.Suppressed platform event h raw peer →
      ∃ earlier ∈ before, earlier.arrival = some (raw, peer) := by
  intro claimed
  obtain ⟨b, recvd, finished, duplicates⟩ := sharedMid_duplicates
  obtain ⟨earlier, member, brought⟩ := claimed numericPlatform (sharedMid ++ [.datagram answerAck])
    formatAddress_injective sharedMid_keepsMids sharedMid _ [] b _ _ _ rfl finished (suppressed_iff.mpr ⟨recvd, duplicates⟩)
  exact answerAck_unseen earlier member brought

/-- The run mixes the number spaces. -/
theorem sharedMid_mixes : ¬ (baseMachine numericPlatform).Meets (SpacesApart numericPlatform) ecInit
    (sharedMid ++ [.datagram answerAck]) := by
  intro apart
  have truly := (trulySuppresses_iff numericPlatform formatAddress_injective (sharedMid ++ [.datagram answerAck])
    sharedMid_keepsMids).mpr apart
  obtain ⟨b, recvd, finished, duplicates⟩ := sharedMid_duplicates
  obtain ⟨_, _, _, earlier, member, brought⟩ := truly sharedMid _ [] b _ _ _ rfl finished
    (suppressed_iff.mpr ⟨recvd, duplicates⟩)
  exact answerAck_unseen earlier member brought

end Webthings.Evcoap
