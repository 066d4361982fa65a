import Webthings.Evcoap.Net

namespace Webthings.Evcoap

/-- The keys of the duplicate map are C strings. -/
abbrev DupKey := List Char

/-- Key format is MID, plus sign, address and port. -/
def ecDupKeyNew (platform : Platform) (mid : UInt16) (peer : SockAddr) : DupKey :=
  Nat.toDigits 10 mid.toNat ++ '+' :: platform.formatSockaddrPort peer

/-- The pieces of the reply that a received message has elicited. -/
structure EcCachedPdu where
  hdr : List UInt8
  opts : List UInt8
  payload : List UInt8
  deriving DecidableEq, Repr

/-- The record of a received message; `raw` is the message itself, which the code does not keep. -/
structure EcRecvdPdu where
  who : SockAddr
  mid : UInt16
  cachedPdu : Option EcCachedPdu
  raw : List UInt8
  deriving DecidableEq, Repr

/-- The duplicate map as a finite map from strings. -/
abbrev EcDups := DupKey → Option EcRecvdPdu

def EcDups.empty : EcDups := fun _ => none

def EcDups.put (dups : EcDups) (key : DupKey) (recvd : EcRecvdPdu) : EcDups :=
  fun other => if other = key then some recvd else dups other

def EcDups.del (dups : EcDups) (key : DupKey) : EcDups := fun other => if other = key then none else dups other

@[simp] theorem EcDups.put_self (dups : EcDups) (key : DupKey) (recvd : EcRecvdPdu) :
    dups.put key recvd key = some recvd := if_pos rfl

theorem EcDups.put_other (dups : EcDups) {key other : DupKey} (recvd : EcRecvdPdu) (different : other ≠ key) :
    dups.put key recvd other = dups other := if_neg different

@[simp] theorem EcDups.del_self (dups : EcDups) (key : DupKey) : dups.del key key = none := if_pos rfl

theorem EcDups.del_other (dups : EcDups) {key other : DupKey} (different : other ≠ key) :
    dups.del key other = dups other := if_neg different

def ecDupsSearch (platform : Platform) (dups : EcDups) (mid : UInt16) (peer : SockAddr) : Option EcRecvdPdu :=
  dups (ecDupKeyNew platform mid peer)

/-- The record of a new message has no reply yet. -/
def ecDupsInsert (platform : Platform) (dups : EcDups) (ss : SockAddr) (mid : UInt16) (raw : List UInt8) : EcDups :=
  dups.put (ecDupKeyNew platform mid ss) ⟨ss, mid, none, raw⟩

/-- The self-destruction timer of a record has elapsed. -/
def ecDupZap (dups : EcDups) (key : DupKey) : EcDups := dups.del key

/-- The pieces are copied in; memory duplication is assumed to succeed. -/
def ecRecvdPduUpdate (recvd : EcRecvdPdu) (hdr opts payload : List UInt8) : EcRecvdPdu :=
  {recvd with cachedPdu := some ⟨hdr, opts, payload⟩}

/-- What the duplicate machinery makes of a message: the map, the C result and the reply it repeats. -/
structure DupCheck where
  dups : EcDups
  rc : Int
  resent : Option Datagram

/-- The common body of both message handlers; a failed resend is an error or only logged. -/
def ecDupsHandleIncoming (platform : Platform) (resendFails : Int) (dups : EcDups) (mid : UInt16) (sd : Int)
    (ss : SockAddr) (raw : List UInt8) (sent : Bool) : DupCheck :=
  match ecDupsSearch platform dups mid ss with
  | none => ⟨ecDupsInsert platform dups ss mid raw, 0, none⟩
  | some recvd =>
      match recvd.cachedPdu with
      | none => ⟨dups, 1, none⟩
      | some cached =>
          match ecNetSend sent cached.hdr cached.opts cached.payload sd ss with
          | none => ⟨dups, resendFails, none⟩
          | some datagram => ⟨dups, 1, some datagram⟩

/-- The server side reports a failed resend. -/
def ecDupsHandleIncomingClimsg (platform : Platform) (dups : EcDups) (mid : UInt16) (sd : Int) (ss : SockAddr)
    (raw : List UInt8) (sent : Bool) : DupCheck := ecDupsHandleIncoming platform (-1) dups mid sd ss raw sent

/-- The client side ignores a failed resend. -/
def ecDupsHandleIncomingSrvmsg (platform : Platform) (dups : EcDups) (mid : UInt16) (sd : Int) (ss : SockAddr)
    (raw : List UInt8) (sent : Bool) : DupCheck := ecDupsHandleIncoming platform 1 dups mid sd ss raw sent

/-- A message without a live record is new, and gets one. -/
theorem ecDupsHandleIncoming_new (platform : Platform) (resendFails : Int) (dups : EcDups) (mid : UInt16) (sd : Int)
    (ss : SockAddr) (raw : List UInt8) (sent : Bool) (absent : dups (ecDupKeyNew platform mid ss) = none) :
    ecDupsHandleIncoming platform resendFails dups mid sd ss raw sent =
      ⟨ecDupsInsert platform dups ss mid raw, 0, none⟩ := by
  unfold ecDupsHandleIncoming ecDupsSearch
  rw [absent]

/-- A message with a live record is not new, and leaves the map as it is. -/
theorem ecDupsHandleIncoming_duplicate (platform : Platform) (resendFails : Int) (failure : resendFails ≠ 0)
    (dups : EcDups) (mid : UInt16) (sd : Int) (ss : SockAddr) (raw : List UInt8) (sent : Bool) (recvd : EcRecvdPdu)
    (present : dups (ecDupKeyNew platform mid ss) = some recvd) :
    (ecDupsHandleIncoming platform resendFails dups mid sd ss raw sent).rc ≠ 0 ∧
      (ecDupsHandleIncoming platform resendFails dups mid sd ss raw sent).dups = dups := by
  unfold ecDupsHandleIncoming ecDupsSearch
  rw [present]
  dsimp only
  split
  · exact ⟨by dsimp only; omega, rfl⟩
  · split
    · exact ⟨failure, rfl⟩
    · exact ⟨by dsimp only; omega, rfl⟩

/-- A list splits at the first separator in one way. -/
theorem append_separator_injective {α : Type} (separator : α) {first first' second second' : List α}
    (absent : separator ∉ first) (absent' : separator ∉ first')
    (same : first ++ separator :: second = first' ++ separator :: second') : first = first' ∧ second = second' := by
  induction first generalizing first' with
  | nil =>
      cases first' with
      | nil => exact ⟨rfl, (List.cons.inj same).2⟩
      | cons x rest => exact absurd ((List.cons.inj same).1 ▸ List.mem_cons_self) absent'
  | cons x rest ih =>
      cases first' with
      | nil => exact absurd ((List.cons.inj same).1 ▸ List.mem_cons_self) absent
      | cons y rest' =>
          obtain ⟨head, tail⟩ := List.cons.inj same
          obtain ⟨restSame, secondSame⟩ := ih (fun member => absent (List.mem_cons_of_mem x member))
            (fun member => absent' (List.mem_cons_of_mem y member)) tail
          exact ⟨by rw [head, restSame], secondSame⟩

/-- A decimal number reads back. -/
theorem decimal_injective {m n : Nat} (same : Nat.toDigits 10 m = Nat.toDigits 10 n) : m = n := by
  have value := congrArg (fun list => Nat.ofDigitChars 10 list 0) same
  have read : ∀ k : Nat, Nat.ofDigitChars 10 (Nat.toDigits 10 k) 0 = k := fun k =>
    Nat.ofDigitChars_toDigits (by decide) (by decide)
  simp only [read] at value
  exact value

theorem decimal_digits (n : Nat) : ∀ c ∈ Nat.toDigits 10 n, c.isDigit = true := fun _ member =>
  Nat.isDigit_of_mem_toDigits (by decide) (by decide) member

/-- Decimal digits never hold the separator, so equal keys have equal digits and equal addresses. -/
theorem ecDupKeyNew_injective (platform : Platform) {mid mid' : UInt16} {peer peer' : SockAddr}
    (injective : Function.Injective platform.formatSockaddrPort)
    (same : ecDupKeyNew platform mid peer = ecDupKeyNew platform mid' peer') : mid = mid' ∧ peer = peer' := by
  have digits : ∀ n : Nat, '+' ∉ Nat.toDigits 10 n := fun n member =>
    absurd (decimal_digits n '+' member) (by decide)
  have parts : Nat.toDigits 10 mid.toNat = Nat.toDigits 10 mid'.toNat ∧
      platform.formatSockaddrPort peer = platform.formatSockaddrPort peer' := by
    have split := same
    unfold ecDupKeyNew at split
    exact append_separator_injective '+' (digits _) (digits _) split
  exact ⟨UInt16.toNat_inj.mp (decimal_injective parts.1), injective parts.2⟩

end Webthings.Evcoap
