namespace Webthings.Evcoap

/-- The byte order the configure step finds, which `EC_LITTLE_ENDIAN` and `htons` depend on. -/
inductive ByteOrder where
  | little
  | big
  deriving DecidableEq, Repr

@[simp] def ecCoapVersion1 : Nat := 1
@[simp] def ecCoapOptLenMax : Nat := 270
@[simp] def ecCoapMaxOptions : Nat := 15
@[simp] def ecCoapHdrSize : Nat := 4
@[simp] def ecCoapDefaultMaxAge : Nat := 60
@[simp] def ecCoapRespTimeout : Nat := 2
@[simp] def ecCoapMaxRetransmit : Nat := 4
@[simp] def ecTimersAppTout : Nat := 60

/-- The size of the `enc` array of an option set. -/
@[simp] def ecOptsMaxLen : Nat := ecCoapMaxOptions * ecCoapOptLenMax

@[simp] def ecProtoMaxOptions : Nat := 15

/-- The size of the token array of a flow. -/
@[simp] def ecFlowTokenMax : Nat := 8

/-- The four message types, in the order of their two-bit codes. -/
inductive EcMsgModel where
  | con
  | non
  | ack
  | rst
  deriving DecidableEq, Repr

def EcMsgModel.value : EcMsgModel → Nat
  | .con => 0
  | .non => 1
  | .ack => 2
  | .rst => 3

/-- The type that the two header bits stand for. -/
def EcMsgModel.ofValue (bits : Nat) : EcMsgModel :=
  match bits % 4 with
  | 0 => .con
  | 1 => .non
  | 2 => .ack
  | _ => .rst

@[simp] theorem EcMsgModel.ofValue_value (t : EcMsgModel) : EcMsgModel.ofValue t.value = t := by
  cases t <;> rfl

inductive EcMethod where
  | unset
  | get
  | post
  | put
  | delete
  deriving DecidableEq, Repr

/-- The cast of a header code to a method keeps only the codes that `EC_IS_METHOD` accepts. -/
def EcMethod.ofCode (code : Nat) : Option EcMethod :=
  match code with
  | 1 => some .get
  | 2 => some .post
  | 3 => some .put
  | 4 => some .delete
  | _ => none

def EcMethod.code : EcMethod → Nat
  | .unset => 0
  | .get => 1
  | .post => 2
  | .put => 3
  | .delete => 4

/-- `EC_IS_METHOD` on a header code. -/
def ecIsMethod (code : Nat) : Prop := 0 < code ∧ code < 5

instance (code : Nat) : Decidable (ecIsMethod code) := inferInstanceAs (Decidable (_ ∧ _))

theorem ecIsMethod_iff (code : Nat) : ecIsMethod code ↔ ∃ m, EcMethod.ofCode code = some m := by
  constructor
  · rintro ⟨lower, upper⟩
    have cases : code = 1 ∨ code = 2 ∨ code = 3 ∨ code = 4 := by omega
    rcases cases with rfl | rfl | rfl | rfl <;> exact ⟨_, rfl⟩
  · rintro ⟨m, found⟩
    unfold EcMethod.ofCode at found
    split at found <;> simp_all [ecIsMethod]

/-- Response codes are the integers the code compares them as. -/
abbrev EcRc := Int

@[simp] def ecRcUnset : EcRc := 0
@[simp] def ecContent : EcRc := 69
@[simp] def ecDeleted : EcRc := 66
@[simp] def ecBadRequest : EcRc := 128
@[simp] def ecBadOption : EcRc := 130
@[simp] def ecNotFound : EcRc := 132
@[simp] def ecInternalServerError : EcRc := 160

/-- `EC_IS_RESP_CODE`. -/
def ecIsRespCode (rc : EcRc) : Prop := 65 ≤ rc ∧ rc ≤ 191

instance (rc : EcRc) : Decidable (ecIsRespCode rc) := inferInstanceAs (Decidable (_ ∧ _))

/-- The client transaction states. -/
inductive EcCliState where
  | none
  | internalErr
  | dnsFailed
  | dnsOk
  | sendFailed
  | reqSent
  | reqAckd
  | appTimeout
  | coapRetry
  | coapTimeout
  | reqDone
  | reqRst
  | waitNfy
  | obsTimeout
  deriving DecidableEq, Repr

/-- The server transaction states. -/
inductive EcSrvState where
  | none
  | internalErr
  | dupReq
  | badReq
  | reqOk
  | ackSent
  | waitAck
  | respAckTimeout
  | respDone
  | coapRetry
  | clientRst
  deriving DecidableEq, Repr

/-- What a user callback returns to the server. -/
inductive EcCbrc where
  | ready
  | wait
  | poll
  | error
  deriving DecidableEq, Repr

/-- What ends a run: a transition request that `errx` answers, or an access to memory that is not there. -/
inductive EcFault where
  | serverRejected (cur next : EcSrvState)
  | clientRejected (cur next : EcCliState)
  | timerFailed
  | nullEvent
  | disposed
  | overrun
  deriving DecidableEq, Repr

/-- What a datagram was sent for. -/
inductive Purpose where
  | request
  | ack
  | rst
  | response
  | retransmission
  | reply
  deriving DecidableEq, Repr

/-- What a datagram handler returns to the socket loop. -/
inductive EcNetCbrc where
  | success
  | dead
  | error
  deriving DecidableEq, Repr

end Webthings.Evcoap
