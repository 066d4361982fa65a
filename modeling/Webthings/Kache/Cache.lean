import Webthings.Evcoap.Options.Block
import Webthings.Memory.Heap
import Webthings.Memory.Strings
import Webthings.Transition.Machine
import Mathlib.Data.List.AList

namespace Webthings.Kache
open Webthings.Evcoap
open Webthings.Memory
open Webthings.Transition

inductive KacheMediaType where
  | text
  | application
  deriving DecidableEq, Repr

inductive KacheMediaSubtype where
  | xml
  | octetStream
  | exi
  | json
  | linkFormat
  | plain
  deriving DecidableEq, Repr

structure KacheContentType where
  type : KacheMediaType
  subtype : KacheMediaSubtype
  deriving DecidableEq, Repr

/-- Every content format that has no case of its own is taken for XML. -/
def kacheCtFromEcct (ct : UInt16) : KacheContentType :=
  match ct.toNat with
  | 0 => ⟨.text, .plain⟩
  | 40 => ⟨.application, .linkFormat⟩
  | 41 => ⟨.application, .xml⟩
  | 42 => ⟨.application, .octetStream⟩
  | 47 => ⟨.application, .exi⟩
  | 50 => ⟨.application, .json⟩
  | _ => ⟨.application, .xml⟩

def kacheGetEcctFromCt (mt : KacheContentType) : UInt16 :=
  match mt.type, mt.subtype with
  | .text, .plain => 0
  | .application, .linkFormat => 40
  | .application, .xml => 41
  | .application, .octetStream => 42
  | .application, .exi => 47
  | .application, .json => 50
  | _, _ => 41

/-- What makes the run of a C program undefined here. -/
inductive KacheFault where
  | disposed
  | overrun
  | nullRep
  deriving DecidableEq, Repr

/-- A pointer to memory that only its representation knows; a release leaves the pointer as it is. -/
inductive Buffer where
  | null
  | holds (bytes : List UInt8)
  | released
  deriving DecidableEq, Repr

def Buffer.release : Buffer → Except KacheFault Buffer
  | .null => .ok .null
  | .holds _ => .ok .released
  | .released => .error .disposed

/-- A key and a value in memory of their own, with the sizes that nobody sets. -/
structure KacheKeyval where
  key : Block
  keySz : Nat
  value : Block
  valueSz : Nat
  deriving DecidableEq, Repr

/-- A cached representation with its queue of keys and values; the media type of a new one is NULL until it is set, and
read only then. -/
structure KacheRep where
  keyvalq : List KacheKeyval
  payload : Buffer
  etag : Buffer
  mediaType : KacheContentType
  maxAge : UInt32
  deriving DecidableEq, Repr

def kacheInitKacheRep : KacheRep := ⟨[], .null, .null, ⟨.text, .xml⟩, 0⟩

/-- The room is that of the strings and the copies have the given sizes, which are not kept; none when an access is
outside of the memory. -/
def kacheAddKeyVal (keyvalq : List KacheKeyval) (key : List UInt8) (keySz : Nat) (val : List UInt8) (valSz : Nat) :
    Option (List KacheKeyval) :=
  (strlen key).bind fun keyLength =>
    (strlen val).bind fun valLength =>
      (strncpy (malloc (keyLength + 1)) key keySz).bind fun copied =>
        (copied.put keySz 0).bind fun named =>
          (strncpy (malloc (valLength + 1)) val valSz).bind fun copied =>
            (copied.put valSz 0).map fun value => keyvalq ++ [⟨named, 0, value, 0⟩]

structure KacheObj where
  key : List UInt8
  reps : List (Ptr KacheRep)

/-- The argument of a timer, which is captured when the timer is created. -/
structure KacheTimerArg where
  rep : Ptr KacheRep
  obj : Ptr KacheObj
  deriving DecidableEq

/-- The cache with the memory of its objects and representations and the timers that are pending; the timer of a
representation is pending from its creation until it fires, when the representation is gone. -/
structure KacheState where
  objs : Heap KacheObj
  reps : Heap KacheRep
  map : AList fun _ : List UInt8 => Ptr KacheObj
  timers : List KacheTimerArg

def kacheInit : KacheState := ⟨Heap.empty, Heap.empty, ∅, []⟩

def kacheGet (kache : KacheState) (key : List UInt8) : Option (Ptr KacheObj) := kache.map.lookup key

/-- An entry with the same key is overwritten. -/
def kacheSet (kache : KacheState) (key : List UInt8) (obj : Ptr KacheObj) : KacheState :=
  {kache with map := kache.map.insert key obj}

def kacheUnset (kache : KacheState) (key : List UInt8) : KacheState := {kache with map := kache.map.erase key}

def kacheGetRepByMediaType (kache : KacheState) (obj : KacheObj) (mt : KacheContentType) :
    Except KacheFault (Option (Ptr KacheRep)) :=
  kache.reps.search .disposed (fun rep => rep.mediaType = mt) obj.reps

def kacheAddRep (kache : KacheState) (obj : Ptr KacheObj) (rep : Ptr KacheRep) : KacheState :=
  {kache with objs := kache.objs.modify obj fun o => {o with reps := o.reps ++ [rep]}}

def kacheRemoveRep (kache : KacheState) (obj : Ptr KacheObj) (rep : Ptr KacheRep) : KacheState :=
  {kache with objs := kache.objs.modify obj fun o => {o with reps := o.reps.erase rep}}

/-- The payload and the ETag are freed, and the pointers stay; the keys and values are taken out and freed. -/
def kacheClearKacheRep (rep : KacheRep) : Except KacheFault KacheRep :=
  match rep.payload.release with
  | .error fault => .error fault
  | .ok payload =>
      match rep.etag.release with
      | .error fault => .error fault
      | .ok etag => .ok {rep with payload := payload, etag := etag, keyvalq := []}

/-- A timer that the representation has already is scheduled again, with its old argument. -/
def kacheSetRepTimer (kache : KacheState) (rep : Ptr KacheRep) (arg : KacheTimerArg) : KacheState :=
  if kache.timers.any fun timer => timer.rep = rep then kache else {kache with timers := kache.timers ++ [arg]}

/-- A response as the client has it; its payload is empty for NULL. -/
structure EvcoapResponse where
  opts : EcOpts
  payload : List UInt8

/-- A call with a URI and a response, what the local variable for the content format holds before it is set, and what
can be read in memory after the value of a Token. -/
structure StoreCall where
  uri : List UInt8
  response : EvcoapResponse
  junk : UInt16
  behind : List UInt8

/-- The bytes of `uri`, a literal of the store function. -/
def literalKey : List UInt8 := [117, 114, 105]

section Store

variable (order : ByteOrder)

/-- Without a Content-Type the variable keeps what it holds. -/
def StoreCall.mediaType (call : StoreCall) : KacheContentType :=
  kacheCtFromEcct ((ecOptsGetContentType order call.response.opts).getD call.junk)

/-- The bytes of `Token`. -/
def tokenKey : List UInt8 := [84, 111, 107, 101, 110]

/-- One round of the switch. The list `behind` is what can be read in memory after the value of the Token. -/
def storeOption (behind : List UInt8) (opts : EcOpts) (rep : KacheRep) : EcOptSym → Except KacheFault KacheRep
  | .maxAge => .ok {rep with maxAge := (ecOptsGetMaxAge order opts).getD rep.maxAge}
  | .etag =>
      match ecOptsGetEtagNth opts 0 with
      | none => .ok rep
      | some et => .ok {rep with etag := .holds et}
  | .token =>
      match ecOptsGetToken opts with
      | none => .ok rep
      | some token =>
          match kacheAddKeyVal rep.keyvalq (tokenKey ++ [0]) 5 (token ++ behind) token.length with
          | none => .error .overrun
          | some keyvalq => .ok {rep with keyvalq := keyvalq}
  | _ => .ok rep

/-- The loop over the symbols, which ends at the first failure. -/
def kacheStoreEcOptionsToRep (behind : List UInt8) (opts : EcOpts) (rep : KacheRep) : Except KacheFault KacheRep :=
  (EcOptSym.all.filter fun sym => sym.Valid).foldlM (storeOption order behind opts) rep

/-- What a response puts into a representation, which keeps what the response does not have. -/
def filled (call : StoreCall) (rep : KacheRep) : Except KacheFault KacheRep :=
  let typed := {rep with
    mediaType := call.mediaType order
    payload := if call.response.payload = [] then rep.payload else .holds call.response.payload}
  (kacheStoreEcOptionsToRep order call.behind call.response.opts typed).map fun stored =>
    {stored with maxAge := if stored.maxAge = 0 then 60 else stored.maxAge}

/-- The place for a response: its object, and a representation that is new or was cleared and taken out. -/
structure Slot where
  kache : KacheState
  obj : Ptr KacheObj
  rep : Ptr KacheRep
  content : KacheRep

/-- A new object is put into the map under the literal and not under its key. -/
def slotFor (kache : KacheState) (uri : List UInt8) (mt : KacheContentType) : Except KacheFault Slot :=
  let grown := {kache with reps := kache.reps.alloc kacheInitKacheRep}
  match kacheGet kache uri with
  | none =>
      let planted := {grown with objs := kache.objs.alloc ⟨uri, []⟩}
      .ok ⟨kacheSet planted literalKey kache.objs.top, kache.objs.top, kache.reps.top, kacheInitKacheRep⟩
  | some obj =>
      match kache.objs.cells obj with
      | none => .error .disposed
      | some o =>
          match kacheGetRepByMediaType kache o mt with
          | .error fault => .error fault
          | .ok none => .ok ⟨grown, obj, kache.reps.top, kacheInitKacheRep⟩
          | .ok (some rep) =>
              match kache.reps.cells rep with
              | none => .error .disposed
              | some content =>
                  (kacheClearKacheRep content).map fun cleared => ⟨kacheRemoveRep kache obj rep, obj, rep, cleared⟩

def kacheStoreEvcoapResponse (kache : KacheState) (call : StoreCall) : Except KacheFault KacheState :=
  match slotFor kache call.uri (call.mediaType order) with
  | .error fault => .error fault
  | .ok slot =>
      (filled order call slot.content).map fun content =>
        let stored := {slot.kache with reps := slot.kache.reps.modify slot.rep fun _ => content}
        kacheAddRep (kacheSetRepTimer stored slot.rep ⟨slot.rep, slot.obj⟩) slot.obj slot.rep

end Store

section Get

variable (order : ByteOrder)

/-- A response that is made from the cache; its payload is empty for NULL. -/
structure CachedPdu where
  opts : EcOpts
  payload : List UInt8

/-- What memory holds before it is written: the variable for the content format and the payload of a new PDU. -/
structure Junk where
  ct : UInt16
  payload : List UInt8

/-- None when a failure is reported; the ETag is taken up to its first zero byte. -/
def kacheRepToEvcoapPdu (rep : KacheRep) (junk : Junk) : Except KacheFault (Option CachedPdu) :=
  let typed := ecOptsAddContentType order ecOptsInit (kacheGetEcctFromCt rep.mediaType)
  if typed.2 ≠ 0 then .ok none
  else
    match rep.payload with
    | .released => .error .disposed
    | payload =>
        let carried := match payload with
          | .holds bytes => bytes
          | _ => junk.payload
        let aged := ecOptsAddMaxAge order typed.1 rep.maxAge
        if aged.2 ≠ 0 then .ok none
        else
          match rep.etag with
          | .released => .error .disposed
          | .null => .ok (some ⟨aged.1, carried⟩)
          | .holds etag =>
              let tagged := ecOptsAddEtag aged.1 (cString etag)
              if tagged.2 ≠ 0 then .ok none else .ok (some ⟨tagged.1, carried⟩)

/-- A representation that is not there is not asked for ahead of its use. -/
def kacheGetEvcoapResponse (kache : KacheState) (request : EcOpts) (uri : List UInt8) (junk : Junk) :
    Except KacheFault (Option CachedPdu) :=
  match kacheGet kache uri with
  | none => .ok none
  | some obj =>
      let mt := kacheCtFromEcct ((ecOptsGetContentType order request).getD junk.ct)
      match kache.objs.cells obj with
      | none => .error .disposed
      | some o =>
          match kacheGetRepByMediaType kache o mt with
          | .error fault => .error fault
          | .ok none => .error .nullRep
          | .ok (some rep) =>
              match kache.reps.cells rep with
              | none => .error .disposed
              | some content => kacheRepToEvcoapPdu order content junk

end Get

section Timers

/-- The timer callback; the representation is freed with what it holds. -/
def kacheEvcoapTimerCb (kache : KacheState) (arg : KacheTimerArg) : Except KacheFault KacheState :=
  match kache.objs.cells arg.obj with
  | none => .error .disposed
  | some obj =>
      let removed := kacheRemoveRep kache arg.obj arg.rep
      let unlinked :=
        if obj.reps.erase arg.rep = [] then
          let unset := kacheUnset removed obj.key
          {unset with objs := unset.objs.free arg.obj}
        else removed
      match unlinked.reps.cells arg.rep with
      | none => .error .disposed
      | some content =>
          (kacheClearKacheRep content).map fun _ => {unlinked with reps := unlinked.reps.free arg.rep}

/-- A pending timer fires, if there is one at the place. -/
def expire (kache : KacheState) (n : Nat) : Except KacheFault KacheState :=
  match kache.timers[n]? with
  | none => .ok kache
  | some arg => kacheEvcoapTimerCb {kache with timers := kache.timers.eraseIdx n} arg

end Timers

section Machines

variable (order : ByteOrder)

/-- A cache that only stores. -/
def storeMachine : Machine KacheState StoreCall KacheFault := ⟨kacheStoreEvcoapResponse order⟩

inductive KacheEvent where
  | store (call : StoreCall)
  | expire (n : Nat)

/-- A cache that stores and whose representations expire in any order. -/
def kacheMachine : Machine KacheState KacheEvent KacheFault where
  step := fun kache event =>
    match event with
    | .store call => kacheStoreEvcoapResponse order kache call
    | .expire n => expire kache n

end Machines

end Webthings.Kache
