import Webthings.Kache.Lineage

namespace Webthings.Kache
open Webthings.Evcoap
open Webthings.Memory
open Webthings.Transition

section Model

variable (order : ByteOrder)

/-- The last response that was stored for a URI with a content format. -/
def latestFor (calls : List StoreCall) (uri : List UInt8) (ct : UInt16) : Option EvcoapResponse :=
  ((calls.filter fun call =>
    call.uri = uri ∧ ecOptsGetContentType order call.response.opts = some ct).getLast?).map StoreCall.response

/-- A PDU has the Content-Type that was asked for and the payload, the ETag and the Max-Age of a response. -/
structure Carries (pdu : CachedPdu) (response : EvcoapResponse) (ct : UInt16) : Prop where
  contentType : ecOptsGetContentType order pdu.opts = some ct
  payload : pdu.payload = response.payload
  etag : (ecOptsGet pdu.opts .etag).map EcOpt.value = (ecOptsGet response.opts .etag).map EcOpt.value
  maxAge : ecOptsGetMaxAge order pdu.opts = ecOptsGetMaxAge order response.opts

/-- After the stores the latest response for the URI and the content format of a request is returned, and a miss is
reported when there is none. -/
def Retrieved (calls : List StoreCall) (request : EcOpts) (uri : List UInt8) (ct : UInt16) (junk : Junk) : Prop :=
  ∃ kache answer, (storeMachine order).run kacheInit calls = .ok kache ∧
    kacheGetEvcoapResponse order kache request uri junk = .ok answer ∧
    match latestFor order calls uri ct with
    | none => answer = none
    | some response => ∃ pdu, answer = some pdu ∧ Carries order pdu response ct

/-- The payload of a PDU for a representation, which stays as it is in memory for NULL. -/
def KacheRep.payloadOr (rep : KacheRep) (junk : List UInt8) : List UInt8 :=
  match rep.payload with
  | .holds bytes => bytes
  | _ => junk

/-- The ETag of a representation up to its first zero byte. -/
def KacheRep.tag (rep : KacheRep) : Option (List UInt8) :=
  match rep.etag with
  | .holds bytes => some (cString bytes)
  | _ => none

/-- The ETag can be put into an option. -/
def KacheRep.Taggable (rep : KacheRep) : Prop := ∀ etag, rep.tag = some etag → etag.length ≠ 0 ∧ etag.length ≤ 8

/-- A representation has what a PDU for a response needs. -/
structure Matches (rep : KacheRep) (response : EvcoapResponse) (ct : UInt16) (junk : Junk) : Prop where
  format : kacheGetEcctFromCt rep.mediaType = ct
  taggable : rep.Taggable
  payload : rep.payloadOr junk.payload = response.payload
  etag : rep.tag = (ecOptsGet response.opts .etag).map EcOpt.value
  maxAge : some rep.maxAge = ecOptsGetMaxAge order response.opts

/-- A request for the literal, once something was stored, finds an intact representation of its media type, which has
what the latest response has or else an ETag that cannot be sent; for anything else nothing was stored. -/
def Reported (shelf : List KacheRep) (latest : Option EvcoapResponse) (uri : List UInt8) (ct : UInt16) (junk : Junk) :
    Prop :=
  if uri = literalKey ∧ shelf ≠ [] then
    ∃ rep, (shelf.find? fun rep => rep.mediaType = kacheCtFromEcct ct) = some rep ∧ rep.Intact ∧
      match latest with
      | none => ¬ rep.Taggable
      | some response => Matches order rep response ct junk
  else latest = none

/-- The ETag of a response can be put into an option, up to its first zero byte. -/
def StoreCall.Taggable (call : StoreCall) : Prop :=
  ∀ etag, call.etag = some etag → (cString etag).length ≠ 0 ∧ (cString etag).length ≤ 8

/-- The last of some stores for a media type has the payload, the ETag and the lifetime of a response; where it has no
payload the response has what memory holds. -/
structure Gives (stores : List StoreCall) (call : StoreCall) (response : EvcoapResponse) (junk : Junk) : Prop where
  payload : call.payload.getD junk.payload = response.payload
  etag : call.etag.map cString = (ecOptsGet response.opts .etag).map EcOpt.value
  taggable : call.Taggable
  maxAge : some (lifetime order stores) = ecOptsGetMaxAge order response.opts

/-- A request for the literal, once anything was stored, comes after steady stores for its media type, the last of which
gives what the latest response has, for a format with a media type of its own, or else has an ETag that cannot be sent;
for another URI nothing was stored. -/
def Answered (calls : List StoreCall) (uri : List UInt8) (ct : UInt16) (junk : Junk) : Prop :=
  if uri = literalKey ∧ calls ≠ [] then
    ∃ call, (storesFor order calls (kacheCtFromEcct ct)).getLast? = some call ∧
      Steady (storesFor order calls (kacheCtFromEcct ct)) ∧
      match latestFor order calls uri ct with
      | none => ¬ call.Taggable
      | some response => kacheGetEcctFromCt (kacheCtFromEcct ct) = ct ∧
          Gives order (storesFor order calls (kacheCtFromEcct ct)) call response junk
  else latestFor order calls uri ct = none

end Model

section Translation

variable (order : ByteOrder)

/-- A content format reads back from a set where it is found as an integer. -/
theorem contentType_of_uint {opts : EcOpts} {ct : UInt16}
    (read : ecOptsGetUint order opts .contentType = some ct.toUInt64.toNat) :
    ecOptsGetContentType order opts = some ct := by
  have small : ct.toUInt64.toNat ≤ 0xffff := by
    rw [UInt16.toNat_toUInt64]
    exact Nat.le_of_lt_succ ct.toNat_lt
  unfold ecOptsGetContentType
  rw [read]
  dsimp only
  rw [if_neg (by omega), UInt16.toNat_toUInt64]
  exact congrArg some UInt16.ofNat_toNat

theorem maxAge_of_uint {opts : EcOpts} {maxAge : UInt32}
    (read : ecOptsGetUint order opts .maxAge = some maxAge.toUInt64.toNat) :
    ecOptsGetMaxAge order opts = some maxAge := by
  have small : maxAge.toUInt64.toNat ≤ 0xffffffff := by
    rw [UInt32.toNat_toUInt64]
    exact Nat.le_of_lt_succ maxAge.toNat_lt
  unfold ecOptsGetMaxAge
  rw [read]
  dsimp only
  rw [if_neg (by omega), UInt32.toNat_toUInt64]
  exact congrArg some UInt32.ofNat_toNat

theorem getUint_congr {opts opts' : EcOpts} {sym : EcOptSym} (same : ecOptsGet opts' sym = ecOptsGet opts sym) :
    ecOptsGetUint order opts' sym = ecOptsGetUint order opts sym := by
  unfold ecOptsGetUint
  rw [same]

/-- The options of a PDU ahead of its ETag. -/
def untagged (rep : KacheRep) : EcOpts :=
  (ecOptsAddMaxAge order (ecOptsAddContentType order ecOptsInit (kacheGetEcctFromCt rep.mediaType)).1 rep.maxAge).1

/-- What the options of a PDU read as: the content format, the lifetime, and an ETag or none. -/
structure ReadsAs (opts : EcOpts) (rep : KacheRep) (etag : Option (List UInt8)) : Prop where
  contentType : ecOptsGetContentType order opts = some (kacheGetEcctFromCt rep.mediaType)
  maxAge : ecOptsGetMaxAge order opts = some rep.maxAge
  etag : (ecOptsGet opts .etag).map EcOpt.value = etag

/-- Content format and lifetime can always be added. -/
theorem untagged_reads (rep : KacheRep) :
    (ecOptsAddContentType order ecOptsInit (kacheGetEcctFromCt rep.mediaType)).2 = 0 ∧
      (ecOptsAddMaxAge order (ecOptsAddContentType order ecOptsInit (kacheGetEcctFromCt rep.mediaType)).1
        rep.maxAge).2 = 0 ∧
      (untagged order rep).noptions = 2 ∧ ecOptsGet (untagged order rep) .etag = none ∧
      ReadsAs order (untagged order rep) rep none := by
  generalize same : kacheGetEcctFromCt rep.mediaType = ct
  have nothing : ∀ sym, ecOptsGet ecOptsInit sym = none := fun _ => rfl
  obtain ⟨counted, read, kept⟩ := ecOptsAddUint_reads order ct.toUInt64 rfl (nothing .contentType) (by decide)
  have typed := (ecOptsAddUint_ok_iff order ct.toUInt64 rfl (nothing .contentType)).mpr (by decide)
  have absent := (kept .maxAge (by decide)).trans (nothing .maxAge)
  have room : (ecOptsAddUint order ecOptsInit .contentType ct.toUInt64).1.noptions < ecProtoMaxOptions := by
    rw [counted]
    decide
  obtain ⟨counted', read', kept'⟩ := ecOptsAddUint_reads order rep.maxAge.toUInt64 rfl absent room
  have aged := (ecOptsAddUint_ok_iff order rep.maxAge.toUInt64 rfl absent).mpr room
  have etag := (kept' .etag (by decide)).trans ((kept .etag (by decide)).trans (nothing .etag))
  unfold untagged ecOptsAddMaxAge ecOptsAddContentType
  rw [same]
  refine ⟨typed, aged, counted'.trans (by rw [counted]; rfl), etag, ⟨?_, maxAge_of_uint order read', ?_⟩⟩
  · rw [same]
    exact contentType_of_uint order ((getUint_congr order (kept' .contentType (by decide))).trans read)
  · rw [etag]
    rfl

/-- An ETag of one to eight bytes is added, and no other. -/
theorem tagged_reads (rep : KacheRep) (etag : List UInt8) :
    (etag.length ≠ 0 ∧ etag.length ≤ 8 → (ecOptsAddEtag (untagged order rep) etag).2 = 0 ∧
      ReadsAs order (ecOptsAddEtag (untagged order rep) etag).1 rep (some etag)) ∧
      (¬ (etag.length ≠ 0 ∧ etag.length ≤ 8) → (ecOptsAddEtag (untagged order rep) etag).2 ≠ 0) := by
  obtain ⟨_, _, counted, absent, reads⟩ := untagged_reads order rep
  constructor
  · rintro ⟨some, short⟩
    have room : (untagged order rep).noptions < ecProtoMaxOptions := by
      rw [counted]
      decide
    obtain ⟨added, read⟩ := ecOptsAddShortOpaque_reads rfl absent room some short
    have spares : ∀ kept, .etag ≠ kept →
        ecOptsGet (ecOptsAddEtag (untagged order rep) etag).1 kept = ecOptsGet (untagged order rep) kept :=
      fun kept different => ecOptsAddShortOpaque_spares kept different etag
    refine ⟨added, ⟨?_, ?_, read⟩⟩
    · rw [← reads.contentType]
      unfold ecOptsGetContentType
      rw [getUint_congr order (spares .contentType (by decide))]
    · rw [← reads.maxAge]
      unfold ecOptsGetMaxAge
      rw [getUint_congr order (spares .maxAge (by decide))]
  · intro bad
    unfold ecOptsAddEtag ecOptsAddShortOpaque
    rw [if_pos (by omega)]
    exact show (-1 : Int) ≠ 0 by decide

/-- A broken representation is not translated. -/
theorem kacheRepToEvcoapPdu_broken {rep : KacheRep} (broken : ¬ rep.Intact) (junk : Junk) :
    kacheRepToEvcoapPdu order rep junk = .error .disposed := by
  obtain ⟨typed, aged, _⟩ := untagged_reads order rep
  unfold kacheRepToEvcoapPdu
  dsimp only
  rw [if_neg (not_not_intro typed)]
  cases payload : rep.payload with
  | released => rfl
  | null =>
      have etag : rep.etag = .released := by
        by_contra other
        exact broken ⟨by simp [payload], other⟩
      dsimp only
      rw [if_neg (not_not_intro aged), etag]
  | holds bytes =>
      have etag : rep.etag = .released := by
        by_contra other
        exact broken ⟨by simp [payload], other⟩
      dsimp only
      rw [if_neg (not_not_intro aged), etag]

/-- An intact representation is translated unless its ETag cannot be sent. -/
theorem kacheRepToEvcoapPdu_intact {rep : KacheRep} (intact : rep.Intact) (junk : Junk) :
    (rep.Taggable → ∃ pdu, kacheRepToEvcoapPdu order rep junk = .ok (some pdu) ∧
      pdu.payload = rep.payloadOr junk.payload ∧ ReadsAs order pdu.opts rep rep.tag) ∧
      (¬ rep.Taggable → kacheRepToEvcoapPdu order rep junk = .ok none) := by
  obtain ⟨typed, aged, _, _, reads⟩ := untagged_reads order rep
  have translated : kacheRepToEvcoapPdu order rep junk =
      rep.tag.elim (.ok (some ⟨untagged order rep, rep.payloadOr junk.payload⟩)) fun etag =>
        if (ecOptsAddEtag (untagged order rep) etag).2 ≠ 0 then .ok none
        else .ok (some ⟨(ecOptsAddEtag (untagged order rep) etag).1, rep.payloadOr junk.payload⟩) := by
    unfold kacheRepToEvcoapPdu KacheRep.tag KacheRep.payloadOr
    dsimp only
    rw [if_neg (not_not_intro typed)]
    cases payload : rep.payload with
    | released => exact absurd payload intact.1
    | null =>
        dsimp only
        rw [if_neg (not_not_intro aged)]
        cases etag : rep.etag with
        | released => exact absurd etag intact.2
        | null => rfl
        | holds bytes => rfl
    | holds bytes =>
        dsimp only
        rw [if_neg (not_not_intro aged)]
        cases etag : rep.etag with
        | released => exact absurd etag intact.2
        | null => rfl
        | holds bytes => rfl
  rw [translated]
  cases tag : rep.tag with
  | none =>
      refine ⟨fun _ => ⟨_, rfl, rfl, reads⟩, fun bad => ?_⟩
      exact absurd (fun etag there => by rw [tag] at there; cases there) bad
  | some etag =>
      obtain ⟨good, bad⟩ := tagged_reads order rep etag
      constructor
      · intro taggable
        obtain ⟨added, reads⟩ := good (taggable etag tag)
        rw [Option.elim_some, if_neg (not_not_intro added)]
        exact ⟨_, rfl, rfl, reads⟩
      · intro untaggable
        have failed : ¬ (etag.length ≠ 0 ∧ etag.length ≤ 8) := by
          intro fits
          apply untaggable
          intro other there
          rw [tag] at there
          cases there
          exact fits
        rw [Option.elim_some, if_pos (bad failed)]

end Translation

section Stores

variable (order : ByteOrder)

/-- Stores that can all be written leave their responses on the shelf. -/
theorem stores_shelved {kache : KacheState} {shelf : List KacheRep} {calls : List StoreCall}
    (shelved : Shelved kache shelf) (writable : (shelfMachine order).Meets (Writable order) shelf calls) :
    ∃ final, (storeMachine order).run kache calls = .ok final ∧ Shelved final (calls.foldl (shelve order) shelf) := by
  induction calls generalizing kache shelf with
  | nil => exact ⟨kache, rfl, shelved⟩
  | cons call calls ih =>
      obtain ⟨slot, content, stored, _, next⟩ := store_writable order shelved writable.1
      obtain ⟨final, ran, ends⟩ := ih next (writable.2 _ rfl)
      refine ⟨final, ?_, ends⟩
      have step : (storeMachine order).step kache call = .ok (slot.stored content) := stored
      rw [Machine.run, step]
      exact ran

/-- Any other stores make the run undefined. -/
theorem stores_fail {kache : KacheState} {shelf : List KacheRep} {calls : List StoreCall}
    (shelved : Shelved kache shelf) (unwritable : ¬ (shelfMachine order).Meets (Writable order) shelf calls) :
    ∃ fault, (storeMachine order).run kache calls = .error fault := by
  induction calls generalizing kache shelf with
  | nil => exact absurd trivial unwritable
  | cons call calls ih =>
      by_cases writable : Writable order shelf call
      · obtain ⟨slot, content, stored, _, next⟩ := store_writable order shelved writable
        have later : ¬ (shelfMachine order).Meets (Writable order) (shelve order shelf call) calls := by
          intro rest
          refine unwritable ⟨writable, fun other stepped => ?_⟩
          have same := Except.ok.inj stepped
          exact same ▸ rest
        obtain ⟨fault, failed⟩ := ih next later
        refine ⟨fault, ?_⟩
        have step : (storeMachine order).step kache call = .ok (slot.stored content) := stored
        rw [Machine.run, step]
        exact failed
      · obtain ⟨fault, failed⟩ := store_unwritable order shelved writable
        refine ⟨fault, ?_⟩
        have step : (storeMachine order).step kache call = .error fault := failed
        rw [Machine.run, step]

variable {kache : KacheState} {shelf : List KacheRep} {request : EcOpts} {ct : UInt16} (junk : Junk)

/-- A request for a URI without an object is a miss. -/
theorem get_missing (shelved : Shelved kache shelf) {uri : List UInt8} (missing : ¬ (uri = literalKey ∧ shelf ≠ [])) :
    kacheGetEvcoapResponse order kache request uri junk = .ok none := by
  have nothing : kacheGet kache uri = none := by
    rw [shelved.get uri]
    split
    · rename_i same
      cases found : kacheGet kache literalKey with
      | none => rfl
      | some obj => exact absurd ⟨same, (shelved.holds obj found).1⟩ missing
    · rfl
  unfold kacheGetEvcoapResponse
  rw [nothing]

/-- A request for the object is answered from the representation of its media type, which has to be there. -/
theorem get_held (shelved : Shelved kache shelf) (some : shelf ≠ [])
    (format : ecOptsGetContentType order request = Option.some ct) :
    kacheGetEvcoapResponse order kache request literalKey junk =
      match shelf.find? fun rep => rep.mediaType = kacheCtFromEcct ct with
      | none => .error .nullRep
      | Option.some rep => kacheRepToEvcoapPdu order rep junk := by
  cases found : kacheGet kache literalKey with
  | none => exact absurd (shelved.vacant found) some
  | some obj =>
      obtain ⟨_, o, there, holds⟩ := shelved.holds obj found
      unfold kacheGetEvcoapResponse
      rw [found]
      dsimp only
      rw [there, format]
      dsimp only [Option.getD_some]
      cases present : shelf.find? fun rep => decide (rep.mediaType = kacheCtFromEcct ct) with
      | none =>
          have searched : kacheGetRepByMediaType kache o (kacheCtFromEcct ct) = .ok none := holds.search_none present
          rw [searched]
      | some rep =>
          obtain ⟨p, _, found, here⟩ := holds.search_some present
          have searched : kacheGetRepByMediaType kache o (kacheCtFromEcct ct) = .ok (Option.some p) := found
          rw [searched]
          dsimp only
          rw [here]

/-- A PDU that reads as a representation carries a response that the representation matches. -/
theorem ReadsAs.carries_iff {pdu : CachedPdu} {rep : KacheRep} {junk : Junk}
    (reads : ReadsAs order pdu.opts rep rep.tag) (payload : pdu.payload = rep.payloadOr junk.payload)
    (taggable : rep.Taggable) (response : EvcoapResponse) :
    Carries order pdu response ct ↔ Matches order rep response ct junk := by
  constructor
  · intro carries
    exact ⟨Option.some.inj (reads.contentType.symm.trans carries.contentType), taggable,
      payload.symm.trans carries.payload, reads.etag.symm.trans carries.etag, reads.maxAge.symm.trans carries.maxAge⟩
  · intro right
    exact ⟨reads.contentType.trans (congrArg some right.format), payload.trans right.payload,
      reads.etag.trans right.etag, reads.maxAge.trans right.maxAge⟩

/-- The PDU of an intact representation is the right answer when it matches the latest response, or has no ETag to send
and nothing was to be found. -/
theorem kacheRepToEvcoapPdu_reported {rep : KacheRep} (intact : rep.Intact) (latest : Option EvcoapResponse) :
    (∃ answer, kacheRepToEvcoapPdu order rep junk = .ok answer ∧
      match latest with
      | none => answer = none
      | some response => ∃ pdu, answer = some pdu ∧ Carries order pdu response ct) ↔
      match latest with
      | none => ¬ rep.Taggable
      | some response => Matches order rep response ct junk := by
  obtain ⟨good, bad⟩ := kacheRepToEvcoapPdu_intact order intact junk
  by_cases taggable : rep.Taggable
  · obtain ⟨pdu, translated, payload, reads⟩ := good taggable
    rw [translated]
    cases latest with
    | none =>
        constructor
        · rintro ⟨answer, same, missing⟩
          cases same
          cases missing
        · intro untaggable
          exact absurd taggable untaggable
    | some response =>
        dsimp only
        rw [← reads.carries_iff order payload taggable response]
        constructor
        · rintro ⟨answer, same, other, equal, carries⟩
          cases same
          cases equal
          exact carries
        · intro carries
          exact ⟨some pdu, rfl, pdu, rfl, carries⟩
  · rw [bad taggable]
    cases latest with
    | none => exact ⟨fun _ => taggable, fun _ => ⟨none, rfl, rfl⟩⟩
    | some response =>
        constructor
        · rintro ⟨answer, same, pdu, equal, _⟩
          cases same
          cases equal
        · intro right
          exact absurd right.taggable taggable

/-- What a request is answered with is right exactly when the representation on the shelf is. -/
theorem get_reported (shelved : Shelved kache shelf) (format : ecOptsGetContentType order request = some ct)
    (uri : List UInt8) (latest : Option EvcoapResponse) :
    (∃ answer, kacheGetEvcoapResponse order kache request uri junk = .ok answer ∧
      match latest with
      | none => answer = none
      | some response => ∃ pdu, answer = some pdu ∧ Carries order pdu response ct) ↔
      Reported order shelf latest uri ct junk := by
  unfold Reported
  by_cases held : uri = literalKey ∧ shelf ≠ []
  · rw [if_pos held, held.1, get_held order junk shelved held.2 format]
    cases present : shelf.find? fun rep => decide (rep.mediaType = kacheCtFromEcct ct) with
    | none =>
        constructor
        · rintro ⟨answer, failed, _⟩
          cases failed
        · rintro ⟨rep, none, _⟩
          cases none
    | some rep =>
        by_cases intact : rep.Intact
        · dsimp only
          rw [kacheRepToEvcoapPdu_reported order junk intact latest]
          constructor
          · intro right
            exact ⟨rep, rfl, intact, right⟩
          · rintro ⟨other, same, _, right⟩
            cases same
            exact right
        · dsimp only
          rw [kacheRepToEvcoapPdu_broken order intact junk]
          constructor
          · rintro ⟨answer, failed, _⟩
            cases failed
          · rintro ⟨other, same, whole, _⟩
            cases same
            exact absurd whole intact
  · rw [if_neg held, get_missing order junk shelved held]
    cases latest with
    | none => exact ⟨fun _ => rfl, fun _ => ⟨none, rfl, rfl⟩⟩
    | some response =>
        constructor
        · rintro ⟨answer, same, pdu, equal, _⟩
          cases same
          cases equal
        · intro impossible
          cases impossible

end Stores

section Answers

variable {order : ByteOrder} {stores : List StoreCall} {call : StoreCall} {rep : KacheRep}

/-- What steady stores leave has the ETag of the last of them, and its payload. -/
theorem Left.tag (left : Left order stores call rep) (steady : Steady (stores ++ [call])) :
    rep.tag = call.etag.map cString := by
  have etag := steady.etag
  rw [List.map_append, List.map_singleton] at etag
  unfold KacheRep.tag
  rw [left.etag, List.map_append, List.map_singleton, kept_lasting _ etag]
  cases call.etag <;> rfl

theorem Left.payloadOr (left : Left order stores call rep) (steady : Steady (stores ++ [call])) (junk : List UInt8) :
    rep.payloadOr junk = call.payload.getD junk := by
  have payload := steady.payload
  rw [List.map_append, List.map_singleton] at payload
  unfold KacheRep.payloadOr
  rw [left.payload, List.map_append, List.map_singleton, kept_lasting _ payload]
  cases call.payload <;> rfl

theorem Left.taggable_iff (left : Left order stores call rep) (steady : Steady (stores ++ [call])) :
    rep.Taggable ↔ call.Taggable := by
  unfold KacheRep.Taggable StoreCall.Taggable
  rw [left.tag steady]
  cases call.etag with
  | none => simp
  | some etag => simp

/-- What steady stores leave matches a response when the last of them gives what the response has. -/
theorem Left.matches_iff (left : Left order stores call rep) (steady : Steady (stores ++ [call])) (response : EvcoapResponse)
    (ct : UInt16) (junk : Junk) : Matches order rep response ct junk ↔
      kacheGetEcctFromCt rep.mediaType = ct ∧ Gives order (stores ++ [call]) call response junk := by
  constructor
  · intro same
    refine ⟨same.format, ?_, ?_, (left.taggable_iff steady).mp same.taggable, ?_⟩
    · rw [← left.payloadOr steady, same.payload]
    · rw [← left.tag steady, same.etag]
    · rw [← left.maxAge, same.maxAge]
  · rintro ⟨format, gives⟩
    refine ⟨format, (left.taggable_iff steady).mpr gives.taggable, ?_, ?_, ?_⟩
    · rw [left.payloadOr steady, gives.payload]
    · rw [left.tag steady, gives.etag]
    · rw [left.maxAge, gives.maxAge]

variable (order)

/-- What is under the literal is right for a request exactly when the stores that left it are. -/
theorem reported_iff_answered (calls : List StoreCall) (uri : List UInt8) (ct : UInt16) (junk : Junk) :
    Reported order (shelfAfter order calls) (latestFor order calls uri ct) uri ct junk ↔
      Answered order calls uri ct junk := by
  have stored : uri = literalKey ∧ shelfAfter order calls ≠ [] ↔ uri = literalKey ∧ calls ≠ [] :=
    and_congr_right fun _ => not_congr (shelfAfter_nil_iff order calls)
  unfold Reported Answered
  rw [shelfAfter_find]
  by_cases held : uri = literalKey ∧ calls ≠ []
  · have among : ∀ call ∈ storesFor order calls (kacheCtFromEcct ct), call.mediaType order = kacheCtFromEcct ct := by
      intro call member
      simpa using (List.mem_filter.mp member).2
    rw [if_pos (stored.mpr held), if_pos held]
    generalize storesFor order calls (kacheCtFromEcct ct) = stores at among ⊢
    cases stores using List.reverseRecOn with
    | nil =>
        constructor
        · rintro ⟨rep, none, _⟩
          cases none
        · rintro ⟨call, none, _⟩
          cases none
    | append_singleton stores call =>
        obtain ⟨rep, found, left⟩ := leftBy_left order stores call
        have format : rep.mediaType = kacheCtFromEcct ct := left.mediaType.trans (among call (by simp))
        rw [found, List.getLast?_concat]
        simp only [Option.some.injEq, exists_eq_left']
        rw [left.intact_iff]
        apply and_congr_right
        intro steady
        cases latestFor order calls uri ct with
        | none => exact not_congr (left.taggable_iff steady)
        | some response =>
            dsimp only
            rw [left.matches_iff steady, format]
  · rw [if_neg (mt stored.mp held), if_neg held]

/-- A store gives its own response when that has a payload, or memory happens to be empty, an ETag that can be sent and
has no zero byte, if any, and a lifetime other than zero. -/
theorem gives_own_iff (stores : List StoreCall) (call : StoreCall) (junk : Junk) :
    Gives order (stores ++ [call]) call call.response junk ↔
      (call.response.payload = [] → junk.payload = []) ∧
        (∀ etag, call.etag = some etag → 0 ∉ etag ∧ etag.length ≠ 0 ∧ etag.length ≤ 8) ∧
        ∃ maxAge, ecOptsGetMaxAge order call.response.opts = some maxAge ∧ maxAge ≠ 0 := by
  have payload : call.payload.getD junk.payload = call.response.payload ↔
      (call.response.payload = [] → junk.payload = []) := by
    unfold StoreCall.payload
    by_cases empty : call.response.payload = []
    · simp [empty]
    · simp [empty]
  have etag : call.etag.map cString = call.etag ∧ call.Taggable ↔
      ∀ etag, call.etag = some etag → 0 ∉ etag ∧ etag.length ≠ 0 ∧ etag.length ≤ 8 := by
    unfold StoreCall.Taggable
    cases call.etag with
    | none => simp
    | some etag =>
        simp only [Option.map_some, Option.some.injEq, forall_eq']
        constructor
        · rintro ⟨whole, short⟩
          rw [whole] at short
          exact ⟨whole ▸ cString_nul etag, short⟩
        · rintro ⟨nonzero, short⟩
          rw [cString_whole nonzero]
          exact ⟨rfl, short⟩
  have maxAge : some (lifetime order (stores ++ [call])) = ecOptsGetMaxAge order call.response.opts ↔
      ∃ maxAge, ecOptsGetMaxAge order call.response.opts = some maxAge ∧ maxAge ≠ 0 := by
    unfold lifetime
    dsimp only
    rw [List.filterMap_append, List.filterMap_cons]
    cases ecOptsGetMaxAge order call.response.opts with
    | none => simp
    | some read =>
        by_cases zero : read = 0
        · simp [zero]
        · simp [zero]
  rw [← payload, ← etag, ← maxAge]
  exact ⟨fun gives => ⟨gives.payload, ⟨gives.etag, gives.taggable⟩, gives.maxAge⟩,
    fun ⟨carried, ⟨tagged, taggable⟩, aged⟩ => ⟨carried, tagged, taggable, aged⟩⟩

/-- After any stores a request gets the latest response for its URI and content format, or a miss when there is none,
exactly when the stores are storable and the request is answered. -/
theorem retrieved_iff (calls : List StoreCall) (request : EcOpts) (uri : List UInt8) (ct : UInt16) (junk : Junk)
    (format : ecOptsGetContentType order request = some ct) :
    Retrieved order calls request uri ct junk ↔ Storable order calls ∧ Answered order calls uri ct junk := by
  rw [← meets_writable_iff, ← reported_iff_answered]
  constructor
  · rintro ⟨kache, answer, ran, got⟩
    have writable : (shelfMachine order).Meets (Writable order) [] calls := by
      by_contra unwritable
      obtain ⟨fault, failed⟩ := stores_fail order kacheInit_shelved unwritable
      cases failed.symm.trans ran
    obtain ⟨final, ran', shelved⟩ := stores_shelved order kacheInit_shelved writable
    have same : final = kache := Except.ok.inj (ran'.symm.trans ran)
    subst same
    exact ⟨writable, (get_reported order junk shelved format uri _).mp ⟨answer, got⟩⟩
  · rintro ⟨writable, reported⟩
    obtain ⟨final, ran, shelved⟩ := stores_shelved order kacheInit_shelved writable
    obtain ⟨answer, got, right⟩ := (get_reported order junk shelved format uri _).mpr reported
    exact ⟨final, answer, ran, got, right⟩

end Answers

section Ordinary

variable (order : ByteOrder)

/-- A store for the literal of a response with a known content format, a payload, an ETag without zero bytes and a
lifetime, and without a Token. -/
structure Ordinary (call : StoreCall) : Prop where
  uri : call.uri = literalKey
  format : ∃ ct, ecOptsGetContentType order call.response.opts = some ct ∧
    kacheGetEcctFromCt (kacheCtFromEcct ct) = ct
  token : ecOptsGet call.response.opts .token = none
  payload : call.response.payload ≠ []
  etag : ∃ et, ecOptsGet call.response.opts .etag = some et ∧ 0 ∉ et.value ∧ et.value.length ≠ 0 ∧ et.value.length ≤ 8
  maxAge : ∃ maxAge, ecOptsGetMaxAge order call.response.opts = some maxAge ∧ maxAge ≠ 0

variable {order} {call : StoreCall}

/-- What an ordinary store writes is intact whatever it overwrites. -/
theorem Ordinary.written (ordinary : Ordinary order call) (old : KacheRep) : (written order call old).Intact := by
  obtain ⟨et, there, _⟩ := ordinary.etag
  unfold Kache.written optioned
  dsimp only
  constructor
  · rw [if_neg ordinary.payload]
    exact Buffer.noConfusion
  · dsimp only
    rw [there]
    exact Buffer.noConfusion

/-- An ordinary store is for a media type exactly when its content format is the one of that type. -/
theorem Ordinary.mediaType_iff (ordinary : Ordinary order call) {ct : UInt16}
    (known : kacheGetEcctFromCt (kacheCtFromEcct ct) = ct) :
    call.mediaType order = kacheCtFromEcct ct ↔ ecOptsGetContentType order call.response.opts = some ct := by
  obtain ⟨format, read, back⟩ := ordinary.format
  unfold StoreCall.mediaType
  rw [read]
  constructor
  · intro types
    have same := congrArg kacheGetEcctFromCt types
    rw [Option.getD_some, back, known] at same
    rw [same]
  · intro same
    rw [Option.some.inj same]
    rfl

variable {calls : List StoreCall}

/-- Ordinary stores are steady. -/
theorem ordinary_steady {stores : List StoreCall} (ordinary : ∀ call ∈ stores, Ordinary order call) : Steady stores := by
  cases stores using List.reverseRecOn with
  | nil => exact ⟨Or.inr (by simp), Or.inr (by simp)⟩
  | append_singleton stores call =>
      have last := ordinary call (by simp)
      obtain ⟨et, there, _⟩ := last.etag
      have payload : call.payload = some call.response.payload := if_neg last.payload
      have etag : call.etag = some et.value := congrArg (Option.map EcOpt.value) there
      refine ⟨Or.inl ⟨call.response.payload, ?_⟩, Or.inl ⟨et.value, ?_⟩⟩
      · rw [List.map_append, List.map_singleton, List.getLast?_concat, payload]
      · rw [List.map_append, List.map_singleton, List.getLast?_concat, etag]

/-- Every ordinary store reaches the end. -/
theorem ordinary_storesFor (ordinary : ∀ call ∈ calls, Ordinary order call) (mt : KacheContentType) :
    storesFor order calls mt = calls.filter fun call => call.mediaType order = mt := by
  induction calls using List.reverseRecOn with
  | nil => rfl
  | append_singleton calls call ih =>
      have before := ih fun other member => ordinary other (by simp [member])
      rw [storesFor_snoc, if_pos (ordinary call (by simp)).uri, before, List.filter_append]
      by_cases same : call.mediaType order = mt <;> simp [same]

/-- Ordinary stores are storable. -/
theorem ordinary_storable (ordinary : ∀ call ∈ calls, Ordinary order call) : Storable order calls := by
  rintro before call after rfl
  refine ⟨tokenFits_none _ (ordinary call (by simp)).token, fun _ => ?_⟩
  have earlier : ∀ other ∈ before, Ordinary order other := fun other member => ordinary other (by simp [member])
  apply ordinary_steady
  rw [ordinary_storesFor earlier]
  exact fun other member => earlier other (List.mem_of_mem_filter member)

/-- After ordinary stores a request for a format that was stored is answered. -/
theorem ordinary_answered (ordinary : ∀ call ∈ calls, Ordinary order call) {ct : UInt16}
    (known : kacheGetEcctFromCt (kacheCtFromEcct ct) = ct) {response : EvcoapResponse}
    (stored : latestFor order calls literalKey ct = some response) (junk : Junk) :
    Answered order calls literalKey ct junk := by
  have same : (calls.filter fun call =>
      call.uri = literalKey ∧ ecOptsGetContentType order call.response.opts = some ct) =
      storesFor order calls (kacheCtFromEcct ct) := by
    rw [ordinary_storesFor ordinary]
    apply List.filter_congr
    intro call member
    simp [(ordinary call member).uri, (ordinary call member).mediaType_iff known]
  have among : ∀ call ∈ storesFor order calls (kacheCtFromEcct ct), Ordinary order call := by
    intro call member
    rw [ordinary_storesFor ordinary] at member
    exact ordinary call (List.mem_of_mem_filter member)
  have latest := stored
  unfold latestFor at stored
  rw [same] at stored
  obtain ⟨call, last, rfl⟩ := Option.map_eq_some_iff.mp stored
  unfold Answered
  rw [if_pos ⟨rfl, fun none => by rw [none] at last; cases last⟩]
  refine ⟨call, last, ordinary_steady among, ?_⟩
  rw [latest]
  refine ⟨known, ?_⟩
  obtain ⟨front, split⟩ := List.getLast?_eq_some_iff.mp last
  have own := among call (List.mem_of_getLast? last)
  obtain ⟨et, there, nonzero, short⟩ := own.etag
  rw [split]
  refine (gives_own_iff order front call junk).mpr ⟨fun none => absurd none own.payload, fun etag tagged => ?_, own.maxAge⟩
  have value : some et.value = some etag := (congrArg (Option.map EcOpt.value) there).symm.trans tagged
  exact Option.some.inj value ▸ ⟨nonzero, short⟩

end Ordinary

/-- The options of a response with an ETag, a content format and a lifetime of 40 seconds. -/
def storedOpts (ct : UInt16) (etag : UInt8) : EcOpts :=
  let typed := (ecOptsAddContentType .little ecOptsInit ct).1
  let aged := (ecOptsAddMaxAge .little typed 40).1
  (ecOptsAddEtag aged [etag, 1]).1

def storeOf (uri : List UInt8) (ct : UInt16) (byte : UInt8) : StoreCall := ⟨uri, ⟨storedOpts ct byte, [byte]⟩, 0, []⟩

/-- A request with a content format. -/
def askedFor (ct : UInt16) : EcOpts := (ecOptsAddContentType .little ecOptsInit ct).1

/-- Text, EXI, and text again. -/
def storedThrice : List StoreCall := [storeOf literalKey 0 1, storeOf literalKey 47 2, storeOf literalKey 0 3]

theorem storeOf_ordinary (ct : UInt16) (byte : UInt8) (known : ct = 0 ∨ ct = 47)
    (some : byte = 1 ∨ byte = 2 ∨ byte = 3) : Ordinary .little (storeOf literalKey ct byte) := by
  refine ⟨rfl, ⟨ct, contentType_of_uint .little ?_, ?_⟩, ?_, by simp [storeOf], ?_, 40, maxAge_of_uint .little ?_,
    by decide⟩
  · rcases known with rfl | rfl <;> rcases some with rfl | rfl | rfl <;> decide
  · rcases known with rfl | rfl <;> rfl
  · rcases known with rfl | rfl <;> rcases some with rfl | rfl | rfl <;> rfl
  · rcases known with rfl | rfl <;> rcases some with rfl | rfl | rfl <;> exact ⟨_, rfl, by decide, by decide, by decide⟩
  · rcases known with rfl | rfl <;> rcases some with rfl | rfl | rfl <;> decide

/-- The second text is returned. -/
theorem storedThrice_retrieved : Retrieved .little storedThrice (askedFor 0) literalKey 0 ⟨7, [9]⟩ := by
  have ordinary : ∀ call ∈ storedThrice, Ordinary .little call := by
    intro call member
    simp only [storedThrice, List.mem_cons, List.not_mem_nil, or_false] at member
    rcases member with rfl | rfl | rfl
    · exact storeOf_ordinary 0 1 (by decide) (by decide)
    · exact storeOf_ordinary 47 2 (by decide) (by decide)
    · exact storeOf_ordinary 0 3 (by decide) (by decide)
  exact (retrieved_iff .little storedThrice (askedFor 0) literalKey 0 ⟨7, [9]⟩ rfl).mpr
    ⟨ordinary_storable ordinary, ordinary_answered ordinary rfl rfl ⟨7, [9]⟩⟩

/-- The bytes of `/a`. -/
def otherUri : List UInt8 := [47, 97]

/-- What is stored for another URI is reported as a miss, and found under the literal. -/
theorem otherUri_missed : ∃ kache, (storeMachine .little).run kacheInit [storeOf otherUri 0 1] = .ok kache ∧
    kacheGetEvcoapResponse .little kache (askedFor 0) otherUri ⟨0, []⟩ = .ok none ∧
    (∃ pdu, kacheGetEvcoapResponse .little kache (askedFor 0) literalKey ⟨0, []⟩ = .ok (some pdu) ∧ pdu.payload = [1]) ∧
    latestFor .little [storeOf otherUri 0 1] otherUri 0 = some (storeOf otherUri 0 1).response ∧
    ¬ Retrieved .little [storeOf otherUri 0 1] (askedFor 0) otherUri 0 ⟨0, []⟩ := by
  refine ⟨_, rfl, rfl, ⟨_, rfl, rfl⟩, rfl, ?_⟩
  rintro ⟨kache, answer, ran, got, right⟩
  cases ran
  cases got
  obtain ⟨pdu, none, _⟩ := right
  cases none

end Webthings.Kache
