import Webthings.Kache.Cache
import Webthings.Evcoap.Options.Carried

namespace Webthings.Kache
open Webthings.Evcoap
open Webthings.Memory

section Store

variable (order : ByteOrder) (behind : List UInt8) (opts : EcOpts)

/-- A Token, if there is one, has no zero byte, and one can be read after it. -/
def TokenFits : Prop := ∀ o ∈ ecOptsGet opts .token, 0 ∉ o.value ∧ 0 ∈ behind

instance : Decidable (TokenFits behind opts) := inferInstanceAs (Decidable (∀ o ∈ ecOptsGet opts .token, _))

/-- The queue with the name and the copy of a Token behind it. -/
def withToken (keyvalq : List KacheKeyval) : List KacheKeyval :=
  match ecOptsGet opts .token with
  | none => keyvalq
  | some o =>
      match copyString (o.value ++ behind) o.value.length with
      | none => keyvalq
      | some value => keyvalq ++ [⟨tokenKey.map some ++ [some 0], 0, value, 0⟩]

/-- What the options of a response make of a representation. -/
def optioned (rep : KacheRep) : KacheRep :=
  {rep with
    keyvalq := withToken behind opts rep.keyvalq
    etag := match ecOptsGet opts .etag with
      | none => rep.etag
      | some et => .holds et.value
    maxAge := (ecOptsGetMaxAge order opts).getD rep.maxAge}

/-- The Token is stored under its name with its bytes, and no access is outside of the memory. -/
def TokenStored (rep : KacheRep) (token : List UInt8) : Prop :=
  ∃ result keyval, kacheStoreEcOptionsToRep order behind opts rep = .ok result ∧
    result.keyvalq = rep.keyvalq ++ [keyval] ∧ keyval.key = tokenKey.map some ++ [some 0] ∧
      keyval.value.take token.length = token.map some

end Store

section Results

/-- The key and the value are copied in the same way. -/
theorem kacheAddKeyVal_copies (keyvalq : List KacheKeyval) (key val : List UInt8) (keySz valSz : Nat) :
    kacheAddKeyVal keyvalq key keySz val valSz =
      (copyString key keySz).bind fun named => (copyString val valSz).map fun value => keyvalq ++ [⟨named, 0, value, 0⟩] := by
  unfold kacheAddKeyVal copyString
  cases strlen key with
  | none => rfl
  | some keyLength =>
      cases strlen val with
      | none => simp
      | some valLength =>
          simp only [Option.bind_some]
          cases strncpy (malloc (keyLength + 1)) key keySz with
          | none => rfl
          | some copied =>
              simp only [Option.bind_some]
              cases copied.put keySz 0 with
              | none => rfl
              | some named =>
                  simp only [Option.bind_some]
                  cases strncpy (malloc (valLength + 1)) val valSz <;> rfl

/-- The name of a Token always fits. -/
theorem kacheAddKeyVal_token (keyvalq : List KacheKeyval) (val : List UInt8) (valSz : Nat) :
    kacheAddKeyVal keyvalq (tokenKey ++ [0]) 5 val valSz =
      (copyString val valSz).map fun value => keyvalq ++ [⟨tokenKey.map some ++ [some 0], 0, value, 0⟩] := by
  have named : copyString (tokenKey ++ [0]) 5 = some (tokenKey.map some ++ [some 0]) := rfl
  rw [kacheAddKeyVal_copies, named, Option.bind_some]

theorem tokenFits_none (behind : List UInt8) {opts : EcOpts} (found : ecOptsGet opts .token = none) :
    TokenFits behind opts := by
  intro o there
  cases found.symm.trans there

theorem tokenFits_some (behind : List UInt8) {opts : EcOpts} {o : EcOpt} (found : ecOptsGet opts .token = some o) :
    TokenFits behind opts ↔ 0 ∉ o.value ∧ 0 ∈ behind := by
  unfold TokenFits
  simp [found]

variable (order : ByteOrder) (behind : List UInt8) (opts : EcOpts) (rep : KacheRep)

/-- The round of the Token. -/
theorem storeOption_token : storeOption order behind opts rep .token =
    if TokenFits behind opts then .ok {rep with keyvalq := withToken behind opts rep.keyvalq} else .error .overrun := by
  cases found : ecOptsGet opts .token with
  | none =>
      have absent : ecOptsGetToken opts = none := congrArg (Option.bind · EcOpt.v) found
      rw [if_pos (tokenFits_none behind found), storeOption, absent, withToken, found]
  | some o =>
      have token : ecOptsGetToken opts = some o.value := ecOptsGet_held found (Or.inl rfl)
      by_cases fits : 0 ∉ o.value ∧ 0 ∈ behind
      · obtain ⟨value, copied, _⟩ := copyString_nonzero fits.1 fits.2
        rw [if_pos ((tokenFits_some behind found).mpr fits), storeOption, token]
        dsimp only
        rw [kacheAddKeyVal_token, copied, withToken, found]
        dsimp only
        rw [copied]
        rfl
      · rw [if_neg (mt (tokenFits_some behind found).mp fits), storeOption, token]
        dsimp only
        rw [kacheAddKeyVal_token, copyString_unfit fits]
        rfl

/-- The options are stored exactly when the Token fits. -/
theorem kacheStoreEcOptionsToRep_eq : kacheStoreEcOptionsToRep order behind opts rep =
    if TokenFits behind opts then .ok (optioned order behind opts rep) else .error .overrun := by
  have rounds : kacheStoreEcOptionsToRep order behind opts rep =
      [EcOptSym.maxAge, .etag, .token].foldlM (storeOption order behind opts) rep := rfl
  let aged : KacheRep := {rep with maxAge := (ecOptsGetMaxAge order opts).getD rep.maxAge}
  let tagged : KacheRep :=
    {aged with etag := match ecOptsGet opts .etag with
      | none => rep.etag
      | some et => .holds et.value}
  have first : storeOption order behind opts rep .maxAge = .ok aged := rfl
  have second : storeOption order behind opts aged .etag = .ok tagged := by
    change _ = Except.ok {aged with etag := _}
    cases found : ecOptsGet opts .etag with
    | none =>
        have absent : ecOptsGetEtagNth opts 0 = none := congrArg (Option.bind · EcOpt.v) found
        rw [storeOption, absent]
    | some et =>
        have held : ecOptsGetEtagNth opts 0 = some et.value := ecOptsGet_held found (Or.inl rfl)
        rw [storeOption, held]
  have third := storeOption_token order behind opts tagged
  simp only [List.foldlM_cons, List.foldlM_nil, bind_pure, first] at rounds
  rw [rounds]
  change (storeOption order behind opts aged .etag >>= fun ready => storeOption order behind opts ready .token) = _
  rw [second]
  exact third

/-- The Token is stored as it is when it has no zero byte and one can be read after it. -/
theorem tokenStored_iff {o : EcOpt} (found : ecOptsGet opts .token = some o) :
    TokenStored order behind opts rep o.value ↔ 0 ∉ o.value ∧ 0 ∈ behind := by
  have fits := tokenFits_some behind found
  unfold TokenStored
  rw [kacheStoreEcOptionsToRep_eq, ← fits]
  constructor
  · rintro ⟨result, keyval, ran, _⟩
    by_contra overrun
    rw [if_neg overrun] at ran
    cases ran
  · intro stored
    obtain ⟨value, copied, whole⟩ := copyString_nonzero (fits.mp stored).1 (fits.mp stored).2
    refine ⟨optioned order behind opts rep, ⟨_, 0, value, 0⟩, if_pos stored, ?_, rfl, whole⟩
    unfold optioned withToken
    dsimp only
    rw [found]
    dsimp only
    rw [copied]

end Results

/-- A set with a Token. -/
def tokenOpts (token : List UInt8) : EcOpts := (ecOptsAddToken ecOptsInit token).1

theorem tokenStored_three : TokenStored .little [0] (tokenOpts [1, 2, 3]) kacheInitKacheRep [1, 2, 3] := by
  have found : ecOptsGet (tokenOpts [1, 2, 3]) .token =
      some ⟨.token, 3, some [1, 2, 3], by decide, by decide, rfl, by decide, by decide⟩ := rfl
  exact (tokenStored_iff .little [0] _ _ found).mpr ⟨by decide, by decide⟩

/-- The string of this Token has one byte and two bytes of room, into which three bytes are copied. -/
theorem zeroToken_overrun :
    (ecOptsGet (tokenOpts [1, 0, 2]) .token).map EcOpt.value = some [1, 0, 2] ∧
      kacheStoreEcOptionsToRep .little [0] (tokenOpts [1, 0, 2]) kacheInitKacheRep = .error .overrun ∧
      ¬ TokenStored .little [0] (tokenOpts [1, 0, 2]) kacheInitKacheRep [1, 0, 2] := by
  have overrun : kacheStoreEcOptionsToRep .little [0] (tokenOpts [1, 0, 2]) kacheInitKacheRep =
      .error .overrun := rfl
  refine ⟨rfl, overrun, ?_⟩
  rintro ⟨result, keyval, ran, _⟩
  rw [overrun] at ran
  cases ran

end Webthings.Kache
