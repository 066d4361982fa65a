import Webthings.Apps.OptionMapping
import Webthings.Evcoap.Caching
import Mathlib.Algebra.Order.BigOperators.Group.List

namespace Webthings.Apps
open Webthings.Evcoap

def ecBadGateway : EcRc := 162

def ecGatewayTimeout : EcRc := 164

section Backward

variable (order : ByteOrder) (src : EcOpts)

/-- The calls of the cases of the backward switch. -/
def backwardOption (sym : EcOptSym) : List AddCall :=
  match sym with
  | .locationPath => ((ecOptsGetLocationPath src).map AddCall.locationPath).toList
  | .locationQuery => ((ecOptsGetLocationQuery src).map AddCall.locationQuery).toList
  | .token => ((ecOptsGetToken src).map AddCall.token).toList
  | sym => mapOption order src sym

/-- The calls that the loop makes on the set of the response; one that fails is only logged. -/
def mapOptionsBackward : List AddCall := mappedSyms.flatMap (backwardOption order src)

end Backward

/-- The response code for the final state of the client. -/
def proxyResCode (cli : EcClient) : EcRc :=
  match cli.state with
  | .reqDone => cli.flow.respCode
  | .appTimeout => ecGatewayTimeout
  | _ => ecBadGateway

section Response

variable (platform : Platform) (env : SendEnv) (cli : EcClient) (w : EcWork)

/-- What the callback of the client puts into the pending server; the code is -1 on its error path. -/
def proxyCollect : EcWork × Int :=
  let origin := ecClientGetResponsePdu cli
  if cli.state = .reqDone ∧ (origin.isNone ∨ w.srv.res.isNone) then (w, -1)
  else
    let calls := if cli.state = .reqDone then (origin.map fun res => mapOptionsBackward platform.order res.opts).getD []
      else []
    let mapped := applyCalls platform (calls.map SrvApi.add) w
    let payload := (origin.map fun res => res.payload).getD []
    if payload ≠ [] ∧ w.srv.res.isNone then (mapped, -1)
    else
      let loaded := if payload = [] then mapped else (SrvApi.setPayload payload).apply platform mapped
      ((SrvApi.setCode (proxyResCode cli)).apply platform loaded,
        (ecFlowSetRespCode loaded.srv.flow (proxyResCode cli)).2)

/-- The callback of the client towards the origin wakes the server up when it has collected everything. -/
def proxyRes : Except EcFault (EcWork × Int) :=
  let collected := proxyCollect platform cli w
  if collected.2 ≠ 0 then .ok (collected.1, -1) else ecServerWakeup platform env [] collected.1

/-- The response that a server which is woken up sends. -/
def sentResponse : Option EcPdu :=
  let responded := ecServerSendResp platform env .response w
  if responded.2 = 0 then responded.1.srv.res else none

end Response

/-- The options that a proxy returns. -/
def returnedSyms : List EcOptSym :=
  [.contentType, .maxAge, .etag, .locationPath, .locationQuery, .observe, .block2, .block1]

/-- What a response has to be returned with. -/
def returnables (order : ByteOrder) (src : EcOpts) : List Carried :=
  (src.bundle.list.filter fun o => o.sym ∈ returnedSyms).map (EcOpt.carried order)

/-- The Token of the client's request, if it has one. -/
def clientToken (token : List UInt8) : List Carried := if token = [] then [] else [⟨.token, .bytes token⟩]

/-- A set has the options of the origin's response that have to be returned, the segments of its location in order, and
the client's Token. -/
def ReturnsExactly (order : ByteOrder) (src : EcOpts) (token : List UInt8) (opts : EcOpts) : Prop :=
  (opts.carried order).Perm (returnables order src ++ clientToken token) ∧
    ∀ sym ∈ [EcOptSym.locationPath, .locationQuery],
      (opts.occurrences sym).map (EcOpt.carried order) = (src.occurrences sym).map (EcOpt.carried order)

/-- A client whose request the origin has answered. -/
structure OriginAnswers (cli : EcClient) (origin : EcPdu) : Prop where
  done : cli.state = .reqDone
  response : ecClientGetResponsePdu cli = some origin
  decoded : origin.opts.bundle.list.length ≤ ecProtoMaxOptions
  code : ecIsRespCode cli.flow.respCode

/-- A server that waits for the answer of the origin, with a response that is still empty and a socket that takes it. -/
structure AwaitsOrigin (w : EcWork) (env : SendEnv) : Prop where
  live : w.srv.freed = false
  pending : w.srv.state = .ackSent
  response : ∃ res, w.srv.res = some res ∧ res.opts = ecOptsInit
  token : w.srv.flow.token.length ≤ ecFlowTokenMax
  model : w.srv.flow.conn.isConfirmable.isSome
  socket : w.srv.flow.conn.socket ≠ -1
  peer : (ecNetSocklen w.srv.flow.conn.peer).isSome
  taken : env.sent = true

/-- The response that the proxy finally sends carries what it should. -/
def RepliesExactly (platform : Platform) (env : SendEnv) (cli : EcClient) (origin : EcPdu) (w : EcWork) : Prop :=
  (proxyCollect platform cli w).2 = 0 ∧ ∃ pdu, sentResponse platform env (proxyCollect platform cli w).1 = some pdu ∧
    (∃ w' rc, proxyRes platform env cli w = .ok (w', rc) ∧
      w'.srv.sent = w.srv.sent ++ [⟨.response, pdu.datagram w.srv.flow.conn⟩]) ∧
    ReturnsExactly platform.order origin.opts w.srv.flow.token pdu.opts

/-- One to 270 bytes without a NUL. -/
def Text (o : EcOpt) : Prop := ShortText o.value ∧ Evcoap.cString o.value = o.value

/-- The options of a symbol that are returned as they are. -/
def ReturnedWhole (order : ByteOrder) (sym : EcOptSym) (os : List EcOpt) : Prop :=
  match sym with
  | .locationPath | .locationQuery => Sole os Text
  | .observe => Sole os fun o => o.l ≤ 8 ∧ o.integer order = 0
  | sym => MappedWhole order sym os

/-- When the response carries what it should: no Token from the origin is mapped, and there is a slot for the client's. -/
structure ReturnsWhole (order : ByteOrder) (src : EcOpts) (token : List UInt8) : Prop where
  whole : ∀ sym ∈ returnedSyms, ReturnedWhole order sym (src.occurrences sym)
  untokened : ∀ o, ecOptsGet src .token = some o → ¬ Short o
  room : token ≠ [] → (returnables order src).length < ecProtoMaxOptions

section Offers

variable {platform : Platform} {src : EcOpts}

/-- What a round offers to the response. -/
def backwardOffer (order : ByteOrder) (src : EcOpts) (sym : EcOptSym) : List Carried :=
  let os := src.occurrences sym
  match sym with
  | .locationPath | .locationQuery =>
      (firstTaken (fun o => ShortText o.value) os).map fun o => ⟨o.sym, .bytes (Evcoap.cString o.value)⟩
  | .token => (firstTaken Short os).map (EcOpt.carried order)
  | sym => mappedOffer order src sym

theorem backwardOffer_shared (order : ByteOrder) (src : EcOpts) {sym : EcOptSym}
    (other : sym ∉ [EcOptSym.locationPath, .locationQuery, .token]) :
    backwardOffer order src sym = mappedOffer order src sym ∧ backwardOption order src sym = mapOption order src sym := by
  cases sym <;> first | exact ⟨rfl, rfl⟩ | exact absurd (by decide) other

theorem location_offers {sym : EcOptSym} (type : ecOptSym2type sym = .string) {call : List UInt8 → AddCall}
    (adds : ∀ s opts, (call s).apply platform.order platform.isAbsolute opts = ecOptsAddShortString opts sym s) :
    Offers platform.order (performCalls platform ((ecOptsGetString src sym).map call).toList)
      ((firstTaken (fun o => ShortText o.value) (src.occurrences sym)).map fun o =>
        ⟨o.sym, .bytes (Evcoap.cString o.value)⟩) := by
  unfold ecOptsGetString
  rw [if_neg (not_not_intro type)]
  obtain ⟨listed, none⟩ | ⟨o, rest, listed, held, symbol, _⟩ := src.first_held (Or.inr type)
  · rw [listed, none]
    exact Offers.nothing
  · have offers := ecOptsAddShortString_offers platform.order type o.value
    have single : performCalls platform ((some o.value).map call).toList =
        fun opts => (ecOptsAddShortString opts sym o.value).1 := by
      funext opts
      exact congrArg Prod.fst (adds o.value opts)
    rw [listed, held, firstTaken, single]
    by_cases short : ShortText o.value
    · rw [if_pos short] at offers ⊢
      rw [List.map_singleton, symbol]
      exact offers
    · rw [if_neg short] at offers ⊢
      exact offers

theorem backwardToken_offers :
    Offers platform.order (performCalls platform (backwardOption platform.order src .token))
      (backwardOffer platform.order src .token) := by
  unfold backwardOption backwardOffer ecOptsGetToken
  dsimp only
  obtain ⟨listed, none⟩ | ⟨o, rest, listed, held, symbol, length⟩ := @EcOpts.first_held src .token (Or.inl rfl)
  · rw [listed, none]
    exact Offers.nothing
  · have offers := ecOptsAddShortOpaque_offers platform.order .token (by decide) o.value
    rw [length] at offers
    rw [listed, held, firstTaken]
    by_cases short : Short o
    · rw [if_neg (by have := short.1; have := short.2; omega)] at offers
      rw [if_pos short, List.map_singleton, o.carried_bytes platform.order (by rw [symbol]; decide), symbol]
      exact offers
    · rw [if_pos (by by_contra bounds; exact short ⟨by omega, by omega⟩)] at offers
      rw [if_neg short]
      exact offers

/-- All the rounds together offer what they offer one after the other. -/
theorem mapOptionsBackward_offers :
    Offers platform.order (performCalls platform (mapOptionsBackward platform.order src))
      (mappedSyms.flatMap (backwardOffer platform.order src)) := by
  refine rounds_offer (fun sym => ?_) mappedSyms
  cases sym with
  | locationPath => exact location_offers (by decide) fun _ _ => rfl
  | locationQuery => exact location_offers (by decide) fun _ _ => rfl
  | token => exact backwardToken_offers
  | _ =>
      rw [(backwardOffer_shared platform.order src (by decide)).1, (backwardOffer_shared platform.order src (by decide)).2]
      exact mapOption_offers _

end Offers

section Exactness

variable {order : ByteOrder} {src : EcOpts}

theorem backwardOffer_sym {sym : EcOptSym} : ∀ c ∈ backwardOffer order src sym, c.sym = sym := by
  have told {taken : EcOpt → Prop} [DecidablePred taken] {tell : EcOpt → Carried} (faithful : ∀ o, (tell o).sym = o.sym) :
      ∀ c ∈ (firstTaken taken (src.occurrences sym)).map tell, c.sym = sym := fun c member => by
    obtain ⟨o, there, rfl⟩ := List.mem_map.mp member
    exact (faithful o).trans (EcOpts.occurrence_sym (firstTaken_mem there))
  cases sym with
  | locationPath => exact told fun _ => rfl
  | locationQuery => exact told fun _ => rfl
  | token => exact told fun _ => rfl
  | _ =>
      rw [(backwardOffer_shared order src (by decide)).1]
      exact mappedOffer_sym

/-- A round offers no more options than there are of its symbol, except for the one of Max-Age. -/
theorem backwardOffer_length {sym : EcOptSym} (aged : sym = .maxAge → src.occurrences .maxAge ≠ []) :
    (backwardOffer order src sym).length ≤ (src.occurrences sym).length := by
  cases sym with
  | locationPath => exact (List.length_map _).trans_le (firstTaken_length _ _)
  | locationQuery => exact (List.length_map _).trans_le (firstTaken_length _ _)
  | token => exact (List.length_map _).trans_le (firstTaken_length _ _)
  | _ =>
      rw [(backwardOffer_shared order src (by decide)).1]
      exact mappedOffer_length aged

theorem locationOffer_perm_iff {sym : EcOptSym} (type : ecOptSym2type sym = .string) :
    ((firstTaken (fun o => ShortText o.value) (src.occurrences sym)).map fun o =>
        (⟨o.sym, .bytes (Evcoap.cString o.value)⟩ : Carried)).Perm ((src.occurrences sym).map (EcOpt.carried order)) ↔
      Sole (src.occurrences sym) Text := by
  refine (firstTold_perm_iff _ _ _ _).trans (Sole.congr fun o member => and_congr_right fun _ => ?_)
  have symbol := EcOpts.occurrence_sym member
  rw [o.carried_bytes order (by rw [symbol, type]; decide)]
  simp

/-- A round returns all the options of its symbol exactly under its condition. -/
theorem backwardOffer_perm_iff {sym : EcOptSym} (returned : sym ∈ returnedSyms) :
    (backwardOffer order src sym).Perm ((src.occurrences sym).map (EcOpt.carried order)) ↔
      ReturnedWhole order sym (src.occurrences sym) := by
  cases sym with
  | locationPath => exact locationOffer_perm_iff (by decide)
  | locationQuery => exact locationOffer_perm_iff (by decide)
  | token => exact absurd returned (by decide)
  | observe =>
      refine (firstTold_perm_iff _ _ _ _).trans (Sole.congr fun o member => ?_)
      have symbol : o.sym = .observe := EcOpts.occurrence_sym member
      rw [o.carried_uint order (by rw [symbol]; decide), symbol]
      constructor
      · intro both
        exact ⟨both.1.1, by simpa using both.2.symm⟩
      · intro zero
        exact ⟨⟨zero.1, by rw [zero.2]; decide⟩, by rw [zero.2]⟩
  | _ =>
      rw [(backwardOffer_shared order src (by decide)).1]
      exact mappedOffer_perm_iff (by decide)

end Exactness

section Rounds

variable {order : ByteOrder} {src : EcOpts}

/-- The rounds ahead of the one of Token, and behind it. -/
def aheadSyms : List EcOptSym := [.contentType, .maxAge, .etag, .locationPath, .locationQuery, .observe]

def behindSyms : List EcOptSym := [.block2, .block1]

/-- What the loop offers to the response. -/
def offeredBackward (order : ByteOrder) (src : EcOpts) : List Carried :=
  (aheadSyms ++ .token :: behindSyms).flatMap (backwardOffer order src)

theorem mappedSyms_returned : mappedSyms.flatMap (backwardOffer order src) = offeredBackward order src := by
  have rounds : mappedSyms = [.contentType, .maxAge, .proxyUri, .etag, .uriHost, .locationPath, .uriPort, .locationQuery,
    .uriPath, .observe, .token, .accept, .ifMatch, .uriQuery, .block2, .block1, .ifNoneMatch, .publish] := by decide
  have skipped (sym : EcOptSym) (skips : sym ∈ [EcOptSym.proxyUri, .uriHost, .uriPort, .uriPath, .accept, .ifMatch,
      .uriQuery, .ifNoneMatch, .publish]) : backwardOffer order src sym = [] := by
    cases sym <;> first | rfl | exact absurd skips (by decide)
  unfold offeredBackward aheadSyms behindSyms
  rw [rounds]
  simp only [List.cons_append, List.flatMap_cons, List.flatMap_nil, skipped .proxyUri (by decide),
    skipped .uriHost (by decide), skipped .uriPort (by decide), skipped .uriPath (by decide), skipped .accept (by decide),
    skipped .ifMatch (by decide), skipped .uriQuery (by decide), skipped .ifNoneMatch (by decide),
    skipped .publish (by decide), List.nil_append]

theorem offeredBackward_part (sym : EcOptSym) :
    ((offeredBackward order src).filter fun c => c.sym = sym) =
      if sym ∈ aheadSyms ++ .token :: behindSyms then backwardOffer order src sym else [] :=
  rounds_part Carried.sym (by decide) (fun _ _ => backwardOffer_sym) sym

theorem returnables_part (sym : EcOptSym) :
    ((returnables order src).filter fun c => c.sym = sym) =
      if sym ∈ returnedSyms then (src.occurrences sym).map (EcOpt.carried order) else [] :=
  told_part (fun _ => rfl) returnedSyms src sym

theorem returnables_length : (returnables order src).length ≤ src.bundle.list.length :=
  (List.length_map _).trans_le (List.length_filter_le _ _)

theorem tokenless_iff : backwardOffer order src .token = [] ↔ ∀ o, ecOptsGet src .token = some o → ¬ Short o := by
  rw [ecOptsGet_head]
  change (firstTaken Short (src.occurrences .token)).map _ = [] ↔ _
  rw [List.map_eq_nil_iff]
  cases src.occurrences .token with
  | nil => exact iff_of_true rfl fun o impossible => (by cases impossible)
  | cons o rest =>
      rw [firstTaken, List.head?_cons]
      by_cases short : Short o
      · rw [if_pos short]
        exact iff_of_false (List.cons_ne_nil _ _) fun never => never o rfl short
      · rw [if_neg short]
        exact iff_of_true rfl fun x same => Option.some.inj same ▸ short

/-- A Max-Age that is made up always finds a slot. -/
theorem aged_of_kept (same : ((offeredBackward order src).take ecProtoMaxOptions).Perm (returnables order src)) :
    src.occurrences .maxAge ≠ [] := by
  intro absent
  have hour : backwardOffer order src .maxAge = [⟨.maxAge, .uint 3600⟩] := by
    change maxAgeOffer order (src.occurrences .maxAge) = _
    rw [absent, maxAgeOffer]
  have one : (backwardOffer order src .contentType).length ≤ 1 := (List.length_map _).trans_le (firstTaken_one _ _)
  have invented : (⟨.maxAge, .uint 3600⟩ : Carried) ∈ (offeredBackward order src).take ecProtoMaxOptions := by
    unfold offeredBackward aheadSyms
    rw [List.cons_append, List.cons_append, List.flatMap_cons, List.flatMap_cons, hour, List.singleton_append]
    exact mem_take_behind (Nat.lt_of_le_of_lt one (by decide))
  have part := same.filter fun c => c.sym = .maxAge
  rw [returnables_part, if_pos (by decide), absent, List.map_nil, List.perm_nil] at part
  exact List.not_mem_nil (part ▸ List.mem_filter.mpr ⟨invented, rfl⟩)

/-- A Token that is mapped always finds a slot, since those ahead of it and the Token itself are options of the origin. -/
theorem tokenless_of_kept (decoded : src.bundle.list.length ≤ ecProtoMaxOptions)
    (same : ((offeredBackward order src).take ecProtoMaxOptions).Perm (returnables order src)) :
    backwardOffer order src .token = [] := by
  cases offered : backwardOffer order src .token with
  | nil => rfl
  | cons c more =>
      have aged := aged_of_kept same
      have symbol := @backwardOffer_sym order src .token c (by rw [offered]; exact List.mem_cons_self)
      have there := @backwardOffer_length order src .token fun other => (by cases other)
      have among := (@occurrences_perm (aheadSyms ++ [.token]) (by decide) src).length_eq
      have slots := among.trans_le ((List.length_filter_le _ _).trans decoded)
      have ahead : (aheadSyms.flatMap (backwardOffer order src)).length < ecProtoMaxOptions := by
        have bounded (sym : EcOptSym) := @backwardOffer_length order src sym fun _ => aged
        have first := bounded .contentType
        have second := bounded .maxAge
        have third := bounded .etag
        have fourth := bounded .locationPath
        have fifth := bounded .locationQuery
        have sixth := bounded .observe
        rw [offered] at there
        simp only [aheadSyms, List.cons_append, List.nil_append, List.flatMap_cons, List.flatMap_nil, List.length_append,
          List.length_nil, List.length_cons] at slots there ⊢
        omega
      have mapped : c ∈ (offeredBackward order src).take ecProtoMaxOptions := by
        unfold offeredBackward
        rw [List.flatMap_append, List.flatMap_cons, offered, List.cons_append]
        exact mem_take_behind ahead
      have part := same.filter fun c => c.sym = .token
      rw [returnables_part, if_neg (by decide), List.perm_nil] at part
      exact absurd (List.mem_filter.mpr ⟨mapped, decide_eq_true symbol⟩) (part ▸ List.not_mem_nil)

/-- What the slots take of what is offered is what has to be returned exactly under the condition on the options of the
origin. -/
theorem offeredBackward_taken_iff (decoded : src.bundle.list.length ≤ ecProtoMaxOptions) :
    ((offeredBackward order src).take ecProtoMaxOptions).Perm (returnables order src) ↔
      (∀ sym ∈ returnedSyms, ReturnedWhole order sym (src.occurrences sym)) ∧
        ∀ o, ecOptsGet src .token = some o → ¬ Short o := by
  have round (sym : EcOptSym) (returned : sym ∈ returnedSyms) : sym ∈ aheadSyms ++ .token :: behindSyms := by
    revert returned
    cases sym <;> decide
  constructor
  · intro same
    have aged := aged_of_kept same
    refine ⟨fun sym returned => ?_, tokenless_iff.mp (tokenless_of_kept decoded same)⟩
    have offered := @offeredBackward_part order src sym
    have wanted := @returnables_part order src sym
    rw [if_pos (round sym returned)] at offered
    rw [if_pos returned] at wanted
    have kept := part_kept Carried.sym (k := sym) (List.take_sublist _ _) same (by
      rw [offered, wanted, List.length_map]
      exact backwardOffer_length fun _ => aged)
    have part := same.filter fun c => c.sym = sym
    rw [kept, offered, wanted] at part
    exact (backwardOffer_perm_iff returned).mp part
  · rintro ⟨whole, untokened⟩
    have exact' : (offeredBackward order src).Perm (returnables order src) := by
      refine (perm_iff_parts Carried.sym).mpr fun sym => ?_
      rw [offeredBackward_part, returnables_part]
      by_cases returned : sym ∈ returnedSyms
      · rw [if_pos (round sym returned), if_pos returned]
        exact (backwardOffer_perm_iff returned).mpr (whole sym returned)
      · rw [if_neg returned, List.perm_nil]
        split
        · rename_i member
          have token : sym = .token := by
            revert returned member
            cases sym <;> decide
          rw [token]
          exact tokenless_iff.mpr untokened
        · rfl
    rwa [List.take_of_length_le (exact'.length_eq.trans_le (returnables_length.trans decoded))]

end Rounds

section Room

variable {order : ByteOrder} {src : EcOpts}

/-- The bytes that the option of what is told takes at most, without fenceposts. -/
def carriedWeight (c : Carried) : Nat :=
  match c.value with
  | .uint _ => 2 + ecCoapOptLenMax
  | .bytes v => 2 + v.length

theorem carriedWeight_le (o : EcOpt) : carriedWeight (o.carried order) ≤ 2 + ecCoapOptLenMax := by
  have inside := o.value_length_le
  have fits := o.fits
  unfold carriedWeight EcOpt.carried
  dsimp only
  split
  · exact Nat.le_refl _
  · rename_i v same
    split at same
    · cases same
    · cases same
      omega

theorem optWeight_le {o : EcOpt} (other : o.sym ≠ .ifNoneMatch) : optWeight o ≤ carriedWeight (o.carried order) := by
  have weight : optWeight o ≤ 2 + o.l := by
    unfold optWeight
    split <;> omega
  by_cases uint : ecOptSym2type o.sym = .uint
  · rw [o.carried_uint order uint]
    exact weight.trans (Nat.add_le_add_left o.fits 2)
  · rw [o.carried_bytes order uint]
    change _ ≤ 2 + o.value.length
    rw [EcOpt.value_whole other]
    exact weight

/-- The options of each symbol but ETag are one at most, and ETags are short. -/
theorem returned_weight (whole : ∀ sym ∈ returnedSyms, ReturnedWhole order sym (src.occurrences sym))
    {sym : EcOptSym} (returned : sym ∈ returnedSyms) :
    (((src.occurrences sym).map (EcOpt.carried order)).map carriedWeight).sum ≤
      if sym = .etag then 10 * (src.occurrences .etag).length else 2 + ecCoapOptLenMax := by
  by_cases tag : sym = .etag
  · subst tag
    have short : ∀ o ∈ src.occurrences .etag, Short o := whole .etag (by decide)
    have sum := List.sum_le_card_nsmul (((src.occurrences .etag).map (EcOpt.carried order)).map carriedWeight) 10
      fun weight member => by
        obtain ⟨c, told, rfl⟩ := List.mem_map.mp member
        obtain ⟨o, there, rfl⟩ := List.mem_map.mp told
        have symbol : o.sym = .etag := EcOpts.occurrence_sym there
        have length := (EcOpt.held (o := o) (Or.inl (by rw [symbol]; decide))).2
        have bound := (short o there).2
        rw [o.carried_bytes order (by rw [symbol]; decide)]
        change 2 + o.value.length ≤ 10
        omega
    rw [if_pos rfl]
    rw [List.length_map, List.length_map, Nat.nsmul_eq_mul, Nat.mul_comm] at sum
    exact sum
  · have single : src.occurrences sym = [] ∨ ∃ o, src.occurrences sym = [o] := by
      have rule := whole sym returned
      cases sym with
      | contentType => exact rule.imp_right fun ⟨o, alone, _⟩ => ⟨o, alone⟩
      | maxAge => exact Or.inr (rule.imp fun o aged => aged.1)
      | locationPath => exact rule.imp_right fun ⟨o, alone, _⟩ => ⟨o, alone⟩
      | locationQuery => exact rule.imp_right fun ⟨o, alone, _⟩ => ⟨o, alone⟩
      | observe => exact rule.imp_right fun ⟨o, alone, _⟩ => ⟨o, alone⟩
      | block2 => exact rule.imp_right fun ⟨o, alone, _⟩ => ⟨o, alone⟩
      | block1 => exact rule.imp_right fun ⟨o, alone, _⟩ => ⟨o, alone⟩
      | etag => exact absurd rfl tag
      | _ => exact absurd returned (by decide)
    rw [if_neg tag]
    rcases single with none | ⟨o, alone⟩
    · rw [none]
      exact Nat.zero_le _
    · rw [alone]
      exact carriedWeight_le o

/-- Options that are returned as they are fit the buffer, together with a token. -/
theorem returned_fits (decoded : src.bundle.list.length ≤ ecProtoMaxOptions)
    (whole : ∀ sym ∈ returnedSyms, ReturnedWhole order sym (src.occurrences sym)) {token : List UInt8}
    (short : token.length ≤ ecFlowTokenMax) {opts : EcOpts}
    (same : (opts.carried order).Perm (returnables order src ++ clientToken token)) :
    encodedSize 0 opts.bundle.list ≤ ecOptsMaxLen := by
  have fences := (fencepostCount_le 0 opts.bundle.list opts.bundle.ascending).1
  have inside : ∀ o ∈ opts.bundle.list, o.sym ≠ .ifNoneMatch := by
    intro o member other
    have told := same.mem_iff.mp (List.mem_map_of_mem member)
    rcases List.mem_append.mp told with mapped | own
    · obtain ⟨x, there, equal⟩ := List.mem_map.mp mapped
      have symbol : x.sym = .ifNoneMatch := (congrArg Carried.sym equal).trans other
      have returned : x.sym ∈ returnedSyms := of_decide_eq_true (List.mem_filter.mp there).2
      rw [symbol] at returned
      exact absurd returned (by decide)
    · unfold clientToken at own
      split at own
      · cases own
      · have token : EcOptSym.ifNoneMatch = .token :=
          other.symm.trans (congrArg Carried.sym (List.mem_singleton.mp own))
        cases token
  have weights : (opts.bundle.list.map optWeight).sum ≤ ((opts.carried order).map carriedWeight).sum := by
    unfold EcOpts.carried
    rw [List.map_map]
    exact List.sum_le_sum fun o member => optWeight_le (inside o member)
  have told : (returnables order src).Perm ((returnedSyms.flatMap src.occurrences).map (EcOpt.carried order)) :=
    ((occurrences_perm (by decide) src).map _).symm
  have own : ((clientToken token).map carriedWeight).sum ≤ 10 := by
    unfold clientToken
    split
    · exact Nat.zero_le 10
    · change 2 + token.length + 0 ≤ 10
      simp only [ecFlowTokenMax] at short
      omega
  have tags : (src.occurrences .etag).length ≤ ecProtoMaxOptions := (List.length_filter_le _ _).trans decoded
  have bounded (sym : EcOptSym) (returned : sym ∈ returnedSyms) := returned_weight whole returned
  have first := bounded .contentType (by decide)
  have second := bounded .maxAge (by decide)
  have third := bounded .etag (by decide)
  have fourth := bounded .locationPath (by decide)
  have fifth := bounded .locationQuery (by decide)
  have sixth := bounded .observe (by decide)
  have seventh := bounded .block2 (by decide)
  have eighth := bounded .block1 (by decide)
  have total : (opts.bundle.list.map optWeight).sum ≤ 7 * (2 + ecCoapOptLenMax) + 10 * ecProtoMaxOptions + 10 := by
    rw [(same.map carriedWeight).sum_eq, List.map_append, List.sum_append, (told.map carriedWeight).sum_eq] at weights
    simp only [returnedSyms, List.flatMap_cons, List.flatMap_nil, List.map_append, List.sum_append, List.map_nil,
      List.sum_nil] at weights
    simp only [reduceCtorEq, if_false, if_true] at first second third fourth fifth sixth seventh eighth
    omega
  rw [encodedSize_weight]
  simp only [ecOptsMaxLen, ecCoapMaxOptions, ecCoapOptLenMax, ecProtoMaxOptions] at total ⊢
  omega

/-- The Token of the client is mirrored as long as there is a slot, as one more option. -/
theorem mirrorToken_cases (order : ByteOrder) (opts : EcOpts) {token : List UInt8} (short : token.length ≤ ecFlowTokenMax) :
    ((mirrorToken opts token).2 = 0 ↔ (token ≠ [] → opts.noptions < ecProtoMaxOptions)) ∧
      ((mirrorToken opts token).2 = 0 →
        ((mirrorToken opts token).1.carried order).Perm (opts.carried order ++ clientToken token)) := by
  unfold mirrorToken clientToken
  by_cases none : token = []
  · rw [if_neg (not_not_intro none), if_pos none, List.append_nil]
    exact ⟨iff_of_true rfl fun some => absurd none some, fun _ => List.Perm.refl _⟩
  · have inside : ¬ (token.length = 0 ∨ token.length > 8) := by
      rintro (empty | long)
      · exact none (List.length_eq_zero_iff.mp empty)
      · exact absurd short (Nat.not_le.mpr long)
    obtain ⟨o, carried, slot⟩ := ecOptsAddShortOpaque_slot order .token (by decide) inside
    have added := slot opts
    change ecOptsAddToken opts token = _ at added
    rw [if_pos none, if_neg none, added]
    by_cases room : opts.noptions < ecProtoMaxOptions
    · rw [if_pos room]
      refine ⟨iff_of_true rfl fun _ => room, fun _ => ?_⟩
      unfold EcOpts.carried
      refine ((opts.plus_perm o).map _).trans ?_
      rw [List.map_cons, carried]
      exact (List.perm_append_singleton _ _).symm
    · rw [if_neg room]
      have refused : (-1 : Int) ≠ 0 := by decide
      exact ⟨iff_of_false refused fun always => room (always none), fun impossible => absurd impossible refused⟩

/-- The part of a symbol among what a set tells. -/
theorem carried_part (opts : EcOpts) (sym : EcOptSym) :
    ((opts.carried order).filter fun c => c.sym = sym) = (opts.occurrences sym).map (EcOpt.carried order) := by
  unfold EcOpts.carried
  rw [List.filter_map]
  rfl

/-- A response with the mapped options encodes and carries what it should exactly under the condition. -/
theorem mapped_returns_iff {platform : Platform} (decoded : src.bundle.list.length ≤ ecProtoMaxOptions)
    {token : List UInt8} (short : token.length ≤ ecFlowTokenMax) :
    ((performCalls platform (mapOptionsBackward platform.order src) ecOptsInit).Encodes token ∧
        ReturnsExactly platform.order src token
          (mirrorToken (performCalls platform (mapOptionsBackward platform.order src) ecOptsInit) token).1) ↔
      ReturnsWhole platform.order src token := by
  have offers := @mapOptionsBackward_offers platform src
  rw [mappedSyms_returned] at offers
  have filled := offers.perm ecOptsInit
  have count := offers.noptions ecOptsInit
  generalize performCalls platform (mapOptionsBackward platform.order src) ecOptsInit = opts at filled count ⊢
  change (opts.carried platform.order).Perm ((offeredBackward platform.order src).take ecProtoMaxOptions ++ []) at filled
  change opts.noptions = 0 + min _ ecProtoMaxOptions at count
  rw [List.append_nil] at filled
  obtain ⟨mirrors, adds⟩ := mirrorToken_cases platform.order opts short
  have slots : ((offeredBackward platform.order src).take ecProtoMaxOptions).Perm (returnables platform.order src) →
      opts.noptions = (returnables platform.order src).length := by
    intro same
    rw [← same.length_eq, List.length_take, count, Nat.zero_add, Nat.min_comm]
  constructor
  · rintro ⟨⟨mirrored, _⟩, exactly, _⟩
    have same : ((offeredBackward platform.order src).take ecProtoMaxOptions).Perm (returnables platform.order src) :=
      filled.symm.trans ((List.perm_append_right_iff _).mp ((adds mirrored).symm.trans exactly))
    obtain ⟨whole, untokened⟩ := (offeredBackward_taken_iff decoded).mp same
    exact ⟨whole, untokened, fun some => slots same ▸ mirrors.mp mirrored some⟩
  · intro returns
    have same := (offeredBackward_taken_iff decoded).mpr ⟨returns.whole, returns.untokened⟩
    have mirrored := mirrors.mpr fun some => (slots same).symm ▸ returns.room some
    have exactly := (adds mirrored).trans ((filled.trans same).append_right (clientToken token))
    refine ⟨⟨mirrored, returned_fits decoded returns.whole short exactly⟩, exactly, fun sym location => ?_⟩
    have textual : sym ∈ returnedSyms ∧ sym ≠ .token ∧ (Sole (src.occurrences sym) Text) := by
      simp only [List.mem_cons, List.not_mem_nil, or_false] at location
      rcases location with rfl | rfl
      · exact ⟨by decide, by decide, returns.whole .locationPath (by decide)⟩
      · exact ⟨by decide, by decide, returns.whole .locationQuery (by decide)⟩
    have own : ((clientToken token).filter fun c => c.sym = sym) = [] := by
      unfold clientToken
      split
      · rfl
      · exact List.filter_cons_of_neg (by simpa using textual.2.1.symm)
    have part := exactly.filter fun c => c.sym = sym
    rw [carried_part, List.filter_append, returnables_part, if_pos textual.1, own, List.append_nil] at part
    rcases textual.2.2 with none | ⟨o, alone, _⟩
    · rw [none] at part ⊢
      exact List.perm_nil.mp part
    · rw [alone] at part ⊢
      exact List.perm_singleton.mp part

end Room

section Sending

variable {platform : Platform} {env : SendEnv} {cli : EcClient} {origin : EcPdu} {w : EcWork}

theorem applyCalls_adds (calls : List AddCall) {w : EcWork} {res : EcPdu} (held : w.srv.res = some res) :
    applyCalls platform (calls.map SrvApi.add) w =
      {w with srv := {w.srv with res := some {res with opts := performCalls platform calls res.opts}}} := by
  unfold applyCalls
  induction calls generalizing w res with
  | nil =>
      change w = {w with srv := {w.srv with res := some res}}
      rw [← held]
  | cons call calls inductionHypothesis =>
      have added : ((SrvApi.add call).apply platform w).srv.res =
          some {res with opts := (call.apply platform.order platform.isAbsolute res.opts).1} := by
        unfold SrvApi.apply
        dsimp only
        rw [held]
        rfl
      rw [List.map_cons, List.foldl_cons, inductionHypothesis added]
      rfl

/-- The server that has collected the response of the origin. -/
theorem proxyCollect_answered (answers : OriginAnswers cli origin) (awaits : AwaitsOrigin w env) :
    ∃ res, res.opts = performCalls platform (mapOptionsBackward platform.order origin.opts) ecOptsInit ∧
      proxyCollect platform cli w =
        ({w with srv := {w.srv with flow := {w.srv.flow with respCode := cli.flow.respCode}, res := some res}}, 0) := by
  obtain ⟨res, held, unused⟩ := awaits.response
  have code : proxyResCode cli = cli.flow.respCode := by
    unfold proxyResCode
    rw [answers.done]
  have coded (flow : EcFlow) : ecFlowSetRespCode flow cli.flow.respCode = ({flow with respCode := cli.flow.respCode}, 0) :=
    if_pos answers.code
  have mapped := @applyCalls_adds platform (mapOptionsBackward platform.order origin.opts) _ _ held
  rw [unused] at mapped
  unfold proxyCollect
  rw [answers.response, answers.done, held, code]
  dsimp only
  rw [if_neg (by simp), if_pos rfl]
  simp only [Option.map_some, Option.getD_some]
  rw [mapped, if_neg (by simp)]
  by_cases empty : origin.payload = []
  · rw [if_pos empty]
    unfold SrvApi.apply
    dsimp only
    rw [coded]
    exact ⟨_, rfl, rfl⟩
  · have loaded (pdu : EcPdu) : ecPduSetPayload pdu origin.payload = ({pdu with payload := origin.payload}, 0) :=
      if_neg fun none => empty (List.length_eq_zero_iff.mp none)
    rw [if_neg empty]
    unfold SrvApi.apply
    dsimp only
    rw [coded, Option.map_some, loaded]
    exact ⟨_, rfl, rfl⟩

/-- A server that waits for the origin, with what it has collected. -/
def collectedWork (w : EcWork) (rc : EcRc) (res : EcPdu) : EcWork :=
  {w with srv := {w.srv with flow := {w.srv.flow with respCode := rc}, res := some res}}

/-- A server that waits for the origin responds exactly when the options find room. -/
theorem AwaitsOrigin.responds_iff (awaits : AwaitsOrigin w env) {rc : EcRc} (code : ecIsRespCode rc) (res : EcPdu)
    {isCon : Bool} (model : w.srv.flow.conn.isConfirmable = some isCon) :
    (collectedWork w rc res).srv.Responds res isCon env.sent ↔ res.opts.Encodes w.srv.flow.token := by
  constructor
  · exact fun responds => responds.encodes
  · intro room
    exact {
      held := rfl
      pairs := fun other => absurd awaits.pending other
      code := code
      model := model
      encodes := room
      taken := awaits.taken
      socket := awaits.socket
      peer := awaits.peer }

theorem sentResponse_none {rc : EcRc} {res : EcPdu} (full : ¬ res.opts.Encodes w.srv.flow.token) :
    sentResponse platform env (collectedWork w rc res) = none := by
  unfold sentResponse
  dsimp only
  refine if_neg fun sent => full ?_
  obtain ⟨other, isCon, responds⟩ := ecServerSendResp_ok platform env .response _ sent
  cases responds.held
  exact responds.encodes

theorem sentResponse_some (awaits : AwaitsOrigin w env) {rc : EcRc} (code : ecIsRespCode rc) {res : EcPdu}
    (room : res.opts.Encodes w.srv.flow.token) :
    ∃ pdu, sentResponse platform env (collectedWork w rc res) = some pdu ∧
      pdu.opts = (mirrorToken res.opts w.srv.flow.token).1.encoded ∧
      ∃ w' result, ecServerWakeup platform env [] (collectedWork w rc res) = .ok (w', result) ∧
        w'.srv.sent = w.srv.sent ++ [⟨.response, pdu.datagram w.srv.flow.conn⟩] := by
  obtain ⟨isCon, model⟩ := Option.isSome_iff_exists.mp awaits.model
  have responds := (awaits.responds_iff code res model).mpr room
  have sent := ecServerSendResp_responds platform env .response (collectedWork w rc res) res isCon responds
  have parts := (collectedWork w rc res).srv.encodedResp_parts platform.order env isCon res responds
    (Or.inr (Or.inl awaits.pending))
  refine ⟨(collectedWork w rc res).srv.encodedResp platform.order env isCon res, ?_, parts.1, ?_⟩
  · unfold sentResponse
    rw [sent]
    rfl
  · obtain ⟨woken, result, finished, _⟩ := @ecServerWakeup_ended platform env [] (collectedWork w rc res)
      awaits.live (Or.inl awaits.pending)
    refine ⟨woken, result, finished, ?_⟩
    have ready : ecServerReady platform env isCon (collectedWork w rc res) = .ok (woken, result) := by
      have same : ecServerWakeup platform env [] (collectedWork w rc res) =
          ecServerReady platform env isCon (collectedWork w rc res) := by
        have model' : (collectedWork w rc res).srv.flow.conn.isConfirmable = some isCon := model
        have untouched : applyCalls platform [] (collectedWork w rc res) = collectedWork w rc res := rfl
        unfold ecServerWakeup
        rw [untouched]
        dsimp only
        rw [model']
      exact same ▸ finished
    rcases ecServerReady_cases ready with ⟨_, other, _⟩ | ⟨_, _, silent, _⟩ | ⟨_, _, held, con, answers, moved⟩
    · exact absurd awaits.pending other
    · exact absurd ⟨res, isCon, responds⟩ silent
    · rw [ecServerSetState_sent moved]
      cases responds.held.symm.trans answers.held
      cases Option.some.inj (responds.model.symm.trans answers.model)
      rfl

/-- The proxy returns the options of the origin's response exactly under the condition. -/
theorem proxyRes_returns_iff (platform : Platform) (env : SendEnv) (cli : EcClient) (origin : EcPdu) (w : EcWork)
    (answers : OriginAnswers cli origin) (awaits : AwaitsOrigin w env) :
    RepliesExactly platform env cli origin w ↔ ReturnsWhole platform.order origin.opts w.srv.flow.token := by
  obtain ⟨res, opts, collected⟩ := @proxyCollect_answered platform _ _ _ _ answers awaits
  rw [← @mapped_returns_iff _ platform answers.decoded _ awaits.token, ← opts]
  change proxyCollect platform cli w = (collectedWork w cli.flow.respCode res, 0) at collected
  unfold RepliesExactly proxyRes
  dsimp only
  rw [collected]
  dsimp only
  by_cases room : res.opts.Encodes w.srv.flow.token
  · obtain ⟨pdu, sent, encoded, logged⟩ := @sentResponse_some platform _ _ awaits _ answers.code _ room
    have same : ReturnsExactly platform.order origin.opts w.srv.flow.token pdu.opts ↔
        ReturnsExactly platform.order origin.opts w.srv.flow.token (mirrorToken res.opts w.srv.flow.token).1 := by
      rw [encoded]
      rfl
    constructor
    · rintro ⟨_, other, held, _, exactly⟩
      cases sent.symm.trans held
      exact ⟨room, same.mp exactly⟩
    · rintro ⟨_, exactly⟩
      exact ⟨rfl, pdu, sent, by rwa [if_neg (by simp)], same.mpr exactly⟩
  · refine iff_of_false ?_ fun both => room both.1
    rintro ⟨_, pdu, sent, _⟩
    rw [sentResponse_none room] at sent
    cases sent

end Sending

section Replies

/-- A response of the origin with these bytes behind the header, as many as options. -/
def originResponse (bytes : List UInt8) (oc : UInt8) : EcPdu :=
  {ecPduNewEmpty with
    opts := (ecOptsDecode ecOptsInit (fun i => ([0, 69, 0, 1] ++ bytes).getD i 0) (4 + bytes.length) oc 0).opts}

/-- A client that has got a response 2.05. -/
def answeredClient (origin : EcPdu) : EcClient :=
  {confirmableGet with state := .reqDone, flow := {confirmableGet.flow with respCode := 69}, resSet := [origin]}

/-- A server whose request with a Token of one byte has been acknowledged. -/
def pendingServer : EcWork where
  self := 0
  srv :=
    {ecServerNew with
      state := .ackSent
      flow := {EcFlow.zero with
        token := [0xaa]
        conn := {EcConn.zero with isConfirmable := some true, socket := 5, peer := loopbackPeer}}
      res := some ecPduNewEmpty
      parent := true}
  servers := [0]
  dups := EcDups.empty
  observing := []
  invoked := 1

def takingSocket : SendEnv := ⟨1, 0, true⟩

theorem pendingServer_awaits : AwaitsOrigin pendingServer takingSocket where
  live := rfl
  pending := rfl
  response := ⟨ecPduNewEmpty, rfl, rfl⟩
  token := by decide
  model := rfl
  socket := by decide
  peer := by decide
  taken := rfl

/-- A Max-Age of a minute and one segment of a location are returned, with the client's Token. -/
theorem agedLocation_returned :
    OriginAnswers (answeredClient (originResponse [33, 60, 65, 97] 2)) (originResponse [33, 60, 65, 97] 2) ∧
      RepliesExactly loopbackPlatform takingSocket (answeredClient (originResponse [33, 60, 65, 97] 2))
        (originResponse [33, 60, 65, 97] 2) pendingServer := by
  have answers : OriginAnswers (answeredClient (originResponse [33, 60, 65, 97] 2)) (originResponse [33, 60, 65, 97] 2) :=
    ⟨rfl, rfl, by decide, by decide⟩
  refine ⟨answers, (proxyRes_returns_iff _ _ _ _ _ answers pendingServer_awaits).mpr ⟨?_, ?_, fun _ => by decide⟩⟩
  · intro sym returned
    have aged : ∃ o, (originResponse [33, 60, 65, 97] 2).opts.occurrences .maxAge = [o] ∧
        Lasting loopbackPlatform.order o := ⟨_, rfl, by unfold Lasting; decide⟩
    have located : Sole ((originResponse [33, 60, 65, 97] 2).opts.occurrences .locationPath) Text :=
      Or.inr ⟨_, rfl, by unfold Text; decide⟩
    have others : ∀ sym ∈ [EcOptSym.contentType, .etag, .locationQuery, .observe, .block2, .block1],
        (originResponse [33, 60, 65, 97] 2).opts.occurrences sym = [] := by decide
    cases sym with
    | maxAge => exact aged
    | locationPath => exact located
    | contentType => exact Or.inl (others _ (by decide))
    | locationQuery => exact Or.inl (others _ (by decide))
    | observe => exact Or.inl (others _ (by decide))
    | block2 => exact Or.inl (others _ (by decide))
    | block1 => exact Or.inl (others _ (by decide))
    | etag => exact fun o member => absurd (others .etag (by decide) ▸ member) List.not_mem_nil
    | _ => exact absurd returned (by decide)
  · intro o found
    have none : ecOptsGet (originResponse [33, 60, 65, 97] 2).opts .token = none := by decide
    rw [none] at found
    cases found

/-- A Token that the origin mirrors comes back twice. -/
theorem mirroredToken_doubled : ¬ ∀ platform env cli origin w, OriginAnswers cli origin → AwaitsOrigin w env →
    RepliesExactly platform env cli origin w := by
  intro always
  obtain ⟨_, pdu, sent, _, exactly, _⟩ := always loopbackPlatform takingSocket
    (answeredClient (originResponse [33, 60, 145, 0xaa] 2)) (originResponse [33, 60, 145, 0xaa] 2) pendingServer
    ⟨rfl, rfl, by decide, by decide⟩ pendingServer_awaits
  have three : (sentResponse loopbackPlatform takingSocket (proxyCollect loopbackPlatform
      (answeredClient (originResponse [33, 60, 145, 0xaa] 2)) pendingServer).1).map
        (fun pdu => (pdu.opts.carried .little).length) = some 3 := by decide
  rw [sent, Option.map_some] at three
  have two : (returnables loopbackPlatform.order (originResponse [33, 60, 145, 0xaa] 2).opts ++
      clientToken pendingServer.srv.flow.token).length = 2 := by decide
  have length := exactly.length_eq
  rw [two] at length
  cases length.symm.trans (Option.some.inj three)

end Replies

end Webthings.Apps
