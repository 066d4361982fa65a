import Webthings.Apps.OptionMapping

namespace Webthings.Evcoap

/-- The request of a client after calls of the adding interface. -/
def EcClient.performs (platform : Platform) (calls : List AddCall) (cli : EcClient) : EcClient :=
  (cli.adding fun opts => (performCalls platform calls opts, 0)).1

end Webthings.Evcoap

namespace Webthings.Apps
open Webthings.Evcoap

/-- The size in bytes of the array of media types, which is taken for its capacity. -/
def mtaSize : Nat := 64

section Forward

variable (platform : Platform) (rng : List UInt8) (src : EcOpts)

/-- The calls of all the cases but the one of Token. The case of If-Match asks for the ETags. -/
def forwardOption (order : ByteOrder) (src : EcOpts) (sym : EcOptSym) : List AddCall :=
  match sym with
  | .accept =>
      match ecOptsGetAcceptAll order src mtaSize with
      | none => []
      | some mta => mta.map fun mt => .accept mt.toUInt16
  | .ifMatch => mapEtags (src.occurrences .etag)
  | .ifNoneMatch => if ecOptsGetIfNoneMatch src then [.ifNoneMatch] else []
  | sym => mapOption order src sym

/-- One round of the loop; only a Token goes by way of the client. -/
def mapForward (cli : EcClient) (sym : EcOptSym) : EcClient :=
  match sym with
  | .token =>
      match ecOptsGetToken src with
      | none => cli
      | some token => ((ecRequestAddToken cli token rng).getD (cli, -1)).1
  | sym => cli.performs platform (forwardOption platform.order src sym)

/-- The random bytes are those that the library makes a token of. -/
def mapOptionsForward (cli : EcClient) : EcClient := mappedSyms.foldl (mapForward platform rng src) cli

end Forward

/-- The options that a proxy forwards. -/
def forwardedSyms : List EcOptSym :=
  [.contentType, .maxAge, .etag, .observe, .token, .accept, .ifMatch, .block2, .block1, .ifNoneMatch]

/-- An Observe is forwarded as 0 and everything else as it is. -/
def forwardedAs (order : ByteOrder) (o : EcOpt) : Carried :=
  if o.sym = .observe then ⟨.observe, .uint 0⟩ else o.carried order

/-- What a request has to be forwarded with. -/
def forwardables (order : ByteOrder) (src : EcOpts) : List Carried :=
  (src.bundle.list.filter fun o => o.sym ∈ forwardedSyms).map (forwardedAs order)

/-- The options that are added to the outgoing request are those that have to be forwarded. -/
def ForwardsExactly (platform : Platform) (rng : List UInt8) (src : EcOpts) (cli : EcClient) : Prop :=
  ((mapOptionsForward platform rng src cli).req.opts.carried platform.order).Perm
    (forwardables platform.order src ++ cli.req.opts.carried platform.order)

/-- The options of a symbol that are forwarded as they are. -/
def ForwardedWhole (order : ByteOrder) (sym : EcOptSym) (os : List EcOpt) : Prop :=
  match sym with
  | .observe => Sole os (Within order 0xffff)
  | .token => Sole os Short
  | .accept => ∀ o ∈ os, Within order 0xffff o
  | .ifMatch => os = []
  | .ifNoneMatch => Sole os fun _ => True
  | sym => MappedWhole order sym os

/-- The symbols of the rounds ahead of the one of If-Match, and behind it. -/
def earlySyms : List EcOptSym := [.contentType, .maxAge, .etag, .observe, .token, .accept]

def lateSyms : List EcOptSym := [.block2, .block1, .ifNoneMatch]

/-- When the options are forwarded exactly: with a Max-Age, without ETag and If-Match, or when the slots that are left
just suffice for everything ahead of the first addition that is wrong. -/
def ForwardsWhole (order : ByteOrder) (src : EcOpts) (free : Nat) : Prop :=
  ((∀ sym ∈ forwardedSyms, ForwardedWhole order sym (src.occurrences sym)) ∧ src.occurrences .etag = []) ∨
    ((forwardables order src).length = free ∧
      (((∀ sym ∈ earlySyms, ForwardedWhole order sym (src.occurrences sym)) ∧
          ∀ sym ∈ EcOptSym.ifMatch :: lateSyms, src.occurrences sym = []) ∨
        (ForwardedWhole order .contentType (src.occurrences .contentType) ∧
          ∀ sym ∈ forwardedSyms, sym ≠ .contentType → src.occurrences sym = [])))

section Offers

variable {platform : Platform} {rng : List UInt8} {src : EcOpts}

/-- What a round offers to the outgoing request. -/
def forwardOffer (order : ByteOrder) (rng : List UInt8) (src : EcOpts) (sym : EcOptSym) : List Carried :=
  let os := src.occurrences sym
  match sym with
  | .token =>
      (firstTaken (fun o => o.l ≤ 8) os).map fun o => if o.l = 0 then ⟨.token, .bytes rng⟩ else o.carried order
  | .accept => if ∀ o ∈ os, o.l ≤ 8 then os.map fun o => ⟨.accept, .uint (o.integer order % 2 ^ 16)⟩ else []
  | .ifMatch => mappedOffer order src .etag
  | .ifNoneMatch => (firstTaken (fun _ => True) os).map (EcOpt.carried order)
  | sym => mappedOffer order src sym

theorem forwardOffer_shared (order : ByteOrder) (rng : List UInt8) (src : EcOpts) {sym : EcOptSym}
    (other : sym ∉ [EcOptSym.token, .accept, .ifMatch, .ifNoneMatch]) :
    forwardOffer order rng src sym = mappedOffer order src sym := by
  cases sym <;> first | rfl | exact absurd (by decide) other

/-- What a round does to the options of the request. -/
def forwardCalls (order : ByteOrder) (rng : List UInt8) (src : EcOpts) (sym : EcOptSym) : List AddCall :=
  if sym = .token then
    ((ecOptsGetToken src).map fun token => AddCall.token (if token = [] then rng else token)).toList
  else forwardOption order src sym

/-- A token is added to the request by the adder of options, whatever becomes of the flow. -/
theorem ecRequestAddToken_opts (cli : EcClient) (t : List UInt8) :
    ((ecRequestAddToken cli t rng).getD (cli, -1)).1.req.opts =
      (ecOptsAddToken cli.req.opts (if t = [] then rng else t)).1 := by
  unfold ecRequestAddToken
  dsimp only
  generalize (if t = [] then rng else t) = tok
  by_cases added : (ecOptsAddToken cli.req.opts tok).2 = 0
  · have fits : tok.length ≤ ecFlowTokenMax := by
      by_contra long
      have refused : ecOptsAddToken cli.req.opts tok = (cli.req.opts, -1) := if_pos (Or.inr (Nat.not_le.mp long))
      rw [refused] at added
      cases added
    unfold ecFlowSaveToken
    rw [if_neg (not_not_intro added), if_pos fits]
    rfl
  · rw [if_pos added]
    rfl

theorem mapForward_opts (cli : EcClient) (sym : EcOptSym) :
    (mapForward platform rng src cli sym).req.opts =
      performCalls platform (forwardCalls platform.order rng src sym) cli.req.opts := by
  by_cases token : sym = .token
  · subst token
    unfold mapForward forwardCalls
    rw [if_pos rfl]
    dsimp only
    cases ecOptsGetToken src with
    | none => rfl
    | some token => exact ecRequestAddToken_opts cli token
  · have plain : mapForward platform rng src cli sym =
        cli.performs platform (forwardOption platform.order src sym) := by
      cases sym <;> first | rfl | exact absurd rfl token
    unfold forwardCalls
    rw [plain, if_neg token]
    rfl

theorem mapOptionsForward_opts (cli : EcClient) :
    (mapOptionsForward platform rng src cli).req.opts =
      performCalls platform (mappedSyms.flatMap (forwardCalls platform.order rng src)) cli.req.opts := by
  unfold mapOptionsForward
  generalize mappedSyms = syms
  induction syms generalizing cli with
  | nil => rfl
  | cons sym syms inductionHypothesis =>
      rw [List.foldl_cons, inductionHypothesis, mapForward_opts, List.flatMap_cons, performCalls_append]

theorem token_offers (random : rng.length = 8) :
    Offers platform.order (performCalls platform (forwardCalls platform.order rng src .token))
      (forwardOffer platform.order rng src .token) := by
  unfold forwardOffer forwardCalls ecOptsGetToken
  rw [if_pos rfl]
  dsimp only
  obtain ⟨listed, none⟩ | ⟨o, rest, listed, held, symbol, length⟩ := @EcOpts.first_held src .token (Or.inl rfl)
  · rw [listed, none]
    exact Offers.nothing
  · have offers := ecOptsAddShortOpaque_offers platform.order .token (by decide)
      (if o.value = [] then rng else o.value)
    rw [listed, held, firstTaken]
    by_cases empty : o.l = 0
    · have none : o.value = [] := List.length_eq_zero_iff.mp (length.trans empty)
      rw [if_pos none, if_neg (by omega)] at offers
      rw [none, if_pos (by omega), List.map_singleton, if_pos empty]
      exact offers
    · have some : o.value ≠ [] := fun none => empty (by rw [← length, none]; rfl)
      rw [if_neg some, length] at offers
      rw [Option.map_some, if_neg some]
      by_cases long : o.l ≤ 8
      · rw [if_neg (by omega)] at offers
        rw [if_pos long, List.map_singleton, if_neg empty, o.carried_bytes platform.order (by rw [symbol]; decide), symbol]
        exact offers
      · rw [if_pos (Or.inr (Nat.not_le.mp long))] at offers
        rw [if_neg long]
        exact offers

theorem accept_offers (decoded : src.bundle.list.length ≤ ecProtoMaxOptions) :
    Offers platform.order (performCalls platform (forwardCalls platform.order rng src .accept))
      (forwardOffer platform.order rng src .accept) := by
  have uint : ∀ o ∈ src.occurrences .accept, ecOptSym2type o.sym = .uint := fun o member => by
    rw [EcOpts.occurrence_sym member]
    decide
  have few : (src.occurrences .accept).length ≤ mtaSize :=
    Nat.le_trans (List.length_filter_le _ _) (Nat.le_trans decoded (by decide))
  have got : ecOptsGetAcceptAll platform.order src mtaSize =
      if ∀ o ∈ src.occurrences .accept, o.l ≤ 8
        then some ((src.occurrences .accept).map fun o => (o.integer platform.order).toUInt32) else none := by
    rw [← decodeAll_eq platform.order _ uint]
    unfold ecOptsGetAcceptAll
    rw [← EcOpts.occurrences, List.take_of_length_le few]
  unfold forwardOffer forwardCalls forwardOption
  rw [if_neg (by decide)]
  dsimp only
  rw [got]
  by_cases short : ∀ o ∈ src.occurrences .accept, o.l ≤ 8
  · rw [if_pos short, if_pos short]
    dsimp only
    generalize src.occurrences .accept = os
    induction os with
    | nil => exact Offers.nothing
    | cons o os inductionHypothesis =>
        have offers := ecOptsAddUint_offers platform.order .accept (by decide)
          (o.integer platform.order).toUInt32.toUInt16.toUInt64
        have cut : (o.integer platform.order).toUInt32.toUInt16.toUInt64.toNat = o.integer platform.order % 2 ^ 16 :=
          Nat.mod_mod_of_dvd _ (by decide)
        rw [cut] at offers
        exact offers.before inductionHypothesis
  · rw [if_neg short, if_neg short]
    exact Offers.nothing

/-- A round offers its options whatever is in the request. -/
theorem forwardCalls_offers (random : rng.length = 8) (decoded : src.bundle.list.length ≤ ecProtoMaxOptions)
    (sym : EcOptSym) :
    Offers platform.order (performCalls platform (forwardCalls platform.order rng src sym))
      (forwardOffer platform.order rng src sym) := by
  have shared : sym ∉ [EcOptSym.token, .accept, .ifMatch, .ifNoneMatch] →
      forwardCalls platform.order rng src sym = mapOption platform.order src sym := by
    intro other
    cases sym <;> first | rfl | exact absurd (by decide) other
  cases sym with
  | token => exact token_offers random
  | accept => exact accept_offers decoded
  | ifMatch => exact mapOption_offers .etag
  | ifNoneMatch =>
      have first := ecOptsGet_head src .ifNoneMatch
      unfold forwardOffer forwardCalls forwardOption ecOptsGetIfNoneMatch
      rw [if_neg (by decide)]
      dsimp only
      cases listed : src.occurrences .ifNoneMatch with
      | nil =>
          rw [listed] at first
          rw [first]
          exact Offers.nothing
      | cons o rest =>
          rw [listed] at first
          have symbol := (ecOptsGet_some first).1
          have carried : o.carried platform.order = ⟨.ifNoneMatch, .bytes []⟩ := by
            rw [o.carried_bytes platform.order (by rw [symbol]; decide), symbol, o.ifNoneMatch_value symbol]
          rw [first, firstTaken, if_pos trivial, List.map_singleton, carried]
          exact ecOptsAddIfNoneMatch_offers
  | _ =>
      rw [shared (by decide), forwardOffer_shared _ _ _ (by decide)]
      exact mapOption_offers _

end Offers

section Exactness

variable {order : ByteOrder} {rng : List UInt8} {src : EcOpts}

theorem forwardedAs_sym (o : EcOpt) : (forwardedAs order o).sym = o.sym := by
  unfold forwardedAs
  by_cases observe : o.sym = .observe
  · rw [if_pos observe, observe]
  · rw [if_neg observe]
    rfl

/-- Options of another symbol than Observe are forwarded as they are. -/
theorem forwardedAs_map {sym : EcOptSym} (other : sym ≠ .observe) :
    (src.occurrences sym).map (forwardedAs order) = (src.occurrences sym).map (EcOpt.carried order) := by
  refine List.map_congr_left fun o member => ?_
  unfold forwardedAs
  rw [if_neg (EcOpts.occurrence_sym member ▸ other)]

theorem tokenOffer_perm_iff (random : rng.length = 8) :
    (forwardOffer order rng src .token).Perm ((src.occurrences .token).map (EcOpt.carried order)) ↔
      Sole (src.occurrences .token) Short := by
  refine (firstTold_perm_iff _ _ _ _).trans (Sole.congr fun o member => ?_)
  have symbol : o.sym = .token := EcOpts.occurrence_sym member
  have type : ecOptSym2type o.sym = .opaqueValue := by rw [symbol]; decide
  have length := (EcOpt.held (Or.inl type)).2
  by_cases empty : o.l = 0
  · rw [if_pos empty, o.carried_bytes order (by rw [type]; decide), symbol]
    refine iff_of_false (fun both => ?_) fun short => by have := short.1; omega
    have bytes : rng = o.value := by simpa using both.2
    rw [bytes, length, empty] at random
    cases random
  · rw [if_neg empty]
    exact ⟨fun both => ⟨Nat.pos_of_ne_zero empty, both.1⟩, fun short => ⟨short.2, rfl⟩⟩

theorem acceptOffer_perm_iff :
    (forwardOffer order rng src .accept).Perm ((src.occurrences .accept).map (EcOpt.carried order)) ↔
      ∀ o ∈ src.occurrences .accept, Within order 0xffff o := by
  have carried : ∀ o ∈ src.occurrences .accept, o.carried order = ⟨.accept, .uint (o.integer order)⟩ := by
    intro o member
    have symbol := EcOpts.occurrence_sym member
    rw [o.carried_uint order (by rw [symbol]; decide), symbol]
  unfold forwardOffer
  dsimp only
  constructor
  · intro same o member
    by_cases short : ∀ x ∈ src.occurrences .accept, x.l ≤ 8
    · rw [if_pos short] at same
      refine ⟨short o member, ?_⟩
      obtain ⟨x, _, equal⟩ := List.mem_map.mp (same.mem_iff.mpr (List.mem_map_of_mem member))
      rw [carried o member] at equal
      have cut : x.integer order % 2 ^ 16 = o.integer order := by simpa using equal
      omega
    · rw [if_neg short, List.nil_perm, List.map_eq_nil_iff] at same
      rw [same] at member
      cases member
  · intro within
    rw [if_pos fun o member => (within o member).1]
    refine List.Perm.of_eq (List.map_congr_left fun o member => ?_)
    have small := (within o member).2
    rw [carried o member, Nat.mod_eq_of_lt (by omega)]

/-- A round forwards all the options of its symbol exactly under its condition. -/
theorem forwardOffer_perm_iff (random : rng.length = 8) {sym : EcOptSym} (other : sym ≠ .ifMatch) :
    (forwardOffer order rng src sym).Perm ((src.occurrences sym).map (forwardedAs order)) ↔
      ForwardedWhole order sym (src.occurrences sym) := by
  by_cases observe : sym = .observe
  · subst observe
    have same : (src.occurrences .observe).map (forwardedAs order) =
        (src.occurrences .observe).map fun _ => ⟨.observe, .uint 0⟩ :=
      List.map_congr_left fun o member => if_pos (EcOpts.occurrence_sym member)
    rw [same]
    exact firstTaken_perm_iff _ _ _
  · rw [forwardedAs_map observe]
    cases sym with
    | token => exact tokenOffer_perm_iff random
    | accept => exact acceptOffer_perm_iff
    | ifMatch => exact absurd rfl other
    | observe => exact absurd rfl observe
    | ifNoneMatch => exact firstTaken_perm_iff _ _ _
    | _ => exact mappedOffer_perm_iff observe

theorem forwardOffer_sym {sym : EcOptSym} (other : sym ≠ .ifMatch) : ∀ c ∈ forwardOffer order rng src sym, c.sym = sym := by
  have told {tell : EcOpt → Carried} {os : List EcOpt} (symbols : ∀ o ∈ os, (tell o).sym = sym) :
      ∀ c ∈ os.map tell, c.sym = sym := fun c member => by
    obtain ⟨o, there, rfl⟩ := List.mem_map.mp member
    exact symbols o there
  cases sym with
  | token =>
      refine told fun o member => ?_
      split
      · rfl
      · exact EcOpts.occurrence_sym (firstTaken_mem member)
  | accept =>
      intro c member
      unfold forwardOffer at member
      dsimp only at member
      split at member
      · exact told (fun o _ => rfl) c member
      · cases member
  | ifMatch => exact absurd rfl other
  | ifNoneMatch => exact told fun o member => EcOpts.occurrence_sym (firstTaken_mem member)
  | _ =>
      rw [forwardOffer_shared order rng src (by decide)]
      exact mappedOffer_sym

/-- A round offers no more options than there are of its symbol, except for the one of Max-Age. -/
theorem forwardOffer_length {sym : EcOptSym} (other : sym ≠ .ifMatch)
    (aged : sym = .maxAge → src.occurrences .maxAge ≠ []) :
    (forwardOffer order rng src sym).length ≤ (src.occurrences sym).length := by
  cases sym with
  | token => exact (List.length_map _).trans_le (firstTaken_length _ _)
  | accept =>
      unfold forwardOffer
      dsimp only
      split
      · rw [List.length_map]
      · exact Nat.zero_le _
  | ifMatch => exact absurd rfl other
  | ifNoneMatch => exact (List.length_map _).trans_le (firstTaken_length _ _)
  | _ =>
      rw [forwardOffer_shared order rng src (by decide)]
      exact mappedOffer_length aged

end Exactness

section Rounds

variable {order : ByteOrder} {rng : List UInt8} {src : EcOpts}

/-- What the loop offers: the rounds ahead of If-Match, the ETags once more, and the rounds behind. -/
def offeredForward (order : ByteOrder) (rng : List UInt8) (src : EcOpts) : List Carried :=
  earlySyms.flatMap (forwardOffer order rng src) ++
    (forwardOffer order rng src .etag ++ lateSyms.flatMap (forwardOffer order rng src))

theorem mappedSyms_offer : mappedSyms.flatMap (forwardOffer order rng src) = offeredForward order rng src := by
  have rounds : mappedSyms = [.contentType, .maxAge, .proxyUri, .etag, .uriHost, .locationPath, .uriPort, .locationQuery,
    .uriPath, .observe, .token, .accept, .ifMatch, .uriQuery, .block2, .block1, .ifNoneMatch, .publish] := by decide
  have skipped (sym : EcOptSym) (skips : sym ∈ [EcOptSym.proxyUri, .uriHost, .locationPath, .uriPort, .locationQuery,
      .uriPath, .uriQuery, .publish]) : forwardOffer order rng src sym = [] := by
    cases sym <;> first | rfl | exact absurd skips (by decide)
  have again : forwardOffer order rng src .ifMatch = forwardOffer order rng src .etag := rfl
  unfold offeredForward earlySyms lateSyms
  rw [rounds]
  simp only [List.flatMap_cons, List.flatMap_nil, again, skipped .proxyUri (by decide), skipped .uriHost (by decide),
    skipped .locationPath (by decide), skipped .uriPort (by decide), skipped .locationQuery (by decide),
    skipped .uriPath (by decide), skipped .uriQuery (by decide), skipped .publish (by decide), List.nil_append,
    List.append_nil, List.append_assoc]

/-- The part that rounds of other symbols than If-Match offer of a symbol. -/
theorem forwardRounds_part {syms : List EcOptSym} (once : syms.Nodup) (other : EcOptSym.ifMatch ∉ syms) (sym : EcOptSym) :
    ((syms.flatMap (forwardOffer order rng src)).filter fun c => c.sym = sym) =
      if sym ∈ syms then forwardOffer order rng src sym else [] :=
  rounds_part Carried.sym once (fun _ member => forwardOffer_sym fun same => other (same ▸ member)) sym

theorem offeredForward_part (sym : EcOptSym) :
    ((offeredForward order rng src).filter fun c => c.sym = sym) =
      (if sym ∈ earlySyms then forwardOffer order rng src sym else []) ++
        ((if sym = .etag then forwardOffer order rng src .etag else []) ++
          if sym ∈ lateSyms then forwardOffer order rng src sym else []) := by
  have etags := @forwardRounds_part order rng src [.etag] (by decide) (by decide) sym
  rw [List.flatMap_singleton] at etags
  unfold offeredForward
  rw [List.filter_append, List.filter_append, forwardRounds_part (by decide) (by decide),
    forwardRounds_part (by decide) (by decide), etags]
  simp only [List.mem_singleton]
  congr 2
  split
  · rename_i same
    rw [same]
  · rfl

theorem forwardables_part (sym : EcOptSym) :
    ((forwardables order src).filter fun c => c.sym = sym) =
      if sym ∈ forwardedSyms then (src.occurrences sym).map (forwardedAs order) else [] :=
  told_part forwardedAs_sym forwardedSyms src sym

variable {n : Nat}

/-- Options that are kept out of what is offered and should be there are not there. -/
theorem absent_of_kept (same : ((offeredForward order rng src).take n).Perm (forwardables order src)) {sym : EcOptSym}
    (forwarded : sym ∈ forwardedSyms)
    (none : (((offeredForward order rng src).take n).filter fun c => c.sym = sym) = []) : src.occurrences sym = [] := by
  have part := same.filter fun c => c.sym = sym
  rw [none, forwardables_part, if_pos forwarded, List.nil_perm, List.map_eq_nil_iff] at part
  exact part

/-- The options of a symbol that has a round of its own are all right if the result is. -/
theorem whole_of_kept (random : rng.length = 8)
    (same : ((offeredForward order rng src).take n).Perm (forwardables order src)) {sym : EcOptSym}
    (forwarded : sym ∈ forwardedSyms) (other : sym ≠ .ifMatch ∧ sym ≠ .etag)
    (aged : sym = .maxAge → src.occurrences .maxAge ≠ []) : ForwardedWhole order sym (src.occurrences sym) := by
  have alone : ((offeredForward order rng src).filter fun c => c.sym = sym) = forwardOffer order rng src sym := by
    have round : (sym ∈ earlySyms ∧ sym ∉ lateSyms) ∨ (sym ∉ earlySyms ∧ sym ∈ lateSyms) := by
      revert forwarded other
      cases sym <;> decide
    rw [offeredForward_part, if_neg other.2, List.nil_append]
    rcases round with ⟨early, notLate⟩ | ⟨notEarly, late⟩
    · rw [if_pos early, if_neg notLate, List.append_nil]
    · rw [if_neg notEarly, if_pos late, List.nil_append]
  have wanted := @forwardables_part order src sym
  rw [if_pos forwarded] at wanted
  have kept := part_kept Carried.sym (k := sym) (List.take_sublist n _) same (by
    rw [alone, wanted, List.length_map]
    exact forwardOffer_length other.1 aged)
  have part := same.filter fun c => c.sym = sym
  rw [kept, alone, wanted] at part
  exact (forwardOffer_perm_iff random other.1).mp part

/-- A Max-Age that is made up goes out unless the slots are used up before. -/
theorem few_of_kept (random : rng.length = 8)
    (same : ((offeredForward order rng src).take n).Perm (forwardables order src))
    (absent : src.occurrences .maxAge = []) :
    (forwardables order src).length = n ∧
      ForwardedWhole order .contentType (src.occurrences .contentType) ∧
        ∀ sym ∈ forwardedSyms, sym ≠ .contentType → src.occurrences sym = [] := by
  obtain ⟨rest, split⟩ : ∃ rest, offeredForward order rng src =
      forwardOffer order rng src .contentType ++ ⟨.maxAge, .uint 3600⟩ :: rest := by
    have hour : forwardOffer order rng src .maxAge = [⟨.maxAge, .uint 3600⟩] := by
      change maxAgeOffer order (src.occurrences .maxAge) = _
      rw [absent, maxAgeOffer]
    unfold offeredForward earlySyms
    rw [List.flatMap_cons, List.flatMap_cons, hour]
    simp only [List.append_assoc, List.singleton_append]
    exact ⟨_, rfl⟩
  have short : n ≤ (forwardOffer order rng src .contentType).length := by
    by_contra long
    have invented : (⟨.maxAge, .uint 3600⟩ : Carried) ∈ (offeredForward order rng src).take n := by
      rw [split]
      exact mem_take_behind (Nat.not_le.mp long)
    have part := same.filter fun c => c.sym = .maxAge
    rw [forwardables_part, if_pos (by decide), absent, List.map_nil, List.perm_nil] at part
    exact List.not_mem_nil (part ▸ List.mem_filter.mpr ⟨invented, rfl⟩)
  have kept : (offeredForward order rng src).take n = (forwardOffer order rng src .contentType).take n := by
    rw [split, List.take_append_of_le_length short]
  refine ⟨?_, whole_of_kept random same (by decide) (by decide) (fun other => absurd other (by decide)),
    fun sym forwarded other => ?_⟩
  · rw [← same.length_eq, kept, List.length_take]
    omega
  · refine absent_of_kept same forwarded ?_
    rw [kept, List.filter_eq_nil_iff]
    intro c member
    have symbol := forwardOffer_sym (by decide) c (List.mem_of_mem_take member)
    rw [symbol]
    simpa using fun equal => other equal.symm

/-- An ETag that goes out is short, whichever round offers it. -/
theorem etagsShort_of_kept (same : ((offeredForward order rng src).take n).Perm (forwardables order src)) :
    ∀ o ∈ src.occurrences .etag, Short o := by
  have type : ∀ o ∈ src.occurrences .etag, ecOptSym2type o.sym = .opaqueValue := fun o member => by
    rw [EcOpts.occurrence_sym member]
    decide
  have part := same.filter fun c => c.sym = .etag
  rw [forwardables_part, if_pos (by decide), forwardedAs_map (by decide)] at part
  intro o member
  have kept := part.mem_iff.mpr (List.mem_map_of_mem member)
  have offered := (List.take_sublist n _).subset (List.mem_filter.mp kept).1
  have there : o.carried order ∈ forwardOffer order rng src .etag := by
    have symbol : (o.carried order).sym = .etag := EcOpts.occurrence_sym member
    have within : o.carried order ∈ (offeredForward order rng src).filter fun c => c.sym = .etag :=
      List.mem_filter.mpr ⟨offered, decide_eq_true symbol⟩
    rw [offeredForward_part, if_pos (by decide), if_pos rfl, if_neg (by decide), List.append_nil] at within
    exact (List.mem_append.mp within).elim id id
  obtain ⟨x, among, equal⟩ := List.mem_map.mp there
  obtain ⟨origin, good⟩ := List.mem_filter.mp among
  rw [x.carried_bytes order (by rw [type x origin]; decide), o.carried_bytes order (by rw [type o member]; decide)] at equal
  have bytes : x.value = o.value := by simpa using (Carried.mk.inj equal).2
  have length := (EcOpt.held (Or.inl (type x origin))).2
  rw [bytes, (EcOpt.held (Or.inl (type o member))).2] at length
  have bounds : Short x := of_decide_eq_true good
  exact ⟨length ▸ bounds.1, length ▸ bounds.2⟩

/-- ETags are offered once more in the round of If-Match, which has to find no slot. -/
theorem full_of_kept (same : ((offeredForward order rng src).take n).Perm (forwardables order src))
    (some : src.occurrences .etag ≠ []) :
    (forwardables order src).length = n ∧ (∀ o ∈ src.occurrences .etag, Short o) ∧
      ∀ sym ∈ lateSyms, src.occurrences sym = [] := by
  have short := etagsShort_of_kept same
  have whole : forwardOffer order rng src .etag = (src.occurrences .etag).map (EcOpt.carried order) := by
    change ((src.occurrences .etag).filter fun o => Short o).map _ = _
    rw [List.filter_eq_self.mpr fun o member => decide_eq_true (short o member)]
  have early : n ≤ (earlySyms.flatMap (forwardOffer order rng src)).length := by
    by_contra long
    obtain ⟨o, rest, listed⟩ := List.exists_cons_of_ne_nil some
    have symbol : (o.carried order).sym = .etag := @EcOpts.occurrence_sym src _ o (by rw [listed]; exact List.mem_cons_self)
    have again : offeredForward order rng src = earlySyms.flatMap (forwardOffer order rng src) ++
        o.carried order :: (rest.map (EcOpt.carried order) ++ lateSyms.flatMap (forwardOffer order rng src)) := by
      unfold offeredForward
      rw [whole, listed]
      rfl
    have more : ((earlySyms.flatMap (forwardOffer order rng src)).filter fun c => c.sym = .etag).length <
        (((offeredForward order rng src).take n).filter fun c => c.sym = .etag).length := by
      rw [again]
      exact part_take_behind Carried.sym (Nat.not_le.mp long) _ symbol
    rw [forwardRounds_part (by decide) (by decide), if_pos (by decide), whole] at more
    have part := same.filter fun c => c.sym = .etag
    rw [forwardables_part, if_pos (by decide), forwardedAs_map (by decide)] at part
    exact absurd part.length_eq more.ne'
  have kept : (offeredForward order rng src).take n = (earlySyms.flatMap (forwardOffer order rng src)).take n := by
    unfold offeredForward
    rw [List.take_append_of_le_length early]
  refine ⟨?_, short, fun sym late => ?_⟩
  · rw [← same.length_eq, kept, List.length_take]
    omega
  · have forwarded : sym ∈ forwardedSyms ∧ sym ∉ earlySyms := by
      revert late
      cases sym <;> decide
    refine absent_of_kept same forwarded.1 ?_
    have sub := (List.take_sublist n (earlySyms.flatMap (forwardOffer order rng src))).filter fun c => c.sym = sym
    rw [forwardRounds_part (by decide) (by decide), if_neg forwarded.2] at sub
    rw [kept]
    exact List.sublist_nil.mp sub

/-- Rounds that forward all the options of their symbols forward everything if there is nothing else. -/
theorem rounds_exact (random : rng.length = 8) {syms : List EcOptSym} (once : syms.Nodup)
    (other : EcOptSym.ifMatch ∉ syms) (forwarded : ∀ sym ∈ syms, sym ∈ forwardedSyms)
    (whole : ∀ sym ∈ syms, ForwardedWhole order sym (src.occurrences sym))
    (rest : ∀ sym ∈ forwardedSyms, sym ∉ syms → src.occurrences sym = []) :
    (syms.flatMap (forwardOffer order rng src)).Perm (forwardables order src) := by
  refine (perm_iff_parts Carried.sym).mpr fun sym => ?_
  rw [forwardRounds_part once other, forwardables_part]
  by_cases member : sym ∈ syms
  · rw [if_pos member, if_pos (forwarded sym member)]
    exact (forwardOffer_perm_iff random fun same => other (same ▸ member)).mpr (whole sym member)
  · rw [if_neg member]
    split
    · rename_i wanted
      rw [rest sym wanted member, List.map_nil]
    · exact List.Perm.refl _

/-- What the slots take of what is offered is what has to be forwarded exactly under the condition. -/
theorem offeredForward_taken_iff (random : rng.length = 8) (room : (forwardables order src).length ≤ n) :
    ((offeredForward order rng src).take n).Perm (forwardables order src) ↔ ForwardsWhole order src n := by
  constructor
  · intro same
    by_cases aged : src.occurrences .maxAge = []
    · have few := few_of_kept random same aged
      exact Or.inr ⟨few.1, Or.inr few.2⟩
    · have whole (sym : EcOptSym) (forwarded : sym ∈ forwardedSyms) (other : sym ≠ .ifMatch ∧ sym ≠ .etag) :=
        whole_of_kept random same forwarded other fun _ => aged
      have unmatched : src.occurrences .ifMatch = [] := by
        refine absent_of_kept same (by decide) (List.sublist_nil.mp ?_)
        have sub := (List.take_sublist n (offeredForward order rng src)).filter fun c => c.sym = .ifMatch
        rwa [offeredForward_part, if_neg (by decide), if_neg (by decide), if_neg (by decide)] at sub
      by_cases tagged : src.occurrences .etag = []
      · refine Or.inl ⟨fun sym forwarded => ?_, tagged⟩
        by_cases matching : sym = .ifMatch
        · rw [matching]
          exact unmatched
        · by_cases tag : sym = .etag
          · rw [tag, tagged]
            exact fun o member => absurd member List.not_mem_nil
          · exact whole sym forwarded ⟨matching, tag⟩
      · obtain ⟨full, short, late⟩ := full_of_kept same tagged
        refine Or.inr ⟨full, Or.inl ⟨fun sym early => ?_, List.forall_mem_cons.mpr ⟨unmatched, late⟩⟩⟩
        by_cases tag : sym = .etag
        · rw [tag]
          exact short
        · have own : sym ∈ forwardedSyms ∧ sym ≠ .ifMatch := by
            revert early
            cases sym <;> decide
          exact whole sym own.1 ⟨own.2, tag⟩
  · rintro (⟨whole, tagged⟩ | ⟨full, ⟨whole, rest⟩ | ⟨typed, rest⟩⟩)
    · have exact' : (offeredForward order rng src).Perm (forwardables order src) := by
        have none : forwardOffer order rng src .etag = [] := by
          change ((src.occurrences .etag).filter fun o => Short o).map _ = _
          rw [tagged]
          rfl
        unfold offeredForward
        rw [none, List.nil_append, ← List.flatMap_append]
        refine rounds_exact random (by decide) (by decide) (by decide) (fun sym member => whole sym ?_) ?_
        · revert member
          cases sym <;> decide
        · intro sym forwarded other
          have matching : sym = .ifMatch := by
            revert forwarded other
            cases sym <;> decide
          rw [matching]
          exact whole .ifMatch (by decide)
      rwa [List.take_of_length_le (by rw [exact'.length_eq]; exact room)]
    · have early : (earlySyms.flatMap (forwardOffer order rng src)).Perm (forwardables order src) := by
        refine rounds_exact random (by decide) (by decide) (by decide) whole fun sym forwarded other => rest sym ?_
        revert forwarded other
        cases sym <;> decide
      unfold offeredForward
      rwa [List.take_left' (early.length_eq.trans full)]
    · have first : (forwardOffer order rng src .contentType).Perm (forwardables order src) := by
        have round := @rounds_exact order rng src random [.contentType] (by decide) (by decide) (by decide)
          (fun sym member => by rw [List.mem_singleton.mp member]; exact typed)
          fun sym forwarded other => rest sym forwarded fun same => other (List.mem_singleton.mpr same)
        rwa [List.flatMap_singleton] at round
      unfold offeredForward earlySyms
      rw [List.flatMap_cons, List.append_assoc, List.take_left' (first.length_eq.trans full)]
      exact first

end Rounds

/-- The decoder fills no more slots than a set has. -/
theorem ecOptsDecode_unencoded (pdu : Nat → UInt8) (pduSz : Nat) (oc : UInt8) (olen : Nat) :
    (ecOptsDecode ecOptsInit pdu pduSz oc olen).opts.Unencoded := by
  have step (d : Decoder) (held : d.opts.Unencoded) : (decodeOpt pdu d).1.opts.Unencoded := by
    unfold decodeOpt
    dsimp only
    split
    · exact held
    · split
      · exact held
      · split
        · exact unencoded_adderInvariant.add _ _ _ held
        · exact unencoded_adderInvariant.add _ _ _ held
  have run (n : Nat) (d : Decoder) (held : d.opts.Unencoded) : (decodeLoop pdu n d).1.opts.Unencoded := by
    induction n generalizing d with
    | zero => exact held
    | succ n inductionHypothesis =>
        rw [decodeLoop]
        split
        · exact inductionHypothesis _ (step d held)
        · exact step d held
  unfold ecOptsDecode
  split
  · exact ecOptsInit_unencoded
  · split
    · exact ecOptsInit_unencoded
    · exact run _ _ ecOptsInit_unencoded

/-- The proxy forwards the options of a request exactly under the condition, when there are slots for them. -/
theorem mapOptionsForward_iff (platform : Platform) (rng : Vector UInt8 8) (pdu : Nat → UInt8) (pduSz : Nat) (oc : UInt8)
    (olen : Nat) (cli : EcClient)
    (room : (forwardables platform.order (ecOptsDecode ecOptsInit pdu pduSz oc olen).opts).length ≤
      ecProtoMaxOptions - cli.req.opts.noptions) :
    ForwardsExactly platform rng.toList (ecOptsDecode ecOptsInit pdu pduSz oc olen).opts cli ↔
      ForwardsWhole platform.order (ecOptsDecode ecOptsInit pdu pduSz oc olen).opts
        (ecProtoMaxOptions - cli.req.opts.noptions) := by
  have decoded := ecOptsDecode_unencoded pdu pduSz oc olen
  have few := decoded.counted ▸ decoded.within
  have random : rng.toList.length = 8 := rng.length_toList
  generalize (ecOptsDecode ecOptsInit pdu pduSz oc olen).opts = src at few room ⊢
  have offers := (rounds_offer (@forwardCalls_offers platform _ _ random few) mappedSyms).perm cli.req.opts
  rw [← mapOptionsForward_opts, mappedSyms_offer] at offers
  unfold ForwardsExactly
  rw [offers.congr_left, List.perm_append_right_iff]
  exact offeredForward_taken_iff random room

/-- A datagram with a Max-Age of a minute and a Token of two bytes. -/
def agedToken (i : Nat) : UInt8 := [66, 1, 0, 1, 33, 60, 146, 7, 9].getD i 0

/-- A Max-Age and a Token are forwarded as they are. -/
theorem agedToken_forwarded :
    (forwardables loopbackPlatform.order (ecOptsDecode ecOptsInit agedToken 9 2 0).opts).length ≤
        ecProtoMaxOptions - confirmableGet.req.opts.noptions ∧
      ForwardsExactly loopbackPlatform (Vector.replicate 8 0).toList (ecOptsDecode ecOptsInit agedToken 9 2 0).opts
        confirmableGet := by
  have room : (forwardables loopbackPlatform.order (ecOptsDecode ecOptsInit agedToken 9 2 0).opts).length ≤
      ecProtoMaxOptions - confirmableGet.req.opts.noptions := by decide
  refine ⟨room, (mapOptionsForward_iff _ _ _ _ _ _ _ room).mpr (Or.inl ⟨?_, by decide⟩)⟩
  intro sym forwarded
  have one : ∃ o, (ecOptsDecode ecOptsInit agedToken 9 2 0).opts.occurrences .maxAge = [o] ∧
      Lasting loopbackPlatform.order o := ⟨_, rfl, by unfold Lasting; decide⟩
  have token : Sole ((ecOptsDecode ecOptsInit agedToken 9 2 0).opts.occurrences .token) Short :=
    Or.inr ⟨_, rfl, by decide⟩
  have others : ∀ sym ∈ [EcOptSym.contentType, .etag, .observe, .accept, .ifMatch, .block2, .block1, .ifNoneMatch],
      (ecOptsDecode ecOptsInit agedToken 9 2 0).opts.occurrences sym = [] := by decide
  cases sym with
  | maxAge => exact one
  | token => exact token
  | contentType => exact Or.inl (others _ (by decide))
  | observe => exact Or.inl (others _ (by decide))
  | block1 => exact Or.inl (others _ (by decide))
  | block2 => exact Or.inl (others _ (by decide))
  | ifNoneMatch => exact Or.inl (others _ (by decide))
  | ifMatch => exact others _ (by decide)
  | etag => exact fun o member => absurd (others .etag (by decide) ▸ member) List.not_mem_nil
  | accept => exact fun o member => absurd (others .accept (by decide) ▸ member) List.not_mem_nil
  | _ => exact absurd forwarded (by decide)

/-- A datagram with a Max-Age of a minute and an If-Match of two bytes. -/
def agedMatch (i : Nat) : UInt8 := [66, 1, 0, 1, 33, 60, 178, 1, 2].getD i 0

/-- An If-Match does not get to the origin. -/
theorem agedMatch_dropped : ¬ ∀ (platform : Platform) (rng : Vector UInt8 8) (pdu : Nat → UInt8) (pduSz : Nat)
    (oc : UInt8) (olen : Nat) (cli : EcClient),
    (forwardables platform.order (ecOptsDecode ecOptsInit pdu pduSz oc olen).opts).length ≤
        ecProtoMaxOptions - cli.req.opts.noptions →
      ForwardsExactly platform rng.toList (ecOptsDecode ecOptsInit pdu pduSz oc olen).opts cli := by
  intro always
  have exactly := always loopbackPlatform (Vector.replicate 8 0) agedMatch 9 2 0 confirmableGet (by decide)
  unfold ForwardsExactly at exactly
  exact absurd exactly.length_eq (by decide)

end Webthings.Apps
