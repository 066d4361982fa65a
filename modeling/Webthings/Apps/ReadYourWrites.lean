import Webthings.Apps.Transfers

namespace Webthings.Apps
open Webthings.Evcoap
open Webthings.Transition

section Model

variable (order : ByteOrder)

/-- The test server, called with one request after the other. -/
def serverMachine : Machine ServerCtx ServerCall EcFault :=
  ⟨fun ctx call => (serve order ctx call).map fun result => result.served.ctx⟩

/-- The representation that a request is about. -/
def ServerCtx.found (ctx : ServerCtx) (request : Request) : Option EcRep :=
  (ecOptsGetAcceptAll order request.opts 16).bind fun mta =>
    (ecFilesysGetSuitableRep ctx.fs request.urlstr mta none).bind fun ref =>
      (ecRepGetRes ctx.fs ref).bind fun res => res.reps[ref.index]?

/-- A PUT without Block1 for a resource with at most one representation for each media type is answered 2.04. -/
structure Changes (ctx : ServerCtx) (put : ServerCall) (res : EcRes) (result : CallbackResult) : Prop where
  method : put.request.method = .put
  single : ecRequestGetBlock1 order put.request.opts = none
  resource : ecFilesysGetResource ctx.fs put.request.urlstr = some res
  distinct : (res.reps.map EcRep.mediaType).Nodup
  served : serve order ctx put = .ok result
  code : result.served.response.code = ecChanged

/-- The resource has exactly one representation of the type of the request, with its payload, and the others unchanged. -/
def Written (ctx : ServerCtx) (put : ServerCall) (res : EcRes) : Prop :=
  ∃ res' rep, ecFilesysGetResource ctx.fs put.request.urlstr = some res' ∧
    (res'.reps.filter fun other => other.mediaType = put.request.mediaType order) = [rep] ∧
    rep.data = put.request.payload ∧
    (res'.reps.filter fun other => other.mediaType ≠ put.request.mediaType order) =
      res.reps.filter fun other => other.mediaType ≠ put.request.mediaType order

/-- The request leaves all resources as they are. -/
def Unwritten (ctx : ServerCtx) (call : ServerCall) : Prop :=
  ∀ result, serve order ctx call = .ok result → result.served.ctx.fs = ctx.fs

/-- A GET for the resource of a PUT, which is not put off, and whose Accept values `mta` allow the type of the PUT. -/
structure AsksBack (ctx : ServerCtx) (put get : ServerCall) (mta : List EcMt) : Prop where
  method : get.request.method = .get
  urlstr : get.request.urlstr = put.request.urlstr
  path : get.request.path = put.request.path
  direct : get.request.isProxy = false
  ready : ¬ (get.resched = false ∧ ctx.sep.sec ≠ 0)
  accept : ecOptsGetAcceptAll order get.request.opts 16 = some mta
  accepts : ecMtMatches (put.request.mediaType order) mta = true

/-- The GET is answered 2.05 with what the PUT has carried, or with the block of it that the GET asks for. -/
def Returns (ctx : ServerCtx) (put get : ServerCall) : Prop :=
  ∃ rep filled response, ctx.found order get.request = some rep ∧ rep.mediaType = put.request.mediaType order ∧
    rep.data = put.request.payload ∧ setPayload order ctx get.request put.request.payload Response.new = some filled ∧
    serve order ctx get = .ok (answered ctx response) ∧ response.code = ecContent ∧ response.payload = filled.payload ∧
    (ecRequestGetBlock2 order get.request.opts = none → response.payload = put.request.payload)

/-- No unfinished transfer has left data in the buffer, and the representation that the PUT is about is the one of its
type, if there is one. -/
structure Replaces (ctx : ServerCtx) (put : ServerCall) (res : EcRes) : Prop where
  buffer : ctx.resbuf.getD [] = []
  found : (∀ rep ∈ res.reps, rep.mediaType ≠ put.request.mediaType order) ∨
    ∃ rep, ctx.found order put.request = some rep ∧ rep.mediaType = put.request.mediaType order

/-- The block that a request asks for, if any, does not begin behind the end of the data. -/
def BlockInside (ctx : ServerCtx) (request : Request) (data : List UInt8) : Prop :=
  let b2 := ecRequestGetBlock2 order request.opts
  let bsz := boundedSize ctx.blockSize ((b2.map BlockInfo.bsz).getD 0)
  data.length ≤ bsz ∨ ((b2.map BlockInfo.bnum).getD 0).toNat * bsz ≤ data.length

/-- The resource allows a GET, which accepts none of the other types that the resource has. -/
structure Readable (ctx : ServerCtx) (put get : ServerCall) (res : EcRes) (mta : List EcMt) : Prop where
  allowed : ecResourceCheckMethod res .get = 0
  alone : ∀ rep ∈ res.reps, rep.mediaType ≠ put.request.mediaType order → ecMtMatches rep.mediaType mta = false
  inside : BlockInside order ctx get.request put.request.payload

end Model

section Replacing

variable {res : EcRes} {t : EcMt} {data : List UInt8} {etag : EcEtag} {index : Nat}

/-- The representation at a place whose type is taken by no other is what the others leave out. -/
theorem eraseIdx_distinct (distinct : (res.reps.map EcRep.mediaType).Nodup) (found : res.mediaTypeAt index = some t) :
    res.reps.eraseIdx index = res.reps.filter fun rep => rep.mediaType ≠ t := by
  unfold EcRes.mediaTypeAt at found
  generalize res.reps = reps at distinct found ⊢
  induction reps generalizing index with
  | nil => cases found
  | cons rep reps ih =>
      rw [List.map_cons, List.nodup_cons] at distinct
      cases index with
      | zero =>
          have type : rep.mediaType = t := by simpa using found
          have others : ∀ other ∈ reps, other.mediaType ≠ t := by
            intro other member same
            exact distinct.1 (List.mem_map.mpr ⟨other, member, same.trans type.symm⟩)
          simp only [List.eraseIdx_cons_zero]
          rw [List.filter_cons_of_neg (by simp [type]), List.filter_eq_self.mpr (by simpa using others)]
      | succ index =>
          rw [List.getElem?_cons_succ] at found
          have different : rep.mediaType ≠ t := by
            obtain ⟨other, there, type⟩ := Option.map_eq_some_iff.mp found
            intro same
            exact distinct.1 (List.mem_map.mpr ⟨other, List.mem_of_getElem? there, type.trans same.symm⟩)
          rw [List.eraseIdx_cons_succ, List.filter_cons_of_pos (by simp [different]), ih distinct.2 found]

/-- The resource with the new representation, in the place of the one that was found if that has its type. -/
def putRep (res : EcRes) (index : Nat) (data : List UInt8) (t : EcMt) (etag : EcEtag) : EcRes :=
  let grown := ecResourceAddRep res data t etag
  if res.mediaTypeAt index = some t then ecRepDel grown index else grown

theorem putRep_methods : (putRep res index data t etag).methods = res.methods := by
  unfold putRep
  dsimp only
  split <;> rfl

/-- When the representation of the type was found, or there is none, the new one follows the others. -/
theorem putRep_replaces (distinct : (res.reps.map EcRep.mediaType).Nodup)
    (found : (∀ rep ∈ res.reps, rep.mediaType ≠ t) ∨ res.mediaTypeAt index = some t) :
    (putRep res index data t etag).reps = (res.reps.filter fun rep => rep.mediaType ≠ t) ++ [ecRepNew data t etag] := by
  by_cases here : res.mediaTypeAt index = some t
  · have inside : index < res.reps.length := by
      unfold EcRes.mediaTypeAt at here
      obtain ⟨_, there, _⟩ := Option.map_eq_some_iff.mp here
      exact (List.getElem?_eq_some_iff.mp there).1
    unfold putRep ecRepDel ecResourceAddRep
    rw [if_pos here]
    dsimp only
    rw [List.eraseIdx_append_of_lt_length inside, eraseIdx_distinct distinct here]
  · have others := found.resolve_right here
    unfold putRep ecResourceAddRep
    rw [if_neg here, List.filter_eq_self.mpr (by simpa using others)]

/-- Otherwise the resource has two representations of the type. -/
theorem putRep_doubles (elsewhere : res.mediaTypeAt index ≠ some t) {old : EcRep} (member : old ∈ res.reps)
    (type : old.mediaType = t) (rep : EcRep) :
    ((putRep res index data t etag).reps.filter fun other => other.mediaType = t) ≠ [rep] := by
  intro single
  unfold putRep ecResourceAddRep at single
  rw [if_neg elsewhere] at single
  dsimp only at single
  rw [List.filter_append] at single
  have there : old ∈ res.reps.filter fun other => other.mediaType = t := by simp [member, type]
  have first := List.length_pos_of_mem there
  have second : (List.filter (fun other : EcRep => decide (other.mediaType = t)) [ecRepNew data t etag]).length = 1 := by
    simp [ecRepNew]
  have both := congrArg List.length single
  rw [List.length_append, second, List.length_singleton] at both
  omega

end Replacing

section Serving

variable (order : ByteOrder)

/-- The limits that the user has set for the server. -/
def ServerCtx.limits (ctx : ServerCtx) : Nat × TimeVal := (ctx.bsz, ctx.sep)

theorem servePut_limits (ctx : ServerCtx) (call : ServerCall) (rep : RepRef) (response : Response) :
    (servePut order ctx call rep response).ctx.limits = ctx.limits := by
  obtain ⟨b1, resbuf, config⟩ := receiveBlock_config order ctx call.request response
  unfold servePut
  dsimp only
  rw [config]
  split
  · rfl
  · split
    · rfl
    · split <;> rfl

theorem createResource_limits (ctx : ServerCtx) (call : ServerCall) (response : Response) :
    (createResource order ctx call response).ctx.limits = ctx.limits := by
  unfold createResource
  dsimp only
  split
  · rfl
  · split
    · rfl
    · split
      · rfl
      · split
        · rfl
        · split <;> rfl

theorem servePost_limits (ctx : ServerCtx) (call : ServerCall) (response : Response) :
    (servePost order ctx call response).ctx.limits = ctx.limits := by
  obtain ⟨b1, resbuf, config⟩ := receiveBlock_config order ctx call.request response
  unfold servePost
  dsimp only
  split
  · rfl
  · split
    · rw [config]
      rfl
    · rw [config]
      rfl
    · rw [createResource_limits, config]
      rfl

/-- No request changes the limits. -/
theorem serve_limits {ctx : ServerCtx} {call : ServerCall} {result : CallbackResult}
    (served : serve order ctx call = .ok result) : result.served.ctx.limits = ctx.limits := by
  unfold serve at served
  dsimp only at served
  split at served
  · cases served
    rfl
  · split at served
    · cases served
      rfl
    · split at served
      · split at served
        · cases served
        · cases served
          rfl
      · split at served
        · cases served
          rfl
        · split at served
          · cases served
            rfl
          · split at served
            · cases served
              rfl
            · split at served
              · cases served
                rfl
              · unfold serveMethod at served
                split at served
                · split at served
                  · cases served
                  · split at served
                    · cases served
                    · cases served
                      rfl
                · cases served
                  unfold serveDelete
                  dsimp only
                  split <;> rfl
                · cases served
                  exact servePut_limits order _ _ _ _
                · cases served
                  exact servePost_limits order _ _ _
                · cases served
                  rfl

/-- Requests that write nothing keep the resources and the limits. -/
theorem serverRun_unwritten {ctx later : ServerCtx} {between : List ServerCall}
    (reads : (serverMachine order).Meets (Unwritten order) ctx between)
    (ran : (serverMachine order).run ctx between = .ok later) : later.fs = ctx.fs ∧ later.limits = ctx.limits := by
  refine (serverMachine order).run_invariant (Unwritten order)
    (fun next => next.fs = ctx.fs ∧ next.limits = ctx.limits) ?_ ⟨rfl, rfl⟩ reads ran
  intro state call next kept unwritten stepped
  obtain ⟨result, served, same⟩ := map_ok stepped
  subst same
  exact ⟨(unwritten result served).trans kept.1, (serve_limits order served).trans kept.2⟩

/-- What a PUT that is answered 2.04 has done. -/
theorem Changes.outcome {ctx : ServerCtx} {put : ServerCall} {res : EcRes} {result : CallbackResult}
    (changes : Changes order ctx put res result) : ∃ ref, Handled order ctx put ref res ∧ ref.uri = put.request.urlstr ∧
      ctx.found order put.request = res.reps[ref.index]? ∧
      ecFilesysGetResource result.served.ctx.fs put.request.urlstr =
        some (putRep res ref.index (ctx.resbuf.getD [] ++ put.request.payload) (put.request.mediaType order) put.etag) := by
  have uploads : put.request.method = .put ∨ put.request.method = .post := Or.inl changes.method
  have handles : ∃ ref res, Handled order ctx put ref res := by
    by_contra unhandled
    obtain ⟨response, cbrc, same, refused, _⟩ := serve_unhandled order uploads unhandled
    have code := changes.code
    rw [changes.served] at same
    cases same
    rw [show response.code = ecChanged from code] at refused
    exact refused (by decide)
  obtain ⟨ref, there, handled⟩ := handles
  obtain ⟨mta, accept, found⟩ := handled.found
  have lookup : ref.uri = put.request.urlstr ∧ there = res := by
    unfold ecFilesysGetSuitableRep at found
    rw [changes.resource] at found
    obtain ⟨index, _, rfl⟩ := Option.map_eq_some_iff.mp found
    have same : some res = some there := changes.resource.symm.trans handled.resource
    exact ⟨rfl, (Option.some.inj same).symm⟩
  obtain ⟨uri, rfl⟩ := lookup
  refine ⟨ref, handled, uri, ?_, ?_⟩
  · unfold ServerCtx.found
    rw [accept]
    change (ecFilesysGetSuitableRep ctx.fs put.request.urlstr mta none).bind _ = _
    rw [found]
    change (ecRepGetRes ctx.fs ref).bind _ = _
    rw [handled.resource]
    rfl
  · have served := changes.served
    have named : put.request.urlstr ≠ [] := by
      intro empty
      have resource := changes.resource
      rw [empty] at resource
      cases resource
    have small := handled.small
    rw [serve_handled order uploads handled, if_pos changes.method] at served
    have outcome := (Except.ok.inj served).symm
    subst outcome
    unfold servePut receiveBlock
    dsimp only
    rw [if_neg (by simp [handled.unconditional changes.method]), if_neg (by omega), changes.single, handled.resource]
    dsimp only
    rw [uri]
    exact EcFilesys.modified_self ctx.fs _ named

/-- A PUT writes its representation exactly when it replaces the one of its type. -/
theorem Changes.written_iff {ctx : ServerCtx} {put : ServerCall} {res : EcRes} {result : CallbackResult}
    (changes : Changes order ctx put res result) :
    Written order result.served.ctx put res ↔ Replaces order ctx put res := by
  obtain ⟨ref, handled, uri, about, there⟩ := changes.outcome
  have place : res.mediaTypeAt ref.index = some (put.request.mediaType order) ↔
      ∃ rep, ctx.found order put.request = some rep ∧ rep.mediaType = put.request.mediaType order := by
    rw [about]
    exact Option.map_eq_some_iff
  constructor
  · rintro ⟨res', rep, resource, single, data, _⟩
    have same := Option.some.inj (there.symm.trans resource)
    subst same
    have found : (∀ rep ∈ res.reps, rep.mediaType ≠ put.request.mediaType order) ∨
        res.mediaTypeAt ref.index = some (put.request.mediaType order) := by
      by_contra neither
      push Not at neither
      obtain ⟨⟨old, member, type⟩, elsewhere⟩ := neither
      exact putRep_doubles elsewhere member type rep single
    rw [putRep_replaces changes.distinct found, List.filter_append] at single
    have stored : ecRepNew (ctx.resbuf.getD [] ++ put.request.payload) (put.request.mediaType order) put.etag = rep := by
      simpa [ecRepNew] using single
    rw [← stored] at data
    refine ⟨?_, found.imp_right place.mp⟩
    have same : ctx.resbuf.getD [] ++ put.request.payload = [] ++ put.request.payload := data
    exact List.append_cancel_right same
  · intro replaces
    refine ⟨_, ecRepNew put.request.payload (put.request.mediaType order) put.etag, there, ?_, rfl, ?_⟩
    · rw [putRep_replaces changes.distinct (replaces.found.imp_right place.mpr), replaces.buffer, List.filter_append]
      simp [ecRepNew]
    · rw [putRep_replaces changes.distinct (replaces.found.imp_right place.mpr), List.filter_append]
      simp [ecRepNew]

/-- The payload of a response comes from the block handling. -/
theorem serveGet_some {ctx : ServerCtx} {call : ServerCall} {res : EcRes} {rep : EcRep} {response : Response}
    (got : serveGet order ctx call res rep Response.new = some response) :
    ∃ filled, setPayload order ctx call.request rep.data Response.new = some filled ∧ response.code = ecContent ∧
      response.payload = filled.payload := by
  unfold serveGet at got
  obtain ⟨filled, handled, same⟩ := Option.map_eq_some_iff.mp got
  subst same
  refine ⟨filled, handled, ?_, ?_⟩
  · dsimp only
    split <;> split <;> rfl
  · dsimp only
    split <;> split <;> rfl

theorem setPayload_isSome_iff (ctx : ServerCtx) (request : Request) (data : List UInt8) (response : Response) :
    (setPayload order ctx request data response).isSome ↔ BlockInside order ctx request data := by
  unfold setPayload BlockInside
  dsimp only
  split
  · rename_i fits
    exact iff_of_true rfl (Or.inl fits)
  · rename_i large
    split
    · rename_i behind
      refine iff_of_false (by simp) ?_
      rintro (fits | before)
      · exact large fits
      · omega
    · rename_i before
      refine iff_of_true ?_ (Or.inr (by omega))
      split <;> rfl

/-- Data that fits into a block is returned as a whole to a request without Block2. -/
theorem setPayload_all {ctx : ServerCtx} {request : Request} {data : List UInt8} {filled : Response}
    (whole : ecRequestGetBlock2 order request.opts = none) (small : data.length ≤ ctx.blockSize)
    (handled : setPayload order ctx request data Response.new = some filled) : filled.payload = data := by
  unfold setPayload at handled
  rw [whole] at handled
  dsimp only at handled
  rw [if_pos (by exact small)] at handled
  cases handled
  split
  · rename_i empty
    exact empty.symm
  · rfl

/-- A GET that gets to the resource is answered 2.05 from the representation that it finds, if the resource allows it. -/
theorem serve_get {ctx : ServerCtx} {put get : ServerCall} {mta : List EcMt} {res : EcRes} {index : Nat} {rep : EcRep}
    (asks : AsksBack order ctx put get mta) (ordinary : asciiStrcaseEqual put.request.path wellKnownCore = false)
    (resource : ecFilesysGetResource ctx.fs put.request.urlstr = some res)
    (suitable : ecResourceGetSuitableRep res mta none = some index) (there : res.reps[index]? = some rep) :
    ctx.found order get.request = some rep ∧ serve order ctx get =
      if ecResourceCheckMethod res .get ≠ 0 then .ok (answered ctx (Response.new.setCode ecMethodNotAllowed))
      else
        match serveGet order ctx get res rep Response.new with
        | none => .error .overrun
        | some response => .ok (answered ctx response) := by
  have found : ecFilesysGetSuitableRep ctx.fs get.request.urlstr mta none = some ⟨put.request.urlstr, index⟩ := by
    unfold ecFilesysGetSuitableRep
    rw [asks.urlstr, resource]
    dsimp only
    rw [suitable]
    rfl
  have named : ecRepGetRes ctx.fs ⟨put.request.urlstr, index⟩ = some res := resource
  constructor
  · unfold ServerCtx.found
    rw [asks.accept]
    change (ecFilesysGetSuitableRep ctx.fs get.request.urlstr mta none).bind _ = _
    rw [found]
    change (ecRepGetRes ctx.fs ⟨put.request.urlstr, index⟩).bind _ = _
    rw [named]
    exact there
  · unfold serve
    dsimp only
    rw [if_neg (by simp [asks.direct]), if_neg asks.ready, asks.path, if_neg (by simp [ordinary]), asks.accept]
    dsimp only
    rw [found]
    dsimp only
    rw [named]
    dsimp only
    rw [asks.method]
    split
    · rfl
    · unfold serveMethod
      rw [asks.method]
      cases served : serveGet order ctx get res rep Response.new with
      | none => simp only [there, served]
      | some response => simp only [there, served]

/-- The place that a lookup finds in the others followed by one that suits. -/
theorem suitable_appended {res : EcRes} {others : List EcRep} {added : EcRep} {mta : List EcMt}
    (reps : res.reps = others ++ [added]) (accepts : ecMtMatches added.mediaType mta = true) :
    ∃ index rep, ecResourceGetSuitableRep res mta none = some index ∧ res.reps[index]? = some rep ∧
      ((∀ other ∈ others, ecMtMatches other.mediaType mta = false) ∧ rep = added ∨
        rep ∈ others ∧ ecMtMatches rep.mediaType mta = true) := by
  have lookup : ecResourceGetSuitableRep res mta none =
      (others.findIdx? fun rep => ecMtMatches rep.mediaType mta).or (some others.length) := by
    unfold ecResourceGetSuitableRep
    simp [reps, List.findIdx?_append, accepts]
  cases earlier : others.findIdx? fun rep => ecMtMatches rep.mediaType mta with
  | none =>
      rw [earlier] at lookup
      refine ⟨others.length, added, lookup, by simp [reps], Or.inl ⟨?_, rfl⟩⟩
      simpa using List.findIdx?_eq_none_iff.mp earlier
  | some index =>
      rw [earlier] at lookup
      obtain ⟨inside, suits, _⟩ := List.findIdx?_eq_some_iff_getElem.mp earlier
      refine ⟨index, others[index], lookup, ?_, Or.inr ⟨List.getElem_mem inside, suits⟩⟩
      rw [reps, List.getElem?_append_left inside, List.getElem?_eq_getElem inside]

/-- After a PUT that has replaced the representation of its type, a GET returns what it has carried exactly when the
resource allows the GET and the GET accepts no other type of the resource. -/
theorem Changes.returns_iff {ctx later : ServerCtx} {put get : ServerCall} {res : EcRes} {result : CallbackResult}
    {mta : List EcMt} (changes : Changes order ctx put res result) (replaces : Replaces order ctx put res)
    (kept : later.fs = result.served.ctx.fs ∧ later.limits = ctx.limits) (asks : AsksBack order later put get mta) :
    Returns order later put get ↔ Readable order later put get res mta := by
  obtain ⟨ref, handled, uri, about, there⟩ := changes.outcome
  have small : put.request.payload.length ≤ later.blockSize := by
    have same : later.bsz = ctx.bsz := congrArg Prod.fst kept.2
    unfold ServerCtx.blockSize
    rw [same]
    exact handled.small
  have place : (∀ rep ∈ res.reps, rep.mediaType ≠ put.request.mediaType order) ∨
      res.mediaTypeAt ref.index = some (put.request.mediaType order) := by
    refine replaces.found.imp_right fun found => ?_
    rw [about] at found
    exact Option.map_eq_some_iff.mpr found
  rw [replaces.buffer, List.nil_append, ← kept.1] at there
  have reps : (putRep res ref.index put.request.payload (put.request.mediaType order) put.etag).reps =
      (res.reps.filter fun rep => rep.mediaType ≠ put.request.mediaType order) ++
        [ecRepNew put.request.payload (put.request.mediaType order) put.etag] := putRep_replaces changes.distinct place
  have methods : (putRep res ref.index put.request.payload (put.request.mediaType order) put.etag).methods =
      res.methods := putRep_methods
  generalize putRep res ref.index put.request.payload (put.request.mediaType order) put.etag = res' at there reps methods
  have check : ecResourceCheckMethod res' .get = ecResourceCheckMethod res .get := by
    unfold ecResourceCheckMethod
    rw [methods]
  obtain ⟨index, rep, suitable, placed, either⟩ := suitable_appended reps asks.accepts
  obtain ⟨found, served⟩ := serve_get order asks handled.ordinary there suitable placed
  constructor
  · rintro ⟨rep', filled, response, found', type, data, inside, served', code, _⟩
    have same := Option.some.inj (found.symm.trans found')
    subst same
    rw [served] at served'
    have allowed : ecResourceCheckMethod res' .get = 0 := by
      by_contra refused
      rw [if_pos refused] at served'
      cases served'
      cases code
    refine ⟨check.symm.trans allowed, ?_, (setPayload_isSome_iff order later get.request _ _).mp (by rw [inside]; rfl)⟩
    rcases either with ⟨alone, _⟩ | ⟨member, _⟩
    · intro other member different
      exact alone other (List.mem_filter.mpr ⟨member, by simpa using different⟩)
    · exact absurd type (by simpa using (List.mem_filter.mp member).2)
  · intro readable
    have allowed : ecResourceCheckMethod res' .get = 0 := check.trans readable.allowed
    have written : rep = ecRepNew put.request.payload (put.request.mediaType order) put.etag := by
      rcases either with ⟨_, same⟩ | ⟨member, accepted⟩
      · exact same
      · obtain ⟨member, different⟩ := List.mem_filter.mp member
        have refused := readable.alone rep member (by simpa using different)
        cases refused.symm.trans accepted
    subst written
    rw [if_neg (not_not_intro allowed)] at served
    obtain ⟨filled, inside⟩ := Option.isSome_iff_exists.mp
      ((setPayload_isSome_iff order later get.request put.request.payload Response.new).mpr readable.inside)
    have got : ∃ response, serveGet order later get res'
        (ecRepNew put.request.payload (put.request.mediaType order) put.etag) Response.new = some response := by
      unfold serveGet
      change ∃ response, (setPayload order later get.request put.request.payload Response.new).map _ = some response
      rw [inside]
      exact ⟨_, rfl⟩
    obtain ⟨response, got⟩ := got
    rw [got] at served
    obtain ⟨filled', inside', code, payload⟩ := serveGet_some order got
    have same := Option.some.inj (inside.symm.trans inside')
    subst same
    refine ⟨_, filled, response, found, rfl, rfl, inside, served, code, payload, fun whole => ?_⟩
    exact payload.trans (setPayload_all order whole small inside)

/-- A PUT without Block1 that is answered 2.04 leaves exactly one representation of its type, with its payload, next to
the unchanged others, and is read back by a later GET, exactly when it has replaced the representation of its type and
the GET can be answered from that alone. -/
theorem readYourWrites_iff (ctx : ServerCtx) (put : ServerCall) (res : EcRes) (result : CallbackResult)
    (changes : Changes order ctx put res result) :
    (Written order result.served.ctx put res ↔ Replaces order ctx put res) ∧
      ∀ between later get mta, (serverMachine order).Meets (Unwritten order) result.served.ctx between →
        (serverMachine order).run result.served.ctx between = .ok later → AsksBack order later put get mta →
        (Written order result.served.ctx put res ∧ Returns order later put get ↔
          Replaces order ctx put res ∧ Readable order later put get res mta) := by
  refine ⟨changes.written_iff, fun between later get mta reads ran asks => ?_⟩
  obtain ⟨fs, limits⟩ := serverRun_unwritten order reads ran
  have kept : later.fs = result.served.ctx.fs ∧ later.limits = ctx.limits :=
    ⟨fs, limits.trans (serve_limits order changes.served)⟩
  rw [changes.written_iff]
  exact and_congr_right fun replaces => changes.returns_iff order replaces kept asks

end Serving

/-- The resource of the upload next to a JSON representation, which comes first. -/
def jsonAndText : EcRes :=
  {emptyText with reps := [⟨50, Vector.replicate 4 0, [1]⟩, ⟨ecMtTextPlain, Vector.replicate 4 1, [2]⟩]}

def twoTypes : ServerCtx := {textServer with fs := (ecFilesysPutResource (ecFilesysCreate false) jsonAndText).1}

/-- A request to that resource, accepting text if it is asked to. -/
def textCall (method : EcMethod) (accepts : Bool) (payload : List UInt8) : ServerCall where
  request := {textTarget with
    method := method, opts := if accepts then (ecOptsAddAccept .little ecOptsInit 0).1 else ecOptsInit, payload := payload}
  resched := false
  etag := Vector.replicate 4 3
  observer := none
  wkc := none

/-- A PUT that accepts its own type is read back. -/
theorem acceptedText_returns : ∃ result, Changes .little twoTypes (textCall .put true [3]) jsonAndText result ∧
    Written .little result.served.ctx (textCall .put true [3]) jsonAndText ∧
    Returns .little result.served.ctx (textCall .put true [3]) (textCall .get true []) := by
  have changed : ∃ result, Changes .little twoTypes (textCall .put true [3]) jsonAndText result ∧
      result.served.ctx.sep.sec = 0 :=
    ⟨_, ⟨rfl, rfl, rfl, by decide, rfl, rfl⟩, rfl⟩
  obtain ⟨result, changes, prompt⟩ := changed
  have asks : AsksBack .little result.served.ctx (textCall .put true [3]) (textCall .get true []) [0] :=
    ⟨rfl, rfl, rfl, rfl, fun later => later.2 prompt, by decide, by decide⟩
  have back := (readYourWrites_iff .little twoTypes (textCall .put true [3]) jsonAndText result changes).2
    [] result.served.ctx (textCall .get true []) [0] trivial rfl asks
  refine ⟨result, changes, back.mpr ⟨⟨rfl, Or.inr ⟨_, rfl, by decide⟩⟩, by decide, by decide, Or.inr ?_⟩⟩
  change 0 * _ ≤ _
  rw [Nat.zero_mul]
  exact Nat.zero_le _

/-- A PUT that accepts anything is about the JSON representation, so a GET gets the old text. -/
theorem staleText_returns : ∃ result response, Changes .little twoTypes (textCall .put false [3]) jsonAndText result ∧
    ¬ Written .little result.served.ctx (textCall .put false [3]) jsonAndText ∧
    AsksBack .little result.served.ctx (textCall .put false [3]) (textCall .get true []) [0] ∧
    serve .little result.served.ctx (textCall .get true []) = .ok (answered result.served.ctx response) ∧
    response.code = ecContent ∧ response.payload = [2] ∧
    ¬ Returns .little result.served.ctx (textCall .put false [3]) (textCall .get true []) := by
  have changes : Changes .little twoTypes (textCall .put false [3]) jsonAndText _ := ⟨rfl, rfl, rfl, by decide, rfl, rfl⟩
  refine ⟨_, _, changes, fun written => ?_, ⟨rfl, rfl, rfl, rfl, fun later => later.2 rfl, by decide, by decide⟩, rfl, rfl,
    rfl, ?_⟩
  · rcases ((changes.written_iff).mp written).found with none | ⟨rep, found, type⟩
    · exact none ⟨ecMtTextPlain, Vector.replicate 4 1, [2]⟩ (by decide) (by decide)
    · cases found
      exact absurd type (by decide)
  · rintro ⟨rep, filled, response, found, _, data, _⟩
    cases found
    exact absurd data (by decide)

end Webthings.Apps
