import Webthings.Apps.ReadYourWrites

namespace Webthings.Apps
open Webthings.Evcoap
open Webthings.Transition

def ecNotAcceptable : EcRc := 134

/-- The lifetime of a publication without Max-Age. -/
def publishDefaultMaxAge : UInt32 := 3600

/-- The 8-bit mask goes into the first byte of the wider one. -/
def ecRequestGetPublish (order : ByteOrder) (opts : EcOpts) : Option EcMethodMask :=
  (ecOptsGetPublish order opts).map fun mm =>
    match order with
    | .little => mm.toUInt32
    | .big => mm.toUInt32 <<< 24

/-- The cache of the CoAP proxy and the URLs that `cache_serve` is registered for. -/
structure PubProxy where
  cache : EcFilesys
  resources : List (List UInt8)

def PubProxy.init : PubProxy := ⟨ecFilesysCreate false, []⟩

/-- A request to the proxy, the random ETag, and whether a request towards the origin can be made and sent. -/
structure ProxyCall where
  request : Request
  etag : EcEtag
  forwards : Bool

/-- What a callback of the proxy leaves and returns to the server. -/
structure ProxyAnswer where
  proxy : PubProxy
  response : Response
  cbrc : EcCbrc

def PubProxy.ready (proxy : PubProxy) (response : Response) : ProxyAnswer := ⟨proxy, response, .ready⟩

/-- The error path of both callbacks. -/
def PubProxy.error (proxy : PubProxy) : ProxyAnswer := ⟨proxy, Response.new, .error⟩

section Callbacks

variable (order : ByteOrder)

/-- The resource with all its representations is dropped. -/
def PubProxy.dropped (proxy : PubProxy) (uri : List UInt8) : PubProxy :=
  ⟨(ecFilesysDelResource proxy.cache uri).1, ecUnregisterCb proxy.resources uri⟩

/-- The content type is looked at when the request has none, and is text/plain then. -/
def cacheDelete (proxy : PubProxy) (call : ProxyCall) : ProxyAnswer :=
  let uri := call.request.uri
  match ecRequestGetPublish order call.request.opts with
  | none => proxy.ready (Response.new.setCode ecBadRequest)
  | some mm =>
      if mm ≠ 0 then proxy.ready (Response.new.setCode ecBadRequest)
      else
        match ecFilesysGetResource proxy.cache uri with
        | none => proxy.ready (Response.new.setCode ecNotFound)
        | some res =>
            match ecRequestGetContentType order call.request.opts with
            | none =>
                match ecResourceGetSuitableRep res [ecMtTextPlain] none with
                | none => proxy.ready (Response.new.setCode ecNotAcceptable)
                | some index =>
                    let rest := ecRepDel res index
                    let left := {proxy with cache := proxy.cache.modified uri rest}
                    let kept := if rest.reps = [] then left.dropped uri else left
                    kept.ready (Response.new.setCode ecDeleted)
            | some _ => (proxy.dropped uri).ready (Response.new.setCode ecDeleted)

/-- The resource with the new representation instead of the one of its type, if there is one. -/
def republished (res : EcRes) (data : List UInt8) (t : EcMt) (etag : EcEtag) : EcRes :=
  let grown := ecResourceAddRep res data t etag
  match ecResourceGetSuitableRep res [t] none with
  | none => grown
  | some index => ecRepDel grown index

def cachePut (proxy : PubProxy) (call : ProxyCall) : ProxyAnswer :=
  let request := call.request
  let res := ecFilesysGetResource proxy.cache request.uri
  if res.isSome ∧ ecOptsGetIfNoneMatch request.opts then
    proxy.ready (Response.new.setCode ecPreconditionFailed)
  else
    match request.isProxy, ecRequestGetPublish order request.opts with
    | true, some mm =>
        if mm = 0 then proxy.ready (Response.new.setCode ecBadOption)
        else
          match res with
          | none => proxy.error
          | some res =>
              let updated := republished res request.payload (request.mediaType order) call.etag
              let tagged := (Response.new.adding fun opts => ecOptsAddEtag opts call.etag.toList).1
              PubProxy.ready {proxy with cache := proxy.cache.modified request.uri updated} (tagged.setCode ecChanged)
    | _, _ => proxy.ready (Response.new.setCode ecNotImplemented)

/-- The response that carries a representation of a resource. -/
def cachedResponse (res : EcRes) (rep : EcRep) (mta : List EcMt) : Response :=
  let tagged := ({Response.new with payload := rep.data}.adding fun opts => ecOptsAddEtag opts rep.etag.toList).1
  let typed :=
    if mta = [] then tagged
    else (tagged.adding fun opts => ecOptsAddContentType order opts rep.mediaType.toUInt16).1
  let aged :=
    if res.maxAge ≠ UInt32.ofNat ecCoapDefaultMaxAge then
      (typed.adding fun opts => ecOptsAddMaxAge order opts res.maxAge).1
    else typed
  aged.setCode ecContent

def cacheGet (proxy : PubProxy) (call : ProxyCall) (mta : List EcMt) : ProxyAnswer :=
  let found := (ecFilesysGetSuitableRep proxy.cache call.request.uri mta none).bind fun ref =>
    (ecRepGetRes proxy.cache ref).bind fun res => (res.reps[ref.index]?).map (Prod.mk res)
  match found with
  | none => proxy.ready (Response.new.setCode ecNotFound)
  | some (res, rep) => proxy.ready (cachedResponse order res rep mta)

/-- The callback of the published resources, which does not ask for the methods that a resource allows. -/
def cacheServe (proxy : PubProxy) (call : ProxyCall) : ProxyAnswer :=
  match ecOptsGetAcceptAll order call.request.opts 16 with
  | none => proxy.error
  | some mta =>
      match call.request.method with
      | .get => cacheGet order proxy call mta
      | .put => cachePut order proxy call
      | .delete => cacheDelete order proxy call
      | .post => proxy.ready (Response.new.setCode ecNotImplemented)
      | .unset => proxy.error

/-- The creation of a published resource; a failure to register it comes after it is in the cache. -/
def publish (proxy : PubProxy) (call : ProxyCall) (mask : EcMethodMask) : ProxyAnswer :=
  let request := call.request
  let maxAge := (ecOptsGetMaxAge order request.opts).getD publishDefaultMaxAge
  match ecResourceNew request.uri mask maxAge with
  | none => proxy.error
  | some res =>
      let put := ecFilesysPutResource proxy.cache
        (ecResourceAddRep res request.payload (request.mediaType order) call.etag)
      if put.2 ≠ 0 then proxy.error
      else
        let registered := ecRegisterCb proxy.resources request.uri
        let attached : PubProxy := ⟨put.1, registered.1⟩
        if registered.2 ≠ 0 then attached.error else attached.ready (Response.new.setCode ecCreated)

/-- The fallback, for what is not published. -/
def proxyReq (proxy : PubProxy) (call : ProxyCall) : ProxyAnswer :=
  let request := call.request
  if request.isProxy = false then proxy.ready (Response.new.setCode ecBadRequest)
  else if request.method = .unset then proxy.error
  else
    match request.method, ecRequestGetPublish order request.opts with
    | .put, some mask => publish order proxy call mask
    | _, _ => if call.forwards then ⟨proxy, Response.new, .wait⟩ else proxy.error

/-- A callback is registered for the URL of the request, which has no query. -/
def PubProxy.registered (proxy : PubProxy) (request : Request) : Bool :=
  proxy.resources.any fun path => asciiStrcaseEqual path request.urlstr

/-- The server calls the callback of the URL or else the fallback. -/
def proxyServe (proxy : PubProxy) (call : ProxyCall) : ProxyAnswer :=
  if proxy.registered call.request then cacheServe order proxy call else proxyReq order proxy call

end Callbacks

section History

variable (order : ByteOrder)

/-- What a Publish has carried, and when it was accepted. -/
structure Publication where
  time : Nat
  data : List UInt8

/-- The proxy with the number of requests so far and the last publication of each media type of a URI. -/
structure Publications where
  proxy : PubProxy
  clock : Nat
  latest : List UInt8 → EcMt → Option Publication

def Publications.init : Publications := ⟨PubProxy.init, 0, fun _ _ => none⟩

/-- A PUT with a Publish option that is answered 2.01 or 2.04. -/
def Published (call : ProxyCall) (answer : ProxyAnswer) : Prop :=
  call.request.method = .put ∧ (ecRequestGetPublish order call.request.opts).isSome ∧ answer.cbrc = .ready ∧
    (answer.response.code = ecCreated ∨ answer.response.code = ecChanged)

instance (call : ProxyCall) (answer : ProxyAnswer) : Decidable (Published order call answer) :=
  inferInstanceAs (Decidable (_ ∧ _))

/-- The publications of a URI with a new one of the given type. -/
def noted (latest : EcMt → Option Publication) (t : EcMt) (publication : Publication) : EcMt → Option Publication :=
  Function.update latest t (some publication)

def publicationStep (s : Publications) (call : ProxyCall) : Publications :=
  let answer := proxyServe order s.proxy call
  let request := call.request
  let latest :=
    if Published order call answer then
      Function.update s.latest request.uri (noted (s.latest request.uri) (request.mediaType order)
        ⟨s.clock, request.payload⟩)
    else s.latest
  ⟨answer.proxy, s.clock + 1, latest⟩

/-- The proxy, called with one request after the other. -/
def publicationMachine : Machine Publications ProxyCall EcFault := ⟨fun s call => .ok (publicationStep order s call)⟩

/-- A Publish that comes to the fallback is for a URI that no callback is registered for. -/
def Registrable (s : Publications) (call : ProxyCall) : Prop :=
  s.proxy.registered call.request = false → call.request.method = .put →
    (ecRequestGetPublish order call.request.opts).isSome → (ecRegisterCb s.proxy.resources call.request.uri).2 = 0

/-- A request with a method that the resource does not allow is answered 4.05 and changes nothing, and a GET, which is
the method that the proxy implements for requests without Publish, is served as it should if the resource allows it. -/
structure Delegated (s : Publications) (call : ProxyCall) (res : EcRes) (served : Response → Prop) : Prop where
  refused : ecResourceCheckMethod res call.request.method ≠ 0 →
    (proxyServe order s.proxy call).cbrc = .ready ∧
      (proxyServe order s.proxy call).response.code = ecMethodNotAllowed ∧
      (proxyServe order s.proxy call).proxy.cache = s.proxy.cache
  implemented : ecResourceCheckMethod res call.request.method = 0 → call.request.method = .get →
    (proxyServe order s.proxy call).cbrc = .ready ∧
      (proxyServe order s.proxy call).response.code = ecContent ∧ served (proxyServe order s.proxy call).response

/-- The resource allows the method, and a GET comes to the callback with readable Accept values that meet `suits`. -/
structure Delegable (s : Publications) (call : ProxyCall) (res : EcRes) (suits : List EcMt → Prop) : Prop where
  allowed : ecResourceCheckMethod res call.request.method = 0
  servable : call.request.method = .get → s.proxy.registered call.request = true ∧
    ∃ mta, ecOptsGetAcceptAll order call.request.opts 16 = some mta ∧ suits mta

/-- The representations of a resource with a type that a request accepts. -/
def acceptedReps (res : EcRes) (mta : List EcMt) : List EcRep :=
  res.reps.filter fun rep => ecMtMatches rep.mediaType mta

/-- The payload is what was published last of an accepted type. -/
def FromLatest (s : Publications) (request : Request) (res : EcRes) (response : Response) : Prop :=
  ∃ mta rep publication, ecOptsGetAcceptAll order request.opts 16 = some mta ∧ rep ∈ acceptedReps res mta ∧
    s.latest request.uri rep.mediaType = some publication ∧ response.payload = publication.data

/-- The payload is what was published last of all accepted types. -/
def FromNewest (s : Publications) (request : Request) (res : EcRes) (response : Response) : Prop :=
  ∃ mta rep publication, ecOptsGetAcceptAll order request.opts 16 = some mta ∧ rep ∈ acceptedReps res mta ∧
    s.latest request.uri rep.mediaType = some publication ∧ response.payload = publication.data ∧
    ∀ other ∈ acceptedReps res mta, ∀ earlier, s.latest request.uri other.mediaType = some earlier →
      earlier.time ≤ publication.time

/-- Some representation has an accepted type. -/
def Accepts (res : EcRes) (mta : List EcMt) : Prop := acceptedReps res mta ≠ []

/-- The first and the last representation of an accepted type have the same data. -/
def AcceptsOne (res : EcRes) (mta : List EcMt) : Prop :=
  ∃ first last, (acceptedReps res mta).head? = some first ∧ (acceptedReps res mta).getLast? = some last ∧
    first.data = last.data

end History

section Currency

variable {clock : Nat} {latest : EcMt → Option Publication} {reps : List EcRep}

/-- Every representation has the data of the last publication of its type, in the order of the publications. -/
structure Current (clock : Nat) (latest : EcMt → Option Publication) (reps : List EcRep) : Prop where
  published : ∀ rep ∈ reps, ∃ time, latest rep.mediaType = some ⟨time, rep.data⟩ ∧ time < clock
  ordered : reps.Pairwise fun a b => ∀ p q, latest a.mediaType = some p → latest b.mediaType = some q → p.time < q.time

theorem Current.later (current : Current clock latest reps) : Current (clock + 1) latest reps := by
  refine ⟨fun rep member => ?_, current.ordered⟩
  obtain ⟨time, there, before⟩ := current.published rep member
  exact ⟨time, there, by omega⟩

theorem Current.sublist (current : Current clock latest reps) {some : List EcRep} (part : some.Sublist reps) :
    Current clock latest some :=
  ⟨fun rep member => current.published rep (part.subset member), current.ordered.sublist part⟩

/-- No two representations have the same type. -/
theorem Current.distinct (current : Current clock latest reps) : (reps.map EcRep.mediaType).Nodup := by
  rw [List.Nodup, List.pairwise_map]
  apply current.ordered.imp_of_mem
  intro a b member _ before same
  obtain ⟨time, there, _⟩ := current.published a member
  have less := before ⟨time, a.data⟩ ⟨time, a.data⟩ there (same ▸ there)
  exact absurd less (Nat.lt_irrefl time)

/-- A publication replaces the representation of its type by one behind the others. -/
theorem Current.noted (current : Current clock latest reps) (data : List UInt8) (t : EcMt) (etag : EcEtag) :
    Current (clock + 1) (noted latest t ⟨clock, data⟩)
      ((reps.filter fun rep => rep.mediaType ≠ t) ++ [ecRepNew data t etag]) := by
  have kept := (current.sublist (List.filter_sublist (p := fun rep : EcRep => rep.mediaType ≠ t))).later
  have others : ∀ rep ∈ reps.filter fun rep => rep.mediaType ≠ t,
      Apps.noted latest t ⟨clock, data⟩ rep.mediaType = latest rep.mediaType := by
    intro rep member
    have different : rep.mediaType ≠ t := by simpa using (List.mem_filter.mp member).2
    exact Function.update_of_ne different _ _
  have own : Apps.noted latest t ⟨clock, data⟩ t = some ⟨clock, data⟩ := Function.update_self _ _ _
  constructor
  · intro rep member
    rcases List.mem_append.mp member with old | new
    · rw [others rep old]
      exact kept.published rep old
    · have same := List.mem_singleton.mp new
      subst same
      exact ⟨clock, own, Nat.lt_succ_self clock⟩
  · rw [List.pairwise_append]
    refine ⟨?_, List.pairwise_singleton _ _, ?_⟩
    · apply kept.ordered.imp_of_mem
      intro a b left right before
      rw [others a left, others b right]
      exact before
    · intro a member b new p q first second
      have same := List.mem_singleton.mp new
      subst same
      have last : q = ⟨clock, data⟩ := Option.some.inj (second.symm.trans own)
      subst last
      rw [others a member] at first
      obtain ⟨time, there, before⟩ := current.published a (List.mem_of_mem_filter member)
      have found : p = ⟨time, a.data⟩ := Option.some.inj (first.symm.trans there)
      subst found
      exact before

/-- An update replaces the representation of its type. -/
theorem republished_reps {res : EcRes} (distinct : (res.reps.map EcRep.mediaType).Nodup) (data : List UInt8) (t : EcMt)
    (etag : EcEtag) :
    (republished res data t etag).reps = (res.reps.filter fun rep => rep.mediaType ≠ t) ++ [ecRepNew data t etag] := by
  unfold republished
  dsimp only
  have lookup : ecResourceGetSuitableRep res [t] none = res.reps.findIdx? fun rep => decide (rep.mediaType = t) := by
    unfold ecResourceGetSuitableRep ecMtMatches
    simp
  cases found : ecResourceGetSuitableRep res [t] none with
  | none =>
      rw [lookup] at found
      have others := List.findIdx?_eq_none_iff.mp found
      change res.reps ++ [ecRepNew data t etag] = _
      rw [List.filter_eq_self.mpr (by simpa using others)]
  | some index =>
      rw [lookup] at found
      obtain ⟨inside, type, _⟩ := List.findIdx?_eq_some_iff_getElem.mp found
      have here : res.mediaTypeAt index = some t := by
        unfold EcRes.mediaTypeAt
        rw [List.getElem?_eq_getElem inside]
        simpa using type
      change (res.reps ++ [ecRepNew data t etag]).eraseIdx index = _
      rw [List.eraseIdx_append_of_lt_length inside, eraseIdx_distinct distinct here]

/-- The newest of some representations is the last one. -/
theorem Current.newest (current : Current clock latest reps) {last : EcRep} (there : reps.getLast? = some last)
    {rep : EcRep} (member : rep ∈ reps) : rep = last ∨
      ∀ p q, latest rep.mediaType = some p → latest last.mediaType = some q → p.time < q.time := by
  obtain ⟨before, rfl⟩ := List.getLast?_eq_some_iff.mp there
  rcases List.mem_append.mp member with old | new
  · exact Or.inr ((List.pairwise_append.mp current.ordered).2.2 rep old last (List.mem_singleton.mpr rfl))
  · exact Or.inl (List.mem_singleton.mp new)

end Currency

section Cache

variable {fs : EcFilesys} {uri other : List UInt8} {res found : EcRes}

/-- What is found after a resource was modified is that resource or was there before. -/
theorem found_modified (there : ecFilesysGetResource (fs.modified uri res) other = some found) :
    other = uri ∧ found = res ∨ other ≠ uri ∧ ecFilesysGetResource fs other = some found := by
  by_cases same : other = uri
  · subst same
    unfold ecFilesysGetResource EcFilesys.modified at there
    split at there
    · cases there
    · rw [AList.lookup_insert] at there
      exact Or.inl ⟨rfl, (Option.some.inj there).symm⟩
  · exact Or.inr ⟨same, (fs.insert_other res same).symm.trans there⟩

/-- What is found after a resource was deleted was there before. -/
theorem found_deleted (there : ecFilesysGetResource (ecFilesysDelResource fs uri).1 other = some found) :
    ecFilesysGetResource fs other = some found := by
  unfold ecFilesysDelResource at there
  split at there
  · exact there
  · unfold ecFilesysGetResource at there ⊢
    split at there
    · cases there
    · rename_i named
      rw [if_neg named]
      by_cases same : other = uri
      · subst same
        rw [AList.lookup_erase] at there
        cases there
      · rwa [AList.lookup_erase_ne same] at there

/-- Nothing is added to the cache. -/
def Shrinks (fs fs' : EcFilesys) : Prop :=
  ∀ uri res, ecFilesysGetResource fs' uri = some res →
    ∃ old, ecFilesysGetResource fs uri = some old ∧ res.reps.Sublist old.reps

theorem Shrinks.refl (fs : EcFilesys) : Shrinks fs fs := fun _ res there => ⟨res, there, List.Sublist.refl _⟩

theorem shrinks_deleted (fs : EcFilesys) (uri : List UInt8) : Shrinks fs (ecFilesysDelResource fs uri).1 :=
  fun _ res there => ⟨res, found_deleted there, List.Sublist.refl _⟩

theorem shrinks_rep_deleted (there : ecFilesysGetResource fs uri = some res) (index : Nat) :
    Shrinks fs (fs.modified uri (ecRepDel res index)) := by
  intro other found there'
  rcases found_modified there' with ⟨rfl, rfl⟩ | ⟨_, before⟩
  · exact ⟨res, there, List.eraseIdx_sublist _ _⟩
  · exact ⟨found, before, List.Sublist.refl _⟩

theorem Shrinks.trans {a b c : EcFilesys} (first : Shrinks a b) (second : Shrinks b c) : Shrinks a c := by
  intro uri res there
  obtain ⟨middle, there', part⟩ := second uri res there
  obtain ⟨old, there'', part'⟩ := first uri middle there'
  exact ⟨old, there'', part.trans part'⟩

end Cache

section Effects

variable (order : ByteOrder) (proxy : PubProxy) (call : ProxyCall)

/-- What a request leaves of the cache: less than before, or the published representation in a new or an updated
resource; a Publish that cannot be registered is left out. No answer is 4.05. -/
inductive Effect (answer : ProxyAnswer) : Prop where
  | shrunk (unpublished : ¬ Published order call answer) (less : Shrinks proxy.cache answer.proxy.cache)
      (code : answer.response.code ≠ ecMethodNotAllowed)
  | created (accepted : Published order call answer) (res : EcRes)
      (reps : res.reps = [ecRepNew call.request.payload (call.request.mediaType order) call.etag])
      (cache : answer.proxy.cache = proxy.cache.modified call.request.uri res)
  | updated (accepted : Published order call answer) (res : EcRes)
      (there : ecFilesysGetResource proxy.cache call.request.uri = some res)
      (cache : answer.proxy.cache = proxy.cache.modified call.request.uri
        (republished res call.request.payload (call.request.mediaType order) call.etag))

variable {order proxy call}

/-- An answer with another code has published nothing. -/
theorem effect_answered {rc : EcRc} {proxy' : PubProxy} (less : Shrinks proxy.cache proxy'.cache)
    (other : rc ≠ ecCreated ∧ rc ≠ ecChanged ∧ rc ≠ ecMethodNotAllowed) :
    Effect order proxy call (proxy'.ready (Response.new.setCode rc)) := by
  refine .shrunk ?_ less other.2.2
  rintro ⟨_, _, _, code | code⟩
  · exact other.1 code
  · exact other.2.1 code

/-- A request that is not answered at once has published nothing. -/
theorem effect_pending {cbrc : EcCbrc} (pending : cbrc ≠ .ready) :
    Effect order proxy call ⟨proxy, Response.new, cbrc⟩ :=
  .shrunk (fun accepted => pending accepted.2.2.1) (Shrinks.refl _) (show (0 : Int) ≠ 133 by decide)

theorem Effect.code {answer : ProxyAnswer} (effect : Effect order proxy call answer) :
    answer.response.code ≠ ecMethodNotAllowed := by
  have other : ∀ accepted : Published order call answer, answer.response.code ≠ ecMethodNotAllowed := by
    intro accepted
    rcases accepted.2.2.2 with code | code
    · rw [code]
      decide
    · rw [code]
      decide
  cases effect with
  | shrunk _ _ code => exact code
  | created accepted _ _ _ => exact other accepted
  | updated accepted _ _ _ => exact other accepted

variable (order proxy call)

theorem cacheDelete_effect : Effect order proxy call (cacheDelete order proxy call) := by
  unfold cacheDelete
  dsimp only
  split
  · exact effect_answered (Shrinks.refl _) (by decide)
  split
  · exact effect_answered (Shrinks.refl _) (by decide)
  split
  · exact effect_answered (Shrinks.refl _) (by decide)
  rename_i res there
  split
  · split
    · exact effect_answered (Shrinks.refl _) (by decide)
    · rename_i index _
      refine effect_answered ?_ (by decide)
      split
      · exact (shrinks_rep_deleted there index).trans (shrinks_deleted _ _)
      · exact shrinks_rep_deleted there index
  · exact effect_answered (shrinks_deleted _ _) (by decide)

theorem cachePut_effect (method : call.request.method = .put) :
    Effect order proxy call (cachePut order proxy call) := by
  unfold cachePut
  dsimp only
  split
  · exact effect_answered (Shrinks.refl _) (by decide)
  split
  · rename_i publish
    split
    · exact effect_answered (Shrinks.refl _) (by decide)
    split
    · exact effect_pending (by decide)
    · rename_i res there
      refine .updated ⟨method, by rw [publish]; rfl, rfl, Or.inr rfl⟩ res there rfl
  · exact effect_answered (Shrinks.refl _) (by decide)

theorem cachedResponse_payload (res : EcRes) (rep : EcRep) (mta : List EcMt) :
    (cachedResponse order res rep mta).payload = rep.data := by
  unfold cachedResponse
  dsimp only
  split <;> split <;> rfl

theorem cacheGet_proxy (mta : List EcMt) : (cacheGet order proxy call mta).proxy = proxy := by
  unfold cacheGet
  dsimp only
  split <;> rfl

theorem cacheGet_effect (mta : List EcMt) (method : call.request.method = .get) :
    Effect order proxy call (cacheGet order proxy call mta) := by
  refine .shrunk (fun accepted => ?_) ?_ ?_
  · cases method.symm.trans accepted.1
  · rw [cacheGet_proxy]
    exact Shrinks.refl _
  · unfold cacheGet
    dsimp only
    split
    · exact show (132 : Int) ≠ 133 by decide
    · exact show (69 : Int) ≠ 133 by decide

theorem cacheServe_effect : Effect order proxy call (cacheServe order proxy call) := by
  unfold cacheServe
  split
  · exact effect_pending (by decide)
  · rename_i mta _
    cases method : call.request.method with
    | get => exact cacheGet_effect order proxy call mta method
    | put => exact cachePut_effect order proxy call method
    | delete => exact cacheDelete_effect order proxy call
    | post => exact effect_answered (Shrinks.refl _) (by decide)
    | unset => exact effect_pending (by decide)

theorem publish_effect {mask : EcMethodMask} (method : call.request.method = .put)
    (masked : ecRequestGetPublish order call.request.opts = some mask)
    (free : (ecRegisterCb proxy.resources call.request.uri).2 = 0) :
    Effect order proxy call (publish order proxy call mask) := by
  unfold publish
  dsimp only
  cases created : ecResourceNew call.request.uri mask
      ((ecOptsGetMaxAge order call.request.opts).getD publishDefaultMaxAge) with
  | none => exact effect_pending (by decide)
  | some res =>
      have empty : res.reps = [] ∧ res.uri = call.request.uri := by
        unfold ecResourceNew at created
        split at created
        · cases created
        · split at created
          · cases created
          · cases created
            exact ⟨rfl, rfl⟩
      dsimp only
      split
      · exact effect_pending (by decide)
      · rename_i stored
        rw [if_neg (not_not_intro free)]
        refine .created ⟨method, by rw [masked]; rfl, rfl, Or.inl rfl⟩
          (ecResourceAddRep res call.request.payload (call.request.mediaType order) call.etag) ?_ ?_
        · change res.reps ++ [_] = _
          rw [empty.1]
          rfl
        · change (ecFilesysPutResource proxy.cache (ecResourceAddRep res _ _ _)).1 = _
          unfold ecFilesysPutResource at stored ⊢
          split at stored
          · exact absurd (show (-1 : Int) ≠ 0 by decide) stored
          · rename_i named
            rw [if_neg named]
            change proxy.cache.modified res.uri _ = _
            rw [empty.2]

theorem proxyReq_effect (free : call.request.method = .put → (ecRequestGetPublish order call.request.opts).isSome →
    (ecRegisterCb proxy.resources call.request.uri).2 = 0) : Effect order proxy call (proxyReq order proxy call) := by
  unfold proxyReq
  dsimp only
  split
  · exact effect_answered (Shrinks.refl _) (by decide)
  split
  · exact effect_pending (by decide)
  split
  · rename_i mask method masked
    exact publish_effect order proxy call method masked (free method (by rw [masked]; rfl))
  · split
    · exact effect_pending (by decide)
    · exact effect_pending (by decide)

theorem proxyServe_effect (free : proxy.registered call.request = false → call.request.method = .put →
    (ecRequestGetPublish order call.request.opts).isSome → (ecRegisterCb proxy.resources call.request.uri).2 = 0) :
    Effect order proxy call (proxyServe order proxy call) := by
  unfold proxyServe
  split
  · exact cacheServe_effect order proxy call
  · rename_i unregistered
    exact proxyReq_effect order proxy call (free (by simpa using unregistered))

end Effects

section Histories

variable (order : ByteOrder)

/-- All resources of the cache have what was published last. -/
def CacheCurrent (s : Publications) : Prop :=
  ∀ uri res, ecFilesysGetResource s.proxy.cache uri = some res → Current s.clock (s.latest uri) res.reps

/-- A step that accepts a publication keeps the cache current. -/
theorem CacheCurrent.accepted {s : Publications} {call : ProxyCall} (current : CacheCurrent s)
    (accepted : Published order call (proxyServe order s.proxy call)) {res : EcRes}
    (cache : (proxyServe order s.proxy call).proxy.cache = s.proxy.cache.modified call.request.uri res)
    (own : Current (s.clock + 1) (noted (s.latest call.request.uri) (call.request.mediaType order)
      ⟨s.clock, call.request.payload⟩) res.reps) : CacheCurrent (publicationStep order s call) := by
  intro uri found there
  unfold publicationStep at there ⊢
  dsimp only at there ⊢
  rw [if_pos accepted]
  rw [cache] at there
  rcases found_modified there with ⟨rfl, rfl⟩ | ⟨different, before⟩
  · rw [Function.update_self]
    exact own
  · rw [Function.update_of_ne different]
    exact (current uri found before).later

theorem publicationStep_current {s : Publications} {call : ProxyCall} (current : CacheCurrent s)
    (free : Registrable order s call) : CacheCurrent (publicationStep order s call) := by
  cases proxyServe_effect order s.proxy call free with
  | shrunk unpublished less _ =>
      intro uri res there
      obtain ⟨old, before, part⟩ := less uri res there
      unfold publicationStep
      dsimp only
      rw [if_neg unpublished]
      exact ((current uri old before).sublist part).later
  | created accepted res reps cache =>
      apply current.accepted order accepted cache
      rw [reps]
      have none : Current s.clock (s.latest call.request.uri) [] := ⟨by simp, List.Pairwise.nil⟩
      exact none.noted call.request.payload (call.request.mediaType order) call.etag
  | updated accepted res there cache =>
      have before := current call.request.uri res there
      apply current.accepted order accepted cache
      rw [republished_reps before.distinct]
      exact before.noted call.request.payload (call.request.mediaType order) call.etag

/-- After any requests whose Publish could be registered the cache is current. -/
theorem publications_current {history : List ProxyCall} {s : Publications}
    (registrable : (publicationMachine order).Meets (Registrable order) Publications.init history)
    (ran : (publicationMachine order).run Publications.init history = .ok s) : CacheCurrent s := by
  refine (publicationMachine order).run_invariant (Registrable order) CacheCurrent ?_ ?_ registrable ran
  · intro state call next current free stepped
    have same := Except.ok.inj stepped
    subst same
    exact publicationStep_current order current free
  · intro uri res there
    unfold ecFilesysGetResource at there
    split at there
    · cases there
    · cases there

variable {s : Publications} {call : ProxyCall} {res : EcRes}

/-- A request without Publish is not answered 4.05. -/
theorem proxyServe_code (proxy : PubProxy) (unpublished : ecRequestGetPublish order call.request.opts = none) :
    (proxyServe order proxy call).response.code ≠ ecMethodNotAllowed := by
  apply Effect.code
  apply proxyServe_effect
  intro _ _ there
  rw [unpublished] at there
  cases there

/-- A lookup finds the first representation that a request accepts. -/
theorem suitable_first (res : EcRes) (mta : List EcMt) :
    (ecResourceGetSuitableRep res mta none).bind (fun index => res.reps[index]?) = (acceptedReps res mta).head? := by
  have lookup : ecResourceGetSuitableRep res mta none =
      res.reps.findIdx? fun rep => ecMtMatches rep.mediaType mta := by
    unfold ecResourceGetSuitableRep
    simp
  unfold acceptedReps
  rw [lookup, List.head?_filter]
  cases found : res.reps.findIdx? fun rep => ecMtMatches rep.mediaType mta with
  | none =>
      have others := List.findIdx?_eq_none_iff.mp found
      have nothing := List.find?_eq_none.mpr fun rep member => by simpa using others rep member
      rw [nothing]
      rfl
  | some index =>
      obtain ⟨inside, suits, before⟩ := List.findIdx?_eq_some_iff_getElem.mp found
      have there : res.reps.find? (fun rep => ecMtMatches rep.mediaType mta) = some res.reps[index] :=
        List.find?_eq_some_iff_getElem.mpr ⟨suits, index, inside, rfl, fun j hj => by simpa using before j hj⟩
      rw [there]
      exact List.getElem?_eq_getElem inside

/-- A GET for a cached resource that comes to the callback is answered with the first representation it accepts. -/
theorem cacheServe_get {proxy : PubProxy} (there : ecFilesysGetResource proxy.cache call.request.uri = some res)
    (method : call.request.method = .get) {mta : List EcMt}
    (accept : ecOptsGetAcceptAll order call.request.opts 16 = some mta) :
    cacheServe order proxy call = match (acceptedReps res mta).head? with
      | none => proxy.ready (Response.new.setCode ecNotFound)
      | some rep => proxy.ready (cachedResponse order res rep mta) := by
  have found : ((ecFilesysGetSuitableRep proxy.cache call.request.uri mta none).bind fun ref =>
      (ecRepGetRes proxy.cache ref).bind fun res => (res.reps[ref.index]?).map (Prod.mk res)) =
      (acceptedReps res mta).head?.map (Prod.mk res) := by
    rw [← suitable_first res mta]
    unfold ecFilesysGetSuitableRep
    rw [there]
    dsimp only
    cases ecResourceGetSuitableRep res mta none with
    | none => rfl
    | some index =>
        have named : ecRepGetRes proxy.cache ⟨call.request.uri, index⟩ = some res := there
        dsimp only [Option.map_some, Option.bind_some]
        rw [named]
        rfl
  unfold cacheServe
  rw [accept, method]
  dsimp only
  unfold cacheGet
  rw [found]
  cases (acceptedReps res mta).head? <;> rfl

/-- The fallback never answers a GET 2.05 at once. -/
theorem proxyReq_get (proxy : PubProxy) (method : call.request.method = .get) :
    ¬ ((proxyReq order proxy call).cbrc = .ready ∧ (proxyReq order proxy call).response.code = ecContent) := by
  rintro ⟨ready, code⟩
  unfold proxyReq at ready code
  dsimp only at ready code
  rw [method] at ready code
  split at ready
  · rename_i direct
    rw [if_pos direct] at code
    cases code
  · rw [if_neg (by decide)] at ready
    change (if call.forwards = true then _ else _ : ProxyAnswer).cbrc = .ready at ready
    split at ready <;> cases ready

/-- The property of a request is told by its conditions when those for the answer are. -/
theorem delegated_iff_of {served : Response → Prop} {suits : List EcMt → Prop}
    (there : ecFilesysGetResource s.proxy.cache call.request.uri = some res)
    (unpublished : ecRequestGetPublish order call.request.opts = none)
    (exact : ∀ mta, ecOptsGetAcceptAll order call.request.opts 16 = some mta →
      ((∃ rep, (acceptedReps res mta).head? = some rep ∧ served (cachedResponse order res rep mta)) ↔ suits mta)) :
    Delegated order s call res served ↔ Delegable order s call res suits := by
  constructor
  · intro delegated
    have allowed : ecResourceCheckMethod res call.request.method = 0 := by
      by_contra refused
      exact proxyServe_code order s.proxy unpublished (delegated.refused refused).2.1
    refine ⟨allowed, fun method => ?_⟩
    obtain ⟨ready, code, good⟩ := delegated.implemented allowed method
    cases registered : s.proxy.registered call.request with
    | false =>
        have fallback : proxyServe order s.proxy call = proxyReq order s.proxy call := by
          unfold proxyServe
          rw [registered]
          rfl
        rw [fallback] at ready code
        exact absurd ⟨ready, code⟩ (proxyReq_get order s.proxy method)
    | true =>
        refine ⟨rfl, ?_⟩
        have served' : proxyServe order s.proxy call = cacheServe order s.proxy call := by
          unfold proxyServe
          rw [if_pos registered]
        rw [served'] at ready code good
        cases accept : ecOptsGetAcceptAll order call.request.opts 16 with
        | none =>
            unfold cacheServe at ready
            rw [accept] at ready
            cases ready
        | some mta =>
            refine ⟨mta, rfl, (exact mta accept).mp ?_⟩
            rw [cacheServe_get order there method accept] at code good
            cases first : (acceptedReps res mta).head? with
            | none =>
                rw [first] at code
                cases code
            | some rep =>
                rw [first] at good
                exact ⟨rep, rfl, good⟩
  · intro delegable
    refine ⟨fun refused => absurd delegable.allowed refused, fun _ method => ?_⟩
    obtain ⟨registered, mta, accept, suits⟩ := delegable.servable method
    obtain ⟨rep, first, good⟩ := (exact mta accept).mpr suits
    have answer : proxyServe order s.proxy call = s.proxy.ready (cachedResponse order res rep mta) := by
      unfold proxyServe
      rw [if_pos registered, cacheServe_get order there method accept, first]
    rw [answer]
    exact ⟨rfl, rfl, good⟩

/-- The publication that the data of a representation comes from. -/
theorem Current.data {clock : Nat} {latest : EcMt → Option Publication} {reps : List EcRep}
    (current : Current clock latest reps) {rep : EcRep} (member : rep ∈ reps) {publication : Publication}
    (there : latest rep.mediaType = some publication) : publication.data = rep.data := by
  obtain ⟨time, found, _⟩ := current.published rep member
  have same : publication = ⟨time, rep.data⟩ := Option.some.inj (there.symm.trans found)
  subst same
  rfl

/-- What is served was published last of its type. -/
theorem fromLatest_iff (current : Current s.clock (s.latest call.request.uri) res.reps) {mta : List EcMt}
    (accept : ecOptsGetAcceptAll order call.request.opts 16 = some mta) :
    (∃ rep, (acceptedReps res mta).head? = some rep ∧
      FromLatest order s call.request res (cachedResponse order res rep mta)) ↔ Accepts res mta := by
  constructor
  · rintro ⟨rep, first, _⟩ none
    rw [none] at first
    cases first
  · intro accepts
    obtain ⟨rep, rest, same⟩ := List.exists_cons_of_ne_nil accepts
    have member : rep ∈ acceptedReps res mta := by simp [same]
    obtain ⟨time, there, _⟩ := current.published rep (List.mem_of_mem_filter member)
    exact ⟨rep, by rw [same]; rfl, mta, rep, ⟨time, rep.data⟩, accept, member, there,
      cachedResponse_payload order res rep mta⟩

/-- What is served was published last of all accepted types exactly when that has the data of the one found first. -/
theorem fromNewest_iff (current : Current s.clock (s.latest call.request.uri) res.reps) {mta : List EcMt}
    (accept : ecOptsGetAcceptAll order call.request.opts 16 = some mta) :
    (∃ rep, (acceptedReps res mta).head? = some rep ∧
      FromNewest order s call.request res (cachedResponse order res rep mta)) ↔ AcceptsOne res mta := by
  have accepted : Current s.clock (s.latest call.request.uri) (acceptedReps res mta) :=
    current.sublist List.filter_sublist
  constructor
  · rintro ⟨first, found, mta', rep, publication, accept', member, there, payload, newest⟩
    have same : mta = mta' := Option.some.inj (accept.symm.trans accept')
    subst same
    rw [cachedResponse_payload] at payload
    obtain ⟨last, final⟩ : ∃ last, (acceptedReps res mta).getLast? = some last := by
      have nonempty : acceptedReps res mta ≠ [] := List.ne_nil_of_mem member
      exact ⟨_, List.getLast?_eq_some_getLast nonempty⟩
    refine ⟨first, last, found, final, ?_⟩
    have data := accepted.data member there
    rcases accepted.newest final member with equal | before
    · rw [payload, data, equal]
    · have lastMember := List.mem_of_getLast? final
      obtain ⟨time, there', _⟩ := accepted.published last lastMember
      have earlier := newest last lastMember _ there'
      exact absurd (before publication _ there there') (Nat.not_lt.mpr earlier)
  · rintro ⟨first, last, found, final, same⟩
    have member := List.mem_of_getLast? final
    obtain ⟨time, there, _⟩ := accepted.published last member
    refine ⟨first, found, mta, last, ⟨time, last.data⟩, accept, member, there, ?_, ?_⟩
    · rw [cachedResponse_payload]
      exact same
    · intro other otherMember earlier there'
      rcases accepted.newest final otherMember with rfl | before
      · exact Nat.le_of_eq (congrArg Publication.time (Option.some.inj (there'.symm.trans there)))
      · exact Nat.le_of_lt (before earlier _ there' there)

/-- After any requests whose Publish could be registered, a request without Publish for a published resource is treated
as the allowed methods say exactly when its method is allowed and, for a GET, it comes to the callback and accepts a type
that is there; it is served from the newest of all that it accepts exactly when these conditions hold and the first one
that it accepts has the data of the last. -/
theorem delegated_iff (history : List ProxyCall) (s : Publications) (call : ProxyCall) (res : EcRes)
    (registrable : (publicationMachine order).Meets (Registrable order) Publications.init history)
    (ran : (publicationMachine order).run Publications.init history = .ok s)
    (cached : ecFilesysGetResource s.proxy.cache call.request.uri = some res)
    (unpublished : ecRequestGetPublish order call.request.opts = none) :
    (Delegated order s call res (FromLatest order s call.request res) ↔ Delegable order s call res (Accepts res)) ∧
      (Delegated order s call res (FromNewest order s call.request res) ↔
        Delegable order s call res (AcceptsOne res)) := by
  have current := publications_current order registrable ran call.request.uri res cached
  exact ⟨delegated_iff_of order cached unpublished fun mta accept => fromLatest_iff order current accept,
    delegated_iff_of order cached unpublished fun mta accept => fromNewest_iff order current accept⟩

end Histories

/-- The bytes of `coap://h/r`. -/
def sleepyUri : List UInt8 := [99, 111, 97, 112, 58, 47, 47, 104, 47, 114]

/-- A request to the proxy for that URI, with a Publish option if a mask is given. -/
def sleepyCall (method : EcMethod) (mask : Option UInt8) (payload : List UInt8) : ProxyCall where
  request := {
    peer := loopback, method := method, uri := sleepyUri, urlstr := sleepyUri, path := [47, 114], isProxy := true
    opts := (mask.map fun mm => (ecOptsAddPublish .little ecOptsInit mm).1).getD ecOptsInit, payload := payload}
  etag := Vector.replicate 4 7
  forwards := true

/-- Two publications, the second one an update, that allow GET and PUT. -/
def sleepyHistory (mask : UInt8) : List ProxyCall := [sleepyCall .put (some mask) [1], sleepyCall .put (some mask) [2]]

/-- The representation that the update leaves. -/
def updatedRep : EcRep := ⟨0, Vector.replicate 4 7, [2]⟩

/-- A GET without Accept. -/
theorem sleepyRead_accepts : ecOptsGetAcceptAll .little (sleepyCall .get none []).request.opts 16 = some [] := rfl

theorem sleepyHistory_run (mask : UInt8) (good : mask = 5 ∨ mask = 4) : ∃ s res,
    (publicationMachine .little).Meets (Registrable .little) Publications.init (sleepyHistory mask) ∧
      (publicationMachine .little).run Publications.init (sleepyHistory mask) = .ok s ∧
      ecFilesysGetResource s.proxy.cache sleepyUri = some res ∧ res.methods = mask.toUInt32 ∧
      res.reps = [updatedRep] ∧ s.proxy.resources = [sleepyUri] := by
  rcases good with rfl | rfl
  · refine ⟨_, _, ⟨fun _ _ _ => rfl, fun next stepped => ?_⟩, rfl, rfl, rfl, rfl, rfl⟩
    cases stepped
    exact ⟨fun unregistered => absurd unregistered (by decide), fun _ _ => trivial⟩
  · refine ⟨_, _, ⟨fun _ _ _ => rfl, fun next stepped => ?_⟩, rfl, rfl, rfl, rfl, rfl⟩
    cases stepped
    exact ⟨fun unregistered => absurd unregistered (by decide), fun _ _ => trivial⟩

/-- A GET that the mask allows is served from the update, which is also the newest that it accepts. -/
theorem allowedRead_delegated : ∃ s res,
    (publicationMachine .little).run Publications.init (sleepyHistory 5) = .ok s ∧
      ecFilesysGetResource s.proxy.cache sleepyUri = some res ∧
      Delegated .little s (sleepyCall .get none []) res
        (FromNewest .little s (sleepyCall .get none []).request res) ∧
      (proxyServe .little s.proxy (sleepyCall .get none [])).response.payload = [2] := by
  obtain ⟨s, res, registrable, ran, cached, methods, reps, resources⟩ := sleepyHistory_run 5 (Or.inl rfl)
  have told := delegated_iff .little (sleepyHistory 5) s (sleepyCall .get none []) res registrable ran cached rfl
  have accepted : acceptedReps res [] = [updatedRep] := by
    unfold acceptedReps
    rw [reps]
    rfl
  have registered : s.proxy.registered (sleepyCall .get none []).request = true := by
    unfold PubProxy.registered
    rw [resources]
    decide
  have delegable : Delegable .little s (sleepyCall .get none []) res (AcceptsOne res) := by
    refine ⟨?_, fun _ => ⟨registered, [], sleepyRead_accepts, updatedRep, updatedRep, ?_, ?_, rfl⟩⟩
    · unfold ecResourceCheckMethod
      rw [methods]
      rfl
    · rw [accepted]
      rfl
    · rw [accepted]
      rfl
  refine ⟨s, res, ran, cached, told.2.mpr delegable, ?_⟩
  unfold proxyServe
  rw [if_pos registered, cacheServe_get .little cached rfl sleepyRead_accepts, accepted]
  exact cachedResponse_payload .little res _ []

/-- A GET that the mask does not allow is answered 2.05 all the same. -/
theorem refusedRead_served : ∃ s res,
    (publicationMachine .little).Meets (Registrable .little) Publications.init (sleepyHistory 4) ∧
      (publicationMachine .little).run Publications.init (sleepyHistory 4) = .ok s ∧
      ecFilesysGetResource s.proxy.cache sleepyUri = some res ∧ ecResourceCheckMethod res .get ≠ 0 ∧
      ecRequestGetPublish .little (sleepyCall .get none []).request.opts = none ∧
      (proxyServe .little s.proxy (sleepyCall .get none [])).cbrc = .ready ∧
      (proxyServe .little s.proxy (sleepyCall .get none [])).response.code = ecContent ∧
      (proxyServe .little s.proxy (sleepyCall .get none [])).response.payload = [2] ∧
      ¬ Delegated .little s (sleepyCall .get none []) res
        (FromLatest .little s (sleepyCall .get none []).request res) := by
  obtain ⟨s, res, registrable, ran, cached, methods, reps, resources⟩ := sleepyHistory_run 4 (Or.inr rfl)
  have registered : s.proxy.registered (sleepyCall .get none []).request = true := by
    unfold PubProxy.registered
    rw [resources]
    decide
  have answer : proxyServe .little s.proxy (sleepyCall .get none []) =
      s.proxy.ready (cachedResponse .little res updatedRep []) := by
    unfold proxyServe
    rw [if_pos registered, cacheServe_get .little cached rfl sleepyRead_accepts]
    unfold acceptedReps
    rw [reps]
    rfl
  have refused : ecResourceCheckMethod res .get ≠ 0 := by
    unfold ecResourceCheckMethod
    rw [methods]
    decide
  refine ⟨s, res, registrable, ran, cached, refused, rfl, ?_, ?_, ?_, fun delegated => ?_⟩
  · rw [answer]
    rfl
  · rw [answer]
    rfl
  · rw [answer]
    exact cachedResponse_payload .little res _ []
  · have code := (delegated.refused refused).2.1
    rw [answer] at code
    cases code

end Webthings.Apps
