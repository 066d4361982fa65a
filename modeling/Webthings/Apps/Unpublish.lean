import Webthings.Apps.PublishProxy
import Webthings.Evcoap.Lookups

namespace Webthings.Apps
open Webthings.Evcoap

/-- The two proxies have the same resources and the same registrations. -/
structure PubProxy.Same (before after : PubProxy) : Prop where
  resources : ∀ uri, ecFilesysGetResource after.cache uri = ecFilesysGetResource before.cache uri
  registrations : after.resources = before.resources

/-- A resource and the registration of its URL have disappeared, and nothing else. -/
structure PubProxy.Gone (before : PubProxy) (uri : List UInt8) (after : PubProxy) : Prop where
  resource : ecFilesysGetResource after.cache uri = none
  others : ∀ other, other ≠ uri → ecFilesysGetResource after.cache other = ecFilesysGetResource before.cache other
  registration : after.resources = before.resources.eraseP fun path => asciiStrcaseEqual path uri

/-- One resource has been changed, and nothing else. -/
structure PubProxy.Changed (before : PubProxy) (uri : List UInt8) (res : EcRes) (after : PubProxy) : Prop where
  resource : ecFilesysGetResource after.cache uri = some res
  others : ∀ other, other ≠ uri → ecFilesysGetResource after.cache other = ecFilesysGetResource before.cache other
  registrations : after.resources = before.resources

/-- One representation of a resource has been removed, and the resource with its registration if it was the last one. -/
def PubProxy.Thinned (before : PubProxy) (uri : List UInt8) (res : EcRes) (index : Nat) (after : PubProxy) : Prop :=
  if (ecRepDel res index).reps = [] then before.Gone uri after else before.Changed uri (ecRepDel res index) after

/-- A DELETE with Publish = 0. -/
def Unpublishing (order : ByteOrder) (call : ProxyCall) : Prop :=
  ecRequestGetPublish order call.request.opts = some 0

instance (order : ByteOrder) (call : ProxyCall) : Decidable (Unpublishing order call) :=
  inferInstanceAs (Decidable (_ = _))

/-- What a DELETE is to do: it removes the representation of the type that the request names, or else the resource. -/
structure Unpublishes (order : ByteOrder) (proxy : PubProxy) (call : ProxyCall) : Prop where
  named : ∀ res type, Unpublishing order call → ecFilesysGetResource proxy.cache call.request.uri = some res →
    ecOptsGetContentType order call.request.opts = some type →
      (∃ index, res.mediaTypeAt index = some type.toUInt32 ∧
        proxy.Thinned call.request.uri res index (cacheDelete order proxy call).proxy) ∨
      ((∀ rep ∈ res.reps, rep.mediaType ≠ type.toUInt32) ∧
        (cacheDelete order proxy call).response.code = ecNotAcceptable ∧
        proxy.Same (cacheDelete order proxy call).proxy)
  unnamed : ∀ res, Unpublishing order call → ecFilesysGetResource proxy.cache call.request.uri = some res →
    ecOptsGetContentType order call.request.opts = none →
      proxy.Gone call.request.uri (cacheDelete order proxy call).proxy
  other : ¬ Unpublishing order call ∨ ecFilesysGetResource proxy.cache call.request.uri = none →
    proxy.Same (cacheDelete order proxy call).proxy

theorem PubProxy.Same.refl (proxy : PubProxy) : proxy.Same proxy := ⟨fun _ => rfl, rfl⟩

section Removal

variable {proxy after : PubProxy} {uri : List UInt8} {res : EcRes}

/-- A resource that is there has not disappeared. -/
theorem PubProxy.Changed.not_gone (changed : proxy.Changed uri res after) : ¬ proxy.Gone uri after := by
  intro gone
  have lost := gone.resource
  rw [changed.resource] at lost
  cases lost

theorem PubProxy.Same.not_gone (same : proxy.Same after) (there : ecFilesysGetResource proxy.cache uri = some res) :
    ¬ proxy.Gone uri after := by
  intro gone
  have lost := gone.resource
  rw [same.resources, there] at lost
  cases lost

/-- The one representation of a resource is its last one. -/
theorem ecRepDel_empty_iff {index : Nat} {type : EcMt} (there : res.mediaTypeAt index = some type) :
    (ecRepDel res index).reps = [] ↔ ∃ rep, res.reps = [rep] ∧ rep.mediaType = type := by
  obtain ⟨rep, found, typed⟩ := Option.map_eq_some_iff.mp there
  have inside : index < res.reps.length := (List.getElem?_eq_some_iff.mp found).1
  constructor
  · intro empty
    have length : (res.reps.eraseIdx index).length = 0 := by rw [show res.reps.eraseIdx index = [] from empty]; rfl
    rw [List.length_eraseIdx_of_lt inside] at length
    have one : res.reps.length = 1 := by omega
    obtain ⟨only, single⟩ := List.length_eq_one_iff.mp one
    have first : index = 0 := by omega
    rw [single, first, List.getElem?_cons_zero] at found
    cases found
    exact ⟨_, single, typed⟩
  · rintro ⟨only, single, _⟩
    have first : index = 0 := by rw [single, List.length_singleton] at inside; omega
    unfold ecRepDel
    rw [single, first]
    rfl

/-- The representation that is found for a type has it. -/
theorem suitableRep_typed {index : Nat} {type : EcMt} (found : ecResourceGetSuitableRep res [type] none = some index) :
    res.mediaTypeAt index = some type := by
  have first := ecResourceGetSuitableRep_first none res [type]
  rw [found] at first
  obtain ⟨⟨rep, there, typed, _⟩, _⟩ := first
  unfold EcRes.mediaTypeAt
  rw [there]
  exact congrArg some (List.mem_singleton.mp (typed.resolve_left (List.cons_ne_nil _ _)))

theorem PubProxy.dropped_gone (proxy : PubProxy) (uri : List UInt8) : proxy.Gone uri (proxy.dropped uri) := by
  refine ⟨?_, ?_, rfl⟩
  · change ecFilesysGetResource (ecFilesysDelResource proxy.cache uri).1 uri = none
    rw [ecFilesysDelResource_get, if_pos rfl]
  · intro other different
    change ecFilesysGetResource (ecFilesysDelResource proxy.cache uri).1 other = _
    rw [ecFilesysDelResource_get, if_neg different]

theorem PubProxy.modified_changed (there : ecFilesysGetResource proxy.cache uri = some res) (next : EcRes) :
    proxy.Changed uri next {proxy with cache := proxy.cache.modified uri next} := by
  have named : uri ≠ [] := by
    rintro rfl
    cases there
  exact ⟨proxy.cache.modified_self next named, fun other different => proxy.cache.insert_other next different, rfl⟩

/-- What is dropped after a change is dropped as if there had been no change. -/
theorem PubProxy.Changed.gone (changed : proxy.Changed uri res after) : proxy.Gone uri (after.dropped uri) := by
  have gone := after.dropped_gone uri
  refine ⟨gone.resource, fun other different => ?_, ?_⟩
  · rw [gone.others other different, changed.others other different]
  · rw [gone.registration, changed.registrations]

/-- The removal of one representation drops the resource when the representation is the only one. -/
theorem PubProxy.Thinned.gone_iff {index : Nat} {type : EcMt} (there : res.mediaTypeAt index = some type)
    (thinned : proxy.Thinned uri res index after) :
    proxy.Gone uri after ↔ ∃ rep, res.reps = [rep] ∧ rep.mediaType = type := by
  rw [← ecRepDel_empty_iff there]
  unfold Thinned at thinned
  constructor
  · intro gone
    by_contra left
    rw [if_neg left] at thinned
    exact thinned.not_gone gone
  · intro empty
    rw [if_pos empty] at thinned
    exact thinned

end Removal

section Delete

variable {order : ByteOrder} {proxy : PubProxy} {call : ProxyCall}

/-- A DELETE that does not un-publish a cached resource is answered with an error. -/
theorem cacheDelete_other
    (other : ¬ Unpublishing order call ∨ ecFilesysGetResource proxy.cache call.request.uri = none) :
    (cacheDelete order proxy call).proxy = proxy := by
  unfold cacheDelete
  unfold Unpublishing at other
  cases published : ecRequestGetPublish order call.request.opts with
  | none => rfl
  | some mask =>
      dsimp only
      by_cases unset : mask = 0
      · subst unset
        rw [if_neg (not_not_intro rfl)]
        rw [published] at other
        rw [other.resolve_left (not_not_intro rfl)]
        rfl
      · rw [if_pos unset]
        rfl

/-- A content type makes the code drop the resource. -/
theorem cacheDelete_named {res : EcRes} {type : UInt16} (unpublishing : Unpublishing order call)
    (there : ecFilesysGetResource proxy.cache call.request.uri = some res)
    (named : ecOptsGetContentType order call.request.opts = some type) :
    proxy.Gone call.request.uri (cacheDelete order proxy call).proxy := by
  have answered : (cacheDelete order proxy call).proxy = proxy.dropped call.request.uri := by
    unfold cacheDelete ecRequestGetContentType
    rw [unpublishing]
    dsimp only
    rw [if_neg (not_not_intro rfl), there, named]
    rfl
  rw [answered]
  exact proxy.dropped_gone call.request.uri

/-- No content type makes the code look for text/plain. -/
theorem cacheDelete_unnamed {res : EcRes} (unpublishing : Unpublishing order call)
    (there : ecFilesysGetResource proxy.cache call.request.uri = some res)
    (unnamed : ecOptsGetContentType order call.request.opts = none) :
    match ecResourceGetSuitableRep res [ecMtTextPlain] none with
    | none => proxy.Same (cacheDelete order proxy call).proxy
    | some index => proxy.Thinned call.request.uri res index (cacheDelete order proxy call).proxy := by
  unfold cacheDelete ecRequestGetContentType
  rw [unpublishing]
  dsimp only
  rw [if_neg (not_not_intro rfl), there, unnamed]
  dsimp only [Option.map_none]
  cases ecResourceGetSuitableRep res [ecMtTextPlain] none with
  | none => exact PubProxy.Same.refl proxy
  | some index =>
      have changed := PubProxy.modified_changed there (ecRepDel res index)
      dsimp only [PubProxy.ready]
      unfold PubProxy.Thinned
      by_cases empty : (ecRepDel res index).reps = []
      · rw [if_pos empty, if_pos empty]
        exact changed.gone
      · rw [if_neg empty, if_neg empty]
        exact changed

/-- A DELETE that does what it is to do has found one representation, with the type that is named. -/
theorem Unpublishes.single {res : EcRes} (unpublishes : Unpublishes order proxy call)
    (unpublishing : Unpublishing order call) (there : ecFilesysGetResource proxy.cache call.request.uri = some res) :
    ∃ rep, res.reps = [rep] ∧
      rep.mediaType = ((ecOptsGetContentType order call.request.opts).map UInt16.toUInt32).getD ecMtTextPlain := by
  cases named : ecOptsGetContentType order call.request.opts with
  | none =>
      have gone := unpublishes.unnamed res unpublishing there named
      have did := cacheDelete_unnamed unpublishing there named
      cases found : ecResourceGetSuitableRep res [ecMtTextPlain] none with
      | none =>
          rw [found] at did
          exact absurd gone (did.not_gone there)
      | some index =>
          rw [found] at did
          exact (did.gone_iff (suitableRep_typed found)).mp gone
  | some type =>
      have gone := cacheDelete_named unpublishing there named
      rcases unpublishes.named res type unpublishing there named with ⟨index, typed, thinned⟩ | ⟨_, _, same⟩
      · exact (thinned.gone_iff typed).mp gone
      · exact absurd gone (same.not_gone there)

/-- The test of the content type is the wrong way round; both ways meet where the one representation has the type. -/
theorem unpublishes_iff (order : ByteOrder) (proxy : PubProxy) (call : ProxyCall) :
    Unpublishes order proxy call ↔
      ∀ res, Unpublishing order call → ecFilesysGetResource proxy.cache call.request.uri = some res →
        ∃ rep, res.reps = [rep] ∧
          rep.mediaType = ((ecOptsGetContentType order call.request.opts).map UInt16.toUInt32).getD ecMtTextPlain := by
  constructor
  · exact fun unpublishes res unpublishing there => unpublishes.single unpublishing there
  · intro single
    refine ⟨fun res type unpublishing there named => ?_, fun res unpublishing there unnamed => ?_, fun other => ?_⟩
    · obtain ⟨rep, only, typed⟩ := single res unpublishing there
      rw [named] at typed
      have at' : res.mediaTypeAt 0 = some type.toUInt32 := by
        unfold EcRes.mediaTypeAt
        rw [only, List.getElem?_cons_zero]
        exact congrArg some typed
      refine .inl ⟨0, at', ?_⟩
      unfold PubProxy.Thinned
      rw [if_pos ((ecRepDel_empty_iff at').mpr ⟨rep, only, typed⟩)]
      exact cacheDelete_named unpublishing there named
    · obtain ⟨rep, only, typed⟩ := single res unpublishing there
      rw [unnamed] at typed
      have found : ecResourceGetSuitableRep res [ecMtTextPlain] none = some 0 := by
        unfold ecResourceGetSuitableRep ecMtMatches
        rw [only]
        simp [typed]
      have did := cacheDelete_unnamed unpublishing there unnamed
      rw [found] at did
      exact (did.gone_iff (suitableRep_typed found)).mpr ⟨rep, only, typed⟩
    · rw [cacheDelete_other other]
      exact PubProxy.Same.refl proxy

end Delete

/-- A resource with two representations. -/
def bilingual : EcRes :=
  ⟨sleepyUri, 5, 60, EcResAttrs.zero,
    [⟨ecMtTextPlain, Vector.replicate 4 1, [1]⟩, ⟨ecMtLinkFormat, Vector.replicate 4 2, [2]⟩]⟩

def bilingualProxy : PubProxy := ⟨(ecFilesysPutResource (ecFilesysCreate false) bilingual).1, [sleepyUri]⟩

/-- A DELETE with Publish = 0 for the link-format representation. -/
def unpublishLinks : ProxyCall :=
  let call := sleepyCall .delete (some 0) []
  {call with request := {call.request with opts := (ecOptsAddContentType .little call.request.opts 40).1}}

/-- Both representations are lost, with the registration. -/
theorem unpublish_drops :
    ecFilesysGetResource bilingualProxy.cache sleepyUri = some bilingual ∧ Unpublishing .little unpublishLinks ∧
      ecOptsGetContentType .little unpublishLinks.request.opts = some 40 ∧
      (cacheDelete .little bilingualProxy unpublishLinks).proxy.resources = [] ∧
      ecFilesysGetResource (cacheDelete .little bilingualProxy unpublishLinks).proxy.cache sleepyUri = none ∧
      ¬ Unpublishes .little bilingualProxy unpublishLinks := by
  have there : ecFilesysGetResource bilingualProxy.cache sleepyUri = some bilingual := by decide
  have unpublishing : Unpublishing .little unpublishLinks := by decide
  refine ⟨there, unpublishing, by decide, by decide, by decide, fun unpublishes => ?_⟩
  obtain ⟨rep, only, _⟩ := unpublishes.single unpublishing there
  cases only

end Webthings.Apps
