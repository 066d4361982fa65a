import Webthings.Evcoap.Resource

namespace Webthings.Evcoap

/-- The place of the representation of a resource, any one for `EC_MT_ANY`. -/
def ecResourceGetRep (res : EcRes) (mediaType : EcMt) (etag : Option EcEtag) : Option Nat :=
  ecResourceGetSuitableRep res (if mediaType = ecMtAny then [] else [mediaType]) etag

/-- The same lookup from the file system, whose array has one media type always. -/
def ecFilesysGetRep (fs : EcFilesys) (uri : List UInt8) (mediaType : EcMt) (etag : Option EcEtag) : Option RepRef :=
  ecFilesysGetSuitableRep fs uri [mediaType] etag

/-- The ETag is the one that is asked for, if one is. -/
def EcRep.HasEtag (rep : EcRep) (etag : Option EcEtag) : Prop := ∀ asked, etag = some asked → rep.etag = asked

instance (rep : EcRep) (etag : Option EcEtag) : Decidable (rep.HasEtag etag) :=
  decidable_of_iff (etag.all fun other => rep.etag == other) (by cases etag <;> simp [EcRep.HasEtag])

/-- A representation has the media type and the ETag that are asked for. -/
structure EcRep.Matches (rep : EcRep) (mediaType : EcMt) (etag : Option EcEtag) : Prop where
  mediaType : mediaType = ecMtAny ∨ rep.mediaType = mediaType
  etag : rep.HasEtag etag

/-- The place is the first one whose element has the property, none when no element has it. -/
def FirstPlace {Element : Type} (property : Element → Prop) (elements : List Element) : Option Nat → Prop
  | none => ∀ element ∈ elements, ¬ property element
  | some index => (∃ element, elements[index]? = some element ∧ property element) ∧
      ∀ earlier < index, ∀ element, elements[earlier]? = some element → ¬ property element

/-- The search of a list finds the first place. -/
theorem firstPlace_findIdx {Element : Type} {property : Element → Prop} {test : Element → Bool}
    (decides : ∀ element, test element = true ↔ property element) (elements : List Element) :
    FirstPlace property elements (elements.findIdx? test) := by
  cases found : elements.findIdx? test with
  | none =>
      intro element member held
      have not := List.findIdx?_eq_none_iff.mp found element member
      rw [(decides element).mpr held] at not
      cases not
  | some index =>
      obtain ⟨inside, held, before⟩ := List.findIdx?_eq_some_iff_getElem.mp found
      refine ⟨⟨elements[index], List.getElem?_eq_getElem inside, (decides _).mp held⟩, ?_⟩
      intro earlier less element there held'
      obtain ⟨within, rfl⟩ := List.getElem?_eq_some_iff.mp there
      exact before earlier less ((decides _).mpr held')

/-- There is one first place only. -/
theorem FirstPlace.unique {Element : Type} {property : Element → Prop} {elements : List Element} {a b : Option Nat}
    (left : FirstPlace property elements a) (right : FirstPlace property elements b) : a = b := by
  cases a with
  | none =>
      cases b with
      | none => rfl
      | some index =>
          obtain ⟨⟨element, there, held⟩, _⟩ := right
          exact absurd held (left element (List.mem_of_getElem? there))
  | some index =>
      obtain ⟨⟨element, there, held⟩, before⟩ := left
      cases b with
      | none => exact absurd held (right element (List.mem_of_getElem? there))
      | some other =>
          obtain ⟨⟨element', there', held'⟩, before'⟩ := right
          have notLess : ¬ index < other := fun less => before' index less element there held
          have notMore : ¬ other < index := fun more => before other more element' there' held'
          rw [Nat.le_antisymm (Nat.not_lt.mp notMore) (Nat.not_lt.mp notLess)]

/-- The element that a search finds is the one at the first place. -/
theorem FirstPlace.find {Element : Type} {property : Element → Prop} {test : Element → Bool}
    (decides : ∀ element, test element = true ↔ property element) {elements : List Element} {place : Option Nat}
    (first : FirstPlace property elements place) : elements.find? test = place.bind (elements[·]?) := by
  rw [first.unique (firstPlace_findIdx decides elements), List.find?_eq_bind_findIdx?_getElem?]

/-- The resource and its file system find the same representation, the first one that is asked for. -/
structure LookupsAgree (fs : EcFilesys) (uri : List UInt8) (res : EcRes) (mediaType : EcMt) (etag : Option EcEtag) :
    Prop where
  same : ecFilesysGetRep fs uri mediaType etag = (ecResourceGetRep res mediaType etag).map (RepRef.mk uri)
  first : FirstPlace (fun rep => rep.Matches mediaType etag) res.reps
    ((ecFilesysGetRep fs uri mediaType etag).map RepRef.index)

section Lookup

variable {fs : EcFilesys} {uri : List UInt8} {res : EcRes} (mediaType : EcMt) (etag : Option EcEtag)

theorem ecResourceGetSuitableRep_first (res : EcRes) (mta : List EcMt) :
    FirstPlace (fun rep => (mta = [] ∨ rep.mediaType ∈ mta) ∧ rep.HasEtag etag) res.reps
      (ecResourceGetSuitableRep res mta etag) := by
  apply firstPlace_findIdx
  intro rep
  unfold ecMtMatches EcRep.HasEtag
  cases etag <;> simp

/-- The lookup from the resource is the one that is asked for. -/
theorem ecResourceGetRep_first (res : EcRes) :
    FirstPlace (fun rep => rep.Matches mediaType etag) res.reps (ecResourceGetRep res mediaType etag) := by
  have first := ecResourceGetSuitableRep_first etag res (if mediaType = ecMtAny then [] else [mediaType])
  have same : (fun rep : EcRep => ((if mediaType = ecMtAny then [] else [mediaType]) = [] ∨
      rep.mediaType ∈ (if mediaType = ecMtAny then [] else [mediaType])) ∧ rep.HasEtag etag) =
      fun rep : EcRep => rep.Matches mediaType etag := by
    funext rep
    apply propext
    by_cases any : mediaType = ecMtAny
    · rw [if_pos any]
      exact ⟨fun held => ⟨.inl any, held.2⟩, fun held => ⟨.inl rfl, held.etag⟩⟩
    · rw [if_neg any]
      constructor
      · rintro ⟨empty | member, tagged⟩
        · cases empty
        · exact ⟨.inr (List.mem_singleton.mp member), tagged⟩
      · rintro ⟨all | type, tagged⟩
        · exact absurd all any
        · exact ⟨.inr (List.mem_singleton.mpr type), tagged⟩
  rw [same] at first
  exact first

theorem ecFilesysGetRep_eq (there : ecFilesysGetResource fs uri = some res) :
    ecFilesysGetRep fs uri mediaType etag =
      (ecResourceGetSuitableRep res [mediaType] etag).map (RepRef.mk uri) := by
  unfold ecFilesysGetRep ecFilesysGetSuitableRep
  rw [there]

/-- The lookups agree when the file system finds the place that the resource finds. -/
theorem lookupsAgree_iff_place (there : ecFilesysGetResource fs uri = some res) :
    LookupsAgree fs uri res mediaType etag ↔
      ecResourceGetSuitableRep res [mediaType] etag = ecResourceGetRep res mediaType etag := by
  have index : ((ecResourceGetSuitableRep res [mediaType] etag).map (RepRef.mk uri)).map RepRef.index =
      ecResourceGetSuitableRep res [mediaType] etag := by
    rw [Option.map_map]
    exact Option.map_id'
  constructor
  · intro agree
    have first := agree.first
    rw [ecFilesysGetRep_eq mediaType etag there, index] at first
    exact first.unique (ecResourceGetRep_first mediaType etag res)
  · intro same
    refine ⟨by rw [ecFilesysGetRep_eq mediaType etag there, same], ?_⟩
    rw [ecFilesysGetRep_eq mediaType etag there, index, same]
    exact ecResourceGetRep_first mediaType etag res

/-- A media type other than 255 makes the same array on both ways; 255 is searched for on the way of the file system. -/
theorem lookupsAgree_iff (there : ecFilesysGetResource fs uri = some res) :
    LookupsAgree fs uri res mediaType etag ↔
      mediaType ≠ ecMtAny ∨
        ∀ rep, res.reps.find? (fun rep => decide (rep.HasEtag etag)) = some rep → rep.mediaType = ecMtAny := by
  rw [lookupsAgree_iff_place mediaType etag there]
  by_cases any : mediaType = ecMtAny
  · subst any
    have tagged : FirstPlace (fun rep : EcRep => rep.HasEtag etag) res.reps (ecResourceGetRep res ecMtAny etag) := by
      have first := ecResourceGetRep_first ecMtAny etag res
      have same : (fun rep : EcRep => rep.Matches ecMtAny etag) = fun rep => rep.HasEtag etag :=
        funext fun rep => propext ⟨EcRep.Matches.etag, fun held => ⟨.inl rfl, held⟩⟩
      rw [same] at first
      exact first
    have listed := ecResourceGetSuitableRep_first etag res [ecMtAny]
    have found := tagged.find (fun rep => decide_eq_true_iff)
    rw [found]
    constructor
    · intro same
      refine .inr fun rep there => ?_
      cases place : ecResourceGetRep res ecMtAny etag with
      | none =>
          rw [place] at there
          cases there
      | some index =>
          rw [same, place] at listed
          obtain ⟨⟨element, at', typed, _⟩, _⟩ := listed
          rw [place, Option.bind_some, at'] at there
          cases there
          exact List.mem_singleton.mp (typed.resolve_left (List.cons_ne_nil _ _))
    · intro typed
      have typed := typed.resolve_left (not_not_intro rfl)
      apply listed.unique
      cases place : ecResourceGetRep res ecMtAny etag with
      | none =>
          rw [place] at tagged
          exact fun rep member held => tagged rep member held.2
      | some index =>
          rw [place] at tagged typed
          obtain ⟨⟨rep, at', held⟩, before⟩ := tagged
          have any := typed rep at'
          exact ⟨⟨rep, at', .inr (List.mem_singleton.mpr any), held⟩,
            fun earlier less other there held => before earlier less other there held.2⟩
  · refine ⟨fun _ => .inl any, fun _ => ?_⟩
    unfold ecResourceGetRep
    rw [if_neg any]

end Lookup

/-- A link-format document under `/`. -/
def rootRes : EcRes := ⟨[47], ecMethodMaskAll, 60, EcResAttrs.zero, [⟨ecMtLinkFormat, #v[1, 2, 3, 4], [60, 62]⟩]⟩

def rootFs : EcFilesys := (ecFilesysPutResource (ecFilesysCreate true) rootRes).1

theorem lookupsAgree_iff_root :
    ecFilesysGetResource rootFs [47] = some rootRes ∧
      LookupsAgree rootFs [47] rootRes ecMtLinkFormat (some #v[1, 2, 3, 4]) := by
  have there : ecFilesysGetResource rootFs [47] = some rootRes := by decide
  exact ⟨there, (lookupsAgree_iff ecMtLinkFormat (some #v[1, 2, 3, 4]) there).mpr (.inl (by decide))⟩

/-- The resource finds its representation for `EC_MT_ANY`, the file system does not. -/
theorem lookups_differ :
    ecFilesysGetResource rootFs [47] = some rootRes ∧ ecResourceGetRep rootRes ecMtAny none = some 0 ∧
      ecFilesysGetRep rootFs [47] ecMtAny none = none ∧ ¬ LookupsAgree rootFs [47] rootRes ecMtAny none := by
  have found : ecResourceGetRep rootRes ecMtAny none = some 0 := by decide
  have lost : ecFilesysGetRep rootFs [47] ecMtAny none = none := by decide
  refine ⟨by decide, found, lost, fun agree => ?_⟩
  have same := agree.same
  rw [found, lost] at same
  cases same

end Webthings.Evcoap
