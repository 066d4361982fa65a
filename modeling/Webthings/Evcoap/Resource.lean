import Webthings.Evcoap.ClientRequest
import Webthings.Evcoap.Registry
import Mathlib.Data.List.AList

namespace Webthings.Evcoap

/-- Media types are the integers of `ec_mt_t`, and every 16-bit one can occur. -/
abbrev EcMt := UInt32

def ecMtTextPlain : EcMt := 0
def ecMtLinkFormat : EcMt := 40
def ecMtAny : EcMt := 255

/-- Method masks are bit fields. -/
abbrev EcMethodMask := UInt32

def ecMethodMaskAll : EcMethodMask := 0xf

/-- `EC_IS_METHOD_MASK`. -/
def ecIsMethodMask (m : EcMethodMask) : Prop := 0 < m ∧ m ≤ ecMethodMaskAll

instance (m : EcMethodMask) : Decidable (ecIsMethodMask m) := inferInstanceAs (Decidable (_ ∧ _))

def ecMethodToMask : EcMethod → EcMethodMask
  | .get => 1
  | .post => 2
  | .put => 4
  | .delete => 8
  | .unset => 0xffffffff

abbrev EcEtag := Vector UInt8 4

/-- A representation; its data is empty for NULL. -/
structure EcRep where
  mediaType : EcMt
  etag : EcEtag
  data : List UInt8
  deriving DecidableEq

/-- The link-format attributes of a resource. -/
structure EcResAttrs where
  obs : Bool
  exp : Bool
  interface : List UInt8
  resType : List UInt8
  deriving DecidableEq

def EcResAttrs.zero : EcResAttrs := ⟨false, false, [], []⟩

structure EcRes where
  uri : List UInt8
  methods : EcMethodMask
  maxAge : UInt32
  attrs : EcResAttrs
  reps : List EcRep
  deriving DecidableEq

def ecResourceNew (uri : List UInt8) (methods : EcMethodMask) (maxAge : UInt32) : Option EcRes :=
  if ¬ ecIsMethodMask methods then none
  else if uri.length ≥ ecUriMax then none
  else some ⟨uri, methods, if maxAge = 0 then UInt32.ofNat ecCoapDefaultMaxAge else maxAge, EcResAttrs.zero, []⟩

/-- The ETag is drawn at random. -/
def ecRepNew (data : List UInt8) (mediaType : EcMt) (etag : EcEtag) : EcRep := ⟨mediaType, etag, data⟩

def ecResourceAddRep (res : EcRes) (data : List UInt8) (mediaType : EcMt) (etag : EcEtag) : EcRes :=
  {res with reps := res.reps ++ [ecRepNew data mediaType etag]}

/-- A representation is told by its place in the queue of its resource. -/
def ecRepDel (res : EcRes) (index : Nat) : EcRes := {res with reps := res.reps.eraseIdx index}

/-- An empty array is acceptable. -/
def ecMtMatches (mt : EcMt) (mta : List EcMt) : Bool := mta.isEmpty || mta.contains mt

def ecResourceGetSuitableRep (res : EcRes) (mta : List EcMt) (etag : Option EcEtag) : Option Nat :=
  res.reps.findIdx? fun rep => ecMtMatches rep.mediaType mta && etag.all (fun other => rep.etag == other)

def ecResourceCheckMethod (res : EcRes) (method : EcMethod) : Int :=
  if method = .unset then -1 else if res.methods &&& ecMethodToMask method ≠ 0 then 0 else -1

/-- The resources of a server under their URIs. -/
structure EcFilesys where
  map : AList fun _ : List UInt8 => EcRes
  relRefs : Bool

def ecFilesysCreate (relRefs : Bool) : EcFilesys := ⟨∅, relRefs⟩

def ecFilesysGetResource (fs : EcFilesys) (uri : List UInt8) : Option EcRes :=
  if uri = [] then none else fs.map.lookup uri

/-- An entry with the same URI is overwritten. -/
def ecFilesysPutResource (fs : EcFilesys) (res : EcRes) : EcFilesys × Int :=
  if res.uri = [] then (fs, -1) else ({fs with map := fs.map.insert res.uri res}, 0)

def ecFilesysDelResource (fs : EcFilesys) (uri : List UInt8) : EcFilesys × Int :=
  match fs.map.lookup uri with
  | none => (fs, -1)
  | some _ => ({fs with map := fs.map.erase uri}, 0)

/-- A representation that a lookup has found: the URI of its resource and its place there. -/
structure RepRef where
  uri : List UInt8
  index : Nat
  deriving DecidableEq

def ecFilesysGetSuitableRep (fs : EcFilesys) (uri : List UInt8) (mta : List EcMt) (etag : Option EcEtag) :
    Option RepRef :=
  match ecFilesysGetResource fs uri with
  | none => none
  | some res => (ecResourceGetSuitableRep res mta etag).map (RepRef.mk uri)

def ecRepGetRes (fs : EcFilesys) (rep : RepRef) : Option EcRes := ecFilesysGetResource fs rep.uri

/-- The media type of a representation, none for a place that is not there. -/
def EcRes.mediaTypeAt (res : EcRes) (index : Nat) : Option EcMt := (res.reps[index]?).map EcRep.mediaType

/-- The resource that a handler has modified in its place. -/
def EcFilesys.modified (fs : EcFilesys) (uri : List UInt8) (res : EcRes) : EcFilesys :=
  {fs with map := fs.map.insert uri res}

@[simp] theorem EcFilesys.modified_self (fs : EcFilesys) {uri : List UInt8} (res : EcRes) (named : uri ≠ []) :
    ecFilesysGetResource (fs.modified uri res) uri = some res := by
  unfold ecFilesysGetResource modified
  rw [if_neg named, AList.lookup_insert]

/-- The last representation that was added is in the resource when an earlier one is deleted. -/
theorem ecRepDel_added (res : EcRes) (data : List UInt8) (mediaType : EcMt) (etag : EcEtag) {index : Nat}
    (earlier : index < res.reps.length) :
    ecRepNew data mediaType etag ∈ (ecRepDel (ecResourceAddRep res data mediaType etag) index).reps := by
  unfold ecRepDel ecResourceAddRep
  dsimp only
  rw [List.eraseIdx_append_of_lt_length earlier]
  exact List.mem_append_right _ (List.mem_singleton.mpr rfl)

/-- An update of a resource keeps its methods and the media types of its representations. -/
structure EcRes.Keeps (res res' : EcRes) : Prop where
  methods : res'.methods = res.methods
  mediaTypes : ∀ rep ∈ res.reps, ∃ rep' ∈ res'.reps, rep'.mediaType = rep.mediaType

theorem EcRes.Keeps.refl (res : EcRes) : res.Keeps res := ⟨rfl, fun rep member => ⟨rep, member, rfl⟩⟩

theorem EcRes.Keeps.trans {a b c : EcRes} (first : a.Keeps b) (second : b.Keeps c) : a.Keeps c := by
  refine ⟨second.methods.trans first.methods, fun rep member => ?_⟩
  obtain ⟨rep', member', same⟩ := first.mediaTypes rep member
  obtain ⟨rep'', member'', same'⟩ := second.mediaTypes rep' member'
  exact ⟨rep'', member'', same'.trans same⟩

theorem EcRes.keeps_added (res : EcRes) (data : List UInt8) (mediaType : EcMt) (etag : EcEtag) :
    res.Keeps (ecResourceAddRep res data mediaType etag) :=
  ⟨rfl, fun rep member => ⟨rep, List.mem_append_left _ member, rfl⟩⟩

/-- The representation that is replaced has the media type of the new one. -/
theorem EcRes.keeps_replaced (res : EcRes) (data : List UInt8) {mediaType : EcMt} (etag : EcEtag) {index : Nat}
    (same : res.mediaTypeAt index = some mediaType) :
    res.Keeps (ecRepDel (ecResourceAddRep res data mediaType etag) index) := by
  unfold mediaTypeAt at same
  obtain ⟨old, there, type⟩ := Option.map_eq_some_iff.mp same
  have inside : index < res.reps.length := (List.getElem?_eq_some_iff.mp there).1
  refine ⟨rfl, fun rep member => ?_⟩
  by_cases replaced : rep.mediaType = mediaType
  · exact ⟨_, ecRepDel_added res data mediaType etag inside, replaced.symm⟩
  · refine ⟨rep, ?_, rfl⟩
    unfold ecRepDel ecResourceAddRep
    dsimp only
    rw [List.eraseIdx_append_of_lt_length inside]
    obtain ⟨place, within, found⟩ := List.getElem_of_mem member
    have other : place ≠ index := by
      rintro rfl
      rw [List.getElem?_eq_getElem within, found] at there
      cases there
      exact replaced type
    exact List.mem_append_left _ (List.mem_eraseIdx_iff_getElem.mpr ⟨place, within, other, found⟩)

/-- A resource that was there before is still there, and keeps what requests ask for. -/
def EcFilesys.KeepsAt (fs fs' : EcFilesys) (uri : List UInt8) : Prop :=
  ∀ res, ecFilesysGetResource fs uri = some res → ∃ res', ecFilesysGetResource fs' uri = some res' ∧ res.Keeps res'

def EcFilesys.Keeps (fs fs' : EcFilesys) : Prop := ∀ uri, fs.KeepsAt fs' uri

theorem EcFilesys.KeepsAt.refl (fs : EcFilesys) (uri : List UInt8) : fs.KeepsAt fs uri :=
  fun res found => ⟨res, found, EcRes.Keeps.refl res⟩

theorem EcFilesys.Keeps.refl (fs : EcFilesys) : fs.Keeps fs := EcFilesys.KeepsAt.refl fs

theorem EcFilesys.Keeps.trans {a b c : EcFilesys} (first : a.Keeps b) (second : b.Keeps c) : a.Keeps c := by
  intro uri res found
  obtain ⟨res', found', keeps⟩ := first uri res found
  obtain ⟨res'', found'', keeps'⟩ := second uri res' found'
  exact ⟨res'', found'', keeps.trans keeps'⟩

/-- The resources under the other URIs stay as they are. -/
theorem EcFilesys.insert_other (fs : EcFilesys) {uri other : List UInt8} (res : EcRes) (different : other ≠ uri) :
    ecFilesysGetResource {fs with map := fs.map.insert uri res} other = ecFilesysGetResource fs other := by
  unfold ecFilesysGetResource
  rw [AList.lookup_insert_ne different]

/-- The resource that is deleted is found no more; the others are. -/
theorem ecFilesysDelResource_get (fs : EcFilesys) (uri other : List UInt8) :
    ecFilesysGetResource (ecFilesysDelResource fs uri).1 other =
      if other = uri then none else ecFilesysGetResource fs other := by
  unfold ecFilesysDelResource
  cases there : fs.map.lookup uri with
  | none =>
      dsimp only
      split
      · rename_i same
        subst same
        unfold ecFilesysGetResource
        rw [there]
        split <;> rfl
      · rfl
  | some res =>
      unfold ecFilesysGetResource
      dsimp only
      by_cases same : other = uri
      · subst same
        rw [if_pos rfl, AList.lookup_erase]
        split <;> rfl
      · rw [if_neg same, AList.lookup_erase_ne same]

theorem EcFilesys.keeps_modified {fs : EcFilesys} {uri : List UInt8} {res res' : EcRes}
    (found : ecFilesysGetResource fs uri = some res) (keeps : res.Keeps res') : fs.Keeps (fs.modified uri res') := by
  have named : uri ≠ [] := by
    rintro rfl
    cases found
  intro other old there
  by_cases same : other = uri
  · subst same
    rw [found] at there
    cases there
    exact ⟨res', fs.modified_self res' named, keeps⟩
  · exact ⟨old, (fs.insert_other res' same).trans there, EcRes.Keeps.refl old⟩

/-- A new resource does not come over one that is there. -/
theorem EcFilesys.keeps_put {fs : EcFilesys} {res : EcRes} (free : fs.map.lookup res.uri = none) :
    fs.Keeps (ecFilesysPutResource fs res).1 := by
  unfold ecFilesysPutResource
  split
  · exact EcFilesys.Keeps.refl fs
  · intro other old there
    have different : other ≠ res.uri := by
      rintro rfl
      unfold ecFilesysGetResource at there
      split at there
      · cases there
      · rw [free] at there
        cases there
    exact ⟨old, (fs.insert_other res different).trans there, EcRes.Keeps.refl old⟩

theorem EcRes.Keeps.suitable {res res' : EcRes} (keeps : res.Keeps res') {mta : List EcMt} {index : Nat}
    (found : ecResourceGetSuitableRep res mta none = some index) :
    ∃ index', ecResourceGetSuitableRep res' mta none = some index' := by
  apply Option.isSome_iff_exists.mp
  have some : (ecResourceGetSuitableRep res mta none).isSome := by rw [found]; rfl
  unfold ecResourceGetSuitableRep at some ⊢
  rw [List.findIdx?_isSome, List.any_eq_true] at some ⊢
  obtain ⟨rep, member, fits⟩ := some
  obtain ⟨rep', member', same⟩ := keeps.mediaTypes rep member
  exact ⟨rep', member', by rw [same]; exact fits⟩

theorem EcRes.Keeps.check {res res' : EcRes} (keeps : res.Keeps res') (method : EcMethod) :
    ecResourceCheckMethod res' method = ecResourceCheckMethod res method := by
  unfold ecResourceCheckMethod
  rw [keeps.methods]

/-- A representation that could be found is found again, in a resource that keeps what the first one has. -/
theorem EcFilesys.KeepsAt.suitable {fs fs' : EcFilesys} {uri : List UInt8} (keeps : fs.KeepsAt fs' uri)
    {mta : List EcMt} {ref : RepRef} (found : ecFilesysGetSuitableRep fs uri mta none = some ref) {res : EcRes}
    (resource : ecRepGetRes fs ref = some res) :
    ∃ ref' res', ecFilesysGetSuitableRep fs' uri mta none = some ref' ∧ ecRepGetRes fs' ref' = some res' ∧
      res.Keeps res' := by
  unfold ecFilesysGetSuitableRep at found
  cases there : ecFilesysGetResource fs uri with
  | none =>
      rw [there] at found
      cases found
  | some old =>
      rw [there] at found
      obtain ⟨index, suitable, rfl⟩ := Option.map_eq_some_iff.mp found
      have same : old = res := Option.some.inj (there.symm.trans resource)
      subst same
      obtain ⟨res', there', kept⟩ := keeps old there
      obtain ⟨index', suitable'⟩ := kept.suitable suitable
      refine ⟨⟨uri, index'⟩, res', ?_, there', kept⟩
      unfold ecFilesysGetSuitableRep
      rw [there']
      dsimp only
      rw [suitable']
      rfl

end Webthings.Evcoap
