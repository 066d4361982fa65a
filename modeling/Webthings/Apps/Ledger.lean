import Webthings.Apps.Posts
import Webthings.Apps.ReadYourWrites
import Webthings.Stores.Contents

namespace Webthings.Apps
open Webthings.Evcoap
open Webthings.Stores
open Webthings.Transition

/-- What a file system holds: under each URI, the data of each media type. -/
abbrev Held := Contents (List UInt8) EcMt (List UInt8)

def typesOf (res : EcRes) : EcMt → Option (List UInt8) := holds EcRep.mediaType EcRep.data res.reps

def heldBy (fs : EcFilesys) : Held := fun uri => (ecFilesysGetResource fs uri).map typesOf

/-- The server with the blocks of its open transfers, and what it holds according to its answers. -/
structure Ledger extends Transfers where
  held : Held

section Model

variable (order : ByteOrder)

/-- More blocks are to come. -/
def Request.goesOn (request : Request) : Bool := ((ecRequestGetBlock1 order request.opts).map BlockInfo.more).getD false

/-- What the code of an answer says of what is held: 2.04 to a PUT and 2.01 to a POST announce at the end of a transfer
the data that it has carried, 2.02 to a DELETE announces the end of a resource, and any other answer nothing. -/
def Ledger.announced (s : Ledger) (request : Request) (code : EcRc) : Change (List UInt8) EcMt (List UInt8) :=
  let data := (s.before order request).flatten ++ request.payload
  match request.method with
  | .put =>
      if code = ecChanged ∧ request.goesOn order = false then
        .write request.urlstr (request.mediaType order) data
      else .nothing
  | .post =>
      if code = ecCreated ∧ request.goesOn order = false then
        .create (createdUri request.uri s.ctx.resnum) (request.mediaType order) data
      else .nothing
  | .delete => if code = ecDeleted then .remove request.uri else .nothing
  | .get | .unset => .nothing

def ledgerStep (s : Ledger) (call : ServerCall) : Except EcFault Ledger :=
  (serve order s.ctx call).map fun result =>
    { ctx := result.served.ctx
      sent :=
        if call.request.method = .put ∨ call.request.method = .post then
          Function.update s.sent call.request.transfer (s.noted order call.request result)
        else s.sent
      held := (s.announced order call.request result.served.response.code).apply s.held }

def ledgerMachine : Machine Ledger ServerCall EcFault := ⟨ledgerStep order⟩

/-- An upload that is handled comes while no other transfer is open. The last request of a PUT is about the
representation of its media type, if the resource has one; the last one of a POST creates a resource where there was
none, or one with a URI that is too long. -/
structure Orderly (s : Ledger) (call : ServerCall) : Prop where
  others : ∀ ref res, Handled order s.ctx call ref res →
    call.request.method = .put ∨ call.request.method = .post →
    (∀ other, other ≠ call.request.transfer → s.sent other = []) ∧
      (ecRequestGetBlock1 order call.request.opts = none → s.sent call.request.transfer = [])
  writes : ∀ ref res, Handled order s.ctx call ref res → call.request.method = .put →
    call.request.goesOn order = false →
    (∀ rep ∈ res.reps, rep.mediaType ≠ call.request.mediaType order) ∨
      res.mediaTypeAt ref.index = some (call.request.mediaType order)
  creates : ∀ ref res, Handled order s.ctx call ref res → call.request.method = .post →
    call.request.goesOn order = false →
    s.ctx.fs.map.lookup (createdUri call.request.uri s.ctx.resnum) = none ∧
      (Creates s.ctx call.request.uri (receiveBlock order s.ctx call.request Response.new).response ∨
        ecUriMax ≤ (createdUri call.request.uri s.ctx.resnum).length)

/-- The file system holds what the answers so far have announced. A GET that is answered 2.05 gets a representation of
an acceptable media type with the data that was announced for it, and one that is answered 4.04 accepts nothing that was
announced. -/
structure Truthful (s : Ledger) (call : ServerCall) : Prop where
  next : ∀ next, ledgerStep order s call = .ok next → heldBy next.ctx.fs = next.held
  content : ∀ result, serve order s.ctx call = .ok result → call.request.method = .get →
    asciiStrcaseEqual call.request.path wellKnownCore = false → result.served.response.code = ecContent →
    ∃ mta res rep types, ecOptsGetAcceptAll order call.request.opts 16 = some mta ∧
      ecMtMatches rep.mediaType mta = true ∧ s.held call.request.urlstr = some types ∧
      types rep.mediaType = some rep.data ∧
      serveGet order s.ctx call res rep Response.new = some result.served.response
  absent : ∀ result, serve order s.ctx call = .ok result → call.request.method = .get →
    result.served.response.code = ecNotFound →
    ∃ mta, ecOptsGetAcceptAll order call.request.opts 16 = some mta ∧
      ∀ types, s.held call.request.urlstr = some types → ∀ mt data, types mt = some data → ecMtMatches mt mta = false

/-- What every orderly request keeps. -/
structure Ledger.Balanced (s : Ledger) : Prop where
  transfer : ∃ transfer, s.Holds transfer
  distinct : ∀ uri res, ecFilesysGetResource s.ctx.fs uri = some res → Distinct EcRep.mediaType res.reps
  held : heldBy s.ctx.fs = s.held

end Model

section Holding

/-- The contents after a resource has been stored. -/
theorem heldBy_modified (fs : EcFilesys) {uri : List UInt8} (res : EcRes) (named : uri ≠ []) :
    heldBy (fs.modified uri res) = Function.update (heldBy fs) uri (some (typesOf res)) := by
  funext other
  unfold heldBy
  by_cases same : other = uri
  · subst same
    rw [fs.modified_self res named, Function.update_self]
    rfl
  · rw [Function.update_of_ne same]
    exact congrArg (Option.map typesOf) (fs.insert_other res same)

/-- The contents after a resource has been deleted. -/
theorem heldBy_deleted (fs : EcFilesys) (uri : List UInt8) :
    heldBy (ecFilesysDelResource fs uri).1 = Function.update (heldBy fs) uri none := by
  funext other
  unfold heldBy
  rw [ecFilesysDelResource_get]
  by_cases same : other = uri
  · subst same
    rw [if_pos rfl, Function.update_self]
    rfl
  · rw [if_neg same, Function.update_of_ne same]

theorem typesOf_put {res : EcRes} {index : Nat} {data : List UInt8} {mt : EcMt} {etag : EcEtag}
    (distinct : Distinct EcRep.mediaType res.reps)
    (found : (∀ rep ∈ res.reps, rep.mediaType ≠ mt) ∨ res.mediaTypeAt index = some mt) :
    typesOf (putRep res index data mt etag) = Function.update (typesOf res) mt (some data) ∧
      Distinct EcRep.mediaType (putRep res index data mt etag).reps := by
  have reps : (putRep res index data mt etag).reps = replaced EcRep.mediaType res.reps (ecRepNew data mt etag) :=
    putRep_replaces distinct found
  unfold typesOf
  rw [reps]
  exact ⟨holds_replaced res.reps (ecRepNew data mt etag), distinct.replaced _⟩

theorem typesOf_posted (order : ByteOrder) (ctx : ServerCtx) (call : ServerCall) (data : List UInt8) :
    typesOf (postedResource order ctx call data) =
      Function.update (fun _ => none) (call.request.mediaType order) (some data) := by
  have single := @holds_replaced EcRep EcMt (List UInt8) _ EcRep.mediaType EcRep.data []
    (ecRepNew data (call.request.mediaType order) call.etag)
  exact single

end Holding

section Receptions

variable {order : ByteOrder} {ctx : ServerCtx} {call : ServerCall}

/-- What the callback makes of a request: it is turned down, it asks for the listing, there is nothing for it, or the
handler of its method gets it. -/
inductive Reception (order : ByteOrder) (ctx : ServerCtx) (call : ServerCall) : CallbackResult → Prop where
  | refused (response : Response) (cbrc : EcCbrc) (error : ¬ ecIsOk response.code)
      (other : response.code ≠ ecNotFound) : Reception order ctx call ⟨⟨ctx, response, 0, none⟩, cbrc⟩
  | listed (response : Response) (listing : asciiStrcaseEqual call.request.path wellKnownCore = true)
      (content : response.code = ecContent) : Reception order ctx call (answered ctx response)
  | missing (mta : List EcMt) (accept : ecOptsGetAcceptAll order call.request.opts 16 = some mta)
      (absent : ecFilesysGetSuitableRep ctx.fs call.request.urlstr mta none = none) :
      Reception order ctx call (answered ctx (Response.new.setCode ecNotFound))
  | reached (mta : List EcMt) (ref : RepRef) (res : EcRes) (result : CallbackResult)
      (accept : ecOptsGetAcceptAll order call.request.opts 16 = some mta)
      (found : ecFilesysGetSuitableRep ctx.fs call.request.urlstr mta none = some ref)
      (resource : ecRepGetRes ctx.fs ref = some res) (handled : serveMethod order ctx call ref res = .ok result) :
      Reception order ctx call result

theorem serve_reception {result : CallbackResult} (served : serve order ctx call = .ok result) :
    Reception order ctx call result := by
  unfold serve at served
  dsimp only at served
  split at served
  · cases served
    exact .refused _ _ (by decide) (by decide)
  split at served
  · cases served
    exact .refused _ _ (by decide) (by decide)
  split at served
  · rename_i listing
    split at served
    · cases served
    · rename_i response made
      cases served
      unfold serveWkc at made
      split at made
      · cases made
        exact .refused _ _ (by decide) (by decide)
      · split at made
        · cases made
          exact .refused _ _ (by decide) (by decide)
        · obtain ⟨filled, _, same⟩ := Option.map_eq_some_iff.mp made
          subst same
          exact .listed _ listing rfl
  split at served
  · cases served
    exact .refused _ _ (by decide) (by decide)
  · rename_i mta accept
    split at served
    · rename_i absent
      cases served
      exact .missing mta accept absent
    · rename_i ref found
      split at served
      · cases served
        exact .refused _ _ (by decide) (by decide)
      · rename_i res resource
        split at served
        · cases served
          exact .refused _ _ (by decide) (by decide)
        · exact .reached mta ref res result accept found resource served

/-- A lookup finds a representation of an acceptable media type, under the URI that it was given. -/
theorem suitable_some {fs : EcFilesys} {uri : List UInt8} {mta : List EcMt} {ref : RepRef} {res : EcRes}
    (found : ecFilesysGetSuitableRep fs uri mta none = some ref) (resource : ecRepGetRes fs ref = some res) :
    ref.uri = uri ∧ ecFilesysGetResource fs uri = some res ∧
      ∃ rep, res.reps[ref.index]? = some rep ∧ ecMtMatches rep.mediaType mta = true := by
  unfold ecFilesysGetSuitableRep at found
  cases there : ecFilesysGetResource fs uri with
  | none =>
      rw [there] at found
      cases found
  | some old =>
      rw [there] at found
      obtain ⟨index, suitable, rfl⟩ := Option.map_eq_some_iff.mp found
      cases there.symm.trans resource
      unfold ecResourceGetSuitableRep at suitable
      obtain ⟨inside, suits, _⟩ := List.findIdx?_eq_some_iff_getElem.mp suitable
      exact ⟨rfl, rfl, res.reps[index], List.getElem?_eq_getElem inside, by simpa using suits⟩

/-- A lookup that finds nothing has no representation of an acceptable media type. -/
theorem suitable_none {fs : EcFilesys} {uri : List UInt8} {mta : List EcMt} {res : EcRes}
    (absent : ecFilesysGetSuitableRep fs uri mta none = none) (there : ecFilesysGetResource fs uri = some res) :
    ∀ rep ∈ res.reps, ecMtMatches rep.mediaType mta = false := by
  unfold ecFilesysGetSuitableRep at absent
  rw [there] at absent
  have none : ecResourceGetSuitableRep res mta none = none := Option.map_eq_none_iff.mp absent
  unfold ecResourceGetSuitableRep at none
  intro rep member
  simpa using List.findIdx?_eq_none_iff.mp none rep member

theorem receiveBlock_more {request : Request} {response : Response} {more : Bool}
    (received : (receiveBlock order ctx request response).more = some more) : request.goesOn order = more := by
  unfold Request.goesOn
  rcases receiveBlock_cases order ctx request response with ⟨answer, outcome⟩ | ⟨b1, answer, found, _, _, outcome⟩ |
    ⟨found, outcome⟩
  · rw [outcome] at received
    cases received
  · rw [outcome] at received
    rw [found]
    exact Option.some.inj received
  · rw [outcome] at received
    rw [found]
    exact Option.some.inj received

end Receptions

section Uploads

variable {order : ByteOrder} {ctx : ServerCtx} {call : ServerCall} {ref : RepRef} {res : EcRes}

/-- The last request of a PUT stores the data of its transfer. -/
theorem serve_putLast (handled : Handled order ctx call ref res) (method : call.request.method = .put)
    (last : (receiveBlock order ctx call.request Response.new).more = some false) :
    let data := (receiveBlock order ctx call.request Response.new).ctx.resbuf.getD []
    let mt := call.request.mediaType order
    ∃ result, serve order ctx call = .ok result ∧ result.served.response.code = ecChanged ∧
      result.served.ctx.fs = ctx.fs.modified call.request.urlstr (putRep res ref.index data mt call.etag) ∧
      result.served.stored = some (ecRepNew data mt call.etag) := by
  obtain ⟨b1, resbuf, config⟩ := receiveBlock_config order ctx call.request Response.new
  obtain ⟨mta, _, found⟩ := handled.found
  have small := handled.small
  have uri := (suitable_some found handled.resource).1
  dsimp only
  refine ⟨_, serve_handled order (Or.inl method) handled, ?_⟩
  dsimp only
  rw [if_pos method]
  unfold servePut
  dsimp only
  rw [if_neg (by simp [handled.unconditional method]), if_neg (by omega), last, handled.resource]
  dsimp only
  rw [uri, config]
  exact ⟨rfl, rfl, rfl⟩

/-- The last request of a POST creates its resource, or the URI is too long. -/
theorem serve_postLast (handled : Handled order ctx call ref res) (method : call.request.method = .post)
    (last : (receiveBlock order ctx call.request Response.new).more = some false)
    (creates : Creates ctx call.request.uri (receiveBlock order ctx call.request Response.new).response ∨
      ecUriMax ≤ (createdUri call.request.uri ctx.resnum).length) :
    let data := (receiveBlock order ctx call.request Response.new).ctx.resbuf.getD []
    ∃ result, serve order ctx call = .ok result ∧
      (result.served.response.code = ecCreated ∧
          result.served.ctx.fs = ctx.stored (postedResource order ctx call data) ∧
          result.served.stored = some (ecRepNew data (call.request.mediaType order) call.etag) ∨
        result.served.response.code = ecInternalServerError ∧ result.served.ctx.fs = ctx.fs) := by
  obtain ⟨b1, resbuf, config⟩ := receiveBlock_config order ctx call.request Response.new
  have small := handled.small
  have posts : servePost order ctx call Response.new = createResource order
      (receiveBlock order ctx call.request Response.new).ctx call
      (receiveBlock order ctx call.request Response.new).response := by
    unfold servePost
    rw [if_neg (by omega)]
    dsimp only
    rw [last]
  dsimp only
  refine ⟨_, serve_handled order (Or.inr method) handled, ?_⟩
  dsimp only
  rw [if_neg (by simp [method]), posts]
  generalize (receiveBlock order ctx call.request Response.new).response = response at creates ⊢
  rw [config]
  rcases creates with creates | long
  · have made := @createResource_stored order {ctx with b1 := b1, resbuf := resbuf} call response creates.short
    dsimp only at made
    rw [if_neg (not_not_intro creates.unregistered), if_neg (Nat.not_lt.mpr creates.path),
      if_neg (not_not_intro creates.located)] at made
    rw [made]
    exact Or.inl ⟨rfl, rfl, rfl⟩
  · have fails : createResource order {ctx with b1 := b1, resbuf := resbuf} call response =
        failed {ctx with b1 := b1, resbuf := resbuf} response := by
      unfold createResource ecResourceNew
      dsimp only
      rw [if_neg (by decide), if_pos (by exact long)]
    rw [fails]
    exact Or.inr ⟨rfl, rfl⟩

end Uploads

section Steps

variable {order : ByteOrder} {s : Ledger} {call : ServerCall} {result : CallbackResult}

/-- The file system of the server, with the announcement that goes with it. -/
structure Ledger.Effect (order : ByteOrder) (s : Ledger) (call : ServerCall) (result : CallbackResult) : Prop where
  distinct : ∀ uri res, ecFilesysGetResource result.served.ctx.fs uri = some res → Distinct EcRep.mediaType res.reps
  held : heldBy result.served.ctx.fs = (s.announced order call.request result.served.response.code).apply s.held

/-- An answer that announces nothing comes with an unchanged file system. -/
theorem Ledger.Balanced.unchanged (balanced : s.Balanced) (fs : result.served.ctx.fs = s.ctx.fs)
    (nothing : s.announced order call.request result.served.response.code = .nothing) : s.Effect order call result := by
  refine ⟨?_, ?_⟩
  · rw [fs]
    exact balanced.distinct
  · rw [nothing, fs]
    exact balanced.held

theorem announced_error {code : EcRc} (error : ¬ ecIsOk code) : s.announced order call.request code = .nothing := by
  have changed : code ≠ ecChanged := by
    rintro rfl
    exact error (by decide)
  have created : code ≠ ecCreated := by
    rintro rfl
    exact error (by decide)
  have deleted : code ≠ ecDeleted := by
    rintro rfl
    exact error (by decide)
  unfold Ledger.announced
  dsimp only
  cases call.request.method with
  | put => exact if_neg fun both => changed both.1
  | post => exact if_neg fun both => created both.1
  | delete => exact if_neg deleted
  | get => rfl
  | unset => rfl

theorem announced_goesOn (uploads : call.request.method = .put ∨ call.request.method = .post)
    (more : call.request.goesOn order = true) (code : EcRc) : s.announced order call.request code = .nothing := by
  unfold Ledger.announced
  dsimp only
  rcases uploads with method | method
  · rw [method]
    exact if_neg fun both => by simp [more] at both
  · rw [method]
    exact if_neg fun both => by simp [more] at both

/-- The guard of the transfers, at the server as it is. -/
theorem Orderly.undisturbed (orderly : Orderly order s call)
    (uploads : call.request.method = .put ∨ call.request.method = .post) :
    Undisturbed order s.ctx s.toTransfers ⟨call, uploads⟩ := by
  refine ⟨EcFilesys.KeepsAt.refl _ _, fun ref res handled => ?_⟩
  obtain ⟨others, alone⟩ := orderly.others ref res handled uploads
  exact ⟨others, alone, fun _ _ => id⟩

theorem Ledger.Balanced.sound (balanced : s.Balanced) : s.toTransfers.Sound s.ctx :=
  ⟨rfl, rfl, balanced.transfer⟩

/-- A resource that is stored is what the answer announces. -/
theorem Ledger.Balanced.stores (balanced : s.Balanced) {uri : List UInt8} (named : uri ≠ []) {res : EcRes}
    (distinct : Distinct EcRep.mediaType res.reps) (fs : result.served.ctx.fs = s.ctx.fs.modified uri res)
    (announces : (s.announced order call.request result.served.response.code).apply s.held =
      Function.update s.held uri (some (typesOf res))) : s.Effect order call result := by
  refine ⟨?_, ?_⟩
  · intro other old there
    rw [fs] at there
    by_cases same : other = uri
    · subst same
      rw [s.ctx.fs.modified_self res named] at there
      cases there
      exact distinct
    · exact balanced.distinct other old ((s.ctx.fs.insert_other res same).symm.trans there)
  · rw [announces, fs, heldBy_modified s.ctx.fs res named, balanced.held]

/-- What an upload changes is what its answer announces. -/
theorem Ledger.Balanced.uploads (balanced : s.Balanced) (orderly : Orderly order s call)
    (uploads : call.request.method = .put ∨ call.request.method = .post)
    (served : serve order s.ctx call = .ok result) : s.Effect order call result := by
  have undisturbed := orderly.undisturbed uploads
  have content : ∀ rep, result.served.stored = some rep →
      rep.data = (s.before order call.request).flatten ++ call.request.payload :=
    fun rep stored => transfers_content balanced.sound undisturbed served stored
  by_cases handles : ∃ ref res, Handled order s.ctx call ref res
  · obtain ⟨ref, res, handled⟩ := handles
    obtain ⟨mta, _, found⟩ := handled.found
    obtain ⟨_, there, _⟩ := suitable_some found handled.resource
    have named : call.request.urlstr ≠ [] := by
      intro empty
      rw [empty] at there
      cases there
    cases received : (receiveBlock order s.ctx call.request Response.new).more with
    | none =>
        obtain ⟨left, answer, refused, fs, _, _⟩ := serve_refused order uploads handled received
        rw [served] at refused
        cases refused
        exact balanced.unchanged fs (announced_error (by decide : ¬ ecIsOk ecInternalServerError))
    | some more =>
        have goesOn := receiveBlock_more received
        cases more with
        | true =>
            obtain ⟨b1, resbuf, config⟩ := receiveBlock_config order s.ctx call.request Response.new
            obtain ⟨answer, middle, _⟩ := serve_middle order uploads handled received
            rw [served] at middle
            cases middle
            refine balanced.unchanged ?_ (announced_goesOn uploads goesOn _)
            rw [config]
        | false =>
            rcases uploads with method | method
            · obtain ⟨outcome, put, code, fs, stored⟩ := serve_putLast handled method received
              rw [served] at put
              cases put
              have data := content _ stored
              change (receiveBlock order s.ctx call.request Response.new).ctx.resbuf.getD [] = _ at data
              rw [data] at fs
              obtain ⟨types, distinct⟩ := @typesOf_put res ref.index
                ((s.before order call.request).flatten ++ call.request.payload) _ call.etag
                (balanced.distinct _ res there) (orderly.writes ref res handled method goesOn)
              apply balanced.stores named distinct fs
              have old : s.held call.request.urlstr = some (typesOf res) := by
                rw [← balanced.held]
                unfold heldBy
                rw [there]
                rfl
              unfold announced
              dsimp only
              rw [method]
              dsimp only
              rw [if_pos ⟨code, goesOn⟩, types, Change.apply, old]
              rfl
            · obtain ⟨outcome, post, ⟨code, fs, stored⟩ | ⟨code, fs⟩⟩ := serve_postLast handled method received
                (orderly.creates ref res handled method goesOn).2
              · rw [served] at post
                cases post
                have data := content _ stored
                change (receiveBlock order s.ctx call.request Response.new).ctx.resbuf.getD [] = _ at data
                rw [data] at fs
                have distinct : Distinct EcRep.mediaType (postedResource order s.ctx call
                    ((s.before order call.request).flatten ++ call.request.payload)).reps := List.nodup_singleton _
                apply balanced.stores (createdUri_named _ _) distinct fs
                unfold announced
                dsimp only
                rw [method]
                dsimp only
                rw [if_pos ⟨code, goesOn⟩, typesOf_posted]
                rfl
              · rw [served] at post
                cases post
                exact balanced.unchanged fs (announced_error (by rw [code]; decide))
  · obtain ⟨response, cbrc, refused, code, _⟩ := serve_unhandled order uploads handles
    rw [served] at refused
    cases refused
    exact balanced.unchanged rfl (announced_error code)

/-- What a GET finds is what is held. -/
theorem Ledger.Balanced.got (balanced : s.Balanced) {uri : List UInt8} {mta : List EcMt} {ref : RepRef} {res : EcRes}
    (found : ecFilesysGetSuitableRep s.ctx.fs uri mta none = some ref)
    (resource : ecRepGetRes s.ctx.fs ref = some res) : ∃ rep, res.reps[ref.index]? = some rep ∧
      ecMtMatches rep.mediaType mta = true ∧ s.held uri = some (typesOf res) ∧
      typesOf res rep.mediaType = some rep.data := by
  obtain ⟨_, there, rep, place, accepts⟩ := suitable_some found resource
  refine ⟨rep, place, accepts, ?_, (balanced.distinct uri res there).holds (List.mem_of_getElem? place)⟩
  rw [← balanced.held]
  unfold heldBy
  rw [there]
  rfl

/-- A GET that is handled is answered 2.05 from the representation that was found, and changes nothing. -/
theorem serveMethod_get {ctx : ServerCtx} {ref : RepRef} {res : EcRes} (method : call.request.method = .get)
    (handled : serveMethod order ctx call ref res = .ok result) : ∃ rep response, res.reps[ref.index]? = some rep ∧
      serveGet order ctx call res rep Response.new = some response ∧ response.code = ecContent ∧
      result = answered ctx response := by
  unfold serveMethod at handled
  rw [method] at handled
  dsimp only at handled
  split at handled
  · cases handled
  · rename_i rep place
    split at handled
    · cases handled
    · rename_i response got
      cases handled
      obtain ⟨_, _, code, _⟩ := serveGet_some order got
      exact ⟨rep, response, place, got, code, rfl⟩

/-- What a request that is no upload changes is what its answer announces. -/
theorem Ledger.Balanced.others (balanced : s.Balanced)
    (other : ¬ (call.request.method = .put ∨ call.request.method = .post))
    (served : serve order s.ctx call = .ok result) :
    s.Effect order call result ∧ result.served.ctx.b1 = s.ctx.b1 ∧ result.served.ctx.resbuf = s.ctx.resbuf := by
  obtain ⟨notPut, notPost⟩ := not_or.mp other
  cases serve_reception served with
  | refused response cbrc error _ => exact ⟨balanced.unchanged rfl (announced_error error), rfl, rfl⟩
  | listed response listing content =>
      refine ⟨balanced.unchanged rfl ?_, rfl, rfl⟩
      change s.announced order call.request response.code = .nothing
      rw [content]
      unfold announced
      dsimp only
      cases method : call.request.method with
      | put => exact absurd method notPut
      | post => exact absurd method notPost
      | delete => rfl
      | get => rfl
      | unset => rfl
  | missing mta accept absent =>
      exact ⟨balanced.unchanged rfl (announced_error (by decide : ¬ ecIsOk ecNotFound)), rfl, rfl⟩
  | reached mta ref res result accept found resource handled =>
      cases method : call.request.method with
      | put => exact absurd method notPut
      | post => exact absurd method notPost
      | get =>
          obtain ⟨rep, response, _, _, _, same⟩ := serveMethod_get method handled
          subst same
          refine ⟨balanced.unchanged rfl ?_, rfl, rfl⟩
          unfold announced
          rw [method]
      | delete =>
          unfold serveMethod serveDelete at handled
          rw [method] at handled
          dsimp only at handled
          split at handled
          · cases handled
            refine ⟨⟨?_, ?_⟩, rfl, rfl⟩
            · intro uri old there
              change ecFilesysGetResource (ecFilesysDelResource s.ctx.fs call.request.uri).1 uri = some old at there
              rw [ecFilesysDelResource_get] at there
              split at there
              · cases there
              · exact balanced.distinct uri old there
            · have removes : s.announced order call.request ecDeleted = .remove call.request.uri := by
                unfold announced
                rw [method]
                rfl
              change heldBy (ecFilesysDelResource s.ctx.fs call.request.uri).1 =
                (s.announced order call.request ecDeleted).apply s.held
              rw [removes, heldBy_deleted, balanced.held]
              rfl
          · cases handled
            exact ⟨balanced.unchanged rfl (announced_error (by decide : ¬ ecIsOk ecNotFound)), rfl, rfl⟩
      | unset =>
          unfold serveMethod at handled
          rw [method] at handled
          cases handled
          exact ⟨balanced.unchanged rfl (announced_error (by decide : ¬ ecIsOk ecNotImplemented)), rfl, rfl⟩

/-- An orderly request changes what its answer announces. -/
theorem ledgerStep_balanced {next : Ledger} (balanced : s.Balanced) (orderly : Orderly order s call)
    (stepped : ledgerStep order s call = .ok next) : next.Balanced := by
  obtain ⟨result, served, same⟩ := map_ok stepped
  by_cases uploads : call.request.method = .put ∨ call.request.method = .post
  · have effect := balanced.uploads orderly uploads served
    have transferred : transferStep order s.toTransfers ⟨call, uploads⟩ = .ok next.toTransfers := by
      unfold transferStep
      dsimp only
      rw [served]
      dsimp only
      rw [← same, if_pos uploads]
    have sound := transferStep_sound balanced.sound (orderly.undisturbed uploads) transferred
    subst same
    exact ⟨sound.held, effect.distinct, effect.held⟩
  · obtain ⟨effect, number, buffer⟩ := balanced.others uploads served
    obtain ⟨transfer, held⟩ := balanced.transfer
    subst same
    refine ⟨⟨transfer, ?_⟩, effect.distinct, effect.held⟩
    rw [if_neg uploads]
    refine ⟨held.others, ?_, ?_⟩
    · change result.served.ctx.b1.bnum.toNat = _
      rw [number]
      exact held.number
    · change result.served.ctx.resbuf.getD [] = _
      rw [buffer]
      exact held.buffer

/-- The answers to requests tell the truth. -/
theorem Ledger.Balanced.truthful (balanced : s.Balanced) (orderly : Orderly order s call) :
    Truthful order s call := by
  refine ⟨fun next stepped => (ledgerStep_balanced balanced orderly stepped).held, ?_, ?_⟩
  · intro result served method ordinary content
    cases serve_reception served with
    | refused response cbrc error _ =>
        have code : response.code = ecContent := content
        rw [code] at error
        exact absurd (by decide) error
    | listed response listing _ => cases ordinary.symm.trans listing
    | missing mta accept absent => cases content
    | reached mta ref res result accept found resource handled =>
        obtain ⟨rep, response, place, got, _, same⟩ := serveMethod_get method handled
        subst same
        obtain ⟨rep', place', accepts, held, types⟩ := balanced.got found resource
        cases place.symm.trans place'
        exact ⟨mta, res, rep, typesOf res, accept, accepts, held, types, got⟩
  · intro result served method missing
    cases serve_reception served with
    | refused response cbrc _ other => exact absurd missing other
    | listed response _ content => cases content.symm.trans missing
    | missing mta accept absent =>
        refine ⟨mta, accept, ?_⟩
        intro types held mt data present
        rw [← balanced.held] at held
        obtain ⟨res, there, same⟩ := Option.map_eq_some_iff.mp held
        subst same
        obtain ⟨rep, member, type, _⟩ := holds_mem present
        rw [← type]
        exact suitable_none absent there rep member
    | reached mta ref res result accept found resource handled =>
        obtain ⟨rep, response, _, _, content, same⟩ := serveMethod_get method handled
        subst same
        cases content.symm.trans missing

end Steps

/-- In a run of orderly requests of any kind and from any clients, the server holds exactly what its answers have
announced, and answers a GET from that. -/
theorem serverRun_truthful (order : ByteOrder) (start : ServerCtx) (number : start.b1.bnum = 0)
    (buffer : start.resbuf.getD [] = [])
    (distinct : ∀ uri res, ecFilesysGetResource start.fs uri = some res → Distinct EcRep.mediaType res.reps)
    (calls : List ServerCall)
    (orderly : (ledgerMachine order).Meets (Orderly order) ⟨⟨start, fun _ => []⟩, heldBy start.fs⟩ calls) :
    (ledgerMachine order).Meets (Truthful order) ⟨⟨start, fun _ => []⟩, heldBy start.fs⟩ calls := by
  have initial : Ledger.Balanced ⟨⟨start, fun _ => []⟩, heldBy start.fs⟩ := by
    refine ⟨⟨⟨SockAddr.zero, [], .unset⟩, fun _ _ => rfl, ?_, buffer⟩, distinct, rfl⟩
    change start.b1.bnum.toNat = 0
    rw [number]
    rfl
  refine orderly.imp Ledger.Balanced (Truthful order) ?_ ?_ initial
  · intro s call next balanced allowed stepped
    exact ledgerStep_balanced balanced allowed stepped
  · intro s call balanced allowed
    exact balanced.truthful allowed

/-- A text is put in the place of another one, next to a JSON representation, and asked for. -/
theorem replacedText_truthful : (ledgerMachine .little).Meets (Truthful .little)
    ⟨⟨twoTypes, fun _ => []⟩, heldBy twoTypes.fs⟩ [textCall .put true [3], textCall .get true []] := by
  have resource : ∀ uri res, ecFilesysGetResource twoTypes.fs uri = some res → res = jsonAndText := by
    intro uri res there
    unfold ecFilesysGetResource at there
    split at there
    · cases there
    · have member := AList.mem_lookup_iff.mp there
      change (⟨uri, res⟩ : Sigma fun _ => EcRes) ∈ [⟨jsonAndText.uri, jsonAndText⟩] at member
      cases List.mem_singleton.mp member
      rfl
  have distinct : ∀ uri res, ecFilesysGetResource twoTypes.fs uri = some res → Distinct EcRep.mediaType res.reps := by
    intro uri res there
    rw [resource uri res there]
    decide
  apply serverRun_truthful .little twoTypes rfl rfl distinct
  have put : Orderly .little ⟨⟨twoTypes, fun _ => []⟩, heldBy twoTypes.fs⟩ (textCall .put true [3]) := by
    refine ⟨fun _ _ _ _ => ⟨fun _ _ => rfl, fun _ => rfl⟩, ?_, fun _ _ _ method => by cases method⟩
    intro ref res handled _ _
    obtain ⟨mta, accept, found⟩ := handled.found
    have same := resource _ res handled.resource
    have accepted : ecOptsGetAcceptAll .little (textCall .put true [3]).request.opts 16 = some [0] := by decide
    cases accept.symm.trans accepted
    have place : ecFilesysGetSuitableRep twoTypes.fs (textCall .put true [3]).request.urlstr [0] none =
        some ⟨jsonAndText.uri, 1⟩ := rfl
    cases found.symm.trans place
    subst same
    exact Or.inr rfl
  refine ⟨put, fun next _ => ⟨?_, fun _ _ => trivial⟩⟩
  refine ⟨fun _ _ _ uploads => ?_, fun _ _ _ method => (nomatch method), fun _ _ _ method => (nomatch method)⟩
  rcases uploads with method | method
  · cases method
  · cases method

end Webthings.Apps
