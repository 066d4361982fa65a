import Webthings.Apps.Transfers
import Webthings.Evcoap.Options.Additions

namespace Webthings.Apps
open Webthings.Evcoap

/-- The two servers have the same resources and the same callbacks. -/
structure ServerCtx.Same (before after : ServerCtx) : Prop where
  resources : ∀ uri, ecFilesysGetResource after.fs uri = ecFilesysGetResource before.fs uri
  callbacks : after.resources = before.resources

/-- A resource has come to a URI that had none, with its callback, and nothing else. -/
structure ServerCtx.Gained (before : ServerCtx) (uri : List UInt8) (after : ServerCtx) : Prop where
  fresh : ecFilesysGetResource before.fs uri = none
  added : (ecFilesysGetResource after.fs uri).isSome
  others : ∀ other, other ≠ uri → ecFilesysGetResource after.fs other = ecFilesysGetResource before.fs other
  callback : after.resources = before.resources ++ [uri]

/-- An error changes nothing, and 2.01 means one new resource. -/
structure AllOrNothing (before : ServerCtx) (served : Served) : Prop where
  error : served.response.code = ecInternalServerError ∨ served.response.code = ecRequestEntityTooLarge →
    before.Same served.ctx
  created : served.response.code = ecCreated → ∃ uri, before.Gained uri served.ctx

/-- The resource that a POST with this data makes. -/
def postedResource (order : ByteOrder) (ctx : ServerCtx) (call : ServerCall) (data : List UInt8) : EcRes :=
  ⟨createdUri call.request.uri ctx.resnum, ecMethodMaskAll, UInt32.ofNat ecCoapDefaultMaxAge, EcResAttrs.zero,
    [ecRepNew data (call.request.mediaType order) call.etag]⟩

/-- A block comes with another number than the expected one, or cannot be answered with a block size. -/
def PostRefused (order : ByteOrder) (ctx : ServerCtx) (request : Request) : Prop :=
  ∃ b1, ecRequestGetBlock1 order request.opts = some b1 ∧
    (b1.bnum ≠ ctx.b1.bnum ∨ ¬ BlockSize (boundedSize ctx.blockSize b1.bsz))

/-- No more blocks are to come. -/
def PostEnds (order : ByteOrder) (request : Request) : Prop :=
  ∀ b1, ecRequestGetBlock1 order request.opts = some b1 → b1.more = false

/-- The path of a URI fits into the options of a response that has this many. -/
structure Locatable (uri : List UInt8) (used : Nat) : Prop where
  absolute : 3 ≤ (slashTokens uri).length
  room : used + ((slashTokens uri).drop 2).length ≤ ecProtoMaxOptions
  segments : ∀ segment ∈ (slashTokens uri).drop 2, ShortText segment

/-- The creation changes everything or nothing: the URI is too long, or taken by an identical resource with its callback,
or new. -/
inductive CreatesWhole (order : ByteOrder) (ctx : ServerCtx) (call : ServerCall) (data : List UInt8) (used : Nat) : Prop where
  | long (long : ecUriMax ≤ (createdUri call.request.uri ctx.resnum).length)
  | identical (registered : (ecRegisterCb ctx.resources (createdUri call.request.uri ctx.resnum)).2 ≠ 0)
      (stored : ecFilesysGetResource ctx.fs (createdUri call.request.uri ctx.resnum) =
        some (postedResource order ctx call data))
  | fresh (unregistered : (ecRegisterCb ctx.resources (createdUri call.request.uri ctx.resnum)).2 = 0)
      (fresh : ecFilesysGetResource ctx.fs (createdUri call.request.uri ctx.resnum) = none)
      (locatable : Locatable (createdUri call.request.uri ctx.resnum) used)

/-- The requests that are answered as a whole. -/
inductive PostWhole (order : ByteOrder) (ctx : ServerCtx) (call : ServerCall) : Prop where
  | large (large : ctx.blockSize < call.request.payload.length)
  | refused (refused : PostRefused order ctx call.request)
  | last (ends : PostEnds order call.request)
      (creates : CreatesWhole order ctx call (ctx.resbuf.getD [] ++ call.request.payload)
        (if (ecRequestGetBlock1 order call.request.opts).isSome then 1 else 0))

/-- The segments are added when each one is a short string and there are slots for all. -/
theorem addLocationPath_ok_iff (segments : List (List UInt8)) (response : Response)
    (bounded : response.opts.noptions ≤ ecProtoMaxOptions) :
    (addLocationPath segments response).2 = 0 ↔
      response.opts.noptions + segments.length ≤ ecProtoMaxOptions ∧ ∀ segment ∈ segments, ShortText segment := by
  have refused : (-1 : Int) ≠ 0 := by decide
  induction segments generalizing response with
  | nil => exact ⟨fun _ => ⟨bounded, fun _ member => absurd member List.not_mem_nil⟩, fun _ => rfl⟩
  | cons segment segments ih =>
      rw [List.length_cons, List.forall_mem_cons]
      by_cases short : ShortText segment
      · obtain ⟨o, _, slot⟩ := @ecOptsAddShortString_slot .locationPath segment (by decide) short
        by_cases room : response.opts.noptions < ecProtoMaxOptions
        · have step : response.adding (fun opts => ecOptsAddLocationPath opts segment) =
              ({response with opts := response.opts.plus o}, 0) := by
            unfold Response.adding ecOptsAddLocationPath
            dsimp only
            rw [slot, if_pos room]
          have rest := ih {response with opts := response.opts.plus o} room
          have counted : (response.opts.plus o).noptions = response.opts.noptions + 1 := rfl
          rw [addLocationPath, step, if_neg (not_not_intro rfl)]
          refine rest.trans ?_
          rw [counted]
          constructor
          · exact fun held => ⟨by omega, short, held.2⟩
          · exact fun held => ⟨by omega, held.2.2⟩
        · have step : response.adding (fun opts => ecOptsAddLocationPath opts segment) = (response, -1) := by
            unfold Response.adding ecOptsAddLocationPath
            dsimp only
            rw [slot, if_neg room]
          rw [addLocationPath, step, if_pos refused]
          exact ⟨fun impossible => absurd impossible refused, fun held => by omega⟩
      · have step : response.adding (fun opts => ecOptsAddLocationPath opts segment) = (response, -1) := by
          unfold Response.adding ecOptsAddLocationPath
          dsimp only
          rw [ecOptsAddShortString_refused short]
        rw [addLocationPath, step, if_pos refused]
        exact ⟨fun impossible => absurd impossible refused, fun held => absurd held.2.1 short⟩

section Posts

variable (order : ByteOrder) {ctx : ServerCtx} {call : ServerCall}

theorem ServerCtx.Same.of_fs {before after : ServerCtx} (fs : after.fs = before.fs)
    (callbacks : after.resources = before.resources) : before.Same after :=
  ⟨fun _ => by rw [fs], callbacks⟩

/-- The file system with the resource of a POST. -/
def ServerCtx.stored (ctx : ServerCtx) (res : EcRes) : EcFilesys := {ctx.fs with map := ctx.fs.map.insert res.uri res}

theorem ServerCtx.stored_get (res : EcRes) (named : res.uri ≠ []) (other : List UInt8) :
    ecFilesysGetResource (ctx.stored res) other =
      if other = res.uri then some res else ecFilesysGetResource ctx.fs other := by
  split
  · rename_i same
    subst same
    exact ctx.fs.modified_self res named
  · rename_i different
    exact ctx.fs.insert_other res different

/-- The resource of a URI that is not too long can be made and stored. -/
theorem createResource_stored (call : ServerCall) (response : Response)
    (short : (createdUri call.request.uri ctx.resnum).length < ecUriMax) :
    createResource order ctx call response =
      let uri := createdUri call.request.uri ctx.resnum
      let attached := {ctx with fs := ctx.stored (postedResource order ctx call (ctx.resbuf.getD []))}
      if (ecRegisterCb ctx.resources uri).2 ≠ 0 then failed attached response
      else
        let served := {attached with resources := (ecRegisterCb ctx.resources uri).1}
        if (slashTokens uri).length < 3 then failed served response
        else
          let located := addLocationPath ((slashTokens uri).drop 2) response
          if located.2 ≠ 0 then failed served located.1
          else
            ⟨{served.reset with resnum := ctx.resnum + 1}, located.1.setCode ecCreated, 0,
              some (ecRepNew (ctx.resbuf.getD []) (call.request.mediaType order) call.etag)⟩ := by
  have made : ecResourceNew (createdUri call.request.uri ctx.resnum) ecMethodMaskAll
      (UInt32.ofNat ecCoapDefaultMaxAge) = some ⟨createdUri call.request.uri ctx.resnum, ecMethodMaskAll,
        UInt32.ofNat ecCoapDefaultMaxAge, EcResAttrs.zero, []⟩ := by
    unfold ecResourceNew
    rw [if_neg (by decide), if_neg (by omega), if_neg (by decide)]
  have put : ecFilesysPutResource ctx.fs (postedResource order ctx call (ctx.resbuf.getD [])) =
      (ctx.stored (postedResource order ctx call (ctx.resbuf.getD [])), 0) := by
    unfold ecFilesysPutResource
    rw [if_neg (show (postedResource order ctx call (ctx.resbuf.getD [])).uri ≠ [] from createdUri_named _ _)]
    rfl
  have added : ∀ data, ecResourceAddRep ⟨createdUri call.request.uri ctx.resnum, ecMethodMaskAll,
      UInt32.ofNat ecCoapDefaultMaxAge, EcResAttrs.zero, []⟩ data (call.request.mediaType order) call.etag =
        postedResource order ctx call data := fun _ => rfl
  unfold createResource
  dsimp only
  rw [made]
  dsimp only
  rw [added, put, if_neg (not_not_intro rfl)]

/-- What a POST leaves that ends with an error. -/
theorem allOrNothing_failed {before after : ServerCtx} (answer : Response) :
    AllOrNothing before (failed after answer) ↔ before.Same after := by
  constructor
  · intro whole
    have same := whole.error (.inl rfl)
    exact ⟨same.resources, same.callbacks⟩
  · intro same
    have uncreated : ecInternalServerError ≠ ecCreated := by decide
    exact ⟨fun _ => ⟨same.resources, same.callbacks⟩, fun created => absurd created uncreated⟩

/-- A resource that is stored changes nothing only where it has been stored before. -/
theorem same_stored_iff {before after : ServerCtx} {res : EcRes} (named : res.uri ≠ []) (fs : after.fs = before.stored res)
    (callbacks : after.resources = before.resources) :
    before.Same after ↔ ecFilesysGetResource before.fs res.uri = some res := by
  constructor
  · intro same
    have there := same.resources res.uri
    rw [fs, ServerCtx.stored_get res named, if_pos rfl] at there
    exact there.symm
  · intro there
    refine ⟨fun uri => ?_, callbacks⟩
    rw [fs, ServerCtx.stored_get res named]
    split
    · rename_i same
      rw [same, there]
    · rfl

/-- A resource that comes with its callback is a gain where the URI had none. -/
theorem gained_stored_iff {before after : ServerCtx} {res : EcRes} (named : res.uri ≠ [])
    (fs : after.fs = before.stored res) (callbacks : after.resources = before.resources ++ [res.uri]) :
    (∃ uri, before.Gained uri after) ↔ ecFilesysGetResource before.fs res.uri = none := by
  constructor
  · rintro ⟨uri, gained⟩
    have callback := gained.callback
    rw [callbacks] at callback
    have same : res.uri = uri := List.singleton_inj.mp (List.append_cancel_left callback)
    rw [same]
    exact gained.fresh
  · intro fresh
    refine ⟨res.uri, fresh, ?_, fun other different => ?_, callbacks⟩
    · rw [fs, ServerCtx.stored_get res named, if_pos rfl]
      rfl
    · rw [fs, ServerCtx.stored_get res named, if_neg different]

theorem registered_append {resources : List (List UInt8)} {url : List UInt8}
    (unregistered : (ecRegisterCb resources url).2 = 0) : (ecRegisterCb resources url).1 = resources ++ [url] := by
  unfold ecRegisterCb at unregistered ⊢
  split at unregistered
  · cases unregistered
  · rename_i absent
    rw [if_neg absent]

/-- A callback that is registered is a change. -/
theorem not_same_registered {before after : ServerCtx} {uri : List UInt8} (callbacks : before.resources = ctx.resources)
    (gained : after.resources = ctx.resources ++ [uri]) : ¬ before.Same after := by
  intro same
  have kept := same.callbacks
  rw [gained, callbacks] at kept
  exact absurd kept (by simp)

/-- What is registered is new, and its path fits into the answer. -/
theorem CreatesWhole.located {data : List UInt8} {used : Nat} (creates : CreatesWhole order ctx call data used)
    (short : ¬ ecUriMax ≤ (createdUri call.request.uri ctx.resnum).length)
    (unregistered : (ecRegisterCb ctx.resources (createdUri call.request.uri ctx.resnum)).2 = 0) :
    ecFilesysGetResource ctx.fs (createdUri call.request.uri ctx.resnum) = none ∧
      Locatable (createdUri call.request.uri ctx.resnum) used := by
  rcases creates with far | ⟨there, _⟩ | ⟨_, fresh, path⟩
  · exact absurd far short
  · exact absurd unregistered there
  · exact ⟨fresh, path⟩

/-- The creation is all or nothing exactly then. -/
theorem createResource_whole_iff (call : ServerCall) (response : Response) (bounded : response.opts.noptions ≤ ecProtoMaxOptions)
    {before : ServerCtx} (fs : before.fs = ctx.fs) (callbacks : before.resources = ctx.resources) :
    AllOrNothing before (createResource order ctx call response) ↔
      CreatesWhole order ctx call (ctx.resbuf.getD []) response.opts.noptions := by
  have named : (postedResource order ctx call (ctx.resbuf.getD [])).uri ≠ [] := createdUri_named _ _
  have stored : ctx.stored (postedResource order ctx call (ctx.resbuf.getD [])) =
      before.stored (postedResource order ctx call (ctx.resbuf.getD [])) := by
    unfold ServerCtx.stored
    rw [fs]
  by_cases long : ecUriMax ≤ (createdUri call.request.uri ctx.resnum).length
  · have failing : createResource order ctx call response = failed ctx response := by
      unfold createResource ecResourceNew
      dsimp only
      rw [if_neg (by decide), if_pos long]
    rw [failing, allOrNothing_failed]
    exact ⟨fun _ => .long long, fun _ => ServerCtx.Same.of_fs fs.symm callbacks.symm⟩
  have made := createResource_stored order call response (Nat.not_le.mp long)
  dsimp only at made
  by_cases registered : (ecRegisterCb ctx.resources (createdUri call.request.uri ctx.resnum)).2 ≠ 0
  · rw [if_pos registered] at made
    rw [made, allOrNothing_failed]
    refine (@same_stored_iff before {ctx with fs := ctx.stored _} _ named stored callbacks.symm).trans ?_
    rw [fs]
    constructor
    · exact fun there => .identical registered there
    · rintro (far | ⟨_, there⟩ | ⟨new, _, _⟩)
      · exact absurd far long
      · exact there
      · exact absurd new registered
  have unregistered := not_not.mp registered
  have appended := registered_append unregistered
  rw [if_neg registered, appended] at made
  have located := addLocationPath_ok_iff
    ((slashTokens (createdUri call.request.uri ctx.resnum)).drop 2) response bounded
  by_cases few : (slashTokens (createdUri call.request.uri ctx.resnum)).length < 3
  · rw [if_pos few] at made
    rw [made, allOrNothing_failed]
    exact ⟨fun same => absurd same (not_same_registered callbacks rfl), fun whole =>
      absurd (whole.located order long unregistered).2.absolute (Nat.not_le.mpr few)⟩
  rw [if_neg few] at made
  by_cases added : (addLocationPath ((slashTokens (createdUri call.request.uri ctx.resnum)).drop 2) response).2 = 0
  · rw [if_neg (not_not_intro added)] at made
    rw [made]
    have gained := @gained_stored_iff before
      {({ctx with
        fs := ctx.stored (postedResource order ctx call (ctx.resbuf.getD []))
        resources := ctx.resources ++ [createdUri call.request.uri ctx.resnum]} : ServerCtx).reset with
          resnum := ctx.resnum + 1} _ named stored (by rw [callbacks]; rfl)
    rw [fs] at gained
    constructor
    · intro whole
      exact .fresh unregistered (gained.mp (whole.created rfl))
        ⟨Nat.not_lt.mp few, (located.mp added).1, (located.mp added).2⟩
    · intro whole
      refine ⟨fun error => ?_, fun _ => gained.mpr (whole.located order long unregistered).1⟩
      rcases error with internal | large
      · cases internal
      · cases large
  · rw [if_pos added] at made
    rw [made, allOrNothing_failed]
    refine ⟨fun same => absurd same (not_same_registered callbacks rfl), fun whole => absurd (located.mpr ?_) added⟩
    have new := (whole.located order long unregistered).2
    exact ⟨new.room, new.segments⟩

/-- The Block1 handling refuses the block, or appends it with at most one option in the answer. -/
theorem receiveBlock_posted (ctx : ServerCtx) (request : Request) :
    (PostRefused order ctx request ∧ ∃ answer, receiveBlock order ctx request Response.new = ⟨ctx.counted, answer, none⟩) ∨
      (¬ PostRefused order ctx request ∧ ∃ b1 answer more,
        receiveBlock order ctx request Response.new =
          ⟨{ctx with b1 := b1, resbuf := some (ctx.resbuf.getD [] ++ request.payload)}, answer, some more⟩ ∧
        answer.opts.noptions = (if (ecRequestGetBlock1 order request.opts).isSome then 1 else 0) ∧
        (more = false ↔ PostEnds order request)) := by
  unfold receiveBlock
  cases found : ecRequestGetBlock1 order request.opts with
  | none =>
      refine .inr ⟨?_, ctx.b1, Response.new, false, rfl, rfl, fun _ b1 there => ?_, fun _ => rfl⟩
      · rintro ⟨b1, there, _⟩
        rw [found] at there
        cases there
      · rw [found] at there
        cases there
  | some b1 =>
      dsimp only
      have refused_iff : PostRefused order ctx request ↔
          b1.bnum ≠ ctx.b1.bnum ∨ ¬ BlockSize (boundedSize ctx.blockSize b1.bsz) := by
        constructor
        · rintro ⟨other, there, refused⟩
          rw [found] at there
          cases there
          exact refused
        · exact fun refused => ⟨b1, found, refused⟩
      by_cases expected : b1.bnum ≠ ctx.b1.bnum
      · rw [if_pos expected]
        exact .inl ⟨refused_iff.mpr (.inl expected), _, rfl⟩
      · rw [if_neg expected]
        by_cases size : BlockSize (boundedSize ctx.blockSize b1.bsz)
        · have room : Response.new.opts.noptions < ecProtoMaxOptions := by decide
          have number := ecRequestGetBlock_number (.inl rfl) found
          have added := (addBlock_ok_iff order b1.bnum b1.more size (.inl rfl) (response_new_absent .block1)).mpr
            ⟨number, room⟩
          have counted := (addBlock_reads order b1.bnum b1.more size (.inl rfl) (response_new_absent .block1) number
            room).1.counted
          rw [if_neg (show ¬ (Response.new.adding fun opts => addBlock order opts .block1 b1.bnum b1.more
            (boundedSize ctx.blockSize b1.bsz)).2 ≠ 0 from not_not_intro added)]
          refine .inr ⟨?_, _, _, b1.more, rfl, counted, ?_⟩
          · rw [refused_iff]
            exact not_or.mpr ⟨expected, not_not_intro size⟩
          · constructor
            · intro ends other there
              rw [found] at there
              cases there
              exact ends
            · exact fun ends => ends b1 found
        · have failing : (Response.new.adding fun opts => addBlock order opts .block1 b1.bnum b1.more
              (boundedSize ctx.blockSize b1.bsz)).2 ≠ 0 := fun added => size (addBlock_size order added)
          rw [if_pos failing]
          exact .inl ⟨refused_iff.mpr (.inr size), _, rfl⟩

/-- The creation does not depend on what is left of the transfer. -/
theorem createsWhole_received (b1 : BlockOpt) (resbuf : Option (List UInt8)) {data : List UInt8} {used : Nat} :
    CreatesWhole order {ctx with b1 := b1, resbuf := resbuf} call data used ↔ CreatesWhole order ctx call data used := by
  constructor
  · rintro (long | ⟨registered, stored⟩ | ⟨unregistered, fresh, locatable⟩)
    · exact .long long
    · exact .identical registered stored
    · exact .fresh unregistered fresh locatable
  · rintro (long | ⟨registered, stored⟩ | ⟨unregistered, fresh, locatable⟩)
    · exact .long long
    · exact .identical registered stored
    · exact .fresh unregistered fresh locatable

/-- A POST is all or nothing exactly when it is too large, refused, or the last block of a whole creation. -/
theorem servePost_whole_iff (ctx : ServerCtx) (call : ServerCall) :
    AllOrNothing ctx (servePost order ctx call Response.new) ↔ PostWhole order ctx call := by
  unfold servePost
  by_cases large : call.request.payload.length > ctx.blockSize
  · rw [if_pos large]
    exact ⟨fun _ => .large large, fun _ => ⟨fun _ => ServerCtx.Same.of_fs rfl rfl, fun created => by cases created⟩⟩
  rw [if_neg large]
  dsimp only
  rcases receiveBlock_posted order ctx call.request with ⟨refused, answer, received⟩ |
    ⟨accepted, b1, answer, more, received, counted, ends⟩
  · rw [received]
    dsimp only
    rw [allOrNothing_failed]
    exact ⟨fun _ => .refused refused, fun _ => ServerCtx.Same.of_fs rfl rfl⟩
  · rw [received]
    have last : PostWhole order ctx call → PostEnds order call.request ∧
        CreatesWhole order ctx call (ctx.resbuf.getD [] ++ call.request.payload) answer.opts.noptions := by
      rintro (big | refused | ⟨ended, creates⟩)
      · exact absurd big large
      · exact absurd refused accepted
      · rw [counted]
        exact ⟨ended, creates⟩
    cases more with
    | true =>
        dsimp only
        constructor
        · intro whole
          obtain ⟨uri, gained⟩ := whole.created rfl
          have added := gained.added
          have fresh := gained.fresh
          change (ecFilesysGetResource ctx.fs uri).isSome at added
          rw [fresh] at added
          cases added
        · exact fun whole => absurd (ends.mpr (last whole).1) (by decide)
    | false =>
        dsimp only
        have bounded : answer.opts.noptions ≤ ecProtoMaxOptions := by
          rw [counted]
          split <;> decide
        let received : ServerCtx := {ctx with b1 := b1, resbuf := some (ctx.resbuf.getD [] ++ call.request.payload)}
        have created : AllOrNothing ctx (createResource order received call answer) ↔ _ :=
          createResource_whole_iff order call answer bounded rfl rfl
        refine created.trans ((createsWhole_received order b1 _).trans ?_)
        constructor
        · intro creates
          refine .last (ends.mp rfl) ?_
          rw [← counted]
          exact creates
        · exact fun whole => (last whole).2

end Posts

/-- A resource under `coap://h/r/0`, with one byte of text. -/
def numberedThing : EcRes :=
  ⟨[99, 111, 97, 112, 58, 47, 47, 104, 47, 114, 47, 48], ecMethodMaskAll, 60, EcResAttrs.zero,
    [⟨ecMtTextPlain, Vector.replicate 4 1, [1]⟩]⟩

def numberedServer : ServerCtx :=
  {textServer with resources := [numberedThing.uri], fs := (ecFilesysPutResource (ecFilesysCreate false) numberedThing).1}

/-- A POST to `coap://h/r`, the first one that the server gets. -/
def firstPost : ServerCall where
  request := {textTarget with method := .post, uri := [99, 111, 97, 112, 58, 47, 47, 104, 47, 114], payload := [2]}
  resched := false
  etag := Vector.replicate 4 3
  observer := none
  wkc := none

/-- The answer is 5.00, and the resource that was there is lost. -/
theorem firstPost_overwrites :
    (servePost .little numberedServer firstPost Response.new).response.code = ecInternalServerError ∧
      ecFilesysGetResource numberedServer.fs numberedThing.uri = some numberedThing ∧
      ecFilesysGetResource (servePost .little numberedServer firstPost Response.new).ctx.fs numberedThing.uri ≠
        some numberedThing ∧
      ¬ AllOrNothing numberedServer (servePost .little numberedServer firstPost Response.new) := by
  have code : (servePost .little numberedServer firstPost Response.new).response.code = ecInternalServerError := by
    decide
  have there : ecFilesysGetResource numberedServer.fs numberedThing.uri = some numberedThing := by decide
  have lost : ecFilesysGetResource (servePost .little numberedServer firstPost Response.new).ctx.fs numberedThing.uri ≠
      some numberedThing := by decide
  exact ⟨code, there, lost, fun whole => lost (((whole.error (.inl code)).resources _).trans there)⟩

end Webthings.Apps
