import Webthings.Apps.Upload

namespace Webthings.Apps
open Webthings.Evcoap
open Webthings.Transition

/-- A call of the callback with a PUT or a POST. -/
structure TransferCall extends ServerCall where
  uploads : request.method = .put ∨ request.method = .post

/-- A transfer is told by the client, the URI and the method of its requests. -/
structure Transfer where
  client : SockAddr
  uri : List UInt8
  method : EcMethod
  deriving DecidableEq

def Request.transfer (request : Request) : Transfer := ⟨request.peer, request.uri, request.method⟩

def CallbackResult.Succeeds (result : CallbackResult) : Prop :=
  result.cbrc = .ready ∧ ecIsOk result.served.response.code

instance (result : CallbackResult) : Decidable result.Succeeds := inferInstanceAs (Decidable (_ ∧ _))

/-- The server, and for each transfer the blocks that were accepted since the last one of its transfers has ended. -/
structure Transfers where
  ctx : ServerCtx
  sent : Transfer → List (List UInt8)

section Model

variable (order : ByteOrder)

/-- The blocks ahead of a request in its transfer, which begins with block 0 or is a request without Block1. -/
def Transfers.before (s : Transfers) (request : Request) : List (List UInt8) :=
  match ecRequestGetBlock1 order request.opts with
  | none => []
  | some b1 => if b1.bnum = 0 then [] else s.sent request.transfer

/-- A success notes its block unless it was the last one, a failure of the server ends the transfer, and any other
answer is one that turns the request down. -/
def Transfers.noted (s : Transfers) (request : Request) (result : CallbackResult) : List (List UInt8) :=
  if result.Succeeds then
    match ecRequestGetBlock1 order request.opts with
    | some ⟨_, true, _⟩ => s.before order request ++ [request.payload]
    | _ => []
  else if result.served.response.code = ecInternalServerError then []
  else s.sent request.transfer

def transferStep (s : Transfers) (call : TransferCall) : Except EcFault Transfers :=
  match serve order s.ctx call.toServerCall with
  | .error fault => .error fault
  | .ok result =>
      .ok ⟨result.served.ctx, Function.update s.sent call.request.transfer (s.noted order call.request result)⟩

def transferMachine : Machine Transfers TransferCall EcFault := ⟨transferStep order⟩

/-- The server as it has started, with the blocks of one transfer only. -/
def Transfers.alone (start : ServerCtx) (s : Transfers) (transfer : Transfer) : ServerCtx :=
  {start with
    b1 := {start.b1 with bnum := (s.sent transfer).length.toUInt32}, resbuf := some (s.sent transfer).flatten}

/-- What is stored is what the transfer has sent, and a request that succeeds without the requests of the others does so
among them. -/
structure Isolated (start : ServerCtx) (s : Transfers) (call : TransferCall) : Prop where
  content : ∀ result rep, serve order s.ctx call.toServerCall = .ok result → result.served.stored = some rep →
    rep.data = (s.before order call.request).flatten ++ call.request.payload
  spared : ∀ alone, serve order (s.alone start call.request.transfer) call.toServerCall = .ok alone → alone.Succeeds →
    ∃ result, serve order s.ctx call.toServerCall = .ok result ∧ result.Succeeds

/-- The request gets as far as the Block1 handling. -/
structure Handled (ctx : ServerCtx) (call : ServerCall) (rep : RepRef) (res : EcRes) : Prop where
  direct : call.request.isProxy = false
  ready : ¬ (call.resched = false ∧ ctx.sep.sec ≠ 0)
  ordinary : asciiStrcaseEqual call.request.path wellKnownCore = false
  found : ∃ mta, ecOptsGetAcceptAll order call.request.opts 16 = some mta ∧
    ecFilesysGetSuitableRep ctx.fs call.request.urlstr mta none = some rep
  resource : ecRepGetRes ctx.fs rep = some res
  allowed : ecResourceCheckMethod res call.request.method = 0
  unconditional : call.request.method = .put → ecOptsGetIfNoneMatch call.request.opts = false
  small : call.request.payload.length ≤ ctx.blockSize

/-- A POST can create its resource. -/
structure Creates (ctx : ServerCtx) (uri : List UInt8) (response : Response) : Prop where
  short : (createdUri uri ctx.resnum).length < ecUriMax
  unregistered : (ecRegisterCb ctx.resources (createdUri uri ctx.resnum)).2 = 0
  path : 3 ≤ (slashTokens (createdUri uri ctx.resnum)).length
  located : (addLocationPath ((slashTokens (createdUri uri ctx.resnum)).drop 2) response).2 = 0

/-- A request comes while the resource that it asks for has what it had at the start. One that is handled comes while no
other transfer is open, and not between the blocks of its own one without Block1; and a POST could have created its
resource at the start only if it can create one now. -/
def Undisturbed (start : ServerCtx) (s : Transfers) (call : TransferCall) : Prop :=
  start.fs.KeepsAt s.ctx.fs call.request.urlstr ∧
    ∀ rep res, Handled order s.ctx call.toServerCall rep res →
      (∀ other, other ≠ call.request.transfer → s.sent other = []) ∧
      (ecRequestGetBlock1 order call.request.opts = none → s.sent call.request.transfer = []) ∧
      let receipt := receiveBlock order s.ctx call.request Response.new
      (call.request.method = .post → receipt.more = some false →
        Creates start call.request.uri receipt.response → Creates s.ctx call.request.uri receipt.response)

end Model

section Server

variable (order : ByteOrder) {ctx : ServerCtx} {call : ServerCall}

/-- The outcome of the Block1 handling: a failure, the next block of the transfer, or a request without Block1. -/
theorem receiveBlock_cases (ctx : ServerCtx) (request : Request) (response : Response) :
    (∃ answer, receiveBlock order ctx request response = ⟨ctx.counted, answer, none⟩) ∨
      (∃ b1 answer, ecRequestGetBlock1 order request.opts = some b1 ∧ b1.bnum = ctx.b1.bnum ∧ b1.bnum ≤ 0xfffff ∧
        receiveBlock order ctx request response = ⟨ctx.counted.append request.payload, answer, some b1.more⟩) ∨
      ecRequestGetBlock1 order request.opts = none ∧
        receiveBlock order ctx request response = ⟨ctx.append request.payload, response, some false⟩ := by
  unfold receiveBlock
  cases found : ecRequestGetBlock1 order request.opts with
  | none => exact Or.inr (Or.inr ⟨rfl, rfl⟩)
  | some b1 =>
      dsimp only
      by_cases expected : b1.bnum = ctx.b1.bnum
      · rw [if_neg (not_not_intro expected)]
        by_cases added : (response.adding fun opts =>
            addBlock order opts .block1 b1.bnum b1.more (boundedSize ctx.blockSize b1.bsz)).2 = 0
        · rw [if_neg (not_not_intro added)]
          exact Or.inr (Or.inl ⟨b1, _, rfl, expected, addBlock_number order added, rfl⟩)
        · rw [if_pos added]
          exact Or.inl ⟨_, rfl⟩
      · rw [if_pos expected]
        exact Or.inl ⟨_, rfl⟩

/-- The answer to a block depends on the expected number and on the block size only. -/
theorem receiveBlock_same {ctx ctx' : ServerCtx} (number : ctx'.b1.bnum = ctx.b1.bnum)
    (size : ctx'.blockSize = ctx.blockSize) (request : Request) (response : Response) :
    (receiveBlock order ctx' request response).more = (receiveBlock order ctx request response).more ∧
      (receiveBlock order ctx' request response).response = (receiveBlock order ctx request response).response := by
  unfold receiveBlock
  rw [number, size]
  cases ecRequestGetBlock1 order request.opts with
  | none => exact ⟨rfl, rfl⟩
  | some b1 =>
      dsimp only
      split
      · exact ⟨rfl, rfl⟩
      · split
        · exact ⟨rfl, rfl⟩
        · exact ⟨rfl, rfl⟩

/-- A request that is turned down ahead of the Block1 handling leaves the server alone. -/
theorem serve_unhandled {ctx : ServerCtx} {call : ServerCall}
    (uploads : call.request.method = .put ∨ call.request.method = .post)
    (unhandled : ¬ ∃ rep res, Handled order ctx call rep res) :
    ∃ response cbrc, serve order ctx call = .ok ⟨⟨ctx, response, 0, none⟩, cbrc⟩ ∧ ¬ ecIsOk response.code ∧
      response.code ≠ ecInternalServerError := by
  unfold serve
  dsimp only
  split
  · exact ⟨_, _, rfl, by decide, by decide⟩
  rename_i direct
  split
  · exact ⟨_, _, rfl, by decide, by decide⟩
  rename_i ready
  split
  · have refused : serveWkc order ctx call Response.new = some (Response.new.setCode ecMethodNotAllowed) := by
      unfold serveWkc
      rw [if_pos (by rcases uploads with method | method <;> simp [method])]
    rw [refused]
    exact ⟨_, _, rfl, by decide, by decide⟩
  rename_i ordinary
  cases accept : ecOptsGetAcceptAll order call.request.opts 16 with
  | none => exact ⟨_, _, rfl, by decide, by decide⟩
  | some mta =>
      cases found : ecFilesysGetSuitableRep ctx.fs call.request.urlstr mta none with
      | none =>
          dsimp only
          rw [found]
          exact ⟨_, _, rfl, by decide, by decide⟩
      | some rep =>
          dsimp only
          rw [found]
          dsimp only
          cases resource : ecRepGetRes ctx.fs rep with
          | none => exact ⟨_, _, rfl, by decide, by decide⟩
          | some res =>
              dsimp only
              split
              · exact ⟨_, _, rfl, by decide, by decide⟩
              rename_i allowed
              have refuses : (call.request.method = .put ∧ ecOptsGetIfNoneMatch call.request.opts = true) ∨
                  call.request.payload.length > ctx.blockSize := by
                by_contra neither
                push Not at neither
                exact unhandled ⟨rep, res, by simpa using direct, ready, by simpa using ordinary, ⟨mta, accept, found⟩,
                  resource, not_not.mp allowed, fun put => by simpa using neither.1 put, neither.2⟩
              unfold serveMethod
              rcases uploads with method | method
              · rw [method]
                dsimp only
                unfold servePut
                dsimp only
                rw [resource]
                split
                · exact ⟨_, _, rfl, by decide, by decide⟩
                · rename_i conditional
                  have large := refuses.resolve_left fun both => conditional ⟨rfl, both.2⟩
                  rw [if_pos large]
                  exact ⟨_, _, rfl, by decide, by decide⟩
              · have large := refuses.resolve_left fun both => by simp [method] at both
                rw [method]
                dsimp only
                unfold servePost
                rw [if_pos large]
                exact ⟨_, _, rfl, by decide, by decide⟩

/-- A request that gets as far as the Block1 handling is handled by its method. -/
theorem serve_handled {rep : RepRef} {res : EcRes} (uploads : call.request.method = .put ∨ call.request.method = .post)
    (handled : Handled order ctx call rep res) :
    serve order ctx call = .ok ⟨if call.request.method = .put then servePut order ctx call rep Response.new
      else servePost order ctx call Response.new, .ready⟩ := by
  obtain ⟨direct, ready, ordinary, ⟨mta, accept, found⟩, resource, allowed, _, _⟩ := handled
  unfold serve
  dsimp only
  rw [if_neg (by simp [direct]), if_neg ready, if_neg (by simp [ordinary]), accept]
  dsimp only
  rw [found]
  dsimp only
  rw [resource]
  dsimp only
  rw [if_neg (not_not_intro allowed)]
  unfold serveMethod
  rcases uploads with method | method
  · rw [method]
    rfl
  · rw [method]
    rfl

/-- What the end of a transfer leaves: an idle server with the limits it had. -/
structure Ended (ctx ctx' : ServerCtx) : Prop where
  buffer : ctx'.resbuf.getD [] = []
  number : ctx'.b1.bnum = 0
  bsz : ctx'.bsz = ctx.bsz
  sep : ctx'.sep = ctx.sep

theorem createdUri_named (uri : List UInt8) (resnum : Nat) : createdUri uri resnum ≠ [] := by
  unfold createdUri
  simp

/-- The creation succeeds exactly with a short and unregistered URI whose path has room in the response. -/
theorem createResource_cases (response : Response) :
    (Creates ctx call.request.uri response ∧ ∃ next answer rep, createResource order ctx call response =
      ⟨next, answer, 0, some rep⟩ ∧ answer.code = ecCreated ∧ rep.data = ctx.resbuf.getD []) ∨
    (¬ Creates ctx call.request.uri response ∧ ∃ next answer, createResource order ctx call response =
      failed next answer) := by
  unfold createResource ecResourceNew
  dsimp only
  rw [if_neg (by decide)]
  split
  · rename_i long
    split at long
    · exact Or.inr ⟨fun creates => absurd creates.short (by omega), _, _, rfl⟩
    · cases long
  rename_i res short
  split at short
  · cases short
  rename_i short'
  have named : res.uri = createdUri call.request.uri ctx.resnum := by
    cases short
    rfl
  have put : (ecFilesysPutResource ctx.fs (ecResourceAddRep res (ctx.resbuf.getD []) (call.request.mediaType order)
      call.etag)).2 = 0 := by
    unfold ecFilesysPutResource
    rw [if_neg]
    change res.uri ≠ []
    rw [named]
    exact createdUri_named _ _
  rw [if_neg (not_not_intro put)]
  split
  · rename_i registered
    exact Or.inr ⟨fun creates => registered creates.unregistered, _, _, rfl⟩
  rename_i unregistered
  split
  · rename_i few
    exact Or.inr ⟨fun creates => absurd creates.path (by omega), _, _, rfl⟩
  rename_i many
  split
  · rename_i full
    exact Or.inr ⟨fun creates => full creates.located, _, _, rfl⟩
  rename_i located
  exact Or.inl ⟨⟨by omega, not_not.mp unregistered, by omega, not_not.mp located⟩, _, _, _, rfl, rfl, rfl⟩

/-- Whatever comes of the creation, the transfer has ended. -/
theorem createResource_ended (response : Response) : Ended ctx (createResource order ctx call response).ctx := by
  unfold createResource ecResourceNew
  dsimp only
  rw [if_neg (by decide)]
  split
  · exact ⟨rfl, rfl, rfl, rfl⟩
  split
  · exact ⟨rfl, rfl, rfl, rfl⟩
  split
  · exact ⟨rfl, rfl, rfl, rfl⟩
  split
  · exact ⟨rfl, rfl, rfl, rfl⟩
  split
  · exact ⟨rfl, rfl, rfl, rfl⟩
  · exact ⟨rfl, rfl, rfl, rfl⟩

/-- A resource that does not come over another one leaves the others alone. -/
theorem createResource_keeps (response : Response)
    (free : ctx.fs.map.lookup (createdUri call.request.uri ctx.resnum) = none) :
    ctx.fs.Keeps (createResource order ctx call response).ctx.fs := by
  have same : ctx.fs.Keeps ctx.fs := EcFilesys.Keeps.refl ctx.fs
  unfold createResource ecResourceNew
  dsimp only
  rw [if_neg (by decide)]
  split
  · exact same
  rename_i res short
  split at short
  · cases short
  have named : res.uri = createdUri call.request.uri ctx.resnum := by
    cases short
    rfl
  have keeps : ctx.fs.Keeps (ecFilesysPutResource ctx.fs (ecResourceAddRep res (ctx.resbuf.getD [])
      (call.request.mediaType order) call.etag)).1 := by
    apply EcFilesys.keeps_put
    change ctx.fs.map.lookup res.uri = none
    rw [named]
    exact free
  split
  · exact same
  · split
    · exact keeps
    · split
      · exact keeps
      · split
        · exact keeps
        · exact keeps

/-- The Block1 handling changes the expected number and the buffer only. -/
theorem receiveBlock_config (ctx : ServerCtx) (request : Request) (response : Response) :
    ∃ b1 resbuf, (receiveBlock order ctx request response).ctx = {ctx with b1 := b1, resbuf := resbuf} := by
  rcases receiveBlock_cases order ctx request response with ⟨_, outcome⟩ | ⟨_, _, _, _, _, outcome⟩ | ⟨_, outcome⟩ <;>
    exact ⟨_, _, congrArg Receipt.ctx outcome⟩

section Outcomes

variable {rep : RepRef} {res : EcRes} (uploads : call.request.method = .put ∨ call.request.method = .post)
  (handled : Handled order ctx call rep res)
include uploads handled

/-- A block that is not accepted ends the transfer. -/
theorem serve_refused (refused : (receiveBlock order ctx call.request Response.new).more = none) :
    ∃ next answer, serve order ctx call = .ok ⟨failed next answer, .ready⟩ ∧ next.fs = ctx.fs ∧ next.bsz = ctx.bsz ∧
      next.sep = ctx.sep := by
  obtain ⟨b1, resbuf, config⟩ := receiveBlock_config order ctx call.request Response.new
  refine ⟨(receiveBlock order ctx call.request Response.new).ctx,
    (receiveBlock order ctx call.request Response.new).response, ?_, by rw [config], by rw [config], by rw [config]⟩
  have small := handled.small
  rw [serve_handled order uploads handled]
  rcases uploads with method | method
  · rw [if_pos method]
    unfold servePut
    dsimp only
    rw [if_neg (by simp [handled.unconditional method]), if_neg (by omega), refused]
  · rw [if_neg (by simp [method])]
    unfold servePost
    rw [if_neg (by omega)]
    dsimp only
    rw [refused]

/-- A block that is accepted and not the last one is only received. -/
theorem serve_middle (middle : (receiveBlock order ctx call.request Response.new).more = some true) :
    ∃ answer, serve order ctx call =
        .ok ⟨⟨(receiveBlock order ctx call.request Response.new).ctx, answer, 0, none⟩, .ready⟩ ∧
      ecIsOk answer.code := by
  have small := handled.small
  rw [serve_handled order uploads handled]
  rcases uploads with method | method
  · rw [if_pos method]
    unfold servePut
    dsimp only
    rw [if_neg (by simp [handled.unconditional method]), if_neg (by omega), middle]
    exact ⟨_, rfl, (by decide : ecIsOk ecChanged)⟩
  · rw [if_neg (by simp [method])]
    unfold servePost
    rw [if_neg (by omega)]
    dsimp only
    rw [middle]
    exact ⟨_, rfl, (by decide : ecIsOk ecCreated)⟩

/-- The last request of a transfer that is handled ends it, and stores what is in the buffer then; only the creation of
a resource can fail. -/
theorem serve_last (last : (receiveBlock order ctx call.request Response.new).more = some false) :
    ∃ result, serve order ctx call = .ok result ∧
      Ended ctx result.served.ctx ∧
      ((call.request.method = .post → ctx.fs.map.lookup (createdUri call.request.uri ctx.resnum) = none) →
        ctx.fs.Keeps result.served.ctx.fs) ∧
      (∀ stored, result.served.stored = some stored →
        stored.data = (receiveBlock order ctx call.request Response.new).ctx.resbuf.getD []) ∧
      (result.Succeeds ↔ (call.request.method = .post →
        Creates ctx call.request.uri (receiveBlock order ctx call.request Response.new).response)) ∧
      (¬ result.Succeeds → result.served.response.code = ecInternalServerError) := by
  obtain ⟨b1, resbuf, config⟩ := receiveBlock_config order ctx call.request Response.new
  have small := handled.small
  refine ⟨_, serve_handled order uploads handled, ?_⟩
  dsimp only
  rcases uploads with method | method
  · have keeps : ctx.fs.Keeps (ctx.fs.modified rep.uri
        (if res.mediaTypeAt rep.index = some (call.request.mediaType order) then
          ecRepDel (ecResourceAddRep res (resbuf.getD []) (call.request.mediaType order) call.etag) rep.index
        else ecResourceAddRep res (resbuf.getD []) (call.request.mediaType order) call.etag)) := by
      apply EcFilesys.keeps_modified handled.resource
      split
      · rename_i same
        exact res.keeps_replaced _ _ same
      · exact res.keeps_added _ _ _
    have stores : ∃ next answer stored, servePut order ctx call rep Response.new = ⟨next, answer, 0, some stored⟩ ∧
        answer.code = ecChanged ∧ Ended ctx next ∧ ctx.fs.Keeps next.fs ∧
        stored.data = (receiveBlock order ctx call.request Response.new).ctx.resbuf.getD [] := by
      unfold servePut
      dsimp only
      rw [if_neg (by simp [handled.unconditional method]), if_neg (by omega), last, handled.resource, config]
      exact ⟨_, _, _, rfl, rfl, ⟨rfl, rfl, rfl, rfl⟩, keeps, rfl⟩
    obtain ⟨next, answer, stored, outcome, code, ended, kept, data⟩ := stores
    rw [if_pos method, outcome]
    have succeeds : CallbackResult.Succeeds ⟨⟨next, answer, 0, some stored⟩, .ready⟩ := by
      refine ⟨rfl, ?_⟩
      rw [code]
      decide
    refine ⟨ended, fun _ => kept, ?_, iff_of_true succeeds fun post => by simp [method] at post,
      fun fails => absurd succeeds fails⟩
    rintro _ ⟨⟩
    exact data
  · have creates : servePost order ctx call Response.new =
        createResource order (receiveBlock order ctx call.request Response.new).ctx call
          (receiveBlock order ctx call.request Response.new).response := by
      unfold servePost
      rw [if_neg (by omega)]
      dsimp only
      rw [last]
    rw [if_neg (by simp [method]), creates]
    generalize (receiveBlock order ctx call.request Response.new).response = response
    rw [config]
    have ended : Ended {ctx with b1 := b1, resbuf := resbuf}
        (createResource order {ctx with b1 := b1, resbuf := resbuf} call response).ctx :=
      createResource_ended order response
    refine ⟨⟨ended.buffer, ended.number, ended.bsz, ended.sep⟩, fun free => ?_, ?_⟩
    · have kept : EcFilesys.Keeps {ctx with b1 := b1, resbuf := resbuf}.fs
          (createResource order {ctx with b1 := b1, resbuf := resbuf} call response).ctx.fs :=
        createResource_keeps order response (free method)
      exact kept
    rcases createResource_cases order response with ⟨creates, next, answer, rep, outcome, code, data⟩ |
      ⟨fails, next, answer, outcome⟩
    · have succeeds : CallbackResult.Succeeds ⟨⟨next, answer, 0, some rep⟩, .ready⟩ := by
        refine ⟨rfl, ?_⟩
        rw [code]
        decide
      rw [outcome]
      refine ⟨?_, iff_of_true succeeds fun _ => ⟨creates.short, creates.unregistered, creates.path, creates.located⟩,
        fun fails => absurd succeeds fails⟩
      rintro _ ⟨⟩
      exact data
    · have unsuccessful : ¬ CallbackResult.Succeeds ⟨failed next answer, .ready⟩ := by
        rintro ⟨_, ok⟩
        exact absurd ok (by decide : ¬ ecIsOk ecInternalServerError)
      rw [outcome]
      refine ⟨?_, iff_of_false unsuccessful fun all => ?_, fun _ => rfl⟩
      · rintro _ ⟨⟩
      · have creates := all method
        exact fails ⟨creates.short, creates.unregistered, creates.path, creates.located⟩

end Outcomes

end Server

/-- The transfer that the server is at: no other one is open, and the server has its blocks. -/
structure Transfers.Holds (s : Transfers) (transfer : Transfer) : Prop where
  others : ∀ other, other ≠ transfer → s.sent other = []
  number : s.ctx.b1.bnum.toNat = (s.sent transfer).length
  buffer : s.ctx.resbuf.getD [] = (s.sent transfer).flatten

/-- What undisturbed requests keep. -/
structure Transfers.Sound (start : ServerCtx) (s : Transfers) : Prop where
  bsz : s.ctx.bsz = start.bsz
  sep : s.ctx.sep = start.sep
  held : ∃ transfer, s.Holds transfer

section Steps

variable {order : ByteOrder} {start : ServerCtx} {s : Transfers} {call : TransferCall} {transfer : Transfer}

/-- With all others closed, the server may as well be at this transfer. -/
theorem Transfers.Sound.holds (sound : s.Sound start) (others : ∀ other, other ≠ transfer → s.sent other = []) :
    s.Holds transfer := by
  obtain ⟨owner, held⟩ := sound.held
  by_cases same : owner = transfer
  · exact same ▸ held
  · have number := held.number
    have buffer := held.buffer
    rw [others owner same] at number buffer
    have mine := held.others transfer (Ne.symm same)
    refine ⟨others, ?_, ?_⟩
    · rw [mine]
      exact number
    · rw [mine]
      exact buffer

/-- The expected block has all blocks of its transfer ahead of it. -/
theorem Transfers.Holds.before_eq (held : s.Holds call.request.transfer) {b1 : BlockInfo}
    (found : ecRequestGetBlock1 order call.request.opts = some b1) (expected : b1.bnum = s.ctx.b1.bnum) :
    s.before order call.request = s.sent call.request.transfer := by
  unfold before
  rw [found]
  dsimp only
  split
  · rename_i first
    have number := held.number
    rw [← expected, first] at number
    exact (List.eq_nil_of_length_eq_zero number.symm).symm
  · rfl

/-- The end of a transfer leaves no transfer open. -/
theorem Transfers.Sound.ended (sound : s.Sound start) (held : s.Holds transfer) {ctx : ServerCtx}
    (ended : Ended s.ctx ctx) : Transfers.Sound start ⟨ctx, Function.update s.sent transfer []⟩ := by
  refine ⟨ended.bsz.trans sound.bsz, ended.sep.trans sound.sep, transfer, ?_, ?_, ?_⟩
  · intro other different
    change Function.update s.sent transfer [] other = []
    rw [Function.update_of_ne different]
    exact held.others other different
  · change ctx.b1.bnum.toNat = (Function.update s.sent transfer [] transfer).length
    rw [Function.update_self, ended.number]
    rfl
  · change ctx.resbuf.getD [] = (Function.update s.sent transfer [] transfer).flatten
    rw [Function.update_self, ended.buffer]
    rfl

theorem Transfers.noted_ended {result : CallbackResult}
    (last : ∀ b1, ecRequestGetBlock1 order call.request.opts = some b1 → b1.more = false)
    (fails : ¬ result.Succeeds → result.served.response.code = ecInternalServerError) :
    s.noted order call.request result = [] := by
  unfold noted
  split
  · cases found : ecRequestGetBlock1 order call.request.opts with
    | none => rfl
    | some b1 =>
        obtain ⟨bnum, more, bsz⟩ := b1
        cases last _ found
        rfl
  · rename_i unsuccessful
    rw [if_pos (fails unsuccessful)]

/-- The next block of the transfer that the server is at is noted behind the others. -/
theorem Transfers.Sound.accepted (sound : s.Sound start) (held : s.Holds transfer) {number : UInt32}
    (counted : number.toNat = (s.sent transfer).length + 1) (payload : List UInt8) :
    Transfers.Sound start ⟨{s.ctx with b1 := {s.ctx.b1 with bnum := number}}.append payload,
      Function.update s.sent transfer (s.sent transfer ++ [payload])⟩ := by
  refine ⟨sound.bsz, sound.sep, transfer, ?_, ?_, ?_⟩
  · intro other different
    change Function.update s.sent transfer _ other = []
    rw [Function.update_of_ne different]
    exact held.others other different
  · change number.toNat = (Function.update s.sent transfer _ transfer).length
    rw [Function.update_self, counted, List.length_append]
    rfl
  · change s.ctx.resbuf.getD [] ++ payload = (Function.update s.sent transfer _ transfer).flatten
    rw [Function.update_self, held.buffer, List.flatten_append]
    simp

/-- An undisturbed request keeps what is known of the server. -/
theorem transferStep_sound {next : Transfers} (sound : s.Sound start) (undisturbed : Undisturbed order start s call)
    (stepped : transferStep order s call = .ok next) : next.Sound start := by
  unfold transferStep at stepped
  by_cases handles : ∃ rep res, Handled order s.ctx call.toServerCall rep res
  · obtain ⟨rep, res, handled⟩ := handles
    have held := sound.holds (undisturbed.2 rep res handled).1
    rcases receiveBlock_cases order s.ctx call.request Response.new with ⟨answer, received⟩ |
      ⟨b1, answer, found, expected, bound, received⟩ | ⟨found, received⟩
    · obtain ⟨left, answer, served, _, bsz, sep⟩ := serve_refused order call.uploads handled (by rw [received])
      rw [served] at stepped
      cases stepped
      have none : s.noted order call.request ⟨failed left answer, .ready⟩ = [] := by
        unfold Transfers.noted
        rw [if_neg fun succeeds => absurd succeeds.2 (by decide : ¬ ecIsOk ecInternalServerError)]
        exact if_pos rfl
      rw [none]
      exact sound.ended held ⟨rfl, rfl, bsz, sep⟩
    · obtain ⟨bnum, more, bsz⟩ := b1
      cases more with
      | true =>
          obtain ⟨answer, served, ok⟩ := serve_middle order call.uploads handled (by rw [received])
          rw [served] at stepped
          cases stepped
          have noted : s.noted order call.request
              ⟨⟨(receiveBlock order s.ctx call.request Response.new).ctx, answer, 0, none⟩, .ready⟩ =
                s.sent call.request.transfer ++ [call.request.payload] := by
            unfold Transfers.noted
            rw [if_pos ⟨rfl, ok⟩, found]
            dsimp only
            rw [held.before_eq found expected]
          rw [noted, received]
          apply sound.accepted held
          have number := held.number
          rw [← expected] at number ⊢
          have small : bnum.toNat ≤ 0xfffff := bound
          dsimp only at number ⊢
          rw [UInt32.toNat_add, number]
          change ((s.sent call.request.transfer).length + 1) % 2 ^ 32 = _
          omega
      | false =>
          obtain ⟨result, served, ended, _, _, _, fails⟩ := serve_last order call.uploads handled (by rw [received])
          rw [served] at stepped
          cases stepped
          rw [Transfers.noted_ended (fun b1 there => by rw [found] at there; cases there; rfl) fails]
          exact sound.ended held ended
    · obtain ⟨result, served, ended, _, _, _, fails⟩ := serve_last order call.uploads handled (by rw [received])
      rw [served] at stepped
      cases stepped
      rw [Transfers.noted_ended (fun b1 there => by rw [found] at there; cases there) fails]
      exact sound.ended held ended
  · obtain ⟨response, cbrc, served, code, other⟩ := serve_unhandled order call.uploads handles
    rw [served] at stepped
    cases stepped
    have kept : s.noted order call.request ⟨⟨s.ctx, response, 0, none⟩, cbrc⟩ = s.sent call.request.transfer := by
      unfold Transfers.noted
      rw [if_neg fun succeeds => code succeeds.2, if_neg other]
    rw [kept, Function.update_eq_self]
    exact sound

/-- All resources keep what requests ask for, unless a POST creates one over another. -/
theorem transferStep_keeps {next : Transfers} (stepped : (transferMachine order).step s call = .ok next)
    (free : call.request.method = .post → s.ctx.fs.map.lookup (createdUri call.request.uri s.ctx.resnum) = none) :
    s.ctx.fs.Keeps next.ctx.fs := by
  have same : s.ctx.fs.Keeps s.ctx.fs := EcFilesys.Keeps.refl s.ctx.fs
  change transferStep order s call = .ok next at stepped
  unfold transferStep at stepped
  by_cases handles : ∃ rep res, Handled order s.ctx call.toServerCall rep res
  · obtain ⟨rep, res, handled⟩ := handles
    cases received : (receiveBlock order s.ctx call.request Response.new).more with
    | none =>
        obtain ⟨left, answer, served, fs, _⟩ := serve_refused order call.uploads handled received
        rw [served] at stepped
        cases stepped
        exact fs ▸ same
    | some more =>
        cases more with
        | true =>
            obtain ⟨b1, resbuf, config⟩ := receiveBlock_config order s.ctx call.request Response.new
            obtain ⟨answer, served, _⟩ := serve_middle order call.uploads handled received
            rw [served, config] at stepped
            cases stepped
            exact same
        | false =>
            obtain ⟨result, served, _, keeps, _⟩ := serve_last order call.uploads handled received
            rw [served] at stepped
            cases stepped
            exact keeps free
  · obtain ⟨response, cbrc, served, _⟩ := serve_unhandled order call.uploads handles
    rw [served] at stepped
    cases stepped
    exact same

/-- A request that is handled with the blocks of its transfer only is handled among the others. -/
theorem Transfers.Sound.handled (sound : s.Sound start) (kept : start.fs.KeepsAt s.ctx.fs call.request.urlstr)
    {rep : RepRef} {res : EcRes} (handled : Handled order (s.alone start transfer) call.toServerCall rep res) :
    ∃ rep' res', Handled order s.ctx call.toServerCall rep' res' := by
  obtain ⟨direct, ready, ordinary, ⟨mta, accept, found⟩, resource, allowed, unconditional, small⟩ := handled
  obtain ⟨rep', res', found', resource', keeps⟩ := kept.suitable found resource
  have size : s.ctx.blockSize = (s.alone start transfer).blockSize := by
    unfold ServerCtx.blockSize
    rw [sound.bsz]
    rfl
  refine ⟨rep', res', direct, ?_, ordinary, ⟨mta, accept, found'⟩, resource', ?_, unconditional, ?_⟩
  · rw [sound.sep]
    exact ready
  · rw [keeps.check]
    exact allowed
  · rw [size]
    exact small

/-- What is stored at the end of a transfer is what the transfer has sent. -/
theorem transfers_content (sound : s.Sound start) (undisturbed : Undisturbed order start s call)
    {result : CallbackResult} {rep : EcRep} (served : serve order s.ctx call.toServerCall = .ok result)
    (stored : result.served.stored = some rep) :
    rep.data = (s.before order call.request).flatten ++ call.request.payload := by
  by_cases handles : ∃ rep res, Handled order s.ctx call.toServerCall rep res
  · obtain ⟨ref, res, handled⟩ := handles
    obtain ⟨others, alone, _⟩ := undisturbed.2 ref res handled
    have held := sound.holds others
    have data : (receiveBlock order s.ctx call.request Response.new).more = some false →
        rep.data = (receiveBlock order s.ctx call.request Response.new).ctx.resbuf.getD [] := by
      intro last
      obtain ⟨result', served', _, _, data, _⟩ := serve_last order call.uploads handled last
      rw [served] at served'
      cases served'
      exact data rep stored
    rcases receiveBlock_cases order s.ctx call.request Response.new with ⟨answer, received⟩ |
      ⟨b1, answer, found, expected, bound, received⟩ | ⟨found, received⟩
    · obtain ⟨left, answer, served', _⟩ := serve_refused order call.uploads handled (by rw [received])
      rw [served] at served'
      cases served'
      cases stored
    · obtain ⟨bnum, more, bsz⟩ := b1
      cases more with
      | true =>
          obtain ⟨answer, served', _⟩ := serve_middle order call.uploads handled (by rw [received])
          rw [served] at served'
          cases served'
          cases stored
      | false =>
          rw [data (by rw [received]), received, held.before_eq found expected, ← held.buffer]
          rfl
    · have first : s.before order call.request = [] := by
        unfold Transfers.before
        rw [found]
      have buffer := held.buffer
      rw [alone found] at buffer
      rw [data (by rw [received]), received, first]
      change s.ctx.resbuf.getD [] ++ call.request.payload = _
      rw [buffer]
  · obtain ⟨response, cbrc, served', _⟩ := serve_unhandled order call.uploads handles
    rw [served] at served'
    cases served'
    cases stored

/-- A request that succeeds with the blocks of its transfer only succeeds among the others. -/
theorem transfers_spared (sound : s.Sound start) (undisturbed : Undisturbed order start s call) {alone : CallbackResult}
    (served : serve order (s.alone start call.request.transfer) call.toServerCall = .ok alone)
    (succeeds : alone.Succeeds) : ∃ result, serve order s.ctx call.toServerCall = .ok result ∧ result.Succeeds := by
  by_cases handles : ∃ rep res, Handled order (s.alone start call.request.transfer) call.toServerCall rep res
  · obtain ⟨ref, res, handled⟩ := handles
    obtain ⟨ref', res', handled'⟩ := sound.handled undisturbed.1 handled
    obtain ⟨others, _, creation⟩ := undisturbed.2 ref' res' handled'
    have held := sound.holds others
    have number : (s.alone start call.request.transfer).b1.bnum = s.ctx.b1.bnum := by
      change (s.sent call.request.transfer).length.toUInt32 = s.ctx.b1.bnum
      rw [← held.number]
      exact UInt32.ofNat_toNat
    have size : (s.alone start call.request.transfer).blockSize = s.ctx.blockSize := by
      unfold ServerCtx.blockSize
      rw [sound.bsz]
      rfl
    obtain ⟨more, response⟩ := receiveBlock_same order number size call.request Response.new
    cases received : (receiveBlock order s.ctx call.request Response.new).more with
    | none =>
        obtain ⟨left, answer, served', _⟩ := serve_refused order call.uploads handled (more.trans received)
        rw [served] at served'
        cases served'
        exact absurd succeeds.2 (by decide : ¬ ecIsOk ecInternalServerError)
    | some goes =>
        cases goes with
        | true =>
            obtain ⟨answer, served', ok⟩ := serve_middle order call.uploads handled' received
            exact ⟨_, served', rfl, ok⟩
        | false =>
            obtain ⟨other, served', _, _, _, ok, _⟩ := serve_last order call.uploads handled (more.trans received)
            rw [served] at served'
            cases served'
            obtain ⟨result, served', _, _, _, ok', _⟩ := serve_last order call.uploads handled' received
            refine ⟨result, served', ok'.mpr fun post => creation post received ?_⟩
            have creates := ok.mp succeeds post
            rw [response] at creates
            exact ⟨creates.short, creates.unregistered, creates.path, creates.located⟩
  · obtain ⟨response, cbrc, served', code, _⟩ := serve_unhandled order call.uploads handles
    rw [served] at served'
    cases served'
    exact absurd succeeds.2 code

end Steps

/-- In a run of undisturbed PUTs and POSTs every transfer stores what it has sent and is spared by the others. -/
theorem transfers_isolated (order : ByteOrder) (start : ServerCtx) (number : start.b1.bnum = 0)
    (buffer : start.resbuf.getD [] = []) (calls : List TransferCall)
    (undisturbed : (transferMachine order).Meets (Undisturbed order start) ⟨start, fun _ => []⟩ calls) :
    (transferMachine order).Meets (Isolated order start) ⟨start, fun _ => []⟩ calls := by
  have initial : Transfers.Sound start ⟨start, fun _ => []⟩ := by
    refine ⟨rfl, rfl, ⟨SockAddr.zero, [], .unset⟩, fun _ _ => rfl, ?_, buffer⟩
    change start.b1.bnum.toNat = 0
    rw [number]
    rfl
  refine undisturbed.imp (Transfers.Sound start) (Isolated order start) ?_ ?_ initial
  · intro s call next sound allowed stepped
    exact transferStep_sound sound allowed stepped
  · intro s call sound allowed
    exact ⟨fun _ _ => transfers_content sound allowed, fun _ => transfers_spared sound allowed⟩

/-- A PUT of a block of 16 equal bytes, from the host with the given last byte of its address. -/
def putBlock (host : UInt8) (number : UInt32) (more : Bool) (byte : UInt8) : TransferCall where
  request := {textTarget with
    peer := ⟨.inet, [127, 0, 0, host], 5683⟩, opts := (addBlock .little ecOptsInit .block1 number more 16).1,
    payload := List.replicate 16 byte}
  resched := false
  etag := Vector.replicate 4 1
  observer := none
  wkc := none
  uploads := Or.inl rfl

/-- A PUT of one byte without Block1. -/
def putByte (host byte : UInt8) : TransferCall where
  request := {textTarget with peer := ⟨.inet, [127, 0, 0, host], 5683⟩, payload := [byte]}
  resched := false
  etag := Vector.replicate 4 1
  observer := none
  wkc := none
  uploads := Or.inl rfl

/-- Two blocks of one client, and then a byte of another one. -/
theorem consecutivePuts_isolated : (transferMachine .little).Meets (Isolated .little textServer)
    ⟨textServer, fun _ => []⟩ [putBlock 1 0 true 1, putBlock 1 1 false 2, putByte 2 3] := by
  apply transfers_isolated .little textServer rfl rfl
  have put : EcMethod.put ≠ .post := by decide
  refine ⟨⟨EcFilesys.KeepsAt.refl _ _, fun _ _ _ => ⟨fun _ _ => rfl, fun _ => rfl, fun post => absurd post put⟩⟩,
    fun s stepped => ?_⟩
  have kept : textServer.fs.Keeps s.ctx.fs := transferStep_keeps stepped fun post => absurd post put
  have first : s.sent = Function.update (fun _ => []) (putBlock 1 0 true 1).request.transfer [List.replicate 16 1] := by
    cases stepped
    rfl
  refine ⟨⟨kept _, fun _ _ _ => ⟨fun other different => ?_, fun absent => ?_, fun post => absurd post put⟩⟩,
    fun s' stepped' => ?_⟩
  · rw [first]
    exact Function.update_of_ne different _ _
  · cases absent
  · have second : s'.sent = Function.update s.sent (putBlock 1 1 false 2).request.transfer [] := by
      cases stepped
      cases stepped'
      rfl
    have closed : ∀ other, s'.sent other = [] := by
      intro other
      have same : (putBlock 1 1 false 2).request.transfer = (putBlock 1 0 true 1).request.transfer := rfl
      rw [second, first, same, Function.update_idem]
      by_cases same : other = (putBlock 1 0 true 1).request.transfer
      · rw [same, Function.update_self]
      · rw [Function.update_of_ne same]
    have kept' : s.ctx.fs.Keeps s'.ctx.fs := transferStep_keeps stepped' fun post => absurd post put
    exact ⟨⟨(kept.trans kept') _, fun _ _ _ => ⟨fun other _ => closed other, fun _ => closed _,
      fun post => absurd post put⟩⟩, fun _ _ => trivial⟩

/-- The content of a PUT between the blocks of another client has the first block of that client ahead. -/
theorem interleavedPuts_mixed : ¬ ∀ order start, start.b1.bnum = 0 → start.resbuf.getD [] = [] → ∀ calls,
    (transferMachine order).Meets (Isolated order start) ⟨start, fun _ => []⟩ calls := by
  intro always
  have run : ∃ s result rep, transferStep .little ⟨textServer, fun _ => []⟩ (putBlock 1 0 true 1) = .ok s ∧
      serve .little s.ctx (putByte 2 3).toServerCall = .ok result ∧ result.served.stored = some rep ∧
      rep.data = List.replicate 16 1 ++ [3] ∧ s.before .little (putByte 2 3).request = [] :=
    ⟨_, _, _, rfl, rfl, rfl, rfl, rfl⟩
  obtain ⟨s, result, rep, stepped, served, stored, data, before⟩ := run
  have meets := always .little textServer rfl rfl [putBlock 1 0 true 1, putByte 2 3]
  have content := (meets.2 s stepped).1.content result rep served stored
  rw [data, before] at content
  exact absurd content (by decide)

end Webthings.Apps
