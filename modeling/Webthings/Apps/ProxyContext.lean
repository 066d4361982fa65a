import Webthings.Apps.HttpProxy

namespace Webthings.Apps
open Webthings.Evcoap

def Heard.payload (heard : Heard) : List UInt8 := ((heard.resSet.head?).map EcPdu.payload).getD []

/-- What a response contributes to the body of the reply. -/
def Heard.carried (heard : Heard) : List UInt8 := if heard.respCode = ecContent then cString heard.payload else []

def Heard.block2 (order : ByteOrder) (heard : Heard) : Option BlockInfo :=
  heard.resSet.head?.bind fun res => ecResponseGetBlock2 order res.opts

section Model

variable (lib : ProxyLib)

/-- The headers that a response is turned into. -/
def Heard.headers (heard : Heard) : List (String × String) :=
  match heard.resSet.head? with
  | none => []
  | some res => httpHeaders lib res.opts res.opts.bundle.list

def bodyOf (own : List Heard) : List UInt8 := (own.map Heard.carried).flatten

/-- The blocks with content have come in their order. -/
def InOrder (own : List Heard) : Prop :=
  ∀ (i : Nat) (heard : Heard) (b : BlockInfo), own[i]? = some heard → heard.respCode = ecContent →
    heard.block2 lib.order = some b → b.bnum.toNat = i

/-- The last Block2 option that has come. -/
def lastBlock (own : List Heard) : Option BlockInfo := (own.filterMap (Heard.block2 lib.order)).getLast?

def wantsMore (own : List Heard) : Bool := ((lastBlock lib own).map BlockInfo.more).getD false

/-- None of the responses is one that gets a reply and goes on. -/
def Unsent (own : List Heard) : Prop := ∀ heard ∈ own, heard.respCode ≠ ecCreated

/-- Each header is one that every content gets, or comes from one of the responses. -/
def OwnHeaders (own : List Heard) (headers : List (String × String)) : Prop :=
  ∀ header ∈ headers, header ∈ contentHeaders ∨ ∃ heard ∈ own, header ∈ heard.headers lib

/-- A reply that is built from the given responses only: it has no body, or all that they have carried in their order,
but for what a reply before it took. -/
structure OwnReply (req : Nat) (own : List Heard) (reply : HttpReply) : Prop where
  request : reply.request = req
  body : reply.body = [] ∨
    InOrder lib own ∧ ∃ taken, reply.body = bodyOf (own.drop taken) ∧ (Unsent own → taken = 0)
  headers : OwnHeaders lib own reply.headers

/-- A CoAP request for the URI of the HTTP request, and behind the given responses for the next block. -/
structure OwnRequest (request : HttpRequest) (req : Nat) (own : List Heard) (client : ProxyClient) : Prop where
  uri : lib.mapUri request.huri = some client.uri
  cbArgs : client.cbArgs = none ∨ client.cbArgs = some req
  block2 : own ≠ [] → client.cbArgs = some req → ∃ b, lastBlock lib own = some b ∧
    ecRequestGetBlock2 lib.order client.cli.req.opts = some ⟨own.length.toUInt32, false, b.bsz⟩

/-- All that is replied and asked is built from the given responses to the requests for one HTTP request. -/
structure BuiltFrom (w next : Proxy) (request : HttpRequest) (req : Nat) (own : List Heard) : Prop where
  replies : ∃ replies, next.replies = w.replies ++ replies ∧ ∀ reply ∈ replies, OwnReply lib req own reply
  requests : ∀ id client, w.clients.length ≤ id → next.clients[id]? = some client → OwnRequest lib request req own client

/-- The expected last block with content, when there was no reply before. -/
structure Heard.Completes (heard : Heard) (history : List Heard) : Prop where
  unsent : Unsent history
  state : heard.state = .reqDone
  respCode : heard.respCode = ecContent
  payload : heard.payload ≠ []
  number : ∀ b, heard.block2 lib.order = some b → b.bnum.toNat = history.length
  last : wantsMore lib (history ++ [heard]) = false

/-- The context is at the block of the response, unless that has no block. -/
def ProxyCtx.Expects (ctx : ProxyCtx) (heard : Heard) : Prop :=
  ∀ b, heard.block2 lib.order = some b → b.bnum = ctx.bopt.blockNo

/-- A content that gets as far as the array fits in it. -/
def ProxyCtx.Fits (ctx : ProxyCtx) (heard : Heard) : Prop :=
  heard.state = .reqDone → heard.respCode = ecContent → ctx.Expects lib heard → heard.payload.length < 1024

/-- The block is another one, or there is no content in it. -/
def ProxyCtx.Refuses (ctx : ProxyCtx) (heard : Heard) : Prop :=
  ¬ ctx.Expects lib heard ∨ heard.respCode = ecContent ∧ heard.payload = []

/-- An answer for an earlier HTTP request that takes nothing from the context and leaves nothing in it: a failure, one
that is replied to at once, one that is refused without a change of the block state, or all of the content at once. -/
inductive Aside (ctx : ProxyCtx) (history : List Heard) (heard : Heard) : Prop where
  | failed (failure : heard.state ≠ .reqDone ∨ heard.respCode = ecRcUnset)
  | atOnce (reply : replyAtOnce heard.respCode ≠ none) (empty : ctx.buf.getD [] = [])
  | refused (reply : replyAtOnce heard.respCode = none) (created : heard.respCode = ecCreated → ctx.buf.getD [] = [])
      (refuses : ctx.Refuses lib heard) (incomplete : ¬ heard.Completes lib history)
      (same : ∀ b, heard.block2 lib.order = some b →
        b.more = ctx.bopt.more ∧ (b.more = true → b.bsz = ctx.bopt.blockSz))
  | whole (reply : replyAtOnce heard.respCode = none) (empty : ctx.buf = some []) (more : ctx.bopt.more = false)
      (first : history = [])
      (content : heard.respCode = ecContent → heard.payload ≠ [] ∧ heard.payload.length < 1024)
      (block : ∀ b, heard.block2 lib.order = some b → b.bnum = 0 ∧ ctx.bopt.blockNo = 0 ∧ b.more = false)

/-- The client of the context has not been freed, and has no response yet. -/
def Proxy.Silent (w : Proxy) : Prop :=
  ∀ current, (w.ctx.cli.bind fun id => w.clients[id]?) = some current →
    current.cli.freed = false ∧ current.cli.resSet = []

/-- The context is at the given block of an HTTP request, behind the given responses. -/
structure ProxyCtx.At (ctx : ProxyCtx) (request : HttpRequest) (own : List Heard) (number : Nat) : Prop where
  curi : lib.mapUri request.huri = some ctx.curi
  number : ctx.bopt.blockNo.toNat = number
  small : ctx.bopt.blockNo ≤ 0xfffff
  more : ctx.bopt.more = wantsMore lib own
  size : ∀ b, lastBlock lib own = some b → b.more = true → ctx.bopt.blockSz = b.bsz
  inOrder : InOrder lib own

/-- The buffer holds what the responses have carried, but for those that went into an earlier reply. -/
def ProxyCtx.Buffers (ctx : ProxyCtx) (own : List Heard) (taken : Nat) : Prop :=
  ctx.buf = some (bodyOf (own.drop taken)) ∧ taken ≤ own.length

/-- The context is that of an HTTP request with its responses so far. -/
structure ProxyCtx.Holds (ctx : ProxyCtx) (request : HttpRequest) (own : List Heard) : Prop where
  block : ctx.At lib request own own.length
  buffer : ∃ taken, ctx.Buffers own taken ∧ (Unsent own → taken = 0)

/-- The second context is the first one, but for a block size that no request will be made with. -/
structure ProxyCtx.Like (ctx ctx' : ProxyCtx) : Prop where
  cli : ctx'.cli = ctx.cli
  curi : ctx'.curi = ctx.curi
  buf : ctx'.buf = ctx.buf
  blockNo : ctx'.bopt.blockNo = ctx.bopt.blockNo
  more : ctx'.bopt.more = ctx.bopt.more
  blockSz : ctx.bopt.more = true → ctx'.bopt.blockSz = ctx.bopt.blockSz

/-- A client that waits for its end. -/
def ProxyClient.Waits (client : ProxyClient) (req : Nat) : Prop := client.cli.freed = false ∧ client.cbArgs = some req

/-- What the work for one HTTP request does to the proxy. -/
structure Continues (w next : Proxy) (request : HttpRequest) (req : Nat) (own : List Heard) : Prop where
  requests : next.requests = w.requests
  others : ∀ other, other ≠ req → next.outputHeaders other = w.outputHeaders other
  headers : OwnHeaders lib own (next.outputHeaders req)
  replies : ∃ replies, next.replies = w.replies ++ replies ∧ ∀ reply ∈ replies, OwnReply lib req own reply
  clients : next.clients = w.clients ∨ ∃ client, next.clients = w.clients ++ [client] ∧
    OwnRequest lib request req own client ∧
    (client.Waits req → next.ctx.cli = some w.clients.length ∧ next.ctx.Holds lib request own)

/-- What the callback does for an answer that stays aside. -/
structure StaysAside (w next : Proxy) (request : HttpRequest) (req : Nat) (own : List Heard) : Prop where
  continues : Continues lib w next request req own
  clients : next.clients = w.clients
  context : w.ctx.Like next.ctx

end Model

section Lists

variable {lib : ProxyLib} {own : List Heard} {heard : Heard}

theorem bodyOf_append (own : List Heard) (heard : Heard) : bodyOf (own ++ [heard]) = bodyOf own ++ heard.carried := by
  unfold bodyOf
  simp

theorem lastBlock_append (own : List Heard) (heard : Heard) :
    lastBlock lib (own ++ [heard]) = (heard.block2 lib.order).or (lastBlock lib own) := by
  unfold lastBlock
  rw [List.filterMap_append]
  cases found : heard.block2 lib.order with
  | none => simp [found]
  | some b => simp [found]

theorem wantsMore_append (own : List Heard) (heard : Heard) :
    wantsMore lib (own ++ [heard]) = ((heard.block2 lib.order).map BlockInfo.more).getD (wantsMore lib own) := by
  unfold wantsMore
  rw [lastBlock_append]
  cases heard.block2 lib.order with
  | none => rfl
  | some b => rfl

/-- A response without content, or with the next block, leaves the blocks in order. -/
theorem InOrder.append (inOrder : InOrder lib own)
    (next : heard.respCode = ecContent → ∀ b, heard.block2 lib.order = some b → b.bnum.toNat = own.length) :
    InOrder lib (own ++ [heard]) := by
  intro i other b there content block
  rcases Nat.lt_trichotomy i own.length with before | last | behind
  · rw [List.getElem?_append_left before] at there
    exact inOrder i other b there content block
  · subst last
    rw [List.getElem?_concat_length] at there
    cases there
    exact next content b block
  · rw [List.getElem?_eq_none (by simpa using behind)] at there
    cases there

theorem OwnHeaders.append {a b : List (String × String)} (first : OwnHeaders lib own a) (second : OwnHeaders lib own b) :
    OwnHeaders lib own (a ++ b) := by
  intro header member
  rcases List.mem_append.mp member with left | right
  · exact first header left
  · exact second header right

theorem OwnHeaders.extend {headers : List (String × String)} (mine : OwnHeaders lib own headers) (heard : Heard) :
    OwnHeaders lib (own ++ [heard]) headers := by
  intro header member
  rcases mine header member with fixed | ⟨other, there, taken⟩
  · exact Or.inl fixed
  · exact Or.inr ⟨other, List.mem_append_left _ there, taken⟩

theorem OwnHeaders.last (own : List Heard) (heard : Heard) : OwnHeaders lib (own ++ [heard]) (heard.headers lib) :=
  fun _ member => Or.inr ⟨heard, by simp, member⟩

theorem OwnHeaders.content (own : List Heard) : OwnHeaders lib own contentHeaders := fun _ member => Or.inl member

end Lists

section Operations

variable {lib : ProxyLib} {w v : Proxy} {request : HttpRequest} {req : Nat} {own : List Heard}

theorem modify_last {α : Type} (list : List α) (last : α) (change : α → α) :
    (list ++ [last]).modify list.length change = list ++ [change last] := by
  induction list with
  | nil => rfl
  | cons first list ih => simpa using ih

/-- An error reply carries nothing. -/
theorem OwnReply.error {reply : HttpReply} (same : reply = ⟨req, 500, "wtf!", v.outputHeaders req, []⟩)
    (headers : OwnHeaders lib own (v.outputHeaders req)) : OwnReply lib req own reply := by
  subst same
  exact ⟨rfl, Or.inl rfl, headers⟩

theorem Continues.refl (headers : OwnHeaders lib own (w.outputHeaders req)) : Continues lib w w request req own :=
  ⟨rfl, fun _ _ => rfl, headers, ⟨[], (List.append_nil _).symm, fun _ member => by cases member⟩, Or.inl rfl⟩

/-- More headers of the own responses can be added at any time. -/
theorem Continues.addHeaders (sofar : Continues lib w v request req own) {headers : List (String × String)}
    (mine : OwnHeaders lib own headers) : Continues lib w (v.addHeaders req headers) request req own := by
  refine ⟨sofar.requests, ?_, ?_, sofar.replies, sofar.clients⟩
  · intro other different
    change Function.update v.outputHeaders req _ other = _
    rw [Function.update_of_ne different]
    exact sofar.others other different
  · change OwnHeaders lib own (Function.update v.outputHeaders req _ req)
    rw [Function.update_self]
    exact sofar.headers.append mine

theorem Continues.answers (sofar : Continues lib w v request req own) {next : Proxy} {replies : List HttpReply}
    (requests : next.requests = v.requests) (outputHeaders : next.outputHeaders = v.outputHeaders)
    (sent : next.replies = v.replies ++ replies) (mine : ∀ reply ∈ replies, OwnReply lib req own reply)
    (clients : next.clients = w.clients ∨ ∃ client, next.clients = w.clients ++ [client] ∧
      OwnRequest lib request req own client ∧
      (client.Waits req → next.ctx.cli = some w.clients.length ∧ next.ctx.Holds lib request own)) :
    Continues lib w next request req own := by
  obtain ⟨before, replied, owned⟩ := sofar.replies
  refine ⟨requests.trans sofar.requests, ?_, ?_, ⟨before ++ replies, ?_, ?_⟩, clients⟩
  · rw [outputHeaders]
    exact sofar.others
  · rw [outputHeaders]
    exact sofar.headers
  · rw [sent, replied, List.append_assoc]
  · intro reply member
    rcases List.mem_append.mp member with early | late
    · exact owned reply early
    · exact mine reply late

/-- The error path leaves the context alone. -/
theorem Continues.error (sofar : Continues lib w v request req own) :
    Continues lib w (v.sendError req) request req own := by
  have errors : ∀ reply ∈ [(⟨req, 500, "wtf!", v.outputHeaders req, []⟩ : HttpReply)], OwnReply lib req own reply := by
    intro reply member
    exact OwnReply.error (List.mem_singleton.mp member) sofar.headers
  exact sofar.answers (rfl : (v.sendError req).requests = v.requests) rfl rfl errors sofar.clients

@[simp] theorem Proxy.addHeaders_nil (w : Proxy) (req : Nat) : w.addHeaders req [] = w := by
  unfold addHeaders
  rw [List.append_nil, Function.update_eq_self]

/-- The headers come from the client of the context. -/
theorem processSetHttpHeaders_live {client : ProxyClient} (found : (w.ctx.cli.bind fun id => w.clients[id]?) = some client)
    (live : client.cli.freed = false) (heard : Heard) (stored : client.cli.resSet = heard.resSet) :
    processSetHttpHeaders lib w req = .ok (w.addHeaders req (heard.headers lib)) := by
  unfold processSetHttpHeaders
  rw [found]
  dsimp only
  rw [live, if_neg Bool.false_ne_true]
  unfold ecClientGetResponsePdu Heard.headers
  rw [stored]
  cases heard.resSet.head? with
  | none => simp
  | some res => rfl

/-- What the engine makes of a new client. -/
def SendOutcome.left (outcome : SendOutcome) (cli : EcClient) (uri : List UInt8) (req : Nat) : ProxyClient :=
  match outcome with
  | .pending => ⟨cli, uri, some req⟩
  | .refused => ProxyClient.free ⟨cli, uri, none⟩
  | .aborted state => ProxyClient.free ⟨{cli with state := state}, uri, some req⟩

/-- What the callback replies before the call returns. -/
def SendOutcome.replied (outcome : SendOutcome) (req : Nat) (headers : List (String × String)) : List HttpReply :=
  match outcome with
  | .aborted _ => [⟨req, 500, "wtf!", headers, []⟩]
  | _ => []

def SendOutcome.rc : SendOutcome → Int
  | .refused => -1
  | _ => 0

variable (lib) (req) in
/-- A new client is sent, is refused, or fails in a callback that has nothing to tell. -/
theorem ecRequestSend_outcome (w : Proxy) {cli : EcClient} (uri : List UInt8) (live : cli.freed = false)
    (silent : cli.resSet = []) (outcome : SendOutcome) :
    ecRequestSend lib (w.addClient cli uri) w.clients.length req outcome =
      .ok ({w.addClient cli uri with
        clients := w.clients ++ [outcome.left cli uri req]
        replies := w.replies ++ outcome.replied req (w.outputHeaders req)}, outcome.rc) := by
  have last : ∀ change, (w.addClient cli uri).modifyClient w.clients.length change =
      {w.addClient cli uri with clients := w.clients ++ [change ⟨cli, uri, none⟩]} := by
    intro change
    unfold Proxy.modifyClient Proxy.addClient
    dsimp only
    rw [modify_last]
  unfold ecRequestSend
  cases outcome with
  | pending =>
      dsimp only [SendOutcome.left, SendOutcome.replied, SendOutcome.rc]
      rw [last, List.append_nil]
      rfl
  | refused =>
      dsimp only [SendOutcome.left, SendOutcome.replied, SendOutcome.rc]
      rw [last, List.append_nil]
      rfl
  | aborted state =>
      let called : ProxyClient := ⟨{cli with state := state}, uri, some req⟩
      have found : (({w.addClient cli uri with clients := w.clients ++ [called]} : Proxy).ctx.cli.bind fun id =>
          ({w.addClient cli uri with clients := w.clients ++ [called]} : Proxy).clients[id]?) = some called :=
        List.getElem?_concat_length
      have headed : processSetHttpHeaders lib {w.addClient cli uri with clients := w.clients ++ [called]} req = _ :=
        processSetHttpHeaders_live found live ⟨state, ecRcUnset, []⟩ silent
      have nothing : Heard.headers lib ⟨state, ecRcUnset, []⟩ = [] := rfl
      rw [nothing, Proxy.addHeaders_nil] at headed
      dsimp only [SendOutcome.left, SendOutcome.replied, SendOutcome.rc]
      rw [last]
      erw [headed]
      unfold Proxy.modifyClient
      change Except.ok (({w.addClient cli uri with
        clients := (w.clients ++ [called]).modify w.clients.length ProxyClient.free
        replies := w.replies ++ [HttpReply.mk req 500 "wtf!" (w.outputHeaders req) []]} : Proxy), (0 : Int)) = _
      rw [modify_last]

variable (lib) (req) in
/-- A new client that is sent belongs to the request, and so does an error that is replied at once. -/
theorem ecRequestSend_new (w : Proxy) {cli : EcClient} (uri : List UInt8) (live : cli.freed = false)
    (silent : cli.resSet = []) (outcome : SendOutcome) :
    ∃ client rc replies, ecRequestSend lib (w.addClient cli uri) w.clients.length req outcome =
        .ok ({w.addClient cli uri with clients := w.clients ++ [client], replies := w.replies ++ replies}, rc) ∧
      client.uri = uri ∧ client.cli.req = cli.req ∧ (client.cbArgs = none ∨ client.cbArgs = some req) ∧
      ∀ reply ∈ replies, reply = ⟨req, 500, "wtf!", w.outputHeaders req, []⟩ := by
  refine ⟨_, _, _, ecRequestSend_outcome lib req w uri live silent outcome, ?_, ?_, ?_, ?_⟩
  · cases outcome <;> rfl
  · cases outcome <;> rfl
  · cases outcome with
    | pending => exact Or.inr rfl
    | refused => exact Or.inl rfl
    | aborted state => exact Or.inr rfl
  · intro reply member
    cases outcome with
    | pending => cases member
    | refused => cases member
    | aborted state => exact List.mem_singleton.mp member

theorem ecRequestNew_some {m : EcMethod} {uri : List UInt8} {made : Bool} {cli : EcClient}
    (created : ecRequestNew lib m uri made = some cli) :
    cli.freed = false ∧ cli.resSet = [] ∧ ecOptsGet cli.req.opts .block2 = none := by
  unfold ecRequestNew at created
  dsimp only at created
  split at created
  · cases created
  · cases created
    obtain ⟨⟨opts, token, same⟩, spared⟩ := ecClientAddUriOpts_extends (proxyRequest m) lib.isAbsolute false uri
      (lib.uriCrumble uri) (by simp [UriSym] : ¬ UriSym .block2)
    refine ⟨?_, ?_, spared⟩
    · rw [same]
      rfl
    · rw [same]
      rfl

/-- Where the block behind the last one can be asked for, the context moves on to it, and the request reads so. -/
theorem ProxyCtx.At.follows {ctx : ProxyCtx} {number : Nat} (block : ctx.At lib request own number)
    (counted : own.length = number + 1) {b : BlockInfo} (found : lastBlock lib own = some b) (onward : b.more = true)
    {cli : EcClient} (absent : ecOptsGet cli.req.opts .block2 = none)
    (room : (ecRequestAddBlock2 lib.order cli (ctx.bopt.blockNo + 1) false ctx.bopt.blockSz).2 = 0) :
    ({ctx with bopt := {ctx.bopt with blockNo := ctx.bopt.blockNo + 1}} : ProxyCtx).At lib request own own.length ∧
      ecRequestGetBlock2 lib.order (ecRequestAddBlock2 lib.order cli (ctx.bopt.blockNo + 1) false
        ctx.bopt.blockSz).1.req.opts = some ⟨own.length.toUInt32, false, b.bsz⟩ := by
  obtain ⟨fits, _, read⟩ := addBlock_accepted lib.order (Or.inr rfl) absent room
  have last : (ctx.bopt.blockNo + 1).toNat = own.length := by
    have small : ctx.bopt.blockNo.toNat ≤ 0xfffff := block.small
    rw [UInt32.toNat_add, block.number, counted]
    have below := block.number
    change (number + 1) % 2 ^ 32 = _
    omega
  have same : ctx.bopt.blockNo + 1 = own.length.toUInt32 := by
    rw [← last]
    exact UInt32.ofNat_toNat.symm
  refine ⟨⟨block.curi, last, fits, block.more, block.size, block.inOrder⟩, ?_⟩
  rw [← same, ← block.size b found onward]
  exact read

/-- The next block is asked for with the number behind the last one. -/
theorem requestNext_continues (sofar : Continues lib w v request req own) (same : v.clients = w.clients)
    {number : Nat} (block : v.ctx.At lib request own number) (counted : own.length = number + 1)
    (buffer : ∃ taken, v.ctx.Buffers own taken ∧ (Unsent own → taken = 0)) (more : v.ctx.bopt.more = true)
    (env : RequestEnv) : ∃ next, requestNext lib v req env = .ok next ∧ Continues lib w next request req own := by
  obtain ⟨b, found, onward⟩ : ∃ b, lastBlock lib own = some b ∧ b.more = true := by
    have wanted : wantsMore lib own = true := block.more.symm.trans more
    unfold wantsMore at wanted
    cases found : lastBlock lib own with
    | none => simp [found] at wanted
    | some b => exact ⟨b, rfl, by simpa [found] using wanted⟩
  unfold requestNext
  cases created : ecRequestNew lib .get v.ctx.curi env.made with
  | none =>
      have cleared : Continues lib w {v with ctx := {v.ctx with cli := none}} request req own :=
        ⟨sofar.requests, sofar.others, sofar.headers, sofar.replies, Or.inl same⟩
      exact ⟨_, rfl, cleared.error⟩
  | some cli =>
      obtain ⟨live, silent, absent⟩ := ecRequestNew_some created
      dsimp only
      generalize requested : ecRequestAddBlock2 lib.order cli (v.ctx.bopt.blockNo + 1) false v.ctx.bopt.blockSz = added
      have live' : added.1.freed = false := by
        rw [← requested]
        exact live
      have silent' : added.1.resSet = [] := by
        rw [← requested]
        exact silent
      generalize counting : ({v with ctx := {v.ctx with bopt := {v.ctx.bopt with blockNo := v.ctx.bopt.blockNo + 1}}} :
        Proxy) = next
      have clients : next.clients = w.clients := by
        rw [← counting]
        exact same
      have sofar' : Continues lib w next request req own := by
        rw [← counting]
        exact ⟨sofar.requests, sofar.others, sofar.headers, sofar.replies, Or.inl same⟩
      by_cases room : added.2 = 0
      · obtain ⟨moved, read⟩ := block.follows counted found onward absent ((congrArg Prod.snd requested).trans room)
        obtain ⟨client, rc, replies, run, uri, asked, cbArgs, errors⟩ := ecRequestSend_new lib req next
          v.ctx.curi live' silent' env.outcome
        have own' : OwnRequest lib request req own client := by
          refine ⟨by rw [uri]; exact block.curi, cbArgs, fun _ _ => ⟨b, found, ?_⟩⟩
          rw [asked, ← requested]
          exact read
        have holds : (next.addClient added.1 v.ctx.curi).ctx.Holds lib request own := by
          rw [← counting]
          exact ⟨⟨moved.curi, moved.number, moved.small, moved.more, moved.size, moved.inOrder⟩, buffer⟩
        have sent : Continues lib w {next.addClient added.1 v.ctx.curi with
            clients := next.clients ++ [client], replies := next.replies ++ replies} request req own := by
          refine sofar'.answers rfl rfl rfl ?_ (Or.inr ⟨client, ?_, own', fun _ => ⟨?_, holds⟩⟩)
          · intro reply member
            exact OwnReply.error (errors reply member) sofar'.headers
          · change next.clients ++ [client] = _
            rw [clients]
          · change some next.clients.length = _
            rw [clients]
        have count : v.clients.length = next.clients.length := by rw [clients, same]
        rw [if_neg (not_not_intro room), count, run]
        dsimp only
        split
        · exact ⟨_, rfl, sent.error⟩
        · exact ⟨_, rfl, sent⟩
      · rw [if_pos room]
        have unsent : Continues lib w (next.addClient added.1 v.ctx.curi) request req own := by
          refine sofar'.answers (rfl : (next.addClient added.1 v.ctx.curi).requests = next.requests) rfl
            (List.append_nil _).symm (fun _ member => by cases member)
            (Or.inr ⟨⟨added.1, v.ctx.curi, none⟩, ?_, ⟨block.curi, Or.inl rfl, fun _ never => by cases never⟩, fun waits => ?_⟩)
          · change next.clients ++ [_] = _
            rw [clients]
          · cases waits.2
        exact ⟨_, rfl, unsent.error⟩

/-- What the buffer takes in. -/
theorem ProxyCtx.Buffers.append {ctx : ProxyCtx} {heard : Heard} {taken : Nat} (buffers : ctx.Buffers own taken) :
    ({ctx with buf := some (bodyOf (own.drop taken) ++ heard.carried)} : ProxyCtx).Buffers (own ++ [heard]) taken := by
  refine ⟨?_, ?_⟩
  · rw [List.drop_append_of_le_length buffers.2, bodyOf_append]
  · rw [List.length_append]
    exact Nat.le_add_right_of_le buffers.2

@[simp] theorem Proxy.noteBlock_buf (v : Proxy) (b2 : Option BlockInfo) : (v.noteBlock b2).ctx.buf = v.ctx.buf := by
  cases b2 <;> rfl

@[simp] theorem Proxy.noteBlock_clients (v : Proxy) (b2 : Option BlockInfo) : (v.noteBlock b2).clients = v.clients := by
  cases b2 <;> rfl

theorem Continues.setBuffer (sofar : Continues lib w v request req own) (same : v.clients = w.clients)
    (data : List UInt8) : Continues lib w (v.setBuffer data) request req own :=
  ⟨sofar.requests, sofar.others, sofar.headers, sofar.replies, Or.inl same⟩

/-- A reply with the buffer, which holds some of the last responses. -/
theorem Continues.reply (sofar : Continues lib w v request req own) (same : v.clients = w.clients) {taken : Nat}
    (data : v.ctx.buf.getD [] = bodyOf (own.drop taken)) (whole : Unsent own → taken = 0) (inOrder : InOrder lib own)
    (code : Nat) (reason : String) :
    Continues lib w (v.sendReply req code reason true) request req own := by
  have owned : ∀ reply ∈ [(⟨req, code, reason, v.outputHeaders req, v.ctx.buf.getD []⟩ : HttpReply)],
      OwnReply lib req own reply := by
    intro reply member
    rw [List.mem_singleton.mp member]
    exact ⟨rfl, Or.inr ⟨inOrder, taken, data, whole⟩, sofar.headers⟩
  exact sofar.answers (rfl : (v.sendReply req code reason true).requests = v.requests) rfl rfl owned (Or.inl same)

theorem Continues.noteBlock (sofar : Continues lib w v request req own) (same : v.clients = w.clients)
    (b2 : Option BlockInfo) : Continues lib w (v.noteBlock b2) request req own := by
  cases b2 with
  | none => exact sofar
  | some b => exact ⟨sofar.requests, sofar.others, sofar.headers, sofar.replies, Or.inl same⟩

theorem ProxyCtx.At.noteBlock_more {number : Nat} (block : v.ctx.At lib request own number) (heard : Heard) :
    (v.noteBlock (heard.block2 lib.order)).ctx.bopt.more = wantsMore lib (own ++ [heard]) := by
  rw [wantsMore_append]
  cases heard.block2 lib.order with
  | none => exact block.more
  | some b => rfl

/-- The block state follows the responses. -/
theorem ProxyCtx.At.noteBlock {number : Nat} (block : v.ctx.At lib request own number) (heard : Heard)
    (inOrder : InOrder lib (own ++ [heard])) :
    (v.noteBlock (heard.block2 lib.order)).ctx.At lib request (own ++ [heard]) number := by
  have more := block.noteBlock_more heard
  have size : ∀ b, lastBlock lib (own ++ [heard]) = some b → b.more = true →
      (v.noteBlock (heard.block2 lib.order)).ctx.bopt.blockSz = b.bsz := by
    intro b last onward
    rw [lastBlock_append] at last
    cases found : heard.block2 lib.order with
    | none =>
        rw [found] at last
        exact block.size b last onward
    | some noted =>
        rw [found] at last
        cases last
        rfl
  cases found : heard.block2 lib.order with
  | none =>
      rw [found] at more size
      exact ⟨block.curi, block.number, block.small, more, size, inOrder⟩
  | some b =>
      rw [found] at more size
      exact ⟨block.curi, block.number, block.small, more, size, inOrder⟩

theorem payloadText_store {heard : Heard} (cli : EcClient)
    (content : heard.respCode = ecContent → heard.payload ≠ [] ∧ heard.payload.length < 1024) :
    payloadText (heard.store cli) = .ok (some heard.carried) := by
  unfold payloadText Heard.carried
  change (if heard.respCode ≠ ecContent then _ else if heard.payload = [] then _
    else if heard.payload.length ≥ 1024 then _ else _) = _
  by_cases code : heard.respCode = ecContent
  · obtain ⟨filled, short⟩ := content code
    rw [if_neg (not_not_intro code), if_neg filled, if_neg (by omega), if_pos code]
    rfl
  · rw [if_pos code, if_neg code]

theorem payloadText_empty {heard : Heard} (cli : EcClient) (content : heard.respCode = ecContent)
    (empty : heard.payload = []) : payloadText (heard.store cli) = .ok none := by
  unfold payloadText
  change (if heard.respCode ≠ ecContent then _ else if heard.payload = [] then _ else _) = _
  rw [if_neg (not_not_intro content), if_pos empty]

theorem ProxyCtx.expects_iff (ctx : ProxyCtx) (heard : Heard) :
    ctx.Expects lib heard ↔ ((heard.block2 lib.order).any fun b => b.bnum ≠ ctx.bopt.blockNo) = false := by
  unfold Expects
  cases heard.block2 lib.order with
  | none => simp
  | some b => simp

/-- The proxy when a block has been taken in. -/
def Proxy.filled (lib : ProxyLib) (v : Proxy) (req : Nat) (data : List UInt8) (heard : Heard) : Proxy :=
  ((v.noteBlock (heard.block2 lib.order)).addHeaders req contentHeaders).setBuffer (data ++ heard.carried)

theorem processBlock_refused {heard : Heard} (cli : EcClient) (refuses : v.ctx.Refuses lib heard) (env : RequestEnv) :
    processBlock lib v (heard.store cli) req env = .ok ((v.noteBlock (heard.block2 lib.order)).sendError req) := by
  unfold processBlock
  have found : ecClientGetBlock2 lib (heard.store cli) = heard.block2 lib.order := rfl
  rw [found]
  dsimp only
  split
  · rfl
  · rename_i expected
    rcases refuses with other | ⟨content, empty⟩
    · exact absurd ((v.ctx.expects_iff heard).mpr (Bool.eq_false_iff.mpr expected)) other
    · rw [payloadText_empty cli content empty]

/-- A block that is taken in is replied with, or followed by the request for the next one. -/
theorem processBlock_filled {heard : Heard} (cli : EcClient) (expected : v.ctx.Expects lib heard)
    (content : heard.respCode = ecContent → heard.payload ≠ [] ∧ heard.payload.length < 1024) {data : List UInt8}
    (buffer : v.ctx.buf = some data) (env : RequestEnv) :
    processBlock lib v (heard.store cli) req env =
      if (v.noteBlock (heard.block2 lib.order)).ctx.bopt.more = false then
        .ok ((v.filled lib req data heard).sendReply req 200 "OK" true)
      else requestNext lib (v.filled lib req data heard) req env := by
  unfold processBlock
  have found : ecClientGetBlock2 lib (heard.store cli) = heard.block2 lib.order := rfl
  have matching := (v.ctx.expects_iff heard).mp expected
  rw [found]
  dsimp only
  rw [if_neg (Bool.eq_false_iff.mp matching), payloadText_store cli content]
  dsimp only
  rw [Proxy.noteBlock_buf, buffer]
  rfl

/-- The block of a response goes into the buffer, and the reply or the next request follows. -/
theorem processBlock_continues {heard : Heard} (sofar : Continues lib w v request req (own ++ [heard]))
    (same : v.clients = w.clients) (cli : EcClient) (block : v.ctx.At lib request own own.length) {taken : Nat}
    (buffers : v.ctx.Buffers own taken) (whole : Unsent (own ++ [heard]) → taken = 0) (done : heard.state = .reqDone)
    (fits : v.ctx.Fits lib heard) (env : RequestEnv) :
    ∃ next, processBlock lib v (heard.store cli) req env = .ok next ∧
      Continues lib w next request req (own ++ [heard]) := by
  have noted := sofar.noteBlock same (heard.block2 lib.order)
  by_cases refuses : v.ctx.Refuses lib heard
  · exact ⟨_, processBlock_refused cli refuses env, noted.error⟩
  · obtain ⟨notOther, notEmpty⟩ := not_or.mp refuses
    have expected : v.ctx.Expects lib heard := not_not.mp notOther
    have content : heard.respCode = ecContent → heard.payload ≠ [] ∧ heard.payload.length < 1024 := fun code =>
      ⟨fun empty => notEmpty ⟨code, empty⟩, fits done code expected⟩
    have number : ∀ b, heard.block2 lib.order = some b → b.bnum.toNat = own.length := by
      intro b there
      rw [expected b there]
      exact block.number
    have inOrder := block.inOrder.append fun _ => number
    have noting := block.noteBlock heard inOrder
    have clients : (v.filled lib req (bodyOf (own.drop taken)) heard).clients = w.clients := by
      change (v.noteBlock (heard.block2 lib.order)).clients = _
      rw [Proxy.noteBlock_clients]
      exact same
    have filled : Continues lib w (v.filled lib req (bodyOf (own.drop taken)) heard) request req (own ++ [heard]) :=
      (noted.addHeaders (OwnHeaders.content (own ++ [heard]))).setBuffer clients _
    have buffers' : (v.filled lib req (bodyOf (own.drop taken)) heard).ctx.Buffers (own ++ [heard]) taken :=
      buffers.append
    rw [processBlock_filled cli expected content buffers.1]
    split
    · have data : (v.filled lib req (bodyOf (own.drop taken)) heard).ctx.buf.getD [] =
          bodyOf ((own ++ [heard]).drop taken) := by
        rw [buffers'.1]
        rfl
      exact ⟨_, rfl, filled.reply clients data whole inOrder 200 "OK"⟩
    · rename_i more
      have counted : (own ++ [heard]).length = own.length + 1 := by simp
      have at' : (v.filled lib req (bodyOf (own.drop taken)) heard).ctx.At lib request (own ++ [heard]) own.length :=
        ⟨noting.curi, noting.number, noting.small, noting.more, noting.size, noting.inOrder⟩
      exact requestNext_continues filled clients at' counted ⟨taken, buffers', whole⟩ (Bool.eq_true_of_not_eq_false more)
        env

theorem replyAtOnce_content : replyAtOnce ecContent = none := by decide

/-- What follows once the headers are taken over. -/
theorem processCoapResponse_headed {heard : Heard} (cli : EcClient) {headers : List (String × String)}
    (headed : processSetHttpHeaders lib w req = .ok (w.addHeaders req headers)) (env : RequestEnv) :
    processCoapResponse lib w (heard.store cli) req env =
      if heard.state ≠ .reqDone ∨ heard.respCode = ecRcUnset then .ok ((w.addHeaders req headers).sendError req)
      else
        match replyAtOnce heard.respCode with
        | some (code, reason) => .ok ((w.addHeaders req headers).sendReply req code reason true)
        | none =>
            processBlock lib (if heard.respCode = ecCreated then
              (w.addHeaders req headers).sendReply req 201 "Created" true else w.addHeaders req headers)
              (heard.store cli) req env := by
  unfold processCoapResponse
  rw [headed]
  rfl

/-- The whole callback, for a client that is the one of the context and has just been told of its end. -/
theorem processCoapResponse_continues {heard : Heard} {client : ProxyClient} (cli : EcClient)
    (found : (w.ctx.cli.bind fun id => w.clients[id]?) = some client) (stored : client.cli = heard.store cli)
    (live : cli.freed = false) (holds : w.ctx.Holds lib request own) (headers : OwnHeaders lib own (w.outputHeaders req))
    (fits : w.ctx.Fits lib heard) (env : RequestEnv) :
    ∃ next, processCoapResponse lib w (heard.store cli) req env = .ok next ∧
      Continues lib w next request req (own ++ [heard]) := by
  obtain ⟨block, taken, buffers, whole⟩ := holds
  have headed : Continues lib w (w.addHeaders req (heard.headers lib)) request req (own ++ [heard]) :=
    (Continues.refl (headers.extend heard)).addHeaders (OwnHeaders.last own heard)
  rw [processCoapResponse_headed cli
    (processSetHttpHeaders_live found (by rw [stored]; exact live) heard (by rw [stored]; rfl))]
  split
  · exact ⟨_, rfl, headed.error⟩
  rename_i succeeded
  have done : heard.state = .reqDone := not_not.mp (not_or.mp succeeded).1
  have whole' : Unsent (own ++ [heard]) → taken = 0 := fun unsent =>
    whole fun earlier member => unsent earlier (List.mem_append_left _ member)
  have body : heard.respCode ≠ ecContent →
      (w.addHeaders req (heard.headers lib)).ctx.buf.getD [] = bodyOf ((own ++ [heard]).drop taken) := by
    intro other
    have nothing : heard.carried = [] := if_neg other
    change w.ctx.buf.getD [] = _
    rw [buffers.1, List.drop_append_of_le_length buffers.2, bodyOf_append, nothing, List.append_nil]
    rfl
  have inOrder : heard.respCode ≠ ecContent → InOrder lib (own ++ [heard]) := fun other =>
    block.inOrder.append fun content => absurd content other
  cases atOnce : replyAtOnce heard.respCode with
  | some reply =>
      obtain ⟨code, reason⟩ := reply
      have other : heard.respCode ≠ ecContent := by
        intro content
        rw [content, replyAtOnce_content] at atOnce
        cases atOnce
      exact ⟨_, rfl, headed.reply rfl (body other) whole' (inOrder other) code reason⟩
  | none =>
      dsimp only
      by_cases created : heard.respCode = ecCreated
      · -- The reply takes the buffer with it, and the block goes into the empty one.
        have other : heard.respCode ≠ ecContent := by
          rw [created]
          decide
        have emptied : ((w.addHeaders req (heard.headers lib)).sendReply req 201 "Created" true).ctx.Buffers own
            own.length := by
          refine ⟨?_, le_refl _⟩
          change w.ctx.buf.map (fun _ => []) = _
          rw [buffers.1, List.drop_length]
          rfl
        have block' : ((w.addHeaders req (heard.headers lib)).sendReply req 201 "Created" true).ctx.At lib request own
            own.length := ⟨block.curi, block.number, block.small, block.more, block.size, block.inOrder⟩
        rw [if_pos created]
        refine processBlock_continues (headed.reply rfl (body other) whole' (inOrder other) 201 "Created") rfl cli block'
          emptied ?_ done fits env
        intro never
        exact absurd created (never heard (by simp))
      · rw [if_neg created]
        exact processBlock_continues headed rfl cli block buffers whole' done fits env

/-- The expected last block is replied with behind all that the buffer holds. -/
theorem processCoapResponse_completes {heard : Heard} (cli : EcClient) {headers : List (String × String)}
    (headed : processSetHttpHeaders lib w req = .ok (w.addHeaders req headers)) (done : heard.state = .reqDone)
    (code : heard.respCode = ecContent) (expected : w.ctx.Expects lib heard) (filled : heard.payload ≠ [])
    (short : heard.payload.length < 1024) {data : List UInt8} (buffer : w.ctx.buf = some data)
    (last : (w.noteBlock (heard.block2 lib.order)).ctx.bopt.more = false) (env : RequestEnv) :
    ∃ headers next, processCoapResponse lib w (heard.store cli) req env = .ok next ∧
      next.replies = w.replies ++ [⟨req, 200, "OK", headers, data ++ heard.carried⟩] := by
  have set : ¬ (heard.state ≠ .reqDone ∨ heard.respCode = ecRcUnset) := by
    rw [done, code]
    decide
  have other : ¬ heard.respCode = ecCreated := by
    rw [code]
    decide
  have last' : ((w.addHeaders req headers).noteBlock (heard.block2 lib.order)).ctx.bopt.more = false := by
    rw [← last]
    cases heard.block2 lib.order <;> rfl
  have content : heard.respCode = ecContent → heard.payload ≠ [] ∧ heard.payload.length < 1024 :=
    fun _ => ⟨filled, short⟩
  have expected' : (w.addHeaders req headers).ctx.Expects lib heard := expected
  rw [processCoapResponse_headed cli headed, if_neg set, code, replyAtOnce_content]
  dsimp only
  rw [← code, if_neg other, processBlock_filled cli expected' content buffer, if_pos last']
  refine ⟨((w.addHeaders req headers).filled lib req data heard).outputHeaders req, _, rfl, ?_⟩
  change (((w.addHeaders req headers).noteBlock (heard.block2 lib.order)).replies ++ _) = _
  have replies : ((w.addHeaders req headers).noteBlock (heard.block2 lib.order)).replies = w.replies := by
    cases heard.block2 lib.order <;> rfl
  rw [replies]
  rfl

theorem ProxyCtx.Like.refl (ctx : ProxyCtx) : ctx.Like ctx := ⟨rfl, rfl, rfl, rfl, rfl, fun _ => rfl⟩

theorem ProxyCtx.Like.trans {ctx middle last : ProxyCtx} (first : ctx.Like middle) (second : middle.Like last) :
    ctx.Like last := by
  refine ⟨second.cli.trans first.cli, second.curi.trans first.curi, second.buf.trans first.buf,
    second.blockNo.trans first.blockNo, second.more.trans first.more, fun more => ?_⟩
  rw [second.blockSz (first.more.trans more), first.blockSz more]

/-- An empty buffer stays as it is when it is sent. -/
theorem Proxy.sendReply_like (v : Proxy) (req code : Nat) (reason : String) (empty : v.ctx.buf.getD [] = []) :
    v.ctx.Like (v.sendReply req code reason true).ctx := by
  refine ⟨rfl, rfl, ?_, rfl, rfl, fun _ => rfl⟩
  change v.ctx.buf.map (fun _ => []) = v.ctx.buf
  cases held : v.ctx.buf with
  | none => rfl
  | some data =>
      rw [held] at empty
      exact congrArg some (empty : data = []).symm

theorem Proxy.noteBlock_like (v : Proxy) {b2 : Option BlockInfo}
    (same : ∀ b, b2 = some b → b.more = v.ctx.bopt.more ∧ (b.more = true → b.bsz = v.ctx.bopt.blockSz)) :
    v.ctx.Like (v.noteBlock b2).ctx := by
  cases b2 with
  | none => exact ProxyCtx.Like.refl v.ctx
  | some b =>
      obtain ⟨more, size⟩ := same b rfl
      exact ⟨rfl, rfl, rfl, rfl, more, fun onward => size (more.trans onward)⟩

/-- A context stays with the last HTTP request. -/
theorem ProxyCtx.Holds.like {ctx ctx' : ProxyCtx} (holds : ctx.Holds lib request own) (like : ctx.Like ctx') :
    ctx'.Holds lib request own := by
  obtain ⟨block, taken, buffers, whole⟩ := holds
  refine ⟨⟨?_, ?_, ?_, like.more.trans block.more, ?_, block.inOrder⟩, taken, ⟨like.buf.trans buffers.1, buffers.2⟩, whole⟩
  · rw [like.curi]
    exact block.curi
  · rw [like.blockNo]
    exact block.number
  · rw [like.blockNo]
    exact block.small
  · intro b last onward
    have more : ctx.bopt.more = true := by
      rw [block.more]
      unfold wantsMore
      rw [last]
      exact onward
    rw [like.blockSz more]
    exact block.size b last onward

/-- The reply to an answer that finds the buffer empty. -/
theorem Continues.replyEmpty (sofar : Continues lib w v request req own) (same : v.clients = w.clients)
    (empty : v.ctx.buf.getD [] = []) (code : Nat) (reason : String) :
    Continues lib w (v.sendReply req code reason true) request req own := by
  have owned : ∀ reply ∈ [(⟨req, code, reason, v.outputHeaders req, v.ctx.buf.getD []⟩ : HttpReply)],
      OwnReply lib req own reply := by
    intro reply member
    rw [List.mem_singleton.mp member]
    exact ⟨rfl, Or.inl empty, sofar.headers⟩
  exact sofar.answers (rfl : (v.sendReply req code reason true).requests = v.requests) rfl rfl owned (Or.inl same)

/-- Ahead of a block, a 2.01 is replied to. -/
theorem StaysAside.created (sofar : StaysAside lib w v request req own) (heard : Heard)
    (empty : heard.respCode = ecCreated → v.ctx.buf.getD [] = []) :
    StaysAside lib w (if heard.respCode = ecCreated then v.sendReply req 201 "Created" true else v) request req
      own := by
  split
  · rename_i created
    exact ⟨sofar.continues.replyEmpty sofar.clients (empty created) 201 "Created", sofar.clients,
      sofar.context.trans (v.sendReply_like req 201 "Created" (empty created))⟩
  · exact sofar

@[simp] theorem Proxy.noteBlock_cli (v : Proxy) (b2 : Option BlockInfo) : (v.noteBlock b2).ctx.cli = v.ctx.cli := by
  cases b2 <;> rfl

@[simp] theorem Proxy.noteBlock_curi (v : Proxy) (b2 : Option BlockInfo) : (v.noteBlock b2).ctx.curi = v.ctx.curi := by
  cases b2 <;> rfl

@[simp] theorem Proxy.noteBlock_blockNo (v : Proxy) (b2 : Option BlockInfo) :
    (v.noteBlock b2).ctx.bopt.blockNo = v.ctx.bopt.blockNo := by
  cases b2 <;> rfl

theorem StaysAside.error (sofar : StaysAside lib w v request req own) :
    StaysAside lib w (v.sendError req) request req own :=
  ⟨sofar.continues.error, sofar.clients, sofar.context⟩

theorem ProxyCtx.Expects.like {ctx ctx' : ProxyCtx} {heard : Heard} (expected : ctx.Expects lib heard)
    (like : ctx.Like ctx') : ctx'.Expects lib heard := by
  intro b there
  rw [like.blockNo]
  exact expected b there

theorem ProxyCtx.Refuses.like {ctx ctx' : ProxyCtx} {heard : Heard} (refuses : ctx.Refuses lib heard)
    (like : ctx.Like ctx') : ctx'.Refuses lib heard := by
  refine refuses.imp_left fun other expected => other fun b there => ?_
  rw [← like.blockNo]
  exact expected b there

/-- A refused block changes nothing that is still needed. -/
theorem StaysAside.refused {heard : Heard} (cli : EcClient) (sofar : StaysAside lib w v request req own)
    (refuses : w.ctx.Refuses lib heard)
    (same : ∀ b, heard.block2 lib.order = some b →
      b.more = w.ctx.bopt.more ∧ (b.more = true → b.bsz = w.ctx.bopt.blockSz)) (env : RequestEnv) :
    ∃ next, processBlock lib v (heard.store cli) req env = .ok next ∧ StaysAside lib w next request req own := by
  refine ⟨_, processBlock_refused cli (refuses.like sofar.context) env, StaysAside.error ⟨?_, ?_, ?_⟩⟩
  · exact sofar.continues.noteBlock sofar.clients _
  · rw [Proxy.noteBlock_clients]
    exact sofar.clients
  · refine sofar.context.trans (v.noteBlock_like fun b there => ?_)
    obtain ⟨more, size⟩ := same b there
    refine ⟨more.trans sofar.context.more.symm, fun onward => ?_⟩
    rw [size onward, sofar.context.blockSz (more.symm.trans onward)]

/-- All of a content goes through the empty buffer. -/
theorem StaysAside.whole {heard : Heard} (cli : EcClient) (sofar : StaysAside lib w v request req [heard])
    (empty : w.ctx.buf = some []) (more : w.ctx.bopt.more = false)
    (content : heard.respCode = ecContent → heard.payload ≠ [] ∧ heard.payload.length < 1024)
    (block : ∀ b, heard.block2 lib.order = some b → b.bnum = 0 ∧ w.ctx.bopt.blockNo = 0 ∧ b.more = false)
    (env : RequestEnv) :
    ∃ next, processBlock lib v (heard.store cli) req env = .ok next ∧ StaysAside lib w next request req [heard] := by
  have expected : v.ctx.Expects lib heard := by
    intro b there
    obtain ⟨first, start, _⟩ := block b there
    rw [first, sofar.context.blockNo, start]
  have last : (v.noteBlock (heard.block2 lib.order)).ctx.bopt.more = false := by
    cases found : heard.block2 lib.order with
    | none => exact sofar.context.more.trans more
    | some b => exact (block b found).2.2
  have buffer : v.ctx.buf = some [] := sofar.context.buf.trans empty
  have clients : (v.filled lib req [] heard).clients = w.clients := by
    change (v.noteBlock (heard.block2 lib.order)).clients = _
    rw [Proxy.noteBlock_clients]
    exact sofar.clients
  have filled : Continues lib w (v.filled lib req [] heard) request req [heard] :=
    ((sofar.continues.noteBlock sofar.clients _).addHeaders (OwnHeaders.content [heard])).setBuffer clients _
  have inOrder : InOrder lib ([] ++ [heard]) := by
    refine InOrder.append (fun i other b there => by cases there) fun _ b found => ?_
    rw [(block b found).1]
    rfl
  have data : (v.filled lib req [] heard).ctx.buf.getD [] = bodyOf ([heard].drop 0) := by
    unfold bodyOf
    simp [Proxy.filled, Proxy.setBuffer]
  rw [processBlock_filled cli expected content buffer, if_pos last]
  refine ⟨_, rfl, filled.reply clients data (fun _ => rfl) inOrder 200 "OK", clients, ?_, ?_, empty.symm, ?_, ?_, ?_⟩
  · change (v.noteBlock (heard.block2 lib.order)).ctx.cli = _
    rw [Proxy.noteBlock_cli, sofar.context.cli]
  · change (v.noteBlock (heard.block2 lib.order)).ctx.curi = _
    rw [Proxy.noteBlock_curi, sofar.context.curi]
  · change (v.noteBlock (heard.block2 lib.order)).ctx.bopt.blockNo = _
    rw [Proxy.noteBlock_blockNo, sofar.context.blockNo]
  · exact last.trans more.symm
  · intro onward
    rw [more] at onward
    cases onward

/-- The callback for an answer that stays aside. -/
theorem processCoapResponse_aside {heard : Heard} (cli : EcClient) {headers : List (String × String)}
    (headed : processSetHttpHeaders lib w req = .ok (w.addHeaders req headers))
    (mine : OwnHeaders lib (own ++ [heard]) headers) (before : OwnHeaders lib own (w.outputHeaders req))
    (aside : Aside lib w.ctx own heard) (request : HttpRequest) (env : RequestEnv) :
    ∃ next, processCoapResponse lib w (heard.store cli) req env = .ok next ∧
      StaysAside lib w next request req (own ++ [heard]) := by
  have sofar : StaysAside lib w (w.addHeaders req headers) request req (own ++ [heard]) :=
    ⟨(Continues.refl (before.extend heard)).addHeaders mine, rfl, ProxyCtx.Like.refl w.ctx⟩
  rw [processCoapResponse_headed cli headed]
  split
  · exact ⟨_, rfl, sofar.error⟩
  rename_i succeeded
  cases aside with
  | failed failure => exact absurd failure succeeded
  | atOnce reply empty =>
      cases found : replyAtOnce heard.respCode with
      | none => exact absurd found reply
      | some answer =>
          exact ⟨_, rfl, sofar.continues.replyEmpty rfl empty answer.1 answer.2, rfl,
            Proxy.sendReply_like (w.addHeaders req headers) req answer.1 answer.2 empty⟩
  | refused reply created refuses _ same =>
      rw [reply]
      exact (sofar.created heard created).refused cli refuses same env
  | whole reply empty more first content block =>
      subst first
      have created : heard.respCode = ecCreated → w.ctx.buf.getD [] = [] := by
        intro _
        rw [empty]
        rfl
      rw [reply]
      exact (sofar.created heard created).whole cli empty more content block env

/-- An expected last block that stays aside is all of the content. -/
theorem processCoapResponse_aside_completes {heard : Heard} (cli : EcClient) {headers : List (String × String)}
    (headed : processSetHttpHeaders lib w req = .ok (w.addHeaders req headers)) (aside : Aside lib w.ctx own heard)
    (completes : heard.Completes lib own) (env : RequestEnv) :
    ∃ headers next, processCoapResponse lib w (heard.store cli) req env = .ok next ∧
      next.replies = w.replies ++ [⟨req, 200, "OK", headers, bodyOf (own ++ [heard])⟩] := by
  cases aside with
  | failed failure =>
      rcases failure with undone | unset
      · exact absurd completes.state undone
      · rw [completes.respCode] at unset
        exact absurd unset (by decide)
  | atOnce reply _ =>
      rw [completes.respCode] at reply
      exact absurd replyAtOnce_content reply
  | refused _ _ _ incomplete _ => exact absurd completes incomplete
  | whole _ empty more first content block =>
      subst first
      have expected : w.ctx.Expects lib heard := by
        intro b there
        obtain ⟨start, again, _⟩ := block b there
        rw [start, again]
      have last : (w.noteBlock (heard.block2 lib.order)).ctx.bopt.more = false := by
        cases found : heard.block2 lib.order with
        | none => exact more
        | some b => exact (block b found).2.2
      have body : bodyOf ([] ++ [heard]) = [] ++ heard.carried := bodyOf_append [] heard
      rw [body]
      exact processCoapResponse_completes cli headed completes.state completes.respCode expected completes.payload
        (content completes.respCode).2 empty last env

/-- An expected last block for the last HTTP request is replied with behind all blocks before it. -/
theorem processCoapResponse_last_completes {heard : Heard} (cli : EcClient) {headers : List (String × String)}
    (headed : processSetHttpHeaders lib w req = .ok (w.addHeaders req headers)) (holds : w.ctx.Holds lib request own)
    (fits : w.ctx.Fits lib heard) (completes : heard.Completes lib own) (env : RequestEnv) :
    ∃ headers next, processCoapResponse lib w (heard.store cli) req env = .ok next ∧
      next.replies = w.replies ++ [⟨req, 200, "OK", headers, bodyOf (own ++ [heard])⟩] := by
  obtain ⟨block, taken, buffers, whole⟩ := holds
  have all : taken = 0 := whole completes.unsent
  subst all
  have expected : w.ctx.Expects lib heard := by
    intro b there
    apply UInt32.toNat_inj.mp
    rw [completes.number b there, block.number]
  have last := (block.noteBlock_more heard).trans completes.last
  rw [bodyOf_append]
  exact processCoapResponse_completes cli headed completes.state completes.respCode expected completes.payload
    (fits completes.state completes.respCode expected) buffers.1 last env

variable (lib) in
theorem processSetCoapHeaders_request (type : HttpType) (headers : List (String × String)) (cli : EcClient) :
    ∃ asked, (processSetCoapHeaders lib type headers cli).1 = {cli with req := asked} := by
  induction headers generalizing cli with
  | nil => exact ⟨cli.req, rfl⟩
  | cons header rest ih =>
      obtain ⟨key, value⟩ := header
      unfold processSetCoapHeaders
      split
      · cases ecMtFromString value with
        | none => exact ⟨cli.req, rfl⟩
        | some pmt =>
            dsimp only
            split
            · exact ⟨_, rfl⟩
            · obtain ⟨asked, same⟩ := ih (ecRequestAddContentType lib.order cli pmt.toUInt16).1
              exact ⟨asked, same⟩
      · split
        · cases ecMtFromString value with
          | none => exact ⟨cli.req, rfl⟩
          | some pmt =>
              dsimp only
              split
              · exact ⟨_, rfl⟩
              · obtain ⟨asked, same⟩ := ih (ecRequestAddAccept lib.order cli pmt.toUInt16).1
                exact ⟨asked, same⟩
        · exact ih cli

variable (lib) in
/-- Headers and body of the HTTP request go into the CoAP request only. -/
theorem HttpRequest.coap_request (request : HttpRequest) (cli : EcClient) :
    ∃ asked, request.coap lib cli = {cli with req := asked} := by
  obtain ⟨asked, headed⟩ := processSetCoapHeaders_request lib request.type request.inputHeaders cli
  unfold HttpRequest.coap
  cases type : request.type with
  | get =>
      rw [type] at headed
      exact ⟨asked, headed⟩
  | head =>
      rw [type] at headed
      exact ⟨asked, headed⟩
  | post =>
      rw [type] at headed
      dsimp only
      rw [headed, ecRequestSetPayload_init]
      exact ⟨_, rfl⟩
  | put =>
      rw [type] at headed
      dsimp only
      rw [headed, ecRequestSetPayload_init]
      exact ⟨_, rfl⟩
  | delete => exact ⟨cli.req, rfl⟩

/-- The CoAP request is not freed before it is sent, and nothing is received for it. -/
theorem HttpRequest.coap_fresh (request : HttpRequest) {method : EcMethod} {uri : List UInt8} {made : Bool} {cli : EcClient}
    (created : ecRequestNew lib method uri made = some cli) :
    (request.coap lib cli).freed = false ∧ (request.coap lib cli).resSet = [] := by
  obtain ⟨live, silent, _⟩ := ecRequestNew_some created
  obtain ⟨asked, coap⟩ := request.coap_request lib cli
  rw [coap]
  exact ⟨live, silent⟩

/-- A new HTTP request starts with an empty buffer and the first block. -/
theorem processHttpRequest_continues (w : Proxy) (request : HttpRequest) (buffered : Bool) (env : RequestEnv)
    (before : OwnHeaders lib [] (w.outputHeaders w.requests.length)) :
    ∃ next, processHttpRequest lib w request buffered env = .ok next ∧
      Continues lib (w.accept request buffered) next request w.requests.length [] := by
  have start : Continues lib (w.accept request buffered) (w.accept request buffered) request w.requests.length [] :=
    Continues.refl before
  unfold processHttpRequest
  dsimp only
  split
  · exact ⟨_, rfl, start⟩
  rename_i allocated
  have buffer : buffered = true := Bool.eq_true_of_not_eq_false allocated
  subst buffer
  cases mapped : lib.mapUri request.huri with
  | none => exact ⟨_, rfl, start⟩
  | some curi =>
      dsimp only
      cases created : ecRequestNew lib request.type.method curi env.made with
      | none => exact ⟨_, rfl, rfl, fun _ _ => rfl, before, start.replies, Or.inl rfl⟩
      | some cli =>
          obtain ⟨live, silent⟩ := request.coap_fresh created
          let started : Proxy := {w.accept request true with ctx := {(w.accept request true).ctx with curi := curi}}
          obtain ⟨client, rc, replies, run, uri, _, cbArgs, errors⟩ := ecRequestSend_new lib w.requests.length started curi
            live silent env.outcome
          have own : OwnRequest lib request w.requests.length [] client :=
            ⟨by rw [uri]; exact mapped, cbArgs, fun some _ => absurd rfl some⟩
          have holds : (started.addClient (request.coap lib cli) curi).ctx.Holds lib request [] := by
            refine ⟨⟨mapped, rfl, ?_, rfl, fun b found => ?_, fun i heard b there => ?_⟩, 0, ⟨rfl, le_refl _⟩, fun _ => rfl⟩
            · exact (by decide : (0 : UInt32) ≤ 0xfffff)
            · cases found
            · cases there
          refine ⟨_, congrArg (Except.map Prod.fst) run, start.answers rfl rfl rfl ?_
            (Or.inr ⟨client, rfl, own, fun _ => ⟨rfl, holds⟩⟩)⟩
          intro reply member
          exact OwnReply.error (errors reply member) before

end Operations

end Webthings.Apps
