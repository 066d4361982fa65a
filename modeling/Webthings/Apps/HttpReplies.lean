import Webthings.Apps.ProxyIsolation

namespace Webthings.Apps
open Webthings.Evcoap
open Webthings.Transition

instance (client : ProxyClient) (req : Nat) : Decidable (client.Waits req) := inferInstanceAs (Decidable (_ ∧ _))

/-- The number of replies that were sent for an HTTP request. -/
def Proxy.repliesTo (w : Proxy) (req : Nat) : Nat := w.replies.countP fun reply => reply.request = req

/-- The number of CoAP requests that are on their way for an HTTP request. -/
def Proxy.pendingFor (w : Proxy) (req : Nat) : Nat := w.clients.countP fun client => client.Waits req

/-- An HTTP request whose exchange is over has one reply, and none has two. -/
def Proxy.RepliedOnce (w : Proxy) : Prop :=
  ∀ req < w.requests.length, w.repliesTo req ≤ 1 ∧ (w.pendingFor req = 0 → w.repliesTo req = 1)

/-- The client of the context has not been freed. -/
def Proxy.Live (w : Proxy) : Prop :=
  ∀ current, (w.ctx.cli.bind fun id => w.clients[id]?) = some current → current.cli.freed = false

section Model

variable (lib : ProxyLib)

def httpMachine : Machine Proxy ProxyEvent ProxyFault := ⟨proxyStep lib⟩

/-- The CoAP request for an HTTP request can be made and is sent, and a response other than 2.01 fits into the array and
finds the client of the context. -/
def Repliable (w : Proxy) : ProxyEvent → Prop
  | .http request buffered env => buffered = true ∧ env.outcome ≠ .refused ∧
      ∃ curi, lib.mapUri request.huri = some curi ∧ (ecRequestNew lib request.type.method curi env.made).isSome
  | .coap id heard _ => (w.caller id heard).isSome →
      w.Live ∧ w.ctx.Fits lib heard ∧ (heard.state = .reqDone → heard.respCode ≠ ecCreated)

end Model

/-- What there is to come or has come for an HTTP request. -/
def Proxy.tally (w : Proxy) (req : Nat) : Nat := w.repliesTo req + w.pendingFor req

/-- The work for an HTTP request sends this many replies to it or requests on its behalf. -/
structure Proxy.Gains (w : Proxy) (req count : Nat) (next : Proxy) : Prop where
  requests : next.requests = w.requests
  clients : ∃ more, next.clients = w.clients ++ more
  buffer : w.ctx.buf.isSome → next.ctx.buf.isSome
  tally : ∀ other, next.tally other = w.tally other + if other = req then count else 0

/-- Each HTTP request so far has one reply or one CoAP request on its way. -/
structure Proxy.Tallied (w : Proxy) : Prop where
  tally : ∀ req, w.tally req = if req < w.requests.length then 1 else 0
  buffer : w.clients ≠ [] → w.ctx.buf.isSome

theorem Proxy.Tallied.once {w : Proxy} (tallied : w.Tallied) : w.RepliedOnce := by
  intro req known
  have sum := tallied.tally req
  rw [if_pos known] at sum
  unfold Proxy.tally at sum
  exact ⟨by omega, fun settled => by omega⟩

section Counting

variable {w v next : Proxy} {req : Nat}

theorem Proxy.Gains.trans {first second : Nat} (before : w.Gains req first v) (behind : v.Gains req second next) :
    w.Gains req (first + second) next := by
  refine ⟨behind.requests.trans before.requests, ?_, fun held => behind.buffer (before.buffer held), fun other => ?_⟩
  · obtain ⟨some, clients⟩ := before.clients
    obtain ⟨more, clients'⟩ := behind.clients
    exact ⟨some ++ more, by rw [clients', clients, List.append_assoc]⟩
  · rw [behind.tally, before.tally]
    split <;> omega

/-- What neither replies nor touches the clients gains nothing. -/
theorem Proxy.Gains.none (requests : next.requests = w.requests) (clients : next.clients = w.clients)
    (replies : next.replies = w.replies) (buffer : w.ctx.buf.isSome → next.ctx.buf.isSome) : w.Gains req 0 next := by
  refine ⟨requests, ⟨[], by rw [clients, List.append_nil]⟩, buffer, fun other => ?_⟩
  unfold Proxy.tally Proxy.repliesTo Proxy.pendingFor
  rw [replies, clients]
  split <;> rfl

theorem Proxy.gains_addHeaders (w : Proxy) (req : Nat) (headers : List (String × String)) :
    w.Gains req 0 (w.addHeaders req headers) := .none rfl rfl rfl id

theorem Proxy.gains_noteBlock (w : Proxy) (b2 : Option BlockInfo) : w.Gains req 0 (w.noteBlock b2) := by
  cases b2 <;> exact .none rfl rfl rfl id

theorem Proxy.gains_setBuffer (w : Proxy) (data : List UInt8) : w.Gains req 0 (w.setBuffer data) :=
  .none rfl rfl rfl fun _ => rfl

theorem Proxy.repliesTo_append (w : Proxy) (reply : HttpReply) (other : Nat) :
    (w.replies ++ [reply]).countP (fun reply => reply.request = other) =
      w.repliesTo other + if other = reply.request then 1 else 0 := by
  rw [List.countP_append, List.countP_singleton]
  by_cases same : other = reply.request
  · simp [repliesTo, same]
  · simp [repliesTo, same, Ne.symm same]

/-- A reply is one. -/
theorem Proxy.gains_sendReply (w : Proxy) (req code : Nat) (reason : String) (databuf : Bool) :
    w.Gains req 1 (w.sendReply req code reason databuf) := by
  refine ⟨rfl, ⟨[], (List.append_nil _).symm⟩, fun held => ?_, fun other => ?_⟩
  · change (if databuf then w.ctx.buf.map fun _ => [] else w.ctx.buf).isSome
    cases databuf with
    | false => exact held
    | true =>
        rw [if_pos rfl, Option.isSome_map]
        exact held
  · change (w.replies ++ [_]).countP _ + w.pendingFor other = w.repliesTo other + w.pendingFor other + _
    rw [w.repliesTo_append]
    dsimp only
    omega

theorem Proxy.gains_sendError (w : Proxy) (req : Nat) : w.Gains req 1 (w.sendError req) :=
  w.gains_sendReply req 500 "wtf!" false

/-- A client that is added is one for the request that it waits for. -/
theorem Proxy.gains_client (w : Proxy) (replies : List HttpReply) (client : ProxyClient) (next : Proxy)
    (requests : next.requests = w.requests) (clients : next.clients = w.clients ++ [client])
    (replied : next.replies = w.replies ++ replies) (buffer : next.ctx.buf = w.ctx.buf) {count : Nat}
    (counted : ∀ other, replies.countP (fun reply => reply.request = other) + (if client.Waits other then 1 else 0) =
      if other = req then count else 0) : w.Gains req count next := by
  refine ⟨requests, ⟨[client], clients⟩, fun held => by rw [buffer]; exact held, fun other => ?_⟩
  have sum := counted other
  unfold tally repliesTo pendingFor
  rw [clients, replied, List.countP_append, List.countP_append, List.countP_singleton]
  simp only [decide_eq_true_eq] at sum ⊢
  omega

end Counting

section Work

variable {lib : ProxyLib} {w : Proxy} {req : Nat}

/-- A new client that is sent is one request, or one reply when it fails at once; a client that is refused is nothing. -/
theorem ecRequestSend_gains (lib : ProxyLib) (w : Proxy) (req : Nat) {cli : EcClient} (uri : List UInt8)
    (live : cli.freed = false) (silent : cli.resSet = []) (outcome : SendOutcome) :
    ∃ next rc, ecRequestSend lib (w.addClient cli uri) w.clients.length req outcome = .ok (next, rc) ∧
      w.Gains req (if rc = 0 then 1 else 0) next ∧ (rc ≠ 0 → outcome = .refused) := by
  refine ⟨_, outcome.rc, ecRequestSend_outcome lib req w uri live silent outcome, ?_, ?_⟩
  · refine w.gains_client (outcome.replied req (w.outputHeaders req)) (outcome.left cli uri req) _ ?_ ?_ ?_ ?_
      fun other => ?_
    · rfl
    · rfl
    · rfl
    · rfl
    cases outcome with
    | pending =>
        have waits : (ProxyClient.mk cli uri (some req)).Waits other ↔ other = req := by
          unfold ProxyClient.Waits
          simp [live, eq_comm]
        simp only [SendOutcome.replied, SendOutcome.left, SendOutcome.rc, List.countP_nil, waits, if_true, Nat.zero_add]
    | refused =>
        have freed : ¬ (ProxyClient.free ⟨cli, uri, none⟩).Waits other := fun waits => by cases waits.2
        simp [SendOutcome.replied, SendOutcome.left, SendOutcome.rc, freed]
    | aborted state =>
        have freed : ¬ (ProxyClient.free ⟨{cli with state := state}, uri, some req⟩).Waits other :=
          fun waits => by cases waits.1
        simp [SendOutcome.replied, SendOutcome.left, SendOutcome.rc, freed, eq_comm]
  · intro failed
    cases outcome with
    | pending => exact absurd rfl failed
    | refused => rfl
    | aborted state => exact absurd rfl failed

/-- The request for the next block is on its way, or else an error is replied. -/
theorem requestNext_gains (lib : ProxyLib) (w : Proxy) (req : Nat) (env : RequestEnv) :
    ∃ next, requestNext lib w req env = .ok next ∧ w.Gains req 1 next := by
  unfold requestNext
  cases created : ecRequestNew lib .get w.ctx.curi env.made with
  | none =>
      have cleared : w.Gains req 0 {w with ctx := {w.ctx with cli := none}} := .none rfl rfl rfl id
      exact ⟨_, rfl, cleared.trans (Proxy.gains_sendError _ req)⟩
  | some cli =>
      obtain ⟨live, silent, _⟩ := ecRequestNew_some created
      dsimp only
      generalize requested : ecRequestAddBlock2 lib.order cli (w.ctx.bopt.blockNo + 1) false w.ctx.bopt.blockSz = added
      have live' : added.1.freed = false := by
        rw [← requested]
        exact live
      have silent' : added.1.resSet = [] := by
        rw [← requested]
        exact silent
      generalize counting : ({w with ctx := {w.ctx with bopt := {w.ctx.bopt with blockNo := w.ctx.bopt.blockNo + 1}}} :
        Proxy) = counted
      have before : w.Gains req 0 counted := by
        rw [← counting]
        exact .none rfl rfl rfl id
      have same : w.clients.length = counted.clients.length := by rw [← counting]
      by_cases room : added.2 = 0
      · obtain ⟨next, rc, sent, gains, _⟩ := ecRequestSend_gains lib counted req w.ctx.curi live' silent'
          env.outcome
        rw [if_neg (not_not_intro room), same, sent]
        dsimp only
        by_cases failed : rc = 0
        · rw [if_pos failed] at gains
          rw [if_neg (not_not_intro failed)]
          exact ⟨_, rfl, before.trans gains⟩
        · rw [if_neg failed] at gains
          rw [if_pos failed]
          exact ⟨_, rfl, before.trans (gains.trans (Proxy.gains_sendError next req))⟩
      · rw [if_pos room]
        have unsent : counted.Gains req 0 (counted.addClient added.1 w.ctx.curi) := by
          refine counted.gains_client [] ⟨added.1, w.ctx.curi, none⟩ (counted.addClient added.1 w.ctx.curi)
            rfl rfl (List.append_nil _).symm rfl fun other => ?_
          have alone : ¬ (ProxyClient.mk added.1 w.ctx.curi none).Waits other := fun waits => by cases waits.2
          simp [alone]
        exact ⟨_, rfl, before.trans (unsent.trans (Proxy.gains_sendError _ req))⟩

/-- A block that fits is replied to, or the next one is asked for. -/
theorem processBlock_gains (lib : ProxyLib) (w : Proxy) (req : Nat) {heard : Heard} (cli : EcClient)
    (done : heard.state = .reqDone) (fits : w.ctx.Fits lib heard) (buffer : w.ctx.buf.isSome) (env : RequestEnv) :
    ∃ next, processBlock lib w (heard.store cli) req env = .ok next ∧ w.Gains req 1 next := by
  have noted : w.Gains req 0 (w.noteBlock (heard.block2 lib.order)) := w.gains_noteBlock _
  by_cases refuses : w.ctx.Refuses lib heard
  · exact ⟨_, processBlock_refused cli refuses env, noted.trans (Proxy.gains_sendError _ req)⟩
  · obtain ⟨notOther, notEmpty⟩ := not_or.mp refuses
    have expected : w.ctx.Expects lib heard := not_not.mp notOther
    have content : heard.respCode = ecContent → heard.payload ≠ [] ∧ heard.payload.length < 1024 := fun code =>
      ⟨fun empty => notEmpty ⟨code, empty⟩, fits done code expected⟩
    obtain ⟨data, held⟩ := Option.isSome_iff_exists.mp buffer
    have filled : w.Gains req 0 (w.filled lib req data heard) :=
      noted.trans ((Proxy.gains_addHeaders _ req contentHeaders).trans (Proxy.gains_setBuffer _ _))
    rw [processBlock_filled cli expected content held]
    split
    · exact ⟨_, rfl, filled.trans (Proxy.gains_sendReply _ req 200 "OK" true)⟩
    · obtain ⟨next, requested, gains⟩ := requestNext_gains lib (w.filled lib req data heard) req env
      exact ⟨next, requested, filled.trans gains⟩

/-- The callback for a response other than 2.01 replies once, or asks for more. -/
theorem processCoapResponse_gains (lib : ProxyLib) (w : Proxy) (req : Nat) {heard : Heard} (cli : EcClient) (live : w.Live)
    (fits : w.ctx.Fits lib heard) (other : heard.state = .reqDone → heard.respCode ≠ ecCreated)
    (buffer : w.ctx.buf.isSome) (env : RequestEnv) :
    ∃ next, processCoapResponse lib w (heard.store cli) req env = .ok next ∧ w.Gains req 1 next := by
  obtain ⟨headers, headed⟩ : ∃ headers, processSetHttpHeaders lib w req = .ok (w.addHeaders req headers) := by
    unfold processSetHttpHeaders
    cases found : w.ctx.cli.bind fun id => w.clients[id]? with
    | none => exact ⟨[], by rw [Proxy.addHeaders_nil]⟩
    | some client =>
        dsimp only
        rw [live client found, if_neg Bool.false_ne_true]
        cases ecClientGetResponsePdu client.cli with
        | none => exact ⟨[], by rw [Proxy.addHeaders_nil]⟩
        | some res => exact ⟨_, rfl⟩
  have before : w.Gains req 0 (w.addHeaders req headers) := w.gains_addHeaders req headers
  rw [processCoapResponse_headed cli headed]
  split
  · exact ⟨_, rfl, before.trans (Proxy.gains_sendError _ req)⟩
  · rename_i succeeded
    have done : heard.state = .reqDone := not_not.mp (not_or.mp succeeded).1
    cases replyAtOnce heard.respCode with
    | some reply =>
        obtain ⟨code, reason⟩ := reply
        exact ⟨_, rfl, before.trans (Proxy.gains_sendReply _ req code reason true)⟩
    | none =>
        dsimp only
        rw [if_neg (other done)]
        obtain ⟨next, processed, gains⟩ := processBlock_gains lib (w.addHeaders req headers) req cli done fits
          buffer env
        exact ⟨next, processed, before.trans gains⟩

/-- A change of one element moves a count by this element only. -/
theorem countP_modify {Element : Type} (p : Element → Bool) (change : Element → Element) (list : List Element) {i : Nat}
    {element : Element} (there : list[i]? = some element) :
    (list.modify i change).countP p + (if p element then 1 else 0) =
      list.countP p + (if p (change element) then 1 else 0) := by
  induction list generalizing i with
  | nil => cases there
  | cons first list ih =>
      cases i with
      | zero =>
          cases there
          rw [List.modify_zero_cons, List.countP_cons, List.countP_cons]
          omega
      | succ i =>
          have rest := ih (i := i) there
          rw [List.modify_succ_cons, List.countP_cons, List.countP_cons]
          omega

/-- The freed client waits no more. -/
theorem Proxy.tally_freed {w : Proxy} {id : Nat} {client : ProxyClient} (there : w.clients[id]? = some client)
    (other : Nat) : (w.modifyClient id ProxyClient.free).tally other + (if client.Waits other then 1 else 0) =
      w.tally other := by
  have counted := countP_modify (fun client => decide (client.Waits other)) ProxyClient.free w.clients there
  have freed : ¬ client.free.Waits other := fun waits => by cases waits.1
  simp only [freed, decide_false, Bool.false_eq_true, if_false, Nat.add_zero, decide_eq_true_eq] at counted
  unfold tally
  change w.repliesTo other + (w.clients.modify id ProxyClient.free).countP _ + _ = w.repliesTo other + w.clients.countP _
  omega

/-- What the engine stores in a client does not change what it waits for. -/
theorem Proxy.tally_called {w : Proxy} {id : Nat} {client called : ProxyClient} (there : w.clients[id]? = some client)
    (same : ∀ other, called.Waits other ↔ client.Waits other) (other : Nat) :
    ({w with clients := w.clients.set id called} : Proxy).tally other = w.tally other := by
  have counted := countP_modify (fun client => decide (client.Waits other)) (fun _ => called) w.clients there
  rw [← List.set_eq_modify] at counted
  have alike : decide (called.Waits other) = decide (client.Waits other) := decide_eq_decide.mpr (same other)
  rw [alike] at counted
  unfold tally
  change w.repliesTo other + (w.clients.set id called).countP _ = w.repliesTo other + w.clients.countP _
  omega

/-- An HTTP request whose CoAP request is sent has one thing to come. -/
theorem processHttpRequest_tallied {request : HttpRequest} {buffered : Bool} {env : RequestEnv} (tallied : w.Tallied)
    (repliable : Repliable lib w (.http request buffered env)) :
    ∃ next, processHttpRequest lib w request buffered env = .ok next ∧ next.Tallied := by
  obtain ⟨rfl, accepted, curi, mapped, made⟩ := repliable
  obtain ⟨cli, created⟩ := Option.isSome_iff_exists.mp made
  obtain ⟨live, silent⟩ := request.coap_fresh created
  let started : Proxy := {w.accept request true with ctx := {(w.accept request true).ctx with curi := curi}}
  obtain ⟨next, rc, sent, gains, refused⟩ := ecRequestSend_gains lib started w.requests.length curi live silent
    env.outcome
  have done : rc = 0 := not_not.mp fun failed => accepted (refused failed)
  rw [if_pos done] at gains
  refine ⟨next, ?_, ?_⟩
  · unfold processHttpRequest
    dsimp only
    rw [if_neg (by decide : ¬ true = false), mapped]
    dsimp only
    rw [created]
    dsimp only
    exact congrArg (Except.map Prod.fst) sent
  · refine ⟨fun other => ?_, fun _ => gains.buffer rfl⟩
    have before := tallied.tally other
    have count : next.requests.length = w.requests.length + 1 := by
      rw [gains.requests]
      exact List.length_append
    have same : started.tally other = w.tally other := rfl
    rw [gains.tally, same, before, count]
    split <;> split <;> split <;> omega

/-- The callback for a client moves the one thing to come to a reply or to another client. -/
theorem coapEvent_tallied {id : Nat} {heard : Heard} {client : ProxyClient} {env : RequestEnv} (tallied : w.Tallied)
    (calling : w.caller id heard = some (client, req)) (live : w.Live) (fits : w.ctx.Fits lib heard)
    (other : heard.state = .reqDone → heard.respCode ≠ ecCreated) :
    ∃ next, coapEvent lib w id heard client req env = .ok next ∧ next.Tallied := by
  obtain ⟨there, waits⟩ := Proxy.caller_some calling
  have inside : id < w.clients.length := (List.getElem?_eq_some_iff.mp there).1
  let called : ProxyClient := {client with cli := heard.store client.cli}
  let before : Proxy := {w with clients := w.clients.set id called}
  have alike : ∀ other, called.Waits other ↔ client.Waits other := fun other => Iff.rfl
  have live' : before.Live := by
    intro current found
    cases cli : w.ctx.cli with
    | none =>
        change (w.ctx.cli.bind _) = some current at found
        rw [cli] at found
        cases found
    | some last =>
        change (w.ctx.cli.bind fun id => before.clients[id]?) = some current at found
        rw [cli, Option.bind_some] at found
        by_cases self : id = last
        · subst self
          have stored : before.clients[id]? = some called := List.getElem?_set_self inside
          rw [stored] at found
          cases found
          exact waits.1
        · have kept : before.clients[last]? = w.clients[last]? := List.getElem?_set_ne self
          rw [kept] at found
          exact live current (by rw [cli]; exact found)
  have buffer : w.ctx.buf.isSome := tallied.buffer (List.ne_nil_of_length_pos (by omega))
  obtain ⟨next, processed, gains⟩ := processCoapResponse_gains lib before req client.cli live' fits other buffer
    env
  refine ⟨next.modifyClient id ProxyClient.free, ?_, fun asked => ?_, fun _ => gains.buffer buffer⟩
  · unfold coapEvent
    exact congrArg (Except.map fun next => next.modifyClient id ProxyClient.free) processed
  · obtain ⟨more, clients⟩ := gains.clients
    have kept : next.clients[id]? = some called := by
      rw [clients, List.getElem?_append_left (by rw [List.length_set]; exact inside)]
      exact List.getElem?_set_self inside
    have freed := Proxy.tally_freed kept asked
    have stored : before.tally asked = w.tally asked := Proxy.tally_called there alike asked
    have count : (next.modifyClient id ProxyClient.free).requests.length = w.requests.length := by
      change next.requests.length = w.requests.length
      rw [gains.requests]
    have waiting : called.Waits asked ↔ asked = req := by
      unfold ProxyClient.Waits
      constructor
      · intro held
        exact Option.some.inj (held.2.symm.trans waits.2)
      · rintro rfl
        exact waits
    rw [count, ← tallied.tally asked, ← stored]
    rw [gains.tally] at freed
    simp only [waiting] at freed
    omega

end Work

section Runs

variable (lib : ProxyLib)

/-- One step that can be replied to keeps the tally, without a fault. -/
theorem proxyStep_tallied {w : Proxy} {event : ProxyEvent} (tallied : w.Tallied) (repliable : Repliable lib w event) :
    ∃ next, proxyStep lib w event = .ok next ∧ next.Tallied := by
  cases event with
  | http request buffered env => exact processHttpRequest_tallied tallied repliable
  | coap id heard env =>
      dsimp only [proxyStep]
      cases calling : w.caller id heard with
      | none => exact ⟨w, rfl, tallied⟩
      | some caller =>
          obtain ⟨client, req⟩ := caller
          obtain ⟨live, fits, other⟩ := repliable (by rw [calling]; rfl)
          exact coapEvent_tallied tallied calling live fits other

/-- A run whose steps can all be replied to has no fault, and every HTTP request whose exchange is over has one reply. -/
theorem httpReplies_once (events : List ProxyEvent) (met : (httpMachine lib).Meets (Repliable lib) Proxy.init events) :
    ∃ w, (httpMachine lib).run Proxy.init events = .ok w ∧ w.RepliedOnce := by
  have start : Proxy.init.Tallied := ⟨fun req => rfl, fun some => absurd rfl some⟩
  generalize Proxy.init = w at met start ⊢
  induction events generalizing w with
  | nil => exact ⟨w, rfl, start.once⟩
  | cons event events ih =>
      obtain ⟨next, stepped, kept⟩ := proxyStep_tallied lib start met.1
      obtain ⟨final, finished, once⟩ := ih next (met.2 next stepped) kept
      refine ⟨final, ?_, once⟩
      have step : (httpMachine lib).step w event = .ok next := stepped
      rw [Machine.run, step]
      exact finished

end Runs

/-- A content for a GET, by way of a second block. -/
theorem twoBlocks_repliedOnce : ∃ w, (httpMachine pathLib).run Proxy.init
    [getPath 97, .coap 0 (contentOf (some (0, true)) 65) ⟨true, .pending⟩,
      .coap 1 (contentOf (some (1, false)) 66) ⟨true, .pending⟩] = .ok w ∧ w.RepliedOnce := by
  apply httpReplies_once
  refine ⟨⟨rfl, fun same => ?_, _, rfl, rfl⟩, fun w stepped => ?_⟩
  · cases same
  cases stepped
  refine ⟨fun _ => ⟨fun current found => ?_, fun _ _ _ => by decide, fun _ => by decide⟩, fun w stepped => ?_⟩
  · cases found
    rfl
  cases stepped
  refine ⟨fun _ => ⟨fun current found => ?_, fun _ _ _ => by decide, fun _ => by decide⟩, fun _ _ => trivial⟩
  cases found
  rfl

/-- A POST for a path of one letter. -/
def postPath (letter : UInt8) (outcome : SendOutcome) : ProxyEvent :=
  .http ⟨.post, some [109], [47, letter], [], [65]⟩ true ⟨true, outcome⟩

/-- A 2.01 without a payload. -/
def createdAnswer : Heard := ⟨.reqDone, ecCreated, [ecPduNewEmpty]⟩

/-- A POST that is answered with 2.01 gets two replies, and one whose CoAP request is refused gets none. -/
theorem createdPost_repliedTwice :
    (∃ w, (httpMachine pathLib).run Proxy.init [postPath 97 .pending, .coap 0 createdAnswer ⟨true, .pending⟩] = .ok w ∧
      w.repliesTo 0 = 2) ∧
    (∃ w, (httpMachine pathLib).run Proxy.init [postPath 97 .refused] = .ok w ∧ w.pendingFor 0 = 0 ∧ w.repliesTo 0 = 0) ∧
    ¬ ∀ lib events, ∃ w, (httpMachine lib).run Proxy.init events = .ok w ∧ w.RepliedOnce := by
  have unreplied : ∃ w, (httpMachine pathLib).run Proxy.init [postPath 97 .refused] = .ok w ∧ w.requests.length = 1 ∧
      w.pendingFor 0 = 0 ∧ w.repliesTo 0 = 0 := ⟨_, rfl, rfl, rfl, rfl⟩
  obtain ⟨w, run, known, settled, none⟩ := unreplied
  refine ⟨⟨_, rfl, rfl⟩, ⟨w, run, settled, none⟩, fun always => ?_⟩
  obtain ⟨w', run', once⟩ := always pathLib [postPath 97 .refused]
  rw [run] at run'
  cases run'
  have replied := (once 0 (by rw [known]; exact Nat.one_pos)).2 settled
  rw [none] at replied
  cases replied

end Webthings.Apps
