import Webthings.Apps.ProxyContext
import Webthings.Transition.Machine

namespace Webthings.Apps
open Webthings.Evcoap
open Webthings.Transition

/-- The proxy, and for each HTTP request what its own CoAP requests have brought so far. -/
structure ProxyRun where
  proxy : Proxy
  heard : Nat → List Heard

section Model

variable (lib : ProxyLib)

def ProxyRun.noted (s : ProxyRun) : ProxyEvent → Nat → List Heard
  | .http .. => s.heard
  | .coap id heard _ =>
      match s.proxy.caller id heard with
      | none => s.heard
      | some (_, req) => Function.update s.heard req (s.heard req ++ [heard])

def proxyRunStep (s : ProxyRun) (event : ProxyEvent) : Except ProxyFault ProxyRun :=
  (proxyStep lib s.proxy event).map fun next => ⟨next, s.noted event⟩

def proxyMachine : Machine ProxyRun ProxyEvent ProxyFault := ⟨proxyRunStep lib⟩

/-- The property of one event: there is no fault, replies and requests are built from the responses for the same HTTP
request only, and the last block is followed by the whole body. -/
def Isolates (s : ProxyRun) : ProxyEvent → Prop
  | .http request buffered env => ∃ next, proxyStep lib s.proxy (.http request buffered env) = .ok next ∧
      BuiltFrom lib s.proxy next request s.proxy.requests.length []
  | .coap id heard env => ∀ client req, s.proxy.caller id heard = some (client, req) →
      ∃ request next, s.proxy.requests[req]? = some request ∧ proxyStep lib s.proxy (.coap id heard env) = .ok next ∧
        BuiltFrom lib s.proxy next request req (s.heard req ++ [heard]) ∧
        (heard.Completes lib (s.heard req) → ∃ headers, next.replies =
          s.proxy.replies ++ [⟨req, 200, "OK", headers, bodyOf (s.heard req ++ [heard])⟩])

/-- An answer is for the HTTP request that came last, and its content fits in the array; or it stays aside while the last
client of the proxy waits for its response. -/
def Undisturbing (s : ProxyRun) : ProxyEvent → Prop
  | .http .. => True
  | .coap id heard _ => ∀ client req, s.proxy.caller id heard = some (client, req) →
      (req + 1 = s.proxy.requests.length ∧ s.proxy.ctx.Fits lib heard) ∨
      (req + 1 ≠ s.proxy.requests.length ∧ s.proxy.Silent ∧ Aside lib s.proxy.ctx (s.heard req) heard)

end Model

section Runs

variable {lib : ProxyLib} {s : ProxyRun} {w mid : Proxy} {request : HttpRequest} {id req : Nat} {own : List Heard}
  {heard : Heard} {client : ProxyClient}

/-- Who is called, waits for an HTTP request. -/
theorem Proxy.caller_some (calling : w.caller id heard = some (client, req)) :
    w.clients[id]? = some client ∧ client.Waits req := by
  unfold caller at calling
  cases found : w.clients[id]? with
  | none => simp [found] at calling
  | some there =>
      rw [found] at calling
      dsimp only at calling
      cases args : there.cbArgs with
      | none => simp [args] at calling
      | some other =>
          rw [args] at calling
          dsimp only at calling
          split at calling
          · rename_i waits
            cases calling
            exact ⟨rfl, waits.1, args⟩
          · cases calling

/-- A client is an old one or the new one. -/
theorem Continues.listed {asked : ProxyClient} {other : Nat} (continues : Continues lib w mid request req own)
    (there : mid.clients[other]? = some asked) :
    w.clients[other]? = some asked ∨ (other = w.clients.length ∧ OwnRequest lib request req own asked ∧
      (asked.Waits req → mid.ctx.cli = some other ∧ mid.ctx.Holds lib request own)) := by
  rcases continues.clients with same | ⟨added, appended, mine, holds⟩
  · rw [same] at there
    exact Or.inl there
  · rw [appended] at there
    rcases Nat.lt_trichotomy other w.clients.length with old | new | beyond
    · rw [List.getElem?_append_left old] at there
      exact Or.inl there
    · subst new
      rw [List.getElem?_concat_length] at there
      cases there
      exact Or.inr ⟨rfl, mine, holds⟩
    · rw [List.getElem?_eq_none (by simpa using beyond)] at there
      cases there

theorem Continues.builtFrom (continues : Continues lib w mid request req own) : BuiltFrom lib w mid request req own := by
  refine ⟨continues.replies, fun other asked behind there => ?_⟩
  rcases continues.listed there with old | ⟨_, mine, _⟩
  · rw [List.getElem?_eq_none behind] at old
    cases old
  · exact mine

/-- Behind the callback of a client, that one is freed. -/
theorem Continues.listed_freed {called asked : ProxyClient} {other : Nat}
    (continues : Continues lib {w with clients := w.clients.set id called} mid request req own)
    (before : id < w.clients.length) (there : (mid.modifyClient id ProxyClient.free).clients[other]? = some asked) :
    (other = id ∧ asked = called.free) ∨ (other ≠ id ∧ w.clients[other]? = some asked) ∨
      (other = w.clients.length ∧ OwnRequest lib request req own asked ∧
        (asked.Waits req → mid.ctx.cli = some other ∧ mid.ctx.Holds lib request own)) := by
  have count : (w.clients.set id called).length = w.clients.length := List.length_set
  change (mid.clients.modify id ProxyClient.free)[other]? = some asked at there
  rw [List.getElem?_modify] at there
  obtain ⟨found, listed, freed⟩ := Option.map_eq_some_iff.mp there
  by_cases self : id = other
  · rw [if_pos self] at freed
    subst self
    rcases continues.listed listed with old | ⟨new, _⟩
    · change (w.clients.set id called)[id]? = some found at old
      rw [List.getElem?_set_self before] at old
      cases old
      exact Or.inl ⟨rfl, freed.symm⟩
    · exact absurd (new.trans count) (Nat.ne_of_lt before)
  · rw [if_neg self] at freed
    cases freed
    rcases continues.listed listed with old | ⟨new, mine, holds⟩
    · change (w.clients.set id called)[other]? = some asked at old
      rw [List.getElem?_set_ne self] at old
      exact Or.inr (Or.inl ⟨Ne.symm self, old⟩)
    · exact Or.inr (Or.inr ⟨new.trans count, mine, holds⟩)

variable (req) in
/-- Where the client of the context waits for its response, the headers that are taken are none, or those of the client
that is called. -/
theorem processSetHttpHeaders_silent (silent : w.Silent) (live : client.cli.freed = false)
    (before : id < w.clients.length) (own : List Heard) (heard : Heard) :
    ∃ headers, OwnHeaders lib (own ++ [heard]) headers ∧
      processSetHttpHeaders lib {w with clients := w.clients.set id {client with cli := heard.store client.cli}} req =
        .ok (({w with clients := w.clients.set id {client with cli := heard.store client.cli}} : Proxy).addHeaders req
          headers) := by
  generalize current : ({w with clients := w.clients.set id {client with cli := heard.store client.cli}} : Proxy) = next
  have cli : next.ctx.cli = w.ctx.cli := by rw [← current]
  have clients : next.clients = w.clients.set id {client with cli := heard.store client.cli} := by rw [← current]
  have none : OwnHeaders lib (own ++ [heard]) [] := fun _ member => by cases member
  cases found : next.ctx.cli.bind fun id => next.clients[id]? with
  | none =>
      refine ⟨[], none, ?_⟩
      unfold processSetHttpHeaders
      rw [found, Proxy.addHeaders_nil]
  | some there =>
      obtain ⟨other, held, listed⟩ := Option.bind_eq_some_iff.mp found
      by_cases self : id = other
      · rw [clients, ← self, List.getElem?_set_self before] at listed
        cases listed
        exact ⟨heard.headers lib, OwnHeaders.last own heard, processSetHttpHeaders_live found live heard rfl⟩
      · rw [clients, List.getElem?_set_ne self] at listed
        have old : (w.ctx.cli.bind fun id => w.clients[id]?) = some there := by
          rw [← cli, held]
          exact listed
        obtain ⟨alive, unheard⟩ := silent there old
        exact ⟨[], none, processSetHttpHeaders_live found alive ⟨.none, ecRcUnset, []⟩ unheard⟩

/-- The invariant of the runs: the one client that waits for the last HTTP request is that of the context. -/
structure ProxyRun.Sound (lib : ProxyLib) (s : ProxyRun) : Prop where
  called : ∀ (id : Nat) (client : ProxyClient) (req : Nat), s.proxy.clients[id]? = some client →
    client.cbArgs = some req → req < s.proxy.requests.length
  headers : ∀ req, OwnHeaders lib (s.heard req) (s.proxy.outputHeaders req)
  unheard : ∀ req, s.proxy.requests.length ≤ req → s.heard req = []
  waiting : ∀ (id : Nat) (client : ProxyClient) (req : Nat), s.proxy.clients[id]? = some client → client.Waits req →
    req + 1 = s.proxy.requests.length → s.proxy.ctx.cli = some id ∧
      ∃ request, s.proxy.requests[req]? = some request ∧ s.proxy.ctx.Holds lib request (s.heard req)

theorem ProxyRun.Sound.init (lib : ProxyLib) : ProxyRun.Sound lib ⟨Proxy.init, fun _ => []⟩ := by
  refine ⟨fun id client req there => ?_, fun req header member => ?_, fun req _ => rfl, fun id client req there => ?_⟩
  · cases there
  · cases member
  · cases there

/-- An HTTP request keeps the invariant. -/
theorem ProxyRun.Sound.http (sound : s.Sound lib) (request : HttpRequest) (buffered : Bool) (env : RequestEnv) :
    ∃ next, proxyStep lib s.proxy (.http request buffered env) = .ok next ∧
      BuiltFrom lib s.proxy next request s.proxy.requests.length [] ∧ ProxyRun.Sound lib ⟨next, s.heard⟩ := by
  have fresh := sound.unheard s.proxy.requests.length (le_refl _)
  have before : OwnHeaders lib [] (s.proxy.outputHeaders s.proxy.requests.length) := by
    rw [← fresh]
    exact sound.headers s.proxy.requests.length
  obtain ⟨next, run, continues⟩ := processHttpRequest_continues s.proxy request buffered env before
  have requests : next.requests = s.proxy.requests ++ [request] := continues.requests
  have count : next.requests.length = s.proxy.requests.length + 1 := by simp [requests]
  have built := continues.builtFrom
  refine ⟨next, run, ⟨built.replies, built.requests⟩, ?_, ?_, ?_, ?_⟩
  · intro id client req there args
    change req < next.requests.length
    rw [count]
    rcases continues.listed there with old | ⟨_, mine, _⟩
    · exact Nat.lt_succ_of_lt (sound.called id client req old args)
    · rcases mine.cbArgs with none | same
      · rw [none] at args
        cases args
      · rw [same] at args
        cases args
        exact Nat.lt_succ_self _
  · intro other
    change OwnHeaders lib (s.heard other) (next.outputHeaders other)
    by_cases last : other = s.proxy.requests.length
    · subst last
      rw [fresh]
      exact continues.headers
    · rw [continues.others other last]
      exact sound.headers other
  · intro other behind
    change next.requests.length ≤ other at behind
    exact sound.unheard other (by omega)
  · intro id client req there waits last
    change req + 1 = next.requests.length at last
    have same : req = s.proxy.requests.length := by omega
    subst same
    rcases continues.listed there with old | ⟨_, mine, holds⟩
    · exact absurd (sound.called id client _ old waits.2) (Nat.lt_irrefl _)
    · obtain ⟨current, held⟩ := holds waits
      refine ⟨current, request, ?_, ?_⟩
      · change next.requests[s.proxy.requests.length]? = some request
        rw [requests, List.getElem?_concat_length]
      · change next.ctx.Holds lib request (s.heard s.proxy.requests.length)
        rw [fresh]
        exact held

/-- A callback keeps the invariant when the waiting client of another HTTP request keeps its context. -/
theorem ProxyRun.Sound.coap (sound : s.Sound lib) (there : s.proxy.clients[id]? = some client) (waits : client.Waits req)
    (asked : s.proxy.requests[req]? = some request)
    (continues : Continues lib
      {s.proxy with clients := s.proxy.clients.set id {client with cli := heard.store client.cli}} mid request req
      (s.heard req ++ [heard]))
    (aside : req + 1 ≠ s.proxy.requests.length → s.proxy.ctx.Like mid.ctx) :
    ProxyRun.Sound lib
      ⟨mid.modifyClient id ProxyClient.free, Function.update s.heard req (s.heard req ++ [heard])⟩ := by
  have inside : req < s.proxy.requests.length := sound.called id client req there waits.2
  have before : id < s.proxy.clients.length := (List.getElem?_eq_some_iff.mp there).1
  have requests : mid.requests = s.proxy.requests := continues.requests
  refine ⟨?_, ?_, ?_, ?_⟩
  · intro other found callee listed args
    change callee < mid.requests.length
    rw [requests]
    rcases continues.listed_freed before listed with ⟨_, freed⟩ | ⟨_, old⟩ | ⟨_, mine, _⟩
    · rw [freed] at args
      exact sound.called id client callee there args
    · exact sound.called other found callee old args
    · rcases mine.cbArgs with none | same
      · rw [none] at args
        cases args
      · rw [same] at args
        cases args
        exact inside
  · intro other
    change OwnHeaders lib (Function.update s.heard req _ other) (mid.outputHeaders other)
    by_cases same : other = req
    · subst same
      rw [Function.update_self]
      exact continues.headers
    · rw [Function.update_of_ne same, continues.others other same]
      exact sound.headers other
  · intro other behind
    change mid.requests.length ≤ other at behind
    change Function.update s.heard req _ other = []
    rw [requests] at behind
    rw [Function.update_of_ne (by omega)]
    exact sound.unheard other behind
  · intro other found callee listed waiting last
    change callee + 1 = mid.requests.length at last
    change mid.ctx.cli = some other ∧ ∃ request, mid.requests[callee]? = some request ∧
      mid.ctx.Holds lib request (Function.update s.heard req _ callee)
    rw [requests] at last ⊢
    rcases continues.listed_freed before listed with ⟨_, freed⟩ | ⟨different, old⟩ | ⟨_, mine, holds⟩
    · have live := waiting.1
      rw [freed] at live
      cases live
    · obtain ⟨current, request, known, held⟩ := sound.waiting other found callee old waiting last
      have earlier : callee ≠ req := by
        rintro rfl
        have same := (sound.waiting id client callee there waits last).1
        exact different (Option.some.inj (current.symm.trans same))
      have like := aside (by omega)
      refine ⟨like.cli.trans current, request, known, ?_⟩
      rw [Function.update_of_ne earlier]
      exact held.like like
    · have same : callee = req := by
        rcases mine.cbArgs with none | own
        · exact absurd (none.symm.trans waiting.2) (by simp)
        · exact Option.some.inj (waiting.2.symm.trans own)
      subst same
      obtain ⟨current, held⟩ := holds waiting
      rw [Function.update_self]
      exact ⟨current, request, asked, held⟩

/-- The proxy answers an HTTP request from the responses for it, and keeps the invariant. -/
theorem ProxyRun.Sound.answers (sound : s.Sound lib) (calling : s.proxy.caller id heard = some (client, req))
    (env : RequestEnv)
    (undisturbed : (req + 1 = s.proxy.requests.length ∧ s.proxy.ctx.Fits lib heard) ∨
      (req + 1 ≠ s.proxy.requests.length ∧ s.proxy.Silent ∧ Aside lib s.proxy.ctx (s.heard req) heard)) :
    ∃ request next, s.proxy.requests[req]? = some request ∧ proxyStep lib s.proxy (.coap id heard env) = .ok next ∧
      BuiltFrom lib s.proxy next request req (s.heard req ++ [heard]) ∧
      (heard.Completes lib (s.heard req) → ∃ headers, next.replies =
        s.proxy.replies ++ [⟨req, 200, "OK", headers, bodyOf (s.heard req ++ [heard])⟩]) ∧
      ProxyRun.Sound lib ⟨next, Function.update s.heard req (s.heard req ++ [heard])⟩ := by
  obtain ⟨there, waits⟩ := Proxy.caller_some calling
  have before : id < s.proxy.clients.length := (List.getElem?_eq_some_iff.mp there).1
  have inside : req < s.proxy.requests.length := sound.called id client req there waits.2
  have called : proxyStep lib s.proxy (.coap id heard env) = coapEvent lib s.proxy id heard client req env := by
    change (match s.proxy.caller id heard with
      | none => _
      | some (client, req) => _) = _
    rw [calling]
  -- What the callback does is enough, for the proxy then frees the client.
  suffices callback : ∃ request mid, s.proxy.requests[req]? = some request ∧
      processCoapResponse lib
        {s.proxy with clients := s.proxy.clients.set id {client with cli := heard.store client.cli}}
        (heard.store client.cli) req env = .ok mid ∧
      Continues lib {s.proxy with clients := s.proxy.clients.set id {client with cli := heard.store client.cli}} mid
        request req (s.heard req ++ [heard]) ∧
      (heard.Completes lib (s.heard req) → ∃ headers, mid.replies =
        s.proxy.replies ++ [⟨req, 200, "OK", headers, bodyOf (s.heard req ++ [heard])⟩]) ∧
      (req + 1 ≠ s.proxy.requests.length → s.proxy.ctx.Like mid.ctx) by
    obtain ⟨request, mid, asked, run, continues, completes, aside⟩ := callback
    refine ⟨request, mid.modifyClient id ProxyClient.free, asked, ?_, ⟨continues.replies, ?_⟩, completes,
      sound.coap there waits asked continues aside⟩
    · rw [called]
      exact congrArg (Except.map fun next => next.modifyClient id ProxyClient.free) run
    · intro other found behind listed
      rcases continues.listed_freed before listed with ⟨same, _⟩ | ⟨_, old⟩ | ⟨_, mine, _⟩
      · omega
      · rw [List.getElem?_eq_none behind] at old
        cases old
      · exact mine
  rcases undisturbed with ⟨last, fits⟩ | ⟨earlier, silent, aside⟩
  · obtain ⟨current, request, asked, holds⟩ := sound.waiting id client req there waits last
    have found : (({s.proxy with clients := s.proxy.clients.set id {client with cli := heard.store client.cli}} :
        Proxy).ctx.cli.bind fun other => ({s.proxy with
          clients := s.proxy.clients.set id {client with cli := heard.store client.cli}} : Proxy).clients[other]?) =
        some {client with cli := heard.store client.cli} := by
      change (s.proxy.ctx.cli.bind _) = _
      rw [current]
      exact List.getElem?_set_self before
    have headers : OwnHeaders lib (s.heard req) (s.proxy.outputHeaders req) := sound.headers req
    obtain ⟨mid, run, continues⟩ := processCoapResponse_continues client.cli found rfl waits.1 holds headers fits env
    refine ⟨request, mid, asked, run, continues, fun completes => ?_, fun earlier => absurd last earlier⟩
    obtain ⟨headers, next, replied, whole⟩ := processCoapResponse_last_completes client.cli
      (processSetHttpHeaders_live found waits.1 heard rfl) holds fits completes env
    have same : mid = next := Except.ok.inj (run.symm.trans replied)
    exact ⟨headers, same ▸ whole⟩
  · have asked : s.proxy.requests[req]? = some s.proxy.requests[req] := List.getElem?_eq_getElem inside
    obtain ⟨headers, mine, headed⟩ := processSetHttpHeaders_silent req silent waits.1 before (s.heard req) heard
    obtain ⟨mid, run, stays⟩ := processCoapResponse_aside client.cli headed mine (sound.headers req) aside
      s.proxy.requests[req] env
    refine ⟨_, mid, asked, run, stays.continues, fun completes => ?_, fun _ => stays.context⟩
    obtain ⟨headers, next, replied, whole⟩ := processCoapResponse_aside_completes client.cli headed aside completes env
    have same : mid = next := Except.ok.inj (run.symm.trans replied)
    exact ⟨headers, same ▸ whole⟩

theorem proxyRunStep_next {event : ProxyEvent} {next : ProxyRun} (stepped : proxyRunStep lib s event = .ok next) :
    ∃ proxy, proxyStep lib s.proxy event = .ok proxy ∧ next = ⟨proxy, s.noted event⟩ := by
  unfold proxyRunStep at stepped
  cases run : proxyStep lib s.proxy event with
  | error fault =>
      rw [run] at stepped
      cases stepped
  | ok proxy =>
      rw [run] at stepped
      cases stepped
      exact ⟨proxy, rfl, rfl⟩

/-- An undisturbing event keeps the invariant. -/
theorem ProxyRun.Sound.step {event : ProxyEvent} {next : ProxyRun} (sound : s.Sound lib)
    (undisturbing : Undisturbing lib s event) (stepped : proxyRunStep lib s event = .ok next) : next.Sound lib := by
  obtain ⟨proxy, run, same⟩ := proxyRunStep_next stepped
  subst same
  cases event with
  | http request buffered env =>
      obtain ⟨after, run', _, kept⟩ := sound.http request buffered env
      have same : proxy = after := Except.ok.inj (run.symm.trans run')
      exact same ▸ kept
  | coap id heard env =>
      cases calling : s.proxy.caller id heard with
      | none =>
          have idle : proxy = s.proxy ∧ s.noted (.coap id heard env) = s.heard := by
            change (match s.proxy.caller id heard with
              | none => _
              | some (client, req) => _) = _ at run
            change _ ∧ (match s.proxy.caller id heard with
              | none => _
              | some (_, req) => _) = _
            rw [calling] at run ⊢
            exact ⟨(Except.ok.inj run).symm, rfl⟩
          rw [idle.1, idle.2]
          exact sound
      | some who =>
          obtain ⟨client, req⟩ := who
          obtain ⟨request, after, _, run', _, _, kept⟩ := sound.answers calling env (undisturbing client req calling)
          have same : proxy = after := Except.ok.inj (run.symm.trans run')
          have noted : s.noted (.coap id heard env) = Function.update s.heard req (s.heard req ++ [heard]) := by
            change (match s.proxy.caller id heard with
              | none => _
              | some (_, req) => _) = _
            rw [calling]
          rw [same, noted]
          exact kept

/-- An undisturbing event is isolated from the other HTTP requests. -/
theorem ProxyRun.Sound.isolates {event : ProxyEvent} (sound : s.Sound lib) (undisturbing : Undisturbing lib s event) :
    Isolates lib s event := by
  cases event with
  | http request buffered env =>
      obtain ⟨next, run, built, _⟩ := sound.http request buffered env
      exact ⟨next, run, built⟩
  | coap id heard env =>
      intro client req calling
      obtain ⟨request, next, asked, run, built, completes, _⟩ := sound.answers calling env
        (undisturbing client req calling)
      exact ⟨request, next, asked, run, built, completes⟩

end Runs

/-- In a run of HTTP requests and answers that do not disturb the context of the last HTTP request, every reply and every
follow-up request are built from the answers for their own HTTP request. -/
theorem proxy_isolated (lib : ProxyLib) (events : List ProxyEvent)
    (undisturbing : (proxyMachine lib).Meets (Undisturbing lib) ⟨Proxy.init, fun _ => []⟩ events) :
    (proxyMachine lib).Meets (Isolates lib) ⟨Proxy.init, fun _ => []⟩ events := by
  apply Machine.Meets.imp (ProxyRun.Sound lib) (Isolates lib) _ _ (ProxyRun.Sound.init lib) undisturbing
  · intro s event next sound quiet stepped
    exact sound.step quiet stepped
  · intro s event sound quiet
    exact sound.isolates quiet

/-- URIs of a host and a path. -/
def pathLib : ProxyLib where
  order := .little
  isAbsolute := fun _ => true
  uriCrumble := fun uri => some ⟨coapScheme, [109, 111, 116, 101], uri.drop 11, [], true⟩
  mapUri := fun uri => some (coapScheme ++ [58, 47, 47, 109, 111, 116, 101] ++ (uri.drop 7).dropWhile (· ≠ 47))
  b64Encode := fun _ => none

/-- A GET for a path of one letter. -/
def getPath (letter : UInt8) : ProxyEvent :=
  .http ⟨.get, some [109], [47, letter], [], []⟩ true ⟨true, .pending⟩

/-- A content of one letter, without a block or as the given one. -/
def contentOf (block : Option (UInt32 × Bool)) (letter : UInt8) : Heard where
  state := .reqDone
  respCode := ecContent
  resSet := [{ecPduNewEmpty with
    payload := [letter]
    opts := (block.map fun b => (addBlock .little ecOptsInit .block2 b.1 b.2 16).1).getD ecOptsInit}]

/-- Two requests at once: all of a content for the first one, and two blocks for the last one. -/
theorem pendingGets_isolated : (proxyMachine pathLib).Meets (Isolates pathLib) ⟨Proxy.init, fun _ => []⟩
    [getPath 97, getPath 98, .coap 0 (contentOf none 65) ⟨true, .pending⟩,
      .coap 1 (contentOf (some (0, true)) 66) ⟨true, .pending⟩,
      .coap 2 (contentOf (some (1, false)) 67) ⟨true, .pending⟩] := by
  apply proxy_isolated
  refine ⟨trivial, fun s stepped => ⟨trivial, fun s' stepped' => ?_⟩⟩
  cases stepped
  cases stepped'
  refine ⟨fun client req calling => Or.inr ?_, fun s stepped => ?_⟩
  · cases calling
    refine ⟨by decide, fun current found => ?_, Aside.whole rfl rfl rfl rfl (fun _ => by decide) fun b found => ?_⟩
    · cases found
      exact ⟨rfl, rfl⟩
    · cases found
  cases stepped
  refine ⟨fun client req calling => Or.inl ?_, fun s stepped => ?_⟩
  · cases calling
    exact ⟨rfl, fun _ _ _ => by decide⟩
  cases stepped
  refine ⟨fun client req calling => Or.inl ?_, fun _ _ => trivial⟩
  · cases calling
    exact ⟨rfl, fun _ _ _ => by decide⟩

/-- Two requests at once: the first block for the first one is followed by a request for the other URI. -/
theorem pendingGets_mixed : ¬ ∀ lib events, (proxyMachine lib).Meets (Isolates lib) ⟨Proxy.init, fun _ => []⟩ events := by
  intro always
  have meets := always pathLib [getPath 97, getPath 98, .coap 0 (contentOf (some (0, true)) 65) ⟨true, .pending⟩]
  have run : ∃ s s' next client request, proxyRunStep pathLib ⟨Proxy.init, fun _ => []⟩ (getPath 97) = .ok s ∧
      proxyRunStep pathLib s (getPath 98) = .ok s' ∧
      (s'.proxy.caller 0 (contentOf (some (0, true)) 65)).map Prod.snd = some 0 ∧
      proxyStep pathLib s'.proxy (.coap 0 (contentOf (some (0, true)) 65) ⟨true, .pending⟩) = .ok next ∧
      s'.proxy.requests[0]? = some request ∧ next.clients[2]? = some client ∧ s'.proxy.clients.length = 2 ∧
      pathLib.mapUri request.huri ≠ some client.uri :=
    ⟨_, _, _, _, _, rfl, rfl, rfl, rfl, rfl, rfl, rfl, by decide⟩
  obtain ⟨s, s', next, client, request, first, second, calling, stepped, known, asked, count, other⟩ := run
  obtain ⟨⟨caller, req⟩, called, same⟩ := Option.map_eq_some_iff.mp calling
  cases same
  obtain ⟨request', next', known', stepped', built, _⟩ := ((meets.2 s first).2 s' second).1 caller 0 called
  have sameRequest : request' = request := Option.some.inj (known'.symm.trans known)
  have sameNext : next' = next := Except.ok.inj (stepped'.symm.trans stepped)
  subst sameRequest
  subst sameNext
  exact other (built.requests 2 client (le_of_eq count) asked).uri

end Webthings.Apps
