import Webthings.Apps.HttpReplies

namespace Webthings.Apps
open Webthings.Evcoap
open Webthings.Transition

section Model

variable (order : ByteOrder)

/-- The response has a Block2 option with M = 1. -/
def moreFollows (pdu : EcPdu) : Bool := ((ecResponseGetBlock2 order pdu.opts).map BlockInfo.more).getD false

/-- The responses up to the first one without a Block2 option or with M = 0. -/
def received : List EcPdu → List EcPdu
  | [] => []
  | pdu :: rest => if moreFollows order pdu then pdu :: received rest else [pdu]

def ended (pdus : List EcPdu) : Bool := pdus.any fun pdu => !moreFollows order pdu

/-- The bodies of the replies behind the payloads so far: one with all payloads when the last response has come, and none
before. -/
def bodiesBehind (data : List UInt8) (pdus : List EcPdu) : List (List UInt8) :=
  if ended order pdus then [data ++ ((received order pdus).map EcPdu.payload).flatten] else []

/-- The response has the number that was asked for, and a payload that fits into the array with its terminator. -/
structure TakenIn (number : Nat) (pdu : EcPdu) : Prop where
  number : ∀ b, ecResponseGetBlock2 order pdu.opts = some b → b.bnum.toNat = number
  filled : pdu.payload ≠ []
  short : pdu.payload.length < 1024

/-- All responses from a number on are taken in, only the first one comes without a Block2 option, and each block behind
can be asked for. -/
def Delivers (room : Prop) : Nat → List EcPdu → Prop
  | _, [] => True
  | number, pdu :: rest => TakenIn order number pdu ∧
      match ecResponseGetBlock2 order pdu.opts with
      | none => number = 0
      | some b => b.more = true → number + 1 ≤ 0xfffff ∧ BlockSize b.bsz ∧ room ∧ Delivers room (number + 1) rest

/-- The first response is the last one, and empty. -/
def OnlyEmpty : List EcPdu → Prop
  | [] => False
  | pdu :: _ => moreFollows order pdu = false ∧ pdu.payload = []

end Model

/-- A 2.05 (Content). -/
def contentHeard (pdu : EcPdu) : Heard := ⟨.reqDone, ecContent, [pdu]⟩

/-- A CoAP request can be made and is sent. -/
def sending : RequestEnv := ⟨true, .pending⟩

/-- The responses from a number on, each to the request with its number. -/
def contents : Nat → List EcPdu → List ProxyEvent
  | _, [] => []
  | number, pdu :: rest => .coap number (contentHeard pdu) sending :: contents (number + 1) rest

section Property

variable (lib : ProxyLib)

/-- The responses go into the bodies that they are to go into, at all times and without an overrun. -/
def Serves (w : Proxy) (number : Nat) (data : List UInt8) (pdus : List EcPdu) : Prop :=
  ∀ n, ∃ final, (httpMachine lib).run w (contents number (pdus.take n)) = .ok final ∧
    final.replies.map HttpReply.body = bodiesBehind lib.order data (pdus.take n)

/-- A single HTTP request is replied to with the payloads of the responses. -/
def BodyFaithful (request : HttpRequest) (pdus : List EcPdu) : Prop :=
  ∀ n, ∃ final, (httpMachine lib).run Proxy.init (.http request true sending :: contents 0 (pdus.take n)) = .ok final ∧
    final.replies.map HttpReply.body = bodiesBehind lib.order [] (pdus.take n)

end Property

/-- The proxy has taken in all responses before a number, and has asked for the block with this number. -/
structure Proxy.Collects (w : Proxy) (curi : List UInt8) (number : Nat) (text : List UInt8) : Prop where
  count : w.clients.length = number + 1
  asked : ∃ client, w.clients[number]? = some client ∧ client.Waits 0
  current : w.ctx.cli = some number
  curi : w.ctx.curi = curi
  buf : w.ctx.buf = some text
  small : number ≤ 0xfffff
  more : w.ctx.bopt.more = decide (0 < number)
  replies : w.replies = []
  number : w.ctx.bopt.blockNo.toNat = number

section Lists

variable {order : ByteOrder} {pdu : EcPdu} {rest : List EcPdu} {data text : List UInt8}

theorem ended_last (last : moreFollows order pdu = false) : ended order (pdu :: rest) = true := by
  unfold ended
  rw [List.any_cons, last]
  rfl

theorem ended_more (more : moreFollows order pdu = true) : ended order (pdu :: rest) = ended order rest := by
  unfold ended
  rw [List.any_cons, more]
  rfl

theorem received_last (last : moreFollows order pdu = false) : received order (pdu :: rest) = [pdu] :=
  if_neg (Bool.eq_false_iff.mp last)

theorem received_more (more : moreFollows order pdu = true) :
    received order (pdu :: rest) = pdu :: received order rest := if_pos more

theorem bodiesBehind_more (more : moreFollows order pdu = true) :
    bodiesBehind order data (pdu :: rest) = bodiesBehind order (data ++ pdu.payload) rest := by
  unfold bodiesBehind
  rw [ended_more more, received_more more, List.map_cons, List.flatten_cons, ← List.append_assoc]

theorem bodiesBehind_last (last : moreFollows order pdu = false) :
    bodiesBehind order data (pdu :: rest) = [data ++ pdu.payload] := by
  unfold bodiesBehind
  rw [if_pos (ended_last last), received_last last, List.map_singleton, List.flatten_singleton]

/-- Without a zero byte the text of a payload is all of it. -/
theorem cString_eq_iff (bytes : List UInt8) : cString bytes = bytes ↔ 0 ∉ bytes := by
  unfold cString
  rw [List.takeWhile_eq_self_iff]
  constructor
  · intro all zero
    exact absurd (all 0 zero) (by decide)
  · intro none byte member
    exact decide_eq_true fun zero => none (zero ▸ member)

theorem cString_length (bytes : List UInt8) : (cString bytes).length ≤ bytes.length := (List.takeWhile_prefix _).length_le

/-- Nothing is made up for what was cut off. -/
theorem append_cString_iff (sofar : text = data ∨ text.length < data.length) (bytes : List UInt8) :
    text ++ cString bytes = data ++ bytes ↔ text = data ∧ 0 ∉ bytes := by
  have cut := cString_length bytes
  rw [← cString_eq_iff]
  rcases sofar with rfl | less
  · rw [List.append_cancel_left_eq]
    exact ⟨fun same => ⟨rfl, same⟩, And.right⟩
  · constructor
    · intro same
      have lengths := congrArg List.length same
      rw [List.length_append, List.length_append] at lengths
      omega
    · rintro ⟨rfl, _⟩
      exact absurd less (Nat.lt_irrefl _)

theorem moreFollows_iff : moreFollows order pdu = true ↔
    ∃ b, ecResponseGetBlock2 order pdu.opts = some b ∧ b.more = true := by
  unfold moreFollows
  cases ecResponseGetBlock2 order pdu.opts with
  | none =>
      refine ⟨fun more => (by cases more), ?_⟩
      rintro ⟨_, there, _⟩
      cases there
  | some b =>
      refine ⟨fun more => ⟨b, rfl, more⟩, ?_⟩
      rintro ⟨_, there, more⟩
      cases there
      exact more

/-- A body that is too short stays so. -/
theorem shorter_append (sofar : text = data ∨ text.length < data.length) (bytes : List UInt8) :
    text ++ cString bytes = data ++ bytes ∨ (text ++ cString bytes).length < (data ++ bytes).length := by
  have cut := cString_length bytes
  by_cases same : text ++ cString bytes = data ++ bytes
  · exact .inl same
  · refine .inr ?_
    have distinct := mt (append_cString_iff sofar bytes).mpr same
    rw [List.length_append, List.length_append]
    rcases sofar with rfl | less
    · have zero : cString bytes ≠ bytes := fun whole => distinct ⟨rfl, (cString_eq_iff bytes).mp whole⟩
      have shorter : (cString bytes).length ≠ bytes.length := fun equal =>
        zero ((List.takeWhile_prefix _).eq_of_length equal)
      omega
    · omega

end Lists

section Steps

variable {lib : ProxyLib} {w : Proxy} {curi text : List UInt8} {number : Nat} {pdu : EcPdu}

theorem Proxy.Collects.expects_iff (collects : w.Collects curi number text) :
    w.ctx.Expects lib (contentHeard pdu) ↔
      ∀ b, ecResponseGetBlock2 lib.order pdu.opts = some b → b.bnum.toNat = number := by
  have same : (contentHeard pdu).block2 lib.order = ecResponseGetBlock2 lib.order pdu.opts := rfl
  unfold ProxyCtx.Expects
  rw [same]
  constructor
  · intro expected b found
    rw [expected b found]
    exact collects.number
  · intro numbered b found
    exact UInt32.toNat_inj.mp ((numbered b found).trans collects.number.symm)

/-- The response comes to the block, with the headers taken over. -/
theorem Proxy.Collects.called (lib : ProxyLib) (collects : w.Collects curi number text) (pdu : EcPdu) :
    ∃ (v : Proxy) (cli : EcClient), v.ctx = w.ctx ∧ v.replies = [] ∧ v.clients.length = number + 1 ∧
      proxyStep lib w (.coap number (contentHeard pdu) sending) =
        (processBlock lib v ((contentHeard pdu).store cli) 0 sending).map fun next =>
          next.modifyClient number ProxyClient.free := by
  obtain ⟨client, there, live, args⟩ := collects.asked
  have inside : number < w.clients.length := (List.getElem?_eq_some_iff.mp there).1
  let called : ProxyClient := {client with cli := (contentHeard pdu).store client.cli}
  let before : Proxy := {w with clients := w.clients.set number called}
  have calling : w.caller number (contentHeard pdu) = some (client, 0) := by
    unfold Proxy.caller
    rw [there]
    dsimp only
    rw [args]
    dsimp only
    exact if_pos ⟨live, rfl⟩
  have found : (before.ctx.cli.bind fun id => before.clients[id]?) = some called := by
    change (w.ctx.cli.bind _) = _
    rw [collects.current]
    exact List.getElem?_set_self inside
  have headed := @processSetHttpHeaders_live lib before 0 _ found live (contentHeard pdu) rfl
  refine ⟨before.addHeaders 0 ((contentHeard pdu).headers lib), client.cli, rfl, collects.replies,
    List.length_set.trans collects.count, ?_⟩
  have stepped : proxyStep lib w (.coap number (contentHeard pdu) sending) =
      coapEvent lib w number (contentHeard pdu) client 0 sending := by
    dsimp only [proxyStep]
    rw [calling]
  have code : replyAtOnce (contentHeard pdu).respCode = none := replyAtOnce_content
  have set : ¬ ((contentHeard pdu).state ≠ .reqDone ∨ (contentHeard pdu).respCode = ecRcUnset) := by
    change ¬ (EcCliState.reqDone ≠ .reqDone ∨ ecContent = ecRcUnset)
    decide
  have other : ¬ (contentHeard pdu).respCode = ecCreated := by
    change ¬ ecContent = ecCreated
    decide
  rw [stepped]
  unfold coapEvent
  dsimp only
  rw [processCoapResponse_headed client.cli headed, if_neg set, code]
  dsimp only
  rw [if_neg other]

/-- A response that is not taken in is an error, with an empty body. -/
theorem Proxy.Collects.refused (collects : w.Collects curi number text)
    (refuses : w.ctx.Refuses lib (contentHeard pdu)) :
    ∃ next, proxyStep lib w (.coap number (contentHeard pdu) sending) = .ok next ∧
      next.replies.map HttpReply.body = [[]] ∧ next.clients.length = number + 1 := by
  obtain ⟨v, cli, ctx, replies, count, stepped⟩ := collects.called lib pdu
  rw [← ctx] at refuses
  rw [stepped, processBlock_refused cli refuses sending]
  refine ⟨_, rfl, ?_, ?_⟩
  · change ((v.noteBlock _).replies ++ [_]).map HttpReply.body = _
    have kept : (v.noteBlock ((contentHeard pdu).block2 lib.order)).replies = v.replies := by
      cases (contentHeard pdu).block2 lib.order <;> rfl
    rw [kept, replies]
    rfl
  · change ((v.noteBlock _).clients.modify number _).length = _
    rw [List.length_modify, Proxy.noteBlock_clients, count]

/-- A payload that fills the array is written behind it. -/
theorem Proxy.Collects.overrun (collects : w.Collects curi number text)
    (expected : w.ctx.Expects lib (contentHeard pdu)) (long : 1024 ≤ pdu.payload.length) :
    proxyStep lib w (.coap number (contentHeard pdu) sending) = .error .overrun := by
  obtain ⟨v, cli, ctx, _, _, stepped⟩ := collects.called lib pdu
  rw [← ctx] at expected
  have matching := (v.ctx.expects_iff (contentHeard pdu)).mp expected
  have found : ecClientGetBlock2 lib ((contentHeard pdu).store cli) = (contentHeard pdu).block2 lib.order := rfl
  have text : payloadText ((contentHeard pdu).store cli) = .error .overrun := by
    unfold payloadText
    change (if ecContent ≠ ecContent then _ else if pdu.payload = [] then _
      else if pdu.payload.length ≥ 1024 then _ else _) = _
    rw [if_neg (not_not_intro rfl), if_neg (List.ne_nil_of_length_pos (by omega)), if_pos long]
  rw [stepped]
  unfold processBlock
  rw [found]
  dsimp only
  rw [if_neg (Bool.eq_false_iff.mp matching), text]
  rfl

/-- The request for the block behind the last one is sent. -/
theorem requestNext_asks {v : Proxy} (req : Nat) {cli : EcClient}
    (created : ecRequestNew lib .get v.ctx.curi true = some cli)
    (added : (ecRequestAddBlock2 lib.order cli (v.ctx.bopt.blockNo + 1) false v.ctx.bopt.blockSz).2 = 0) :
    ∃ client next, requestNext lib v req sending = .ok next ∧ client.Waits req ∧ next.clients = v.clients ++ [client] ∧
      next.replies = v.replies ∧ next.ctx = {v.ctx with
        cli := some v.clients.length
        bopt := {v.ctx.bopt with blockNo := v.ctx.bopt.blockNo + 1}} := by
  obtain ⟨live, silent, _⟩ := ecRequestNew_some created
  let asked := (ecRequestAddBlock2 lib.order cli (v.ctx.bopt.blockNo + 1) false v.ctx.bopt.blockSz).1
  let counted : Proxy := {v with ctx := {v.ctx with bopt := {v.ctx.bopt with blockNo := v.ctx.bopt.blockNo + 1}}}
  have live' : asked.freed = false := live
  have silent' : asked.resSet = [] := silent
  have sent := ecRequestSend_outcome lib req counted v.ctx.curi live' silent' .pending
  have count : counted.clients.length = v.clients.length := rfl
  rw [count] at sent
  refine ⟨⟨asked, v.ctx.curi, some req⟩, {counted.addClient asked v.ctx.curi with
    clients := v.clients ++ [⟨asked, v.ctx.curi, some req⟩]}, ?_, ⟨live, rfl⟩, rfl, rfl, rfl⟩
  have made : sending.made = true := rfl
  unfold requestNext
  rw [made, created]
  dsimp only
  rw [if_neg (not_not_intro added)]
  erw [sent]
  change Except.ok ({counted.addClient asked v.ctx.curi with
    clients := v.clients ++ [⟨asked, v.ctx.curi, some req⟩], replies := v.replies ++ []} : Proxy) = _
  rw [List.append_nil]
  rfl

/-- Without the Block2 option there is an error. -/
theorem requestNext_fails {v : Proxy} (req : Nat) {cli : EcClient}
    (created : ecRequestNew lib .get v.ctx.curi true = some cli)
    (failed : (ecRequestAddBlock2 lib.order cli (v.ctx.bopt.blockNo + 1) false v.ctx.bopt.blockSz).2 ≠ 0) :
    ∃ next, requestNext lib v req sending = .ok next ∧
      next.replies.map HttpReply.body = v.replies.map HttpReply.body ++ [[]] := by
  have made : sending.made = true := rfl
  unfold requestNext
  rw [made, created]
  dsimp only
  rw [if_pos failed]
  exact ⟨_, rfl, List.map_append⟩

/-- A response that is taken in goes into the buffer. -/
theorem Proxy.Collects.filled (collects : w.Collects curi number text) (taken : TakenIn lib.order number pdu) :
    ∃ f : Proxy, f.replies = [] ∧ f.clients.length = number + 1 ∧ f.ctx.cli = some number ∧ f.ctx.curi = curi ∧
      f.ctx.buf = some (text ++ cString pdu.payload) ∧ f.ctx.bopt.blockNo = w.ctx.bopt.blockNo ∧
      f.ctx.bopt.more = ((ecResponseGetBlock2 lib.order pdu.opts).map BlockInfo.more).getD (decide (0 < number)) ∧
      (∀ b, ecResponseGetBlock2 lib.order pdu.opts = some b → f.ctx.bopt.blockSz = b.bsz) ∧
      proxyStep lib w (.coap number (contentHeard pdu) sending) =
        (if f.ctx.bopt.more = false then .ok (f.sendReply 0 200 "OK" true) else requestNext lib f 0 sending).map
          fun next => next.modifyClient number ProxyClient.free := by
  obtain ⟨v, cli, ctx, replies, count, stepped⟩ := collects.called lib pdu
  have expected : v.ctx.Expects lib (contentHeard pdu) := by
    rw [ctx]
    exact collects.expects_iff.mpr taken.number
  have content : (contentHeard pdu).respCode = ecContent →
      (contentHeard pdu).payload ≠ [] ∧ (contentHeard pdu).payload.length < 1024 := fun _ => ⟨taken.filled, taken.short⟩
  have buffer : v.ctx.buf = some text := by
    rw [ctx]
    exact collects.buf
  have noted : (contentHeard pdu).block2 lib.order = ecResponseGetBlock2 lib.order pdu.opts := rfl
  rw [stepped, processBlock_filled cli expected content buffer]
  have carried : (contentHeard pdu).carried = cString pdu.payload := if_pos rfl
  refine ⟨v.filled lib 0 text (contentHeard pdu), ?_, ?_, ?_, ?_, ?_, ?_, ?_, ?_, rfl⟩
  · change (v.noteBlock ((contentHeard pdu).block2 lib.order)).replies = []
    rw [← replies]
    cases (contentHeard pdu).block2 lib.order <;> rfl
  · change (v.noteBlock _).clients.length = _
    rw [Proxy.noteBlock_clients, count]
  · change (v.noteBlock ((contentHeard pdu).block2 lib.order)).ctx.cli = _
    rw [← collects.current, ← ctx]
    cases (contentHeard pdu).block2 lib.order <;> rfl
  · change (v.noteBlock ((contentHeard pdu).block2 lib.order)).ctx.curi = _
    rw [← collects.curi, ← ctx]
    cases (contentHeard pdu).block2 lib.order <;> rfl
  · change some (text ++ (contentHeard pdu).carried) = _
    rw [carried]
  · change (v.noteBlock ((contentHeard pdu).block2 lib.order)).ctx.bopt.blockNo = _
    rw [← ctx]
    cases (contentHeard pdu).block2 lib.order <;> rfl
  · change (v.noteBlock ((contentHeard pdu).block2 lib.order)).ctx.bopt.more = _
    rw [← collects.more, ← ctx, noted]
    cases ecResponseGetBlock2 lib.order pdu.opts <;> rfl
  · intro b found
    change (v.noteBlock ((contentHeard pdu).block2 lib.order)).ctx.bopt.blockSz = _
    rw [noted, found]
    rfl

/-- The last block is followed by the reply. -/
theorem Proxy.Collects.finished (collects : w.Collects curi number text) (taken : TakenIn lib.order number pdu)
    (last : ((ecResponseGetBlock2 lib.order pdu.opts).map BlockInfo.more).getD (decide (0 < number)) = false) :
    ∃ next, proxyStep lib w (.coap number (contentHeard pdu) sending) = .ok next ∧
      next.replies.map HttpReply.body = [text ++ cString pdu.payload] ∧ next.clients.length = number + 1 := by
  obtain ⟨f, replies, count, _, _, buf, _, more, _, stepped⟩ := collects.filled taken
  rw [stepped, more, if_pos last]
  refine ⟨_, rfl, ?_, ?_⟩
  · change (f.replies ++ [(⟨0, 200, "OK", f.outputHeaders 0, f.ctx.buf.getD []⟩ : HttpReply)]).map HttpReply.body = _
    rw [replies, buf]
    rfl
  · change (f.clients.modify number _).length = _
    rw [List.length_modify, count]

/-- Where more is expected, the next block is asked for, or there is an error. -/
theorem Proxy.Collects.onward (collects : w.Collects curi number text) (taken : TakenIn lib.order number pdu)
    {cli : EcClient} (created : ecRequestNew lib .get curi true = some cli)
    (more : ((ecResponseGetBlock2 lib.order pdu.opts).map BlockInfo.more).getD (decide (0 < number)) = true) :
    ∃ next size, proxyStep lib w (.coap number (contentHeard pdu) sending) = .ok next ∧
      (∀ b, ecResponseGetBlock2 lib.order pdu.opts = some b → size = b.bsz) ∧
      ((number + 1 ≤ 0xfffff ∧ BlockSize size ∧ cli.req.opts.noptions < ecProtoMaxOptions ∧
          next.Collects curi (number + 1) (text ++ cString pdu.payload)) ∨
        (¬ (number + 1 ≤ 0xfffff ∧ BlockSize size ∧ cli.req.opts.noptions < ecProtoMaxOptions) ∧
          next.replies.map HttpReply.body = [[]])) := by
  obtain ⟨f, replies, count, _, curi', buf, block, more', size, stepped⟩ := collects.filled taken
  obtain ⟨_, _, absent⟩ := ecRequestNew_some created
  rw [more] at more'
  rw [stepped, if_neg (by rw [more']; decide)]
  rw [← curi'] at created
  have behind : (f.ctx.bopt.blockNo + 1).toNat = number + 1 := by
    have small := collects.small
    rw [block, UInt32.toNat_add, collects.number]
    change (number + 1) % 2 ^ 32 = number + 1
    omega
  have bounded : f.ctx.bopt.blockNo + 1 ≤ 0xfffff ↔ number + 1 ≤ 0xfffff := by
    rw [UInt32.le_iff_toNat_le, behind]
    rfl
  by_cases added : (ecRequestAddBlock2 lib.order cli (f.ctx.bopt.blockNo + 1) false f.ctx.bopt.blockSz).2 = 0
  · have valid := addBlock_size lib.order added
    have fits := (addBlock_ok_iff lib.order _ false valid (Or.inr rfl) absent).mp added
    obtain ⟨client, next, requested, waits, clients, replied, ctx⟩ := requestNext_asks 0 created added
    rw [requested]
    refine ⟨_, f.ctx.bopt.blockSz, rfl, size, .inl ⟨bounded.mp fits.1, valid, fits.2, ?_⟩⟩
    have other : number ≠ number + 1 := by omega
    have listed : (next.clients.modify number ProxyClient.free)[number + 1]? = some client := by
      rw [List.getElem?_modify_ne ProxyClient.free _ other, clients, ← count, List.getElem?_concat_length]
    refine ⟨?_, ⟨client, listed, waits⟩, ?_, ?_, ?_, bounded.mp fits.1, ?_, ?_, ?_⟩
    · change (next.clients.modify number _).length = _
      rw [List.length_modify, clients, List.length_append, count]
      rfl
    · change next.ctx.cli = _
      rw [ctx, ← count]
    · change next.ctx.curi = _
      rw [ctx]
      exact curi'
    · change next.ctx.buf = _
      rw [ctx]
      exact buf
    · change next.ctx.bopt.more = _
      rw [ctx, decide_eq_true (Nat.succ_pos number)]
      exact more'
    · exact replied.trans replies
    · change next.ctx.bopt.blockNo.toNat = _
      rw [ctx]
      exact behind
  · obtain ⟨next, requested, bodies⟩ := requestNext_fails 0 created added
    rw [requested]
    refine ⟨_, f.ctx.bopt.blockSz, rfl, size, .inr ⟨fun askable => added ?_, ?_⟩⟩
    · exact (addBlock_ok_iff lib.order _ false askable.2.1 (Or.inr rfl) absent).mpr
        ⟨bounded.mpr askable.1, askable.2.2⟩
    · change next.replies.map HttpReply.body = _
      rw [bodies, replies]
      rfl

end Steps

section Transfer

variable {lib : ProxyLib} {w next : Proxy} {curi text data : List UInt8} {number : Nat} {pdu : EcPdu} {rest : List EcPdu}

/-- A response for which there is no client is not heard. -/
theorem contents_unheard (count : next.clients.length ≤ number) (pdus : List EcPdu) :
    (httpMachine lib).run next (contents number pdus) = .ok next := by
  induction pdus generalizing number with
  | nil => rfl
  | cons pdu pdus ih =>
      have stepped : (httpMachine lib).step next (.coap number (contentHeard pdu) sending) = .ok next := by
        have calling : next.caller number (contentHeard pdu) = none := by
          unfold Proxy.caller
          rw [List.getElem?_eq_none count]
        change proxyStep lib next (.coap number (contentHeard pdu) sending) = _
        dsimp only [proxyStep]
        rw [calling]
      rw [contents, Machine.run, stepped]
      exact ih (Nat.le_succ_of_le count)

/-- The first response is a step, behind which the rest is served. -/
theorem serves_cons (none : w.replies = [])
    (stepped : proxyStep lib w (.coap number (contentHeard pdu) sending) = .ok next) :
    Serves lib w number data (pdu :: rest) ↔
      ∀ n, ∃ final, (httpMachine lib).run next (contents (number + 1) (rest.take n)) = .ok final ∧
        final.replies.map HttpReply.body = bodiesBehind lib.order data (pdu :: rest.take n) := by
  have step : (httpMachine lib).step w (.coap number (contentHeard pdu) sending) = .ok next := stepped
  constructor
  · intro serves n
    obtain ⟨final, run, bodies⟩ := serves (n + 1)
    rw [List.take_succ_cons, contents, Machine.run, step] at run
    exact ⟨final, run, bodies⟩
  · intro serves n
    cases n with
    | zero => exact ⟨w, rfl, by rw [none]; rfl⟩
    | succ n =>
        obtain ⟨final, run, bodies⟩ := serves n
        refine ⟨final, ?_, bodies⟩
        rw [List.take_succ_cons, contents, Machine.run, step]
        exact run

/-- Once nothing more is heard, the bodies are those that there are. -/
theorem serves_over (none : w.replies = [])
    (stepped : proxyStep lib w (.coap number (contentHeard pdu) sending) = .ok next)
    (count : next.clients.length = number + 1) (last : moreFollows lib.order pdu = false) :
    Serves lib w number data (pdu :: rest) ↔ next.replies.map HttpReply.body = [data ++ pdu.payload] := by
  rw [serves_cons none stepped]
  constructor
  · intro serves
    obtain ⟨final, run, bodies⟩ := serves 0
    cases run
    rw [bodies, bodiesBehind_last last]
  · intro bodies n
    exact ⟨next, contents_unheard (le_of_eq count) _, by rw [bodies, bodiesBehind_last last]⟩

/-- A reply ahead of the last block is one too many. -/
theorem serves_early (none : w.replies = [])
    (stepped : proxyStep lib w (.coap number (contentHeard pdu) sending) = .ok next)
    (replied : next.replies.map HttpReply.body = [[]]) (more : moreFollows lib.order pdu = true) :
    ¬ Serves lib w number data (pdu :: rest) := by
  rw [serves_cons none stepped]
  intro serves
  obtain ⟨final, run, bodies⟩ := serves 0
  cases run
  rw [replied, bodiesBehind_more more] at bodies
  cases bodies

/-- What is not taken in is served only when it is the only response, and empty. -/
theorem Proxy.Collects.serves_refused (collects : w.Collects curi number text) (first : data = [] ↔ number = 0)
    (refuses : w.ctx.Refuses lib (contentHeard pdu)) :
    Serves lib w number data (pdu :: rest) ↔ number = 0 ∧ OnlyEmpty lib.order (pdu :: rest) := by
  obtain ⟨next, stepped, replied, count⟩ := collects.refused refuses
  cases more : moreFollows lib.order pdu with
  | true =>
      refine ⟨fun serves => absurd serves (serves_early collects.replies stepped replied more), fun only => ?_⟩
      have last := only.2.1
      rw [more] at last
      cases last
  | false =>
      rw [serves_over collects.replies stepped count more, replied, List.singleton_inj, eq_comm, List.append_eq_nil_iff,
        first]
      exact ⟨fun both => ⟨both.1, more, both.2⟩, fun only => ⟨only.1, only.2.2⟩⟩

/-- The last response, when it is taken in. -/
theorem Proxy.Collects.serves_last {cli : EcClient} (created : ecRequestNew lib .get curi true = some cli)
    (collects : w.Collects curi number text) (sofar : text = data ∨ text.length < data.length)
    (taken : TakenIn lib.order number pdu) (last : moreFollows lib.order pdu = false) :
    Serves lib w number data (pdu :: rest) ↔
      Delivers lib.order (cli.req.opts.noptions < ecProtoMaxOptions) number (pdu :: rest) ∧
        (ended lib.order (pdu :: rest) = true →
          text = data ∧ ∀ response ∈ received lib.order (pdu :: rest), 0 ∉ response.payload) := by
  rw [ended_last last, received_last last, List.forall_mem_singleton, imp_iff_right rfl,
    ← append_cString_iff sofar pdu.payload]
  have delivers : Delivers lib.order (cli.req.opts.noptions < ecProtoMaxOptions) number (pdu :: rest) ↔
      ((ecResponseGetBlock2 lib.order pdu.opts).map BlockInfo.more).getD (decide (0 < number)) = false := by
    unfold moreFollows at last
    rw [Delivers, and_iff_right taken]
    cases found : ecResponseGetBlock2 lib.order pdu.opts with
    | none =>
        change number = 0 ↔ decide (0 < number) = false
        rw [decide_eq_false_iff_not]
        omega
    | some b =>
        rw [found] at last
        have finished : b.more = false := last
        exact ⟨fun _ => finished, fun _ more => by rw [finished] at more; cases more⟩
  rw [delivers]
  cases more : ((ecResponseGetBlock2 lib.order pdu.opts).map BlockInfo.more).getD (decide (0 < number)) with
  | false =>
      obtain ⟨next, stepped, bodies, count⟩ := collects.finished taken more
      rw [serves_over collects.replies stepped count last, bodies, List.singleton_inj, and_iff_right rfl]
  | true =>
      obtain ⟨next, size, stepped, _, outcome⟩ := collects.onward taken created more
      refine ⟨fun serves => ?_, fun both => by cases both.1⟩
      rw [serves_cons collects.replies stepped] at serves
      obtain ⟨final, run, bodies⟩ := serves 0
      cases run
      rw [bodiesBehind_last last] at bodies
      rcases outcome with ⟨_, _, _, collects'⟩ | ⟨_, replied⟩
      · rw [collects'.replies] at bodies
        cases bodies
      · rw [replied, List.singleton_inj, eq_comm, List.append_eq_nil_iff] at bodies
        exact absurd bodies.2 taken.filled

/-- The responses are served from a number on exactly when they are delivered and no byte of them is cut off. -/
theorem Proxy.Collects.serves_iff {cli : EcClient} (created : ecRequestNew lib .get curi true = some cli)
    (collects : w.Collects curi number text) (first : data = [] ↔ number = 0)
    (sofar : text = data ∨ text.length < data.length) (pdus : List EcPdu) :
    Serves lib w number data pdus ↔ (number = 0 ∧ OnlyEmpty lib.order pdus) ∨
      (Delivers lib.order (cli.req.opts.noptions < ecProtoMaxOptions) number pdus ∧
        (ended lib.order pdus = true → text = data ∧ ∀ pdu ∈ received lib.order pdus, 0 ∉ pdu.payload)) := by
  induction pdus generalizing w number text data with
  | nil =>
      refine ⟨fun _ => .inr ⟨trivial, fun finished => by cases finished⟩, fun _ n => ⟨w, by rw [List.take_nil]; rfl, ?_⟩⟩
      rw [collects.replies, List.take_nil]
      rfl
  | cons pdu rest ih =>
      by_cases taken : TakenIn lib.order number pdu
      · have filled : ¬ (number = 0 ∧ OnlyEmpty lib.order (pdu :: rest)) := fun only => taken.filled only.2.2
        rw [or_iff_right filled]
        cases more : moreFollows lib.order pdu with
        | false => exact collects.serves_last created sofar taken more
        | true =>
            obtain ⟨b, found, onward⟩ := moreFollows_iff.mp more
            have wanted : ((ecResponseGetBlock2 lib.order pdu.opts).map BlockInfo.more).getD (decide (0 < number)) =
                true := by
              rw [found]
              exact onward
            obtain ⟨next, size, stepped, sized, ⟨least, valid, room, collects'⟩ | ⟨unasked, replied⟩⟩ :=
              collects.onward taken created wanted
            · have first' : data ++ pdu.payload = [] ↔ number + 1 = 0 := by
                rw [List.append_eq_nil_iff]
                exact ⟨fun both => absurd both.2 taken.filled, fun zero => by cases zero⟩
              have sofar' : text ++ cString pdu.payload = data ++ pdu.payload ∨
                  (text ++ cString pdu.payload).length < (data ++ pdu.payload).length := shorter_append sofar pdu.payload
              have rest' := ih collects' first' sofar'
              rw [or_iff_right fun only => by cases only.1] at rest'
              have serves : Serves lib w number data (pdu :: rest) ↔
                  Serves lib next (number + 1) (data ++ pdu.payload) rest := by
                rw [serves_cons collects.replies stepped]
                unfold Serves
                simp only [bodiesBehind_more more]
              have delivers : Delivers lib.order (cli.req.opts.noptions < ecProtoMaxOptions) number (pdu :: rest) ↔
                  Delivers lib.order (cli.req.opts.noptions < ecProtoMaxOptions) (number + 1) rest := by
                rw [Delivers, found]
                rw [sized b found] at valid
                exact ⟨fun held => (held.2 onward).2.2.2, fun held => ⟨taken, fun _ => ⟨least, valid, room, held⟩⟩⟩
              rw [serves, rest', delivers, ended_more more, received_more more, List.forall_mem_cons,
                append_cString_iff sofar pdu.payload, and_assoc]
            · refine ⟨fun serves => absurd serves (serves_early collects.replies stepped replied more), fun both => ?_⟩
              have delivers := both.1.2
              rw [found] at delivers
              obtain ⟨least, valid, room, _⟩ := delivers onward
              rw [← sized b found] at valid
              exact absurd ⟨least, valid, room⟩ unasked
      · have undelivered : ¬ Delivers lib.order (cli.req.opts.noptions < ecProtoMaxOptions) number (pdu :: rest) :=
          fun delivers => taken delivers.1
        rw [or_iff_left fun both => undelivered both.1]
        by_cases refuses : w.ctx.Refuses lib (contentHeard pdu)
        · exact collects.serves_refused first refuses
        · obtain ⟨notOther, notEmpty⟩ := not_or.mp refuses
          have expected : w.ctx.Expects lib (contentHeard pdu) := not_not.mp notOther
          have full : pdu.payload ≠ [] := fun empty => notEmpty ⟨rfl, empty⟩
          have long : 1024 ≤ pdu.payload.length := by
            by_contra short
            exact taken ⟨collects.expects_iff.mp expected, full, Nat.lt_of_not_le short⟩
          have fault : (httpMachine lib).step w (.coap number (contentHeard pdu) sending) = .error .overrun :=
            collects.overrun expected long
          refine ⟨fun serves => ?_, fun only => absurd only.2.2 full⟩
          obtain ⟨final, run, _⟩ := serves 1
          rw [List.take_succ_cons, contents, Machine.run, fault] at run
          cases run

/-- The first request is sent, and the first block is awaited. -/
theorem processHttpRequest_collects {request : HttpRequest} {cli : EcClient} (get : request.type = .get)
    (mapped : lib.mapUri request.huri = some curi) (created : ecRequestNew lib .get curi true = some cli) :
    ∃ next, proxyStep lib Proxy.init (.http request true sending) = .ok next ∧ next.Collects curi 0 [] := by
  obtain ⟨live, silent⟩ := request.coap_fresh created
  let started : Proxy :=
    {Proxy.init.accept request true with ctx := {(Proxy.init.accept request true).ctx with curi := curi}}
  have sent := ecRequestSend_outcome lib 0 started curi live silent .pending
  have made : sending.made = true := rfl
  have stepped : proxyStep lib Proxy.init (.http request true sending) = (ecRequestSend lib
      (started.addClient (request.coap lib cli) curi) started.clients.length 0 .pending).map Prod.fst := by
    change processHttpRequest lib Proxy.init request true sending = _
    unfold processHttpRequest
    dsimp only
    rw [if_neg (by decide : ¬ true = false), mapped]
    dsimp only
    rw [get]
    erw [created]
    rfl
  rw [stepped, sent]
  exact ⟨_, rfl, rfl, ⟨_, rfl, live, rfl⟩, rfl, rfl, rfl, Nat.zero_le _, rfl, rfl, rfl⟩

end Transfer

/-- The reply to a single GET has all payloads of the 2.05 responses exactly when the first one is empty and there is no
other, or all are delivered and, once the last one has come, none of them has a zero byte. -/
theorem httpBodies_iff (lib : ProxyLib) (request : HttpRequest) (pdus : List EcPdu) {curi : List UInt8} {cli : EcClient}
    (get : request.type = .get) (mapped : lib.mapUri request.huri = some curi)
    (created : ecRequestNew lib .get curi true = some cli) :
    BodyFaithful lib request pdus ↔ OnlyEmpty lib.order pdus ∨
      (Delivers lib.order (cli.req.opts.noptions < ecProtoMaxOptions) 0 pdus ∧
        (ended lib.order pdus = true → ∀ pdu ∈ received lib.order pdus, 0 ∉ pdu.payload)) := by
  obtain ⟨next, stepped, collects⟩ := processHttpRequest_collects get mapped created
  have step : (httpMachine lib).step Proxy.init (.http request true sending) = .ok next := stepped
  have first : ([] : List UInt8) = [] ↔ 0 = 0 := ⟨fun _ => rfl, fun _ => rfl⟩
  have serves := collects.serves_iff created first (.inl rfl) pdus
  rw [and_iff_right rfl] at serves
  simp only [true_and] at serves
  rw [← serves]
  unfold BodyFaithful Serves
  simp only [Machine.run, step]

/-- A 2.05 with a payload and, unless it is not part of a block transfer, its number and M. -/
def contentPdu (block : Option (UInt32 × Bool)) (payload : List UInt8) : EcPdu :=
  {ecPduNewEmpty with
    payload := payload
    opts := (block.map fun b => (addBlock .little ecOptsInit .block2 b.1 b.2 16).1).getD ecOptsInit}

def letterGet : HttpRequest := ⟨.get, some [109], [47, 97], [], []⟩

/-- Two blocks, each of one letter. -/
theorem httpBodies_iff_twoLetters :
    BodyFaithful pathLib letterGet [contentPdu (some (0, true)) [65], contentPdu (some (1, false)) [66]] := by
  have first : ecResponseGetBlock2 pathLib.order (contentPdu (some (0, true)) [65]).opts = some ⟨0, true, 16⟩ := by decide
  have second : ecResponseGetBlock2 pathLib.order (contentPdu (some (1, false)) [66]).opts = some ⟨1, false, 16⟩ := by
    decide
  refine (httpBodies_iff pathLib letterGet _ rfl rfl rfl).mpr (.inr ⟨⟨⟨?_, by decide, by decide⟩, ?_⟩, fun _ => by decide⟩)
  · intro b found
    rw [first] at found
    cases found
    rfl
  · rw [first]
    refine fun _ => ⟨by decide, ⟨0, by decide, rfl⟩, by decide, ⟨?_, by decide, by decide⟩, ?_⟩
    · intro b found
      rw [second] at found
      cases found
      rfl
    · rw [second]
      exact fun more => by cases more

/-- A zero byte ends the text, 1024 bytes overrun the array, and a last response without a Block2 option is taken for one
of many. -/
theorem httpBodies_unfaithful :
    ¬ BodyFaithful pathLib letterGet [contentPdu none [65, 0, 66]] ∧
      (httpMachine pathLib).run Proxy.init
        (.http letterGet true sending :: contents 0 [contentPdu none (List.replicate 1024 65)]) = .error .overrun ∧
      ¬ BodyFaithful pathLib letterGet [contentPdu (some (0, true)) [65], contentPdu none [66]] := by
  refine ⟨fun faithful => ?_, ?_, fun faithful => ?_⟩
  · obtain ⟨final, run, bodies⟩ := faithful 1
    cases run
    exact absurd bodies (by decide)
  · obtain ⟨next, stepped, collects⟩ := @processHttpRequest_collects pathLib _ letterGet _ rfl rfl rfl
    have step : (httpMachine pathLib).step Proxy.init (.http letterGet true sending) = .ok next := stepped
    have unnumbered : next.ctx.Expects pathLib (contentHeard (contentPdu none (List.replicate 1024 65))) := by
      intro b found
      cases found
    have fault : (httpMachine pathLib).step next
        (.coap 0 (contentHeard (contentPdu none (List.replicate 1024 65))) sending) = .error .overrun :=
      collects.overrun unnumbered (by
        change 1024 ≤ (List.replicate 1024 65).length
        rw [List.length_replicate])
    rw [Machine.run, step]
    dsimp only
    rw [contents, Machine.run, fault]
  · obtain ⟨final, run, bodies⟩ := faithful 2
    cases run
    exact absurd bodies (by decide)

end Webthings.Apps
