import Webthings.Evcoap.ClientFrame
import Webthings.Evcoap.ClientRejects

namespace Webthings.Evcoap
open Webthings.Transition

/-- A datagram carries the pieces of a message. -/
structure Datagram.CopyOf (pdu : EcPdu) (d : Datagram) : Prop where
  hdr : d.hdr = pdu.hdr
  opts : d.opts = pdu.opts.wire
  payload : d.payload = pdu.payload

/-- A datagram is an ACK or a reset without a response. -/
def Datagram.Empty (order : ByteOrder) (d : Datagram) : Prop :=
  ∃ t mid, d.hdr = headerBytes order 0 0 t mid ∧ d.opts = [] ∧ d.payload = []

/-- A client keeps its request; it sends copies of it where it asks, and empty messages where it has a response. -/
structure EcClient.Posts (order : ByteOrder) (asks responded : Prop) (old new : EcClient) : Prop where
  req : new.req = old.req
  sent : ∃ more, new.sent = old.sent ++ more ∧
    ∀ s ∈ more, asks ∧ s.datagram.CopyOf old.req ∨ responded ∧ s.datagram.Empty order

namespace EcClient.Posts

variable {order : ByteOrder} {asks responded : Prop} {old middle new : EcClient}

theorem of_same (req : new.req = old.req) (sent : new.sent = old.sent) : old.Posts order asks responded new :=
  ⟨req, [], by rw [sent, List.append_nil], by simp⟩

theorem refl (cli : EcClient) : cli.Posts order asks responded cli := of_same rfl rfl

theorem trans (first : old.Posts order asks responded middle) (second : middle.Posts order asks responded new) :
    old.Posts order asks responded new := by
  obtain ⟨more, log, posted⟩ := first.sent
  obtain ⟨more', log', posted'⟩ := second.sent
  refine ⟨second.req.trans first.req, more ++ more', by rw [log', log, List.append_assoc], ?_⟩
  rw [first.req] at posted'
  exact List.forall_mem_append.mpr ⟨posted, posted'⟩

theorem mono {asks' responded' : Prop} (posts : old.Posts order asks responded new) (asking : asks → asks')
    (responding : responded → responded') : old.Posts order asks' responded' new := by
  obtain ⟨more, log, posted⟩ := posts.sent
  refine ⟨posts.req, more, log, fun s member => ?_⟩
  exact (posted s member).imp (fun copy => ⟨asking copy.1, copy.2⟩) fun empty => ⟨responding empty.1, empty.2⟩

/-- A client that neither asks nor has a response sends nothing. -/
theorem silent (posts : old.Posts order False False new) : new.sent = old.sent := by
  obtain ⟨more, log, posted⟩ := posts.sent
  have none : more = [] := List.eq_nil_iff_forall_not_mem.mpr fun s member => by simpa using posted s member
  rw [log, none, List.append_nil]

end EcClient.Posts

section Sends

variable {platform : Platform} {asks responded : Prop} {w : CliWork}

/-- A send of the request logs a copy of it, or nothing. -/
theorem EcClient.posts_request {cli : EcClient} (sent : Bool) (conn : EcConn) (req : cli.req = w.cli.req)
    (log : cli.sent = w.cli.sent) {datagram : Option Datagram}
    (handed : ecNetSend sent w.cli.req.hdr w.cli.req.opts.wire w.cli.req.payload conn.socket conn.peer = datagram) :
    w.cli.Posts platform.order True responded (cli.log .request datagram) := by
  refine ⟨req, datagram.toList.map (Sent.mk .request), by rw [← log]; rfl, ?_⟩
  intro s member
  obtain ⟨d, present, rfl⟩ := List.mem_map.mp member
  have whole := ecNetSend_some (handed.trans (Option.mem_toList.mp present))
  subst whole
  exact Or.inl ⟨trivial, rfl, rfl, rfl⟩

/-- What a client sends besides its request is empty, and mirrors a response. -/
theorem EcClient.posts_empty (t : EcMsgModel) (mid : UInt16) (purpose : Purpose) (sent : Bool) (conn : EcConn)
    (response : responded) {datagram : Option Datagram}
    (handed : ecNetSend sent (headerBytes platform.order 0 0 t mid) [] [] conn.socket conn.peer = datagram) :
    w.cli.Posts platform.order asks responded (w.cli.log purpose datagram) := by
  refine ⟨rfl, datagram.toList.map (Sent.mk purpose), rfl, ?_⟩
  intro s member
  obtain ⟨d, present, rfl⟩ := List.mem_map.mp member
  have whole := ecNetSend_some (handed.trans (Option.mem_toList.mp present))
  subst whole
  exact Or.inr ⟨response, t, mid, rfl, rfl, rfl⟩

theorem ecClientSendAck_posts (sent : Bool) (response : w.cli.resSet ≠ [] → responded) :
    w.cli.Posts platform.order asks responded (ecClientSendAck platform sent w).cli := by
  unfold ecClientSendAck ecClientGetResponsePdu
  cases first : w.cli.resSet.head? with
  | none => exact EcClient.Posts.refl w.cli
  | some res =>
      have some : w.cli.resSet ≠ [] := by
        intro empty
        rw [empty] at first
        cases first
      have handed := ecPduSend_datagram platform sent (ecClientAdHocFlow w.cli)
        (ecPduEncodeResponseAck platform.order (ecClientAdHocFlow w.cli)
          (ecPduSetSibling ecPduNewEmpty (Option.some res.hdrBits.mid)).1).1 w.dups true
      exact EcClient.posts_empty .ack res.hdrBits.mid .ack sent (ecClientAdHocFlow w.cli).conn
        (response some) handed.symm

theorem ecClientRstPeer_posts (sent : Bool) (response : w.cli.resSet ≠ [] → responded) :
    w.cli.Posts platform.order asks responded (ecClientRstPeer platform sent w).cli := by
  unfold ecClientRstPeer ecClientGetResponsePdu
  cases first : w.cli.resSet.head? with
  | none => exact EcClient.Posts.refl w.cli
  | some res =>
      have some : w.cli.resSet ≠ [] := by
        intro empty
        rw [empty] at first
        cases first
      have handed := ecPduSend_datagram platform sent (ecClientAdHocFlow w.cli)
        (ecPduEncodeResponseRst platform.order (ecClientAdHocFlow w.cli)
          (ecPduSetSibling ecPduNewEmpty (Option.some res.hdrBits.mid)).1).1 w.dups false
      exact EcClient.posts_empty .rst res.hdrBits.mid .rst sent (ecClientAdHocFlow w.cli).conn
        (response some) handed.symm

/-- Only the end of a request sends something on the way to its state. -/
theorem ecClientEnter_silent {sent isCon : Bool} {next : EcCliState} {entered : CliWork} (other : next ≠ .reqDone)
    (entering : ecClientEnter platform sent isCon next w = .ok entered) : entered.cli.sent = w.cli.sent := by
  unfold ecClientEnter at entering
  cases next with
  | reqSent =>
      dsimp only at entering
      split at entering
      · split at entering
        · cases entering
        · cases entering
          cases isCon <;> rfl
      · split at entering
        · split at entering
          · cases entering
          · rename_i restarted
            cases entering
            obtain ⟨_, _, same⟩ := Option.map_eq_some_iff.mp restarted
            rw [← same]
        · cases entering
          rfl
  | waitNfy =>
      dsimp only at entering
      split at entering
      · split at entering
        · cases entering
        · rename_i restarted
          cases entering
          obtain ⟨_, _, same⟩ := Option.map_eq_some_iff.mp restarted
          rw [← same]
      · cases isCon with
        | true =>
            rw [if_pos rfl] at entering
            split at entering
            · cases entering
            · cases entering
              rfl
        | false =>
            rw [if_neg Bool.false_ne_true] at entering
            split at entering
            · cases entering
            · cases entering
              rfl
  | reqAckd =>
      cases entering
      cases isCon <;> rfl
  | reqDone => exact absurd rfl other
  | none | dnsOk | coapRetry | internalErr | dnsFailed | sendFailed | coapTimeout | appTimeout | reqRst | obsTimeout =>
      cases entering
      rfl

theorem ecClientEnter_posts {sent isCon : Bool} {next : EcCliState} {entered : CliWork}
    (response : w.cli.resSet ≠ [] → responded)
    (entering : ecClientEnter platform sent isCon next w = .ok entered) :
    w.cli.Posts platform.order asks responded entered.cli ∧ entered.cli.resSet = w.cli.resSet := by
  obtain ⟨app, coap, obs, log, framed⟩ := ecClientEnter_frame entering
  refine ⟨?_, by rw [framed]⟩
  by_cases done : next = .reqDone
  · subst done
    cases entering
    split
    · exact ecClientSendAck_posts sent response
    · exact EcClient.Posts.refl w.cli
  · exact EcClient.Posts.of_same (by rw [framed]) (ecClientEnter_silent done entering)

/-- A transition sends at most empty messages, and none as long as there is no response. -/
theorem ecClientSetState_posts {sent : Bool} {next : EcCliState} {moved : CliWork × Bool}
    (response : w.cli.resSet ≠ [] → responded) (made : ecClientSetState platform sent w next = .ok moved) :
    w.cli.Posts platform.order asks responded moved.1.cli := by
  unfold ecClientSetState at made
  split at made
  · cases made
  · dsimp only at made
    split at made
    · cases made
    · rename_i entered entering
      obtain ⟨posts, set⟩ := ecClientEnter_posts response entering
      have reset := @ecClientRstPeer_posts platform asks responded
         {entered with cli := entered.cli.enter next} sent (set ▸ response)
      have finished : ∀ isCon cli, (ecClientFinish isCon cli).req = cli.req ∧
          (ecClientFinish isCon cli).sent = cli.sent := by
        intro isCon cli
        unfold ecClientFinish
        cases isCon <;> cases cli.userown <;> exact ⟨rfl, rfl⟩
      have entered' : w.cli.Posts platform.order asks responded (entered.cli.enter next) :=
        posts.trans (EcClient.Posts.of_same rfl rfl)
      split at made
      · cases made
        dsimp only
        split
        · exact (entered'.trans reset).trans (EcClient.Posts.of_same (finished _ _).1 (finished _ _).2)
        · exact entered'.trans (EcClient.Posts.of_same (finished _ _).1 (finished _ _).2)
      · cases made
        split
        · exact entered'.trans reset
        · exact entered'

theorem ecClientSetState_silent {sent : Bool} {next : EcCliState} {moved : CliWork × Bool} (empty : w.cli.resSet = [])
    (made : ecClientSetState platform sent w next = .ok moved) : moved.1.cli.sent = w.cli.sent := by
  have posts : w.cli.Posts platform.order False False moved.1.cli :=
    ecClientSetState_posts (fun present => present empty) made
  exact posts.silent

theorem ecClientSetState_mappedPosts {Result : Type} {sent : Bool} {next : EcCliState} {f : CliWork × Bool → Result}
    {result : Result} (empty : w.cli.resSet = []) (done : (ecClientSetState platform sent w next).map f = .ok result) :
    ∃ moved, f moved = result ∧ w.cli.Posts platform.order asks False moved.1.cli ∧ moved.1.cli.resSet = [] := by
  obtain ⟨moved, made, same⟩ := map_ok done
  exact ⟨moved, same, ecClientSetState_posts (fun present => present empty) made, ecClientSetState_resSet made empty⟩

/-- The loop over the addresses sends the request. -/
theorem ecClientConnect_posts {ais : List AddrInfo} {opened : CliWork × Bool} (empty : w.cli.resSet = [])
    (done : ecClientConnect platform ais w = .ok opened) :
    w.cli.Posts platform.order True False opened.1.cli ∧ opened.1.cli.resSet = [] := by
  induction ais generalizing w with
  | nil =>
      cases done
      exact ⟨EcClient.Posts.refl w.cli, empty⟩
  | cons ai ais ih =>
      have rerouted : ∀ flow : EcFlow, w.cli.Posts platform.order True False {w.cli with flow := flow} :=
        fun _ => EcClient.Posts.of_same rfl rfl
      unfold ecClientConnect at done
      dsimp only at done
      split at done
      · obtain ⟨posts, still⟩ := ih (by exact empty) done
        exact ⟨(rerouted _).trans posts, still⟩
      · split at done
        · cases done
          exact ⟨rerouted _, empty⟩
        · rw [ecPduSend_datagram] at done
          split at done
          · obtain ⟨posts, still⟩ := ih (by exact empty) done
            exact ⟨(rerouted _).trans posts, still⟩
          · rename_i datagram handed
            have logged := fun flow : EcFlow =>
              @EcClient.posts_request platform False w {w.cli with flow := flow} ai.sent
              ⟨ai.socket, ai.addr, ai.addr, none⟩ rfl rfl (some datagram) handed
            split at done
            · obtain ⟨moved, same, posts, still⟩ := ecClientSetState_mappedPosts (by exact empty) done
              subst same
              exact ⟨(logged _).trans posts, still⟩
            · obtain ⟨moved, same, posts, still⟩ := ecClientSetState_mappedPosts (by exact empty) done
              subst same
              exact ⟨(logged _).trans posts, still⟩

theorem ecClientOpen_posts {env : DnsEnv} {ais : List AddrInfo} {opened : CliWork × Bool} (empty : w.cli.resSet = [])
    (done : ecClientOpen platform env ais w = .ok opened) :
    w.cli.Posts platform.order True False opened.1.cli ∧ opened.1.cli.resSet = [] := by
  unfold ecClientOpen at done
  dsimp only at done
  split at done
  · rw [ecPduSend_datagram] at done
    have logged := fun datagram =>
      @EcClient.posts_request platform False w w.cli env.sent w.cli.flow.conn rfl rfl datagram
    split at done
    · obtain ⟨moved, same, posts, still⟩ := ecClientSetState_mappedPosts (by exact empty) done
      subst same
      exact ⟨(logged _ rfl).trans posts, still⟩
    · obtain ⟨moved, same, posts, still⟩ := ecClientSetState_mappedPosts (by exact empty) done
      subst same
      exact ⟨(logged _ rfl).trans posts, still⟩
  · obtain ⟨posts, still⟩ := ecClientConnect_posts (by exact empty) done
    have rerouted : w.cli.Posts platform.order True False {w.cli with
        flow := {w.cli.flow with conn := {w.cli.flow.conn with socket := -1}}} := EcClient.Posts.of_same rfl rfl
    exact ⟨rerouted.trans posts, still⟩

/-- The resolver's callback ends a client that sends nothing, or has its encoded request sent. -/
theorem ecClientDnsCb_posts {env : DnsEnv} {next : CliWork} (empty : w.cli.resSet = [])
    (done : ecClientDnsCb platform env w = .ok next) :
    (next.cli.sent = w.cli.sent ∧ ecClientStateIsFinal next.cli.state = true) ∨
      (ecPduEncodeRequest platform.order env.rng w.cli.flow w.cli.req).2 = 0 ∧
        (w.addressed platform env.rng).cli.Posts platform.order True False next.cli := by
  cases ecClientDnsCb_work done with
  | unresolved absent ended =>
      obtain ⟨moved, made, same⟩ := map_ok ended
      subst same
      have silent := ecClientSetState_silent (by exact empty) made
      exact Or.inl ⟨silent, by rw [ecClientSetState_state made]; rfl⟩
  | unencoded ais found permitted refused ended =>
      obtain ⟨moved, made, same⟩ := map_ok ended
      subst same
      have silent := ecClientSetState_silent (by exact empty) made
      exact Or.inl ⟨silent, by rw [ecClientSetState_state made]; rfl⟩
  | opened ais found permitted encoded opened goesOn opening ended =>
      right
      obtain ⟨posts, still⟩ := ecClientOpen_posts (by exact empty) opening
      refine ⟨encoded, ?_⟩
      rcases ended with ⟨_, same⟩ | ⟨_, _, failed⟩ | ⟨_, _, same⟩
      · subst same
        exact posts
      · obtain ⟨moved, same, failing, _⟩ := ecClientSetState_mappedPosts (by exact still) failed
        subst same
        exact posts.trans failing
      · subst same
        exact posts.trans (EcClient.Posts.of_same rfl rfl)

/-- A retransmission is a copy of the request. -/
theorem ecCliCoapTimeout_posts {sent : Bool} {next : CliWork} (response : w.cli.resSet ≠ [] → responded)
    (done : ecCliCoapTimeout platform sent w = .ok next) : w.cli.Posts platform.order True responded next.cli := by
  unfold ecCliCoapTimeout at done
  split at done
  · obtain ⟨moved, made, same⟩ := map_ok done
    subst same
    exact ecClientSetState_posts response made
  · split at done
    · cases done
    · rename_i retried _ made
      have posts : w.cli.Posts platform.order True responded retried.cli := ecClientSetState_posts response made
      have still : retried.cli.resSet ≠ [] → responded := fun present => response fun empty =>
        present (ecClientSetState_resSet made empty)
      dsimp only at done
      rw [ecPduSend_datagram] at done
      have logged := @EcClient.posts_request platform responded retried retried.cli sent retried.cli.flow.conn
        rfl rfl _ rfl
      obtain ⟨moved, again, same⟩ := map_ok done
      subst same
      exact (posts.trans logged).trans (ecClientSetState_posts (by exact still) again)

/-- Only a client that waits for its acknowledgement retransmits. -/
theorem ecCliCoapTimeout_awaits {sent : Bool} {next : CliWork} (done : ecCliCoapTimeout platform sent w = .ok next) :
    w.cli.state = .reqSent := by
  have permitted : ∃ next, (next = .coapTimeout ∨ next = .coapRetry) ∧
      ecClientCheckTransition w.cli.state next = true := by
    unfold ecCliCoapTimeout at done
    split at done
    · obtain ⟨moved, made, _⟩ := map_ok done
      exact ⟨_, Or.inl rfl, ecClientSetState_permitted made⟩
    · split at done
      · cases done
      · rename_i made
        exact ⟨_, Or.inr rfl, ecClientSetState_permitted made⟩
  obtain ⟨next, rfl | rfl, allowed⟩ := permitted
  · simpa [ecClientCheckTransition] using allowed
  · simpa [ecClientCheckTransition] using allowed

/-- A message moves the client on without sending its request. -/
theorem ecClientHandleNew_posts {h : EcHdr} {input : Incoming} {handled : CliWork × EcNetCbrc}
    (response : w.cli.resSet ≠ [] ∨ h.code ≠ 0 ∧ w.cli.TakesIn h input → responded)
    (done : ecClientHandleNew platform w h input = .ok handled) :
    w.cli.Posts platform.order False responded handled.1.cli := by
  by_cases code : h.code = 0
  · rcases ecClientHandleNew_empty code done with ⟨next, moved, _, made, same⟩ | ⟨_, _, same⟩
    · subst same
      exact ecClientSetState_posts (fun present => response (Or.inl present)) made
    · subst same
      exact EcClient.Posts.refl w.cli
  · by_cases taken : w.cli.TakesIn h input
    · have responding : responded := response (Or.inr ⟨code, taken⟩)
      unfold ecClientHandleNew at done
      rw [if_neg code, ecClientTakeResponse_taken platform taken] at done
      cases judged : w.cli.judged platform.order h input with
      | none =>
          rw [judged] at done
          cases done
          exact EcClient.Posts.of_same rfl rfl
      | some observe =>
          rw [judged] at done
          dsimp only at done
          obtain ⟨moved, made, same⟩ := map_ok done
          subst same
          have answered : w.cli.Posts platform.order False responded {w.cli.added h input with observe := observe} :=
            EcClient.Posts.of_same rfl rfl
          have posts := answered.trans (ecClientSetState_posts (fun _ => responding) made)
          split
          · exact posts
          · split
            · exact posts.trans (EcClient.Posts.of_same rfl rfl)
            · exact posts
    · rw [ecClientHandleNew_refused platform code taken] at done
      cases done
      exact EcClient.Posts.refl w.cli

/-- A client whose resolver has answered sends copies of its request until it ends, and empty messages for responses. -/
theorem clientStep_posts {event : ClientEvent} {next : CliWork} (answered : w.cli.dnsReq = false)
    (response : w.cli.resSet ≠ [] ∨ (∃ input h, event = .datagram input ∧ w.Hears platform input h ∧ h.code ≠ 0 ∧
      w.cli.TakesIn h input) → responded) (stepped : clientStep platform w event = .ok next) :
    w.cli.Posts platform.order (ecClientStateIsFinal w.cli.state = false) responded next.cli := by
  have set : w.cli.resSet ≠ [] → responded := fun present => response (Or.inl present)
  have whole := stepped
  cases clientStep_work stepped with
  | idle event => exact EcClient.Posts.refl w.cli
  | resolved env next worked =>
      unfold clientStep at whole
      dsimp only at whole
      split at whole
      · cases whole
        exact EcClient.Posts.refl w.cli
      · rw [if_neg (by simp [answered])] at whole
        cases whole
        exact EcClient.Posts.refl w.cli
  | heard input h handled hears worked =>
      have posts : w.cli.Posts platform.order False responded handled.1.cli := by
        apply ecClientHandleNew_posts ?_ worked
        rintro (present | ⟨code, taken⟩)
        · exact response (Or.inl present)
        · exact response (Or.inr ⟨input, h, rfl, hears, code, taken⟩)
      exact posts.mono False.elim id
  | appTimeout sent next worked =>
      obtain ⟨moved, made, same⟩ := map_ok worked
      subst same
      have fired : w.cli.Posts platform.order False responded {w.cli with app := w.cli.app.fired} :=
        EcClient.Posts.of_same rfl rfl
      exact (fired.trans (ecClientSetState_posts (by exact set) made)).mono False.elim id
  | coapTimeout sent next worked =>
      have fired : w.cli.Posts platform.order True responded {w.cli with coap := w.cli.coap.fired} :=
        EcClient.Posts.of_same rfl rfl
      refine (fired.trans (ecCliCoapTimeout_posts (by exact set) worked)).mono (fun _ => ?_) id
      have awaiting := ecCliCoapTimeout_awaits worked
      change w.cli.state = .reqSent at awaiting
      rw [awaiting]
      rfl
  | obsTimeout sent next worked =>
      obtain ⟨moved, made, same⟩ := map_ok worked
      subst same
      have fired : w.cli.Posts platform.order False responded {w.cli with
          obs := w.cli.obs.fired, observe := {w.cli.observe with on := false}} := EcClient.Posts.of_same rfl rfl
      exact (fired.trans (ecClientSetState_posts (by exact set) made)).mono False.elim id
  | cancel => exact EcClient.Posts.of_same rfl rfl
  | shared dups => exact EcClient.Posts.of_same rfl rfl

end Sends

end Webthings.Evcoap
