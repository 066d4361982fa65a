import Webthings.Evcoap.BlockSizes
import Webthings.Evcoap.Composing
import Webthings.Evcoap.Options.Pushes

namespace Webthings.Evcoap
open Webthings.Transition

/-- The options of a message but for its tokens. -/
def tokenless (os : List EcOpt) : List EcOpt := os.filter fun o => o.sym ≠ .token

/-- Options that a receiver reads whole: each has all its bytes on the wire, and their records are counted in four
bits. -/
structure Legible (os : List EcOpt) : Prop where
  lengths : ∀ o ∈ os, o.l ≠ 15
  values : ∀ o ∈ os, o.sym = .ifNoneMatch → o.l = 0
  few : os.length + fencepostCount 0 os ≤ ecProtoMaxOptions

/-- Legible options without a fencepost, which are encoded in the same way time and again. -/
structure Steady (os : List EcOpt) : Prop extends Legible os where
  near : fencepostCount 0 os = 0

/-- The option count of a set is the number of its options, whether it was encoded before or not. -/
structure EcOpts.Tallied (opts : EcOpts) : Prop where
  counted : opts.noptions = opts.bundle.list.length
  within : opts.noptions ≤ ecProtoMaxOptions

/-- A message has the code and the payload of the response that these calls make, and its options but for tokens. -/
structure EcPdu.Conveys (platform : Platform) (made : List SrvApi) (pdu : EcPdu) : Prop where
  code : pdu.hdrBits.code = rcByte (calledCode made ecRcUnset)
  options : tokenless pdu.opts.bundle.list = tokenless (calledPdu platform made ecPduNewEmpty).opts.bundle.list
  payload : pdu.payload = (calledPdu platform made ecPduNewEmpty).payload

/-- Whoever receives a datagram, a host of either byte order, reads the response that these calls make from it. -/
def Datagram.Conveys (platform : Platform) (made : List SrvApi) (d : Datagram) : Prop :=
  ∃ os, tokenless os = tokenless (calledPdu platform made ecPduNewEmpty).opts.bundle.list ∧ ∀ order beyond, ∃ h,
    h.code = rcByte (calledCode made ecRcUnset) ∧
    Survives order d.bytes beyond h os (calledPdu platform made ecPduNewEmpty).payload

section Options

theorem Legible.faithful {os : List EcOpt} (legible : Legible os) : WireFaithful os := by
  refine ⟨legible.lengths, List.pairwise_of_forall_mem_list fun a first b _ symbol padded => ?_⟩
  exact absurd (legible.values a first symbol) padded

/-- Legible options fill the space that the encoder counts for them. -/
theorem Legible.filled {os : List EcOpt} (values : ∀ o ∈ os, o.sym = .ifNoneMatch → o.l = 0) (last : Nat) :
    (encodedBytes last os).length = encodedSize last os := by
  induction os generalizing last with
  | nil => rfl
  | cons o os ih =>
      have size := optBytes_length last o
      have rest := ih (fun x member => values x (List.mem_cons_of_mem o member)) o.num
      have whole : o.value.length = o.l := by
        rcases o.value_cases with whole | ⟨symbol, padded, _⟩
        · exact whole
        · exact absurd (values o List.mem_cons_self symbol) padded
      rw [encodedBytes, encodedSize, List.length_append]
      omega

/-- Whatever the buffer held before, legible options leave their own bytes on the wire. -/
theorem Legible.wire {opts : EcOpts} (legible : Legible opts.bundle.list) :
    opts.encoded.wire = encodedBytes 0 opts.bundle.list := by
  have filled := Legible.filled legible.values 0
  apply List.ext_getElem
  · rw [EcOpts.encoded_wire_length, filled]
  · intro i within inside
    simp [EcOpts.wire, EcOpts.encoded, bytesAt, overlay, inside]

theorem tallied_adderInvariant : AdderInvariant EcOpts.Tallied where
  push opts o held := by
    rw [ecOptsPush]
    split
    · exact held
    · rename_i room
      have within := held.within
      refine ⟨by simp [held.counted], ?_⟩
      dsimp only
      omega

theorem mirrorToken_tallied {opts : EcOpts} (token : List UInt8) (tallied : opts.Tallied) :
    (mirrorToken opts token).1.Tallied := by
  unfold mirrorToken
  split
  · exact tallied_adderInvariant.apply .little (fun _ => true) opts (.token token) tallied
  · exact tallied

theorem tokenless_insert (opts : EcOpts) {o : EcOpt} (symbol : o.sym = .token) :
    tokenless (opts.bundle.insert o).list = tokenless opts.bundle.list := by
  have kept := opts.bundle.insert_filter (o := o) (fun x => x.sym ≠ .token) fun _ _ _ other =>
    absurd symbol (of_decide_eq_true other)
  rw [List.filter_cons_of_neg (by simp [symbol]), List.filter_nil, List.append_nil] at kept
  exact kept

/-- The token of a request leaves the other options as they are. -/
theorem mirrorToken_tokenless {opts : EcOpts} {token : List UInt8} (mirrored : (mirrorToken opts token).2 = 0) :
    tokenless (mirrorToken opts token).1.bundle.list = tokenless opts.bundle.list := by
  unfold mirrorToken at mirrored ⊢
  split
  · rename_i present
    rw [if_pos present] at mirrored
    obtain ⟨o, created, added⟩ := ecOptsAddToken_ok mirrored
    rw [added]
    exact tokenless_insert opts (ecOptNew_some created).1
  · rfl

theorem WithToken.tokenless {opts : EcOpts} {token : List UInt8} {os : List EcOpt} (tokened : WithToken opts token os) :
    Webthings.Evcoap.tokenless os = Webthings.Evcoap.tokenless opts.bundle.list := by
  cases tokened with
  | absent none => rfl
  | mirrored present o symbol value => exact tokenless_insert opts symbol

/-- A response that is told with the token of its request is conveyed. -/
theorem EcPdu.Tells.conveys {platform : Platform} {run : CallbackRun} {token : List UInt8} {pdu : EcPdu}
    (tells : pdu.Tells platform run token) : pdu.Conveys platform run.calls :=
  ⟨tells.code, tells.options.tokenless, tells.payload⟩

theorem Datagram.Bears.conveys {platform : Platform} {run : CallbackRun} {token : List UInt8} {d : Datagram}
    (bears : d.Bears platform run token) : d.Conveys platform run.calls := by
  obtain ⟨os, options, reads⟩ := bears
  exact ⟨os, options.tokenless, reads⟩

/-- An option up to 14 spares a fencepost, if it makes a difference. -/
theorem fencepostCount_between {o : EcOpt} (low : o.num ≤ 14) (last : Nat) (below above : List EcOpt)
    (ascending : Ascending last (below ++ o :: above)) :
    fencepostCount last (below ++ o :: above) ≤ fencepostCount last (below ++ above) := by
  induction below generalizing last with
  | nil =>
      obtain ⟨start, rest⟩ := ascending
      have near : (fencepost last o.num).length = 0 := by
        unfold fencepost
        rw [if_neg (by omega)]
        rfl
      rw [List.nil_append, List.nil_append, fencepostCount, near, Nat.zero_add]
      cases above with
      | nil => exact Nat.zero_le _
      | cons a above =>
          rw [fencepostCount, fencepostCount]
          apply Nat.add_le_add_right
          unfold fencepost
          by_cases far : a.num - o.num > 14
          · rw [if_pos far, if_pos (by omega)]
            simp
          · rw [if_neg far]
            exact Nat.zero_le _
  | cons b below ih =>
      rw [List.cons_append, List.cons_append, fencepostCount, fencepostCount]
      exact Nat.add_le_add_left (ih b.num ascending.2) _

/-- A token that is mirrored once more leaves steady options steady. -/
theorem mirrorToken_steady {opts : EcOpts} {token : List UInt8} (mirrored : (mirrorToken opts token).2 = 0)
    (tallied : opts.Tallied) (steady : Steady opts.bundle.list) : Steady (mirrorToken opts token).1.bundle.list := by
  have counted := mirrorToken_tallied token tallied
  unfold mirrorToken at mirrored counted ⊢
  split
  · rename_i present
    rw [if_pos present] at mirrored counted
    obtain ⟨o, created, added⟩ := ecOptsAddToken_ok mirrored
    obtain ⟨symbol, length, _⟩ := ecOptNew_some created
    rw [added] at counted ⊢
    have number : o.num = 11 := by
      unfold EcOpt.num
      rw [symbol]
      rfl
    have posts := opts.bundle.insert_between o ▸ fencepostCount_between (by omega) 0 _ _
      (opts.bundle.insert_between o ▸ (opts.bundle.insert o).ascending)
    rw [opts.bundle.split, steady.near] at posts
    have short : token.length ≤ 8 := by
      apply Classical.byContradiction
      intro long
      unfold ecOptsAddToken ecOptsAddShortOpaque at mirrored
      rw [if_pos (by omega)] at mirrored
      cases mirrored
    refine ⟨⟨fun x member => ?_, fun x member own => ?_, ?_⟩, Nat.le_zero.mp posts⟩
    · rcases (opts.bundle.mem_insert o x).mp member with rfl | old
      · omega
      · exact steady.lengths x old
    · rcases (opts.bundle.mem_insert o x).mp member with rfl | old
      · rw [symbol] at own
        cases own
      · exact steady.values x old own
    · have within := counted.within
      have same := counted.counted
      dsimp only at within same ⊢
      omega
  · exact steady

end Options

/-- The response that a server holds is what these calls have made, but for the tokens that were mirrored into it. -/
structure EcPdu.Drafts (platform : Platform) (made : List SrvApi) (res : EcPdu) : Prop where
  tallied : res.opts.Tallied
  options : tokenless res.opts.bundle.list = tokenless (calledPdu platform made ecPduNewEmpty).opts.bundle.list
  payload : res.payload = (calledPdu platform made ecPduNewEmpty).payload

/-- The response of these calls is read whole with the token of its request, however often it is sent. -/
def Presentable (platform : Platform) (made : List SrvApi) (token : List UInt8) : Prop :=
  Steady (mirrorToken (calledPdu platform made ecPduNewEmpty).opts token).1.bundle.list

/-- The user has not answered an acknowledged request yet; the response is what the calls so far have made. -/
structure EcServer.Drafting (platform : Platform) (req : EcPdu) (token : List UInt8) (made : List SrvApi)
    (srv : EcServer) : Prop where
  state : srv.state = .ackSent
  request : srv.req = some req
  code : srv.flow.respCode = calledCode made ecRcUnset
  tagged : srv.flow.token = token
  response : srv.res = some (calledPdu platform made ecPduNewEmpty)

/-- The user has answered, and the answer waits for its ACK. -/
structure EcServer.Answering (platform : Platform) (req : EcPdu) (token : List UInt8) (made : List SrvApi)
    (srv : EcServer) : Prop where
  state : srv.state = .waitAck
  request : srv.req = some req
  code : srv.flow.respCode = calledCode made ecRcUnset
  tagged : srv.flow.token = token
  response : ∃ res, srv.res = some res ∧
    (Presentable platform made token → Steady res.opts.bundle.list ∧ res.Drafts platform made)

/-- Nothing but an error or its answer is said for a request from now on; the callback can be invoked again at best. -/
def EcServer.Concluded (platform : Platform) (req : EcPdu) (token : List UInt8) (made : List SrvApi) (again : Prop)
    (srv : EcServer) : Prop :=
  srv.freed = true ∨ srv.Answering platform req token made ∧ (srv.resched.pending = true → again)

/-- What the sender of a request can get for it: an ACK, an error, or the response that the calls have made. -/
def Datagram.Fair (platform : Platform) (made : List SrvApi) (token : List UInt8) (d : Datagram) : Prop :=
  d.Empty platform.order ∨ d.Fails ∨ (Presentable platform made token → d.Conveys platform made)

section Responses

variable {platform : Platform} {made : List SrvApi} {srv : EcServer} {d : Datagram}

theorem calledCode_append (calls more : List SrvApi) (rc : EcRc) :
    calledCode (calls ++ more) rc = calledCode more (calledCode calls rc) := List.foldl_append

theorem calledPdu_append (calls more : List SrvApi) (res : EcPdu) :
    calledPdu platform (calls ++ more) res = calledPdu platform more (calledPdu platform calls res) := List.foldl_append

theorem calledPdu_drafts (platform : Platform) (made : List SrvApi) :
    (calledPdu platform made ecPduNewEmpty).Drafts platform made := by
  have unencoded : (calledPdu platform made ecPduNewEmpty).opts.Unencoded :=
    calledPdu_unencoded made ecOptsInit_unencoded
  exact ⟨⟨unencoded.counted, unencoded.within⟩, rfl, rfl⟩

/-- What a server makes of a legible response is read whole by whoever gets it. -/
theorem EcServer.Composed.reads {order : ByteOrder} {env : SendEnv} {res : EcPdu} (composed : srv.Composed order env d)
    (held : srv.res = some res) (tallied : res.opts.Tallied)
    (legible : Legible (mirrorToken res.opts srv.flow.token).1.bundle.list) :
    (mirrorToken res.opts srv.flow.token).2 = 0 ∧ ∀ other beyond, ∃ h, h.code = rcByte srv.flow.respCode ∧
      Survives other d.bytes beyond h (mirrorToken res.opts srv.flow.token).1.bundle.list res.payload := by
  obtain ⟨_, isCon, same, pairs, response, model, encodes, whole⟩ := composed
  cases held.symm.trans same
  obtain ⟨opts, payload, t, mid, hdr⟩ := EcServer.encodedResp_whole order env pairs response model encodes
  have counted := mirrorToken_tallied srv.flow.token tallied
  have fits := (ecOptsEncode_ok_iff _).mpr encodes.2
  refine ⟨encodes.1, ?_⟩
  generalize (mirrorToken res.opts srv.flow.token).1 = set at opts hdr counted fits legible ⊢
  -- The receiver cannot tell the options from those of a set that has never been encoded.
  obtain ⟨fresh, same⟩ : ∃ fresh : EcOpts, fresh = ⟨fun _ => 0, 0, set.noptions, set.bundle⟩ := ⟨_, rfl⟩
  have unencoded : fresh.Unencoded := by
    subst same
    exact ⟨rfl, rfl, counted.counted, counted.within⟩
  have list : fresh.bundle.list = set.bundle.list := by rw [same]
  have number : fresh.encoded.noptions = set.encoded.noptions := by rw [same]; rfl
  have wire : fresh.encoded.wire = set.encoded.wire := by
    rw [Legible.wire (list ▸ legible), legible.wire, list]
  have encoded : (ecOptsEncode fresh).2 = 0 := by
    rw [ecOptsEncode_ok_iff] at fits ⊢
    rw [list]
    exact fits
  have bytes : d.bytes = headerBytes order fresh.encoded.noptions (rcByte srv.flow.respCode) t mid ++
      fresh.encoded.wire ++ res.payload := by
    rw [whole, number, wire, ← hdr, ← opts, ← payload]
    rfl
  intro other beyond
  have read := (@headerBytes_survives_iff order fresh
    ⟨t, UInt8.ofNat (fresh.encoded.noptions % 16), rcByte srv.flow.respCode, mid⟩ res.payload beyond unencoded
    encoded rfl).mpr (by rw [list]; exact ⟨legible.faithful, legible.few⟩)
  dsimp only at read
  rw [← bytes, list] at read
  exact ⟨_, rfl, read.ordered other⟩

theorem EcServer.Composed.conveys {order : ByteOrder} {env : SendEnv} {res : EcPdu}
    (composed : srv.Composed order env d) (held : srv.res = some res) (drafts : res.Drafts platform made)
    (code : srv.flow.respCode = calledCode made ecRcUnset)
    (legible : Legible (mirrorToken res.opts srv.flow.token).1.bundle.list) : d.Conveys platform made := by
  obtain ⟨mirrored, reads⟩ := composed.reads held drafts.tallied legible
  refine ⟨_, (mirrorToken_tokenless mirrored).trans drafts.options, fun other beyond => ?_⟩
  obtain ⟨h, byte, survives⟩ := reads other beyond
  exact ⟨h, byte.trans (congrArg rcByte code), drafts.payload ▸ survives⟩

/-- The first response that a server makes has the token of its request. -/
theorem EcServer.Composed.bears {order : ByteOrder} {env : SendEnv} {run : CallbackRun}
    (composed : srv.Composed order env d) (held : srv.res = some (calledPdu platform run.calls ecPduNewEmpty))
    (code : srv.flow.respCode = calledCode run.calls ecRcUnset)
    (legible : Legible (mirrorToken (calledPdu platform run.calls ecPduNewEmpty).opts srv.flow.token).1.bundle.list) :
    d.Bears platform run srv.flow.token := by
  obtain ⟨mirrored, reads⟩ := composed.reads held (calledPdu_drafts platform run.calls).tallied legible
  refine ⟨_, (withToken_iff mirrored).mpr rfl, fun other beyond => ?_⟩
  obtain ⟨h, byte, survives⟩ := reads other beyond
  exact ⟨h, byte.trans (congrArg rcByte code), survives⟩

/-- A response to a request with a token is fair, whatever the response is. -/
theorem EcServer.Composed.fair {env : SendEnv} {res : EcPdu} {token : List UInt8}
    (composed : srv.Composed platform.order env d) (held : srv.res = some res) (tagged : srv.flow.token = token)
    (code : srv.flow.respCode = calledCode made ecRcUnset)
    (drafts : Presentable platform made token → res.Drafts platform made ∧
      Steady (mirrorToken res.opts token).1.bundle.list) : d.Fair platform made token := by
  refine Or.inr (Or.inr fun presentable => ?_)
  obtain ⟨drafted, steady⟩ := drafts presentable
  rw [← tagged] at steady
  exact composed.conveys held drafted code steady.toLegible

/-- The encoding of a steady response leaves it what it was, but for one more token. -/
theorem EcServer.encodedResp_drafts {order : ByteOrder} {env : SendEnv} {isCon sent : Bool} {res : EcPdu}
    (responds : srv.Responds res isCon sent) (drafts : res.Drafts platform made)
    (steady : Steady (mirrorToken res.opts srv.flow.token).1.bundle.list) :
    Steady (srv.encodedResp order env isCon res).opts.bundle.list ∧
      (srv.encodedResp order env isCon res).Drafts platform made := by
  obtain ⟨opts, payload, _⟩ :=
    EcServer.encodedResp_whole order env responds.pairs responds.code responds.model responds.encodes
  have tallied := mirrorToken_tallied srv.flow.token drafts.tallied
  have tokens := mirrorToken_tokenless responds.encodes.1
  have list : (srv.encodedResp order env isCon res).opts.bundle.list =
      (mirrorToken res.opts srv.flow.token).1.bundle.list := by rw [opts]; rfl
  have number : (srv.encodedResp order env isCon res).opts.noptions =
      (mirrorToken res.opts srv.flow.token).1.noptions := by
    rw [opts]
    show _ + fencepostCount 0 _ = _
    rw [steady.near, Nat.add_zero]
  refine ⟨list ▸ steady, ⟨?_, ?_⟩, ?_, payload.trans drafts.payload⟩
  · rw [number, list]
    exact tallied.counted
  · rw [number]
    exact tallied.within
  · rw [list, tokens]
    exact drafts.options

end Responses

section Transactions

variable {platform : Platform} {req : EcPdu} {token : List UInt8} {made : List SrvApi} {w w' : EcWork}

namespace EcServer

theorem Drafting.called (drafting : w.srv.Drafting platform req token made) (calls : List SrvApi) :
    (applyCalls platform calls w).srv.Drafting platform req token (made ++ calls) := by
  rw [applyCalls_srv]
  refine ⟨drafting.state, drafting.request, ?_, drafting.tagged, ?_⟩
  · show calledCode calls w.srv.flow.respCode = _
    rw [drafting.code, calledCode_append]
  · show w.srv.res.map (calledPdu platform calls) = _
    rw [drafting.response, calledPdu_append]
    rfl

/-- What the server makes of a draft says what the calls have made. -/
theorem Drafting.fair {srv : EcServer} {env : SendEnv} {d : Datagram} (drafting : srv.Drafting platform req token made)
    (composed : srv.Composed platform.order env d) : d.Fair platform made token :=
  composed.fair drafting.response drafting.tagged drafting.code fun presentable =>
    ⟨calledPdu_drafts platform made, presentable⟩

theorem Drafting.answered {srv : EcServer} {env : SendEnv} {res : EcPdu}
    (drafting : srv.Drafting platform req token made) (responds : srv.Responds res true env.sent) :
    (srv.answered platform.order env res).Answering platform req token made := by
  cases drafting.response.symm.trans responds.held
  refine ⟨rfl, drafting.request, drafting.code, drafting.tagged, _, rfl, fun presentable => ?_⟩
  apply encodedResp_drafts responds (calledPdu_drafts platform made)
  rw [drafting.tagged]
  exact presentable

/-- A draft that could be sent is an answer. -/
theorem Drafting.ready {env : SendEnv} {isCon : Bool} (drafting : w.srv.Drafting platform req token made)
    (model : w.srv.flow.conn.isConfirmable = some isCon)
    (finished : ecServerReady platform env isCon w = .ok (w', 0)) :
    w'.srv.Concluded platform req token made (w.srv.resched.pending = true) := by
  rcases ecServerReady_life model finished with ⟨failed, _⟩ | ⟨failed, _⟩ | ⟨_, freed, _⟩ | ⟨_, _, res, responds, same⟩
  · exact absurd rfl failed
  · exact absurd rfl failed
  · exact Or.inl freed
  · rw [same]
    exact Or.inr ⟨drafting.answered responds, fun pending => pending⟩

/-- The callback of an acknowledged request is invoked again: its transaction ends, or its answer is sent. -/
theorem Drafting.recalled {env : HandlerEnv} (drafting : w.srv.Drafting platform req token made)
    (finished : reschedUserfn platform env w = .ok w') :
    w'.invoked = w.invoked ∧ w'.srv.freed = true ∧ w.Utters Datagram.Fails w' ∨
    w'.invoked = w.invoked + 1 ∧
      w'.srv.Concluded platform req token (made ++ env.run.calls) (w.srv.resched.pending = true) ∧
      w.Utters (Datagram.Fair platform (made ++ env.run.calls) token) w' := by
  have called : (w.called platform env).Drafting platform req token (made ++ env.run.calls) :=
    @Drafting.called platform req token made {w with invoked := w.invoked + 1} drafting env.run.calls
  have fair : w.Utters (Datagram.Fair platform (made ++ env.run.calls) token) w' := by
    apply (reschedUserfn_utters finished).mono
    rintro d (⟨accepted, _⟩ | ⟨_, composed⟩)
    · cases drafting.state.symm.trans accepted
    · exact called.fair composed
  unfold reschedUserfn at finished
  split at finished
  · cases finished
  · rename_i run rc ran
    split at finished
    · have freed := ecServerSetState_final run .internalErr rfl rfl
      rw [freed] at finished
      cases finished
      rcases ecServerUserfn_invoked ran with ⟨_, same⟩ | invoked
      · subst same
        exact Or.inl ⟨rfl, rfl, EcWork.Utters.of_quiet rfl rfl⟩
      · exact Or.inr ⟨invoked, Or.inl rfl, fair⟩
    · rename_i zero
      cases finished
      have done : rc = 0 := by simpa using zero
      subst done
      have invoked := (ecServerUserfn_invoked ran).resolve_left fun failed => failed.1 rfl
      refine Or.inr ⟨invoked, ?_, fair⟩
      unfold ecServerUserfn at ran
      split at ran
      · cases ran
      · rename_i isCon model
        dsimp only at ran
        have call := applyCalls_called platform env.run.calls {w with invoked := w.invoked + 1}
        split at ran
        · have ready := called.ready (by rw [call.conn]; exact model) ran
          have timer : (w.called platform env).resched = w.srv.resched :=
            congrArg ServerCore.resched (applyCalls_core platform env.run.calls {w with invoked := w.invoked + 1})
          change w'.srv.Concluded platform req token _ ((w.called platform env).resched.pending = true) at ready
          rw [timer] at ready
          exact ready
        · unfold ecServerWait at ran
          rw [if_neg (by rw [call.state]; simp [drafting.state])] at ran
          cases ran
        · cases ran
        · cases ran

/-- A callback that is invoked while its answer waits for the ACK ends the transaction. -/
theorem Answering.recalled {env : HandlerEnv} {kind : Datagram → Prop}
    (answering : w.srv.Answering platform req token made) (finished : reschedUserfn platform env w = .ok w') :
    w'.srv.freed = true ∧ w.Utters kind w' := by
  refine ⟨?_, (reschedUserfn_utters finished).mono ?_⟩
  · rcases reschedUserfn_life (Or.inr answering.state) finished with ⟨freed, _⟩ | ⟨acked, _⟩
    · exact freed
    · cases answering.state.symm.trans acked
  · rintro d (⟨accepted, _⟩ | ⟨acked | accepted, _⟩)
    · cases answering.state.symm.trans accepted
    · cases answering.state.symm.trans acked
    · cases answering.state.symm.trans accepted

/-- The user wakes up the server of an acknowledged request with an answer that can be sent. -/
theorem Drafting.woken {env : SendEnv} {calls : List SrvApi} {rc : Int} {res : EcPdu} {isCon : Bool}
    (drafting : w.srv.Drafting platform req token made)
    (responds : (applyCalls platform calls w).srv.Responds res isCon env.sent)
    (finished : ecServerWakeup platform env calls w = .ok (w', rc)) :
    w'.srv.Concluded platform req token (made ++ calls) True ∧
      w.Utters (Datagram.Fair platform (made ++ calls) token) w' := by
  have called := drafting.called calls
  refine ⟨?_, (ecServerWakeup_utters finished).mono fun d said => called.fair said.2⟩
  unfold ecServerWakeup at finished
  dsimp only at finished
  rw [responds.model] at finished
  dsimp only at finished
  rcases ecServerReady_cases finished with ⟨_, other, _⟩ | ⟨_, _, silent, _⟩ | ⟨zero, _⟩
  · exact absurd called.state other
  · exact absurd ⟨res, isCon, responds⟩ silent
  · rw [zero] at finished
    exact (called.ready responds.model finished).imp_right fun answering => ⟨answering.1, fun _ => trivial⟩

/-- A server that waits for its user sends a response that can be sent. -/
theorem ecServerReady_sends {env : SendEnv} {res : EcPdu} {isCon : Bool} (acked : w.srv.state = .ackSent)
    (responds : w.srv.Responds res isCon env.sent) : ∃ w', ecServerReady platform env isCon w = .ok (w', 0) ∧
      ⟨.response, (w.srv.encodedResp platform.order env isCon res).datagram w.srv.flow.conn⟩ ∈ w'.srv.sent := by
  have logged : (⟨.response, (w.srv.encodedResp platform.order env isCon res).datagram w.srv.flow.conn⟩ : Sent) ∈
      (w.respondedWith platform env .response (w.srv.encodedResp platform.order env isCon res)).srv.sent :=
    List.mem_append_right _ List.mem_cons_self
  have state : (w.respondedWith platform env .response (w.srv.encodedResp platform.order env isCon res)).srv.state =
      .ackSent := acked
  unfold ecServerReady
  rw [if_pos (Or.inl acked), ecServerSendResp_responds platform env .response w res isCon responds]
  dsimp only
  rw [if_neg (by simp)]
  split
  · rw [ecServerSetState_waitAck _ state]
    exact ⟨_, rfl, logged⟩
  · rw [ecServerSetState_final _ .respDone (by rw [state]; rfl) rfl]
    exact ⟨_, rfl, logged⟩

/-- The answer that the user gives by a wakeup is sent. -/
theorem Drafting.wakes {env : SendEnv} {calls : List SrvApi} {res : EcPdu} {isCon : Bool}
    (drafting : w.srv.Drafting platform req token made)
    (responds : (applyCalls platform calls w).srv.Responds res isCon env.sent)
    (legible : Legible (mirrorToken (calledPdu platform (made ++ calls) ecPduNewEmpty).opts token).1.bundle.list)
    (ret : EcCbrc) (tv : TimeVal) : ∃ w' s, ecServerWakeup platform env calls w = .ok (w', 0) ∧ s ∈ w'.srv.sent ∧
      s.datagram.peer = w.srv.flow.conn.peer ∧ s.datagram.Bears platform ⟨made ++ calls, ret, tv⟩ token ∧
      ecIsRespCode (calledCode (made ++ calls) ecRcUnset) := by
  have called := drafting.called calls
  obtain ⟨w', ready, logged⟩ := ecServerReady_sends called.state responds
  have composed : (applyCalls platform calls w).srv.Composed platform.order env
      (((applyCalls platform calls w).srv.encodedResp platform.order env isCon res).datagram
        (applyCalls platform calls w).srv.flow.conn) :=
    ⟨res, isCon, responds.held, responds.pairs, responds.code, responds.model, responds.encodes, rfl⟩
  refine ⟨w', _, ?_, logged, ?_, ?_, ?_⟩
  · unfold ecServerWakeup
    dsimp only
    rw [responds.model]
    exact ready
  · rw [applyCalls_srv]
    rfl
  · rw [← called.tagged] at legible ⊢
    exact composed.bears called.response called.code legible
  · rw [← called.code]
    exact responds.code

/-- The answer is sent again as it was, but for its MID and for one more token, or its transaction ends. -/
theorem Answering.repeated {env : SendEnv} (answering : w.srv.Answering platform req token made)
    (finished : ecSrvCoapTimeout platform env w = .ok w') :
    w'.srv.Concluded platform req token made (w.srv.resched.pending = true) ∧
      w.Utters (Datagram.Fair platform made token) w' := by
  obtain ⟨res, held, presents⟩ := answering.response
  refine ⟨?_, (ecSrvCoapTimeout_utters finished).mono fun d said => ?_⟩
  · rcases ecSrvCoapTimeout_life answering.state finished with ⟨freed, _⟩ | ⟨_, res', isCon, coap, responds, same⟩
    · exact Or.inl freed
    · cases held.symm.trans responds.held
      rw [same]
      refine Or.inr ⟨⟨rfl, answering.request, answering.code, answering.tagged, _, rfl, fun presentable => ?_⟩,
        fun pending => pending⟩
      obtain ⟨steady, drafts⟩ := presents presentable
      exact encodedResp_drafts responds drafts (mirrorToken_steady responds.encodes.1 drafts.tallied steady)
  · obtain ⟨res', isCon, same, _, _, _, encodes, _⟩ := said.2
    cases held.symm.trans same
    refine said.2.fair held answering.tagged answering.code fun presentable => ?_
    obtain ⟨steady, drafts⟩ := presents presentable
    have mirrored := encodes.1
    dsimp only at mirrored
    rw [answering.tagged] at mirrored
    exact ⟨drafts, mirrorToken_steady mirrored drafts.tallied steady⟩

end EcServer

/-- The flow of a request has no response code yet, and the token of the request. -/
theorem ServerInput.Prepares.fresh {h : EcHdr} {input : ServerInput} {flow : EcFlow}
    (prepares : input.Prepares platform h flow) : flow.respCode = ecRcUnset ∧
      flow.token = requestToken (ecServerBody input.raw input.beyond).decoded.opts := by
  have request := prepares.request
  unfold ecServerSaveRequest ecFlowSetMethod at request
  dsimp only at request
  split at request
  · cases request
  · obtain ⟨tokened, token, url⟩ := Option.map_eq_some_iff.mp request
    unfold ecFlowSaveToken at token
    split at token
    · cases token
      unfold ecFlowSaveUrl at url
      split at url
      · cases url
      · cases url
        exact ⟨rfl, rfl⟩
    · cases token

/-- A request that is dispatched ends with an error, or its callback is invoked and answers it at once, or not yet. -/
theorem ecServerDispatch_defers {resources : List (List UInt8)} {fb : Bool} {env : HandlerEnv} {flow : EcFlow}
    {rc : EcNetCbrc} (accepted : w.srv = EcServer.accepted flow req) (uncoded : flow.respCode = ecRcUnset)
    (finished : ecServerDispatch platform resources fb env w = .ok (w', rc)) :
    w'.invoked = w.invoked ∧ w'.srv.freed = true ∧ w.Utters Datagram.Fails w' ∨
    w'.invoked = w.invoked + 1 ∧
      (w'.srv.freed = true ∧ w.Utters (Datagram.Fair platform env.run.calls flow.token) w' ∨
        w'.srv.Drafting platform req flow.token env.run.calls ∧ w.Utters (Datagram.Empty platform.order) w') := by
  have state : w.srv.state = .reqOk := by rw [accepted]; rfl
  have made : w.called platform env = {EcServer.accepted flow req with
      flow := {flow with respCode := calledCode env.run.calls ecRcUnset}
      res := some (calledPdu platform env.run.calls ecPduNewEmpty)} := by
    unfold EcWork.called
    rw [applyCalls_srv]
    dsimp only
    rw [accepted, ← uncoded]
    rfl
  have fair : ∀ d, w.Speech platform env d → d.Fair platform env.run.calls flow.token := by
    rintro d (⟨_, empty⟩ | ⟨_, composed⟩)
    · exact Or.inl empty
    · rw [made] at composed
      exact composed.fair rfl rfl rfl fun presentable => ⟨calledPdu_drafts platform env.run.calls, presentable⟩
  unfold ecServerDispatch at finished
  split at finished
  · split at finished
    · cases finished
    · rename_i run code ran
      have spoken := (ecServerUserfn_utters ran).mono fair
      split at finished
      · obtain ⟨failed, ended, same⟩ := map_ok finished
        cases same
        have freed := (ecServerFail_logs ended).1
        have fails := ecServerFail_utters (by decide) ended
        rcases ecServerUserfn_invoked ran with ⟨_, same⟩ | invoked
        · subst same
          exact Or.inl ⟨ecServerFail_invoked ended, freed, fails⟩
        · refine Or.inr ⟨by rw [ecServerFail_invoked ended, invoked], Or.inl ⟨freed, ?_⟩⟩
          exact spoken.trans (fails.mono fun d fails => Or.inr (Or.inl fails))
      · rename_i zero
        cases finished
        have done : code = 0 := by simpa using zero
        subst done
        have invoked := (ecServerUserfn_invoked ran).resolve_left fun failed => failed.1 rfl
        refine Or.inr ⟨invoked, ?_⟩
        unfold ecServerUserfn at ran
        split at ran
        · cases ran
        · rename_i isCon model
          have call := applyCalls_called platform env.run.calls {w with invoked := w.invoked + 1}
          have quiet := applyCalls_quiet platform env.run.calls {w with invoked := w.invoked + 1}
          dsimp only at ran
          split at ran
          · rcases ecServerReady_life (by rw [call.conn]; exact model) ran with ⟨failed, _⟩ | ⟨failed, _⟩ |
              ⟨_, freed, _⟩ | ⟨_, acked, _⟩
            · exact absurd rfl failed
            · exact absurd rfl failed
            · exact Or.inl ⟨freed, spoken⟩
            · cases (call.state.trans state).symm.trans acked
          · right
            have called : w.Utters (Datagram.Empty platform.order)
                (applyCalls platform env.run.calls {w with invoked := w.invoked + 1}) :=
              EcWork.Utters.of_quiet quiet.sent quiet.dups
            refine ⟨?_, called.trans ((ecServerWait_utters ran).mono fun d said => said.2)⟩
            rcases ecServerWait_life ran with ⟨failed, _⟩ | ⟨_, _, acked, resched, acks, same⟩
            · exact absurd rfl failed
            · change (w.called platform env).Acks platform.order isCon acked at acks
              rw [made] at acks
              rw [same]
              cases isCon with
              | true =>
                  obtain ⟨_, _, whole⟩ := acks
                  subst whole
                  exact ⟨rfl, rfl, rfl, rfl, rfl⟩
              | false =>
                  subst acks
                  exact ⟨rfl, rfl, rfl, rfl, rfl⟩
          · cases ran
          · cases ran
  · obtain ⟨moved, entered, same⟩ := map_ok finished
    cases same
    left
    have core := ecServerReply_core platform env.reply ecNotFound w
    have after : (ecServerReply platform env.reply ecNotFound w).1.srv.state = w.srv.state :=
      congrArg ServerCore.state core
    have replied := ecServerReply_utters platform env.reply ecNotFound w (by decide)
    refine ⟨by rw [ecServerSetState_invoked entered, ecServerReply_invoked], ?_,
      replied.trans (ecServerSetState_utters entered)⟩
    rw [ecServerSetState_final _ .respDone (by rw [after, state]; rfl) rfl] at entered
    cases entered
    rfl

/-- What a base makes of a new request: an error, an answer, or a draft of one after an ACK. -/
theorem ecServerProcess_defers {resources : List (List UInt8)} {fb : Bool} {h : EcHdr} {input : ServerInput}
    {rc : EcNetCbrc} (created : w.srv = ecServerNew)
    (tokened : requestToken (ecServerBody input.raw input.beyond).decoded.opts = token)
    (finished : ecServerProcess platform resources fb h input w = .ok (w', rc)) :
    w'.invoked = w.invoked ∧ w'.srv.freed = true ∧ w.Utters Datagram.Fails w' ∨
    w'.invoked = w.invoked + 1 ∧
      (w'.srv.freed = true ∧ w.Utters (Datagram.Fair platform input.env.run.calls token) w' ∨
        w'.srv.Drafting platform ((ecServerBody input.raw input.beyond).pdu input.raw h) token input.env.run.calls ∧
          w.Utters (Datagram.Empty platform.order) w') := by
  rcases ecServerProcess_cases created finished with ⟨_, flow, code, failed⟩ | ⟨flow, prepares, dispatched⟩
  · have quiet := ecServerFail_quiet (by rintro _ ⟨_, _, absent, _⟩; cases absent) failed
    have uncalled := ecServerFail_invoked failed
    refine Or.inl ⟨uncalled, (ecServerFail_logs failed).1, EcWork.Utters.of_quiet ?_ quiet.dups⟩
    rw [quiet.sent, created]
  · obtain ⟨uncoded, same⟩ := prepares.fresh
    rw [tokened] at same
    have silent : ∀ kind : Datagram → Prop, w.Utters kind (w.accepting h input flow) := fun kind =>
      EcWork.Utters.of_quiet (by rw [created]; rfl) rfl
    have accepting : ∀ {kind : Datagram → Prop}, (w.accepting h input flow).Utters kind w' → w.Utters kind w' :=
      fun said => (silent _).trans said
    rcases ecServerDispatch_defers rfl uncoded dispatched with ⟨invoked, freed, said⟩ | ⟨invoked, ⟨freed, said⟩ |
      ⟨drafting, said⟩⟩
    · exact Or.inl ⟨invoked, freed, accepting said⟩
    · rw [same] at said
      exact Or.inr ⟨invoked, Or.inl ⟨freed, accepting said⟩⟩
    · rw [same] at drafting
      exact Or.inr ⟨invoked, Or.inr ⟨drafting, accepting said⟩⟩

end Transactions

end Webthings.Evcoap
