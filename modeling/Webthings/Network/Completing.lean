import Webthings.Evcoap.Options.UintCodec
import Webthings.Network.Exchange

namespace Webthings.Network
open Webthings.Evcoap
open Webthings.Transition

/-- A client that waits for the response to its request and wants it, with the token of the request. -/
structure Waits (w : CliWork) : Prop where
  state : w.cli.state = .reqSent ∨ w.cli.state = .reqAckd
  live : w.cli.freed = false
  registered : w.cli.registered = true
  wanted : w.cli.observe.cancel = false
  token : w.cli.flow.token = requestToken w.cli.req.opts

/-- A client has no record of a message of a peer with the MID of a datagram. -/
def Unheard (platform : Platform) (peer : SockAddr) (w : CliWork) (d : Datagram) : Prop :=
  ecDupsSearch platform w.dups (headerMid platform.order d.bytes) peer = none

/-- The user puts no Token option into the response. -/
def Untokened (platform : Platform) (run : CallbackRun) : Prop :=
  ecOptsGet (calledPdu platform run.calls ecPduNewEmpty).opts .token = none

instance (platform : Platform) (run : CallbackRun) : Decidable (Untokened platform run) :=
  inferInstanceAs (Decidable (_ = _))

section Responses

variable {near far : Platform} {peer home : SockAddr} {w : CliWork} {input : Incoming} {h : EcHdr}

/-- The first Token option of the response is the one of the request. -/
theorem withToken_get {opts opts' : EcOpts} {token : List UInt8} (untokened : ecOptsGet opts .token = none)
    (withToken : WithToken opts token opts'.bundle.list) :
    ∀ t, ecOptsGet opts' .token = some t → t.value = token := by
  intro t found
  obtain ⟨os, list⟩ : ∃ os, opts'.bundle.list = os := ⟨_, rfl⟩
  rw [list] at withToken
  cases withToken with
  | absent none =>
      rw [ecOptsGet_same list, untokened] at found
      cases found
  | mirrored present o symbol value =>
      have first := ecOptsGet_insert (o := o) (by rw [symbol]; exact untokened) 0
      rw [symbol, ← ecOptsGet_same list, found] at first
      cases first
      exact value

theorem rcByte_toNat {rc : EcRc} (response : ecIsRespCode rc) : ((rcByte rc).toNat : EcRc) = rc := by
  have least : (65 : Int) ≤ rc := response.1
  have most : (191 : Int) ≥ rc := response.2
  unfold rcByte
  rw [UInt8.toNat_ofNat']
  change ((Int.toNat rc % 2 ^ 8 : Nat) : Int) = rc
  omega

theorem Waits.waiting (waits : Waits w) : ecClientStateIsFinal w.cli.state = false := by
  rcases waits.state with state | state
  · simp [state, ecClientStateIsFinal]
  · simp [state, ecClientStateIsFinal]

/-- The token of a request that was posted is the one that its client had at the start. -/
theorem Waits.tagged {start : EcClient} {answered : Prop} {order : ByteOrder} (waits : Waits w)
    (posted : Posted order start answered w.cli) : w.cli.flow.token = requestToken start.req.opts := by
  rw [waits.token]
  unfold requestToken
  rw [posted.get]

/-- A waiting client hears a datagram that it has no record of. -/
theorem Waits.hears (waits : Waits w) {d : Datagram} (unheard : Unheard near input.peer w d)
    (decoded : ecPduDecodeHeader near.order d.bytes = some h) (header : ecClientHeader near.order d.bytes = some h) :
    w.Hears near {input with raw := d.bytes} h :=
  ⟨waits.live, waits.registered, header, by rw [mid_decoded decoded]; exact unheard⟩

/-- A response that a waiting client takes in is handled, and its callback is given it. -/
theorem Waits.takes (waits : Waits w) (plain : Plain w.cli)
    (unasked : ecOptsGet w.cli.req.opts .observe = none) (hears : w.Hears near input h) (code : h.code ≠ 0)
    (taken : w.cli.TakesIn h input) : ∃ w', clientStep near w (.datagram input) = .ok w' ∧
      telling near w (.datagram input) = [w.cli.shown h input] := by
  obtain ⟨observe, judged, off⟩ : ∃ observe, w.cli.judged near.order h input = some observe ∧ observe.on = false := by
    unfold EcClient.judged EcCliObs.judge
    rw [if_neg (by simp [plain.off]), unasked]
    exact ⟨_, rfl, rfl⟩
  have asks : observe.asks = .reqDone := by
    unfold EcCliObs.asks
    rw [if_neg (by simp [off])]
  have follows : w.cli.CanFollow observe.asks := by
    rw [asks]
    refine ⟨?_, fun watching => by cases watching⟩
    rcases waits.state with sent | acked
    · simp [sent, ecClientCheckTransition]
    · simp [acked, ecClientCheckTransition]
  have seen : (w.seen near input h).cli.TakesIn h input := taken
  obtain ⟨w', rc, handled, _, _⟩ := ecClientHandleNew_answered near code seen judged follows
  obtain ⟨delivery, delivers⟩ := ecClientDelivery_moves hears code taken judged waits.wanted
  refine ⟨w', ?_, ?_⟩
  · rw [clientStep_hears hears, handled]
    rfl
  · simp [telling, hears.header, delivers]

/-- The response of a callback is taken in by the client that waits for it. -/
theorem Waits.told (waits : Waits w) (plain : Plain w.cli)
    (unasked : ecOptsGet w.cli.req.opts .observe = none) {run : CallbackRun} {d : Datagram}
    (bears : d.Bears far run w.cli.flow.token) (code : ecIsRespCode (calledCode run.calls ecRcUnset))
    (untokened : Untokened far run) (unheard : Unheard near input.peer w d) :
    ∃ w' pdu, clientStep near w (.datagram {input with raw := d.bytes}) = .ok w' ∧
      telling near w (.datagram {input with raw := d.bytes}) = [pdu] ∧ pdu.Tells far run w.cli.flow.token := by
  obtain ⟨os, options, reads⟩ := bears
  obtain ⟨h, byte, survives⟩ := reads near.order input.beyond
  have value : (h.code.toNat : EcRc) = calledCode run.calls ecRcUnset := by
    rw [byte]
    exact rcByte_toNat code
  have response : ecIsRespCode h.code.toNat := by
    rw [value]
    exact code
  have header : ecClientHeader near.order d.bytes = some h := by
    unfold ecClientHeader
    rw [survives.header]
    dsimp only
    rw [if_neg]
    have least : (65 : Int) ≤ h.code.toNat := response.1
    omega
  have hears := waits.hears unheard survives.header header
  have taken : w.cli.TakesIn h {input with raw := d.bytes} := by
    refine ⟨survives.client.decoded, ?_, response⟩
    apply withToken_get untokened
    rw [show (Incoming.opts {input with raw := d.bytes}).bundle.list = os from survives.client.options]
    exact options
  have some : h.code ≠ 0 := by
    intro zero
    rw [zero] at response
    exact absurd response (by decide)
  obtain ⟨w', stepped, telling⟩ := waits.takes plain unasked hears some taken
  refine ⟨w', _, stepped, telling, ?_⟩
  rw [shown_plain plain]
  have carried := survives.client.pdu h
  exact ⟨by rw [carried.1]; exact byte, by rw [carried.2.1]; exact options, carried.2.2⟩

end Responses

section Runs

variable {near far : Platform} {home : SockAddr} {start : EcClient} {s : Exchange}

/-- A copy of the request has been handed to the base, and the answer is on its way. -/
structure Answerable (near far : Platform) (home : SockAddr) (start : EcClient) (s next : Exchange) : Prop where
  conducted : Conducted near far home start next
  work : next.work = s.work
  answered : ∃ mid own first call, After far home start mid own first call next ∧ Untokened far call.run

end Runs

end Webthings.Network
