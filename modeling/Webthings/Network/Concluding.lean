import Webthings.Network.Completing
import Webthings.Network.Dialogue

namespace Webthings.Network
open Webthings.Evcoap
open Webthings.Transition

/-- The user can answer a waiting request by these calls, besides those before, with a response that can be sent and
that is read whole. -/
structure Repliable (far : Platform) (home : SockAddr) (start : EcClient) (s : Dialogue) (id : SrvId)
    (calls : List SrvApi) (env : SendEnv) : Prop where
  awaits : awaiting home s.base id = true
  responds : ∀ srv, s.base.heap id = some srv → ∃ res isCon,
    (applyCalls far calls (s.base.work id srv)).srv.Responds res isCon env.sent
  legible : Legible (mirrorToken (calledPdu far (s.made ++ calls) ecPduNewEmpty).opts
    (requestToken start.req.opts)).1.bundle.list
  untokened : ecOptsGet (calledPdu far (s.made ++ calls) ecPduNewEmpty).opts .token = none

section Steps

variable {near far : Platform} {home : SockAddr} {start : EcClient} {s : Dialogue} {mid : UInt16} {own : SrvId}
  {req : EcPdu} {token : List UInt8} {made calls : List SrvApi} {env : SendEnv} {b : EcBase}

/-- The transaction that waits for its answer is the one of the request. -/
theorem Conversing.awaits (conversing : Conversing near far home start s) {id : SrvId}
    (awaits : awaiting home s.base id = true) :
    ∃ mid req, Posed far start mid req s ∧ Pending far home start mid id req s := by
  obtain ⟨srv, stored, live, _, talks⟩ := awaiting_iff.mp awaits
  rcases conversing.phase with ⟨before, _⟩ | ⟨mid, own, req, posed, phase⟩
  · exact absurd talks ((before.base.apart.foreign id srv (by simp) stored).talks live)
  · have mine : ∀ hosting : Hosting far home mid own s.base, id = own := by
      intro hosting
      apply Classical.byContradiction
      intro other
      exact (hosting.beside.foreign id srv (by simpa using other) stored).talks live talks
    rcases phase with pending | ⟨again, settled⟩
    · have same := mine pending.base.toHosting
      subst same
      exact ⟨mid, req, posed, pending⟩
    · have same := mine settled.base.toHosting
      subst same
      exact absurd awaits settled.base.unawaiting

/-- A wakeup has the answer sent to the peer. -/
theorem Drafted.wakes (drafted : Drafted far home mid own req token made b)
    (responds : ∀ srv, b.heap own = some srv → ∃ res isCon,
      (applyCalls far calls (b.work own srv)).srv.Responds res isCon env.sent)
    (legible : Legible (mirrorToken (calledPdu far (made ++ calls) ecPduNewEmpty).opts token).1.bundle.list)
    (ret : EcCbrc) (tv : TimeVal) : ∃ base d, baseStep far b (.wakeup own calls env) = .ok base ∧ d ∈ mail home base ∧
      d.Bears far ⟨made ++ calls, ret, tv⟩ token ∧ ecIsRespCode (calledCode (made ++ calls) ecRcUnset) := by
  obtain ⟨srv, stored, live, drafting⟩ := drafted.server
  obtain ⟨res, isCon, answers⟩ := responds srv stored
  have drafts : (b.work own srv).srv.Drafting far req token made := drafting
  obtain ⟨w, s, worked, logged, peer, bears, code⟩ := drafts.wakes answers legible ret tv
  have finished : baseStep far b (.wakeup own calls env) = .ok (b.store w) := by
    dsimp only [baseStep]
    rw [stored]
    dsimp only
    rw [if_neg (by simp [live]), worked]
    rfl
  have work := ServerWork.wakeup own calls env srv w 0 stored live worked
  obtain ⟨hosting, here, _⟩ := drafted.toHosting.worked work rfl (by simp) finished
  have addressed : s.datagram.peer = home := peer.trans (drafted.talks stored live)
  exact ⟨b.store w, s.datagram, finished, sent_mail hosting.beside.orderly.settled here logged addressed, bears, code⟩

end Steps

section Runs

variable {near far : Platform} {home : SockAddr} {start : EcClient} {s : Dialogue}

end Runs

end Webthings.Network
