import Webthings.Evcoap.ClientPairing

namespace Webthings.Evcoap
open Webthings.Transition

/-- The encoding of a request leaves another one. -/
def EcPdu.EncodedTo (pdu req : EcPdu) : Prop := ∃ order rng flow, req = (ecPduEncodeRequest order rng flow pdu).1

/-- A property of a client that its transitions to some states keep, those of a send among them, and that does not
depend on what a send changes. -/
structure KeptBySends (platform : Platform) (reach : EcCliState → Prop) (kept : EcClient → Prop) : Prop where
  sends : reach .reqSent
  fails : reach .internalErr
  moves : ∀ sent w next moved, reach next → ecClientSetState platform sent w next = .ok moved → kept w.cli →
    kept moved.1.cli
  flow : ∀ cli flow, flow.conn.isConfirmable = cli.flow.conn.isConfirmable → kept cli → kept {cli with flow := flow}
  req : ∀ cli req, cli.req.EncodedTo req → kept cli → kept {cli with req := req}
  log : ∀ cli purpose datagram, kept cli → kept (cli.log purpose datagram)

section Frame

variable {platform : Platform} {reach : EcCliState → Prop} {kept : EcClient → Prop} {w : CliWork}

/-- A mapped transition keeps the property. -/
theorem KeptBySends.mapped (frame : KeptBySends platform reach kept) {sent : Bool} {next : EcCliState} {Result : Type}
    {f : CliWork × Bool → Result} {result : Result} (reached : reach next) (start : kept w.cli)
    (done : (ecClientSetState platform sent w next).map f = .ok result) :
    ∃ moved, f moved = result ∧ kept moved.1.cli := by
  obtain ⟨moved, made, same⟩ := map_ok done
  exact ⟨moved, same, frame.moves sent w next moved reached made start⟩

theorem KeptBySends.connect (frame : KeptBySends platform reach kept) {ais : List AddrInfo} {opened : CliWork × Bool}
    (start : kept w.cli) (done : ecClientConnect platform ais w = .ok opened) : kept opened.1.cli := by
  induction ais generalizing w with
  | nil =>
      cases done
      exact start
  | cons ai ais ih =>
      have rerouted : ∀ flow : EcFlow, flow.conn.isConfirmable = w.cli.flow.conn.isConfirmable →
          kept {w.cli with flow := flow} := fun flow same => frame.flow w.cli flow same start
      unfold ecClientConnect at done
      dsimp only at done
      split at done
      · apply ih ?_ done
        exact rerouted _ rfl
      · split at done
        · cases done
          exact rerouted _ rfl
        · split at done
          · apply ih ?_ done
            exact rerouted _ rfl
          · have sent : ∀ flow datagram, flow.conn.isConfirmable = w.cli.flow.conn.isConfirmable →
                kept ({w.cli with flow := flow}.log .request datagram) := fun flow datagram same =>
              frame.log _ .request datagram (rerouted flow same)
            split at done
            · obtain ⟨moved, same, left⟩ := frame.mapped frame.sends (by exact sent _ _ rfl) done
              subst same
              exact left
            · obtain ⟨moved, same, left⟩ := frame.mapped frame.fails (by exact sent _ _ rfl) done
              subst same
              exact left

theorem KeptBySends.open (frame : KeptBySends platform reach kept) {env : DnsEnv} {ais : List AddrInfo}
    {opened : CliWork × Bool} (start : kept w.cli) (done : ecClientOpen platform env ais w = .ok opened) :
    kept opened.1.cli := by
  unfold ecClientOpen at done
  dsimp only at done
  split at done
  · have sent := fun datagram => frame.log w.cli .request datagram start
    split at done
    · obtain ⟨moved, same, left⟩ := frame.mapped frame.fails (by exact sent _) done
      subst same
      exact left
    · obtain ⟨moved, same, left⟩ := frame.mapped frame.sends (by exact sent _) done
      subst same
      exact left
  · exact frame.connect (by exact frame.flow w.cli _ rfl start) done

/-- The resolver's callback keeps what its first transition leaves. -/
theorem KeptBySends.resolved (frame : KeptBySends platform reach kept) {env : DnsEnv} {w' : CliWork}
    (first : ∀ next moved, next = .dnsFailed ∨ next = .dnsOk →
      ecClientSetState platform false {w with cli := {w.cli with dnsReq := false}} next = .ok moved → kept moved.1.cli)
    (registers : ∀ cli, kept cli → kept {cli with registered := true})
    (done : ecClientDnsCb platform env w = .ok w') : kept w'.cli := by
  have stored : ecClientCheckTransition w.cli.state .dnsOk = true → kept (w.addressed platform env.rng).cli := by
    intro permitted
    have still : kept (EcClient.enter {w.cli with dnsReq := false} .dnsOk) :=
      first _ _ (Or.inr rfl) (ecClientSetState_idle (Or.inl rfl) permitted)
    exact frame.req (EcClient.enter {w.cli with dnsReq := false} .dnsOk) _
      ⟨platform.order, env.rng, w.cli.flow, rfl⟩ still
  cases ecClientDnsCb_work done with
  | unresolved absent ended =>
      obtain ⟨moved, made, same⟩ := map_ok ended
      subst same
      exact first _ _ (Or.inl rfl) made
  | unencoded ais found permitted refused ended =>
      obtain ⟨moved, same, left⟩ := frame.mapped frame.fails (stored permitted) ended
      subst same
      exact left
  | opened ais found permitted encoded opened goesOn opening ended =>
      have sending : kept opened.cli := frame.open (stored permitted) opening
      rcases ended with ⟨_, same⟩ | ⟨_, _, failed⟩ | ⟨_, _, same⟩
      · rw [← same]
        exact sending
      · obtain ⟨moved, same, left⟩ := frame.mapped frame.fails sending failed
        subst same
        exact left
      · rw [← same]
        exact registers _ sending

theorem KeptBySends.retransmitted (frame : KeptBySends platform reach kept) {sent : Bool} {w' : CliWork}
    (expires : reach .coapTimeout) (retries : reach .coapRetry) (fails : reach .sendFailed) (start : kept w.cli)
    (done : ecCliCoapTimeout platform sent w = .ok w') : kept w'.cli := by
  unfold ecCliCoapTimeout at done
  split at done
  · obtain ⟨moved, same, left⟩ := frame.mapped expires start done
    subst same
    exact left
  · split at done
    · cases done
    · rename_i retried _ made
      have still : kept retried.cli := frame.moves _ _ _ _ retries made start
      have reached : ∀ went : Bool, reach (if went then .reqSent else .sendFailed) := by
        intro went
        cases went with
        | true => exact frame.sends
        | false => exact fails
      obtain ⟨moved, same, left⟩ := frame.mapped (reached _) (by exact frame.log retried.cli .request _ still) done
      subst same
      exact left

end Frame

end Webthings.Evcoap
