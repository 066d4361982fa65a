import Webthings.Evcoap.ClientPairing

namespace Webthings.Evcoap
open Webthings.Transition

/-- A client over all of its transactions, with the number of its resolver requests that are not answered yet. -/
structure ClientLife where
  work : CliWork
  resolving : Nat

/-- A client that the user has just made. -/
def ClientLife.new (w : CliWork) : ClientLife := ⟨w, 0⟩

/-- What the user does with a client by `ec_request_send`, and what happens to it by itself. -/
inductive LifeEvent where
  | send (tout : Option TimeVal) (destination : Bool)
  | event (event : ClientEvent)

/-- The resolver calls back once for each request, and nothing cancels a request when the client is freed. -/
def lifeStep (platform : Platform) (life : ClientLife) (event : LifeEvent) : Except EcFault ClientLife :=
  match event with
  | .send tout destination =>
      if life.work.cli.freed then .ok life
      else
        (ecClientGo platform life.work tout destination).map fun gone =>
          ⟨gone.1, if gone.2 = 0 then life.resolving + 1 else life.resolving⟩
  | .event (.dns env) =>
      if life.resolving = 0 then .ok life
      else if life.work.cli.freed then .error .disposed
      else (ecClientDnsCb platform env life.work).map fun work => ⟨work, life.resolving - 1⟩
  | .event event => (clientStep platform life.work event).map fun work => ⟨work, life.resolving⟩

def lifeMachine (platform : Platform) : Machine ClientLife LifeEvent EcFault := ⟨lifeStep platform⟩

section Steps

variable {platform : Platform} {life : ClientLife}

theorem lifeStep_send (tout : Option TimeVal) (destination : Bool) (live : life.work.cli.freed = false) :
    lifeStep platform life (.send tout destination) =
      (ecClientGo platform life.work tout destination).map fun gone =>
        ⟨gone.1, if gone.2 = 0 then life.resolving + 1 else life.resolving⟩ :=
  if_neg (by simp [live])

/-- What the resolver has no part in is a step of the transaction. -/
theorem lifeStep_event {event : ClientEvent} (other : ∀ env, event ≠ .dns env) :
    lifeStep platform life (.event event) =
      (clientStep platform life.work event).map fun work => ⟨work, life.resolving⟩ := by
  cases event with
  | dns env => exact absurd rfl (other env)
  | datagram | appTimeout | coapTimeout | obsTimeout | cancel | shared => rfl

/-- Nothing happens to a disposed client any more. -/
theorem lifeStep_freed {next : ClientLife} {event : LifeEvent} (freed : life.work.cli.freed = true)
    (stepped : lifeStep platform life event = .ok next) : next = life := by
  cases event with
  | send tout destination =>
      unfold lifeStep at stepped
      dsimp only at stepped
      rw [if_pos freed] at stepped
      cases stepped
      rfl
  | event event =>
      by_cases resolver : ∃ env, event = .dns env
      · obtain ⟨env, rfl⟩ := resolver
        unfold lifeStep at stepped
        dsimp only at stepped
        rw [if_pos freed] at stepped
        split at stepped <;> cases stepped
        rfl
      · rw [lifeStep_event (fun env same => resolver ⟨env, same⟩)] at stepped
        unfold clientStep at stepped
        rw [if_pos freed] at stepped
        cases stepped
        rfl

/-- The resolver's callback is made while a request is outstanding. -/
theorem lifeStep_dns (env : DnsEnv) (live : life.work.cli.freed = false) :
    lifeStep platform life (.event (.dns env)) =
      if life.resolving = 0 then .ok life
      else (ecClientDnsCb platform env life.work).map fun work => ⟨work, life.resolving - 1⟩ := by
  have alive : ¬ life.work.cli.freed = true := by simp [live]
  unfold lifeStep
  dsimp only
  rw [if_neg alive]

/-- The work that a step gives to a client: `next` is the life after it. -/
inductive LifeWork (platform : Platform) (life : ClientLife) : LifeEvent → ClientLife → Prop where
  | disposed (event : LifeEvent) (freed : life.work.cli.freed = true) : LifeWork platform life event life
  | asked (tout : Option TimeVal) (destination : Bool) (live : life.work.cli.freed = false)
      (goes : (life.work.cli.state = .none ∨ ecClientStateIsFinal life.work.cli.state = true) ∧ destination = true) :
      LifeWork platform life (.send tout destination)
        ⟨{life.work with
          cli := {life.work.cli with
            app := {life.work.cli.app with tout := tout.getD ⟨ecTimersAppTout, 0⟩}
            dnsReq := true}}, life.resolving + 1⟩
  | refused (tout : Option TimeVal) (destination : Bool) (gone : CliWork × Int) (live : life.work.cli.freed = false)
      (stays : ¬ ((life.work.cli.state = .none ∨ ecClientStateIsFinal life.work.cli.state = true) ∧ destination = true))
      (ended : (ecClientSetState platform false life.work .internalErr).map (fun moved => (moved.1, -1)) = .ok gone) :
      LifeWork platform life (.send tout destination) ⟨gone.1, life.resolving⟩
  | unasked (env : DnsEnv) (live : life.work.cli.freed = false) (answered : life.resolving = 0) :
      LifeWork platform life (.event (.dns env)) life
  | resolved (env : DnsEnv) (work : CliWork) (live : life.work.cli.freed = false) (outstanding : life.resolving ≠ 0)
      (called : ecClientDnsCb platform env life.work = .ok work) :
      LifeWork platform life (.event (.dns env)) ⟨work, life.resolving - 1⟩
  | other (event : ClientEvent) (work : CliWork) (live : life.work.cli.freed = false) (other : ∀ env, event ≠ .dns env)
      (worked : clientStep platform life.work event = .ok work) :
      LifeWork platform life (.event event) ⟨work, life.resolving⟩

/-- A step asks the resolver or refuses to, hears from it, or is a step of the transaction. -/
theorem lifeStep_work {next : ClientLife} {event : LifeEvent} (stepped : lifeStep platform life event = .ok next) :
    LifeWork platform life event next := by
  cases freed : life.work.cli.freed with
  | true =>
      rw [lifeStep_freed freed stepped]
      exact .disposed event freed
  | false =>
      cases event with
      | send tout destination =>
          rw [lifeStep_send tout destination freed] at stepped
          obtain ⟨gone, going, same⟩ := map_ok stepped
          subst same
          unfold ecClientGo at going
          split at going
          · rename_i goes
            cases going
            exact .asked tout destination freed goes
          · rename_i stays
            obtain ⟨moved, _, outcome⟩ := map_ok going
            subst outcome
            exact .refused tout destination _ freed stays going
      | event event =>
          by_cases resolver : ∃ env, event = .dns env
          · obtain ⟨env, rfl⟩ := resolver
            rw [lifeStep_dns env freed] at stepped
            split at stepped
            · rename_i answered
              cases stepped
              exact .unasked env freed answered
            · rename_i outstanding
              obtain ⟨work, called, same⟩ := map_ok stepped
              subst same
              exact .resolved env work freed outstanding called
          · have other : ∀ env, event ≠ .dns env := fun env same => resolver ⟨env, same⟩
            rw [lifeStep_event other] at stepped
            obtain ⟨work, worked, same⟩ := map_ok stepped
            subst same
            exact .other event work freed other worked

section Timers

variable (sent : Bool)

/-- A timer calls back when it is armed. -/
theorem lifeStep_appTimeout (live : life.work.cli.freed = false) :
    lifeStep platform life (.event (.appTimeout sent)) =
      if life.work.cli.app.pending then
        (ecCliAppTimeout platform sent {life.work with cli := {life.work.cli with app := life.work.cli.app.fired}}).map
          fun work => ⟨work, life.resolving⟩
      else .ok life := by
  rw [lifeStep_event (fun env same => by cases same), clientStep, if_neg (by simp [live])]
  dsimp only
  split <;> rfl

theorem lifeStep_coapTimeout (live : life.work.cli.freed = false) :
    lifeStep platform life (.event (.coapTimeout sent)) =
      if life.work.cli.coap.pending then
        (ecCliCoapTimeout platform sent {life.work with cli := {life.work.cli with coap := life.work.cli.coap.fired}}).map
          fun work => ⟨work, life.resolving⟩
      else .ok life := by
  rw [lifeStep_event (fun env same => by cases same), clientStep, if_neg (by simp [live])]
  dsimp only
  split <;> rfl

theorem lifeStep_obsTimeout (live : life.work.cli.freed = false) :
    lifeStep platform life (.event (.obsTimeout sent)) =
      if life.work.cli.obs.pending then
        (ecCliObsTimeout platform sent {life.work with cli := {life.work.cli with obs := life.work.cli.obs.fired}}).map
          fun work => ⟨work, life.resolving⟩
      else .ok life := by
  rw [lifeStep_event (fun env same => by cases same), clientStep, if_neg (by simp [live])]
  dsimp only
  split <;> rfl

end Timers

/-- A datagram that is heard is handled. -/
theorem lifeStep_hears {input : Incoming} {h : EcHdr} (hears : life.work.Hears platform input h) :
    lifeStep platform life (.event (.datagram input)) =
      (ecClientHandleNew platform (life.work.seen platform input h) h input).map fun handled =>
        ⟨handled.1, life.resolving⟩ := by
  change (clientStep platform life.work (.datagram input)).map _ = _
  rw [clientStep_hears hears]
  cases ecClientHandleNew platform (life.work.seen platform input h) h input <;> rfl

end Steps

end Webthings.Evcoap
