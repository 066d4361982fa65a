import Webthings.Memory.Leases
import Webthings.Evcoap.ClientList
import Webthings.Evcoap.ClientTimers
import Webthings.Evcoap.ClientTrace

namespace Webthings.Evcoap
open Webthings.Memory Webthings.Transition

/-- The descriptors that the socket of a connection stands for. -/
def EcConn.descriptors (conn : EcConn) : List Int := if conn.socket = -1 then [] else [conn.socket]

/-- The second half of the result lists the descriptors that were closed. -/
def ecConnTerm (conn : EcConn) (doNotCloseSocket : Bool) : EcConn × List Int :=
  if conn.socket ≠ -1 ∧ doNotCloseSocket = false then ({conn with socket := -1}, [conn.socket]) else (conn, [])

def ecFlowTerm (flow : EcFlow) (doNotCloseSocket : Bool) : EcFlow × List Int :=
  let termed := ecConnTerm flow.conn doNotCloseSocket
  ({flow with conn := termed.1}, termed.2)

/-- The client is unregistered, its flow ends, and its memory is freed. -/
def ecClientFree (cli : EcClient) : EcClient × List Int :=
  let termed := ecFlowTerm cli.flow false
  ({cli with flow := termed.1, resSet := [], registered := false, freed := true}, termed.2)

/-- What the loop over the addresses does with sockets. -/
def ecClientConnectSockets : List AddrInfo → List (Lease Int)
  | [] => []
  | ai :: ais =>
      if ai.socket = -1 then ecClientConnectSockets ais
      else
        match ecNetSocklen ai.addr with
        | none => [.acquire ai.socket]
        | some _ =>
            if ai.sent = false then .acquire ai.socket :: .release ai.socket :: ecClientConnectSockets ais
            else [.acquire ai.socket]

/-- The resolver's callback comes to the loop over the addresses. -/
def EcClient.Reaches (platform : Platform) (env : DnsEnv) (cli : EcClient) : Prop :=
  env.ais.isSome ∧ (ecPduEncodeRequest platform.order env.rng cli.flow cli.req).2 = 0 ∧ ¬ cli.flow.conn.socket > 0

instance (platform : Platform) (env : DnsEnv) (cli : EcClient) : Decidable (cli.Reaches platform env) :=
  inferInstanceAs (Decidable (_ ∧ _))

/-- The event is a callback of the resolver that comes to the loop over the addresses. -/
def ClientLife.Reaches (platform : Platform) (life : ClientLife) (event : LifeEvent) : Prop :=
  match event with
  | .event (.dns env) => life.resolving ≠ 0 ∧ life.work.cli.Reaches platform env
  | _ => False

/-- What the loop over the addresses, if the event comes to it, does with sockets. -/
def ClientLife.opens (platform : Platform) (life : ClientLife) (event : LifeEvent) : List (Lease Int) :=
  match event with
  | .event (.dns env) =>
      if life.resolving ≠ 0 ∧ life.work.cli.Reaches platform env then ecClientConnectSockets (env.ais.getD []) else []
  | _ => []

/-- A client with all that was done with sockets for it, in order. -/
structure SocketLife where
  life : ClientLife
  sockets : List (Lease Int)

/-- A client that the user has just made. -/
def SocketLife.new (w : CliWork) : SocketLife := ⟨.new w, []⟩

/-- What happens to a client until its memory is freed: by itself in a final state, or by `ec_client_free`, which the user
calls, the end of the base, and the creation that fails. -/
inductive SocketEvent where
  | live (event : LifeEvent)
  | free

/-- The flow of a client that the engine frees ends as in `ec_client_free`. -/
def socketStep (platform : Platform) (s : SocketLife) (event : SocketEvent) : Except EcFault SocketLife :=
  match event with
  | .live event =>
      (lifeStep platform s.life event).map fun next =>
        ⟨next, s.sockets ++
          if s.life.work.cli.freed then []
          else s.life.opens platform event ++
            if next.work.cli.freed then (ecClientFree next.work.cli).2.map .release else []⟩
  | .free =>
      if s.life.work.cli.freed then .error .disposed
      else
        let freed := ecClientFree s.life.work.cli
        .ok ⟨⟨{s.life.work with cli := freed.1}, s.life.resolving⟩, s.sockets ++ freed.2.map .release⟩

def socketMachine (platform : Platform) : Machine SocketLife SocketEvent EcFault := ⟨socketStep platform⟩

/-- No socket has been opened for the client, nor was it tried. -/
def SocketLife.Unopened (s : SocketLife) : Prop := s.sockets = [] ∧ s.life.work.cli.flow.conn.socket ≠ -1

/-- The event ends the transaction of a client that the engine owns, unless a request is sent: the destination cannot be
worked out, or the resolver calls back. -/
def ClientLife.GivesUp (life : ClientLife) (event : LifeEvent) : Prop :=
  life.work.cli.userown = false ∧
    match event with
    | .send _ destination => destination = false
    | .event (.dns _) => life.resolving ≠ 0
    | .event _ => False

/-- The event frees the client before it has come to the loop over the addresses. -/
def SocketLife.EndsEarly (platform : Platform) (s : SocketLife) (event : SocketEvent) : Prop :=
  s.Unopened ∧
    match event with
    | .free => True
    | .live event => s.life.GivesUp event ∧ ¬ s.life.Reaches platform event

/-- The event opens a socket for a client that has one, the descriptor 0, which passes for none. -/
def SocketLife.Forgets (platform : Platform) (s : SocketLife) (event : SocketEvent) : Prop :=
  ¬ s.Unopened ∧ s.life.work.cli.flow.conn.socket ≠ -1 ∧
    match event with
    | .free => False
    | .live event => s.life.Reaches platform event

/-- The event neither ends the client before the loop over the addresses nor makes it forget a socket. -/
def SocketLife.Careful (platform : Platform) (s : SocketLife) (event : SocketEvent) : Prop :=
  s.life.work.cli.freed = false → ¬ s.EndsEarly platform event ∧ ¬ s.Forgets platform event

theorem EcConn.descriptors_congr {conn conn' : EcConn} (same : conn'.socket = conn.socket) :
    conn'.descriptors = conn.descriptors := by
  unfold descriptors
  rw [same]

/-- A connection with a socket has its descriptor. -/
theorem EcConn.descriptors_open {conn : EcConn} (opened : conn.socket ≠ -1) : conn.descriptors = [conn.socket] :=
  if_neg opened

theorem ecClientFree_closes (cli : EcClient) : (ecClientFree cli).2 = cli.flow.conn.descriptors := by
  unfold ecClientFree ecFlowTerm ecConnTerm EcConn.descriptors
  by_cases closed : cli.flow.conn.socket = -1
  · simp [closed]
  · simp [closed]

section Connecting

variable {platform : Platform}

/-- The loop leaves open what the client keeps. -/
theorem ecClientConnect_sockets {ais : List AddrInfo} {w : CliWork} {opened : CliWork × Bool}
    (closed : w.cli.flow.conn.socket = -1) (done : ecClientConnect platform ais w = .ok opened) (held : List Int) :
    Lease.heldAfter (ecClientConnectSockets ais) held = some (opened.1.cli.flow.conn.descriptors ++ held) := by
  induction ais generalizing w with
  | nil =>
      cases done
      unfold EcConn.descriptors
      rw [if_pos closed]
      rfl
  | cons ai ais ih =>
      rw [ecClientConnectSockets]
      by_cases unopened : ai.socket = -1
      · rw [ecClientConnect_unopened unopened] at done
        rw [if_pos unopened]
        exact ih (w := {w with cli := w.cli.routed (-1) w.cli.flow.conn.peer}) rfl done
      · have kept : ∀ conn : EcConn, conn.socket = ai.socket →
            Lease.heldAfter [.acquire ai.socket] held = some (conn.descriptors ++ held) := by
          intro conn same
          unfold EcConn.descriptors
          rw [same, if_neg unopened]
          rfl
        rw [if_neg unopened]
        cases known : ecNetSocklen ai.addr with
        | none =>
            rw [ecClientConnect_unknown unopened known] at done
            cases done
            exact kept _ rfl
        | some length =>
            dsimp only
            cases went : ai.sent with
            | false =>
                rw [ecClientConnect_failed unopened known went] at done
                rw [if_pos rfl, Lease.heldAfter, Lease.heldAfter, if_pos List.mem_cons_self, List.erase_cons_head]
                exact ih (w := ⟨w.cli.routed (-1) ai.addr, _⟩) rfl done
            | true =>
                rw [ecClientConnect_taken unopened known went] at done
                obtain ⟨moved, made, same⟩ := map_ok done
                subst same
                rw [if_neg (by decide)]
                apply kept
                rw [(ecClientSetState_line made).1]
                rfl

/-- A transition leaves the connection as it is. -/
theorem conn_of_map {Result : Type} {sent : Bool} {w : CliWork} {next : EcCliState} {f : CliWork × Bool → Result}
    {result : Result} (done : (ecClientSetState platform sent w next).map f = .ok result) :
    ∃ moved, f moved = result ∧ moved.1.cli.flow.conn = w.cli.flow.conn := by
  obtain ⟨moved, made, same⟩ := map_ok done
  exact ⟨moved, same, by rw [(ecClientSetState_line made).1]⟩

/-- A client with a socket sends its request there, and any other one comes to the loop. -/
theorem ecClientOpen_sockets {env : DnsEnv} {ais : List AddrInfo} {w : CliWork} {opened : CliWork × Bool}
    (done : ecClientOpen platform env ais w = .ok opened) :
    if w.cli.flow.conn.socket > 0 then opened.1.cli.flow.conn = w.cli.flow.conn
    else ∀ held, Lease.heldAfter (ecClientConnectSockets ais) held =
      some (opened.1.cli.flow.conn.descriptors ++ held) := by
  by_cases positive : w.cli.flow.conn.socket > 0
  · rw [if_pos positive]
    unfold ecClientOpen at done
    rw [if_pos positive] at done
    dsimp only at done
    split at done
    · obtain ⟨moved, same, kept⟩ := conn_of_map done
      rw [← same]
      exact kept
    · obtain ⟨moved, same, kept⟩ := conn_of_map done
      rw [← same]
      exact kept
  · rw [if_neg positive]
    rw [ecClientOpen_unconnected positive] at done
    exact ecClientConnect_sockets rfl done

/-- The resolver's callback leaves open what the client keeps, when it comes to the loop, and else the socket alone. -/
theorem ecClientDnsCb_sockets {env : DnsEnv} {w next : CliWork} (done : ecClientDnsCb platform env w = .ok next) :
    (w.cli.Reaches platform env ∧ ∀ held, Lease.heldAfter (ecClientConnectSockets (env.ais.getD [])) held =
      some (next.cli.flow.conn.descriptors ++ held)) ∨
    ¬ w.cli.Reaches platform env ∧ next.cli.flow.conn.socket = w.cli.flow.conn.socket := by
  cases ecClientDnsCb_work done with
  | unresolved absent ended =>
      obtain ⟨moved, same, kept⟩ := conn_of_map ended
      refine Or.inr ⟨fun reaches => ?_, by rw [← same, kept]⟩
      have some := reaches.1
      rw [absent] at some
      cases some
  | unencoded ais found permitted refused ended =>
      obtain ⟨moved, same, kept⟩ := conn_of_map ended
      refine Or.inr ⟨fun reaches => refused reaches.2.1, ?_⟩
      rw [← same, kept]
      rfl
  | opened ais found permitted encoded opened goesOn opening ended =>
      have sockets := ecClientOpen_sockets opening
      have settled : next.cli.flow.conn = opened.cli.flow.conn := by
        rcases ended with ⟨_, same⟩ | ⟨_, _, failed⟩ | ⟨_, _, same⟩
        · rw [same]
        · obtain ⟨moved, same, kept⟩ := conn_of_map failed
          rw [← same, kept]
        · rw [← same]
      rw [settled, found]
      by_cases positive : w.cli.flow.conn.socket > 0
      · rw [if_pos (by exact positive)] at sockets
        refine Or.inr ⟨fun reaches => reaches.2.2 positive, ?_⟩
        rw [sockets]
        rfl
      · rw [if_neg (by exact positive)] at sockets
        exact Or.inl ⟨⟨by rw [found]; rfl, encoded, positive⟩, sockets⟩

/-- A message that is handled leaves the socket alone. -/
theorem ecClientHandleNew_socket {w : CliWork} {h : EcHdr} {input : Incoming} {handled : CliWork × EcNetCbrc}
    (done : ecClientHandleNew platform w h input = .ok handled) :
    handled.1.cli.flow.conn = w.cli.flow.conn := by
  by_cases code : h.code = 0
  · rcases ecClientHandleNew_empty code done with ⟨next, moved, _, made, same⟩ | ⟨_, _, same⟩
    · rw [same, (ecClientSetState_line made).1]
    · rw [same]
  · by_cases taken : w.cli.TakesIn h input
    · cases judged : w.cli.judged platform.order h input with
      | none =>
          rw [ecClientHandleNew_stale platform code taken judged] at done
          cases done
          rfl
      | some observe =>
          unfold ecClientHandleNew at done
          rw [if_neg code, ecClientTakeResponse_taken platform taken, judged] at done
          dsimp only at done
          obtain ⟨moved, same, kept⟩ := conn_of_map done
          rw [← same]
          split
          · exact kept
          · split
            · exact kept
            · exact kept
    · rw [ecClientHandleNew_refused platform code taken] at done
      cases done
      rfl

theorem ecCliCoapTimeout_socket {sent : Bool} {w next : CliWork} (done : ecCliCoapTimeout platform sent w = .ok next) :
    next.cli.flow.conn = w.cli.flow.conn := by
  unfold ecCliCoapTimeout at done
  split at done
  · obtain ⟨moved, same, kept⟩ := conn_of_map done
    rw [← same, kept]
  · split at done
    · cases done
    · rename_i retried ended retrying
      obtain ⟨moved, same, kept⟩ := conn_of_map done
      rw [← same, kept]
      exact congrArg EcFlow.conn (ecClientSetState_line retrying).1

/-- Only the resolver's callback changes the socket. -/
theorem clientStep_socket {w next : CliWork} {event : ClientEvent} (other : ∀ env, event ≠ .dns env)
    (stepped : clientStep platform w event = .ok next) : next.cli.flow.conn = w.cli.flow.conn := by
  cases clientStep_work stepped with
  | idle event => rfl
  | resolved env next worked => exact absurd rfl (other env)
  | heard input h handled hears worked =>
      have kept := ecClientHandleNew_socket worked
      exact kept
  | appTimeout sent next worked =>
      obtain ⟨moved, same, kept⟩ := conn_of_map worked
      rw [← same, kept]
  | coapTimeout sent next worked =>
      have kept := ecCliCoapTimeout_socket worked
      exact kept
  | obsTimeout sent next worked =>
      obtain ⟨moved, same, kept⟩ := conn_of_map worked
      rw [← same, kept]
  | cancel => rfl
  | shared dups => rfl

/-- What a step of a live client does with sockets leaves open what the client keeps. -/
theorem lifeStep_sockets {life next : ClientLife} {event : LifeEvent} (live : life.work.cli.freed = false)
    (stepped : lifeStep platform life event = .ok next) :
    (life.Reaches platform event ∧ ∀ held, Lease.heldAfter (life.opens platform event) held =
      some (next.work.cli.flow.conn.descriptors ++ held)) ∨
    ¬ life.Reaches platform event ∧ life.opens platform event = [] ∧
      next.work.cli.flow.conn.socket = life.work.cli.flow.conn.socket := by
  cases lifeStep_work stepped with
  | disposed event freed => exact absurd (live.symm.trans freed) (by decide)
  | asked tout destination live goes => exact Or.inr ⟨id, rfl, rfl⟩
  | refused tout destination gone live stays ended =>
      obtain ⟨moved, same, kept⟩ := conn_of_map ended
      refine Or.inr ⟨id, rfl, ?_⟩
      rw [← same, kept]
  | unasked env live answered =>
      exact Or.inr ⟨fun reaches => reaches.1 answered, if_neg fun both => both.1 answered, rfl⟩
  | resolved env work live outstanding called =>
      unfold ClientLife.opens
      dsimp only
      rcases ecClientDnsCb_sockets called with ⟨reaches, sockets⟩ | ⟨stays, kept⟩
      · rw [if_pos ⟨outstanding, reaches⟩]
        exact Or.inl ⟨⟨outstanding, reaches⟩, sockets⟩
      · exact Or.inr ⟨fun reaches => stays reaches.2, if_neg fun both => stays both.2, kept⟩
  | other event work live other worked =>
      refine Or.inr ⟨?_, ?_, congrArg EcConn.socket (clientStep_socket other worked)⟩
      · cases event with
        | dns env => exact absurd rfl (other env)
        | datagram | appTimeout | coapTimeout | obsTimeout | cancel | shared => exact id
      · cases event with
        | dns env => exact absurd rfl (other env)
        | datagram | appTimeout | coapTimeout | obsTimeout | cancel | shared => rfl

/-- A client that has not come to the loop over the addresses yet: it waits for nothing but the resolver. -/
structure EcClient.Unstarted (cli : EcClient) : Prop where
  live : cli.freed = false
  state : cli.state = .none ∨ ecClientStateIsFinal cli.state = true
  clocked : cli.Clocked
  registered : cli.registered = false
  socket : cli.flow.conn.socket = 0

/-- The user keeps his client in a final state, and the engine frees its own. -/
theorem ecClientSetState_freed {sent : Bool} {w : CliWork} {next : EcCliState} {moved : CliWork × Bool}
    (final : ecClientStateIsFinal next = true) (made : ecClientSetState platform sent w next = .ok moved) :
    moved.1.cli.freed = (w.cli.freed || !w.cli.userown) := by
  obtain ⟨entered, log, entering, ⟨_, ended⟩ | ⟨_, goesOn, _⟩⟩ := ecClientSetState_made made
  · obtain ⟨app, coap, obs, sent, framed⟩ := ecClientEnter_frame entering
    rw [ended, ecClientFinish_freed, framed]
    rfl
  · rw [final] at goesOn
    cases goesOn

namespace EcClient.Unstarted

variable {life next : ClientLife} {event : LifeEvent}

/-- What the end of a transaction makes of a client. -/
structure Ended (cli next : EcClient) : Prop where
  final : ecClientStateIsFinal next.state = true
  freed : next.freed = !cli.userown
  registered : next.freed = false → next.registered = cli.registered

/-- A mapped transition into a final state frees the client of the engine, and keeps the user's. -/
theorem mapped {sent : Bool} {w : CliWork} {state : EcCliState} {Result : Type} {f : CliWork × Bool → Result}
    {result : Result} (live : w.cli.freed = false) (final : ecClientStateIsFinal state = true)
    (done : (ecClientSetState platform sent w state).map f = .ok result) :
    ∃ moved, f moved = result ∧ Ended w.cli moved.1.cli := by
  obtain ⟨moved, made, same⟩ := map_ok done
  refine ⟨moved, same, by rw [ecClientSetState_state made]; exact final, ?_, fun kept => ?_⟩
  · rw [ecClientSetState_freed final made, live]
    rfl
  · rcases ecClientSetState_keeps made with freed | ⟨_, registered⟩
    · exact absurd (kept.symm.trans freed) (by decide)
    · exact registered

/-- The resolver's callback ends the transaction, unless it comes to the loop. -/
theorem dnsCb {w next : CliWork} {env : DnsEnv} (unstarted : w.cli.Unstarted) (stays : ¬ w.cli.Reaches platform env)
    (done : ecClientDnsCb platform env w = .ok next) : Ended w.cli next.cli := by
  cases ecClientDnsCb_work done with
  | unresolved absent ended =>
      obtain ⟨moved, same, ⟨final, freed, registered⟩⟩ := mapped (by exact unstarted.live) (by decide) ended
      rw [← same]
      exact ⟨final, freed, registered⟩
  | unencoded ais found permitted refused ended =>
      obtain ⟨moved, same, ⟨final, freed, registered⟩⟩ := mapped (by exact unstarted.live) (by decide) ended
      rw [← same]
      exact ⟨final, freed, registered⟩
  | opened ais found permitted encoded opened goesOn opening ended =>
      refine absurd ⟨by rw [found]; rfl, encoded, ?_⟩ stays
      rw [unstarted.socket]
      decide

/-- Nothing but the user and the resolver moves a client that has not come to the loop. -/
theorem unmoved {w next : CliWork} {event : ClientEvent} (unstarted : w.cli.Unstarted) (other : ∀ env, event ≠ .dns env)
    (stepped : clientStep platform w event = .ok next) :
    next.cli.state = w.cli.state ∧ next.cli.freed = w.cli.freed ∧ next.cli.registered = w.cli.registered := by
  obtain ⟨noApp, noObs⟩ : w.cli.state.runsApp = false ∧ w.cli.state.runsObs = false := by
    rcases unstarted.state with first | final
    · rw [first]
      exact ⟨rfl, rfl⟩
    · exact final_runs final
  have quenched := EcClient.quenched_of_kept (unstarted.clocked.live unstarted.live) noApp noObs
  unfold clientStep at stepped
  rw [if_neg (by simp [unstarted.live])] at stepped
  cases event with
  | dns env => exact absurd rfl (other env)
  | datagram input =>
      dsimp only at stepped
      rw [if_neg (by simp [unstarted.registered])] at stepped
      cases stepped
      exact ⟨rfl, rfl, rfl⟩
  | appTimeout sent =>
      dsimp only at stepped
      rw [if_neg (by simp [quenched.app.2])] at stepped
      cases stepped
      exact ⟨rfl, rfl, rfl⟩
  | coapTimeout sent =>
      dsimp only at stepped
      rw [if_neg (by simp [quenched.coap.2])] at stepped
      cases stepped
      exact ⟨rfl, rfl, rfl⟩
  | obsTimeout sent =>
      dsimp only at stepped
      rw [if_neg (by simp [quenched.obs.2])] at stepped
      cases stepped
      exact ⟨rfl, rfl, rfl⟩
  | cancel =>
      cases stepped
      exact ⟨rfl, rfl, rfl⟩
  | shared dups =>
      cases stepped
      exact ⟨rfl, rfl, rfl⟩

/-- Without the loop, a client is freed by the events that end its transaction, and else goes on as it is. -/
theorem lifeStep (unstarted : life.work.cli.Unstarted) (stays : ¬ life.Reaches platform event)
    (stepped : lifeStep platform life event = .ok next) :
    (life.GivesUp event ∧ next.work.cli.freed = true) ∨ (¬ life.GivesUp event ∧ next.work.cli.Unstarted) := by
  have current : ¬ Overtakes platform life event := by
    intro overtakes
    cases event with
    | send tout destination => exact overtakes
    | event event =>
        cases event with
        | datagram input =>
            obtain ⟨h, hears, _⟩ := overtakes
            exact absurd (unstarted.registered.symm.trans hears.registered) (by decide)
        | dns | appTimeout | coapTimeout | obsTimeout | cancel | shared => exact overtakes
  have clocked := (lifeStep_clocked platform life event unstarted.clocked current).of_ok stepped
  have socket : next.work.cli.flow.conn.socket = 0 := by
    rcases lifeStep_sockets unstarted.live stepped with ⟨reaches, _⟩ | ⟨_, _, kept⟩
    · exact absurd reaches stays
    · rw [kept, unstarted.socket]
  have goesOn : ¬ life.GivesUp event → next.work.cli.state = life.work.cli.state →
      next.work.cli.freed = life.work.cli.freed → next.work.cli.registered = life.work.cli.registered →
      (life.GivesUp event ∧ next.work.cli.freed = true) ∨ (¬ life.GivesUp event ∧ next.work.cli.Unstarted) := by
    intro on state freed registered
    refine Or.inr ⟨on, freed.trans unstarted.live, ?_, clocked, registered.trans unstarted.registered, socket⟩
    rw [state]
    exact unstarted.state
  have ends : (life.work.cli.userown = false → life.GivesUp event) → Ended life.work.cli next.work.cli →
      (life.GivesUp event ∧ next.work.cli.freed = true) ∨ (¬ life.GivesUp event ∧ next.work.cli.Unstarted) := by
    intro gives ended
    cases owned : life.work.cli.userown with
    | false => exact Or.inl ⟨gives owned, by rw [ended.freed, owned]; rfl⟩
    | true =>
        have freed : next.work.cli.freed = false := by rw [ended.freed, owned]; rfl
        refine Or.inr ⟨fun given => ?_, freed, Or.inr ended.final, clocked, ?_, socket⟩
        · exact absurd (given.1.symm.trans owned) (by decide)
        · rw [ended.registered freed, unstarted.registered]
  cases lifeStep_work stepped with
  | disposed event freed => exact absurd (unstarted.live.symm.trans freed) (by decide)
  | asked tout destination live goes =>
      refine goesOn (fun given => ?_) rfl rfl rfl
      exact absurd (goes.2.symm.trans given.2) (by decide)
  | refused tout destination gone live fails ending =>
      obtain ⟨moved, same, ended⟩ := mapped unstarted.live (by decide) ending
      subst same
      refine ends (fun owned => ⟨owned, ?_⟩) ended
      cases found : destination with
      | false => rfl
      | true => exact absurd ⟨unstarted.state, found⟩ fails
  | unasked env live answered => exact goesOn (fun given => given.2 answered) rfl rfl rfl
  | resolved env work live outstanding called =>
      exact ends (fun owned => ⟨owned, outstanding⟩)
        (unstarted.dnsCb (fun reaches => stays ⟨outstanding, reaches⟩) called)
  | other event work live other worked =>
      obtain ⟨state, freed, registered⟩ := unstarted.unmoved other worked
      refine goesOn (fun given => ?_) state freed registered
      cases event with
      | dns env => exact other env rfl
      | datagram | appTimeout | coapTimeout | obsTimeout | cancel | shared => exact given.2

end EcClient.Unstarted

end Connecting

namespace SocketLife

variable {platform : Platform} {s next : SocketLife}

/-- The client has not come to the loop over the addresses, or it holds what was opened and not closed, or nothing is
left open of it. -/
inductive Tidy (s : SocketLife) : Prop where
  | unopened (empty : s.sockets = []) (unstarted : s.life.work.cli.Unstarted)
  | opened (live : s.life.work.cli.freed = false)
      (holds : Lease.heldAfter s.sockets [] = some s.life.work.cli.flow.conn.descriptors)
  | ended (freed : s.life.work.cli.freed = true) (balanced : Lease.Balanced s.sockets)

/-- More was opened than closed and than the client still holds, or more was closed. -/
def Spoilt (s : SocketLife) : Prop :=
  if s.life.work.cli.freed then (Lease.released s.sockets).length ≠ (Lease.acquired s.sockets).length
  else (Lease.released s.sockets).length + s.life.work.cli.flow.conn.descriptors.length <
    (Lease.acquired s.sockets).length

/-- What the end of a step does with sockets. -/
def closing (s : SocketLife) : List (Lease Int) :=
  if s.life.work.cli.freed then s.life.work.cli.flow.conn.descriptors.map .release else []

theorem step_freed {event : SocketEvent} (freed : s.life.work.cli.freed = true)
    (stepped : socketStep platform s event = .ok next) : next = s := by
  cases event with
  | live event =>
      obtain ⟨life, lived, same⟩ := map_ok stepped
      rw [← same, lifeStep_freed freed lived, if_pos freed, List.append_nil]
  | free =>
      unfold socketStep at stepped
      dsimp only at stepped
      rw [if_pos freed] at stepped
      cases stepped

theorem step_live {event : LifeEvent} (live : s.life.work.cli.freed = false)
    (stepped : socketStep platform s (.live event) = .ok next) :
    lifeStep platform s.life event = .ok next.life ∧
      next.sockets = s.sockets ++ s.life.opens platform event ++ next.closing := by
  obtain ⟨life, lived, same⟩ := map_ok stepped
  rw [← same]
  refine ⟨lived, ?_⟩
  unfold closing
  dsimp only
  rw [if_neg (by simp [live]), ecClientFree_closes, List.append_assoc]

theorem step_free (live : s.life.work.cli.freed = false) (stepped : socketStep platform s .free = .ok next) :
    next.life.work.cli.freed = true ∧
      next.sockets = s.sockets ++ s.life.work.cli.flow.conn.descriptors.map .release := by
  unfold socketStep at stepped
  dsimp only at stepped
  rw [if_neg (by simp [live])] at stepped
  cases stepped
  exact ⟨rfl, by rw [ecClientFree_closes]⟩

/-- A client that holds what was opened and not closed is tidy when its step is over. -/
theorem Tidy.of_holds {ops : List (Lease Int)}
    (holds : Lease.heldAfter ops [] = some next.life.work.cli.flow.conn.descriptors)
    (done : next.sockets = ops ++ next.closing) : next.Tidy := by
  unfold closing at done
  cases freed : next.life.work.cli.freed with
  | true =>
      rw [freed, if_pos rfl] at done
      apply Tidy.ended freed
      unfold Lease.Balanced
      rw [done, Lease.heldAfter_append, holds]
      exact Lease.heldAfter_releases _
  | false =>
      rw [freed, if_neg Bool.false_ne_true, List.append_nil] at done
      exact Tidy.opened freed (done ▸ holds)

/-- A client that has lost a descriptor is spoilt when its step is over. -/
theorem Spoilt.of_surplus {ops : List (Lease Int)}
    (surplus : (Lease.released ops).length + next.life.work.cli.flow.conn.descriptors.length <
      (Lease.acquired ops).length) (done : next.sockets = ops ++ next.closing) : next.Spoilt := by
  unfold closing at done
  unfold Spoilt
  cases freed : next.life.work.cli.freed with
  | true =>
      rw [freed, if_pos rfl] at done
      rw [if_pos rfl, done, Lease.released_append, Lease.acquired_append, Lease.released_releases,
        Lease.acquired_releases, List.append_nil, List.length_append]
      omega
  | false =>
      rw [freed, if_neg Bool.false_ne_true, List.append_nil] at done
      rw [if_neg Bool.false_ne_true, done]
      exact surplus

theorem unopened_of_unstarted (empty : s.sockets = []) (unstarted : s.life.work.cli.Unstarted) : s.Unopened := by
  refine ⟨empty, ?_⟩
  rw [unstarted.socket]
  decide

/-- Whoever holds what was opened has come to the loop. -/
theorem not_unopened (holds : Lease.heldAfter s.sockets [] = some s.life.work.cli.flow.conn.descriptors) :
    ¬ s.Unopened := by
  rintro ⟨empty, opened⟩
  rw [empty, EcConn.descriptors_open opened] at holds
  cases holds

/-- A careful step leaves a tidy client tidy. -/
theorem Tidy.step {event : SocketEvent} (tidy : s.Tidy) (careful : s.Careful platform event)
    (stepped : socketStep platform s event = .ok next) : next.Tidy := by
  cases tidy with
  | unopened empty unstarted =>
      have unopened := unopened_of_unstarted empty unstarted
      obtain ⟨late, _⟩ := careful unstarted.live
      cases event with
      | free => exact absurd ⟨unopened, trivial⟩ late
      | live event =>
          obtain ⟨lived, done⟩ := step_live unstarted.live stepped
          rw [empty, List.nil_append] at done
          rcases lifeStep_sockets unstarted.live lived with ⟨_, held⟩ | ⟨away, silent, _⟩
          · apply Tidy.of_holds ?_ done
            rw [held, List.append_nil]
          · rcases unstarted.lifeStep away lived with ⟨given, _⟩ | ⟨_, still⟩
            · exact absurd ⟨unopened, given, away⟩ late
            · apply Tidy.unopened ?_ still
              rw [done, silent, closing, if_neg (by simp [still.live])]
              rfl
  | opened live holds =>
      obtain ⟨_, remembers⟩ := careful live
      cases event with
      | free =>
          obtain ⟨freed, done⟩ := step_free live stepped
          apply Tidy.ended freed
          unfold Lease.Balanced
          rw [done, Lease.heldAfter_append, holds]
          exact Lease.heldAfter_releases _
      | live event =>
          obtain ⟨lived, done⟩ := step_live live stepped
          rcases lifeStep_sockets live lived with ⟨reaches, held⟩ | ⟨_, silent, kept⟩
          · have closed : s.life.work.cli.flow.conn.socket = -1 := by
              by_contra opened
              exact remembers ⟨not_unopened holds, opened, reaches⟩
            have none : s.life.work.cli.flow.conn.descriptors = [] := if_pos closed
            apply Tidy.of_holds ?_ done
            rw [Lease.heldAfter_append, holds, none, Option.bind_some, held, List.append_nil]
          · rw [silent, List.append_nil] at done
            apply Tidy.of_holds ?_ done
            rw [holds, EcConn.descriptors_congr kept]
  | ended freed balanced =>
      rw [step_freed freed stepped]
      exact Tidy.ended freed balanced

/-- A step that is not careful spoils a tidy client. -/
theorem Tidy.spoil {event : SocketEvent} (tidy : s.Tidy) (careless : ¬ s.Careful platform event)
    (stepped : socketStep platform s event = .ok next) : next.Spoilt := by
  cases tidy with
  | unopened empty unstarted =>
      have unopened := unopened_of_unstarted empty unstarted
      have closes : s.life.work.cli.flow.conn.descriptors = [0] := by
        rw [EcConn.descriptors_open unopened.2, unstarted.socket]
      have early : s.EndsEarly platform event := by
        by_contra late
        exact careless fun _ => ⟨late, fun forgets => forgets.1 unopened⟩
      unfold Spoilt
      cases event with
      | free =>
          obtain ⟨freed, done⟩ := step_free unstarted.live stepped
          rw [if_pos freed, done, empty, closes]
          decide
      | live event =>
          obtain ⟨_, given, away⟩ := early
          obtain ⟨lived, done⟩ := step_live unstarted.live stepped
          rcases lifeStep_sockets unstarted.live lived with ⟨reaches, _⟩ | ⟨_, silent, kept⟩
          · exact absurd reaches away
          · rcases unstarted.lifeStep away lived with ⟨_, freed⟩ | ⟨stays, _⟩
            · rw [if_pos freed, done, empty, silent, closing, if_pos freed, EcConn.descriptors_congr kept, closes]
              decide
            · exact absurd given stays
  | opened live holds =>
      have forgets : s.Forgets platform event := by
        by_contra remembers
        exact careless fun _ => ⟨fun early => not_unopened holds early.1, remembers⟩
      cases event with
      | free => exact absurd forgets.2.2 id
      | live event =>
          obtain ⟨_, opened, reaches⟩ := forgets
          obtain ⟨lived, done⟩ := step_live live stepped
          rcases lifeStep_sockets live lived with ⟨_, held⟩ | ⟨away, _, _⟩
          · have before := Lease.heldAfter_count holds
            have during := Lease.heldAfter_count (held [])
            rw [EcConn.descriptors_open opened] at before
            apply Spoilt.of_surplus ?_ done
            simp only [Lease.released_append, Lease.acquired_append, List.length_append, List.length_singleton,
              List.length_nil] at before during ⊢
            omega
          · exact absurd reaches away
  | ended freed balanced => exact absurd (fun live => absurd (live.symm.trans freed) (by decide)) careless

/-- What was lost stays lost. -/
theorem Spoilt.step {event : SocketEvent} (spoilt : s.Spoilt) (stepped : socketStep platform s event = .ok next) :
    next.Spoilt := by
  cases freed : s.life.work.cli.freed with
  | true =>
      rw [step_freed freed stepped]
      exact spoilt
  | false =>
      unfold Spoilt at spoilt
      rw [if_neg (by simp [freed])] at spoilt
      cases event with
      | free =>
          obtain ⟨ended, done⟩ := step_free freed stepped
          unfold Spoilt
          rw [if_pos ended, done, Lease.released_append, Lease.acquired_append, Lease.released_releases,
            Lease.acquired_releases, List.append_nil, List.length_append]
          omega
      | live event =>
          obtain ⟨lived, done⟩ := step_live freed stepped
          apply Spoilt.of_surplus ?_ done
          rw [Lease.released_append, Lease.acquired_append, List.length_append, List.length_append]
          rcases lifeStep_sockets freed lived with ⟨_, held⟩ | ⟨_, silent, kept⟩
          · have during := Lease.heldAfter_count (held [])
            rw [List.append_nil, List.length_nil] at during
            omega
          · rw [silent, EcConn.descriptors_congr kept]
            exact spoilt

end SocketLife

/-- When a client has ended, the descriptors that were closed for it are those that were opened for it, each once, exactly
when it did not end before the loop over the addresses and forgot no socket; then each was closed after it was opened. -/
theorem clientSockets_iff (platform : Platform) (cli : EcClient) (dups : EcDups) (fresh : cli.Fresh)
    (zeroed : cli.flow.conn.socket = 0) (events : List SocketEvent) (final : SocketLife)
    (lived : (socketMachine platform).run (.new ⟨cli, dups⟩) events = .ok final)
    (ended : final.life.work.cli.freed = true) :
    ((Lease.released final.sockets).Perm (Lease.acquired final.sockets) ↔
      (socketMachine platform).Meets (SocketLife.Careful platform) (.new ⟨cli, dups⟩) events) ∧
    ((socketMachine platform).Meets (SocketLife.Careful platform) (.new ⟨cli, dups⟩) events →
      Lease.Balanced final.sockets) := by
  have start : SocketLife.Tidy (.new ⟨cli, dups⟩) := by
    apply SocketLife.Tidy.unopened rfl
    exact ⟨fresh.2.2.2.2.2.2, Or.inl fresh.1, fresh.clocked, fresh.2.2.2.2.2.1, zeroed⟩
  rcases (socketMachine platform).run_tells (SocketLife.Careful platform) SocketLife.Tidy SocketLife.Spoilt
      (fun _ _ _ tidy careful stepped => tidy.step careful stepped)
      (fun _ _ _ tidy careless stepped => tidy.spoil careless stepped)
      (fun _ _ _ spoilt stepped => spoilt.step stepped) start lived with ⟨careful, tidy⟩ | ⟨careless, spoilt⟩
  · have balanced : Lease.Balanced final.sockets := by
      cases tidy with
      | unopened empty unstarted => exact absurd (unstarted.live.symm.trans ended) (by decide)
      | opened live holds => exact absurd (live.symm.trans ended) (by decide)
      | ended freed balanced => exact balanced
    exact ⟨iff_of_true balanced.perm careful, fun _ => balanced⟩
  · unfold SocketLife.Spoilt at spoilt
    rw [if_pos ended] at spoilt
    exact ⟨iff_of_false (fun same => spoilt same.length_eq) careless, fun careful => absurd careful careless⟩

/-- A confirmable request is sent twice, and times out. -/
def timedOutRequest : List SocketEvent := unansweredRequest.map .live

/-- The descriptor of that request is closed, and no other one. -/
theorem timedOutRequest_closes : ∃ final,
    (socketMachine loopbackPlatform).run (.new ⟨confirmableGet, EcDups.empty⟩) timedOutRequest = .ok final ∧
      Lease.acquired final.sockets = [5] ∧ (Lease.released final.sockets).Perm (Lease.acquired final.sockets) := by
  have run : ∃ final,
      (socketMachine loopbackPlatform).run (.new ⟨confirmableGet, EcDups.empty⟩) timedOutRequest = .ok final ∧
        final.life.work.cli.freed = true ∧ Lease.acquired final.sockets = [5] := ⟨_, rfl, rfl, rfl⟩
  have asked : ∃ s, socketStep loopbackPlatform (.new ⟨confirmableGet, EcDups.empty⟩) (.live (.send none true)) = .ok s ∧
      s.Unopened ∧ s.life.Reaches loopbackPlatform (.event (.dns resolvedOnce)) :=
    ⟨_, rfl, ⟨rfl, by decide⟩, by decide, by decide⟩
  obtain ⟨final, lived, ended, opened⟩ := run
  obtain ⟨s, first, unopened, reaches⟩ := asked
  refine ⟨final, lived, opened, ?_⟩
  apply (clientSockets_iff loopbackPlatform confirmableGet EcDups.empty (by decide) rfl timedOutRequest final lived
    ended).1.mpr
  have timer : ∀ s sent, SocketLife.Careful loopbackPlatform s (.live (.event (.coapTimeout sent))) ∧
      SocketLife.Careful loopbackPlatform s (.live (.event (.appTimeout sent))) := fun s sent =>
    ⟨fun _ => ⟨fun early => early.2.1.2, fun forgets => forgets.2.2⟩,
      fun _ => ⟨fun early => early.2.1.2, fun forgets => forgets.2.2⟩⟩
  refine Machine.meets_cons_ok ?_ first ⟨?_, fun _ _ => ⟨(timer _ true).1, fun _ _ => ⟨(timer _ true).2, fun _ _ => trivial⟩⟩⟩
  · exact fun _ => ⟨fun early => absurd early.2.1.2 (by decide), fun forgets => forgets.2.2⟩
  · exact fun _ => ⟨fun early => early.2.2 reaches, fun forgets => forgets.1 unopened⟩

/-- The name of the host is not found. -/
def unresolvedRequest : List SocketEvent := [.live (.send none true), .live (.event (.dns ⟨none, 7, true, true⟩))]

/-- No socket is opened for that request, and the descriptor 0 is closed. -/
theorem unresolvedRequest_closes : ¬ ∀ platform cli dups events final, cli.Fresh → cli.flow.conn.socket = 0 →
    (socketMachine platform).run (.new ⟨cli, dups⟩) events = .ok final → final.life.work.cli.freed = true →
    (Lease.released final.sockets).Perm (Lease.acquired final.sockets) := by
  intro claim
  have run : ∃ final,
      (socketMachine loopbackPlatform).run (.new ⟨confirmableGet, EcDups.empty⟩) unresolvedRequest = .ok final ∧
        final.life.work.cli.freed = true ∧ final.sockets = [.release 0] := ⟨_, rfl, rfl, rfl⟩
  obtain ⟨final, lived, ended, closed⟩ := run
  have same := claim loopbackPlatform confirmableGet EcDups.empty unresolvedRequest final (by decide) rfl lived ended
  rw [closed] at same
  exact absurd same.length_eq (by decide)

end Webthings.Evcoap
