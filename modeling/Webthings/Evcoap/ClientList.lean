import Webthings.Memory.TailQueue
import Webthings.Evcoap.ClientLife
import Webthings.Evcoap.ClientFrame

namespace Webthings.Evcoap
open Webthings.Transition Webthings.Memory

/-- The resolver's callback up to the call of `ec_client_register`; the result tells whether it comes to that call. -/
def ecClientDnsSend (platform : Platform) (env : DnsEnv) (w : CliWork) : Except EcFault (CliWork × Bool) :=
  let answered : CliWork := {w with cli := {w.cli with dnsReq := false}}
  match env.ais with
  | none => (ecClientSetState platform false answered .dnsFailed).map fun moved => (moved.1, false)
  | some ais =>
      match ecClientSetState platform false answered .dnsOk with
      | .error fault => .error fault
      | .ok (resolved, _) =>
          let encoded := ecPduEncodeRequest platform.order env.rng resolved.cli.flow resolved.cli.req
          let stored : CliWork := {resolved with cli := {resolved.cli with req := encoded.1}}
          if encoded.2 ≠ 0 then (ecClientSetState platform false stored .internalErr).map fun moved => (moved.1, false)
          else
            match ecClientOpen platform env ais stored with
            | .error fault => .error fault
            | .ok (opened, goesOn) =>
                if goesOn = false then .ok (opened, false)
                else if opened.cli.flow.conn.socket = -1 then
                  (ecClientSetState platform false opened .internalErr).map fun moved => (moved.1, false)
                else .ok (opened, true)

/-- The callback ends with the registration, when it comes to it. -/
theorem ecClientDnsCb_send (platform : Platform) (env : DnsEnv) (w : CliWork) : ecClientDnsCb platform env w =
    (ecClientDnsSend platform env w).bind fun sent =>
      if sent.2 = false then .ok sent.1
      else if env.registers = false then (ecClientSetState platform false sent.1 .internalErr).map fun moved => moved.1
      else .ok {sent.1 with cli := {sent.1.cli with registered := true}} := by
  have ended : ∀ outcome : Except EcFault (CliWork × Bool), (outcome.map fun moved => moved.1) =
      (outcome.map fun moved => (moved.1, false)).bind fun sent =>
        if sent.2 = false then .ok sent.1
        else if env.registers = false then (ecClientSetState platform false sent.1 .internalErr).map fun moved => moved.1
        else .ok {sent.1 with cli := {sent.1.cli with registered := true}} := by
    intro outcome
    cases outcome <;> rfl
  unfold ecClientDnsCb ecClientDnsSend
  dsimp only
  cases env.ais with
  | none => exact ended _
  | some ais =>
      dsimp only
      cases ecClientSetState platform false {w with cli := {w.cli with dnsReq := false}} .dnsOk with
      | error fault => rfl
      | ok moved =>
          obtain ⟨resolved, _⟩ := moved
          dsimp only
          split
          · exact ended _
          · cases ecClientOpen platform env ais {resolved with cli := {resolved.cli with
              req := (ecPduEncodeRequest platform.order env.rng resolved.cli.flow resolved.cli.req).1}} with
            | error fault => rfl
            | ok opening =>
                obtain ⟨opened, goesOn⟩ := opening
                cases goesOn with
                | false => rfl
                | true =>
                    dsimp only
                    rw [if_neg (by decide : ¬ true = false), if_neg (by decide : ¬ true = false)]
                    by_cases closed : opened.cli.flow.conn.socket = -1
                    · rw [if_pos (Or.inl closed), if_pos closed]
                      exact ended _
                    · rw [if_neg closed]
                      change _ = if env.registers = false then _ else _
                      by_cases registers : env.registers = false
                      · rw [if_pos (Or.inr registers), if_pos registers]
                      · rw [if_neg (not_or.mpr ⟨closed, registers⟩), if_neg registers]

/-- The event makes the client register: the resolver has called back, and the callback comes to a registration that
succeeds. -/
def ClientLife.registers (platform : Platform) (life : ClientLife) (event : LifeEvent) : Bool :=
  match event with
  | .event (.dns env) =>
      life.resolving != 0 && env.registers &&
        match ecClientDnsSend platform env life.work with
        | .ok sent => sent.2
        | .error _ => false
  | _ => false

/-- The faults of a base with several clients; `nullLink` is a removal through a link that has never been set. -/
inductive ClientsFault where
  | client (fault : EcFault)
  | nullLink
  deriving DecidableEq

/-- A client of a base, with the number of its resolver requests that are not answered yet. -/
structure ClientSlot where
  cli : EcClient
  resolving : Nat

/-- The clients that a base has had, and the list of those that are registered. `added` records whom `ec_client_add` has
put into the list and `ec_client_del` has not taken out, and `strays` whether a removal was made of anybody else. -/
structure EcClients where
  slots : List ClientSlot
  dups : EcDups
  queue : TailQueue Nat
  added : List Nat
  strays : Bool

def EcClients.init (dups : EcDups) : EcClients := ⟨[], dups, TailQueue.empty, [], false⟩

def EcClients.ecClientNew (base : EcClients) (cli : EcClient) : EcClients :=
  {base with slots := base.slots ++ [⟨cli, 0⟩], queue := base.queue.zero base.slots.length}

def EcClients.ecClientAdd (base : EcClients) (id : Nat) : EcClients :=
  {base with queue := base.queue.insertTail id, added := base.added ++ [id]}

/-- The removal is made whenever the list has anybody in it. -/
def EcClients.ecClientDel (base : EcClients) (id : Nat) : Except ClientsFault EcClients :=
  match base.queue.first with
  | none => .ok base
  | some _ =>
      match base.queue.remove id with
      | none => .error .nullLink
      | some queue => .ok {base with
          queue := queue, added := base.added.erase id, strays := base.strays || decide (id ∉ base.added)}

def EcClients.ecClientFree (base : EcClients) (id : Nat) : Except ClientsFault EcClients :=
  match base.slots[id]? with
  | none => .ok base
  | some slot => (base.ecClientDel id).map fun unlisted =>
      {unlisted with slots := unlisted.slots.set id {slot with cli := {slot.cli with registered := false, freed := true}}}

/-- A timer that is armed for a client which is not there anymore. -/
def ClientSlot.dangles (slot : ClientSlot) (event : LifeEvent) : Bool :=
  slot.cli.freed &&
    match event with
    | .event (.appTimeout _) => slot.cli.app.pending
    | .event (.coapTimeout _) => slot.cli.coap.pending
    | .event (.obsTimeout _) => slot.cli.obs.pending
    | _ => false

/-- The client at the duplicate map that it shares with the others. -/
def EcClients.life (base : EcClients) (slot : ClientSlot) : ClientLife := ⟨⟨slot.cli, base.dups⟩, slot.resolving⟩

/-- The base with what a client has become. -/
def EcClients.settle (base : EcClients) (id : Nat) (next : ClientLife) : EcClients :=
  {base with slots := base.slots.set id ⟨next.work.cli, next.resolving⟩, dups := next.work.dups}

/-- A client does its own work, and leaves or enters the list. -/
def EcClients.serve (platform : Platform) (base : EcClients) (id : Nat) (slot : ClientSlot) (event : LifeEvent) :
    Except ClientsFault EcClients :=
  if slot.dangles event then .error (.client .disposed)
  else
    match lifeStep platform (base.life slot) event with
    | .error fault => .error (.client fault)
    | .ok next =>
        if next.work.cli.freed && !slot.cli.freed then (base.settle id next).ecClientDel id
        else if !slot.cli.freed && (base.life slot).registers platform event then
          .ok ((base.settle id next).ecClientAdd id)
        else .ok (base.settle id next)

/-- A client has been freed, or is as registered as it was. -/
def EcClient.Keeps (cli next : EcClient) : Prop :=
  next.freed = true ∨ next.freed = cli.freed ∧ next.registered = cli.registered

theorem EcClient.Keeps.trans {cli middle next : EcClient} (first : cli.Keeps middle) (second : middle.Keeps next) :
    cli.Keeps next := by
  rcases second with freed | ⟨sameFreed, sameRegistered⟩
  · exact Or.inl freed
  · rcases first with freed | ⟨beforeFreed, beforeRegistered⟩
    · exact Or.inl (sameFreed.trans freed)
    · exact Or.inr ⟨sameFreed.trans beforeFreed, sameRegistered.trans beforeRegistered⟩

section Registering

variable {platform : Platform} {sent : Bool} {w : CliWork}

theorem ecClientEnter_keeps {isCon : Bool} {next : EcCliState} {entered : CliWork}
    (entering : ecClientEnter platform sent isCon next w = .ok entered) :
    entered.cli.freed = w.cli.freed ∧ entered.cli.registered = w.cli.registered := by
  obtain ⟨_, _, _, _, framed⟩ := ecClientEnter_frame entering
  rw [framed]
  exact ⟨rfl, rfl⟩

theorem ecClientFinish_keeps (isCon : Bool) (cli : EcClient) : cli.Keeps (ecClientFinish isCon cli) := by
  unfold ecClientFinish
  cases isCon <;> cases cli.userown
  · exact Or.inl rfl
  · exact Or.inr ⟨rfl, rfl⟩
  · exact Or.inl rfl
  · exact Or.inr ⟨rfl, rfl⟩

/-- A transition leaves the registration alone, unless it frees the client. -/
theorem ecClientSetState_keeps {next : EcCliState} {moved : CliWork × Bool}
    (made : ecClientSetState platform sent w next = .ok moved) : w.cli.Keeps moved.1.cli := by
  obtain ⟨entered, log, entering, ⟨_, ended⟩ | ⟨_, _, goes⟩⟩ := ecClientSetState_made made
  · have kept : w.cli.Keeps {entered.cli.enter next with sent := log} := Or.inr (ecClientEnter_keeps entering)
    rw [ended]
    exact kept.trans (ecClientFinish_keeps _ _)
  · have kept := ecClientEnter_keeps entering
    rw [goes]
    exact Or.inr kept

/-- A mapped transition leaves what the transition leaves. -/
theorem keeps_of_map {Result : Type} {next : EcCliState} {f : CliWork × Bool → Result} {result : Result}
    (done : (ecClientSetState platform sent w next).map f = .ok result) :
    ∃ moved, f moved = result ∧ w.cli.Keeps moved.1.cli := by
  obtain ⟨moved, made, same⟩ := map_ok done
  exact ⟨moved, same, ecClientSetState_keeps made⟩

/-- The transitions of a send leave the registration alone, unless they free the client. -/
theorem keeps_kept (platform : Platform) (cli : EcClient) : KeptBySends platform (fun _ => True) cli.Keeps where
  sends := trivial
  fails := trivial
  moves := fun _ _ _ _ _ made before => before.trans (ecClientSetState_keeps made)
  flow := fun _ _ _ before => before
  req := fun _ _ _ before => before
  log := fun _ _ _ before => before

theorem ecClientDnsSend_keeps {env : DnsEnv} {sending : CliWork × Bool}
    (done : ecClientDnsSend platform env w = .ok sending) : w.cli.Keeps sending.1.cli := by
  unfold ecClientDnsSend at done
  dsimp only at done
  split at done
  · obtain ⟨moved, same, kept⟩ := keeps_of_map done
    subst same
    exact kept
  · split at done
    · cases done
    · rename_i resolved _ made
      have before : w.cli.Keeps resolved.cli := ecClientSetState_keeps made
      split at done
      · obtain ⟨moved, same, kept⟩ := keeps_of_map done
        subst same
        exact before.trans kept
      · split at done
        · cases done
        · rename_i opened goesOn opening
          have sent : resolved.cli.Keeps opened.cli :=
            (keeps_kept platform resolved.cli).open (by exact Or.inr ⟨rfl, rfl⟩) opening
          split at done
          · cases done
            exact before.trans sent
          · split at done
            · obtain ⟨moved, same, kept⟩ := keeps_of_map done
              subst same
              exact (before.trans sent).trans kept
            · cases done
              exact before.trans sent

/-- A client that is alive at the end was alive before and is registered as before. -/
theorem EcClient.Keeps.alive {cli next : EcClient} (keeps : cli.Keeps next) (live : next.freed = false) :
    cli.freed = false ∧ next.registered = cli.registered := by
  rcases keeps with freed | ⟨sameFreed, sameRegistered⟩
  · exact absurd (live.symm.trans freed) (by decide)
  · exact ⟨sameFreed.symm.trans live, sameRegistered⟩

end Registering

/-- A client belongs into the list from its registration until it is freed. -/
def Belongs (slots : List ClientSlot) (id : Nat) : Prop :=
  ∃ slot, slots[id]? = some slot ∧ slot.cli.freed = false ∧ slot.cli.registered = true

/-- The list holds those who belong into it, each of them once. -/
structure EcClients.Holds (base : EcClients) (members : List Nat) : Prop where
  represents : base.queue.Represents members
  distinct : members.Nodup
  belongs : ∀ id, id ∈ members ↔ Belongs base.slots id

/-- The list is the one of the registered clients, and nobody else has been removed from it. -/
structure EcClients.Orderly (base : EcClients) : Prop where
  holds : ∃ members, base.Holds members
  aimed : base.strays = false

/-- The list is as recorded, and a client that is not in it has never been linked to anybody. -/
structure EcClients.Sound (base : EcClients) : Prop where
  holds : base.Holds base.added
  aimed : base.strays = false
  unlinked : ∀ id slot, base.slots[id]? = some slot → slot.cli.freed = false → slot.cli.registered = false →
    base.queue.back id = none

theorem EcClients.Sound.orderly {base : EcClients} (sound : base.Sound) : base.Orderly := ⟨⟨_, sound.holds⟩, sound.aimed⟩

/-- A client that is put in another's place changes nobody else's. -/
theorem belongs_set {slots : List ClientSlot} {id : Nat} {slot : ClientSlot} (found : slots[id]? = some slot)
    (put : ClientSlot) (other : Nat) : Belongs (slots.set id put) other ↔
      if other = id then put.cli.freed = false ∧ put.cli.registered = true else Belongs slots other := by
  have bound : id < slots.length := (List.getElem?_eq_some_iff.mp found).1
  unfold Belongs
  by_cases same : other = id
  · subst same
    rw [if_pos rfl, List.getElem?_set_self bound]
    constructor
    · rintro ⟨slot, there, both⟩
      cases there
      exact both
    · exact fun both => ⟨put, rfl, both⟩
  · rw [if_neg same, List.getElem?_set_ne (fun equal => same equal.symm)]

section Bases

variable {base : EcClients} {id : Nat} {slot put : ClientSlot}

theorem EcClients.Sound.bound (sound : base.Sound) {id : Nat} (member : id ∈ base.added) : id < base.slots.length := by
  obtain ⟨slot, found, _⟩ := (sound.holds.belongs id).mp member
  exact (List.getElem?_eq_some_iff.mp found).1

/-- A live client is in the list exactly when it is registered. -/
theorem EcClients.Sound.member_iff (sound : base.Sound) (found : base.slots[id]? = some slot)
    (live : slot.cli.freed = false) : id ∈ base.added ↔ slot.cli.registered = true := by
  rw [sound.holds.belongs id]
  constructor
  · rintro ⟨other, there, _, registered⟩
    cases found.symm.trans there
    exact registered
  · exact fun registered => ⟨slot, found, live, registered⟩

/-- A client that belongs into the list as much as before can change. -/
theorem EcClients.Sound.set (sound : base.Sound) (found : base.slots[id]? = some slot) (dups : EcDups)
    (belongs : (put.cli.freed = false ∧ put.cli.registered = true) ↔ (slot.cli.freed = false ∧ slot.cli.registered = true))
    (lives : put.cli.freed = false → slot.cli.freed = false) :
    EcClients.Sound {base with slots := base.slots.set id put, dups := dups} where
  holds := by
    refine ⟨sound.holds.represents, sound.holds.distinct, fun other => ?_⟩
    rw [sound.holds.belongs other, belongs_set found]
    split
    · rename_i same
      subst same
      rw [belongs]
      constructor
      · rintro ⟨_, there, both⟩
        cases found.symm.trans there
        exact both
      · exact fun both => ⟨slot, found, both⟩
    · exact Iff.rfl
  aimed := sound.aimed
  unlinked := by
    intro other slot' there live unregistered
    by_cases same : other = id
    · subst same
      have bound := (List.getElem?_eq_some_iff.mp found).1
      rw [List.getElem?_set_self bound] at there
      cases there
      have before := lives live
      apply sound.unlinked other slot found before
      cases registered : slot.cli.registered with
      | false => rfl
      | true => exact absurd ((belongs.mpr ⟨before, registered⟩).2.symm.trans unregistered) (by decide)
    · rw [List.getElem?_set_ne (fun equal => same equal.symm)] at there
      exact sound.unlinked other slot' there live unregistered

/-- A client that has just been made is linked to nobody. -/
theorem EcClients.Sound.new (sound : base.Sound) (cli : EcClient) (fresh : cli.Fresh) : (base.ecClientNew cli).Sound := by
  obtain ⟨_, _, _, _, _, unregistered, _⟩ := fresh
  have outside : base.slots.length ∉ base.added := fun member => absurd (sound.bound member) (Nat.lt_irrefl _)
  have before : ∀ other slot, (base.slots ++ [⟨cli, 0⟩])[other]? = some slot → slot = ⟨cli, 0⟩ ∧ other = base.slots.length ∨
      base.slots[other]? = some slot ∧ other ≠ base.slots.length := by
    intro other slot found
    rcases Nat.lt_trichotomy other base.slots.length with below | same | above
    · rw [List.getElem?_append_left below] at found
      exact Or.inr ⟨found, Nat.ne_of_lt below⟩
    · subst same
      rw [List.getElem?_concat_length] at found
      exact Or.inl ⟨(Option.some.inj found).symm, rfl⟩
    · rw [List.getElem?_eq_none (by simpa using Nat.succ_le_of_lt above)] at found
      cases found
  refine ⟨⟨TailQueue.zero_represents sound.holds.represents outside, sound.holds.distinct, fun other => ?_⟩, sound.aimed, ?_⟩
  · change other ∈ base.added ↔ Belongs (base.slots ++ [⟨cli, 0⟩]) other
    rw [sound.holds.belongs other]
    constructor
    · rintro ⟨slot, found, both⟩
      refine ⟨slot, ?_, both⟩
      rw [List.getElem?_append_left (List.getElem?_eq_some_iff.mp found).1, found]
    · rintro ⟨slot, found, live, registered⟩
      rcases before other slot found with ⟨same, _⟩ | ⟨there, _⟩
      · subst same
        cases unregistered.symm.trans registered
      · exact ⟨slot, there, live, registered⟩
  · intro other slot found live silent
    change (base.queue.zero base.slots.length).back other = none
    rw [TailQueue.back_zero]
    rcases before other slot found with ⟨_, same⟩ | ⟨there, elsewhere⟩
    · rw [same, Function.update_self]
    · rw [Function.update_of_ne elsewhere]
      exact sound.unlinked other slot there live silent

/-- The removal of a member. -/
theorem ecClientDel_member (represents : base.queue.Represents base.added) (distinct : base.added.Nodup)
    (member : id ∈ base.added) : ∃ queue, base.queue.remove id = some queue ∧
      base.ecClientDel id = .ok {base with queue := queue, added := base.added.erase id} ∧
      queue.Represents (base.added.erase id) ∧ ∀ other, other ∉ base.added → queue.back other = base.queue.back other := by
  obtain ⟨queue, removed, still, backs⟩ := TailQueue.remove_represents represents distinct member
  refine ⟨queue, removed, ?_, still, backs⟩
  unfold EcClients.ecClientDel
  cases first : base.queue.first with
  | none =>
      have empty := represents.first.symm.trans first
      rw [List.head?_eq_none_iff] at empty
      rw [empty] at member
      cases member
  | some _ =>
      dsimp only
      rw [removed]
      simp [member]

variable (put) in
/-- A registered client, or any client of an empty list, leaves in order. -/
theorem EcClients.Sound.leaves (sound : base.Sound) (found : base.slots[id]? = some slot) (live : slot.cli.freed = false)
    (aims : slot.cli.registered = true ∨ base.queue.first = none) (gone : put.cli.freed = true) (dups : EcDups) :
    ∃ unlisted, base.ecClientDel id = .ok unlisted ∧ unlisted.slots = base.slots ∧
      EcClients.Sound {unlisted with slots := base.slots.set id put, dups := dups} := by
  by_cases registered : slot.cli.registered = true
  · have member := (sound.member_iff found live).mpr registered
    obtain ⟨queue, _, removed, represents, backs⟩ := ecClientDel_member sound.holds.represents sound.holds.distinct member
    refine ⟨_, removed, rfl, ⟨represents, sound.holds.distinct.erase id, fun other => ?_⟩, sound.aimed, ?_⟩
    · change other ∈ base.added.erase id ↔ Belongs (base.slots.set id put) other
      rw [belongs_set found, sound.holds.distinct.mem_erase_iff, sound.holds.belongs other]
      split
      · rename_i same
        exact ⟨fun both => absurd same both.1, fun both => absurd (both.1.symm.trans gone) (by decide)⟩
      · rename_i elsewhere
        exact ⟨fun both => both.2, fun belongs => ⟨elsewhere, belongs⟩⟩
    · intro other slot' there alive unregistered
      by_cases same : other = id
      · subst same
        rw [List.getElem?_set_self (List.getElem?_eq_some_iff.mp found).1] at there
        cases there
        exact absurd (alive.symm.trans gone) (by decide)
      · rw [List.getElem?_set_ne (fun equal => same equal.symm)] at there
        have outside : other ∉ base.added := by
          rw [sound.member_iff there alive, unregistered]
          decide
        exact (backs other outside).trans (sound.unlinked other slot' there alive unregistered)
  · have empty := aims.resolve_left registered
    refine ⟨base, ?_, rfl, ?_⟩
    · unfold EcClients.ecClientDel
      rw [empty]
    · apply sound.set found dups
      · exact ⟨fun both => absurd (both.1.symm.trans gone) (by decide), fun both => absurd both.2 registered⟩
      · exact fun alive => absurd (alive.symm.trans gone) (by decide)

/-- A client that is not registered is removed through a link that has never been set, unless the list is empty. -/
theorem EcClients.Sound.stray (sound : base.Sound) (found : base.slots[id]? = some slot) (live : slot.cli.freed = false)
    (astray : ¬ (slot.cli.registered = true ∨ base.queue.first = none)) : base.ecClientDel id = .error .nullLink := by
  obtain ⟨unregistered, occupied⟩ := not_or.mp astray
  have unlinked := sound.unlinked id slot found live (by simpa using unregistered)
  unfold EcClients.ecClientDel TailQueue.remove
  cases first : base.queue.first with
  | none => exact absurd first occupied
  | some _ =>
      dsimp only
      rw [unlinked]
      rfl

/-- A client that registers for the first time enters in order. -/
theorem EcClients.Sound.enters (sound : base.Sound) (found : base.slots[id]? = some slot) (live : slot.cli.freed = false)
    (first : slot.cli.registered = false) (alive : put.cli.freed = false) (registered : put.cli.registered = true)
    (dups : EcDups) :
    (EcClients.ecClientAdd {base with slots := base.slots.set id put, dups := dups} id).Sound := by
  have outside : id ∉ base.added := by
    rw [sound.member_iff found live, first]
    decide
  refine ⟨⟨TailQueue.insertTail_represents sound.holds.represents outside, ?_, fun other => ?_⟩, sound.aimed, ?_⟩
  · change (base.added ++ [id]).Nodup
    rw [List.nodup_append]
    refine ⟨sound.holds.distinct, List.nodup_singleton id, ?_⟩
    rintro other member _ inside rfl
    cases List.mem_singleton.mp inside
    exact outside member
  · change other ∈ base.added ++ [id] ↔ Belongs (base.slots.set id put) other
    rw [belongs_set found, List.mem_append, List.mem_singleton, sound.holds.belongs other]
    split
    · rename_i same
      exact ⟨fun _ => ⟨alive, registered⟩, fun _ => Or.inr same⟩
    · rename_i elsewhere
      exact ⟨fun either => either.resolve_right elsewhere, Or.inl⟩
  · intro other slot' there lives unregistered
    change (base.queue.insertTail id).back other = none
    rw [TailQueue.back_insertTail]
    by_cases same : other = id
    · subst same
      have here : (base.slots.set other put)[other]? = some slot' := there
      rw [List.getElem?_set_self (List.getElem?_eq_some_iff.mp found).1] at here
      cases here
      cases registered.symm.trans unregistered
    · have here : (base.slots.set id put)[other]? = some slot' := there
      rw [List.getElem?_set_ne (fun equal => same equal.symm)] at here
      rw [Function.update_of_ne same]
      exact sound.unlinked other slot' here lives unregistered

end Bases

section Freeing

variable {base : EcClients} {id : Nat} {slot : ClientSlot}

end Freeing

section Steps

variable {platform : Platform} {base : EcClients}

end Steps

end Webthings.Evcoap
