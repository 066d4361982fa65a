import Webthings.Evcoap.Registry
import Webthings.Evcoap.ClientRuns
import Webthings.Evcoap.Options.Frame

namespace Webthings.Evcoap
open Webthings.Memory
open Webthings.Transition

/-- What one round depends on: the clock, the value of the unset flag, the representations that the user callbacks
produce (none for NULL), the sends and whether the timer can be added. -/
structure RoundEnv where
  counter : Option UInt16
  drained : Bool
  reps : ObserverPtr → List UInt8 → Nat → Option (List UInt8)
  send : ObserverPtr → SendEnv
  countdown : Bool

/-- One observer's turn in a round, with the datagram that it was sent. -/
structure Attempt where
  observer : ObserverPtr
  rep : Option (List UInt8)
  datagram : Option Datagram

/-- A round under way; `failed` tells that it has left through its error label. -/
structure Round where
  reg : Registry
  drained : Bool
  attempts : List Attempt
  failed : Bool

/-- The observers that a round has notified. -/
def Round.told (round : Round) : List ObserverPtr :=
  (round.attempts.filter fun attempt => attempt.datagram.isSome).map fun attempt => attempt.observer

def ecObFlow (ovr : ObserverCell) (rep : Option (List UInt8)) : EcFlow :=
  {EcFlow.zero with
    respCode := if rep.isSome then ecContent else ecDeleted
    conn := ecConnSetConfirmable (ecConnCopy ovr.conn EcConn.zero) false}

/-- The notification of an observer, and the C return code of the first call that has failed. -/
def ecObPdu (order : ByteOrder) (cnt : UInt16) (env : SendEnv) (rep : Option (List UInt8)) (ovr : ObserverCell) :
    EcPdu × Int :=
  let filled := match rep with
    | none => (ecPduNewEmpty, 0)
    | some p => ecPduSetPayload ecPduNewEmpty p
  if filled.2 ≠ 0 then filled
  else
    let tokened := if ovr.token ≠ [] then ecOptsAddToken filled.1.opts ovr.token else (filled.1.opts, 0)
    if tokened.2 ≠ 0 then ({filled.1 with opts := tokened.1}, -1)
    else
      let counted := ecOptsAddObserve order tokened.1 cnt
      if counted.2 ≠ 0 then ({filled.1 with opts := counted.1}, -1)
      else ecPduEncodeResponseSeparate order env (ecObFlow ovr rep) {filled.1 with opts := counted.1}

/-- The MID and the datagram of a notification that was sent; it leaves the duplicate map alone. -/
def ecObNotify (platform : Platform) (cnt : UInt16) (env : SendEnv) (rep : Option (List UInt8)) (ovr : ObserverCell) :
    Option (UInt16 × Datagram) :=
  let made := ecObPdu platform.order cnt env rep ovr
  if made.2 ≠ 0 then none
  else
    (ecPduSend platform env.sent (ecObFlow ovr rep) made.1 EcDups.empty false).datagram.map fun datagram =>
      (made.1.hdrBits.mid, datagram)

/-- The MID of a notification is kept to identify the observer in case it resets it. -/
def Registry.saveLastMid (reg : Registry) (vp : ObserverPtr) (mid : UInt16) : Registry :=
  {reg with observers := reg.observers.modify vp fun ovr => {ovr with notified := some mid}}

/-- The walk over the observers; after each turn it reads the link out of the observer that has had it. -/
def ecObCbLoop (platform : Platform) (env : RoundEnv) (op : ObservationPtr) (cnt : UInt16) :
    List ObserverPtr → Round → Except EcFault Round
  | [], round => .ok round
  | vp :: rest, round =>
      match round.reg.observations.cells op, round.reg.observers.cells vp with
      | some obs, some ovr =>
          let rep := env.reps vp obs.uri ovr.mediaType
          match ecObNotify platform cnt (env.send vp) rep ovr with
          | none => .ok {round with attempts := round.attempts ++ [⟨vp, rep, none⟩], failed := true}
          | some (mid, datagram) =>
              let attempts := round.attempts ++ [⟨vp, rep, some datagram⟩]
              if rep = none then
                match round.reg.ecObserverRemove op vp with
                | .error fault => .error fault
                | .ok (reg, drained) =>
                    match reg.observers.cells vp with
                    | none => .error .disposed
                    | some _ => ecObCbLoop platform env op cnt rest ⟨reg, drained, attempts, round.failed⟩
              else
                ecObCbLoop platform env op cnt rest
                  {round with reg := round.reg.saveLastMid vp mid, attempts := attempts}
      | _, _ => .error .disposed

/-- The end of the walk: the flag that guards the timer is set by removals only. -/
def Round.rearm (op : ObservationPtr) (countdown : Bool) (round : Round) : Except EcFault Round :=
  if round.failed = true ∨ round.drained = true then .ok round
  else
    (round.reg.ecObservationStartCountdown op countdown).map fun (started : Registry × Int) =>
      {round with reg := started.1, failed := decide (started.2 ≠ 0)}

/-- A round of notifications. -/
def ecObCb (platform : Platform) (env : RoundEnv) (reg : Registry) (op : ObservationPtr) : Except EcFault Round :=
  match env.counter with
  | none => .ok ⟨reg, env.drained, [], true⟩
  | some cnt =>
      match reg.observations.cells op with
      | none => .error .disposed
      | some obs =>
          (ecObCbLoop platform env op cnt obs.observers ⟨reg, env.drained, [], false⟩).bind
            (Round.rearm op env.countdown)

/-- The set of the options of a notification: the token of the registration, if any, and the counter. -/
theorem notification_opts (order : ByteOrder) (cnt : UInt16) (ovr : ObserverCell) :
    ∃ tokened counted, (if ovr.token ≠ [] then ecOptsAddToken ecOptsInit ovr.token else (ecOptsInit, 0)) = (tokened, 0) ∧
      ecOptsAddObserve order tokened cnt = (counted, 0) ∧ encodedSize 0 counted.bundle.list ≤ ecOptsMaxLen := by
  have short := ovr.tokenFits
  have tokened : ∃ tokened, (if ovr.token ≠ [] then ecOptsAddToken ecOptsInit ovr.token else (ecOptsInit, 0)) =
      (tokened, 0) ∧ tokened.noptions ≤ 1 ∧ (tokened.bundle.list.map optWeight).sum ≤ 10 := by
    by_cases absent : ovr.token = []
    · exact ⟨ecOptsInit, if_neg (not_not.mpr absent), Nat.zero_le 1, Nat.zero_le 10⟩
    · obtain ⟨o, created⟩ := Option.isSome_iff_exists.mp
        ((ecOptNew_isSome .token ovr.token).mpr ⟨by simp at short ⊢; omega, by decide⟩)
      have length := (ecOptNew_some created).2.1
      have present := List.length_pos_of_ne_nil absent
      refine ⟨{ecOptsInit with noptions := 1, bundle := Bundle.empty.insert o}, ?_, ?_, ?_⟩
      · rw [if_pos absent, ecOptsAddToken, ecOptsAddShortOpaque, if_neg (by simp at short; omega), ecOptsAddOpaque,
          if_neg (by decide)]
        exact ecOptsAddRaw_one created (by simp at short ⊢; omega) (by decide)
      · exact Nat.le_refl 1
      · change (((Bundle.empty.insert o).list).map optWeight).sum ≤ 10
        rw [((Bundle.empty.insert_perm o).map optWeight).sum_nat]
        change optWeight o + 0 ≤ 10
        unfold optWeight
        simp at short
        split <;> omega
  obtain ⟨opts, added, few, light⟩ := tokened
  obtain ⟨e, converted, eight⟩ := ecOptEncodeUint_eight order cnt.toUInt64
  obtain ⟨o, created⟩ := Option.isSome_iff_exists.mp
    ((ecOptNew_isSome .observe e).mpr ⟨by simp; omega, by decide⟩)
  have length := (ecOptNew_some created).2.1
  refine ⟨opts, {opts with noptions := opts.noptions + 1, bundle := opts.bundle.insert o}, added, ?_, ?_⟩
  · rw [ecOptsAddObserve, ecOptsAddUint, if_neg (by decide), converted]
    exact ecOptsAddRaw_one created (by simp; omega) (by simp; omega)
  · dsimp only
    have atMost := (fencepostCount_le 0 _ (opts.bundle.insert o).ascending).1
    rw [encodedSize_weight, ((opts.bundle.insert_perm o).map optWeight).sum_nat, List.map_cons, List.sum_cons]
    have weight : optWeight o ≤ 10 := by
      unfold optWeight
      split <;> omega
    simp only [ecOptsMaxLen, ecCoapMaxOptions, ecCoapOptLenMax]
    omega

/-- A message that mirrors no token is encoded when its options fit. -/
theorem encodeResponse_silent (order : ByteOrder) {flow : EcFlow} {pdu : EcPdu} {t : EcMsgModel} {rc : EcRc}
    (mid : UInt16) (coded : t ≠ .rst ∧ rc ≠ ecRcUnset) (silent : flow.token = [])
    (fits : encodedSize 0 pdu.opts.bundle.list ≤ ecOptsMaxLen) :
    encodeResponse order flow pdu t rc mid =
      (encodeHeader order {pdu with opts := pdu.opts.encoded} (rcByte rc) t mid, 0) := by
  unfold encodeResponse
  rw [if_pos coded, silent]
  simp only [ne_eq, not_true_eq_false, if_false]
  rw [ecOptsEncode_fits pdu.opts fits]
  simp

/-- A notification can be encoded unless its representation is there and empty; it is a NON with a new MID and the
counter. -/
theorem ecObPdu_made (order : ByteOrder) (cnt : UInt16) (env : SendEnv) {rep : Option (List UInt8)} (ovr : ObserverCell)
    (produced : rep ≠ some []) :
    ∃ pdu, ecObPdu order cnt env rep ovr = (pdu, 0) ∧ pdu.hdrBits.mid = env.rng ∧
      pdu.hdr = headerBytes order pdu.opts.noptions (rcByte (ecObFlow ovr rep).respCode) .non env.rng ∧
      ecOptsGetObserve order pdu.opts = some cnt := by
  have filled : ∃ pdu, (match rep with
      | none => (ecPduNewEmpty, 0)
      | some p => ecPduSetPayload ecPduNewEmpty p) = (pdu, 0) ∧ pdu.opts = ecOptsInit ∧ pdu.hdrBits = EcHdr.zero := by
    cases rep with
    | none => exact ⟨ecPduNewEmpty, rfl, rfl, rfl⟩
    | some p =>
        have some : p.length ≠ 0 := fun zero => produced (congrArg Option.some (List.length_eq_zero_iff.mp zero))
        refine ⟨{ecPduNewEmpty with payload := p}, ?_, rfl, rfl⟩
        dsimp only
        rw [ecPduSetPayload, if_neg some]
  obtain ⟨pdu, payload, empty, bits⟩ := filled
  obtain ⟨tokened, counted, token, observe, fits⟩ := notification_opts order cnt ovr
  have absent : ecOptsGet tokened .observe = none := by
    have same : _ = tokened := congrArg Prod.fst token
    rw [← same]
    split
    · exact ecOptsAddShortOpaque_spares .observe (by decide) ovr.token
    · rfl
  have counter := ecOptsAddObserve_reads absent observe
  have code : (ecObFlow ovr rep).respCode ≠ ecRcUnset := by
    unfold ecObFlow
    dsimp only
    split <;> decide
  have mid : pdu.hdrBits.mid = 0 := by rw [bits]; rfl
  unfold ecObPdu
  rw [payload]
  dsimp only
  rw [empty, if_neg (by simp), token]
  dsimp only
  rw [if_neg (by simp), observe]
  dsimp only
  rw [if_neg (by simp)]
  unfold ecPduEncodeResponseSeparate SendEnv.wireMid
  dsimp only
  rw [if_pos mid, if_pos mid]
  have unconfirmable : (ecObFlow ovr rep).conn.isConfirmable = some false := rfl
  rw [unconfirmable]
  dsimp only
  rw [encodeResponse_silent order env.rng ⟨by decide, code⟩ rfl fits]
  exact ⟨_, rfl, rfl, rfl, counter⟩

/-- The notification of an observer is made and handed over. -/
def RoundEnv.Delivers (env : RoundEnv) (uri : List UInt8) (vp : ObserverPtr) (ovr : ObserverCell) : Prop :=
  env.reps vp uri ovr.mediaType ≠ some [] ∧ ovr.conn.socket ≠ -1 ∧ (ecNetSocklen ovr.conn.peer).isSome ∧
    (env.send vp).sent = true

theorem ecObNotify_delivers (platform : Platform) (cnt : UInt16) {env : RoundEnv} {uri : List UInt8} {vp : ObserverPtr}
    {ovr : ObserverCell} (delivers : env.Delivers uri vp ovr) :
    ∃ datagram, ecObNotify platform cnt (env.send vp) (env.reps vp uri ovr.mediaType) ovr =
      some ((env.send vp).rng, datagram) := by
  obtain ⟨produced, open', known, sent⟩ := delivers
  obtain ⟨pdu, made, mid, _⟩ := ecObPdu_made platform.order cnt (env.send vp) ovr produced
  unfold ecObNotify
  rw [made]
  dsimp only
  rw [if_neg (by simp), ecPduSend_datagram, mid]
  obtain ⟨datagram, handed⟩ := Option.isSome_iff_exists.mp ((ecNetSend_isSome (env.send vp).sent pdu.hdr pdu.opts.wire
    pdu.payload ovr.conn.socket ovr.conn.peer).mpr ⟨open', known, sent⟩)
  exact ⟨datagram, congrArg _ handed⟩

theorem ecObNotify_fails (platform : Platform) (cnt : UInt16) {env : RoundEnv} {uri : List UInt8} {vp : ObserverPtr}
    {ovr : ObserverCell} (fails : ¬ env.Delivers uri vp ovr) :
    ecObNotify platform cnt (env.send vp) (env.reps vp uri ovr.mediaType) ovr = none := by
  by_cases produced : env.reps vp uri ovr.mediaType = some []
  · unfold ecObNotify ecObPdu
    rw [produced]
    rfl
  · obtain ⟨pdu, made, mid, _⟩ := ecObPdu_made platform.order cnt (env.send vp) ovr produced
    unfold ecObNotify
    rw [made]
    dsimp only
    rw [if_neg (by simp), ecPduSend_datagram, Option.map_eq_none_iff, ← Option.not_isSome_iff_eq_none,
      ecNetSend_isSome]
    exact fun handed => fails ⟨produced, handed⟩

/-- A list has a property throughout, or it has a first element without it. -/
theorem all_or_first {α : Type} (p : α → Prop) (list : List α) :
    (∀ x ∈ list, p x) ∨ ∃ before x after, list = before ++ x :: after ∧ (∀ y ∈ before, p y) ∧ ¬ p x := by
  induction list with
  | nil => exact Or.inl fun x member => by cases member
  | cons first rest ih =>
      rcases Classical.em (p first) with held | failed
      · rcases ih with all | ⟨before, x, after, rfl, good, bad⟩
        · exact Or.inl (List.forall_mem_cons.mpr ⟨held, all⟩)
        · exact Or.inr ⟨first :: before, x, after, rfl, List.forall_mem_cons.mpr ⟨held, good⟩, bad⟩
      · exact Or.inr ⟨[], first, rest, rfl, (fun y member => by cases member), failed⟩

/-- The notification of an observer goes out, with the representation that its callback has produced. -/
def Registry.Informs (reg : Registry) (env : RoundEnv) (op : ObservationPtr) (vp : ObserverPtr) : Prop :=
  ∃ obs, reg.observations.cells op = some obs ∧ ∃ ovr, reg.observers.cells vp = some ovr ∧
    env.Delivers obs.uri vp ovr ∧ env.reps vp obs.uri ovr.mediaType ≠ none

/-- The notification of an observer goes out, and tells that the resource has been deleted. -/
def Registry.Deletes (reg : Registry) (env : RoundEnv) (op : ObservationPtr) (vp : ObserverPtr) : Prop :=
  ∃ obs, reg.observations.cells op = some obs ∧ ∃ ovr, reg.observers.cells vp = some ovr ∧
    env.Delivers obs.uri vp ovr ∧ env.reps vp obs.uri ovr.mediaType = none

/-- The MIDs of the notifications that a part of the round has sent are kept. -/
def Registry.saveMids (reg : Registry) (env : RoundEnv) (list : List ObserverPtr) : Registry :=
  list.foldl (fun reg vp => reg.saveLastMid vp (env.send vp).rng) reg

/-- A MID that was kept changes nothing else about an observer. -/
theorem Registry.saveLastMid_cells (reg : Registry) (vp wp : ObserverPtr) (mid : UInt16) :
    (reg.saveLastMid vp mid).observers.cells wp =
      (reg.observers.cells wp).map fun ovr => if wp = vp then {ovr with notified := some mid} else ovr :=
  Heap.modify_cells _ _ _ _

theorem Registry.saveLastMid_observer (reg : Registry) (vp wp : ObserverPtr) (mid : UInt16) {holds : ObserverCell → Prop}
    (blind : ∀ (ovr : ObserverCell) (mid : UInt16), holds {ovr with notified := some mid} ↔ holds ovr) :
    (∃ ovr, (reg.saveLastMid vp mid).observers.cells wp = some ovr ∧ holds ovr) ↔
      ∃ ovr, reg.observers.cells wp = some ovr ∧ holds ovr := by
  rw [reg.saveLastMid_cells]
  cases reg.observers.cells wp with
  | none => simp
  | some ovr =>
      simp only [Option.map_some, Option.some.injEq, exists_eq_left']
      split
      · exact blind ovr mid
      · exact Iff.rfl

@[simp] theorem Registry.saveLastMid_informs (reg : Registry) (env : RoundEnv) (op : ObservationPtr)
    (vp wp : ObserverPtr) (mid : UInt16) : (reg.saveLastMid vp mid).Informs env op wp ↔ reg.Informs env op wp := by
  refine exists_congr fun obs => and_congr_right fun _ => ?_
  exact reg.saveLastMid_observer vp wp mid fun _ _ => Iff.rfl

@[simp] theorem Registry.saveLastMid_deletes (reg : Registry) (env : RoundEnv) (op : ObservationPtr)
    (vp wp : ObserverPtr) (mid : UInt16) : (reg.saveLastMid vp mid).Deletes env op wp ↔ reg.Deletes env op wp := by
  refine exists_congr fun obs => and_congr_right fun _ => ?_
  exact reg.saveLastMid_observer vp wp mid fun _ _ => Iff.rfl

/-- What the MIDs that a part of the round keeps leave as it is. -/
theorem Registry.saveMids_frame (reg : Registry) (env : RoundEnv) (list : List ObserverPtr) :
    (reg.saveMids env list).observing = reg.observing ∧ (reg.saveMids env list).observations = reg.observations ∧
      (∀ vp, ((reg.saveMids env list).observers.cells vp).isSome = (reg.observers.cells vp).isSome) ∧
      (∀ op vp, (reg.saveMids env list).Informs env op vp ↔ reg.Informs env op vp) ∧
      ∀ op vp, (reg.saveMids env list).Deletes env op vp ↔ reg.Deletes env op vp := by
  induction list generalizing reg with
  | nil => exact ⟨rfl, rfl, fun _ => rfl, fun _ _ => Iff.rfl, fun _ _ => Iff.rfl⟩
  | cons vp rest ih =>
      obtain ⟨observing, observations, live, informs, deletes⟩ := ih (reg.saveLastMid vp (env.send vp).rng)
      refine ⟨observing, observations, fun wp => ?_, fun op wp => ?_, fun op wp => ?_⟩
      · exact (live wp).trans (Heap.modify_isSome _ _ _ _)
      · exact (informs op wp).trans (reg.saveLastMid_informs env op vp wp _)
      · exact (deletes op wp).trans (reg.saveLastMid_deletes env op vp wp _)

section Turns

variable (platform : Platform) (cnt : UInt16) (rest : List ObserverPtr) {env : RoundEnv} {op : ObservationPtr}
  {vp : ObserverPtr} {round : Round}

/-- The turn of an observer that is informed. -/
theorem ecObCbLoop_informs (informs : round.reg.Informs env op vp) :
    ∃ attempt : Attempt, attempt.observer = vp ∧ attempt.datagram.isSome ∧
      ecObCbLoop platform env op cnt (vp :: rest) round = ecObCbLoop platform env op cnt rest
        {round with
          reg := round.reg.saveLastMid vp (env.send vp).rng
          attempts := round.attempts ++ [attempt]} := by
  obtain ⟨obs, found, ovr, live, delivers, produced⟩ := informs
  obtain ⟨datagram, notified⟩ := ecObNotify_delivers platform cnt delivers
  refine ⟨⟨vp, env.reps vp obs.uri ovr.mediaType, some datagram⟩, rfl, rfl, ?_⟩
  rw [ecObCbLoop, found, live]
  dsimp only
  rw [notified]
  dsimp only
  rw [if_neg produced]

/-- After the turn of an observer whose resource is gone, the walk reads the memory that it has freed. -/
theorem ecObCbLoop_deletes (deletes : round.reg.Deletes env op vp) :
    ecObCbLoop platform env op cnt (vp :: rest) round = .error .disposed := by
  obtain ⟨obs, found, ovr, live, delivers, gone⟩ := deletes
  obtain ⟨datagram, notified⟩ := ecObNotify_delivers platform cnt delivers
  rw [ecObCbLoop, found, live]
  dsimp only
  rw [notified]
  dsimp only
  rw [if_pos gone, Registry.ecObserverRemove_live found live]
  dsimp only
  rw [Registry.without_observers, Heap.free_self]

/-- The turn of a live observer whose notification does not go out ends the round. -/
theorem ecObCbLoop_fails {obs : ObservationCell} {ovr : ObserverCell}
    (found : round.reg.observations.cells op = some obs) (live : round.reg.observers.cells vp = some ovr)
    (fails : ¬ env.Delivers obs.uri vp ovr) :
    ∃ attempt : Attempt, attempt.observer = vp ∧ attempt.datagram = none ∧
      ecObCbLoop platform env op cnt (vp :: rest) round =
        .ok {round with attempts := round.attempts ++ [attempt], failed := true} := by
  refine ⟨⟨vp, env.reps vp obs.uri ovr.mediaType, none⟩, rfl, rfl, ?_⟩
  rw [ecObCbLoop, found, live]
  dsimp only
  rw [ecObNotify_fails platform cnt fails]

/-- A walk that has come to an end has informed the observer of its first turn, or it has ended there. -/
theorem ecObCbLoop_turn {final : Round} (done : ecObCbLoop platform env op cnt (vp :: rest) round = .ok final) :
    ∃ attempt : Attempt, attempt.observer = vp ∧
      (round.reg.Informs env op vp ∧ attempt.datagram.isSome ∧
          ecObCbLoop platform env op cnt rest
            {round with
              reg := round.reg.saveLastMid vp (env.send vp).rng
              attempts := round.attempts ++ [attempt]} = .ok final ∨
        attempt.datagram = none ∧ {round with attempts := round.attempts ++ [attempt], failed := true} = final) := by
  cases found : round.reg.observations.cells op with
  | none =>
      rw [ecObCbLoop, found] at done
      cases done
  | some obs =>
      cases live : round.reg.observers.cells vp with
      | none =>
          rw [ecObCbLoop, found, live] at done
          cases done
      | some ovr =>
          by_cases delivers : env.Delivers obs.uri vp ovr
          · by_cases gone : env.reps vp obs.uri ovr.mediaType = none
            · rw [ecObCbLoop_deletes platform cnt rest ⟨obs, found, ovr, live, delivers, gone⟩] at done
              cases done
            · have informs : round.reg.Informs env op vp := ⟨obs, found, ovr, live, delivers, gone⟩
              obtain ⟨attempt, observer, sent, turn⟩ := ecObCbLoop_informs platform cnt rest informs
              exact ⟨attempt, observer, Or.inl ⟨informs, sent, turn.symm.trans done⟩⟩
          · obtain ⟨attempt, observer, unsent, stopped⟩ := ecObCbLoop_fails platform cnt rest found live delivers
            rw [stopped] at done
            exact ⟨attempt, observer, Or.inr ⟨unsent, Except.ok.inj done⟩⟩

/-- The walk informs the observers up to the first one whose turn comes out otherwise. -/
theorem ecObCbLoop_append {before : List ObserverPtr} (informs : ∀ vp ∈ before, round.reg.Informs env op vp) :
    ∃ attempts : List Attempt, attempts.map (fun attempt => attempt.observer) = before ∧
      ecObCbLoop platform env op cnt (before ++ rest) round = ecObCbLoop platform env op cnt rest
        {round with reg := round.reg.saveMids env before, attempts := round.attempts ++ attempts} := by
  induction before generalizing round with
  | nil => exact ⟨[], rfl, by rw [List.append_nil]; rfl⟩
  | cons vp before ih =>
      obtain ⟨attempt, observer, _, turn⟩ := ecObCbLoop_informs platform cnt (before ++ rest)
        (informs vp List.mem_cons_self)
      let next : Round := {round with
        reg := round.reg.saveLastMid vp (env.send vp).rng
        attempts := round.attempts ++ [attempt]}
      have informed : ∀ wp ∈ before, next.reg.Informs env op wp := fun wp member =>
        (round.reg.saveLastMid_informs env op vp wp _).mpr (informs wp (List.mem_cons_of_mem vp member))
      obtain ⟨attempts, observers, later⟩ := ih informed
      refine ⟨attempt :: attempts, by rw [List.map_cons, observer, observers], ?_⟩
      rw [List.cons_append, turn, later, List.append_assoc]
      rfl

end Turns

/-- The timer of an observation is pending or not. -/
def Registry.setNotify (reg : Registry) (op : ObservationPtr) (pending : Bool) : Registry :=
  {reg with observations := reg.observations.modify op fun obs => {obs with notify := pending}}

theorem Registry.setNotify_found {reg : Registry} {op : ObservationPtr} {obs : ObservationCell}
    (found : reg.observations.cells op = some obs) (pending : Bool) :
    (reg.setNotify op pending).observations.cells op = some {obs with notify := pending} := by
  unfold setNotify
  rw [Heap.modify_self, found]
  rfl

theorem Registry.setNotify_informs {reg : Registry} {op : ObservationPtr} {obs : ObservationCell}
    (found : reg.observations.cells op = some obs) (pending : Bool) (env : RoundEnv) (vp : ObserverPtr) :
    (reg.setNotify op pending).Informs env op vp ↔ reg.Informs env op vp := by
  unfold Informs
  rw [setNotify_found found, found]
  simp only [Option.some.injEq, exists_eq_left']
  exact Iff.rfl

theorem Registry.setNotify_deletes {reg : Registry} {op : ObservationPtr} {obs : ObservationCell}
    (found : reg.observations.cells op = some obs) (pending : Bool) (env : RoundEnv) (vp : ObserverPtr) :
    (reg.setNotify op pending).Deletes env op vp ↔ reg.Deletes env op vp := by
  unfold Deletes
  rw [setNotify_found found, found]
  simp only [Option.some.injEq, exists_eq_left']
  exact Iff.rfl

section Rounds

variable (platform : Platform) {env : RoundEnv} {reg : Registry} {op : ObservationPtr} {obs : ObservationCell}
  {cnt : UInt16}

/-- A round that comes to an observer has informed the ones before. -/
theorem ecObCb_reaches (found : reg.observations.cells op = some obs) (clock : env.counter = some cnt)
    {before rest : List ObserverPtr} (split : obs.observers = before ++ rest)
    (informs : ∀ vp ∈ before, reg.Informs env op vp) :
    ∃ attempts : List Attempt, attempts.map (fun attempt => attempt.observer) = before ∧
      ecObCb platform env reg op = (ecObCbLoop platform env op cnt rest
        ⟨reg.saveMids env before, env.drained, attempts, false⟩).bind (Round.rearm op env.countdown) := by
  let round : Round := ⟨reg, env.drained, [], false⟩
  have informed : ∀ vp ∈ before, round.reg.Informs env op vp := informs
  obtain ⟨attempts, observers, walked⟩ := ecObCbLoop_append platform cnt rest informed
  refine ⟨attempts, observers, ?_⟩
  rw [ecObCb, clock, found]
  dsimp only
  rw [split, walked]
  rfl

/-- A round that informs every observer sets the timer again when the flag allows it. -/
theorem ecObCb_informs (found : reg.observations.cells op = some obs) (clock : env.counter = some cnt)
    (informs : ∀ vp ∈ obs.observers, reg.Informs env op vp) :
    ∃ attempts : List Attempt, attempts.map (fun attempt => attempt.observer) = obs.observers ∧
      ∃ failed, ecObCb platform env reg op =
        .ok ⟨if env.drained = false ∧ env.countdown = true then (reg.saveMids env obs.observers).setNotify op true
          else reg.saveMids env obs.observers, env.drained, attempts, failed⟩ := by
  obtain ⟨attempts, observers, walked⟩ := ecObCb_reaches platform found clock
    (List.append_nil obs.observers).symm informs
  have still : (reg.saveMids env obs.observers).observations.cells op = some obs := by
    rw [(reg.saveMids_frame env obs.observers).2.1, found]
  refine ⟨attempts, observers, ?_⟩
  rw [walked, ecObCbLoop]
  dsimp only [Except.bind]
  unfold Round.rearm Registry.ecObservationStartCountdown
  dsimp only
  rw [still]
  cases env.drained with
  | true => exact ⟨false, by simp⟩
  | false =>
      cases env.countdown with
      | true => exact ⟨false, by simp [Except.map, Registry.setNotify]⟩
      | false => exact ⟨true, by simp [Except.map]⟩

/-- A round that comes to an observer whose resource is gone reads the memory that it has freed. -/
theorem ecObCb_deletes (found : reg.observations.cells op = some obs) (clock : env.counter = some cnt)
    {before after : List ObserverPtr} {vp : ObserverPtr} (split : obs.observers = before ++ vp :: after)
    (informs : ∀ vp ∈ before, reg.Informs env op vp) (deletes : reg.Deletes env op vp) :
    ecObCb platform env reg op = .error .disposed := by
  obtain ⟨attempts, observers, walked⟩ := ecObCb_reaches platform found clock split informs
  obtain ⟨_, _, _, _, same⟩ := reg.saveMids_frame env before
  let round : Round := ⟨reg.saveMids env before, env.drained, attempts, false⟩
  have there : round.reg.Deletes env op vp := (same op vp).mpr deletes
  rw [walked, ecObCbLoop_deletes platform cnt after there]
  rfl

/-- A round that comes to a live observer whose notification does not go out ends through the error label. -/
theorem ecObCb_fails (found : reg.observations.cells op = some obs) (clock : env.counter = some cnt)
    {before after : List ObserverPtr} {vp : ObserverPtr} (split : obs.observers = before ++ vp :: after)
    (informs : ∀ vp ∈ before, reg.Informs env op vp) (live : (reg.observers.cells vp).isSome)
    (uninformed : ¬ reg.Informs env op vp) (undeleted : ¬ reg.Deletes env op vp) :
    ∃ attempts : List Attempt, attempts.map (fun attempt => attempt.observer) = before ++ [vp] ∧
      ecObCb platform env reg op = .ok ⟨reg.saveMids env before, env.drained, attempts, true⟩ := by
  obtain ⟨attempts, observers, walked⟩ := ecObCb_reaches platform found clock split informs
  obtain ⟨_, observations, lives, informed, deleted⟩ := reg.saveMids_frame env before
  let round : Round := ⟨reg.saveMids env before, env.drained, attempts, false⟩
  have still : round.reg.observations.cells op = some obs := observations ▸ found
  obtain ⟨ovr, there⟩ := Option.isSome_iff_exists.mp ((lives vp).trans live)
  have fails : ¬ env.Delivers obs.uri vp ovr := by
    intro delivers
    by_cases gone : env.reps vp obs.uri ovr.mediaType = none
    · exact undeleted ((deleted op vp).mp ⟨obs, still, ovr, there, delivers, gone⟩)
    · exact uninformed ((informed op vp).mp ⟨obs, still, ovr, there, delivers, gone⟩)
  obtain ⟨attempt, observer, _, stopped⟩ := ecObCbLoop_fails platform cnt after still there fails
  refine ⟨attempts ++ [attempt], by rw [List.map_append, observers, List.map_singleton, observer], ?_⟩
  rw [walked, stopped]
  dsimp only [Except.bind]
  rw [Round.rearm, if_pos (Or.inl rfl)]

/-- A round that comes to an observer that is not in memory reads it all the same. -/
theorem ecObCb_dangling (found : reg.observations.cells op = some obs) (clock : env.counter = some cnt)
    {before after : List ObserverPtr} {vp : ObserverPtr} (split : obs.observers = before ++ vp :: after)
    (informs : ∀ vp ∈ before, reg.Informs env op vp) (gone : reg.observers.cells vp = none) :
    ecObCb platform env reg op = .error .disposed := by
  obtain ⟨attempts, observers, walked⟩ := ecObCb_reaches platform found clock split informs
  obtain ⟨_, observations, lives, _, _⟩ := reg.saveMids_frame env before
  have absent : (reg.saveMids env before).observers.cells vp = none := by
    rw [← Option.not_isSome_iff_eq_none, lives vp, gone]
    simp
  rw [walked, ecObCbLoop]
  dsimp only
  rw [observations, found, absent]
  rfl

/-- A round that comes to an observer that it does not inform ends there. -/
theorem ecObCb_stops (found : reg.observations.cells op = some obs) (clock : env.counter = some cnt)
    {before after : List ObserverPtr} {vp : ObserverPtr} (split : obs.observers = before ++ vp :: after)
    (informs : ∀ vp ∈ before, reg.Informs env op vp) (uninformed : ¬ reg.Informs env op vp) :
    ecObCb platform env reg op = .error .disposed ∨
      ∃ attempts : List Attempt, attempts.map (fun attempt => attempt.observer) = before ++ [vp] ∧
        ecObCb platform env reg op = .ok ⟨reg.saveMids env before, env.drained, attempts, true⟩ := by
  cases there : reg.observers.cells vp with
  | none => exact Or.inl (ecObCb_dangling platform found clock split informs there)
  | some ovr =>
      have live : (reg.observers.cells vp).isSome := by rw [there]; rfl
      by_cases deletes : reg.Deletes env op vp
      · exact Or.inl (ecObCb_deletes platform found clock split informs deletes)
      · exact Or.inr (ecObCb_fails platform found clock split informs live uninformed deletes)

/-- The end of a walk changes nothing in the registry but the countdown, which it can start. -/
theorem Round.rearm_done {last round : Round} {countdown : Bool} (done : last.rearm op countdown = .ok round) :
    round.told = last.told ∧ (round.reg = last.reg ∨ round.reg = last.reg.setNotify op true) := by
  unfold rearm at done
  split at done
  · cases done
    exact ⟨rfl, Or.inl rfl⟩
  · obtain ⟨started, finished, same⟩ := map_ok done
    unfold Registry.ecObservationStartCountdown at finished
    split at finished
    · cases finished
    · split at finished
      · cases finished
        rw [← same]
        exact ⟨rfl, Or.inr rfl⟩
      · cases finished
        rw [← same]
        exact ⟨rfl, Or.inl rfl⟩

/-- A round has no time to begin with, or it is a walk over the observers with its end. -/
theorem ecObCb_done {round : Round} (done : ecObCb platform env reg op = .ok round) :
    round.reg = reg ∧ round.told = [] ∨
      ∃ cnt obs last, reg.observations.cells op = some obs ∧
        ecObCbLoop platform env op cnt obs.observers ⟨reg, env.drained, [], false⟩ = .ok last ∧
        last.rearm op env.countdown = .ok round := by
  unfold ecObCb at done
  cases clock : env.counter with
  | none =>
      rw [clock] at done
      cases done
      exact Or.inl ⟨rfl, rfl⟩
  | some cnt =>
      rw [clock] at done
      dsimp only at done
      cases found : reg.observations.cells op with
      | none =>
          rw [found] at done
          cases done
      | some obs =>
          rw [found] at done
          dsimp only at done
          cases walked : ecObCbLoop platform env op cnt obs.observers ⟨reg, env.drained, [], false⟩ with
          | error fault =>
              rw [walked] at done
              cases done
          | ok last =>
              rw [walked] at done
              exact Or.inr ⟨cnt, obs, last, rfl, walked, done⟩

end Rounds

/-- What a round does for the observers that an observation has at its start. -/
structure Round.Complete (round : Round) (env : RoundEnv) (op : ObservationPtr) (start : Registry)
    (obs : ObservationCell) : Prop where
  /-- Each observer has one turn. -/
  turns : round.attempts.map (fun attempt => attempt.observer) = obs.observers
  /-- An observer of a deleted resource is told so and removed. -/
  deleted : ∀ vp ∈ obs.observers, ∀ ovr, start.observers.cells vp = some ovr →
    env.reps vp obs.uri ovr.mediaType = none →
    (∃ attempt ∈ round.attempts, attempt.observer = vp ∧
      ∃ datagram, attempt.datagram = some datagram ∧ datagram.hdr.getD 1 0 = rcByte ecDeleted) ∧
    (round.reg.observers.cells vp).isNone
  /-- Every other observer stays. -/
  kept : ∀ vp ∈ obs.observers, ∀ ovr, start.observers.cells vp = some ovr →
    env.reps vp obs.uri ovr.mediaType ≠ none →
    (round.reg.observers.cells vp).isSome ∧
      ∃ obs', round.reg.observations.cells op = some obs' ∧ vp ∈ obs'.observers
  /-- The timer is pending again when an observer is left. -/
  rearmed : ∀ obs', round.reg.observations.cells op = some obs' → obs'.observers ≠ [] → obs'.notify = true

/-- A round on an observation without observers has nothing to do. -/
theorem Round.complete_nobody {round : Round} {env : RoundEnv} {op : ObservationPtr} {start : Registry}
    {obs obs' : ObservationCell} (nobody : obs.observers = []) (turns : round.attempts = [])
    (left : round.reg.observations.cells op = some obs') (none : obs'.observers = []) :
    round.Complete env op start obs where
  turns := by rw [turns, nobody]; rfl
  deleted := by
    intro vp member
    rw [nobody] at member
    cases member
  kept := by
    intro vp member
    rw [nobody] at member
    cases member
  rearmed := by
    intro obs'' found some
    rw [left] at found
    cases found
    exact absurd none some

/-- A round that has informed every observer and set the timer is complete. -/
theorem Round.complete_informed {env : RoundEnv} {op : ObservationPtr} {reg : Registry} {obs : ObservationCell}
    {attempts : List Attempt} {drained failed : Bool} (found : reg.observations.cells op = some obs)
    (turns : attempts.map (fun attempt => attempt.observer) = obs.observers)
    (informs : ∀ vp ∈ obs.observers, reg.Informs env op vp)
    (still : ((reg.setNotify op false).saveMids env obs.observers).observations.cells op =
      some {obs with notify := false}) :
    (⟨((reg.setNotify op false).saveMids env obs.observers).setNotify op true, drained, attempts, failed⟩ :
      Round).Complete env op (reg.setNotify op false) obs where
  turns := turns
  deleted := by
    intro vp member ovr live gone
    obtain ⟨obs', found', ovr', live', _, produced⟩ := informs vp member
    rw [found] at found'
    cases found'
    have same : ovr = ovr' := Option.some.inj (live.symm.trans live')
    exact absurd (same ▸ gone) produced
  kept := by
    intro vp member ovr live _
    refine ⟨?_, _, Registry.setNotify_found still true, member⟩
    change (((reg.setNotify op false).saveMids env obs.observers).observers.cells vp).isSome
    rw [((reg.setNotify op false).saveMids_frame env obs.observers).2.2.1, live]
    rfl
  rearmed := by
    intro obs' left _
    have armed := Registry.setNotify_found still true
    rw [armed] at left
    cases left
    rfl

/-- The round is complete exactly when there is nobody to notify, or when every callback produces a representation, every
notification goes out, the clock and the timer work and the flag that nothing has set reads as false. -/
theorem ecObCb_complete_iff (platform : Platform) (env : RoundEnv) (reg : Registry) (op : ObservationPtr)
    (obs : ObservationCell) (found : reg.observations.cells op = some obs) :
    (∃ round, ecObCb platform env (reg.setNotify op false) op = .ok round ∧
        round.Complete env op (reg.setNotify op false) obs) ↔
      obs.observers = [] ∨ (env.counter.isSome ∧ env.drained = false ∧ env.countdown = true ∧
        ∀ vp ∈ obs.observers, reg.Informs env op vp) := by
  have start := Registry.setNotify_found found false
  have same := Registry.setNotify_informs found false env
  cases clock : env.counter with
  | none =>
      have result : ecObCb platform env (reg.setNotify op false) op =
          .ok ⟨reg.setNotify op false, env.drained, [], true⟩ := by
        rw [ecObCb, clock]
      rw [result]
      constructor
      · rintro ⟨round, same, complete⟩
        cases same
        exact Or.inl complete.turns.symm
      · rintro (nobody | ⟨ticking, _⟩)
        · exact ⟨_, rfl, Round.complete_nobody nobody rfl start nobody⟩
        · cases ticking
  | some cnt =>
      rcases all_or_first (reg.Informs env op) obs.observers with all | ⟨before, vp, after, split, good, bad⟩
      · obtain ⟨attempts, observers, failed, result⟩ := ecObCb_informs platform start clock
          fun vp member => (same vp).mpr (all vp member)
        have still : ((reg.setNotify op false).saveMids env obs.observers).observations.cells op =
            some {obs with notify := false} := by
          rw [((reg.setNotify op false).saveMids_frame env obs.observers).2.1, start]
        rw [result]
        by_cases allowed : env.drained = false ∧ env.countdown = true
        · rw [if_pos allowed]
          refine iff_of_true ⟨_, rfl, Round.complete_informed found observers all still⟩
            (Or.inr ⟨rfl, allowed.1, allowed.2, all⟩)
        · rw [if_neg allowed]
          by_cases nobody : obs.observers = []
          · have none : attempts = [] := by
              rw [nobody] at observers
              exact List.map_eq_nil_iff.mp observers
            exact iff_of_true ⟨_, rfl, Round.complete_nobody nobody none still nobody⟩ (Or.inl nobody)
          · refine iff_of_false ?_ fun cases => ?_
            · rintro ⟨round, finished, complete⟩
              cases finished
              have armed := complete.rearmed _ still nobody
              cases armed
            · rcases cases with empty | ⟨_, unset, countdown, _⟩
              · exact nobody empty
              · exact allowed ⟨unset, countdown⟩
      · have result := ecObCb_stops platform start clock split
          (fun vp member => (same vp).mpr (good vp member)) (mt (same vp).mp bad)
        have refused : ¬ (obs.observers = [] ∨ (true = true ∧ env.drained = false ∧ env.countdown = true ∧
            ∀ vp ∈ obs.observers, reg.Informs env op vp)) := by
          rintro (nobody | ⟨_, _, _, informs⟩)
          · rw [split] at nobody
            simp at nobody
          · exact bad (informs vp (by rw [split]; simp))
        refine iff_of_false ?_ refused
        rintro ⟨round, finished, complete⟩
        rcases result with fault | ⟨attempts, observers, stopped⟩
        · rw [fault] at finished
          cases finished
        · rw [stopped] at finished
          cases finished
          have still : ((reg.setNotify op false).saveMids env before).observations.cells op =
              some {obs with notify := false} := by
            rw [((reg.setNotify op false).saveMids_frame env before).2.1, start]
          have armed := complete.rearmed _ still (by rw [split]; simp)
          cases armed

/-- An observer on this host that has registered without a token. -/
def plainObserver (port : UInt16) : ObserverCell := ⟨⟨observerConn port, none⟩, [], 0, Nat.zero_le 8⟩

/-- The registry after two observers have registered for `/a`. -/
def pairRegistry : Registry where
  observing := [⟨0⟩]
  observations := Heap.empty.alloc ⟨[0x2f, 0x61], 60, [⟨0⟩, ⟨1⟩], true⟩
  observers := (Heap.empty.alloc (plainObserver 40000)).alloc (plainObserver 40001)

/-- A round in which every callback produces one byte and the given sends succeed. -/
def steadyRound (sent : ObserverPtr → Bool) : RoundEnv :=
  ⟨some 1, false, fun _ _ _ => some [1], fun vp => ⟨7, 0, sent vp⟩, true⟩

/-- When all works, both observers are notified and the timer is set again. -/
theorem pairRegistry_complete :
    ∃ round, ecObCb loopbackPlatform (steadyRound fun _ => true) (pairRegistry.setNotify ⟨0⟩ false) ⟨0⟩ = .ok round ∧
      round.Complete (steadyRound fun _ => true) ⟨0⟩ (pairRegistry.setNotify ⟨0⟩ false)
        ⟨[0x2f, 0x61], 60, [⟨0⟩, ⟨1⟩], true⟩ := by
  have informs : ∀ vp ∈ [(⟨0⟩ : ObserverPtr), ⟨1⟩], pairRegistry.Informs (steadyRound fun _ => true) ⟨0⟩ vp := by
    intro vp member
    have delivers : ∀ port : UInt16, (steadyRound fun _ => true).Delivers [0x2f, 0x61] vp (plainObserver port) :=
      fun port => ⟨by simp [steadyRound], by simp [plainObserver, observerConn], rfl, rfl⟩
    simp only [List.mem_cons, List.not_mem_nil, or_false] at member
    rcases member with rfl | rfl
    · exact ⟨_, rfl, plainObserver 40000, rfl, delivers 40000, by simp [steadyRound]⟩
    · exact ⟨_, rfl, plainObserver 40001, rfl, delivers 40001, by simp [steadyRound]⟩
  exact (ecObCb_complete_iff loopbackPlatform (steadyRound fun _ => true) pairRegistry ⟨0⟩ _ rfl).mpr
    (Or.inr ⟨rfl, rfl, rfl, informs⟩)

/-- A send that fails for the first observer ends the round, so the second one is not notified. -/
theorem pairRegistry_silenced :
    ¬ ∀ (platform : Platform) (env : RoundEnv) (reg : Registry) (op : ObservationPtr) (obs : ObservationCell),
      reg.observations.cells op = some obs →
        ∃ round, ecObCb platform env (reg.setNotify op false) op = .ok round ∧
          round.Complete env op (reg.setNotify op false) obs := by
  intro claim
  obtain ⟨round, finished, complete⟩ := claim loopbackPlatform (steadyRound fun vp => decide (vp ≠ ⟨0⟩)) pairRegistry
    ⟨0⟩ ⟨[0x2f, 0x61], 60, [⟨0⟩, ⟨1⟩], true⟩ rfl
  have stopped : ∃ round : Round,
      ecObCb loopbackPlatform (steadyRound fun vp => decide (vp ≠ ⟨0⟩)) (pairRegistry.setNotify ⟨0⟩ false) ⟨0⟩ =
        .ok round ∧ round.attempts.map (fun attempt => attempt.observer) = [⟨0⟩] := ⟨_, rfl, rfl⟩
  obtain ⟨other, same, alone⟩ := stopped
  have turns := complete.turns
  rw [finished] at same
  cases same
  rw [alone] at turns
  simp at turns

end Webthings.Evcoap
