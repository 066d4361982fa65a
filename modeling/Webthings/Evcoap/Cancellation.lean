import Webthings.Evcoap.Observe
import Mathlib.Algebra.BigOperators.Group.List.Basic

namespace Webthings.Evcoap

/-- The observers that `gone` picks are cancelled, and the observations that this leaves empty go with them. -/
def cancelExactly (gone : List UInt8 → EcObserver → Bool) (observing : List EcObservation) : List EcObservation :=
  observing.filterMap fun obs =>
    let left := obs.observers.filter fun ovr => !gone obs.uri ovr
    if left = [] ∧ obs.observers ≠ [] then none else some {obs with observers := left}

/-- The number of the observers that `gone` picks. -/
def picked (gone : List UInt8 → EcObserver → Bool) (observing : List EcObservation) : Nat :=
  (observing.map fun obs => obs.observers.countP (gone obs.uri)).sum

/-- The observers of a source that were notified, with the given MID last. -/
def lastSent (peer : SockAddr) (mid : UInt16) (_ : List UInt8) (ovr : EcObserver) : Bool :=
  ovr.conn.peer == peer && ovr.notified == some mid

/-- The observers of a source that observe the given URL. -/
def observesUrl (peer : SockAddr) (urlstr uri : List UInt8) (ovr : EcObserver) : Bool :=
  uri == urlstr && ovr.conn.peer == peer

/-- An observation is kept as long as it has an observer. -/
def keepOccupied (obs : EcObservation) : List EcObservation := if obs.observers = [] then [] else [obs]

/-- One observer was taken from an observation of the URL, which has gone if it was the last one. -/
def RemovesOne (observing result : List EcObservation) (uri : List UInt8) (ovr : EcObserver) : Prop :=
  ∃ before obs after front back, observing = before ++ obs :: after ∧ obs.uri = uri ∧
    obs.observers = front ++ ovr :: back ∧
    result = before ++ (keepOccupied {obs with observers := front ++ back} ++ after)

section Picked

variable (gone : List UInt8 → EcObserver → Bool)

theorem picked_append (first second : List EcObservation) :
    picked gone (first ++ second) = picked gone first + picked gone second := by
  simp [picked]

theorem picked_cons (obs : EcObservation) (rest : List EcObservation) :
    picked gone (obs :: rest) = obs.observers.countP (gone obs.uri) + picked gone rest := by
  simp [picked]

theorem picked_keepOccupied (obs : EcObservation) :
    picked gone (keepOccupied obs) = obs.observers.countP (gone obs.uri) := by
  unfold keepOccupied
  split
  · rename_i none
    rw [none]
    rfl
  · simp [picked]

theorem cancelExactly_append (first second : List EcObservation) :
    cancelExactly gone (first ++ second) = cancelExactly gone first ++ cancelExactly gone second := by
  simp [cancelExactly]

theorem cancelExactly_cons (obs : EcObservation) (rest : List EcObservation) :
    cancelExactly gone (obs :: rest) = cancelExactly gone [obs] ++ cancelExactly gone rest :=
  cancelExactly_append gone [obs] rest

/-- One observation is left with the observers that are not picked. -/
theorem cancelExactly_one (obs : EcObservation) (some : obs.observers ≠ []) :
    cancelExactly gone [obs] =
      keepOccupied {obs with observers := obs.observers.filter fun ovr => !gone obs.uri ovr} := by
  unfold cancelExactly keepOccupied
  rw [List.filterMap_cons, List.filterMap_nil]
  dsimp only
  by_cases none : (obs.observers.filter fun ovr => !gone obs.uri ovr) = []
  · rw [if_pos ⟨none, some⟩, if_pos none]
  · rw [if_neg fun both => none both.1, if_neg none]

/-- When nobody is picked, nothing changes. -/
theorem cancelExactly_nobody (observing : List EcObservation) (nobody : picked gone observing = 0) :
    cancelExactly gone observing = observing := by
  induction observing with
  | nil => rfl
  | cons obs rest ih =>
      rw [picked_cons] at nobody
      have stays : (obs.observers.filter fun ovr => !gone obs.uri ovr) = obs.observers := by
        rw [List.filter_eq_self]
        intro ovr member
        have unpicked := List.countP_eq_zero.mp (Nat.eq_zero_of_add_eq_zero_right nobody) ovr member
        simpa using unpicked
      rw [cancelExactly_cons, ih (Nat.eq_zero_of_add_eq_zero_left nobody)]
      unfold cancelExactly
      rw [List.filterMap_cons, List.filterMap_nil]
      dsimp only
      rw [stays, if_neg fun both => both.2 both.1]
      rfl

/-- What is left of an observation has the unpicked observers in it. -/
theorem picked_cancelExactly_one (other : List UInt8 → EcObserver → Bool) (obs : EcObservation) :
    picked other (cancelExactly gone [obs]) =
      (obs.observers.filter fun ovr => !gone obs.uri ovr).countP (other obs.uri) := by
  by_cases none : obs.observers = []
  · have unpicked : picked gone [obs] = 0 := by simp [picked, none]
    rw [cancelExactly_nobody gone [obs] unpicked, none]
    simp [picked, none]
  · rw [cancelExactly_one gone obs none, picked_keepOccupied]

/-- Nobody who is to be cancelled is left. -/
theorem picked_cancelExactly (observing : List EcObservation) : picked gone (cancelExactly gone observing) = 0 := by
  induction observing with
  | nil => rfl
  | cons obs rest ih =>
      rw [cancelExactly_cons, picked_append, ih, picked_cancelExactly_one, Nat.add_zero, List.countP_eq_zero]
      intro ovr member
      have unpicked := (List.mem_filter.mp member).2
      simpa using unpicked

/-- Everybody else is left. -/
theorem cancelExactly_total (observing : List EcObservation) :
    picked (fun _ _ => true) (cancelExactly gone observing) + picked gone observing =
      picked (fun _ _ => true) observing := by
  induction observing with
  | nil => rfl
  | cons obs rest ih =>
      have parts : (obs.observers.filter fun ovr => !gone obs.uri ovr).length + obs.observers.countP (gone obs.uri) =
          obs.observers.length := by
        have negated : (fun ovr => decide ¬ gone obs.uri ovr = true) = fun ovr => !gone obs.uri ovr := by
          funext ovr
          cases gone obs.uri ovr <;> rfl
        have whole := List.length_eq_countP_add_countP (gone obs.uri) (l := obs.observers)
        rw [negated] at whole
        rw [← List.countP_eq_length_filter]
        omega
      rw [cancelExactly_cons, picked_append, picked_cancelExactly_one, picked_cons, picked_cons, List.countP_true]
      omega

/-- Taking one observer away is exact when that one, and no other, is picked. -/
theorem RemovesOne.exact_iff {observing result : List EcObservation} {uri : List UInt8} {ovr : EcObserver}
    (removes : RemovesOne observing result uri ovr) :
    result = cancelExactly gone observing ↔ gone uri ovr = true ∧ picked gone observing = 1 := by
  obtain ⟨before, obs, after, front, back, rfl, rfl, observers, rfl⟩ := removes
  have some : obs.observers ≠ [] := by
    rw [observers]
    simp
  have count : ∀ other : List UInt8 → EcObserver → Bool,
      picked other (before ++ obs :: after) =
        picked other (before ++ (keepOccupied {obs with observers := front ++ back} ++ after)) +
          if other obs.uri ovr then 1 else 0 := by
    intro other
    rw [picked_append, picked_append, picked_append, picked_cons, picked_keepOccupied, observers]
    dsimp only
    rw [List.countP_append, List.countP_append, List.countP_cons]
    omega
  constructor
  · intro same
    have all := count fun _ _ => true
    have own := count gone
    have left := cancelExactly_total gone (before ++ obs :: after)
    rw [same] at all own
    rw [picked_cancelExactly] at own
    simp only [if_true] at all
    have one : picked gone (before ++ obs :: after) = 1 := by omega
    refine ⟨?_, one⟩
    by_contra unpicked
    rw [if_neg unpicked] at own
    omega
  · rintro ⟨hit, one⟩
    rw [picked_append, picked_cons, observers, List.countP_append, List.countP_cons, if_pos hit] at one
    have stays : ∀ list : List EcObserver, list.countP (gone obs.uri) = 0 →
        (list.filter fun ovr => !gone obs.uri ovr) = list := by
      intro list none
      rw [List.filter_eq_self]
      intro other member
      have unpicked := List.countP_eq_zero.mp none other member
      simpa using unpicked
    rw [cancelExactly_append, cancelExactly_cons, cancelExactly_nobody gone before (by omega),
      cancelExactly_nobody gone after (by omega), cancelExactly_one gone obs some, observers, List.filter_append,
      List.filter_cons, stays front (by omega), stays back (by omega), hit]
    simp

end Picked

/-- Sources match when the family of the request is known and the addresses and ports are the same. -/
theorem ecSourceMatch_iff (reqSrc obsSrc : EcConn) :
    ecSourceMatch reqSrc obsSrc = true ↔ (ecNetSocklen reqSrc.peer).isSome ∧ obsSrc.peer = reqSrc.peer := by
  unfold ecSourceMatch
  cases known : ecNetSocklen reqSrc.peer with
  | none => simp
  | some length =>
      constructor
      · intro same
        exact ⟨rfl, (beq_iff_eq.mp same).symm⟩
      · rintro ⟨_, same⟩
        exact beq_iff_eq.mpr same.symm

/-- The observers of a source are searched for without a MID. -/
theorem ecObserverSearch_isSome_iff (obs : EcObservation) (conn : EcConn) :
    (ecObserverSearch obs conn 0).isSome = true ↔
      (ecNetSocklen conn.peer).isSome ∧ obs.observers.any (fun ovr => ovr.conn.peer == conn.peer) = true := by
  unfold ecObserverSearch observerMatch
  rw [List.find?_isSome, List.any_eq_true]
  constructor
  · rintro ⟨ovr, there, both⟩
    have matched : ecSourceMatch conn ovr.conn = true := by simpa using both
    obtain ⟨known, same⟩ := (ecSourceMatch_iff conn ovr.conn).mp matched
    exact ⟨known, ovr, there, beq_iff_eq.mpr same⟩
  · rintro ⟨known, ovr, there, same⟩
    have matched := (ecSourceMatch_iff conn ovr.conn).mpr ⟨known, beq_iff_eq.mp same⟩
    exact ⟨ovr, there, by simp [matched]⟩

/-- The removal passes the observations that are not meant or have no matching observer. -/
theorem ecObserverRemove_at {here : EcObservation → Bool} {conn : EcConn} {mid : UInt16}
    {before : List EcObservation} {obs : EcObservation} (after : List EcObservation)
    (passed : ∀ other ∈ before, ¬ (here other && (ecObserverSearch other conn mid).isSome) = true)
    (hit : (here obs && (ecObserverSearch obs conn mid).isSome) = true) :
    ecObserverRemove here conn mid (before ++ obs :: after) =
      before ++ (keepOccupied {obs with observers := obs.observers.eraseP (observerMatch conn mid)} ++ after) := by
  induction before with
  | nil =>
      rw [List.nil_append, ecObserverRemove, if_pos hit, keepOccupied, List.nil_append]
      dsimp only
      split <;> rfl
  | cons head rest ih =>
      have later := ih fun other member => passed other (List.mem_cons_of_mem head member)
      rw [List.cons_append, ecObserverRemove, if_neg (passed head List.mem_cons_self), later, List.cons_append]

/-- The removal takes the first matching observer of the first observation that is meant and has one. -/
theorem ecObserverRemove_removes {here : EcObservation → Bool} {conn : EcConn} {mid : UInt16}
    {observing : List EcObservation} {obs : EcObservation} {ovr : EcObserver}
    (first : (observing.find? fun obs => here obs && (ecObserverSearch obs conn mid).isSome) = some obs)
    (found : ecObserverSearch obs conn mid = some ovr) :
    RemovesOne observing (ecObserverRemove here conn mid observing) obs.uri ovr := by
  obtain ⟨hit, before, after, rfl, passed⟩ := List.find?_eq_some_iff_append.mp first
  obtain ⟨matched, front, back, observers, unmatched⟩ := List.find?_eq_some_iff_append.mp found
  have left : obs.observers.eraseP (observerMatch conn mid) = front ++ back := by
    rw [observers, List.eraseP_append_right _ fun other member => by simpa using unmatched other member,
      List.eraseP_cons_of_pos matched]
  have removed := ecObserverRemove_at after (fun other member both => by
    have missed := passed other member
    rw [both] at missed
    cases missed) hit
  rw [left] at removed
  exact ⟨before, obs, after, front, back, rfl, rfl, observers, removed⟩

theorem ecObserverRemove_none {here : EcObservation → Bool} {conn : EcConn} {mid : UInt16}
    {observing : List EcObservation}
    (nobody : (observing.find? fun obs => here obs && (ecObserverSearch obs conn mid).isSome) = none) :
    ecObserverRemove here conn mid observing = observing := by
  induction observing with
  | nil => rfl
  | cons head rest ih =>
      rw [List.find?_eq_none] at nobody
      have miss := nobody head List.mem_cons_self
      rw [ecObserverRemove, if_neg miss, ih]
      rw [List.find?_eq_none]
      exact fun obs member => nobody obs (List.mem_cons_of_mem head member)

/-- What stays as it is was cancelled exactly when nobody was to be cancelled. -/
theorem unchanged_exact_iff (gone : List UInt8 → EcObserver → Bool) (observing : List EcObservation) :
    observing = cancelExactly gone observing ↔ picked gone observing = 0 := by
  constructor
  · intro same
    rw [same]
    exact picked_cancelExactly gone observing
  · exact fun nobody => (cancelExactly_nobody gone observing nobody).symm

/-- A reset takes the first matching observer of all. -/
theorem ecObserverRemove_first (conn : EcConn) (mid : UInt16) (observing : List EcObservation) :
    match (observing.flatMap fun obs => obs.observers).find? (observerMatch conn mid) with
    | none => ecObserverRemove (fun _ => true) conn mid observing = observing
    | some ovr => ∃ uri, RemovesOne observing (ecObserverRemove (fun _ => true) conn mid observing) uri ovr := by
  cases found : (observing.flatMap fun obs => obs.observers).find? (observerMatch conn mid) with
  | none =>
      rw [List.find?_flatMap, List.findSome?_eq_none_iff] at found
      apply ecObserverRemove_none
      rw [List.find?_eq_none]
      intro obs member
      have nobody : ecObserverSearch obs conn mid = none := found obs member
      simp [nobody]
  | some ovr =>
      rw [List.find?_flatMap, List.findSome?_eq_some_iff] at found
      obtain ⟨before, obs, after, rfl, search, unmatched⟩ := found
      have hit : ((before ++ obs :: after).find? fun obs => true && (ecObserverSearch obs conn mid).isSome) = some obs := by
        rw [List.find?_eq_some_iff_append]
        refine ⟨?_, before, after, rfl, ?_⟩
        · have there : ecObserverSearch obs conn mid = some ovr := search
          simp [there]
        · intro other member
          have nobody : ecObserverSearch other conn mid = none := unmatched other member
          simp [nobody]
      exact ⟨obs.uri, ecObserverRemove_removes hit search⟩

theorem ecObserveCanceledByRst_removes (observing : List EcObservation) (conn : EcConn) (mid : UInt16) :
    (ecObserveCanceledByRst observing conn mid).getD observing =
      ecObserverRemove (fun _ => true) conn mid observing := by
  unfold ecObserveCanceledByRst
  by_cases matched : (observing.any fun obs => (ecObserverSearch obs conn mid).isSome) = true
  · rw [if_pos matched]
    rfl
  · rw [if_neg matched]
    refine (ecObserverRemove_none ?_).symm
    rw [List.find?_eq_none]
    intro obs member both
    refine matched (List.any_eq_true.mpr ⟨obs, member, ?_⟩)
    simpa using both

/-- The observers of all resources that have a source and a last MID. -/
theorem picked_lastSent (peer : SockAddr) (mid : UInt16) (observing : List EcObservation) :
    picked (lastSent peer mid) observing =
      (observing.flatMap fun obs => obs.observers).countP fun ovr => ovr.conn.peer == peer && ovr.notified == some mid := by
  rw [List.countP_flatMap]
  rfl

/-- The condition under which a reset cancels what it should: at most one observer of the source was sent the MID last;
for MID 0, which matches every observer of the source, it has to be the first one of the source. An observer that was
not notified yet was sent no MID. -/
def RstExact (observing : List EcObservation) (conn : EcConn) (mid : UInt16) : Prop :=
  match ecNetSocklen conn.peer with
  | none => picked (lastSent conn.peer mid) observing = 0
  | some _ =>
      if mid = 0 then
        ∀ ovr, (observing.flatMap fun obs => obs.observers).find? (fun ovr => ovr.conn.peer == conn.peer) = some ovr →
          ovr.notified = some 0 ∧ picked (lastSent conn.peer 0) observing = 1
      else picked (lastSent conn.peer mid) observing ≤ 1

/-- A reset cancels what it should exactly when nobody matches or is to be cancelled, or the first one who matches is
the only one. -/
theorem ecObserveCanceledByRst_first_iff (observing : List EcObservation) (conn : EcConn) (mid : UInt16) :
    (ecObserveCanceledByRst observing conn mid).getD observing =
        cancelExactly (lastSent conn.peer mid) observing ↔
      match (observing.flatMap fun obs => obs.observers).find? (observerMatch conn mid) with
      | none => picked (lastSent conn.peer mid) observing = 0
      | some ovr => lastSent conn.peer mid [] ovr = true ∧ picked (lastSent conn.peer mid) observing = 1 := by
  have first := ecObserverRemove_first conn mid observing
  rw [ecObserveCanceledByRst_removes]
  cases found : (observing.flatMap fun obs => obs.observers).find? (observerMatch conn mid) with
  | none =>
      rw [found] at first
      rw [first]
      exact unchanged_exact_iff _ observing
  | some ovr =>
      rw [found] at first
      obtain ⟨uri, removes⟩ := first
      exact removes.exact_iff (lastSent conn.peer mid)

theorem ecObserveCanceledByRst_exact_iff (observing : List EcObservation) (conn : EcConn) (mid : UInt16) :
    (ecObserveCanceledByRst observing conn mid).getD observing =
        cancelExactly (lastSent conn.peer mid) observing ↔ RstExact observing conn mid := by
  have number := picked_lastSent conn.peer mid observing
  rw [ecObserveCanceledByRst_first_iff]
  unfold RstExact
  cases known : ecNetSocklen conn.peer with
  | none =>
      have nobody : (observing.flatMap fun obs => obs.observers).find? (observerMatch conn mid) = none := by
        rw [List.find?_eq_none]
        intro ovr _
        simp [observerMatch, ecSourceMatch, known]
      rw [nobody]
  | some length =>
      have source : ∀ ovr : EcObserver, observerMatch conn mid ovr =
          (ovr.conn.peer == conn.peer && (mid == 0 || ovr.lastMid == mid)) := by
        intro ovr
        simp [observerMatch, ecSourceMatch, known, Bool.beq_comm]
      dsimp only
      by_cases wild : mid = 0
      · subst wild
        rw [if_pos rfl]
        have same : observerMatch conn 0 = fun ovr : EcObserver => ovr.conn.peer == conn.peer := by
          funext ovr
          rw [source]
          simp
        rw [same]
        cases found : (observing.flatMap fun obs => obs.observers).find? (fun ovr => ovr.conn.peer == conn.peer) with
        | none =>
            dsimp only
            rw [number, List.countP_eq_zero]
            refine iff_of_true (fun ovr member => ?_) (fun ovr same => by cases same)
            have other := List.find?_eq_none.mp found ovr member
            simp only [beq_iff_eq] at other
            simp [other]
        | some ovr =>
            have own := List.find?_some found
            simp only [Option.some.injEq, forall_eq']
            unfold lastSent
            rw [own]
            simp
      · rw [if_neg wild]
        have same : observerMatch conn mid = lastSent conn.peer mid [] := by
          funext ovr
          have nonzero : (mid == 0) = false := beq_eq_false_iff_ne.mpr wild
          have sent : (ovr.lastMid == mid) = (ovr.notified == some mid) := by
            rw [Bool.eq_iff_iff, beq_iff_eq, beq_iff_eq]
            exact ovr.lastMid_eq_iff wild
          rw [source, nonzero, Bool.false_or, sent]
          rfl
        rw [same]
        cases found : (observing.flatMap fun obs => obs.observers).find? (lastSent conn.peer mid []) with
        | none =>
            have nobody : picked (lastSent conn.peer mid) observing = 0 := by
              rw [number, List.countP_eq_zero]
              exact fun ovr member => List.find?_eq_none.mp found ovr member
            exact iff_of_true nobody (nobody ▸ Nat.zero_le 1)
        | some ovr =>
            have own := List.find?_some found
            have some : 0 < picked (lastSent conn.peer mid) observing := by
              rw [number, List.countP_pos_iff]
              exact ⟨ovr, List.mem_of_find?_eq_some found, own⟩
            constructor
            · exact fun both => Nat.le_of_eq both.2
            · exact fun atMost => ⟨own, Nat.le_antisymm atMost some⟩

/-- The condition under which a GET cancels what it should: the source observes the URL itself, once, as a resource that
no other spelling of the URL in the list comes before; or it does not observe it at all. -/
def GetExact (observing : List EcObservation) (conn : EcConn) (urlstr : List UInt8) : Prop :=
  ∀ found, ecObservationSearch observing urlstr = some found →
    if (ecNetSocklen conn.peer).isSome ∧ found.observers.any (fun ovr => ovr.conn.peer == conn.peer) = true then
      found.uri = urlstr ∧ picked (observesUrl conn.peer urlstr) observing = 1
    else picked (observesUrl conn.peer urlstr) observing = 0

/-- Nobody observes a URL that no observation has in any spelling. -/
theorem picked_observesUrl_unsearched (peer : SockAddr) {observing : List EcObservation} {urlstr : List UInt8}
    (unsearched : ecObservationSearch observing urlstr = none) : picked (observesUrl peer urlstr) observing = 0 := by
  unfold picked
  rw [List.sum_eq_zero_iff_forall_eq_nat]
  intro number member
  obtain ⟨obs, there, rfl⟩ := List.mem_map.mp member
  rw [List.countP_eq_zero]
  intro ovr _ picked
  have spelled : obs.uri = urlstr := by
    have parts : obs.uri = urlstr ∧ ovr.conn.peer = peer := by simpa [observesUrl] using picked
    exact parts.1
  have unequal := List.find?_eq_none.mp unsearched obs there
  rw [spelled] at unequal
  simp [asciiStrcaseEqual] at unequal

section Here

variable {observing : List EcObservation} {found : EcObservation} {conn : EcConn} {mid : UInt16}

/-- The observation that the removal is meant for is found when it has a matching observer. -/
theorem find_here_some {ovr : EcObserver} (member : found ∈ observing)
    (own : ecObserverSearch found conn mid = some ovr) :
    (observing.find? fun obs => obs == found && (ecObserverSearch obs conn mid).isSome) = some found := by
  cases hit : observing.find? fun obs => obs == found && (ecObserverSearch obs conn mid).isSome with
  | none =>
      have miss := List.find?_eq_none.mp hit found member
      simp [own] at miss
  | some obs =>
      have both : obs = found ∧ (ecObserverSearch obs conn mid).isSome = true := by simpa using List.find?_some hit
      rw [both.1]

/-- Without a matching observer in that observation the removal finds none. -/
theorem find_here_none (own : ecObserverSearch found conn mid = none) :
    (observing.find? fun obs => obs == found && (ecObserverSearch obs conn mid).isSome) = none := by
  rw [List.find?_eq_none]
  intro obs _ both
  have parts : obs = found ∧ (ecObserverSearch obs conn mid).isSome = true := by simpa using both
  rw [parts.1, own] at parts
  cases parts.2

end Here

theorem ecObserveCanceledByGet_exact_iff (observing : List EcObservation) (flow : EcFlow) :
    ecObserveCanceledByGet observing {flow with method := .get} =
        cancelExactly (observesUrl flow.conn.peer flow.urlstr) observing ↔
      GetExact observing flow.conn flow.urlstr := by
  unfold ecObserveCanceledByGet GetExact
  dsimp only
  rw [if_neg (by simp)]
  cases search : ecObservationSearch observing flow.urlstr with
  | none =>
      refine iff_of_true ?_ (fun found same => by cases same)
      have nobody := picked_observesUrl_unsearched flow.conn.peer search
      exact (cancelExactly_nobody _ observing nobody).symm
  | some found =>
      simp only [Option.some.injEq, forall_eq']
      cases own : ecObserverSearch found flow.conn 0 with
      | none =>
          have unobserved : ¬ ((ecNetSocklen flow.conn.peer).isSome ∧
              found.observers.any (fun ovr => ovr.conn.peer == flow.conn.peer) = true) := by
            rw [← ecObserverSearch_isSome_iff, own]
            decide
          rw [if_neg unobserved, ecObserverRemove_none (find_here_none own), unchanged_exact_iff]
      | some ovr =>
          have observed := (ecObserverSearch_isSome_iff found flow.conn).mp (Option.isSome_iff_exists.mpr ⟨ovr, own⟩)
          have first := find_here_some (List.mem_of_find?_eq_some search) own
          have peer : ovr.conn.peer = flow.conn.peer := by
            have matched : ecSourceMatch flow.conn ovr.conn = true := by
              simpa [observerMatch] using List.find?_some own
            exact ((ecSourceMatch_iff flow.conn ovr.conn).mp matched).2
          rw [if_pos observed, (ecObserverRemove_removes first own).exact_iff]
          unfold observesUrl
          rw [peer]
          simp

/-- A reset and a GET cancel exactly what they should under their conditions only. -/
theorem cancellation_exact_iff (observing : List EcObservation) (conn : EcConn) (mid : UInt16) (flow : EcFlow) :
    ((ecObserveCanceledByRst observing conn mid).getD observing =
        cancelExactly (lastSent conn.peer mid) observing ↔ RstExact observing conn mid) ∧
      (ecObserveCanceledByGet observing {flow with method := .get} =
          cancelExactly (observesUrl flow.conn.peer flow.urlstr) observing ↔
        GetExact observing flow.conn flow.urlstr) :=
  ⟨ecObserveCanceledByRst_exact_iff observing conn mid, ecObserveCanceledByGet_exact_iff observing flow⟩

/-- A reset with the MID 0 takes an observer whose last notification had another MID. -/
theorem wildReset_inexact :
    ¬ ∀ (observing : List EcObservation) (conn : EcConn) (mid : UInt16) (flow : EcFlow),
      (ecObserveCanceledByRst observing conn mid).getD observing =
          cancelExactly (lastSent conn.peer mid) observing ∧
        ecObserveCanceledByGet observing {flow with method := .get} =
          cancelExactly (observesUrl flow.conn.peer flow.urlstr) observing := by
  intro claim
  have reset := (claim [⟨[0x2f, 0x61], [⟨observerConn 40000, some 7⟩]⟩] (observerConn 40000) 0 EcFlow.zero).1
  revert reset
  decide

end Webthings.Evcoap
