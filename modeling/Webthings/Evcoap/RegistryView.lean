import Webthings.Evcoap.RegistryInvariant
import Webthings.Evcoap.Cancellation

namespace Webthings.Evcoap
open Webthings.Memory

/-- The observers that a list links, without the memory they lie in. -/
def Registry.observersAt (reg : Registry) (list : List ObserverPtr) : List EcObserver :=
  (reg.observers.read list).map ObserverCell.toEcObserver

/-- The observation in a cell, without the memory it lies in. -/
def Registry.viewCell (reg : Registry) (obs : ObservationCell) : EcObservation := ⟨obs.uri, reg.observersAt obs.observers⟩

def Registry.viewAt (reg : Registry) (list : List ObservationPtr) : List EcObservation :=
  (reg.observations.read list).map reg.viewCell

/-- What a registry holds: the observed resources with their observers, in the order of their links. -/
def Registry.view (reg : Registry) : List EcObservation := reg.viewAt reg.observing

section Search

variable {reg : Registry} {op : ObservationPtr} {obs : ObservationCell} {vp : ObserverPtr} {conn : EcConn} {mid : UInt16}

theorem Registry.observersAt_append (reg : Registry) (front back : List ObserverPtr) :
    reg.observersAt (front ++ back) = reg.observersAt front ++ reg.observersAt back := by
  unfold observersAt
  rw [Heap.read_append, List.map_append]

theorem Registry.viewAt_append (reg : Registry) (front back : List ObservationPtr) :
    reg.viewAt (front ++ back) = reg.viewAt front ++ reg.viewAt back := by
  unfold viewAt
  rw [Heap.read_append, List.map_append]

theorem Registry.viewAt_cons (found : reg.observations.cells op = some obs) (rest : List ObservationPtr) :
    reg.viewAt (op :: rest) = reg.viewCell obs :: reg.viewAt rest := by
  unfold viewAt
  rw [Heap.read_cons _ found, List.map_cons]

/-- The walk of an observation finds its first matching observer, and takes it off its list. -/
theorem ecObserverSearch_view_some (searched : reg.ecObserverSearch obs conn mid = .ok (some vp)) :
    (ecObserverSearch (reg.viewCell obs) conn mid).isSome = true ∧
      (reg.viewCell obs).observers.eraseP (observerMatch conn mid) = reg.observersAt (obs.observers.erase vp) := by
  obtain ⟨front, ovr, back, list, live, matched, passed⟩ := reg.observers.search_split searched
  have absent : vp ∉ front := by
    intro member
    have unmatched := passed ovr (List.mem_filterMap.mpr ⟨vp, member, live⟩)
    rw [matched] at unmatched
    cases unmatched
  have observers : (reg.viewCell obs).observers = reg.observersAt front ++ ovr.toEcObserver :: reg.observersAt back := by
    unfold Registry.viewCell
    rw [list, Registry.observersAt_append]
    unfold Registry.observersAt
    rw [Heap.read_cons _ live, List.map_cons]
  have unmatched : ∀ other ∈ reg.observersAt front, ¬ observerMatch conn mid other = true := by
    intro other member both
    obtain ⟨cell, there, rfl⟩ := List.mem_map.mp member
    exact absurd (both.symm.trans (passed cell there)) (by decide)
  constructor
  · unfold ecObserverSearch
    rw [observers, List.find?_isSome]
    exact ⟨ovr.toEcObserver, by simp, matched⟩
  · rw [observers, List.eraseP_append_right _ unmatched, List.eraseP_cons_of_pos matched, list,
      List.erase_append_right _ absent, List.erase_cons_head, Registry.observersAt_append]

/-- The walk of an observation finds nothing when none of its observers matches. -/
theorem ecObserverSearch_view_none (searched : reg.ecObserverSearch obs conn mid = .ok none) :
    ecObserverSearch (reg.viewCell obs) conn mid = none := by
  unfold ecObserverSearch
  rw [List.find?_eq_none]
  intro other member
  obtain ⟨cell, there, rfl⟩ := List.mem_map.mp member
  obtain ⟨wp, linked, live⟩ := List.mem_filterMap.mp there
  obtain ⟨same, found, unmatched⟩ := reg.observers.search_none searched wp linked
  cases live.symm.trans found
  simpa using unmatched

end Search

section Removal

variable {reg : Registry} {op : ObservationPtr} {obs : ObservationCell} {vp : ObserverPtr}

/-- A removal leaves the other observations and what they link as they are. -/
theorem Registry.WellFormed.without_other (wellFormed : reg.WellFormed) (found : reg.observations.cells op = some obs)
    (member : vp ∈ obs.observers) (left : List ObserverPtr) {list : List ObservationPtr} (absent : op ∉ list) :
    (reg.without op vp left).viewAt list = reg.viewAt list := by
  have cells : ∀ q ∈ list, (reg.without op vp left).observations.cells q = reg.observations.cells q := by
    intro q there
    have other : q ≠ op := by
      rintro rfl
      exact absent there
    unfold Registry.without
    split
    · exact (Heap.free_other _ other).trans (Heap.modify_other _ _ other)
    · exact Heap.modify_other _ _ other
  unfold Registry.viewAt
  have read : (reg.without op vp left).observations.read list = reg.observations.read list := List.filterMap_congr cells
  rw [read]
  apply List.map_congr_left
  intro cell there
  obtain ⟨q, linked, live⟩ := List.mem_filterMap.mp there
  have unlinked : vp ∉ cell.observers := by
    intro inside
    apply absent
    rw [wellFormed.tidy.apart op q obs.observers cell.observers vp (Registry.children_of found)
      (Registry.children_of live) member inside]
    exact linked
  unfold Registry.viewCell Registry.observersAt
  rw [Registry.without_observers, Heap.read_free _ unlinked]

/-- What a registry holds after a removal. -/
theorem Registry.WellFormed.without_view (wellFormed : reg.WellFormed) (found : reg.observations.cells op = some obs)
    (member : vp ∈ obs.observers) {before after : List ObservationPtr} (linked : reg.observing = before ++ op :: after) :
    (reg.without op vp (obs.observers.erase vp)).view = reg.viewAt before ++
      (keepOccupied ⟨obs.uri, reg.observersAt (obs.observers.erase vp)⟩ ++ reg.viewAt after) := by
  have once : (before ++ op :: after).Nodup := linked ▸ wellFormed.tidy.once
  obtain ⟨_, tail, apart⟩ := List.nodup_append.mp once
  have early : op ∉ before := fun inside => apart op inside op List.mem_cons_self rfl
  have late : op ∉ after := (List.nodup_cons.mp tail).1
  have gone : vp ∉ obs.observers.erase vp :=
    (wellFormed.tidy.distinct op obs.observers (Registry.children_of found)).not_mem_erase
  have front := wellFormed.without_other found member (obs.observers.erase vp) early
  have back := wellFormed.without_other found member (obs.observers.erase vp) late
  by_cases last : obs.observers.erase vp = []
  · have observing : (reg.without op vp (obs.observers.erase vp)).observing = before ++ after := by
      unfold Registry.without
      rw [if_pos last]
      dsimp only
      rw [linked, List.erase_append_right _ early, List.erase_cons_head]
    have none : keepOccupied ⟨obs.uri, reg.observersAt (obs.observers.erase vp)⟩ = [] := by
      rw [last]
      rfl
    unfold Registry.view
    rw [observing, Registry.viewAt_append, front, back, none, List.nil_append]
  · have observing : (reg.without op vp (obs.observers.erase vp)).observing = before ++ op :: after := by
      unfold Registry.without
      rw [if_neg last]
      exact linked
    have cell : (reg.without op vp (obs.observers.erase vp)).observations.cells op =
        some {obs with observers := obs.observers.erase vp} := by
      unfold Registry.without
      rw [if_neg last]
      dsimp only
      rw [Heap.modify_self, found]
      rfl
    have kept : (reg.without op vp (obs.observers.erase vp)).viewCell {obs with observers := obs.observers.erase vp} =
        ⟨obs.uri, reg.observersAt (obs.observers.erase vp)⟩ := by
      unfold Registry.viewCell Registry.observersAt
      dsimp only
      rw [Registry.without_observers, Heap.read_free _ gone]
    have some : reg.observersAt (obs.observers.erase vp) ≠ [] := by
      obtain ⟨wp, rest, first⟩ := List.exists_cons_of_ne_nil last
      have inside : wp ∈ obs.observers := List.mem_of_mem_erase (first ▸ List.mem_cons_self)
      obtain ⟨ovr, live⟩ := wellFormed.lives found inside
      unfold Registry.observersAt
      rw [first, Heap.read_cons _ live]
      exact List.cons_ne_nil _ _
    have single : keepOccupied ⟨obs.uri, reg.observersAt (obs.observers.erase vp)⟩ =
        [⟨obs.uri, reg.observersAt (obs.observers.erase vp)⟩] := if_neg some
    unfold Registry.view
    rw [observing, Registry.viewAt_append, Registry.viewAt_cons cell, front, back, kept, single]
    rfl

end Removal

section Refinement

variable {reg : Registry} {op : ObservationPtr} {vp : ObserverPtr} {conn : EcConn} {mid : UInt16} {uri : List UInt8}

/-- The walk of the registry finds the first observation with the URL. -/
theorem ecObservationSearch_view_some (searched : reg.ecObservationSearch uri = .ok (some op)) :
    ∃ before obs after, reg.observing = before ++ op :: after ∧ reg.observations.cells op = some obs ∧
      asciiStrcaseEqual obs.uri uri = true ∧ ∀ other ∈ reg.viewAt before, asciiStrcaseEqual other.uri uri = false := by
  obtain ⟨before, obs, after, list, found, spelled, passed⟩ := reg.observations.search_split searched
  refine ⟨before, obs, after, list, found, spelled, fun other member => ?_⟩
  obtain ⟨cell, there, rfl⟩ := List.mem_map.mp member
  exact passed cell there

/-- The walk of the registry finds nothing when no observation has the URL. -/
theorem ecObservationSearch_view_none (searched : reg.ecObservationSearch uri = .ok none) :
    ecObservationSearch reg.view uri = none := by
  unfold ecObservationSearch
  rw [List.find?_eq_none]
  intro other member
  obtain ⟨cell, there, rfl⟩ := List.mem_map.mp member
  obtain ⟨q, linked, live⟩ := List.mem_filterMap.mp there
  obtain ⟨same, found, unequal⟩ := reg.observations.search_none searched q linked
  cases live.symm.trans found
  exact Bool.eq_false_iff.mp unequal

/-- A GET does to what the registry holds what it does to the registry. -/
theorem ecObserveCanceledByGet_view (wellFormed : reg.WellFormed) {flow : EcFlow} {next : Registry}
    (done : reg.ecObserveCanceledByGet flow = .ok next) : next.view = ecObserveCanceledByGet reg.view flow := by
  unfold Registry.ecObserveCanceledByGet at done
  unfold ecObserveCanceledByGet
  by_cases method : flow.method ≠ .get
  · rw [if_pos method] at done ⊢
    cases done
    rfl
  · rw [if_neg method] at done ⊢
    rcases Registry.removeSource_cases done with ⟨searched, same⟩ | ⟨op, obs, searched, found, removal⟩
    · rw [ecObservationSearch_view_none searched, same]
    · obtain ⟨before, obs', after, linked, found', spelled, passed⟩ := ecObservationSearch_view_some searched
      cases found.symm.trans found'
      have held : reg.view = reg.viewAt before ++ reg.viewCell obs :: reg.viewAt after := by
        unfold Registry.view
        rw [linked, Registry.viewAt_append, Registry.viewAt_cons found]
      have first : ecObservationSearch reg.view flow.urlstr = some (reg.viewCell obs) := by
        apply List.find?_eq_some_iff_append.mpr
        exact ⟨spelled, reg.viewAt before, reg.viewAt after, held, fun other member => by rw [passed other member]; rfl⟩
      rw [first]
      dsimp only
      rcases removal with ⟨observed, same⟩ | ⟨vp, last, observed, removed⟩
      · rw [ecObserverRemove_none (find_here_none (ecObserverSearch_view_none observed)), same]
      · obtain ⟨member, ovr, live, _⟩ := reg.observers.search_some observed
        obtain ⟨matched, left⟩ := ecObserverSearch_view_some observed
        rw [Registry.ecObserverRemove_live found live] at removed
        cases removed
        -- No earlier observation is the one that is meant, because none has its URL.
        have unmeant : ∀ other ∈ reg.viewAt before,
            ¬ (other == reg.viewCell obs && (ecObserverSearch other flow.conn 0).isSome) = true := by
          intro other inside both
          have same : other = reg.viewCell obs := by
            have parts : other = reg.viewCell obs ∧ (ecObserverSearch other flow.conn 0).isSome = true := by
              simpa using both
            exact parts.1
          have unequal := passed other inside
          rw [same] at unequal
          exact absurd (spelled.symm.trans unequal) (by decide)
        rw [wellFormed.without_view found member linked, held, ecObserverRemove_at (reg.viewAt after) unmeant
          (by simp [matched]), left]
        rfl

/-- The loop stops at an observation with a matching observer, and goes on behind any other. -/
theorem rstSearch_cons {q : ObservationPtr} {rest : List ObservationPtr}
    {result : Option (ObservationPtr × ObserverPtr)} (searched : reg.rstSearch conn mid (q :: rest) = .ok result) :
    ∃ obs, reg.observations.cells q = some obs ∧
      ((∃ wp, reg.ecObserverSearch obs conn mid = .ok (some wp) ∧ result = some (q, wp)) ∨
        (reg.ecObserverSearch obs conn mid = .ok none ∧ reg.rstSearch conn mid rest = .ok result)) := by
  rw [Registry.rstSearch] at searched
  cases found : reg.observations.cells q with
  | none =>
      rw [found] at searched
      cases searched
  | some obs =>
      rw [found] at searched
      dsimp only at searched
      refine ⟨obs, rfl, ?_⟩
      cases observed : reg.ecObserverSearch obs conn mid with
      | error fault =>
          rw [observed] at searched
          cases searched
      | ok there =>
          rw [observed] at searched
          cases there with
          | some wp =>
              cases searched
              exact .inl ⟨wp, rfl, rfl⟩
          | none => exact .inr ⟨rfl, searched⟩

/-- The loop over the observations finds the first one with a matching observer. -/
theorem rstSearch_view_some {list : List ObservationPtr} (searched : reg.rstSearch conn mid list = .ok (some (op, vp))) :
    ∃ before obs after, list = before ++ op :: after ∧ reg.observations.cells op = some obs ∧
      reg.ecObserverSearch obs conn mid = .ok (some vp) ∧
      ∀ other ∈ reg.viewAt before, ecObserverSearch other conn mid = none := by
  induction list with
  | nil => cases searched
  | cons q rest ih =>
      obtain ⟨obs, found, ⟨wp, observed, same⟩ | ⟨observed, further⟩⟩ := rstSearch_cons searched
      · cases same
        exact ⟨[], obs, rest, rfl, found, observed, fun other member => by cases member⟩
      · obtain ⟨before, obs', after, same, there, matched, passed⟩ := ih further
        refine ⟨q :: before, obs', after, by rw [same]; rfl, there, matched, fun other member => ?_⟩
        rw [Registry.viewAt_cons found] at member
        rcases List.mem_cons.mp member with here | later
        · rw [here]
          exact ecObserverSearch_view_none observed
        · exact passed other later

/-- The loop over the observations finds nothing when no observer matches. -/
theorem rstSearch_view_none {list : List ObservationPtr} (searched : reg.rstSearch conn mid list = .ok none) :
    ∀ other ∈ reg.viewAt list, ecObserverSearch other conn mid = none := by
  induction list with
  | nil => exact fun other member => by cases member
  | cons q rest ih =>
      obtain ⟨obs, found, ⟨_, _, same⟩ | ⟨observed, further⟩⟩ := rstSearch_cons searched
      · cases same
      · rw [Registry.viewAt_cons found]
        exact List.forall_mem_cons.mpr ⟨ecObserverSearch_view_none observed, ih further⟩

/-- A reset does to what the registry holds what it does to the registry. -/
theorem ecObserveCanceledByRst_view (wellFormed : reg.WellFormed) {next : Registry} {found : Bool}
    (done : reg.ecObserveCanceledByRst conn mid = .ok (next, found)) :
    ecObserveCanceledByRst reg.view conn mid = if found then some next.view else none := by
  unfold Registry.ecObserveCanceledByRst at done
  unfold ecObserveCanceledByRst
  cases searched : reg.rstSearch conn mid reg.observing with
  | error fault =>
      rw [searched] at done
      cases done
  | ok result =>
      rw [searched] at done
      cases result with
      | none =>
          cases done
          have nobody := rstSearch_view_none searched
          rw [if_neg, if_neg (by decide)]
          rw [List.any_eq_true]
          rintro ⟨other, member, matched⟩
          rw [nobody other member] at matched
          cases matched
      | some pair =>
          obtain ⟨op, vp⟩ := pair
          obtain ⟨before, obs, after, linked, there, observed, passed⟩ := rstSearch_view_some searched
          obtain ⟨matched, left⟩ := ecObserverSearch_view_some observed
          obtain ⟨member, ovr, live, _⟩ := reg.observers.search_some observed
          dsimp only at done
          rw [Registry.ecObserverRemove_live there live] at done
          cases done
          have held : reg.view = reg.viewAt before ++ reg.viewCell obs :: reg.viewAt after := by
            unfold Registry.view
            rw [linked, Registry.viewAt_append, Registry.viewAt_cons there]
          have some : reg.view.any (fun other => (ecObserverSearch other conn mid).isSome) = true := by
            rw [held, List.any_eq_true]
            exact ⟨reg.viewCell obs, by simp, matched⟩
          have unmatched : ∀ other ∈ reg.viewAt before, ¬ (true && (ecObserverSearch other conn mid).isSome) = true := by
            intro other inside
            rw [passed other inside]
            decide
          rw [if_pos some, if_pos rfl, wellFormed.without_view there member linked, held,
            ecObserverRemove_at (reg.viewAt after) unmatched (by simp [matched]), left]
          rfl

/-- A reset and a GET cancel exactly what they should in a registry under the conditions on what it holds. -/
theorem Registry.WellFormed.cancels_exactly_iff (wellFormed : reg.WellFormed) (conn : EcConn) (mid : UInt16)
    (flow : EcFlow) :
    (∃ next found, reg.ecObserveCanceledByRst conn mid = .ok (next, found) ∧ next.WellFormed ∧
      ((if found then next.view else reg.view) = cancelExactly (lastSent conn.peer mid) reg.view ↔
        RstExact reg.view conn mid)) ∧
    ∃ next, reg.ecObserveCanceledByGet {flow with method := .get} = .ok next ∧ next.WellFormed ∧
      (next.view = cancelExactly (observesUrl flow.conn.peer flow.urlstr) reg.view ↔
        GetExact reg.view flow.conn flow.urlstr) := by
  constructor
  · obtain ⟨⟨next, found⟩, done, kept⟩ := wellFormed.canceledByRst conn mid
    refine ⟨next, found, done, kept, ?_⟩
    rw [← ecObserveCanceledByRst_exact_iff, ecObserveCanceledByRst_view wellFormed done]
    cases found <;> rfl
  · obtain ⟨next, done, kept⟩ := wellFormed.canceledByGet {flow with method := .get}
    refine ⟨next, done, kept, ?_⟩
    rw [ecObserveCanceledByGet_view wellFormed done]
    exact ecObserveCanceledByGet_exact_iff reg.view flow

end Refinement

end Webthings.Evcoap
