import Webthings.Kache.Shelf

namespace Webthings.Kache
open Webthings.Evcoap
open Webthings.Memory
open Webthings.Transition

section Calls

/-- The payload of the response of a store, if it has one. -/
def StoreCall.payload (call : StoreCall) : Option (List UInt8) :=
  if call.response.payload = [] then none else some call.response.payload

def StoreCall.etag (call : StoreCall) : Option (List UInt8) := (ecOptsGet call.response.opts .etag).map EcOpt.value

/-- The stores from the last one for another URI on, which begins a new object under the literal. -/
def reaching (calls : List StoreCall) : List StoreCall :=
  calls.foldl (fun earlier call => if call.uri = literalKey then earlier ++ [call] else [call]) []

/-- The last of some values is there, or none of them is. -/
def Lasting (values : List (Option (List UInt8))) : Prop :=
  (∃ value, values.getLast? = some (some value)) ∨ ∀ value ∈ values, value = none

/-- The last of some stores has a payload or none of them has one, and the same of the ETags. -/
structure Steady (stores : List StoreCall) : Prop where
  payload : Lasting (stores.map StoreCall.payload)
  etag : Lasting (stores.map StoreCall.etag)

variable (order : ByteOrder)

/-- Those that reach the end of some stores and are for a media type. -/
def storesFor (calls : List StoreCall) (mt : KacheContentType) : List StoreCall :=
  (reaching calls).filter fun call => call.mediaType order = mt

/-- The Token of every response fits, and a store for the literal comes after steady stores for its media type. -/
def Storable (calls : List StoreCall) : Prop :=
  ∀ before call after, calls = before ++ call :: after → TokenFits call.behind call.response.opts ∧
    (call.uri = literalKey → Steady (storesFor order before (call.mediaType order)))

/-- The last Max-Age of some stores that could be read, with 60 in the place of 0. -/
def lifetime (stores : List StoreCall) : UInt32 :=
  let maxAge := ((stores.filterMap fun call => ecOptsGetMaxAge order call.response.opts).getLast?).getD 0
  if maxAge = 0 then 60 else maxAge

/-- A store for another URI lets nothing before it reach the end. -/
theorem storesFor_snoc (calls : List StoreCall) (call : StoreCall) (mt : KacheContentType) :
    storesFor order (calls ++ [call]) mt =
      (if call.uri = literalKey then storesFor order calls mt else []) ++
        if call.mediaType order = mt then [call] else [] := by
  have reached : reaching (calls ++ [call]) = (if call.uri = literalKey then reaching calls else []) ++ [call] := by
    unfold reaching
    rw [List.foldl_append, List.foldl_cons, List.foldl_nil]
    split <;> rfl
  have own : List.filter (fun call => decide (call.mediaType order = mt)) [call] =
      if call.mediaType order = mt then [call] else [] := by
    by_cases same : call.mediaType order = mt <;> simp [same]
  unfold storesFor
  rw [reached, List.filter_append, own]
  split <;> rfl

end Calls

section Kept

/-- A pointer that is set by the values that are there and released ahead of the others. -/
def kept (values : List (Option (List UInt8))) : Buffer :=
  values.foldl (fun buffer value => value.elim buffer.cleared .holds) .null

variable (values : List (Option (List UInt8)))

theorem kept_snoc (value : Option (List UInt8)) : kept (values ++ [value]) = value.elim (kept values).cleared .holds := by
  unfold kept
  rw [List.foldl_append]
  rfl

/-- Only a pointer that was never set is NULL. -/
theorem kept_null_iff : kept values = .null ↔ ∀ value ∈ values, value = none := by
  induction values using List.reverseRecOn with
  | nil => simp [kept]
  | append_singleton values value ih =>
      rw [kept_snoc, List.forall_mem_append, List.forall_mem_singleton, ← ih]
      cases value with
      | none => cases kept values <;> simp [Buffer.cleared]
      | some bytes => simp

/-- A pointer leads to no released memory when its last value is there or none was. -/
theorem kept_intact_iff : kept values ≠ .released ↔ Lasting values := by
  unfold Lasting
  rw [← kept_null_iff]
  induction values using List.reverseRecOn with
  | nil => simp [kept]
  | append_singleton values value ih =>
      rw [kept_snoc, List.getLast?_concat]
      cases value with
      | none => cases kept values <;> simp [Buffer.cleared]
      | some bytes => simp

/-- What a pointer to memory of its own leads to. -/
theorem kept_lasting {value : Option (List UInt8)} (lasting : Lasting (values ++ [value])) :
    kept (values ++ [value]) = value.elim .null .holds := by
  rcases lasting with ⟨bytes, last⟩ | never
  · rw [List.getLast?_concat] at last
    cases Option.some.inj last
    rw [kept_snoc]
    rfl
  · rw [(kept_null_iff _).mpr never, never value (by simp)]
    rfl

end Kept

section Left

variable (order : ByteOrder)

/-- The representation that stores for one media type leave. -/
def leftBy (stores : List StoreCall) : Option KacheRep :=
  stores.foldl (fun old call => some (written order call ((old.map KacheRep.cleared).getD kacheInitKacheRep))) none

theorem leftBy_snoc (stores : List StoreCall) (call : StoreCall) : leftBy order (stores ++ [call]) =
    some (written order call (((leftBy order stores).map KacheRep.cleared).getD kacheInitKacheRep)) := by
  unfold leftBy
  rw [List.foldl_append]
  rfl

/-- A representation is what stores for one media type, the last of them at the end, leave. -/
structure Left (stores : List StoreCall) (call : StoreCall) (rep : KacheRep) : Prop where
  mediaType : rep.mediaType = call.mediaType order
  payload : rep.payload = kept ((stores ++ [call]).map StoreCall.payload)
  etag : rep.etag = kept ((stores ++ [call]).map StoreCall.etag)
  maxAge : rep.maxAge = lifetime order (stores ++ [call])

variable {order}

/-- The response of a store goes into a representation that was cleared. -/
theorem written_left {stores : List StoreCall} {call : StoreCall} {old : KacheRep}
    (payload : old.payload = (kept (stores.map StoreCall.payload)).cleared)
    (etag : old.etag = (kept (stores.map StoreCall.etag)).cleared)
    (maxAge : stores = [] ∧ old.maxAge = 0 ∨ old.maxAge = lifetime order stores) :
    Left order stores call (written order call old) := by
  refine ⟨rfl, ?_, ?_, ?_⟩
  · rw [List.map_append, List.map_singleton, kept_snoc, ← payload]
    unfold written optioned StoreCall.payload
    dsimp only
    split <;> rfl
  · rw [List.map_append, List.map_singleton, kept_snoc, ← etag]
    unfold written optioned StoreCall.etag
    dsimp only
    cases ecOptsGet call.response.opts .etag <;> rfl
  · have last : (stores ++ [call]).filterMap (fun call => ecOptsGetMaxAge order call.response.opts) =
        stores.filterMap (fun call => ecOptsGetMaxAge order call.response.opts) ++
          (ecOptsGetMaxAge order call.response.opts).toList := by
      rw [List.filterMap_append, List.filterMap_cons, List.filterMap_nil]
      cases ecOptsGetMaxAge order call.response.opts <;> rfl
    unfold written optioned lifetime
    dsimp only
    rw [last]
    cases ecOptsGetMaxAge order call.response.opts with
    | some read => rw [Option.toList_some, List.getLast?_concat, Option.getD_some, Option.getD_some]
    | none =>
        rw [Option.toList_none, List.append_nil, Option.getD_none]
        rcases maxAge with ⟨rfl, zero⟩ | same
        · rw [zero]
          rfl
        · rw [same]
          unfold lifetime
          dsimp only
          split <;> rfl

/-- What some stores leave tells what the next of them leaves. -/
theorem Left.cleared {stores : List StoreCall} {call : StoreCall} {rep : KacheRep} (left : Left order stores call rep)
    (next : StoreCall) : Left order (stores ++ [call]) next (written order next rep.cleared) := by
  apply written_left
  · rw [← left.payload]
    rfl
  · rw [← left.etag]
    rfl
  · exact Or.inr left.maxAge

variable (order) in
theorem leftBy_left (stores : List StoreCall) (call : StoreCall) :
    ∃ rep, leftBy order (stores ++ [call]) = some rep ∧ Left order stores call rep := by
  induction stores using List.reverseRecOn generalizing call with
  | nil => exact ⟨_, rfl, written_left rfl rfl (Or.inl ⟨rfl, rfl⟩)⟩
  | append_singleton stores earlier ih =>
      obtain ⟨rep, found, left⟩ := ih earlier
      refine ⟨_, leftBy_snoc order _ call, ?_⟩
      rw [found]
      exact left.cleared call

/-- A representation has memory of its own exactly when the stores that left it are steady. -/
theorem Left.intact_iff {stores : List StoreCall} {call : StoreCall} {rep : KacheRep} (left : Left order stores call rep) :
    rep.Intact ↔ Steady (stores ++ [call]) := by
  unfold KacheRep.Intact
  rw [left.payload, left.etag, kept_intact_iff, kept_intact_iff]
  exact ⟨fun both => ⟨both.1, both.2⟩, fun steady => ⟨steady.payload, steady.etag⟩⟩

theorem leftBy_intact_iff (stores : List StoreCall) :
    (∀ rep, leftBy order stores = some rep → rep.Intact) ↔ Steady stores := by
  cases stores using List.reverseRecOn with
  | nil => exact iff_of_true (fun rep none => nomatch none) ⟨Or.inr (by simp), Or.inr (by simp)⟩
  | append_singleton stores call =>
      obtain ⟨rep, found, left⟩ := leftBy_left order stores call
      rw [found, ← left.intact_iff]
      simp

end Left

section History

variable (order : ByteOrder)

/-- The stores as they act on the representations under the literal. -/
def shelfMachine : Machine (List KacheRep) StoreCall KacheFault := ⟨fun shelf call => .ok (shelve order shelf call)⟩

/-- The representations that some stores leave under the literal. -/
def shelfAfter (calls : List StoreCall) : List KacheRep := calls.foldl (shelve order) []

theorem shelfAfter_snoc (calls : List StoreCall) (call : StoreCall) :
    shelfAfter order (calls ++ [call]) = shelve order (shelfAfter order calls) call := by
  unfold shelfAfter
  rw [List.foldl_append]
  rfl

/-- Something is under the literal as soon as anything was stored. -/
theorem shelfAfter_nil_iff (calls : List StoreCall) : shelfAfter order calls = [] ↔ calls = [] := by
  cases calls using List.reverseRecOn with
  | nil => exact iff_of_true rfl rfl
  | append_singleton calls call =>
      rw [shelfAfter_snoc, shelve]
      simp

/-- A lookup after a store finds what was written or what was there before. -/
theorem shelve_find (shelf : List KacheRep) (call : StoreCall) (mt : KacheContentType) :
    ((shelve order shelf call).find? fun rep => rep.mediaType = mt) =
      if call.mediaType order = mt then
        some (written order call (((call.old order shelf).map KacheRep.cleared).getD kacheInitKacheRep))
      else (call.base shelf).find? fun rep => rep.mediaType = mt := by
  have type : ∀ old, (written order call old).mediaType = call.mediaType order := fun _ => rfl
  unfold shelve StoreCall.others
  rw [List.find?_append, List.find?_filter]
  by_cases same : call.mediaType order = mt
  · have nothing : ((call.base shelf).find? fun rep => decide (decide (rep.mediaType ≠ call.mediaType order) = true ∧
        decide (rep.mediaType = mt) = true)) = none := by
      apply List.find?_eq_none.mpr
      intro rep _
      simp [same]
    rw [if_pos same, nothing]
    simp [type, same]
  · have others : (fun rep : KacheRep => decide (decide (rep.mediaType ≠ call.mediaType order) = true ∧
        decide (rep.mediaType = mt) = true)) = fun rep => decide (rep.mediaType = mt) := by
      funext rep
      by_cases here : rep.mediaType = mt
      · simp [here, Ne.symm same]
      · simp [here]
    have last : ([written order call (((call.old order shelf).map KacheRep.cleared).getD kacheInitKacheRep)].find?
        fun rep => decide (rep.mediaType = mt)) = none := by
      simp [type, same]
    rw [if_neg same, others, last]
    simp

/-- What is found for a media type is what the stores for it that reach the end have left. -/
theorem shelfAfter_find (calls : List StoreCall) (mt : KacheContentType) :
    ((shelfAfter order calls).find? fun rep => rep.mediaType = mt) = leftBy order (storesFor order calls mt) := by
  induction calls using List.reverseRecOn generalizing mt with
  | nil => rfl
  | append_singleton calls call ih =>
      have base : ∀ mt, ((call.base (shelfAfter order calls)).find? fun rep => rep.mediaType = mt) =
          leftBy order (if call.uri = literalKey then storesFor order calls mt else []) := by
        intro mt
        unfold StoreCall.base
        split
        · exact ih mt
        · rfl
      rw [shelfAfter_snoc, shelve_find, storesFor_snoc]
      by_cases same : call.mediaType order = mt
      · subst same
        rw [if_pos rfl, if_pos rfl, leftBy_snoc, ← base]
        rfl
      · rw [if_neg same, if_neg same, List.append_nil]
        exact base mt

theorem shelfMachine_run (calls : List StoreCall) (shelf : List KacheRep) :
    (shelfMachine order).run shelf calls = .ok (calls.foldl (shelve order) shelf) := by
  induction calls generalizing shelf with
  | nil => rfl
  | cons call calls ih => exact ih (shelve order shelf call)

/-- A store can be written when its Token fits and what it overwrites was left by steady stores. -/
theorem writable_iff (before : List StoreCall) (call : StoreCall) : Writable order (shelfAfter order before) call ↔
    TokenFits call.behind call.response.opts ∧
      (call.uri = literalKey → Steady (storesFor order before (call.mediaType order))) := by
  have old : (∀ rep, call.old order (shelfAfter order before) = some rep → rep.Intact) ↔
      (call.uri = literalKey → Steady (storesFor order before (call.mediaType order))) := by
    rw [← leftBy_intact_iff, ← shelfAfter_find]
    unfold StoreCall.old StoreCall.base
    by_cases literal : call.uri = literalKey
    · rw [if_pos literal]
      exact ⟨fun each _ => each, fun each => each literal⟩
    · rw [if_neg literal]
      exact iff_of_true (fun rep none => nomatch none) fun same => absurd same literal
  rw [← old]
  exact ⟨fun writable => ⟨writable.token, writable.intact⟩, fun both => ⟨both.1, both.2⟩⟩

/-- All of some stores can be written exactly when they are storable. -/
theorem meets_writable_iff (calls : List StoreCall) :
    (shelfMachine order).Meets (Writable order) [] calls ↔ Storable order calls := by
  constructor
  · rintro meets before call after rfl
    exact (writable_iff order before call).mp (meets.at_split (shelfMachine_run order before []))
  · intro storable
    apply Machine.meets_of_splits
    intro before call after middle split reached
    have shelf : shelfAfter order before = middle := Except.ok.inj ((shelfMachine_run order before []).symm.trans reached)
    rw [← shelf]
    exact (writable_iff order before call).mpr (storable before call after split)

end History

end Webthings.Kache
