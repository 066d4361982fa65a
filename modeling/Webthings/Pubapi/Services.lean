import Webthings.Pubapi.Svc
import Webthings.Sorting.Keyed
import Mathlib.Data.Prod.Lex
import Mathlib.Data.List.Chain

namespace Webthings.Pubapi
open Webthings.Evcoap
open Webthings.Sorting

/-- A row of the result: the ids of an attribute and of its path and origin, and their columns, none for NULL. -/
structure Row where
  originId : Nat
  pathId : Nat
  attrId : Nat
  schema : Option (List UInt8)
  ip : Option (List UInt8)
  port : Option (List UInt8)
  path : Option (List UInt8)
  name : Option (List UInt8)
  value : Option (List UInt8)
  deriving DecidableEq, Repr

/-- What the rows are ordered by. -/
def Row.key (row : Row) : ℕ ×ₗ ℕ ×ₗ ℕ := toLex (row.originId, toLex (row.pathId, row.attrId))

/-- What the rows of one service have in common. -/
def Row.service (row : Row) : ℕ ×ₗ ℕ := toLex (row.originId, row.pathId)

/-- The rows that a query asks for. -/
inductive Selection where
  | all
  | named (name : List UInt8)
  | matching (name subStr : List UInt8)
  deriving DecidableEq, Repr

def sqliteAbort : Int := 4

/-- A database with the rows that it has for a query, and the function that gives them to a callback. -/
structure Database where
  rows : Selection → List Row
  sqlite3Exec : {Ctx : Type} → Selection → (Ctx → Row → Ctx × Int) → Ctx → Ctx × Int

/-- A row whose callback returns 0. -/
def proceed {Ctx : Type} (callback : Ctx → Row → Ctx × Int) (ctx : Ctx) (row : Row) : Option Ctx :=
  if (callback ctx row).2 ≠ 0 then none else some (callback ctx row).1

/-- The callback gets the rows one after the other, until it asks for an abort. -/
structure Database.Lawful (db : Database) : Prop where
  completed : ∀ {Ctx : Type} {selection : Selection} {callback : Ctx → Row → Ctx × Int} {ctx last : Ctx},
    (db.rows selection).foldlM (proceed callback) ctx = some last → db.sqlite3Exec selection callback ctx = (last, 0)
  aborted : ∀ {Ctx : Type} {selection : Selection} {callback : Ctx → Row → Ctx × Int} {ctx between : Ctx}
    {before after : List Row} {row : Row}, db.rows selection = before ++ row :: after →
    before.foldlM (proceed callback) ctx = some between → (callback between row).2 ≠ 0 →
    db.sqlite3Exec selection callback ctx = ((callback between row).1, sqliteAbort)

/-- The context of a query, with the services that the callback was given. -/
structure QCtx (lib : Library) where
  originId : Int
  pathId : Int
  svc : Option (Svc lib)
  calls : List (Svc lib)

structure Fetched (lib : Library) where
  rc : Int
  calls : List (Svc lib)

section Fetch

variable (lib : Library)

def qctxCreate : QCtx lib := ⟨0, 0, none, []⟩

variable {lib}

def sSqliteSvcReady (qc : QCtx lib) : QCtx lib :=
  match qc.svc with
  | none => qc
  | some svc => {qc with calls := qc.calls ++ [svc]}

variable (lib)

/-- The columns are read as text, and a value that is NULL is empty; an error stops the results. -/
def sOriginsCb (qc : QCtx lib) (row : Row) : QCtx lib × Int :=
  let originId := lib.atoi (decimalText row.originId)
  let pathId := lib.atoi (decimalText row.pathId)
  let port := match row.port with
    | none => 0
    | some port => lib.atoi port
  let attrVal := row.value.getD []
  if qc.originId = originId ∧ qc.pathId = pathId then
    match svcSetAttr qc.svc row.name (some attrVal) with
    | none => (qc, -1)
    | some svc => ({qc with svc := some svc}, 0)
  else
    let ready := {sSqliteSvcReady qc with svc := none}
    match svcSetUri (some (svcCreate lib)) row.schema row.ip port row.path with
    | none => ({ready with svc := some (svcCreate lib)}, -1)
    | some located =>
        match svcSetAttr (some located) row.name (some attrVal) with
        | none => ({ready with svc := some located}, -1)
        | some svc => (⟨originId, pathId, some svc, ready.calls⟩, 0)

/-- A substring is only looked at with a name. -/
def queryOf : Option (List UInt8) → Option (List UInt8) → Selection
  | some name, some subStr => .matching name subStr
  | some name, none => .named name
  | none, _ => .all

/-- The service that is pending at the end is ready too, unless the query has failed. -/
def sSqlite3FetchServicesByAttr (db : Database) (name subStr : Option (List UInt8)) : Fetched lib :=
  let executed := db.sqlite3Exec (queryOf name subStr) (sOriginsCb lib) (qctxCreate lib)
  if executed.2 ≠ 0 then ⟨-1, executed.1.calls⟩ else ⟨0, (sSqliteSvcReady executed.1).calls⟩

def sSqlite3FetchServices (db : Database) : Fetched lib := sSqlite3FetchServicesByAttr lib db none none

end Fetch

section Listing

variable (lib : Library)

/-- The integers that the callback reads for the ids of a service. -/
def readIds (service : ℕ ×ₗ ℕ) : Int × Int :=
  (lib.atoi (decimalText (ofLex service).1), lib.atoi (decimalText (ofLex service).2))

def Row.attr (row : Row) : Option (List UInt8) × List UInt8 := (row.name, row.value.getD [])

def Row.portNumber (row : Row) : Int := (row.port.map lib.atoi).getD 0

/-- A new service with the URI of a row. -/
def Row.located (row : Row) : Option (Svc lib) :=
  svcSetUri (some (svcCreate lib)) row.schema row.ip (row.portNumber lib) row.path

variable {lib}

/-- The service has the URI of its rows and their attributes. -/
structure Describes (svc : Svc lib) (rows : List Row) : Prop where
  uri : ∃ first located, rows.head? = some first ∧ first.located lib = some located ∧ svcUri svc = svcUri located
  attrs : ∀ name val, svcAttr svc name = some val ↔ (some name, val) ∈ rows.map Row.attr

variable (lib)

/-- The callback was given each service once, in the order of the rows and with all that they say, and no error is
reported. -/
structure Listed (rows : List Row) (fetched : Fetched lib) : Prop where
  success : fetched.rc = 0
  services : List.Forall₂ Describes fetched.calls ((keys Row.service rows).map (part Row.service rows))

/-- Each row has a name of its own within its service, the first row of a service has a schema and an address, and the
integers read for a service are not those that were read last, or 0 for the first one. -/
structure Listable (rows : List Row) : Prop where
  named : ∀ row ∈ rows, row.name ≠ none
  distinct : ∀ service, ((part Row.service rows service).map Row.name).Nodup
  located : ∀ service first, (part Row.service rows service).head? = some first → first.schema ≠ none ∧ first.ip ≠ none
  apart : ((0, 0) :: (keys Row.service rows).map (readIds lib)).IsChain (· ≠ ·)

/-- What the rows of one service make of a new one. -/
def build (rows : List Row) : Option (Svc lib) :=
  rows.head?.bind fun first => (first.located lib).bind fun svc => setAttrs svc (rows.map Row.attr)

end Listing

def QCtx.ids {lib : Library} (qc : QCtx lib) : Int × Int := (qc.originId, qc.pathId)

/-- The services that the callback was given and the one that is pending. -/
def QCtx.listed {lib : Library} (qc : QCtx lib) : List (Svc lib) := qc.calls ++ qc.svc.toList

/-- The context when the first row of a service has been read. -/
def QCtx.begun {lib : Library} (qc : QCtx lib) (service : ℕ ×ₗ ℕ) (svc : Svc lib) : QCtx lib :=
  ⟨(readIds lib service).1, (readIds lib service).2, some svc, qc.listed⟩

section Rows

variable {lib : Library} {qc next : QCtx lib} {svc : Svc lib} {row : Row} {rows : List Row}

@[simp] theorem QCtx.begun_ids (qc : QCtx lib) (service : ℕ ×ₗ ℕ) (svc : Svc lib) :
    (qc.begun service svc).ids = readIds lib service := rfl

@[simp] theorem QCtx.begun_listed (qc : QCtx lib) (service : ℕ ×ₗ ℕ) (svc : Svc lib) :
    (qc.begun service svc).listed = qc.listed ++ [svc] := rfl

theorem sSqliteSvcReady_calls (qc : QCtx lib) : (sSqliteSvcReady qc).calls = qc.listed := by
  unfold sSqliteSvcReady QCtx.listed
  cases qc.svc <;> simp

/-- A row of the pending service adds its attribute. -/
theorem proceed_same (same : readIds lib row.service = qc.ids) : proceed (sOriginsCb lib) qc row =
    (svcSetAttr qc.svc row.attr.1 (some row.attr.2)).map fun svc => {qc with svc := some svc} := by
  have both : qc.originId = lib.atoi (decimalText row.originId) ∧ qc.pathId = lib.atoi (decimalText row.pathId) :=
    Prod.mk.inj same.symm
  unfold proceed sOriginsCb Row.attr
  dsimp only
  rw [if_pos both]
  cases svcSetAttr qc.svc row.name (some (row.value.getD [])) <;> rfl

/-- Any other row starts a service. -/
theorem proceed_other (other : readIds lib row.service ≠ qc.ids) : proceed (sOriginsCb lib) qc row =
    ((row.located lib).bind fun svc => svcSetAttr (some svc) row.attr.1 (some row.attr.2)).map (qc.begun row.service) := by
  have distinct : ¬ (qc.originId = lib.atoi (decimalText row.originId) ∧ qc.pathId = lib.atoi (decimalText row.pathId)) :=
    fun both => other (Prod.ext both.1.symm both.2.symm)
  have port : (match row.port with
      | none => 0
      | some port => lib.atoi port) = row.portNumber lib := by
    unfold Row.portNumber
    cases row.port <;> rfl
  unfold proceed sOriginsCb Row.attr Row.located QCtx.begun
  dsimp only
  rw [if_neg distinct, port, ← sSqliteSvcReady_calls]
  cases svcSetUri (some (svcCreate lib)) row.schema row.ip (row.portNumber lib) row.path with
  | none => rfl
  | some located =>
      rw [Option.bind_some]
      cases set : svcSetAttr (some located) row.name (some (row.value.getD [])) <;> simp [set, readIds, Row.service]

/-- Rows of the pending service add their attributes. -/
theorem rows_added (same : ∀ row ∈ rows, readIds lib row.service = qc.ids) (pending : qc.svc = some svc) :
    rows.foldlM (proceed (sOriginsCb lib)) qc =
      (setAttrs svc (rows.map Row.attr)).map fun next => {qc with svc := some next} := by
  induction rows generalizing qc svc with
  | nil =>
      change some qc = some {qc with svc := some svc}
      rw [← pending]
  | cons row rows inductionHypothesis =>
      obtain ⟨first, rest⟩ := List.forall_mem_cons.mp same
      rw [List.foldlM_cons, proceed_same first, pending, List.map_cons, setAttrs_cons]
      cases svcSetAttr (some svc) row.attr.1 (some row.attr.2) with
      | none => rfl
      | some set =>
          have rest' : ∀ row ∈ rows, readIds lib row.service = QCtx.ids {qc with svc := some set} := rest
          exact inductionHypothesis rest' rfl

/-- Rows with the ids that were read last start no service. -/
theorem rows_merged (same : ∀ row ∈ rows, readIds lib row.service = qc.ids)
    (done : rows.foldlM (proceed (sOriginsCb lib)) qc = some next) :
    next.ids = qc.ids ∧ next.listed.length = qc.listed.length := by
  cases pending : qc.svc with
  | some svc =>
      rw [rows_added same pending, Option.map_eq_some_iff] at done
      obtain ⟨set, _, rfl⟩ := done
      refine ⟨rfl, ?_⟩
      simp [QCtx.listed, pending]
  | none =>
      cases rows with
      | nil =>
          cases done
          exact ⟨rfl, rfl⟩
      | cons row rows =>
          rw [List.foldlM_cons, proceed_same (same row List.mem_cons_self), pending] at done
          cases done

/-- Rows of one service that is not the pending one give the pending one to the callback, and build their own. -/
theorem rows_built {service : ℕ ×ₗ ℕ} (one : ∀ row ∈ rows, row.service = service) (nonempty : rows ≠ [])
    (other : readIds lib service ≠ qc.ids) :
    rows.foldlM (proceed (sOriginsCb lib)) qc = (build lib rows).map (qc.begun service) := by
  cases rows with
  | nil => exact absurd rfl nonempty
  | cons row rows =>
      obtain ⟨rfl, rest⟩ := List.forall_mem_cons.mp one
      unfold build
      rw [List.foldlM_cons, proceed_other other, List.head?_cons, Option.bind_some, List.map_cons]
      cases row.located lib with
      | none => rfl
      | some located =>
          rw [Option.bind_some, Option.bind_some, setAttrs_cons]
          cases svcSetAttr (some located) row.attr.1 (some row.attr.2) with
          | none => rfl
          | some set => exact rows_added (fun later member => congrArg (readIds lib) (rest later member)) rfl

/-- Services are built from their rows, which come one service after the other. -/
structure Grouped (services : List (ℕ ×ₗ ℕ)) (group : ℕ ×ₗ ℕ → List Row) : Prop where
  one : ∀ service ∈ services, ∀ row ∈ group service, row.service = service
  nonempty : ∀ service ∈ services, group service ≠ []

theorem Grouped.tail {service : ℕ ×ₗ ℕ} {services : List (ℕ ×ₗ ℕ)} {group : ℕ ×ₗ ℕ → List Row}
    (grouped : Grouped (service :: services) group) : Grouped services group where
  one service member := grouped.one service (List.mem_cons_of_mem _ member)
  nonempty service member := grouped.nonempty service (List.mem_cons_of_mem _ member)

section Groups

variable {services : List (ℕ ×ₗ ℕ)} {group : ℕ ×ₗ ℕ → List Row}

/-- No service is listed twice, and all are listed only when none is taken for the one ahead of it. -/
theorem listed_length (grouped : Grouped services group)
    (done : (services.map group).flatten.foldlM (proceed (sOriginsCb lib)) qc = some next) :
    next.listed.length ≤ qc.listed.length + services.length ∧
      (next.listed.length = qc.listed.length + services.length →
        (qc.ids :: services.map (readIds lib)).IsChain (· ≠ ·)) := by
  induction services generalizing qc with
  | nil =>
      cases done
      exact ⟨Nat.le_refl _, fun _ => List.isChain_singleton _⟩
  | cons service services inductionHypothesis =>
      have one := grouped.one service List.mem_cons_self
      rw [List.map_cons, List.flatten_cons, List.foldlM_append, Option.bind_eq_bind, Option.bind_eq_some_iff] at done
      obtain ⟨between, first, rest⟩ := done
      obtain ⟨most, all⟩ := inductionHypothesis grouped.tail rest
      rw [List.length_cons, List.map_cons, List.isChain_cons_cons]
      by_cases same : readIds lib service = qc.ids
      · have merged := (rows_merged (fun row member => (congrArg (readIds lib) (one row member)).trans same) first).2
        exact ⟨by omega, fun equal => by omega⟩
      · rw [rows_built one (grouped.nonempty service List.mem_cons_self) same, Option.map_eq_some_iff] at first
        obtain ⟨svc, _, rfl⟩ := first
        rw [QCtx.begun_listed, List.length_append, List.length_singleton] at most all
        exact ⟨by omega, fun equal => ⟨Ne.symm same, all (by omega)⟩⟩

/-- Where none is taken for the one ahead of it, each service is built from its rows. -/
theorem listed_apart (grouped : Grouped services group) (apart : (qc.ids :: services.map (readIds lib)).IsChain (· ≠ ·))
    (done : (services.map group).flatten.foldlM (proceed (sOriginsCb lib)) qc = some next) :
    ∃ built, next.listed = qc.listed ++ built ∧
      List.Forall₂ (fun svc service => build lib (group service) = some svc) built services := by
  induction services generalizing qc with
  | nil =>
      cases done
      exact ⟨[], (List.append_nil _).symm, .nil⟩
  | cons service services inductionHypothesis =>
      obtain ⟨other, later⟩ := List.isChain_cons_cons.mp apart
      rw [List.map_cons, List.flatten_cons, List.foldlM_append, Option.bind_eq_bind, Option.bind_eq_some_iff,
        rows_built (grouped.one service List.mem_cons_self) (grouped.nonempty service List.mem_cons_self) other.symm] at done
      obtain ⟨between, first, rest⟩ := done
      obtain ⟨svc, built, rfl⟩ := Option.map_eq_some_iff.mp first
      rw [← QCtx.begun_ids qc service svc] at later
      obtain ⟨others, listed, each⟩ := inductionHypothesis grouped.tail later rest
      refine ⟨svc :: others, ?_, .cons built each⟩
      rw [listed, QCtx.begun_listed, List.append_assoc]
      rfl

/-- When each service can be built, no row fails. -/
theorem listed_isSome (grouped : Grouped services group)
    (apart : (qc.ids :: services.map (readIds lib)).IsChain (· ≠ ·))
    (each : ∀ service ∈ services, (build lib (group service)).isSome) :
    ((services.map group).flatten.foldlM (proceed (sOriginsCb lib)) qc).isSome := by
  induction services generalizing qc with
  | nil => rfl
  | cons service services inductionHypothesis =>
      obtain ⟨other, later⟩ := List.isChain_cons_cons.mp apart
      obtain ⟨svc, built⟩ := Option.isSome_iff_exists.mp (each service List.mem_cons_self)
      rw [List.map_cons, List.flatten_cons, List.foldlM_append,
        rows_built (grouped.one service List.mem_cons_self) (grouped.nonempty service List.mem_cons_self) other.symm, built]
      rw [← QCtx.begun_ids qc service svc] at later
      exact inductionHypothesis grouped.tail later fun service member => each service (List.mem_cons_of_mem _ member)

end Groups

end Rows

section Built

variable {lib : Library} {svc : Svc lib} {row : Row} {rows : List Row}

theorem Row.located_isSome_iff (row : Row) : (row.located lib).isSome ↔ row.schema ≠ none ∧ row.ip ≠ none := by
  unfold Row.located svcSetUri svcSetOrigin
  cases row.schema <;> cases row.ip <;> simp

theorem Row.located_attr (lawful : lib.Lawful) (done : row.located lib = some svc) (name : List UInt8) :
    svcAttr svc name = none := by
  unfold Row.located svcSetUri svcSetOrigin at done
  cases schema : row.schema with
  | none => simp [schema] at done
  | some schema' =>
      cases ip : row.ip with
      | none => simp [schema, ip] at done
      | some ip' =>
          simp only [schema, ip, Option.map_some, Option.some.injEq] at done
          rw [← done]
          exact lawful.empty name

/-- A service can be built when its first row has a place and each row has a name of its own. -/
theorem build_isSome_iff (lawful : lib.Lawful) (rows : List Row) : (build lib rows).isSome ↔
    (∃ first, rows.head? = some first ∧ first.schema ≠ none ∧ first.ip ≠ none) ∧
      (∀ row ∈ rows, row.name ≠ none) ∧ (rows.map Row.name).Nodup := by
  unfold build
  cases rows.head? with
  | none => simp
  | some first =>
      rw [Option.bind_some]
      cases located : first.located lib with
      | none =>
          have missing := mt first.located_isSome_iff.mpr (by rw [located]; simp)
          simp [missing]
      | some svc =>
          have found := first.located_isSome_iff.mp (by rw [located]; rfl)
          have names : (rows.map Row.attr).map Prod.fst = rows.map Row.name := List.map_map
          have free (name : Option (List UInt8)) : (∃ n, name = some n ∧ svcAttr svc n = none) ↔ name ≠ none := by
            simp [Row.located_attr lawful located, Option.ne_none_iff_exists']
          rw [Option.bind_some, setAttrs_isSome_iff lawful, names, List.forall_mem_map]
          simp only [free]
          simp [found, Row.attr]

theorem build_describes (lawful : lib.Lawful) (done : build lib rows = some svc) : Describes svc rows := by
  obtain ⟨first, head, done⟩ := Option.bind_eq_some_iff.mp done
  obtain ⟨located, placed, set⟩ := Option.bind_eq_some_iff.mp done
  refine ⟨⟨first, located, head, placed, setAttrs_uri set⟩, fun name val => ?_⟩
  rw [setAttrs_attr lawful set, Row.located_attr lawful placed]
  simp

theorem rows_grouped (rows : List Row) : Grouped (keys Row.service rows) (part Row.service rows) where
  one _ _ _ inside := (mem_part.mp inside).2
  nonempty service member := by
    obtain ⟨row, inside, same⟩ := mem_keys.mp member
    exact List.ne_nil_of_mem (mem_part.mpr ⟨inside, same⟩)

/-- What the rows must be like, with one condition for each service. -/
theorem listable_iff (lawful : lib.Lawful) (rows : List Row) : Listable lib rows ↔
    (∀ service ∈ keys Row.service rows, (build lib (part Row.service rows service)).isSome) ∧
      ((0, 0) :: (keys Row.service rows).map (readIds lib)).IsChain (· ≠ ·) := by
  have grouped := rows_grouped rows
  constructor
  · intro listable
    refine ⟨fun service member => (build_isSome_iff lawful _).mpr ?_, listable.apart⟩
    obtain ⟨first, rest, cons⟩ := List.exists_cons_of_ne_nil (grouped.nonempty service member)
    have head : (part Row.service rows service).head? = some first := by
      rw [cons]
      rfl
    exact ⟨⟨first, head, listable.located service first head⟩,
      fun row inside => listable.named row (mem_part.mp inside).1, listable.distinct service⟩
  · rintro ⟨each, apart⟩
    have built (service : ℕ ×ₗ ℕ) (row : Row) (inside : row ∈ part Row.service rows service) :=
      (build_isSome_iff lawful _).mp (each service (mem_keys.mpr ⟨row, mem_part.mp inside⟩))
    refine ⟨fun row member => ?_, fun service => ?_, fun service first head => ?_, apart⟩
    · have inside : row ∈ part Row.service rows row.service := mem_part.mpr ⟨member, rfl⟩
      exact (built row.service row inside).2.1 row inside
    · cases rows' : part Row.service rows service with
      | nil => exact List.nodup_nil
      | cons row rest => exact rows' ▸ (built service row (by rw [rows']; exact List.mem_cons_self)).2.2
    · obtain ⟨first', head', place⟩ := (built service first (List.mem_of_head? head)).1
      rw [head] at head'
      cases head'
      exact place

theorem Row.ascending_service (sorted : Ascending Row.key rows) : Ascending Row.service rows := by
  refine sorted.imp fun {a b} below => ?_
  rw [Row.key, Row.key, Prod.Lex.toLex_le_toLex] at below
  rw [Row.service, Row.service, Prod.Lex.toLex_le_toLex]
  exact below.imp_right fun same => ⟨same.1, (Prod.Lex.toLex_le_toLex.mp same.2).elim le_of_lt fun level => level.1.le⟩

end Built

/-- Ids that fit an `int` and are not 0 are told apart. -/
theorem readIds_apart {lib : Library} (reads : ∀ n < 2 ^ 31, lib.atoi (decimalText n) = n) {rows : List Row}
    (small : ∀ row ∈ rows, 0 < row.originId ∧ row.originId < 2 ^ 31 ∧ row.pathId < 2 ^ 31) :
    ((0, 0) :: (keys Row.service rows).map (readIds lib)).IsChain (· ≠ ·) := by
  have read : ∀ service ∈ keys Row.service rows, 0 < (ofLex service).1 ∧
      readIds lib service = (((ofLex service).1 : Int), ((ofLex service).2 : Int)) := by
    intro service member
    obtain ⟨row, inside, rfl⟩ := mem_keys.mp member
    obtain ⟨positive, origin, path⟩ := small row inside
    exact ⟨positive, Prod.ext (reads _ origin) (reads _ path)⟩
  apply List.Pairwise.isChain
  rw [List.pairwise_cons]
  constructor
  · intro ids member
    obtain ⟨service, inside, rfl⟩ := List.mem_map.mp member
    obtain ⟨positive, same⟩ := read service inside
    rw [same]
    intro zero
    have := (Prod.mk.inj zero).1
    omega
  · refine (keys_nodup rows).map_on fun service inside other inside' same => ?_
    rw [(read service inside).2, (read other inside').2, Prod.mk.injEq, Int.ofNat_inj, Int.ofNat_inj] at same
    exact Prod.ext same.1 same.2

/-- Rows that do not all proceed have a first one whose callback fails. -/
theorem proceed_fails {Ctx : Type} {callback : Ctx → Row → Ctx × Int} {ctx : Ctx} {rows : List Row}
    (fails : rows.foldlM (proceed callback) ctx = none) : ∃ before row after between, rows = before ++ row :: after ∧
      before.foldlM (proceed callback) ctx = some between ∧ (callback between row).2 ≠ 0 := by
  induction rows generalizing ctx with
  | nil => cases fails
  | cons row rows inductionHypothesis =>
      rw [List.foldlM_cons] at fails
      by_cases failed : (callback ctx row).2 ≠ 0
      · exact ⟨[], row, rows, ctx, rfl, rfl, failed⟩
      · have goes : proceed callback ctx row = some (callback ctx row).1 := if_neg failed
        rw [goes] at fails
        obtain ⟨before, last, after, between, same, ran, aborts⟩ := inductionHypothesis fails
        refine ⟨row :: before, last, after, between, by rw [same]; rfl, ?_, aborts⟩
        rw [List.foldlM_cons, goes]
        exact ran

section Results

variable {lib : Library} {db : Database} (name subStr : Option (List UInt8))

/-- A query that fails has given the callback some services; one that succeeds, all that were listed. -/
theorem fetch_foldlM (sound : db.Lawful) : ∃ calls, sSqlite3FetchServicesByAttr lib db name subStr =
    match (db.rows (queryOf name subStr)).foldlM (proceed (sOriginsCb lib)) (qctxCreate lib) with
    | none => ⟨-1, calls⟩
    | some qc => ⟨0, qc.listed⟩ := by
  unfold sSqlite3FetchServicesByAttr
  dsimp only
  cases ran : (db.rows (queryOf name subStr)).foldlM (proceed (sOriginsCb lib)) (qctxCreate lib) with
  | none =>
      obtain ⟨before, row, after, between, same, early, fails⟩ := proceed_fails ran
      rw [sound.aborted same early fails, if_pos (by decide : sqliteAbort ≠ 0)]
      exact ⟨_, rfl⟩
  | some qc =>
      rw [sound.completed ran, if_neg (not_not_intro rfl), sSqliteSvcReady_calls]
      exact ⟨[], rfl⟩

/-- The services are listed exactly when each row has a name of its own within its service and each service a place and
ids that are told apart from those ahead. -/
theorem fetchServices_listed_iff (lawful : lib.Lawful) (sound : db.Lawful)
    (sorted : Ascending Row.key (db.rows (queryOf name subStr))) :
    Listed lib (db.rows (queryOf name subStr)) (sSqlite3FetchServicesByAttr lib db name subStr) ↔
      Listable lib (db.rows (queryOf name subStr)) := by
  obtain ⟨calls, fetched⟩ : ∃ calls, sSqlite3FetchServicesByAttr lib db name subStr = _ :=
    fetch_foldlM name subStr sound
  rw [fetched]
  generalize db.rows (queryOf name subStr) = rows at sorted ⊢
  have grouped := rows_grouped rows
  have whole := (Row.ascending_service sorted).parts_flatten
  constructor
  · intro listed
    cases done : rows.foldlM (proceed (sOriginsCb lib)) (qctxCreate lib) with
    | none =>
        rw [done] at listed
        cases listed.success
    | some next =>
        rw [done] at listed
        rw [← whole] at done
        have length := listed.services.length_eq
        rw [List.length_map] at length
        have apart := (listed_length grouped done).2 (by rw [length]; exact (Nat.zero_add _).symm)
        obtain ⟨built, _, each⟩ := listed_apart grouped apart done
        have both : List.Forall₂ (fun service svc => (build lib (part Row.service rows service)).isSome ∧
            build lib (part Row.service rows service) = some svc) (keys Row.service rows) built :=
          List.Forall₂.flip (each.imp fun svc service made => ⟨by rw [made]; rfl, made⟩)
        exact (listable_iff lawful rows).mpr ⟨((List.forall₂_and_left _ _).mp both).1, apart⟩
  · intro listable
    obtain ⟨made, apart⟩ := (listable_iff lawful rows).mp listable
    have first : ((qctxCreate lib).ids :: (keys Row.service rows).map (readIds lib)).IsChain (· ≠ ·) := apart
    obtain ⟨next, done⟩ := Option.isSome_iff_exists.mp (listed_isSome grouped first made)
    obtain ⟨built, all, each⟩ := listed_apart grouped first done
    rw [whole] at done
    rw [done]
    refine ⟨rfl, ?_⟩
    change List.Forall₂ Describes next.listed _
    rw [all, List.forall₂_map_right_iff]
    exact each.imp fun svc service made => build_describes lawful made

end Results

/-- Maps that are lists of keys and values, and texts that are digits. -/
def tableLibrary : Library where
  atoi text := (text.takeWhile fun c => 48 ≤ c ∧ c ≤ 57).foldl (fun n c => n * 10 + (c.toNat - 48)) (0 : Int)
  Uri := UriParts
  uriNew := ⟨[], [], [], [], [], []⟩
  uriSetScheme uri scheme := {uri with scheme := scheme}
  uriSetHost uri host := {uri with host := host}
  uriSetPort uri port := {uri with port := port}
  uriSetPath uri path := {uri with path := path.getD uri.path}
  Hmap := List (List UInt8 × List UInt8)
  hmapEasyNew := []
  hmapEasyPut attrs name val := if (attrs.lookup name).isSome then none else some ((name, val) :: attrs)
  hmapGet attrs name := attrs.lookup name

theorem lookup_added (attrs : List (List UInt8 × List UInt8)) (name val other : List UInt8) :
    ((name, val) :: attrs).lookup other = if other = name then some val else attrs.lookup other := by
  rw [List.lookup_cons]
  by_cases same : other = name
  · simp [same]
  · rw [beq_false_of_ne same, if_neg same]

theorem tableLibrary_lawful : tableLibrary.Lawful where
  empty _ := rfl
  refused _ _ _ there := if_pos (Option.isSome_iff_ne_none.mpr there)
  added attrs name val free := by
    have fresh : ¬ (List.lookup name attrs).isSome := by
      rw [show List.lookup name attrs = none from free]
      exact Bool.false_ne_true
    exact ⟨(name, val) :: attrs, if_neg fresh, lookup_added attrs name val⟩

/-- An attribute of a path of the origin `coap://::1:5683`. -/
def sampleRow (pathId attrId : Nat) (name value : List UInt8) : Row :=
  ⟨1, pathId, attrId, some [99, 111, 97, 112], some [58, 58, 49], some [53, 54, 56, 51], some [47, 97], some name,
    some value⟩

/-- Two attributes of one path and one of another. -/
def sampleRows (second : List UInt8) : List Row :=
  [sampleRow 1 1 [114, 116] [97], sampleRow 1 2 second [98], sampleRow 2 3 [114, 116] [99]]

/-- The callback is called for one row after the other. -/
def execRows {Ctx : Type} (callback : Ctx → Row → Ctx × Int) : List Row → Ctx → Ctx × Int
  | [], ctx => (ctx, 0)
  | row :: rows, ctx =>
      if (callback ctx row).2 ≠ 0 then ((callback ctx row).1, sqliteAbort) else execRows callback rows (callback ctx row).1

/-- A database that has these rows for every query. -/
def tableDatabase (rows : List Row) : Database where
  rows _ := rows
  sqlite3Exec _ callback ctx := execRows callback rows ctx

theorem execRows_completed {Ctx : Type} {callback : Ctx → Row → Ctx × Int} {rows : List Row} {ctx last : Ctx}
    (ran : rows.foldlM (proceed callback) ctx = some last) : execRows callback rows ctx = (last, 0) := by
  induction rows generalizing ctx with
  | nil =>
      cases ran
      rfl
  | cons row rows inductionHypothesis =>
      rw [List.foldlM_cons, Option.bind_eq_bind, Option.bind_eq_some_iff] at ran
      obtain ⟨next, first, rest⟩ := ran
      rw [proceed, Option.ite_none_left_eq_some] at first
      rw [execRows, if_neg first.1, Option.some.inj first.2]
      exact inductionHypothesis rest

theorem execRows_aborted {Ctx : Type} {callback : Ctx → Row → Ctx × Int} {before after : List Row} {row : Row}
    {ctx between : Ctx} (ran : before.foldlM (proceed callback) ctx = some between) (fails : (callback between row).2 ≠ 0) :
    execRows callback (before ++ row :: after) ctx = ((callback between row).1, sqliteAbort) := by
  induction before generalizing ctx with
  | nil =>
      cases ran
      exact if_pos fails
  | cons earlier before inductionHypothesis =>
      rw [List.foldlM_cons, Option.bind_eq_bind, Option.bind_eq_some_iff] at ran
      obtain ⟨next, first, rest⟩ := ran
      rw [proceed, Option.ite_none_left_eq_some] at first
      rw [List.cons_append, execRows, if_neg first.1, Option.some.inj first.2]
      exact inductionHypothesis rest

theorem tableDatabase_lawful (rows : List Row) : (tableDatabase rows).Lawful where
  completed ran := execRows_completed ran
  aborted same ran fails := by
    change execRows _ rows _ = _
    rw [show rows = _ from same]
    exact execRows_aborted ran fails

theorem fetchServices_listed_sample : Listed tableLibrary (sampleRows [105, 102])
    (sSqlite3FetchServicesByAttr tableLibrary (tableDatabase (sampleRows [105, 102])) none none) := by
  have sorted : Ascending Row.key (sampleRows [105, 102]) := by
    unfold Sorting.Ascending
    decide
  refine (fetchServices_listed_iff none none tableLibrary_lawful (tableDatabase_lawful (sampleRows [105, 102])) sorted).mpr ?_
  exact (listable_iff tableLibrary_lawful _).mpr ⟨by decide, by decide⟩

/-- The name `rt` twice on the first path ends the listing, and no service is given to the callback. -/
theorem fetchServices_twice : (tableDatabase (sampleRows [114, 116])).Lawful ∧ Ascending Row.key (sampleRows [114, 116]) ∧
    (sSqlite3FetchServicesByAttr tableLibrary (tableDatabase (sampleRows [114, 116])) none none).rc = -1 ∧
    (sSqlite3FetchServicesByAttr tableLibrary (tableDatabase (sampleRows [114, 116])) none none).calls = [] ∧
    ¬ Listed tableLibrary (sampleRows [114, 116])
      (sSqlite3FetchServicesByAttr tableLibrary (tableDatabase (sampleRows [114, 116])) none none) := by
  have failed : (sSqlite3FetchServicesByAttr tableLibrary (tableDatabase (sampleRows [114, 116])) none none).rc = -1 := by
    decide
  refine ⟨tableDatabase_lawful _, ?_, failed, rfl, fun listed => ?_⟩
  · unfold Sorting.Ascending
    decide
  · have success := listed.success
    rw [failed] at success
    cases success

end Webthings.Pubapi
