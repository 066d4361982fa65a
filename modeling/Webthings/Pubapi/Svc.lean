import Webthings.Evcoap.ComposeUri

namespace Webthings.Pubapi
open Webthings.Evcoap

/-- What the services take from the libraries: the integer that a text starts with, and the URIs and the maps, whose
`put` is none when it returns an error. -/
structure Library where
  atoi : List UInt8 → Int
  Uri : Type
  uriNew : Uri
  uriSetScheme : Uri → List UInt8 → Uri
  uriSetHost : Uri → List UInt8 → Uri
  uriSetPort : Uri → List UInt8 → Uri
  uriSetPath : Uri → Option (List UInt8) → Uri
  Hmap : Type
  hmapEasyNew : Hmap
  hmapEasyPut : Hmap → List UInt8 → List UInt8 → Option Hmap
  hmapGet : Hmap → List UInt8 → Option (List UInt8)

/-- A new map is empty, a key that it has is refused, and any other one is added. -/
structure Library.Lawful (lib : Library) : Prop where
  empty : ∀ name, lib.hmapGet lib.hmapEasyNew name = none
  refused : ∀ attrs name val, lib.hmapGet attrs name ≠ none → lib.hmapEasyPut attrs name val = none
  added : ∀ attrs name val, lib.hmapGet attrs name = none → ∃ next, lib.hmapEasyPut attrs name val = some next ∧
    ∀ other, lib.hmapGet next other = if other = name then some val else lib.hmapGet attrs other

variable {lib : Library}

structure Svc (lib : Library) where
  uri : lib.Uri
  attrs : lib.Hmap

def svcCreate (lib : Library) : Svc lib := ⟨lib.uriNew, lib.hmapEasyNew⟩

/-- What `%d` prints. -/
def intText (n : Int) : List UInt8 := if n < 0 then 45 :: decimalText n.natAbs else decimalText n.natAbs

/-- None when an argument is NULL; the port 0 is left out. -/
def svcSetOrigin (svc : Option (Svc lib)) (schema ip : Option (List UInt8)) (port : Int) : Option (Svc lib) :=
  match svc, schema, ip with
  | some svc, some schema, some ip =>
      let named := lib.uriSetHost (lib.uriSetScheme svc.uri schema) ip
      some {svc with uri := if port ≠ 0 then lib.uriSetPort named (intText port) else named}
  | _, _, _ => none

def svcSetUri (svc : Option (Svc lib)) (schema ip : Option (List UInt8)) (port : Int) (path : Option (List UInt8)) :
    Option (Svc lib) :=
  match svc, schema, ip with
  | some _, some _, some _ =>
      (svcSetOrigin svc schema ip port).map fun svc => {svc with uri := lib.uriSetPath svc.uri path}
  | _, _, _ => none

def svcSetAttr (svc : Option (Svc lib)) (name val : Option (List UInt8)) : Option (Svc lib) :=
  match svc, name, val with
  | some svc, some name, some val => (lib.hmapEasyPut svc.attrs name val).map fun attrs => {svc with attrs := attrs}
  | _, _, _ => none

def svcUri (svc : Svc lib) : lib.Uri := svc.uri

def svcAttr (svc : Svc lib) (name : List UInt8) : Option (List UInt8) := lib.hmapGet svc.attrs name

/-- The attributes are set one after the other, up to the first failure. -/
def setAttrs (svc : Svc lib) (attrs : List (Option (List UInt8) × List UInt8)) : Option (Svc lib) :=
  attrs.foldlM (fun svc attr => svcSetAttr (some svc) attr.1 (some attr.2)) svc

section Attributes

variable {svc next : Svc lib} {name : Option (List UInt8)} {val : List UInt8}
  {attrs : List (Option (List UInt8) × List UInt8)}

theorem svcSetAttr_uri (done : svcSetAttr (some svc) name (some val) = some next) : svcUri next = svcUri svc := by
  cases name with
  | none => cases done
  | some name =>
      obtain ⟨attrs, _, rfl⟩ := Option.map_eq_some_iff.mp done
      rfl

/-- An attribute can be set when it has a name that the service does not have yet. -/
theorem svcSetAttr_isSome_iff (lawful : lib.Lawful) (svc : Svc lib) (name : Option (List UInt8)) (val : List UInt8) :
    (svcSetAttr (some svc) name (some val)).isSome ↔ ∃ n, name = some n ∧ svcAttr svc n = none := by
  cases name with
  | none => simp [svcSetAttr]
  | some n =>
      unfold svcSetAttr svcAttr
      rw [Option.isSome_map]
      cases there : lib.hmapGet svc.attrs n with
      | none =>
          obtain ⟨next, added, _⟩ := lawful.added svc.attrs n val there
          simp [added, there]
      | some old =>
          rw [lawful.refused svc.attrs n val (by simp [there])]
          simp [there]

theorem svcSetAttr_attr (lawful : lib.Lawful) (done : svcSetAttr (some svc) name (some val) = some next)
    (other : List UInt8) : svcAttr next other = if some other = name then some val else svcAttr svc other := by
  obtain ⟨n, rfl, fresh⟩ := (svcSetAttr_isSome_iff lawful svc name val).mp (by rw [done]; rfl)
  obtain ⟨attrs, put, rfl⟩ := Option.map_eq_some_iff.mp done
  obtain ⟨added, put', got⟩ := lawful.added svc.attrs n val fresh
  rw [put] at put'
  cases put'
  simpa [svcAttr] using got other

theorem setAttrs_cons (svc : Svc lib) (attr : Option (List UInt8) × List UInt8) :
    setAttrs svc (attr :: attrs) =
      (svcSetAttr (some svc) attr.1 (some attr.2)).bind fun next => setAttrs next attrs := List.foldlM_cons ..

theorem setAttrs_uri (done : setAttrs svc attrs = some next) : svcUri next = svcUri svc := by
  induction attrs generalizing svc with
  | nil =>
      cases done
      rfl
  | cons attr attrs inductionHypothesis =>
      rw [setAttrs_cons, Option.bind_eq_some_iff] at done
      obtain ⟨set, first, rest⟩ := done
      exact (inductionHypothesis rest).trans (svcSetAttr_uri first)

/-- All attributes can be set when each has a name of its own, which the service does not have yet. -/
theorem setAttrs_isSome_iff (lawful : lib.Lawful) (svc : Svc lib) (attrs : List (Option (List UInt8) × List UInt8)) :
    (setAttrs svc attrs).isSome ↔
      (∀ attr ∈ attrs, ∃ n, attr.1 = some n ∧ svcAttr svc n = none) ∧ (attrs.map Prod.fst).Nodup := by
  induction attrs generalizing svc with
  | nil => simp [setAttrs]
  | cons attr attrs inductionHypothesis =>
      rw [setAttrs_cons, List.map_cons, List.nodup_cons, List.forall_mem_cons]
      cases done : svcSetAttr (some svc) attr.1 (some attr.2) with
      | none =>
          have refused := mt (svcSetAttr_isSome_iff lawful svc attr.1 attr.2).mpr (by simp [done])
          simp [refused]
      | some next =>
          have first := (svcSetAttr_isSome_iff lawful svc attr.1 attr.2).mp (by rw [done]; rfl)
          -- A later name is free when it was free ahead of this one and is another one.
          have free (later : Option (List UInt8)) : (∃ n, later = some n ∧ svcAttr next n = none) ↔
              (∃ n, later = some n ∧ svcAttr svc n = none) ∧ later ≠ attr.1 := by
            obtain ⟨m, named, fresh⟩ := first
            rw [named] at done ⊢
            cases later with
            | none => simp
            | some n => by_cases same : n = m <;> simp [svcSetAttr_attr lawful done, same]
          have others : attr.1 ∉ attrs.map Prod.fst ↔ ∀ later ∈ attrs, later.1 ≠ attr.1 := by
            simp only [List.mem_map, not_exists, not_and, ne_eq]
          rw [Option.bind_some, inductionHypothesis next, others]
          simp only [free, first, true_and, forall_and, and_assoc]

/-- The service has what it had and the attributes that were set. -/
theorem setAttrs_attr (lawful : lib.Lawful) (done : setAttrs svc attrs = some next) (n v : List UInt8) :
    svcAttr next n = some v ↔ svcAttr svc n = some v ∨ (some n, v) ∈ attrs := by
  induction attrs generalizing svc with
  | nil =>
      cases done
      simp
  | cons attr attrs inductionHypothesis =>
      have each := (setAttrs_isSome_iff lawful svc (attr :: attrs)).mp (by rw [done]; rfl)
      rw [setAttrs_cons, Option.bind_eq_some_iff] at done
      obtain ⟨set, first, rest⟩ := done
      obtain ⟨m, named, fresh⟩ := each.1 attr List.mem_cons_self
      rw [inductionHypothesis rest, svcSetAttr_attr lawful first n, List.mem_cons, ← or_assoc]
      refine or_congr_left ?_
      by_cases same : some n = attr.1
      · have free : svcAttr svc n = none := by
          rw [named, Option.some.injEq] at same
          rw [same]
          exact fresh
        rw [if_pos same, free, Prod.ext_iff]
        simp [same, eq_comm]
      · rw [if_neg same, Prod.ext_iff]
        simp [same]

end Attributes

end Webthings.Pubapi
