import Webthings.Evcoap.Lookups
import Webthings.Evcoap.ClientUri
import Webthings.Evcoap.ComposeUri

namespace Webthings.Evcoap

@[simp] def ecLinkFmtMax : Nat := 1024
@[simp] def ecResAttrMax : Nat := 1024
@[simp] def ecWkcMax : Nat := 4096

section Origin

/-- The scheme, the host and the port of a URI, in lower case and with the default port where none is given. -/
structure Origin where
  scheme : List UInt8
  host : List UInt8
  port : List UInt8
  deriving DecidableEq

def ecCoapDefaultSport : List UInt8 := decimalText 5683

def isDigit (c : UInt8) : Bool := 48 ≤ c ∧ c ≤ 57

/-- The digits behind the last colon of an authority are its port. -/
def hostPort (authority : List UInt8) : List UInt8 × List UInt8 :=
  let rev := authority.reverse
  match rev.dropWhile isDigit with
  | 58 :: host => (host.reverse, (rev.takeWhile isDigit).reverse)
  | _ => (authority, [])

/-- The authority of a URI ends at the first slash, question mark or hash. -/
def uriOrigin (uri : List UInt8) : Option Origin :=
  let scheme := uri.takeWhile (· ≠ 58)
  match uri.drop scheme.length with
  | 58 :: 47 :: 47 :: rest =>
      let place := hostPort (rest.takeWhile fun c => c ≠ 47 ∧ c ≠ 63 ∧ c ≠ 35)
      some ⟨scheme.map asciiLower, place.1.map asciiLower, if place.2 = [] then ecCoapDefaultSport else place.2⟩
  | _ => none

/-- The URI has the scheme, the host and the port of the origin. -/
def SameOrigin (origin uri : List UInt8) : Prop := (uriOrigin origin).isSome ∧ uriOrigin uri = uriOrigin origin

instance (origin uri : List UInt8) : Decidable (SameOrigin origin uri) := inferInstanceAs (Decidable (_ ∧ _))

end Origin

section Model

/-- A string with its terminator in an array of this size: `u_strlcpy`, `u_strlcat` and `u_snprintf` fail when it does
not fit. -/
def inArray (size : Nat) (s : List UInt8) : Option (List UInt8) := if s.length < size then some s else none

/-- The strings are appended to a link one by one. -/
def catAll (s : List UInt8) (strings : List (List UInt8)) : Option (List UInt8) :=
  strings.foldlM (fun s t => inArray ecLinkFmtMax (s ++ t)) s

/-- The string begins with the other one, whatever the case. -/
def startsCase (start s : List UInt8) : Bool := asciiStrcaseEqual (s.take start.length) start

/-- The bytes of `if=`, `rt=`, `obs` and `exp`. -/
def ifParam : List UInt8 := [105, 102, 61]
def rtParam : List UInt8 := [114, 116, 61]
def obsParam : List UInt8 := [111, 98, 115]
def expParam : List UInt8 := [101, 120, 112]

/-- One query parameter; the others, `ct=` and `sz=` too, are ignored. -/
def qMatchParam (attrs : EcResAttrs) (param : List UInt8) : Bool :=
  if startsCase ifParam param ∧ ¬ asciiStrcaseEqual attrs.interface (param.drop ifParam.length) then false
  else if startsCase rtParam param ∧ ¬ asciiStrcaseEqual attrs.resType (param.drop rtParam.length) then false
  else if asciiStrcaseEqual param obsParam ∧ ¬ attrs.obs then false
  else if asciiStrcaseEqual param expParam ∧ ¬ attrs.exp then false
  else true

/-- An empty query asks for all. -/
def qMatch (attrs : EcResAttrs) (query : List UInt8) : Bool := (separated 38 query).all (qMatchParam attrs)

/-- What all representations of a resource have alike. -/
def EcRes.uniform {Value : Type} [DecidableEq Value] (res : EcRes) (value : EcRep → Value) : Option Value :=
  match res.reps with
  | [] => none
  | rep :: rest => if rest.all (fun other => value other = value rep) then some (value rep) else none

/-- The reference of a resource, from the path on when references are relative. -/
def EcRes.uriRef (res : EcRes) (origin : List UInt8) (relativeRef : Bool) : List UInt8 :=
  if relativeRef then res.uri.drop origin.length else res.uri

/-- An attribute in quotes, unless it is empty. -/
def catString (name value s : List UInt8) : Option (List UInt8) :=
  if value ≠ [] then catAll s [name, value, [34]] else some s

/-- An attribute with a number, which is printed into an array of its own. -/
def catNumber (size : Nat) (name : List UInt8) (value : Option Nat) (s : List UInt8) : Option (List UInt8) :=
  match value with
  | none => some s
  | some n => (inArray size (decimalText n)).bind fun text => catAll s [name, text]

def catFlag (name : List UInt8) (flag : Bool) (s : List UInt8) : Option (List UInt8) :=
  if flag then catAll s [name] else some s

/-- The link of a resource with a reference; the attributes are `rt=`, `if=`, `sz=`, `ct=`, `obs` and `exp`. -/
def catLink (res : EcRes) (uriRef : List UInt8) : Option (List UInt8) :=
  ((((((catAll [] [[60], uriRef, [62]]).bind
    (catString [59, 114, 116, 61, 34] res.attrs.resType)).bind
    (catString [59, 105, 102, 61, 34] res.attrs.interface)).bind
    (catNumber 16 [59, 115, 122, 61] (res.uniform fun rep => rep.data.length))).bind
    (catNumber 4 [59, 99, 116, 61] (res.uniform fun rep => rep.mediaType.toNat))).bind
    (catFlag [59, 111, 98, 115] res.attrs.obs)).bind
    (catFlag [59, 101, 120, 112] res.attrs.exp)

/-- The link of a resource, or none when it is not to be listed or something does not fit. -/
def ecResLinkFormatStr (res : EcRes) (origin query : List UInt8) (relativeRef : Bool) : Option (List UInt8) :=
  if ¬ startsCase origin res.uri then none
  else
    (inArray ecUriMax (res.uriRef origin relativeRef)).bind fun uriRef =>
      (inArray ecResAttrMax res.attrs.interface).bind fun _ =>
        (inArray ecResAttrMax res.attrs.resType).bind fun _ =>
          res.reps.head?.bind fun _ => if ¬ qMatch res.attrs query then none else catLink res uriRef

/-- The link of a resource goes behind those before it; a resource without a link is passed over. -/
def buildWkc (origin query : List UInt8) (relRefs : Bool) (wkc : List UInt8) (res : EcRes) : Option (List UInt8) :=
  match ecResLinkFormatStr res origin query relRefs with
  | none => some wkc
  | some lfs =>
      (if wkc ≠ [] then inArray ecWkcMax (wkc ++ [44]) else some wkc).bind fun s => inArray ecWkcMax (s ++ lfs)

def EcFilesys.resources (fs : EcFilesys) : List EcRes := fs.map.entries.map Sigma.snd

/-- The resources are visited in the order of the hash map. -/
def ecFilesysWellKnownCore (fs : EcFilesys) (visits : List EcRes) (origin query : List UInt8) : Option (List UInt8) :=
  visits.foldlM (buildWkc origin query fs.relRefs) []

end Model

section Specification

/-- The attributes satisfy every parameter of a query. -/
structure EcResAttrs.Satisfies (attrs : EcResAttrs) (query : List UInt8) : Prop where
  interface : ∀ param ∈ separated 38 query, startsCase ifParam param →
    asciiStrcaseEqual attrs.interface (param.drop ifParam.length)
  resType : ∀ param ∈ separated 38 query, startsCase rtParam param →
    asciiStrcaseEqual attrs.resType (param.drop rtParam.length)
  obs : ∀ param ∈ separated 38 query, asciiStrcaseEqual param obsParam → attrs.obs
  exp : ∀ param ∈ separated 38 query, asciiStrcaseEqual param expParam → attrs.exp

/-- The resource is to be listed. -/
structure EcRes.Listed (res : EcRes) (origin query : List UInt8) : Prop where
  represented : res.reps ≠ []
  origin : SameOrigin origin res.uri
  query : res.attrs.Satisfies query

/-- A query matches exactly when all of its parameters are satisfied. -/
theorem qMatch_iff (attrs : EcResAttrs) (query : List UInt8) : qMatch attrs query = true ↔ attrs.Satisfies query := by
  have each : ∀ param, qMatchParam attrs param = true ↔
      (startsCase ifParam param → asciiStrcaseEqual attrs.interface (param.drop ifParam.length)) ∧
        (startsCase rtParam param → asciiStrcaseEqual attrs.resType (param.drop rtParam.length)) ∧
          (asciiStrcaseEqual param obsParam → attrs.obs) ∧ (asciiStrcaseEqual param expParam → attrs.exp) := by
    intro param
    unfold qMatchParam
    split
    · rename_i other
      exact ⟨fun never => (by cases never), fun held => absurd (held.1 other.1) other.2⟩
    split
    · rename_i other
      exact ⟨fun never => (by cases never), fun held => absurd (held.2.1 other.1) other.2⟩
    split
    · rename_i other
      exact ⟨fun never => (by cases never), fun held => absurd (held.2.2.1 other.1) other.2⟩
    split
    · rename_i other
      exact ⟨fun never => (by cases never), fun held => absurd (held.2.2.2 other.1) other.2⟩
    · rename_i interface resType obs exp
      refine ⟨fun _ => ⟨fun asked => ?_, fun asked => ?_, fun asked => ?_, fun asked => ?_⟩, fun _ => rfl⟩
      · exact not_not.mp fun different => interface ⟨asked, different⟩
      · exact not_not.mp fun different => resType ⟨asked, different⟩
      · exact not_not.mp fun different => obs ⟨asked, different⟩
      · exact not_not.mp fun different => exp ⟨asked, different⟩
  unfold qMatch
  rw [List.all_eq_true]
  constructor
  · intro all
    exact ⟨fun param member => ((each param).mp (all param member)).1,
      fun param member => ((each param).mp (all param member)).2.1,
      fun param member => ((each param).mp (all param member)).2.2.1,
      fun param member => ((each param).mp (all param member)).2.2.2⟩
  · intro satisfies param member
    exact (each param).mpr ⟨satisfies.interface param member, satisfies.resType param member,
      satisfies.obs param member, satisfies.exp param member⟩

instance (attrs : EcResAttrs) (query : List UInt8) : Decidable (attrs.Satisfies query) :=
  decidable_of_iff _ (qMatch_iff attrs query)

instance (res : EcRes) (origin query : List UInt8) : Decidable (res.Listed origin query) :=
  decidable_of_iff (res.reps ≠ [] ∧ SameOrigin origin res.uri ∧ res.attrs.Satisfies query)
    ⟨fun held => ⟨held.1, held.2.1, held.2.2⟩, fun listed => ⟨listed.represented, listed.origin, listed.query⟩⟩

/-- The parts of a link. -/
def stringPart (name value : List UInt8) : List UInt8 := if value ≠ [] then name ++ value ++ [34] else []

def numberPart (name : List UInt8) (value : Option Nat) : List UInt8 :=
  (value.map fun n => name ++ decimalText n).getD []

def flagPart (name : List UInt8) (flag : Bool) : List UInt8 := if flag then name else []

/-- The link of a resource with all its attributes. -/
def EcRes.link (res : EcRes) (origin : List UInt8) (relativeRef : Bool) : List UInt8 :=
  [60] ++ res.uriRef origin relativeRef ++ [62] ++
    stringPart [59, 114, 116, 61, 34] res.attrs.resType ++
    stringPart [59, 105, 102, 61, 34] res.attrs.interface ++
    numberPart [59, 115, 122, 61] (res.uniform fun rep => rep.data.length) ++
    numberPart [59, 99, 116, 61] (res.uniform fun rep => rep.mediaType.toNat) ++
    flagPart [59, 111, 98, 115] res.attrs.obs ++
    flagPart [59, 101, 120, 112] res.attrs.exp

/-- The link and its parts fit into the arrays of the formatter. -/
structure EcRes.Formattable (res : EcRes) (origin : List UInt8) (relativeRef : Bool) : Prop where
  uriRef : (res.uriRef origin relativeRef).length < ecUriMax
  size : ∀ sz, (res.uniform fun rep => rep.data.length) = some sz → sz < 10 ^ 15
  mediaType : ∀ mt, (res.uniform fun rep => rep.mediaType.toNat) = some mt → mt < 10 ^ 3
  link : (res.link origin relativeRef).length < ecLinkFmtMax

/-- The links of the resources that are to be listed, separated by commas. -/
def listing (visits : List EcRes) (origin query : List UInt8) (relativeRef : Bool) : List UInt8 :=
  List.intercalate [44] ((visits.filter fun res => decide (res.Listed origin query)).map fun res =>
    res.link origin relativeRef)

/-- The listing and its links fit into the arrays of their size. -/
structure ListingFits (visits : List EcRes) (origin query : List UInt8) (relativeRef : Bool) : Prop where
  uriRef : ∀ res ∈ visits, res.Listed origin query → (res.uriRef origin relativeRef).length < ecUriMax
  link : ∀ res ∈ visits, res.Listed origin query → (res.link origin relativeRef).length < ecLinkFmtMax
  listing : (listing visits origin query relativeRef).length < ecWkcMax

/-- The listing has a link for each resource that is to be listed, and no other. -/
structure WellKnownCore (fs : EcFilesys) (visits : List EcRes) (origin query : List UInt8) : Prop where
  listing : ecFilesysWellKnownCore fs visits origin query = some (listing visits origin query fs.relRefs)
  links : ∀ res ∈ fs.resources, (ecResLinkFormatStr res origin query fs.relRefs).isSome ↔ res.Listed origin query

end Specification

section Formatting

variable {res : EcRes} {origin query : List UInt8} {relativeRef : Bool}

theorem inArray_eq_some {size : Nat} {s out : List UInt8} : inArray size s = some out ↔ s.length < size ∧ out = s := by
  unfold inArray
  split
  · rename_i fits
    exact ⟨fun same => ⟨fits, (Option.some.inj same).symm⟩, fun both => congrArg some both.2.symm⟩
  · rename_i long
    exact ⟨fun never => (by cases never), fun both => absurd both.1 long⟩

/-- What fits in the end fits at each step. -/
theorem catAll_eq_some {s out : List UInt8} (short : s.length < ecLinkFmtMax) (strings : List (List UInt8)) :
    catAll s strings = some out ↔ (s ++ strings.flatten).length < ecLinkFmtMax ∧ out = s ++ strings.flatten := by
  unfold catAll
  induction strings generalizing s with
  | nil =>
      rw [List.flatten_nil, List.append_nil]
      exact ⟨fun same => ⟨short, (Option.some.inj same).symm⟩, fun both => congrArg some both.2.symm⟩
  | cons string strings ih =>
      rw [List.foldlM_cons, Option.bind_eq_bind, Option.bind_eq_some_iff, List.flatten_cons, ← List.append_assoc]
      constructor
      · rintro ⟨next, added, rest⟩
        obtain ⟨fits, rfl⟩ := inArray_eq_some.mp added
        exact (ih fits).mp rest
      · intro whole
        have fits : (s ++ string).length < ecLinkFmtMax := by
          have total := whole.1
          rw [List.length_append] at total
          omega
        exact ⟨s ++ string, inArray_eq_some.mpr ⟨fits, rfl⟩, (ih fits).mpr whole⟩

/-- A step writes a text on a condition, if it fits. -/
def Writes (step : Option (List UInt8)) (condition : Prop) (text : List UInt8) : Prop :=
  ∀ out, step = some out ↔ condition ∧ text.length < ecLinkFmtMax ∧ out = text

/-- The steps of a link write their texts one behind the other. -/
theorem Writes.bind {first : Option (List UInt8)} {next : List UInt8 → Option (List UInt8)} {before behind : Prop}
    {s part : List UInt8} (writes : Writes first before s)
    (continues : s.length < ecLinkFmtMax → Writes (next s) behind (s ++ part)) :
    Writes (first.bind next) (before ∧ behind) (s ++ part) := by
  intro out
  rw [Option.bind_eq_some_iff]
  constructor
  · rintro ⟨written, done, rest⟩
    obtain ⟨held, short, rfl⟩ := (writes written).mp done
    obtain ⟨held', whole⟩ := (continues short out).mp rest
    exact ⟨⟨held, held'⟩, whole⟩
  · rintro ⟨⟨held, held'⟩, whole⟩
    have short : s.length < ecLinkFmtMax := by
      have total := whole.1
      rw [List.length_append] at total
      omega
    exact ⟨s, (writes s).mpr ⟨held, short, rfl⟩, (continues short out).mpr ⟨held', whole⟩⟩

theorem writes_nothing {s : List UInt8} (short : s.length < ecLinkFmtMax) : Writes (some s) True (s ++ []) := by
  intro out
  rw [List.append_nil]
  exact ⟨fun same => ⟨trivial, short, (Option.some.inj same).symm⟩, fun both => congrArg some both.2.2.symm⟩

theorem writes_all {s : List UInt8} (short : s.length < ecLinkFmtMax) (strings : List (List UInt8)) :
    Writes (catAll s strings) True (s ++ strings.flatten) := fun out => by
  rw [true_and]
  exact catAll_eq_some short strings

theorem catString_writes {s : List UInt8} (short : s.length < ecLinkFmtMax) (name value : List UInt8) :
    Writes (catString name value s) True (s ++ stringPart name value) := by
  unfold catString stringPart
  by_cases present : value ≠ []
  · rw [if_pos present, if_pos present]
    have written := writes_all short [name, value, [34]]
    rwa [List.flatten_cons, List.flatten_cons, List.flatten_singleton, ← List.append_assoc name] at written
  · rw [if_neg present, if_neg present]
    exact writes_nothing short

theorem catNumber_writes {s : List UInt8} (short : s.length < ecLinkFmtMax) (name : List UInt8) (value : Option Nat)
    {k : Nat} (digit : 0 < k) :
    Writes (catNumber (k + 1) name value s) (∀ n, value = some n → n < 10 ^ k) (s ++ numberPart name value) := by
  cases value with
  | none =>
      intro out
      have nothing := writes_nothing short out
      rw [true_and] at nothing
      exact nothing.trans ⟨fun both => ⟨fun _ never => (by cases never), both⟩, And.right⟩
  | some n =>
      intro out
      have written := @catAll_eq_some s out short [name, decimalText n]
      rw [List.flatten_cons, List.flatten_singleton] at written
      have few : (∀ other, some n = some other → other < 10 ^ k) ↔ (decimalText n).length < k + 1 := by
        rw [decimalText_fits digit]
        exact ⟨fun all => all n rfl, fun small other same => by cases same; exact small⟩
      change (inArray (k + 1) (decimalText n)).bind _ = some out ↔
        _ ∧ (s ++ (name ++ decimalText n)).length < ecLinkFmtMax ∧ out = s ++ (name ++ decimalText n)
      rw [few, ← written, Option.bind_eq_some_iff]
      constructor
      · rintro ⟨text, fits, appended⟩
        obtain ⟨small, rfl⟩ := inArray_eq_some.mp fits
        exact ⟨small, appended⟩
      · rintro ⟨small, appended⟩
        exact ⟨decimalText n, inArray_eq_some.mpr ⟨small, rfl⟩, appended⟩

theorem catFlag_writes {s : List UInt8} (short : s.length < ecLinkFmtMax) (name : List UInt8) (flag : Bool) :
    Writes (catFlag name flag s) True (s ++ flagPart name flag) := by
  cases flag with
  | false => exact writes_nothing short
  | true =>
      have written := writes_all short [name]
      rwa [List.flatten_singleton] at written

theorem catLink_writes (res : EcRes) (origin : List UInt8) (relativeRef : Bool) :
    Writes (catLink res (res.uriRef origin relativeRef))
      ((∀ sz, (res.uniform fun rep => rep.data.length) = some sz → sz < 10 ^ 15) ∧
        ∀ mt, (res.uniform fun rep => rep.mediaType.toNat) = some mt → mt < 10 ^ 3)
      (res.link origin relativeRef) := by
  have reference : Writes (catAll [] [[60], res.uriRef origin relativeRef, [62]]) True
      ([60] ++ res.uriRef origin relativeRef ++ [62]) := by
    have written := writes_all (s := []) (by decide) [[60], res.uriRef origin relativeRef, [62]]
    rwa [List.flatten_cons, List.flatten_cons, List.flatten_singleton, List.nil_append, ← List.append_assoc] at written
  have strings := (reference.bind fun short => catString_writes short [59, 114, 116, 61, 34] res.attrs.resType).bind
    fun short => catString_writes short [59, 105, 102, 61, 34] res.attrs.interface
  have numbers := (strings.bind fun short => catNumber_writes short [59, 115, 122, 61]
    (res.uniform fun rep => rep.data.length) (k := 15) (by decide)).bind
    fun short => catNumber_writes short [59, 99, 116, 61] (res.uniform fun rep => rep.mediaType.toNat) (k := 3) (by decide)
  have flags := (numbers.bind fun short => catFlag_writes short [59, 111, 98, 115] res.attrs.obs).bind
    fun short => catFlag_writes short [59, 101, 120, 112] res.attrs.exp
  intro out
  refine (flags out).trans ?_
  rw [and_true, and_true, and_true, and_true, true_and]
  rfl

theorem stringPart_length (name value : List UInt8) : value.length ≤ (stringPart name value).length := by
  unfold stringPart
  split
  · rw [List.length_append, List.length_append]
    omega
  · rename_i empty
    rw [not_not.mp empty]

/-- The attributes are parts of the link. -/
theorem EcRes.Formattable.attributes (formattable : res.Formattable origin relativeRef) :
    res.attrs.interface.length < ecResAttrMax ∧ res.attrs.resType.length < ecResAttrMax := by
  have total := formattable.link
  have interface := stringPart_length [59, 105, 102, 61, 34] res.attrs.interface
  have resType := stringPart_length [59, 114, 116, 61, 34] res.attrs.resType
  unfold EcRes.link at total
  simp only [List.length_append, ecLinkFmtMax] at total
  constructor
  · change _ < 1024
    omega
  · change _ < 1024
    omega

/-- The formatter makes the link of a resource when the URI begins with the origin, there is a representation, the query is
satisfied and everything fits. -/
theorem ecResLinkFormatStr_eq_some {lfs : List UInt8} :
    ecResLinkFormatStr res origin query relativeRef = some lfs ↔
      (startsCase origin res.uri ∧ res.reps ≠ [] ∧ res.attrs.Satisfies query ∧ res.Formattable origin relativeRef) ∧
        lfs = res.link origin relativeRef := by
  unfold ecResLinkFormatStr
  by_cases starts : startsCase origin res.uri
  · rw [if_neg (not_not_intro starts)]
    simp only [Option.bind_eq_some_iff, inArray_eq_some]
    constructor
    · rintro ⟨uriRef, ⟨short, rfl⟩, _, _, _, _, rep, first, rest⟩
      split at rest
      · cases rest
      · rename_i matching
        have written := (catLink_writes res origin relativeRef lfs).mp rest
        refine ⟨⟨starts, fun empty => ?_, (qMatch_iff _ _).mp (not_not.mp matching), short, written.1.1, written.1.2,
          written.2.1⟩, written.2.2⟩
        rw [empty] at first
        cases first
    · rintro ⟨⟨_, some, satisfies, formattable⟩, same⟩
      obtain ⟨rep, reps, listed⟩ := List.exists_cons_of_ne_nil some
      have parts := formattable.attributes
      refine ⟨_, ⟨formattable.uriRef, rfl⟩, _, ⟨parts.1, rfl⟩, _, ⟨parts.2, rfl⟩, rep, by rw [listed]; rfl, ?_⟩
      rw [if_neg (not_not_intro ((qMatch_iff _ _).mpr satisfies))]
      exact (catLink_writes res origin relativeRef lfs).mpr
        ⟨⟨formattable.size, formattable.mediaType⟩, formattable.link, same⟩
  · rw [if_pos starts]
    exact ⟨fun never => (by cases never), fun both => absurd both.1.1 starts⟩

theorem EcRes.link_ne_nil (res : EcRes) (origin : List UInt8) (relativeRef : Bool) : res.link origin relativeRef ≠ [] := by
  unfold EcRes.link
  simp

end Formatting

section Listing

variable {fs : EcFilesys} {visits : List EcRes} {origin query : List UInt8}

/-- The first two links of a list can be taken for one. -/
theorem intercalate_joined (first second : List UInt8) (rest : List (List UInt8)) :
    List.intercalate [44] (first :: second :: rest) = List.intercalate [44] ((first ++ [44] ++ second) :: rest) := by
  cases rest with
  | nil => simp
  | cons third rest => simp

theorem intercalate_length (first : List UInt8) (rest : List (List UInt8)) :
    first.length ≤ (List.intercalate [44] (first :: rest)).length := by
  cases rest with
  | nil => simp
  | cons second rest =>
      rw [List.intercalate_cons_cons, List.append_assoc, List.length_append]
      omega

/-- The links are appended behind a list that is not empty. -/
theorem buildWkc_behind {relRefs : Bool} {wkc : List UInt8} (some' : wkc ≠ []) (short : wkc.length < ecWkcMax) :
    visits.foldlM (buildWkc origin query relRefs) wkc = inArray ecWkcMax (List.intercalate [44]
      (wkc :: visits.filterMap fun res => ecResLinkFormatStr res origin query relRefs)) := by
  induction visits generalizing wkc with
  | nil =>
      rw [List.filterMap_nil, List.intercalate_singleton]
      exact (if_pos short).symm
  | cons res visits ih =>
      rw [List.foldlM_cons, List.filterMap_cons]
      unfold buildWkc
      cases linked : ecResLinkFormatStr res origin query relRefs with
      | none => exact ih some' short
      | some lfs =>
          dsimp only
          rw [if_pos some', intercalate_joined]
          by_cases fits : (wkc ++ [44] ++ lfs).length < ecWkcMax
          · have comma : (wkc ++ [44]).length < ecWkcMax := by
              rw [List.length_append] at fits
              omega
            have joined : (inArray ecWkcMax (wkc ++ [44])).bind (fun s => inArray ecWkcMax (s ++ lfs)) =
                some (wkc ++ [44] ++ lfs) := by
              unfold inArray
              rw [if_pos comma, Option.bind_some, if_pos fits]
            rw [joined]
            exact ih (by simp) fits
          · have failed : (inArray ecWkcMax (wkc ++ [44])).bind (fun s => inArray ecWkcMax (s ++ lfs)) = none := by
              rw [Option.bind_eq_none_iff]
              intro s copied
              obtain ⟨_, rfl⟩ := inArray_eq_some.mp copied
              exact if_neg fits
            have long := intercalate_length (wkc ++ [44] ++ lfs)
              (visits.filterMap fun res => ecResLinkFormatStr res origin query relRefs)
            rw [failed]
            exact (if_neg fun all => fits (Nat.lt_of_le_of_lt long all)).symm

/-- The listing is the list of all links that are made, if it fits. -/
theorem ecFilesysWellKnownCore_eq (fs : EcFilesys) (visits : List EcRes) (origin query : List UInt8) :
    ecFilesysWellKnownCore fs visits origin query = inArray ecWkcMax (List.intercalate [44]
      (visits.filterMap fun res => ecResLinkFormatStr res origin query fs.relRefs)) := by
  unfold ecFilesysWellKnownCore
  induction visits with
  | nil => rfl
  | cons res visits ih =>
      rw [List.foldlM_cons, List.filterMap_cons]
      unfold buildWkc
      cases linked : ecResLinkFormatStr res origin query fs.relRefs with
      | none => exact ih
      | some lfs =>
          have whole := (ecResLinkFormatStr_eq_some.mp linked).2
          have some' : lfs ≠ [] := by
            rw [whole]
            exact res.link_ne_nil origin fs.relRefs
          dsimp only
          rw [if_neg (not_not_intro rfl), Option.bind_some, List.nil_append]
          by_cases fits : lfs.length < ecWkcMax
          · have copied : inArray ecWkcMax lfs = some lfs := if_pos fits
            rw [copied]
            exact buildWkc_behind some' fits
          · have long := intercalate_length lfs
              (visits.filterMap fun res => ecResLinkFormatStr res origin query fs.relRefs)
            have failed : inArray ecWkcMax lfs = none := if_neg fits
            rw [failed]
            exact (if_neg fun all => fits (Nat.lt_of_le_of_lt long all)).symm

/-- Among the resources that are represented and satisfy the query, each one of the origin has to begin with its text, with
no common size of 16 digits and no common media type of four, and no other one may begin with that text and be linked. -/
theorem wellKnownCore_iff (visited : visits.Perm fs.resources) (fits : ListingFits visits origin query fs.relRefs) :
    WellKnownCore fs visits origin query ↔
      ∀ res ∈ fs.resources, res.reps ≠ [] → res.attrs.Satisfies query →
        if SameOrigin origin res.uri then
          startsCase origin res.uri ∧ (∀ sz, (res.uniform fun rep => rep.data.length) = some sz → sz < 10 ^ 15) ∧
            ∀ mt, (res.uniform fun rep => rep.mediaType.toNat) = some mt → mt < 10 ^ 3
        else ¬ (startsCase origin res.uri ∧ res.Formattable origin fs.relRefs) := by
  have linked : ∀ res, (ecResLinkFormatStr res origin query fs.relRefs).isSome ↔
      startsCase origin res.uri ∧ res.reps ≠ [] ∧ res.attrs.Satisfies query ∧ res.Formattable origin fs.relRefs := by
    intro res
    rw [Option.isSome_iff_exists]
    exact ⟨fun ⟨_, made⟩ => (ecResLinkFormatStr_eq_some.mp made).1, fun held =>
      ⟨_, ecResLinkFormatStr_eq_some.mpr ⟨held, rfl⟩⟩⟩
  constructor
  · intro core res member some' satisfies
    have link := (linked res).symm.trans (core.links res member)
    split
    · rename_i same
      have made := link.mpr ⟨some', same, satisfies⟩
      exact ⟨made.1, made.2.2.2.size, made.2.2.2.mediaType⟩
    · rename_i other
      exact fun both => other (link.mp ⟨both.1, some', satisfies, both.2⟩).origin
  · intro right
    have links : ∀ res ∈ fs.resources,
        (ecResLinkFormatStr res origin query fs.relRefs).isSome ↔ res.Listed origin query := by
      intro res member
      rw [linked]
      constructor
      · rintro ⟨starts, some', satisfies, formattable⟩
        have condition := right res member some' satisfies
        split at condition
        · rename_i same
          exact ⟨some', same, satisfies⟩
        · exact absurd ⟨starts, formattable⟩ condition
      · rintro ⟨some', same, satisfies⟩
        have condition := right res member some' satisfies
        rw [if_pos same] at condition
        have visit := visited.mem_iff.mpr member
        exact ⟨condition.1, some', satisfies, fits.uriRef res visit ⟨some', same, satisfies⟩, condition.2.1,
          condition.2.2, fits.link res visit ⟨some', same, satisfies⟩⟩
    refine ⟨?_, links⟩
    have made : (visits.filterMap fun res => ecResLinkFormatStr res origin query fs.relRefs) =
        (visits.filter fun res => decide (res.Listed origin query)).map fun res => res.link origin fs.relRefs := by
      rw [← List.filterMap_eq_map, List.filterMap_filter]
      refine List.filterMap_congr fun res visit => ?_
      have link := links res (visited.mem_iff.mp visit)
      by_cases listed : res.Listed origin query
      · obtain ⟨lfs, found⟩ := Option.isSome_iff_exists.mp (link.mpr listed)
        rw [if_pos (decide_eq_true listed), found, (ecResLinkFormatStr_eq_some.mp found).2]
        rfl
      · rw [if_neg (by simpa using listed)]
        exact Option.not_isSome_iff_eq_none.mp fun found => listed (link.mp found)
    rw [ecFilesysWellKnownCore_eq, made]
    exact if_pos fits.listing

end Listing

/-- A thing under `coap://h:5683/x`, with a text of one byte. -/
def thing : EcRes :=
  ⟨[99, 111, 97, 112, 58, 47, 47, 104, 58, 53, 54, 56, 51, 47, 120], ecMethodMaskAll, 60, EcResAttrs.zero,
    [⟨ecMtTextPlain, Vector.replicate 4 1, [1]⟩]⟩

def thingFs : EcFilesys := (ecFilesysPutResource (ecFilesysCreate false) thing).1

/-- The first bytes of the thing's URI: `coap://h:5683`, and `coap://h:56`. -/
def thingOrigin : List UInt8 := thing.uri.take 13
def otherOrigin : List UInt8 := thing.uri.take 11

theorem wellKnownCore_iff_thing : WellKnownCore thingFs thingFs.resources thingOrigin [] := by
  have only : ∀ res ∈ thingFs.resources, res = thing := fun res member => List.mem_singleton.mp member
  have fits : ListingFits thingFs.resources thingOrigin [] thingFs.relRefs := by
    refine ⟨fun res member _ => ?_, fun res member _ => ?_, by decide⟩
    · rw [only res member]
      decide
    · rw [only res member]
      decide
  refine (wellKnownCore_iff (List.Perm.refl _) fits).mpr fun res member _ _ => ?_
  rw [only res member, if_pos (by decide)]
  refine ⟨by decide, fun sz common => ?_, fun mt common => ?_⟩
  · cases common
    decide
  · cases common
    decide

/-- The thing with a media type of four digits. -/
def exoticThing : EcRes := {thing with reps := [⟨1000, Vector.replicate 4 1, [1]⟩]}

def exoticFs : EcFilesys := (ecFilesysPutResource (ecFilesysCreate false) exoticThing).1

/-- A media type of 1000 keeps a resource out of the listing, and a resource of another port is in it. -/
theorem exoticThing_unlisted :
    (ListingFits exoticFs.resources thingOrigin [] exoticFs.relRefs ∧ exoticThing.Listed thingOrigin [] ∧
      ecFilesysWellKnownCore exoticFs exoticFs.resources thingOrigin [] = some [] ∧
      ¬ WellKnownCore exoticFs exoticFs.resources thingOrigin []) ∧
    (ListingFits thingFs.resources otherOrigin [] thingFs.relRefs ∧ ¬ thing.Listed otherOrigin [] ∧
      ecFilesysWellKnownCore thingFs thingFs.resources otherOrigin [] ≠ some [] ∧
      ¬ WellKnownCore thingFs thingFs.resources otherOrigin []) := by
  have listed : exoticThing.Listed thingOrigin [] := by decide
  have foreign : ¬ thing.Listed otherOrigin [] := by decide
  have fits : ListingFits exoticFs.resources thingOrigin [] exoticFs.relRefs := by
    refine ⟨fun res member _ => ?_, fun res member _ => ?_, by decide⟩
    · rw [List.mem_singleton.mp member]
      decide
    · rw [List.mem_singleton.mp member]
      decide
  have fits' : ListingFits thingFs.resources otherOrigin [] thingFs.relRefs := by
    refine ⟨fun res member others => ?_, fun res member others => ?_, by decide⟩
    · rw [List.mem_singleton.mp member] at others
      exact absurd others foreign
    · rw [List.mem_singleton.mp member] at others
      exact absurd others foreign
  refine ⟨⟨fits, listed, by decide, fun core => ?_⟩, fits', foreign, by decide, fun core => ?_⟩
  · have linked := (core.links exoticThing (List.mem_singleton.mpr rfl)).mpr listed
    exact absurd linked (by decide)
  · have unlinked := mt (core.links thing (List.mem_singleton.mpr rfl)).mp foreign
    exact unlinked (by decide)

end Webthings.Evcoap
