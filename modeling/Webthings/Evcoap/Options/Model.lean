import Webthings.Evcoap.Enums
import Mathlib.Algebra.Ring.Nat
import Mathlib.Data.List.Sort

namespace Webthings.Evcoap

inductive EcOptSym where
  | none
  | contentType
  | maxAge
  | proxyUri
  | etag
  | uriHost
  | locationPath
  | uriPort
  | locationQuery
  | uriPath
  | observe
  | token
  | accept
  | ifMatch
  | uriQuery
  | block2
  | block1
  | ifNoneMatch
  | publish
  | max
  deriving DecidableEq, Repr

/-- The enumerators in the order of `ec_opt_sym_t`. -/
def EcOptSym.all : List EcOptSym :=
  [.none, .contentType, .maxAge, .proxyUri, .etag, .uriHost, .locationPath, .uriPort, .locationQuery,
    .uriPath, .observe, .token, .accept, .ifMatch, .uriQuery, .block2, .block1, .ifNoneMatch, .publish, .max]

/-- The integer value of an enumerator. -/
def EcOptSym.value (sym : EcOptSym) : Nat := EcOptSym.all.idxOf sym

/-- The enumerator with the given integer value. -/
def EcOptSym.ofValue (value : Nat) : EcOptSym := EcOptSym.all.getD value .none

/-- `EC_OPT_SYM_VALID`. -/
def EcOptSym.Valid (sym : EcOptSym) : Prop :=
  EcOptSym.none.value < sym.value ∧ sym.value < EcOptSym.max.value

instance (sym : EcOptSym) : Decidable sym.Valid := inferInstanceAs (Decidable (_ ∧ _))

inductive EcOptType where
  | invalid
  | uint
  | string
  | opaqueValue
  | empty
  deriving DecidableEq, Repr

/-- One row of the option table: the number on the wire and the implicit type. -/
structure OptRec where
  n : Nat
  t : EcOptType
  deriving DecidableEq, Repr

/-- The option table, which is indexed by the enumerators. -/
def gOpts : List OptRec :=
  [⟨0, .invalid⟩, ⟨1, .uint⟩, ⟨2, .uint⟩, ⟨3, .string⟩, ⟨4, .opaqueValue⟩, ⟨5, .string⟩, ⟨6, .string⟩, ⟨7, .uint⟩,
    ⟨8, .string⟩, ⟨9, .string⟩, ⟨10, .uint⟩, ⟨11, .opaqueValue⟩, ⟨12, .uint⟩, ⟨13, .opaqueValue⟩, ⟨15, .string⟩,
    ⟨17, .uint⟩, ⟨19, .uint⟩, ⟨21, .empty⟩, ⟨23, .uint⟩]

def gOptsRow (sym : EcOptSym) : OptRec := gOpts.getD sym.value ⟨0, .invalid⟩

def ecOptSym2type (sym : EcOptSym) : EcOptType :=
  if sym.Valid then (gOptsRow sym).t else .invalid

def ecOptSym2num (sym : EcOptSym) : Nat :=
  if sym.Valid then (gOptsRow sym).n else EcOptSym.none.value

/-- The linear search of the table returns `EC_OPT_NONE` for a number it does not hold. -/
def ecOptNum2sym (num : Nat) : EcOptSym :=
  match gOpts.findIdx? fun row => num == row.n with
  | some i => EcOptSym.ofValue i
  | Option.none => .none

/-- `EC_OPT_NUM_IS_FENCEPOST`. -/
def ecOptNumIsFencepost (n : Nat) : Bool := n != 0 && n % 14 == 0

/-- The table is in step with the enumeration. -/
@[simp] theorem ecOptNum2sym_sym2num (sym : EcOptSym) (valid : sym.Valid) :
    ecOptNum2sym (ecOptSym2num sym) = sym := by
  revert valid
  cases sym <;> decide

theorem ecOptSym2num_bounds (sym : EcOptSym) (valid : sym.Valid) :
    0 < ecOptSym2num sym ∧ ecOptSym2num sym ≤ 23 ∧ ecOptSym2num sym ≠ 14 := by
  revert valid
  cases sym <;> decide

/-- The option numbers grow with the enumerators. -/
theorem ecOptSym2num_le_iff (a b : EcOptSym) (validA : a.Valid) (validB : b.Valid) :
    a.value ≤ b.value ↔ ecOptSym2num a ≤ ecOptSym2num b := by
  revert validA validB
  cases a <;> cases b <;> decide

theorem ecOptSym2num_injective (a b : EcOptSym) (validA : a.Valid) (validB : b.Valid)
    (same : ecOptSym2num a = ecOptSym2num b) : a = b := by
  rw [← ecOptNum2sym_sym2num a validA, same, ecOptNum2sym_sym2num b validB]

theorem ecOptSym2type_invalid (sym : EcOptSym) :
    ecOptSym2type sym = .invalid ↔ ¬ sym.Valid := by
  cases sym <;> decide

/-- Only If-None-Match has the empty type. -/
theorem ecOptSym2type_empty (sym : EcOptSym) :
    ecOptSym2type sym = .empty ↔ sym = .ifNoneMatch := by
  cases sym <;> decide

/-- A number beyond the table is unknown. -/
theorem ecOptNum2sym_above (num : Nat) (above : 23 < num) : ecOptNum2sym num = .none := by
  have absent : gOpts.findIdx? (fun row => num == row.n) = Option.none := by
    rw [List.findIdx?_eq_none_iff]
    intro row member
    have bound : ∀ row ∈ gOpts, row.n ≤ 23 := by decide
    have := bound row member
    simp only [beq_eq_false_iff_ne]
    omega
  rw [ecOptNum2sym, absent]

/-- A number that the table holds belongs to a valid symbol. -/
theorem ecOptNum2sym_known (num : Nat) (known : ecOptNum2sym num ≠ .none) :
    (ecOptNum2sym num).Valid ∧ ecOptSym2num (ecOptNum2sym num) = num := by
  by_cases above : 23 < num
  · exact absurd (ecOptNum2sym_above num above) known
  · have table : ∀ n : Fin 24, ecOptNum2sym n.val ≠ .none →
        (ecOptNum2sym n.val).Valid ∧ ecOptSym2num (ecOptNum2sym n.val) = n.val := by decide
    exact table ⟨num, by omega⟩ known

/-- The shape of an option's buffer: NULL for an empty or zero-length uint option, else its `l` bytes. -/
def ValueShape (t : EcOptType) (l : Nat) : Option (List UInt8) → Prop
  | Option.none => t = .empty ∨ (t = .uint ∧ l = 0)
  | some bytes => bytes.length = l ∧ t ≠ .empty ∧ ¬ (t = .uint ∧ l = 0)

/-- An option carries what `ec_opt_new` has checked when it hands the option out. -/
structure EcOpt where
  sym : EcOptSym
  l : Nat
  v : Option (List UInt8)
  valid : sym.Valid
  fits : l ≤ ecCoapOptLenMax
  shape : ValueShape (ecOptSym2type sym) l v
  deriving DecidableEq

def EcOpt.t (o : EcOpt) : EcOptType := ecOptSym2type o.sym

def EcOpt.num (o : EcOpt) : Nat := ecOptSym2num o.sym

/-- The bytes that `memcpy` puts for this option, none when its buffer is NULL. -/
def EcOpt.value (o : EcOpt) : List UInt8 := o.v.getD []

/-- The list `v` is the memory of `l` bytes that the caller points to. -/
def ecOptNew (sym : EcOptSym) (v : List UInt8) : Option EcOpt :=
  if fits : v.length ≤ ecCoapOptLenMax then
    if valid : sym.Valid then
      if empty : ecOptSym2type sym = .empty then
        some ⟨sym, v.length, Option.none, valid, fits, Or.inl empty⟩
      else if zero : ecOptSym2type sym = .uint ∧ v.length = 0 then
        some ⟨sym, v.length, Option.none, valid, fits, Or.inr zero⟩
      else
        some ⟨sym, v.length, some v, valid, fits, rfl, empty, zero⟩
    else Option.none
  else Option.none

/-- Whether `ec_opt_new` copies the caller's bytes. -/
def ecOptCopies (sym : EcOptSym) : Bool := ecOptSym2type sym != .empty

theorem ecOptNew_isSome (sym : EcOptSym) (v : List UInt8) :
    (ecOptNew sym v).isSome ↔ v.length ≤ ecCoapOptLenMax ∧ sym.Valid := by
  by_cases fits : v.length ≤ ecCoapOptLenMax
  · by_cases valid : sym.Valid
    · unfold ecOptNew
      rw [dif_pos fits, dif_pos valid]
      split_ifs <;> exact ⟨fun _ => ⟨fits, valid⟩, fun _ => rfl⟩
    · unfold ecOptNew
      rw [dif_pos fits, dif_neg valid]
      simp [valid]
  · unfold ecOptNew
    rw [dif_neg fits]
    constructor
    · intro impossible
      cases impossible
    · intro both
      exact absurd both.1 fits

theorem ecOptNew_some {sym : EcOptSym} {v : List UInt8} {o : EcOpt} (created : ecOptNew sym v = some o) :
    o.sym = sym ∧ o.l = v.length ∧ (∀ bytes, o.v = some bytes → bytes = v) := by
  unfold ecOptNew at created
  split_ifs at created <;> simp only [Option.some.injEq] at created <;> subst created <;> simp

/-- Creating an option from the bytes of an option gives that option again. -/
theorem ecOptNew_again (o : EcOpt) (v : List UInt8) (length : v.length = o.l)
    (same : ∀ bytes, o.v = some bytes → v = bytes) : ecOptNew o.sym v = some o := by
  obtain ⟨sym, l, value, valid, fits, shape⟩ := o
  dsimp only at length same
  subst length
  cases value with
  | none =>
      rcases shape with empty | zero
      · unfold ecOptNew
        rw [dif_pos fits, dif_pos valid, dif_pos empty]
      · have notEmpty : ecOptSym2type sym ≠ .empty := by rw [zero.1]; decide
        unfold ecOptNew
        rw [dif_pos fits, dif_pos valid, dif_neg notEmpty, dif_pos zero]
  | some bytes =>
      obtain ⟨_, notEmpty, notZero⟩ := shape
      have vs := same bytes rfl
      subst vs
      unfold ecOptNew
      rw [dif_pos fits, dif_pos valid, dif_neg notEmpty, dif_neg notZero]

end Webthings.Evcoap
