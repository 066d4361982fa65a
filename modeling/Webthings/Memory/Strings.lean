import Mathlib.Data.List.Basic

namespace Webthings.Memory

/-- A block of memory; a byte that was never written is none. -/
abbrev Block := List (Option UInt8)

def malloc (n : Nat) : Block := List.replicate n none

/-- A write outside of the block is none. -/
def Block.put (block : Block) (i : Nat) (byte : UInt8) : Option Block :=
  if i < block.length then some (block.set i (some byte)) else none

/-- Writes to consecutive places. -/
def Block.write (block : Block) (i : Nat) : List UInt8 → Option Block
  | [] => some block
  | byte :: bytes => (block.put i byte).bind fun next => next.write (i + 1) bytes

/-- The place of the first zero in the memory from an address on, as far as it can be read; none when it has no zero. -/
def strlen (mem : List UInt8) : Option Nat := mem.findIdx? (· == 0)

/-- The bytes that `strncpy` writes: a string of up to `n` bytes and zeros for the others. -/
def strncpyBytes : List UInt8 → Nat → Option (List UInt8)
  | _, 0 => some []
  | [], _ + 1 => none
  | byte :: mem, n + 1 => if byte = 0 then some (List.replicate (n + 1) 0) else (strncpyBytes mem n).map (byte :: ·)

def strncpy (block : Block) (src : List UInt8) (n : Nat) : Option Block := (strncpyBytes src n).bind (block.write 0)

/-- A copy of `n` bytes and a terminator, in a block for the string. -/
def copyString (src : List UInt8) (n : Nat) : Option Block :=
  (strlen src).bind fun l => (strncpy (malloc (l + 1)) src n).bind fun block => block.put n 0

variable {block : Block} {i n : Nat} {bytes behind src : List UInt8}

@[simp] theorem malloc_length (n : Nat) : (malloc n).length = n := List.length_replicate

theorem Block.put_length {byte : UInt8} {next : Block} (done : block.put i byte = some next) :
    next.length = block.length := by
  unfold Block.put at done
  by_cases inside : i < block.length
  · rw [if_pos inside, Option.some.injEq] at done
    rw [← done, List.length_set]
  · rw [if_neg inside] at done
    cases done

/-- Writes that fit replace what was there and leave the rest. -/
theorem Block.write_fits (fits : i + bytes.length ≤ block.length) :
    block.write i bytes = some (block.take i ++ bytes.map some ++ block.drop (i + bytes.length)) := by
  induction bytes generalizing block i with
  | nil => simp [Block.write]
  | cons byte bytes inductionHypothesis =>
      rw [List.length_cons] at fits
      have inside : i < block.length := by omega
      have room : i + 1 + bytes.length ≤ (block.set i (some byte)).length := by
        rw [List.length_set]
        omega
      have head : (block.set i (some byte)).take (i + 1) = block.take i ++ [some byte] := by
        rw [List.take_succ_eq_append_getElem (by simpa using inside), List.take_set_of_le (Nat.le_refl i)]
        simp
      have tail : (block.set i (some byte)).drop (i + 1 + bytes.length) = block.drop (i + (bytes.length + 1)) := by
        rw [List.drop_set_of_lt (by omega)]
        congr 1
        omega
      rw [Block.write, Block.put, if_pos inside, Option.bind_some, inductionHypothesis room, head, tail]
      simp

theorem Block.write_length {next : Block} (done : block.write i bytes = some next) : next.length = block.length := by
  induction bytes generalizing block i with
  | nil => rw [← Option.some.inj done]
  | cons byte bytes inductionHypothesis =>
      obtain ⟨put, first, rest⟩ := Option.bind_eq_some_iff.mp done
      rw [inductionHypothesis rest, Block.put_length first]

/-- Bytes without a zero are copied as they are. -/
theorem strncpyBytes_nonzero (nonzero : 0 ∉ bytes) : strncpyBytes (bytes ++ behind) bytes.length = some bytes := by
  induction bytes with
  | nil => rw [List.length_nil, strncpyBytes]
  | cons byte bytes inductionHypothesis =>
      obtain ⟨first, rest⟩ := not_or.mp (mt List.mem_cons.mpr nonzero)
      rw [List.cons_append, List.length_cons, strncpyBytes, if_neg (Ne.symm first), inductionHypothesis rest]
      rfl

/-- A string ends in its bytes when one of them is zero. -/
theorem strlen_zero (zero : 0 ∈ bytes) : ∃ l < bytes.length, strlen (bytes ++ behind) = some l := by
  have found : bytes.findIdx (· == 0) < bytes.length := List.findIdx_lt_length_of_exists ⟨0, zero, by simp⟩
  refine ⟨_, found, ?_⟩
  rw [strlen, List.findIdx?_append, List.findIdx?_eq_some_of_exists ⟨0, zero, by simp⟩]
  rfl

/-- Without a zero a string goes on in what follows its bytes. -/
theorem strlen_nonzero (nonzero : 0 ∉ bytes) : strlen (bytes ++ behind) = (strlen behind).map (· + bytes.length) := by
  have none : bytes.findIdx? (· == 0) = none := by
    rw [List.findIdx?_eq_none_iff]
    intro byte member
    exact beq_eq_false_iff_ne.mpr fun zero => nonzero (zero ▸ member)
  rw [strlen, List.findIdx?_append, none]
  rfl

theorem strlen_eq_none_iff : strlen src = none ↔ 0 ∉ src := by
  rw [strlen, List.findIdx?_eq_none_iff]
  simp only [beq_eq_false_iff_ne]
  exact ⟨fun each member => each 0 member rfl, fun absent byte member zero => absent (zero ▸ member)⟩

/-- A zero among the bytes makes the block too small for them and the terminator. -/
theorem copyString_zero (zero : 0 ∈ bytes) : copyString (bytes ++ behind) bytes.length = none := by
  obtain ⟨l, short, ended⟩ : ∃ l < bytes.length, strlen (bytes ++ behind) = some l := strlen_zero zero
  rw [copyString, ended, Option.bind_some]
  cases copied : strncpy (malloc (l + 1)) (bytes ++ behind) bytes.length with
  | none => rfl
  | some block =>
      obtain ⟨_, _, written⟩ := Option.bind_eq_some_iff.mp copied
      have room : block.length = l + 1 := (Block.write_length written).trans (malloc_length _)
      rw [Option.bind_some, Block.put, if_neg (by omega)]

/-- Without any zero the string has no end. -/
theorem copyString_endless (nonzero : 0 ∉ bytes) (endless : 0 ∉ behind) :
    copyString (bytes ++ behind) bytes.length = none := by
  rw [copyString, strlen_nonzero nonzero, strlen_eq_none_iff.mpr endless]
  rfl

/-- As many bytes as the string has, or fewer, are copied and end in the terminator. -/
theorem copyString_within {l : Nat} (ended : strlen src = some l) (fits : n ≤ l) :
    copyString src n = some ((src.take n).map some ++ some 0 :: List.replicate (l - n) none) := by
  obtain ⟨within, _, before⟩ := List.findIdx?_eq_some_iff_getElem.mp ended
  have length : (src.take n).length = n := by
    rw [List.length_take]
    omega
  have nonzero : 0 ∉ src.take n := by
    intro zero
    obtain ⟨i, below, equal⟩ := List.getElem_of_mem zero
    rw [length] at below
    rw [List.getElem_take] at equal
    exact before i (by omega) (by simp [equal])
  have copied : strncpyBytes src n = some (src.take n) := by
    have whole : strncpyBytes (src.take n ++ src.drop n) (src.take n).length = some (src.take n) :=
      strncpyBytes_nonzero nonzero
    rwa [List.take_append_drop, length] at whole
  have room : 0 + (src.take n).length ≤ (malloc (l + 1)).length := by
    rw [malloc_length, length]
    omega
  have rest : (malloc (l + 1)).drop n = none :: List.replicate (l - n) none := by
    rw [malloc, List.drop_replicate, show l + 1 - n = l - n + 1 by omega]
    rfl
  have written : (malloc (l + 1)).write 0 (src.take n) =
      some ((src.take n).map some ++ none :: List.replicate (l - n) none) := by
    rw [Block.write_fits room, length, Nat.zero_add, rest]
    rfl
  have ahead : ((src.take n).map some).length = n := by
    rw [List.length_map, length]
  have inside : n < ((src.take n).map some ++ none :: List.replicate (l - n) none).length := by
    rw [List.length_append, ahead, List.length_cons]
    omega
  rw [copyString, ended, Option.bind_some, strncpy, copied, Option.bind_some, written, Option.bind_some, Block.put,
    if_pos inside, List.set_append_right n _ (Nat.le_of_eq ahead), ahead, Nat.sub_self]
  rfl

/-- With its first zero behind the bytes the block has room for them and more. -/
theorem copyString_nonzero (nonzero : 0 ∉ bytes) (ended : 0 ∈ behind) :
    ∃ block, copyString (bytes ++ behind) bytes.length = some block ∧ block.take bytes.length = bytes.map some := by
  obtain ⟨l, found⟩ := Option.ne_none_iff_exists'.mp (mt strlen_eq_none_iff.mp (not_not_intro ended))
  have length : strlen (bytes ++ behind) = some (l + bytes.length) := by
    rw [strlen_nonzero nonzero, found]
    rfl
  refine ⟨_, copyString_within length (Nat.le_add_left _ _), ?_⟩
  simp

/-- Any other copy goes outside of the memory. -/
theorem copyString_unfit (unfit : ¬ (0 ∉ bytes ∧ 0 ∈ behind)) : copyString (bytes ++ behind) bytes.length = none := by
  by_cases zero : 0 ∈ bytes
  · exact copyString_zero zero
  · exact copyString_endless zero fun ended => unfit ⟨zero, ended⟩

end Webthings.Memory
