import Webthings.Evcoap.Options.Fragments
import Webthings.Sorting.Keyed

namespace Webthings.Evcoap
open Webthings.Sorting

section Loops

/-- `TAILQ_FOREACH_REVERSE` with `TAILQ_INSERT_AFTER`: the queue is walked from its tail, and `tmp` is followed by `o` if
its symbol is not above. -/
def pushAfter (o : EcOpt) : List EcOpt → Option (List EcOpt)
  | [] => none
  | tmp :: rest => if o.sym.value ≥ tmp.sym.value then some (o :: tmp :: rest) else (pushAfter o rest).map (tmp :: ·)

/-- The queue is empty, or the option is not the lowest, or it is. -/
def pushQueue (queue : List EcOpt) (o : EcOpt) : List EcOpt :=
  if queue = [] then [o]
  else
    match pushAfter o queue.reverse with
    | some reversed => reversed.reverse
    | none => o :: queue

/-- `TAILQ_FOREACH` with an index that counts down at the options of the symbol. -/
def getNthLoop (sym : EcOptSym) : List EcOpt → Nat → Option EcOpt
  | [], _ => none
  | o :: rest, n => if o.sym = sym then if n = 0 then some o else getNthLoop sym rest (n - 1) else getNthLoop sym rest n

theorem pushAfter_orderedInsert (o : EcOpt) (reversed : List EcOpt) :
    (pushAfter o reversed).getD (reversed ++ [o]) = reversed.orderedInsert descends o := by
  induction reversed with
  | nil => rfl
  | cons tmp rest inductionHypothesis =>
      unfold pushAfter
      by_cases low : tmp.sym.value ≤ o.sym.value
      · rw [if_pos low, List.orderedInsert_cons_of_le descends rest low]
        rfl
      · rw [if_neg low, List.orderedInsert_of_not_le descends rest low, ← inductionHypothesis]
        cases pushAfter o rest <;> rfl

/-- The three cases of a push are one insertion. -/
theorem Bundle.insert_queue (b : Bundle) (o : EcOpt) : (b.insert o).list = pushQueue b.list o := by
  change (b.list.reverse.orderedInsert descends o).reverse = pushQueue b.list o
  rw [← pushAfter_orderedInsert]
  unfold pushQueue
  by_cases empty : b.list = []
  · rw [if_pos empty, empty]
    rfl
  · rw [if_neg empty]
    cases pushAfter o b.list.reverse with
    | none => simp
    | some reversed => rfl

theorem ecOptsGetNth_loop (opts : EcOpts) (sym : EcOptSym) (n : Nat) :
    ecOptsGetNth opts sym n = getNthLoop sym opts.bundle.list n := by
  unfold ecOptsGetNth
  generalize opts.bundle.list = queue
  induction queue generalizing n with
  | nil => rfl
  | cons o rest inductionHypothesis =>
      unfold getNthLoop
      by_cases same : o.sym = sym
      · rw [if_pos same, List.filter_cons_of_pos (by simpa using same)]
        cases n with
        | zero => rfl
        | succ n => exact inductionHypothesis n
      · rw [if_neg same, List.filter_cons_of_neg (by simpa using same)]
        exact inductionHypothesis n

end Loops

/-- A set and the options of the calls that have returned 0, in the order of the calls. -/
structure Pushing where
  opts : EcOpts
  taken : List EcOpt

def Pushing.init : Pushing := ⟨ecOptsInit, []⟩

/-- One call of `ec_opts_push`. -/
def Pushing.push (p : Pushing) (o : EcOpt) : Pushing where
  opts := (ecOptsPush p.opts o).1
  taken := if (ecOptsPush p.opts o).2 = 0 then p.taken ++ [o] else p.taken

/-- The queue is the stable sort of the options that were taken, and the count and the getter agree with it. -/
structure Pushing.Sorted (p : Pushing) : Prop where
  stable : p.opts.bundle.list = stableSort EcOpt.num p.taken
  counted : p.opts.noptions = p.opts.bundle.list.length
  within : p.opts.noptions ≤ ecProtoMaxOptions
  nth : ∀ sym n, ecOptsGetNth p.opts sym n = (p.taken.filter fun o => o.sym = sym)[n]?
  absent : ∀ sym n, ecOptsGetNth p.opts sym n = none ↔ (p.taken.filter fun o => o.sym = sym).length ≤ n

section Invariant

variable {p : Pushing} {o : EcOpt}

/-- The numbers of a queue never fall. -/
theorem Bundle.ascending_num (b : Bundle) : Sorting.Ascending EcOpt.num b.list :=
  b.ordered.imp fun {a o} below => (ecOptSym2num_le_iff a.sym o.sym a.valid o.valid).mp below

/-- A selection in which the new option meets its own symbol only gets it at the end. -/
theorem Bundle.insert_filter (b : Bundle) (chosen : EcOpt → Bool)
    (own : ∀ x ∈ b.list, chosen x = true → chosen o = true → x.sym = o.sym) :
    (b.insert o).list.filter chosen = b.list.filter chosen ++ [o].filter chosen := by
  have behind : chosen o = true → (b.list.filter fun x => o.sym.value < x.sym.value).filter chosen = [] := by
    intro taken
    rw [List.filter_eq_nil_iff]
    intro x member there
    obtain ⟨inside, above⟩ := List.mem_filter.mp member
    rw [own x inside there taken] at above
    simp at above
  have whole := congrArg (List.filter chosen) (b.split o.sym)
  rw [List.filter_append] at whole
  rw [b.insert_between, List.filter_append, ← whole]
  cases taken : chosen o with
  | true =>
      rw [List.filter_cons_of_pos taken, behind taken, List.append_nil, List.filter_cons_of_pos taken]
      rfl
  | false =>
      rw [List.filter_cons_of_neg (by simp [taken]), List.filter_cons_of_neg (by simp [taken]), List.filter_nil,
        List.append_nil]

/-- The parts of the queue, by number and by symbol, are those of the options that were taken. -/
structure Pushing.Parted (p : Pushing) : Prop where
  numbers : ∀ n, part EcOpt.num p.opts.bundle.list n = part EcOpt.num p.taken n
  symbols : ∀ sym, (p.opts.bundle.list.filter fun o => o.sym = sym) = p.taken.filter fun o => o.sym = sym
  counted : p.opts.noptions = p.opts.bundle.list.length
  within : p.opts.noptions ≤ ecProtoMaxOptions

theorem Pushing.init_parted : Pushing.init.Parted := ⟨fun _ => rfl, fun _ => rfl, rfl, Nat.zero_le _⟩

/-- A push that fails changes nothing, and any other one puts the option at the end of its parts. -/
theorem Pushing.Parted.push (parted : p.Parted) (o : EcOpt) : (p.push o).Parted := by
  unfold Pushing.push ecOptsPush
  by_cases full : p.opts.noptions = ecProtoMaxOptions
  · rw [if_pos full]
    exact parted
  · have below := Nat.lt_of_le_of_ne parted.within full
    rw [if_neg full, if_pos rfl]
    refine ⟨fun n => ?_, fun sym => ?_, ?_, below⟩
    · change ((p.opts.bundle.insert o).list.filter fun x => x.num = n) = (p.taken ++ [o]).filter fun x => x.num = n
      rw [Bundle.insert_filter, List.filter_append]
      · exact congrArg (· ++ _) (parted.numbers n)
      · intro x _ there taken
        exact ecOptSym2num_injective x.sym o.sym x.valid o.valid
          ((of_decide_eq_true there).trans (of_decide_eq_true taken).symm)
    · change ((p.opts.bundle.insert o).list.filter fun x => x.sym = sym) = (p.taken ++ [o]).filter fun x => x.sym = sym
      rw [Bundle.insert_filter, List.filter_append, parted.symbols sym]
      intro x _ there taken
      exact (of_decide_eq_true there).trans (of_decide_eq_true taken).symm
    · change p.opts.noptions + 1 = (p.opts.bundle.insert o).list.length
      rw [Bundle.insert_length, parted.counted]

theorem Pushing.Parted.run (parted : p.Parted) (os : List EcOpt) : (os.foldl Pushing.push p).Parted := by
  induction os generalizing p with
  | nil => exact parted
  | cons o os inductionHypothesis => exact inductionHypothesis (parted.push o)

theorem Pushing.Parted.sorted (parted : p.Parted) : p.Sorted where
  stable := (p.opts.bundle.ascending_num).eq_stableSort parted.numbers
  counted := parted.counted
  within := parted.within
  nth sym n := congrArg (·[n]?) (parted.symbols sym)
  absent sym n := by
    unfold ecOptsGetNth
    rw [parted.symbols sym, List.getElem?_eq_none_iff]

end Invariant

/-- Any pushes into a new set leave the stable sort of those that succeed. -/
theorem ecOptsPush_sorted (os : List EcOpt) : (os.foldl Pushing.push Pushing.init).Sorted :=
  (Pushing.init_parted.run os).sorted

end Webthings.Evcoap
