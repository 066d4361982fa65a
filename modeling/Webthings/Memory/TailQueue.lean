import Mathlib.Data.List.Basic
import Mathlib.Logic.Function.Basic

namespace Webthings.Memory

/-- A place that holds the link to an element: the head of a queue, or the link of an element to its successor. -/
inductive Link (Id : Type) where
  | head
  | next (e : Id)
  deriving DecidableEq

/-- A queue whose elements carry their links: `back` leads to the place that holds the link to the element, and is none
while it has not been set. -/
structure TailQueue (Id : Type) where
  first : Option Id
  last : Link Id
  next : Id → Option Id
  back : Id → Option (Link Id)

variable {Id : Type}

def TailQueue.empty : TailQueue Id := ⟨none, .head, fun _ => none, fun _ => none⟩

def TailQueue.read (q : TailQueue Id) : Link Id → Option Id
  | .head => q.first
  | .next e => q.next e

/-- The elements of the list follow each other from one place to another, and lead back the same way. -/
def TailQueue.Segment (q : TailQueue Id) : Link Id → List Id → Link Id → Prop
  | start, [], stop => start = stop
  | start, e :: l, stop => q.read start = some e ∧ q.back e = some start ∧ q.Segment (.next e) l stop

/-- The queue holds the elements of the list in their order. -/
structure TailQueue.Represents (q : TailQueue Id) (l : List Id) : Prop where
  path : q.Segment .head l q.last
  ends : q.read q.last = none

section Segments

variable {q q' : TailQueue Id} {e : Id} {l : List Id} {start stop : Link Id}

/-- Two segments make up one. -/
theorem TailQueue.segment_append (front rest : List Id) : q.Segment start (front ++ rest) stop ↔
    ∃ middle, q.Segment start front middle ∧ q.Segment middle rest stop := by
  induction front generalizing start with
  | nil =>
      constructor
      · exact fun segment => ⟨start, rfl, segment⟩
      · rintro ⟨middle, same, segment⟩
        exact same ▸ segment
  | cons e front ih =>
      change _ ∧ _ ∧ q.Segment (.next e) (front ++ rest) stop ↔ _
      rw [ih]
      constructor
      · rintro ⟨here, back, middle, first, second⟩
        exact ⟨middle, ⟨here, back, first⟩, second⟩
      · rintro ⟨middle, ⟨here, back, first⟩, second⟩
        exact ⟨here, back, middle, first, second⟩

/-- A segment stops where it starts, or behind one of its elements. -/
theorem TailQueue.Segment.stops (segment : q.Segment start l stop) : stop = start ∨ ∃ e ∈ l, stop = .next e := by
  induction l generalizing start with
  | nil => exact Or.inl segment.symm
  | cons e l ih =>
      rcases ih segment.2.2 with here | ⟨other, member, same⟩
      · exact Or.inr ⟨e, List.mem_cons_self, here⟩
      · exact Or.inr ⟨other, List.mem_cons_of_mem e member, same⟩

/-- A segment depends on the links to its elements and on their ways back. -/
theorem TailQueue.Segment.congr (segment : q.Segment start l stop)
    (links : ∀ place, (place = start ∨ ∃ e ∈ l, place = .next e) → ∀ e ∈ l, q.read place = some e →
      q'.read place = some e)
    (backs : ∀ e ∈ l, q'.back e = q.back e) : q'.Segment start l stop := by
  induction l generalizing start with
  | nil => exact segment
  | cons e l ih =>
      obtain ⟨here, back, rest⟩ := segment
      refine ⟨links start (Or.inl rfl) e List.mem_cons_self here, (backs e List.mem_cons_self).trans back, ?_⟩
      apply ih rest
      · intro place reached other member
        apply links place ?_ other (List.mem_cons_of_mem e member)
        rcases reached with same | ⟨before, inside, same⟩
        · exact Or.inr ⟨e, List.mem_cons_self, same⟩
        · exact Or.inr ⟨before, List.mem_cons_of_mem e inside, same⟩
      · exact fun other member => backs other (List.mem_cons_of_mem e member)

/-- The head of a queue leads to the first element of its list. -/
theorem TailQueue.Represents.first (represents : q.Represents l) : q.first = l.head? := by
  cases l with
  | nil =>
      have same : Link.head = q.last := represents.path
      have ends := represents.ends
      rw [← same] at ends
      exact ends
  | cons e l => exact represents.path.1

/-- The places of a list are not behind an element that it does not have. -/
theorem reached_ne {place : Link Id} (reached : place = .head ∨ ∃ before ∈ l, place = .next before) (outside : e ∉ l) :
    place ≠ .next e := by
  rintro rfl
  rcases reached with same | ⟨before, inside, same⟩
  · cases same
  · cases same
    exact outside inside

theorem TailQueue.Represents.last_ne (represents : q.Represents l) (outside : e ∉ l) : q.last ≠ .next e :=
  reached_ne represents.path.stops outside

/-- The last place leads to no element. -/
theorem TailQueue.Represents.leads_ne (represents : q.Represents l) {place : Link Id} (leads : q.read place = some e) :
    place ≠ q.last := by
  rintro rfl
  rw [represents.ends] at leads
  cases leads

end Segments

variable [DecidableEq Id]

def TailQueue.write (q : TailQueue Id) (place : Link Id) (link : Option Id) : TailQueue Id :=
  match place with
  | .head => {q with first := link}
  | .next e => {q with next := Function.update q.next e link}

/-- An element whose links are not set. -/
def TailQueue.zero (q : TailQueue Id) (e : Id) : TailQueue Id :=
  {q with next := Function.update q.next e none, back := Function.update q.back e none}

/-- The insertion does not look at the links that the element already has. -/
def TailQueue.insertTail (q : TailQueue Id) (e : Id) : TailQueue Id :=
  let cleared := {q with next := Function.update q.next e none, back := Function.update q.back e (some q.last)}
  {cleared.write q.last (some e) with last := .next e}

/-- The removal trusts the links of the element, and has no result when they have not been set. -/
def TailQueue.remove (q : TailQueue Id) (e : Id) : Option (TailQueue Id) :=
  (q.back e).map fun place =>
    match q.next e with
    | none => {q with last := place}.write place none
    | some successor => {q with back := Function.update q.back successor (some place)}.write place (some successor)

@[simp] theorem TailQueue.read_write (q : TailQueue Id) (place other : Link Id) (link : Option Id) :
    (q.write place link).read other = if other = place then link else q.read other := by
  cases place with
  | head => cases other <;> simp [write, read]
  | next e =>
      cases other with
      | head => simp [write, read]
      | next e' => simp [write, read, Function.update_apply]

@[simp] theorem TailQueue.back_write (q : TailQueue Id) (place : Link Id) (link : Option Id) :
    (q.write place link).back = q.back := by
  cases place <;> rfl

@[simp] theorem TailQueue.last_write (q : TailQueue Id) (place : Link Id) (link : Option Id) :
    (q.write place link).last = q.last := by
  cases place <;> rfl

section Operations

variable {q : TailQueue Id} {e : Id} {l : List Id}

/-- The links of an element that the queue does not hold do not matter. -/
theorem TailQueue.zero_represents (represents : q.Represents l) (outside : e ∉ l) : (q.zero e).Represents l := by
  have unread : ∀ place : Link Id, place ≠ .next e → (q.zero e).read place = q.read place := by
    intro place other
    cases place with
    | head => rfl
    | next e' =>
        apply Function.update_of_ne
        exact fun same => other (congrArg Link.next same)
  constructor
  · apply represents.path.congr
    · intro place reached other member here
      rw [unread place (reached_ne reached outside), here]
    · intro other member
      apply Function.update_of_ne
      rintro rfl
      exact outside member
  · change (q.zero e).read q.last = none
    rw [unread q.last (represents.last_ne outside), represents.ends]

/-- The places of a queue after an insertion. -/
theorem TailQueue.read_insertTail (q : TailQueue Id) (e : Id) (place : Link Id) : (q.insertTail e).read place =
    if place = q.last then some e else if place = .next e then none else q.read place := by
  have inner : (q.insertTail e).read place = (TailQueue.write {q with
      next := Function.update q.next e none, back := Function.update q.back e (some q.last)} q.last (some e)).read place := by
    cases place <;> rfl
  rw [inner, read_write]
  split
  · rfl
  · cases place with
    | head => rfl
    | next e' =>
        change Function.update q.next e none e' = _
        rw [Function.update_apply]
        simp [read]

theorem TailQueue.back_zero (q : TailQueue Id) (e : Id) : (q.zero e).back = Function.update q.back e none := rfl

theorem TailQueue.back_insertTail (q : TailQueue Id) (e : Id) :
    (q.insertTail e).back = Function.update q.back e (some q.last) := by
  change (TailQueue.write _ q.last (some e)).back = _
  rw [back_write]

/-- A new element goes to the end of the list. -/
theorem TailQueue.insertTail_represents (represents : q.Represents l) (outside : e ∉ l) :
    (q.insertTail e).Represents (l ++ [e]) := by
  constructor
  · rw [segment_append]
    refine ⟨q.last, ?_, ?_, ?_, rfl⟩
    · apply represents.path.congr
      · intro place reached other member here
        rw [read_insertTail, if_neg (represents.leads_ne here), if_neg (reached_ne reached outside), here]
      · intro other member
        rw [back_insertTail]
        apply Function.update_of_ne
        rintro rfl
        exact outside member
    · rw [read_insertTail, if_pos rfl]
    · rw [back_insertTail, Function.update_self]
  · change (q.insertTail e).read (.next e) = none
    rw [read_insertTail, if_neg (represents.last_ne outside).symm, if_pos rfl]

/-- A held element leaves the list, and elements that the queue does not hold keep their way back. -/
theorem TailQueue.remove_represents (represents : q.Represents l) (distinct : l.Nodup) (member : e ∈ l) :
    ∃ q', q.remove e = some q' ∧ q'.Represents (l.erase e) ∧ ∀ other, other ∉ l → q'.back other = q.back other := by
  obtain ⟨front, rest, absent, rfl, erased⟩ := List.exists_erase_eq member
  obtain ⟨place, before, here, back, after⟩ := (segment_append front (e :: rest)).mp represents.path
  obtain ⟨_, later, apart⟩ := List.nodup_append.mp distinct
  obtain ⟨gone, later⟩ := List.nodup_cons.mp later
  -- Only the place of the element leads to it.
  have off : ∀ {reached : Link Id} {other : Id}, q.read reached = some other → other ≠ e → reached ≠ place := by
    rintro reached other leads unequal rfl
    exact unequal (Option.some.inj (leads.symm.trans here))
  rw [erased]
  unfold remove
  rw [back, Option.map_some]
  cases rest with
  | nil =>
      have stop : Link.next e = q.last := after
      have ends : q.next e = none := by
        have ends := represents.ends
        rw [← stop] at ends
        exact ends
      rw [ends, List.append_nil]
      refine ⟨_, rfl, ⟨?_, ?_⟩, fun other _ => by rw [back_write]⟩
      · dsimp only
        rw [last_write]
        apply before.congr
        · intro reached _ other inside leads
          rw [read_write, if_neg (off leads (ne_of_mem_of_not_mem inside absent))]
          exact (by cases reached <;> exact leads)
        · intro other _
          rw [back_write]
      · dsimp only
        rw [last_write, read_write, if_pos rfl]
  | cons successor rest =>
      obtain ⟨next, _, tail⟩ := after
      have link : q.next e = some successor := next
      have outside : successor ∉ front := fun inside => apart successor inside successor
        (List.mem_cons_of_mem e List.mem_cons_self) rfl
      have reads : ∀ reached : Link Id, reached ≠ place → (TailQueue.write
          {q with back := Function.update q.back successor (some place)} place (some successor)).read reached =
            q.read reached := by
        intro reached off
        rw [read_write, if_neg off]
        cases reached <;> rfl
      rw [link]
      refine ⟨_, rfl, ⟨?_, ?_⟩, ?_⟩
      · dsimp only
        rw [last_write, segment_append]
        refine ⟨place, ?_, ?_, ?_, ?_⟩
        · apply before.congr
          · intro reached _ other inside leads
            rw [reads reached (off leads (ne_of_mem_of_not_mem inside absent)), leads]
          · intro other inside
            rw [back_write]
            exact Function.update_of_ne (ne_of_mem_of_not_mem inside outside) _ _
        · rw [read_write, if_pos rfl]
        · rw [back_write]
          exact Function.update_self _ _ _
        · apply tail.congr
          · intro reached _ other inside leads
            rw [reads reached (off leads (ne_of_mem_of_not_mem (List.mem_cons_of_mem successor inside) gone)), leads]
          · intro other inside
            rw [back_write]
            exact Function.update_of_ne (ne_of_mem_of_not_mem inside (List.nodup_cons.mp later).1) _ _
      · dsimp only
        rw [last_write, reads q.last (represents.leads_ne here).symm, represents.ends]
      · intro other absent
        rw [back_write]
        apply Function.update_of_ne
        rintro rfl
        exact absent (List.mem_append_right front (List.mem_cons_of_mem e List.mem_cons_self))

end Operations

end Webthings.Memory
