/-
A singly linked queue: a first and a last node, a count, and a link from each
node to the one behind it. The links are a function of the node, which several
queues share; a node that is in no queue may have any link.

`Holds` says which list of nodes a queue stands for. Putting a node behind the
others and taking the first away do this to the list, and leave the queues that
the nodes are not in as they are.
-/
import Mathlib.Tactic

set_option autoImplicit false

/-- The ends of the queue, and the number of nodes. -/
structure LinkedQueue (α : Type*) where
  first : Option α
  tail : Option α
  total : ℤ

namespace LinkedQueue

variable {α : Type*} [DecidableEq α]

/-- Nothing in it. -/
def empty : LinkedQueue α := ⟨none, none, 0⟩

/-- Put a node behind the others. -/
def insertTail (next : α → Option α) (q : LinkedQueue α) (b : α) : (α → Option α) × LinkedQueue α :=
  let r : (α → Option α) × Option α :=
    match q.tail with
    | some t => (Function.update next t (some b), q.first)
    | none => (next, some b)
  (Function.update r.1 b none, ⟨r.2, some b, q.total + 1⟩)

/-- Take the first node away. -/
def removeFirst (next : α → Option α) (q : LinkedQueue α) : Option (α × LinkedQueue α) :=
  q.first.map fun b => (b, ⟨next b, if (next b).isNone then none else q.tail, q.total - 1⟩)

/-- Each node links to the next in the list, the last one to none. -/
def Linked (next : α → Option α) : List α → Prop
  | [] => True
  | a :: l => next a = l.head? ∧ Linked next l

/-- The queue stands for the list. -/
structure Holds (next : α → Option α) (q : LinkedQueue α) (l : List α) : Prop where
  first : q.first = l.head?
  tail : q.tail = l.getLast?
  total : q.total = l.length
  linked : Linked next l

variable {next : α → Option α} {q : LinkedQueue α} {l : List α} {a b : α}

omit [DecidableEq α] in
theorem holds_empty (next : α → Option α) : Holds next empty [] := ⟨rfl, rfl, rfl, trivial⟩

/-- A link of a node outside the list. -/
theorem Linked.update (h : Linked next l) (ha : a ∉ l) (x : Option α) :
    Linked (Function.update next a x) l := by
  induction l with
  | nil => trivial
  | cons c l ih =>
      obtain ⟨hne, hl⟩ := List.ne_and_not_mem_of_not_mem_cons ha
      refine ⟨?_, ih h.2 hl⟩
      rw [Function.update_of_ne (Ne.symm hne)]
      exact h.1

/-- A queue that the nodes are not in. -/
theorem Holds.update (h : Holds next q l) (ha : a ∉ l) (x : Option α) :
    Holds (Function.update next a x) q l :=
  ⟨h.first, h.tail, h.total, h.linked.update ha x⟩

/-- The last node of a list is linked to a new one. -/
theorem Linked.concat (h : Linked next l) (hl : l.Nodup) (hb : b ∉ l) {t : α}
    (ht : l.getLast? = some t) :
    Linked (Function.update (Function.update next t (some b)) b none) (l ++ [b]) := by
  induction l with
  | nil => cases ht
  | cons c l ih =>
      obtain ⟨hbc, hbl⟩ := List.ne_and_not_mem_of_not_mem_cons hb
      obtain ⟨hc, hnd⟩ := List.nodup_cons.mp hl
      cases l with
      | nil =>
          cases ht
          refine ⟨?_, Function.update_self .., trivial⟩
          rw [Function.update_of_ne (Ne.symm hbc)]
          exact Function.update_self ..
      | cons d l =>
          rw [List.getLast?_cons_cons] at ht
          have hct : c ≠ t := fun heq => hc (heq ▸ List.mem_of_getLast? ht)
          refine ⟨?_, ih h.2 hnd hbl ht⟩
          rw [Function.update_of_ne (Ne.symm hbc), Function.update_of_ne hct, h.1]
          rfl

/-- **A node goes behind the others.** -/
theorem Holds.insertTail (h : Holds next q l) (hl : l.Nodup) (hb : b ∉ l) :
    Holds (q.insertTail next b).1 (q.insertTail next b).2 (l ++ [b]) := by
  cases ht : l.getLast? with
  | none =>
      rw [List.getLast?_eq_none_iff] at ht
      subst ht
      have htail : q.tail = none := h.tail
      simp only [LinkedQueue.insertTail, htail]
      refine ⟨rfl, rfl, ?_, Function.update_self .., trivial⟩
      simp [h.total]
  | some t =>
      have htail : q.tail = some t := h.tail.trans ht
      simp only [LinkedQueue.insertTail, htail]
      refine ⟨?_, ?_, ?_, h.linked.concat hl hb ht⟩
      · cases l with
        | nil => cases ht
        | cons c l => exact h.first
      · rw [List.getLast?_concat]
      · simp [h.total]

/-- A queue with other nodes is left alone. -/
theorem Holds.insertTail_other {q' : LinkedQueue α} {l' : List α} (h' : Holds next q' l')
    (h : Holds next q l) (hb : b ∉ l') (hdisj : ∀ t ∈ l, t ∉ l') :
    Holds (q.insertTail next b).1 q' l' := by
  cases htail : q.tail with
  | none =>
      simp only [LinkedQueue.insertTail, htail]
      exact h'.update hb none
  | some t =>
      have hmem : t ∈ l := List.mem_of_getLast? (h.tail.symm.trans htail)
      simp only [LinkedQueue.insertTail, htail]
      exact (h'.update (hdisj t hmem) (some b)).update hb none

omit [DecidableEq α] in
/-- **The first node is taken away.** -/
theorem Holds.removeFirst (h : Holds next q (a :: l)) :
    ∃ q', q.removeFirst next = some (a, q') ∧ Holds next q' l := by
  have hfirst : q.first = some a := h.first
  refine ⟨_, by rw [LinkedQueue.removeFirst, hfirst]; rfl, ?_, ?_, ?_, h.linked.2⟩
  · exact h.linked.1
  · simp only [h.linked.1]
    cases l with
    | nil => rfl
    | cons c l =>
        rw [h.tail, List.getLast?_cons_cons]
        rfl
  · simp [h.total]

omit [DecidableEq α] in
theorem Holds.removeFirst_nil (h : Holds next q []) : q.removeFirst next = none := by
  have hfirst : q.first = none := h.first
  rw [LinkedQueue.removeFirst, hfirst]
  rfl

end LinkedQueue
