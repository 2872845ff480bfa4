/-
A queue in a ring: a buffer of `cap` places, the place written next, the place
read next, and the number of elements between them.

The two places move by one and go back to the start behind the last place
(`next`). What the ring holds is the list of its elements in the order they were
put in (`contents`); `push` puts one behind the others and `pop` takes the first
away, as long as the ring is neither full nor empty.
-/
import Mathlib.Tactic

set_option autoImplicit false

/-- `size` elements from the place `out` on; the next one goes to `inp`. -/
structure RingQueue (α : Type*) where
  buf : ℕ → α
  cap : ℕ
  inp : ℕ
  out : ℕ
  size : ℕ

namespace RingQueue

variable {α : Type*}

/-- The place behind `p`. -/
def next (cap p : ℕ) : ℕ := if cap ≤ p + 1 then 0 else p + 1

/-- Put one element in. -/
def push (r : RingQueue α) (x : α) : RingQueue α :=
  { r with
    buf := fun i => if i = r.inp then x else r.buf i
    inp := next r.cap r.inp
    size := r.size + 1 }

/-- Take the first element out. -/
def pop (r : RingQueue α) : RingQueue α :=
  { r with
    out := next r.cap r.out
    size := r.size - 1 }

/-- The elements, the first one first. -/
def contents (r : RingQueue α) : List α :=
  (List.range r.size).map fun i => r.buf ((r.out + i) % r.cap)

/-- Both places are inside the buffer and `size` apart. -/
structure Ok (r : RingQueue α) : Prop where
  inp_lt : r.inp < r.cap
  out_lt : r.out < r.cap
  size_le : r.size ≤ r.cap
  apart : r.inp = (r.out + r.size) % r.cap

variable {r : RingQueue α} {x : α} {xs : List α} {n : ℕ}

/-- The next place by a remainder, for places inside the ring. -/
theorem next_eq {cap p : ℕ} (h : p < cap) : next cap p = (p + 1) % cap := by
  unfold next
  split_ifs with hle
  · rw [show p + 1 = cap by omega, Nat.mod_self]
  · rw [Nat.mod_eq_of_lt (by omega)]

theorem next_lt {cap p : ℕ} (h : p < cap) : next cap p < cap := by
  rw [next_eq h]
  exact Nat.mod_lt _ (by omega)

@[simp] theorem length_contents : r.contents.length = r.size := by simp [contents]

/-- An empty ring has no contents. -/
theorem contents_eq_nil (h : r.size = 0) : r.contents = [] :=
  List.length_eq_zero_iff.mp (length_contents.trans h)

/-! ## One element -/

/-- What is put in has room in front of what is taken out. -/
theorem Ok.push (h : r.Ok) (hroom : r.size < r.cap) : (r.push x).Ok where
  inp_lt := next_lt h.inp_lt
  out_lt := h.out_lt
  size_le := hroom
  apart := by
    have hap := h.apart
    simp only [RingQueue.push]
    rw [next_eq h.inp_lt, hap, Nat.mod_add_mod, Nat.add_assoc]

/-- It is the last to come out. -/
theorem Ok.contents_push (h : r.Ok) (hroom : r.size < r.cap) :
    (r.push x).contents = r.contents ++ [x] := by
  have hap := h.apart
  have hpos : 0 < r.cap := Nat.zero_lt_of_lt h.inp_lt
  simp only [contents, RingQueue.push, List.range_succ, List.map_append, List.map_cons,
    List.map_nil]
  congr 1
  · apply List.map_congr_left
    intro i hi
    rw [List.mem_range] at hi
    rw [if_neg]
    -- two places less than `cap` apart are not the same place
    intro heq
    have h1 : (r.out + i) % r.cap = (r.out + r.size) % r.cap := heq.trans hap
    have h2 : r.out + i ≡ r.out + r.size [MOD r.cap] := h1
    have h3 : i ≡ r.size [MOD r.cap] := Nat.ModEq.add_left_cancel' _ h2
    have h4 : i = r.size := by
      rw [Nat.ModEq, Nat.mod_eq_of_lt (by omega), Nat.mod_eq_of_lt hroom] at h3
      exact h3
    omega
  · rw [← hap, if_pos rfl]

/-- Taking out makes room. -/
theorem Ok.pop (h : r.Ok) (hne : 0 < r.size) : r.pop.Ok where
  inp_lt := h.inp_lt
  out_lt := next_lt h.out_lt
  size_le := by
    have hle := h.size_le
    simp only [RingQueue.pop]
    omega
  apart := by
    have hap := h.apart
    simp only [RingQueue.pop]
    rw [next_eq h.out_lt, Nat.mod_add_mod, hap]
    congr 1
    omega

/-- The first of the contents comes out. -/
theorem Ok.contents_pop (h : r.Ok) (hne : 0 < r.size) :
    r.contents = r.buf r.out :: r.pop.contents := by
  obtain ⟨n, hn⟩ := Nat.exists_eq_succ_of_ne_zero (Nat.pos_iff_ne_zero.mp hne)
  simp only [contents, RingQueue.pop, hn, Nat.succ_sub_one, List.range_succ_eq_map, List.map_cons,
    List.map_map, Nat.add_zero, Nat.mod_eq_of_lt h.out_lt]
  congr 1
  apply List.map_congr_left
  intro i _
  simp only [Function.comp_apply, next_eq h.out_lt, Nat.mod_add_mod]
  congr 2
  omega

/-! ## Many elements -/

/-- Put a list in, the first one first. -/
def pushAll (r : RingQueue α) (xs : List α) : RingQueue α := xs.foldl push r

/-- Take `n` elements out. -/
def popMany (r : RingQueue α) : ℕ → RingQueue α
  | 0 => r
  | n + 1 => r.pop.popMany n

@[simp] theorem pushAll_cons : r.pushAll (x :: xs) = (r.push x).pushAll xs := rfl

@[simp] theorem pushAll_cap : (r.pushAll xs).cap = r.cap := by
  induction xs generalizing r with
  | nil => rfl
  | cons x xs ih => rw [pushAll_cons, ih, push]

@[simp] theorem pushAll_out : (r.pushAll xs).out = r.out := by
  induction xs generalizing r with
  | nil => rfl
  | cons x xs ih => rw [pushAll_cons, ih, push]

@[simp] theorem pushAll_size : (r.pushAll xs).size = r.size + xs.length := by
  induction xs generalizing r with
  | nil => rfl
  | cons x xs ih =>
      rw [pushAll_cons, ih, push, List.length_cons]
      simp only
      omega

/-- The place for the next one stays inside the ring. -/
theorem pushAll_inp_lt (h : r.inp < r.cap) : (r.pushAll xs).inp < r.cap := by
  induction xs generalizing r with
  | nil => exact h
  | cons x xs ih => exact ih (r := r.push x) (next_lt h)

/-- Several are put in, as long as there is room for all. -/
theorem Ok.pushAll (h : r.Ok) (hroom : r.size + xs.length ≤ r.cap) :
    (r.pushAll xs).Ok ∧ (r.pushAll xs).contents = r.contents ++ xs := by
  induction xs generalizing r with
  | nil => exact ⟨h, (List.append_nil _).symm⟩
  | cons x xs ih =>
      rw [List.length_cons] at hroom
      have hlt : r.size < r.cap := by omega
      obtain ⟨hok, hcont⟩ := ih (h.push (x := x) hlt) (by simp only [RingQueue.push]; omega)
      refine ⟨hok, ?_⟩
      rw [pushAll_cons, hcont, h.contents_push hlt, List.append_assoc, List.singleton_append]

@[simp] theorem popMany_cap : (r.popMany n).cap = r.cap := by
  induction n generalizing r with
  | zero => rfl
  | succ n ih => rw [popMany, ih, pop]

@[simp] theorem popMany_size : (r.popMany n).size = r.size - n := by
  induction n generalizing r with
  | zero => rfl
  | succ n ih =>
      rw [popMany, ih, pop]
      simp only
      omega

/-- Several are taken out, -/
theorem Ok.popMany (h : r.Ok) (hn : n ≤ r.size) :
    (r.popMany n).Ok ∧ (r.popMany n).contents = r.contents.drop n := by
  induction n generalizing r with
  | zero => exact ⟨h, rfl⟩
  | succ n ih =>
      have hne : 0 < r.size := by omega
      obtain ⟨hok, hcont⟩ := ih (h.pop hne) (by simp only [RingQueue.pop]; omega)
      refine ⟨hok, ?_⟩
      rw [RingQueue.popMany, hcont, h.contents_pop hne, List.drop_succ_cons]

/-- The elements taken out are the first ones. -/
def taken (r : RingQueue α) : ℕ → List α
  | 0 => []
  | n + 1 => r.buf r.out :: r.pop.taken n

/-- and they are the first of the contents. -/
theorem Ok.taken (h : r.Ok) (hn : n ≤ r.size) : r.taken n = r.contents.take n := by
  induction n generalizing r with
  | zero => rfl
  | succ n ih =>
      have hne : 0 < r.size := by omega
      rw [RingQueue.taken, ih (h.pop hne) (by simp only [RingQueue.pop]; omega), h.contents_pop hne,
        List.take_succ_cons]

end RingQueue
