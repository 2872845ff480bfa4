/-
The network buffers of `src/src/net/net_buf.c`.

A buffer is its index in `netbuf`. The queues are linked through `next_buf`, as
in the source, and each operation is related to what it does to the buffers of
the queues in order. Where a buffer is that is in neither queue is not written
down anywhere in the program; `processing` keeps a record of it, for the sake of
what is proved: a buffer goes there when it is taken out of a queue, and leaves
when it is put into one, or when the function that had it is done with it
(`net_done_buf`).

`NET_BUF_TAG` is written by `net_init_buf` only. `net_insert_queue_first`, which
nothing calls, and the printing are left out.
-/
import CsBoot.Lib.LinkedQueue
import CsBoot.Net.Ip

set_option autoImplicit false

namespace CsBoot.Net

open LinkedQueue

def NET_BUF_NUM : ℕ := 100
/-- `(('n' << 24) | ('b' << 16) | ('u' << 8) | ('f'))` -/
def NET_BUF_TAG : ℕ := 0x6e627566

/-- The headers and the data of the buffers, and the queues. -/
structure NetBufs where
  tag : ℕ → ℕ
  next_buf : ℕ → Option ℕ
  frame : ℕ → Frame
  net_free_q : LinkedQueue ℕ
  net_rcv_q : LinkedQueue ℕ
  processing : List ℕ

/-! ## The operations -/

/-- `net_insert_queue_tail` on the free queue. -/
def net_insert_free (s : NetBufs) (b : ℕ) : NetBufs :=
  { s with
    next_buf := (s.net_free_q.insertTail s.next_buf b).1
    net_free_q := (s.net_free_q.insertTail s.next_buf b).2 }

/-- `net_insert_queue_tail` on the receive queue. -/
def net_insert_rcv (s : NetBufs) (b : ℕ) : NetBufs :=
  { s with
    next_buf := (s.net_rcv_q.insertTail s.next_buf b).1
    net_rcv_q := (s.net_rcv_q.insertTail s.next_buf b).2 }

/-- The queues emptied, with what the data of the buffers is. -/
def net_empty (frame : ℕ → Frame) : NetBufs where
  tag := fun _ => 0
  next_buf := fun _ => none
  frame := frame
  net_free_q := empty
  net_rcv_q := empty
  processing := []

/-- One round of the loop of `net_init_buf`. -/
def net_init_one (s : NetBufs) (i : ℕ) : NetBufs :=
  net_insert_free { s with tag := Function.update s.tag i NET_BUF_TAG } i

def net_init_buf (frame : ℕ → Frame) : NetBufs :=
  (List.range NET_BUF_NUM).foldl net_init_one (net_empty frame)

def net_alloc_buf (s : NetBufs) : Option ℕ × NetBufs :=
  match s.net_free_q.removeFirst s.next_buf with
  | some (b, q) => (some b, { s with net_free_q := q, processing := b :: s.processing })
  | none => (none, s)

def net_free_buf (b : ℕ) (s : NetBufs) : NetBufs :=
  if s.tag b ≠ NET_BUF_TAG then s
  else { net_insert_free s b with processing := s.processing.erase b }

def net_put_rcvq (b : ℕ) (s : NetBufs) : NetBufs :=
  if s.tag b ≠ NET_BUF_TAG then s
  else { net_insert_rcv s b with processing := s.processing.erase b }

def net_get_rcvq (s : NetBufs) : Option ℕ × NetBufs :=
  match s.net_rcv_q.removeFirst s.next_buf with
  | some (b, q) => (some b, { s with net_rcv_q := q, processing := b :: s.processing })
  | none => (none, s)

def net_peek_rcvq (s : NetBufs) : ℤ := s.net_rcv_q.total

/-- The function that had the buffer returns. -/
def net_done_buf (b : ℕ) (s : NetBufs) : NetBufs := { s with processing := s.processing.erase b }

/-- What is received goes into the buffer. -/
def net_fill_buf (b : ℕ) (f : Frame) (s : NetBufs) : NetBufs :=
  { s with frame := Function.update s.frame b f }

/-! ## Each buffer in one place -/

/-- The buffers in the queues and those being processed are all of them, each
in one place, and the counts are right. -/
structure Placed (s : NetBufs) (free rcv : List ℕ) : Prop where
  free_q : Holds s.next_buf s.net_free_q free
  rcv_q : Holds s.next_buf s.net_rcv_q rcv
  all : (free ++ rcv ++ s.processing).Perm (List.range NET_BUF_NUM)
  tags : ∀ b, b < NET_BUF_NUM → s.tag b = NET_BUF_TAG

/-- Every buffer is in the free queue, in the receive queue, or being processed
or transmitted. -/
def InPlace (s : NetBufs) : Prop := ∃ free rcv, Placed s free rcv

/-- The buffer is in the free queue. -/
def IsFree (s : NetBufs) (b : ℕ) : Prop := ∃ free rcv, Placed s free rcv ∧ b ∈ free

section Ops

variable {s : NetBufs} {free rcv : List ℕ} {b : ℕ}

theorem Placed.nodup (h : Placed s free rcv) : (free ++ rcv ++ s.processing).Nodup :=
  h.all.nodup_iff.mpr List.nodup_range

theorem Placed.lt (h : Placed s free rcv) (hb : b ∈ s.processing) : b < NET_BUF_NUM :=
  List.mem_range.mp (h.all.mem_iff.mp (List.mem_append_right _ hb))

/-- The counts add up. -/
theorem InPlace.count (h : InPlace s) :
    s.net_free_q.total + s.net_rcv_q.total + s.processing.length = NET_BUF_NUM := by
  obtain ⟨free, rcv, h⟩ := h
  have hlen := h.all.length_eq
  simp only [List.length_append, List.length_range] at hlen
  rw [h.free_q.total, h.rcv_q.total]
  exact_mod_cast hlen

/-- A buffer is taken out of the free queue, if there is one. -/
theorem InPlace.alloc (h : InPlace s) :
    (∃ b, (net_alloc_buf s).1 = some b ∧ (net_alloc_buf s).2.processing = b :: s.processing ∧
        InPlace (net_alloc_buf s).2) ∨
      net_alloc_buf s = (none, s) := by
  obtain ⟨free, rcv, h⟩ := h
  cases free with
  | nil =>
      refine .inr ?_
      rw [net_alloc_buf, h.free_q.removeFirst_nil]
  | cons b free =>
      obtain ⟨q, hq, hholds⟩ := h.free_q.removeFirst
      refine .inl ⟨b, ?_⟩
      simp only [net_alloc_buf, hq]
      refine ⟨trivial, trivial, free, rcv, hholds, h.rcv_q, ?_, h.tags⟩
      refine List.Perm.trans ?_ h.all
      simp only [List.cons_append]
      exact List.perm_middle

theorem InPlace.get_rcvq (h : InPlace s) :
    (∃ b, (net_get_rcvq s).1 = some b ∧ (net_get_rcvq s).2.processing = b :: s.processing ∧
        InPlace (net_get_rcvq s).2) ∨
      net_get_rcvq s = (none, s) := by
  obtain ⟨free, rcv, h⟩ := h
  cases rcv with
  | nil =>
      refine .inr ?_
      rw [net_get_rcvq, h.rcv_q.removeFirst_nil]
  | cons b rcv =>
      obtain ⟨q, hq, hholds⟩ := h.rcv_q.removeFirst
      refine .inl ⟨b, ?_⟩
      simp only [net_get_rcvq, hq]
      refine ⟨trivial, trivial, free, rcv, h.free_q, hholds, ?_, h.tags⟩
      refine List.Perm.trans ?_ h.all
      simp only [List.append_assoc, List.cons_append]
      refine List.Perm.append_left free ?_
      exact List.perm_middle

/-- What is being processed is in no queue. -/
theorem Placed.not_mem (h : Placed s free rcv) (hb : b ∈ s.processing) : b ∉ free ∧ b ∉ rcv := by
  have hdisj := (List.nodup_append.mp h.nodup).2.2
  refine ⟨fun hf => ?_, fun hr => ?_⟩
  · exact hdisj b (List.mem_append_left _ hf) b hb rfl
  · exact hdisj b (List.mem_append_right _ hr) b hb rfl

theorem Placed.disjoint (h : Placed s free rcv) : free.Nodup ∧ rcv.Nodup ∧ ∀ b ∈ free, b ∉ rcv := by
  have hboth := List.nodup_append.mp h.nodup.of_append_left
  exact ⟨hboth.1, hboth.2.1, fun b hf hr => hboth.2.2 b hf b hr rfl⟩

theorem InPlace.free_buf_processing (h : InPlace s) (hb : b ∈ s.processing) :
    (net_free_buf b s).processing = s.processing.erase b := by
  obtain ⟨free, rcv, h⟩ := h
  rw [net_free_buf, if_neg (not_not.mpr (h.tags b (h.lt hb)))]

/-- A buffer that is being processed goes behind the free ones. -/
theorem InPlace.free_buf (h : InPlace s) (hb : b ∈ s.processing) :
    ∃ free rcv, Placed (net_free_buf b s) (free ++ [b]) rcv := by
  obtain ⟨free, rcv, h⟩ := h
  obtain ⟨hf, hr⟩ := h.not_mem hb
  obtain ⟨hnf, hnr, hfr⟩ := h.disjoint
  rw [net_free_buf, if_neg (not_not.mpr (h.tags b (h.lt hb)))]
  refine ⟨free, rcv, ?_, ?_, ?_, h.tags⟩
  · exact h.free_q.insertTail hnf hf
  · exact h.rcv_q.insertTail_other h.free_q hr hfr
  · refine List.Perm.trans ?_ h.all
    simp only [List.append_assoc, List.singleton_append]
    refine List.Perm.append_left free (List.perm_middle.symm.trans ?_)
    exact List.Perm.append_left rcv (List.perm_cons_erase hb).symm

theorem InPlace.put_rcvq (h : InPlace s) (hb : b ∈ s.processing) :
    InPlace (net_put_rcvq b s) ∧ (net_put_rcvq b s).processing = s.processing.erase b := by
  obtain ⟨free, rcv, h⟩ := h
  obtain ⟨hf, hr⟩ := h.not_mem hb
  obtain ⟨hnf, hnr, hfr⟩ := h.disjoint
  rw [net_put_rcvq, if_neg (not_not.mpr (h.tags b (h.lt hb)))]
  refine ⟨⟨free, rcv ++ [b], ?_, ?_, ?_, h.tags⟩, rfl⟩
  · exact h.free_q.insertTail_other h.rcv_q hf fun t ht hft => hfr t hft ht
  · exact h.rcv_q.insertTail hnr hr
  · refine List.Perm.trans ?_ h.all
    simp only [List.append_assoc, List.singleton_append]
    exact List.Perm.append_left free (List.Perm.append_left rcv (List.perm_cons_erase hb).symm)

theorem IsFree.not_processing (h : IsFree s b) : b ∉ s.processing := by
  obtain ⟨free, rcv, h, hf⟩ := h
  exact fun hb => (h.not_mem hb).1 hf

/-- The buffer that is freed is in the free queue then. -/
theorem InPlace.is_free (h : InPlace s) (hb : b ∈ s.processing) : IsFree (net_free_buf b s) b := by
  obtain ⟨free, rcv, hplaced⟩ := h.free_buf hb
  exact ⟨_, rcv, hplaced, List.mem_append_right _ (List.mem_singleton_self b)⟩

/-- A buffer that has been given back is nothing to be done with. -/
theorem net_done_buf_free (h : IsFree s b) : net_done_buf b s = s := by
  rw [net_done_buf, List.erase_of_not_mem h.not_processing]

theorem InPlace.fill_buf (h : InPlace s) (b : ℕ) (f : Frame) : InPlace (net_fill_buf b f s) := by
  obtain ⟨free, rcv, h₁, h₂, h₃, h₄⟩ := h
  exact ⟨free, rcv, h₁, h₂, h₃, h₄⟩

/-- After some rounds the first buffers are in the free queue. -/
theorem net_init_rounds (frame : ℕ → Frame) (n : ℕ) :
    let s := (List.range n).foldl net_init_one (net_empty frame)
    Holds s.next_buf s.net_free_q (List.range n) ∧ Holds s.next_buf s.net_rcv_q [] ∧
      s.processing = [] ∧ ∀ b, b < n → s.tag b = NET_BUF_TAG := by
  induction n with
  | zero => exact ⟨holds_empty _, holds_empty _, rfl, fun _ h => absurd h (Nat.not_lt_zero _)⟩
  | succ n ih =>
      obtain ⟨hfree, hrcv, hproc, htag⟩ := ih
      rw [List.range_succ, List.foldl_append]
      refine ⟨?_, ?_, hproc, fun b hb => ?_⟩
      · exact hfree.insertTail List.nodup_range List.not_mem_range_self
      · exact hrcv.insertTail_other hfree List.not_mem_nil fun _ _ => List.not_mem_nil
      · simp only [List.foldl_cons, List.foldl_nil, net_init_one, net_insert_free]
        by_cases hbn : b = n
        · rw [hbn, Function.update_self]
        · rw [Function.update_of_ne hbn]
          exact htag b (by omega)

theorem net_init_buf_in_place (frame : ℕ → Frame) :
    InPlace (net_init_buf frame) ∧ (net_init_buf frame).processing = [] := by
  obtain ⟨hfree, hrcv, hproc, htag⟩ := net_init_rounds frame NET_BUF_NUM
  refine ⟨⟨List.range NET_BUF_NUM, [], hfree, hrcv, ?_, htag⟩, hproc⟩
  rw [List.append_nil, show (net_init_buf frame).processing = [] from hproc, List.append_nil]

end Ops

end CsBoot.Net
