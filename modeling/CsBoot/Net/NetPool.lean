/-
The buffer pool of `src/src/net/net_buf.c` as it lies in memory.

`netbuf` is one array: the buffers lie back to back, each with its header in front,
and the queues are linked through words of these headers. A pointer is an address,
and what is stored through it goes where it points. `enet_input` copies a frame to
where `datap` points and asks only that the frame is no longer than the buffer and
its header together, so that a frame may reach into the header of the next buffer.

As long as no frame does, the headers are those of the queues of `NetBuf.lean`,
which know nothing of what is in a frame (`Stored`). Behind the array lies what the
linker puts there; the queues themselves are variables of their own.
-/
import CsBoot.Lib.Run
import CsBoot.Net.NetBuf

set_option autoImplicit false

namespace CsBoot.Net.Pool

open ByteMem

/-! ## The array -/

/-- Where the linker puts `netbuf`: not at the null pointer, nor at the very end of
the addresses. -/
structure Layout where
  netbuf : ℕ
  pos : 0 < netbuf
  fits : netbuf + NET_BUF_NUM * NETBUF_SIZE + NETBUF_HDR_SIZE ≤ W

/-- `&netbuf[i]` -/
def Layout.hdr (L : Layout) (i : ℕ) : ℕ := L.netbuf + i * NETBUF_SIZE

/-! The fields of `NETBUF_HDR_T` -/

def tag (m : ByteMem) (a : ℕ) : ℕ := load32 m a
def next_buf (m : ByteMem) (a : ℕ) : ℕ := load32 m (a + 4)
def datap (m : ByteMem) (a : ℕ) : ℕ := load32 m (a + 12)

def set_tag (m : ByteMem) (a v : ℕ) : ByteMem := store32 m a v
def set_next_buf (m : ByteMem) (a v : ℕ) : ByteMem := store32 m (a + 4) v
def set_len (m : ByteMem) (a v : ℕ) : ByteMem := store32 m (a + 8) v
def set_datap (m : ByteMem) (a v : ℕ) : ByteMem := store32 m (a + 12) v

/-- `memcpy` -/
def memcpy (m : ByteMem) (dest : ℕ) (src : ℕ → UInt8) (n : ℕ) : ByteMem := fun x =>
  if sub32 x dest < n then src (sub32 x dest) else m x

/-! ## The queues -/

structure NETBUF_QUEUE_T where
  first : ℕ
  tail : ℕ
  total : ℤ

structure NetPool where
  mem : ByteMem
  net_free_q : NETBUF_QUEUE_T
  net_rcv_q : NETBUF_QUEUE_T

/-- `net_insert_queue_tail` -/
def net_insert_queue_tail (m : ByteMem) (queue : NETBUF_QUEUE_T) (buf : ℕ) :
    ByteMem × NETBUF_QUEUE_T :=
  let r : ByteMem × ℕ :=
    if queue.tail ≠ 0 then (set_next_buf m queue.tail buf, queue.first) else (m, buf)
  (set_next_buf r.1 buf 0, ⟨r.2, buf, queue.total + 1⟩)

/-- `net_remove_queue_first` -/
def net_remove_queue_first (m : ByteMem) (queue : NETBUF_QUEUE_T) : ℕ × NETBUF_QUEUE_T :=
  if queue.first ≠ 0 then
    let first := next_buf m queue.first
    (queue.first, ⟨first, if first = 0 then 0 else queue.tail, queue.total - 1⟩)
  else (0, queue)

def net_insert_free (p : NetPool) (buf : ℕ) : NetPool :=
  let r := net_insert_queue_tail p.mem p.net_free_q buf
  { p with mem := r.1, net_free_q := r.2 }

def net_insert_rcv (p : NetPool) (buf : ℕ) : NetPool :=
  let r := net_insert_queue_tail p.mem p.net_rcv_q buf
  { p with mem := r.1, net_rcv_q := r.2 }

/-- One round of the loop of `net_init_buf`. -/
def net_init_one (L : Layout) (p : NetPool) (i : ℕ) : NetPool :=
  let hdr := L.hdr i
  net_insert_free
    { p with mem := set_datap (set_tag p.mem hdr NET_BUF_TAG) hdr (hdr + NETBUF_HDR_SIZE) } hdr

def net_init_buf (L : Layout) (m : ByteMem) : NetPool :=
  (List.range NET_BUF_NUM).foldl (net_init_one L) ⟨m, ⟨0, 0, 0⟩, ⟨0, 0, 0⟩⟩

def net_alloc_buf (p : NetPool) : ℕ × NetPool :=
  let r := net_remove_queue_first p.mem p.net_free_q
  (r.1, { p with net_free_q := r.2 })

def net_get_rcvq (p : NetPool) : ℕ × NetPool :=
  let r := net_remove_queue_first p.mem p.net_rcv_q
  (r.1, { p with net_rcv_q := r.2 })

def net_free_buf (hdr : ℕ) (p : NetPool) : NetPool :=
  if tag p.mem hdr ≠ NET_BUF_TAG then p else net_insert_free p hdr

def net_put_rcvq (hdr : ℕ) (p : NetPool) : NetPool :=
  if tag p.mem hdr ≠ NET_BUF_TAG then p else net_insert_rcv p hdr

/-! ## `enet_input` -/

/-- What `size` is next to a `sizeof`, which has no sign. -/
def unsigned (size : ℤ) : ℕ := (size % W).toNat

def enet_input_drops (size : ℤ) : Prop := NETBUF_SIZE < unsigned size ∨ unsigned size < ETH_HDR_SIZE

instance (size : ℤ) : Decidable (enet_input_drops size) := inferInstanceAs (Decidable (_ ∨ _))

/-- `memcpy(netbuf_p->datap, srcep, size)` -/
def enet_input_copy (srcep : ℕ → UInt8) (size : ℤ) (netbuf_p : ℕ) (p : NetPool) : NetPool :=
  { p with mem := memcpy p.mem (datap p.mem netbuf_p) srcep (unsigned size) }

/-- `netbuf_p->len = size` -/
def enet_input_len (size : ℤ) (netbuf_p : ℕ) (p : NetPool) : NetPool :=
  { p with mem := set_len p.mem netbuf_p (unsigned size) }

/-- `enet_input` -/
def enet_input (srcep : ℕ → UInt8) (size : ℤ) (p : NetPool) : NetPool :=
  if enet_input_drops size then p
  else
    let r := net_alloc_buf p
    if r.1 ≠ 0 then
      net_put_rcvq r.1 (enet_input_len size r.1 (enet_input_copy srcep size r.1 r.2))
    else r.2

/-! ## Runs -/

/-- What happens to the pool: frames come in, and buffers are taken and given back. -/
inductive PoolOp
  | enet_input (srcep : ℕ → UInt8) (size : ℤ)
  | net_alloc_buf
  | net_get_rcvq
  | net_free_buf (b : Fin NET_BUF_NUM)
  | net_put_rcvq (b : Fin NET_BUF_NUM)

def pool_step (L : Layout) (p : NetPool) : PoolOp → NetPool
  | .enet_input srcep size => enet_input srcep size p
  | .net_alloc_buf => (net_alloc_buf p).2
  | .net_get_rcvq => (net_get_rcvq p).2
  | .net_free_buf b => net_free_buf (L.hdr b) p
  | .net_put_rcvq b => net_put_rcvq (L.hdr b) p

/-- The same done by the queues alone: `enet_input` moves a buffer, and copies nothing. -/
def queue_step (s : NetBufs) : PoolOp → NetBufs
  | .enet_input _ size =>
      if enet_input_drops size then s
      else match Net.net_alloc_buf s with
        | (some b, s) => Net.net_put_rcvq b s
        | (none, s) => s
  | .net_alloc_buf => (Net.net_alloc_buf s).2
  | .net_get_rcvq => (Net.net_get_rcvq s).2
  | .net_free_buf b => Net.net_free_buf b s
  | .net_put_rcvq b => Net.net_put_rcvq b s

/-- The fields `tag`, `next_buf` and `datap` of every buffer are the same. -/
def HeadersKept (L : Layout) (m m' : ByteMem) : Prop :=
  ∀ b, b < NET_BUF_NUM → tag m' (L.hdr b) = tag m (L.hdr b) ∧
    next_buf m' (L.hdr b) = next_buf m (L.hdr b) ∧ datap m' (L.hdr b) = datap m (L.hdr b)

/-- What `enet_input` does to the memory between taking the buffer and queueing it
changes no header. -/
def Undamaged (L : Layout) (p : NetPool) : PoolOp → Prop
  | .enet_input srcep size =>
      ¬ enet_input_drops size → (net_alloc_buf p).1 ≠ 0 →
        HeadersKept L (net_alloc_buf p).2.mem (enet_input_len size (net_alloc_buf p).1
          (enet_input_copy srcep size (net_alloc_buf p).1 (net_alloc_buf p).2)).mem
  | _ => True

/-- The bytes of a header that are `tag`, `next_buf` and `datap`. -/
def InFields (j : ℕ) : Prop := j < 8 ∨ 12 ≤ j ∧ j < 16

/-- The frame has room behind the header of the buffer, or is dropped for its size; or
else the buffer is the last one of the array, or the bytes that come to lie on the next
header are those that it has. -/
def Fits (L : Layout) (p : NetPool) : PoolOp → Prop
  | .enet_input srcep size =>
      enet_input_drops size ∨ unsigned size ≤ NETBUF_SIZE - NETBUF_HDR_SIZE ∨
        ∀ b, b + 1 < NET_BUF_NUM → p.net_free_q.first = L.hdr b →
          ∀ j, InFields j → NETBUF_SIZE - NETBUF_HDR_SIZE + j < unsigned size →
            srcep (NETBUF_SIZE - NETBUF_HDR_SIZE + j) = p.mem (L.hdr (b + 1) + j)
  | _ => True

section Layout

variable {L : Layout} {m m' : ByteMem} {b c i j v : ℕ}

theorem Layout.hdr_le (L : Layout) (hb : b < NET_BUF_NUM) :
    L.hdr b + NETBUF_SIZE + NETBUF_HDR_SIZE ≤ W := by
  have hfits := L.fits
  unfold Layout.hdr NETBUF_SIZE NETBUF_HDR_SIZE W
  unfold NET_BUF_NUM NETBUF_SIZE NETBUF_HDR_SIZE W at hfits
  unfold NET_BUF_NUM at hb
  omega

theorem Layout.hdr_pos (L : Layout) (b : ℕ) : 0 < L.hdr b := Nat.add_pos_left L.pos _

theorem Layout.hdr_lt (L : Layout) (hb : b < NET_BUF_NUM) : L.hdr b < W := by
  have hle := L.hdr_le hb
  unfold NETBUF_SIZE NETBUF_HDR_SIZE W at *
  omega

theorem Layout.apart (L : Layout) (h : b ≠ c) :
    L.hdr b + NETBUF_SIZE ≤ L.hdr c ∨ L.hdr c + NETBUF_SIZE ≤ L.hdr b := by
  unfold Layout.hdr NETBUF_SIZE NETBUF_HDR_SIZE
  omega

theorem Layout.hdr_inj (L : Layout) (h : L.hdr b = L.hdr c) : b = c := by
  by_contra hne
  have hap := L.apart hne
  unfold NETBUF_SIZE NETBUF_HDR_SIZE at hap
  omega

/-! ## Words of the headers -/

/-- A store into one word of a header is invisible to the others, and to the other
headers. -/
theorem load_store (hb : b < NET_BUF_NUM) (hc : c < NET_BUF_NUM) (hi : i + 4 ≤ NETBUF_HDR_SIZE)
    (hj : j + 4 ≤ NETBUF_HDR_SIZE) (h : b ≠ c ∨ i + 4 ≤ j ∨ j + 4 ≤ i) :
    load32 (store32 m (L.hdr b + i) v) (L.hdr c + j) = load32 m (L.hdr c + j) := by
  have hb := L.hdr_le hb
  have hc := L.hdr_le hc
  by_cases hbc : b = c
  · subst hbc
    unfold NETBUF_SIZE NETBUF_HDR_SIZE at *
    exact load32_store32_of_disjoint (by omega) (by omega) (by omega)
  · have hap := L.apart hbc
    unfold NETBUF_SIZE NETBUF_HDR_SIZE at *
    exact load32_store32_of_disjoint (by omega) (by omega) (by omega)

theorem load_store_same (hb : b < NET_BUF_NUM) (hi : i + 4 ≤ NETBUF_HDR_SIZE) :
    load32 (store32 m (L.hdr b + i) v) (L.hdr b + i) = v % W := by
  have hb := L.hdr_le hb
  exact load32_store32_same (by omega)

/-- The bytes of the fields say what the fields are, -/
theorem fields_congr (hb : b < NET_BUF_NUM)
    (h : ∀ j, InFields j → m' (L.hdr b + j) = m (L.hdr b + j)) :
    tag m' (L.hdr b) = tag m (L.hdr b) ∧ next_buf m' (L.hdr b) = next_buf m (L.hdr b) ∧
      datap m' (L.hdr b) = datap m (L.hdr b) := by
  have hb := L.hdr_le hb
  unfold NETBUF_SIZE NETBUF_HDR_SIZE at hb
  refine ⟨load32_congr (by omega) fun i hi => h i (.inl (by omega)), ?_, ?_⟩
  · refine load32_congr (by omega) fun i hi => ?_
    rw [Nat.add_assoc]
    exact h (4 + i) (.inl (by omega))
  · refine load32_congr (by omega) fun i hi => ?_
    rw [Nat.add_assoc]
    exact h (12 + i) (.inr (by omega))

/-- and the fields what their bytes are. -/
theorem fields_inj (hb : b < NET_BUF_NUM) (h : HeadersKept L m m') (hj : InFields j) :
    m' (L.hdr b + j) = m (L.hdr b + j) := by
  obtain ⟨htag, hnext, hdatap⟩ := h b hb
  have hb := L.hdr_le hb
  unfold NETBUF_SIZE NETBUF_HDR_SIZE at hb
  unfold InFields at hj
  by_cases h4 : j < 4
  · exact load32_inj (by omega) htag h4
  · by_cases h8 : j < 8
    · have hbyte := load32_inj (by omega) hnext (show j - 4 < 4 by omega)
      rwa [Nat.add_assoc, show 4 + (j - 4) = j by omega] at hbyte
    · have hbyte := load32_inj (by omega) hdatap (show j - 12 < 4 by omega)
      rwa [Nat.add_assoc, show 12 + (j - 12) = j by omega] at hbyte

/-! ## The copy -/

theorem memcpy_inside {dest n : ℕ} {src : ℕ → UInt8} (hd : dest + n ≤ W) (hj : j < n) :
    memcpy m dest src n (dest + j) = src j := by
  have hsub : sub32 (dest + j) dest = j := by
    rw [sub32_of_le (by omega) (by omega), Nat.add_sub_cancel_left]
  rw [memcpy, hsub, if_pos hj]

theorem memcpy_outside {dest n x : ℕ} {src : ℕ → UInt8} (hd : dest + n ≤ W) (hx : x < W)
    (h : x < dest ∨ dest + n ≤ x) : memcpy m dest src n x = m x := by
  rw [memcpy, if_neg]
  unfold sub32 W at *
  omega

/-- Where a frame copied behind the header of `b` meets a header: only the next one,
and only what has no room in the buffer. -/
theorem copy_byte {srcep : ℕ → UInt8} {n : ℕ} (hb : b < NET_BUF_NUM) (hc : c < NET_BUF_NUM)
    (hn : n ≤ NETBUF_SIZE) (hj : j < NETBUF_HDR_SIZE) :
    memcpy m (L.hdr b + NETBUF_HDR_SIZE) srcep n (L.hdr c + j) =
      if c = b + 1 ∧ NETBUF_SIZE - NETBUF_HDR_SIZE + j < n then
        srcep (NETBUF_SIZE - NETBUF_HDR_SIZE + j)
      else m (L.hdr c + j) := by
  have hbW := L.hdr_le hb
  have hcW := L.hdr_le hc
  split_ifs with h
  · obtain ⟨rfl, hlt⟩ := h
    have hat : L.hdr (b + 1) + j =
        L.hdr b + NETBUF_HDR_SIZE + (NETBUF_SIZE - NETBUF_HDR_SIZE + j) := by
      unfold Layout.hdr NETBUF_SIZE NETBUF_HDR_SIZE
      omega
    rw [hat]
    exact memcpy_inside (by omega) hlt
  · apply memcpy_outside (by omega)
    · unfold NETBUF_SIZE at hcW
      omega
    · unfold Layout.hdr NETBUF_SIZE NETBUF_HDR_SIZE at *
      omega

end Layout

/-! ## The queues in memory -/

/-- A pointer to a buffer, or the null pointer. -/
def Layout.ptr (L : Layout) : Option ℕ → ℕ
  | none => 0
  | some b => L.hdr b

/-- The links of the buffers of `S`, which lead to buffers of `T`. -/
structure Links (L : Layout) (S T : Set ℕ) (m : ByteMem) (next : ℕ → Option ℕ) : Prop where
  next_eq : ∀ b ∈ S, next_buf m (L.hdr b) = L.ptr (next b)
  inside : ∀ b ∈ S, ∀ c ∈ next b, c ∈ T

/-- The ends of a queue. -/
structure Ends (L : Layout) (S : Set ℕ) (q : NETBUF_QUEUE_T) (q' : LinkedQueue ℕ) : Prop where
  first_eq : q.first = L.ptr q'.first
  tail_eq : q.tail = L.ptr q'.tail
  total_eq : q.total = q'.total
  first_mem : ∀ b ∈ q'.first, b ∈ S
  tail_mem : ∀ b ∈ q'.tail, b ∈ S

/-- The other fields of the headers of `S`. -/
def Marked (L : Layout) (S : Set ℕ) (m : ByteMem) (tags : ℕ → ℕ) : Prop :=
  ∀ b ∈ S, tag m (L.hdr b) = tags b ∧ datap m (L.hdr b) = L.hdr b + NETBUF_HDR_SIZE

/-- The memory and the queues of the pool are those of `s`, as far as the buffers of
`S` go. -/
structure Stored (L : Layout) (S : Set ℕ) (p : NetPool) (s : NetBufs) : Prop where
  lt : ∀ b ∈ S, b < NET_BUF_NUM
  marked : Marked L S p.mem s.tag
  links : Links L S S p.mem s.next_buf
  free_q : Ends L S p.net_free_q s.net_free_q
  rcv_q : Ends L S p.net_rcv_q s.net_rcv_q

section Queues

variable {L : Layout} {S T : Set ℕ} {m m' : ByteMem} {next : ℕ → Option ℕ} {tags : ℕ → ℕ}
  {q : NETBUF_QUEUE_T} {q' : LinkedQueue ℕ} {b : ℕ} {x : Option ℕ}

theorem Layout.ptr_lt (hx : ∀ b ∈ x, b < NET_BUF_NUM) : L.ptr x < W := by
  cases x with
  | none => exact (by decide : 0 < W)
  | some b => exact L.hdr_lt (hx b rfl)

theorem Links.mono (h : Links L S T m next) {T' : Set ℕ} (hT : T ⊆ T') : Links L S T' m next :=
  ⟨h.next_eq, fun b hb c hc => hT (h.inside b hb c hc)⟩

/-- A link is set. -/
theorem Links.set (h : Links L S T m next) (hS : ∀ b ∈ S, b < NET_BUF_NUM) (hb : b < NET_BUF_NUM)
    (hx : ∀ c ∈ x, c ∈ T ∧ c < NET_BUF_NUM) :
    Links L (insert b S) T (set_next_buf m (L.hdr b) (L.ptr x)) (Function.update next b x) := by
  constructor
  · intro c hc
    by_cases hcb : c = b
    · subst hcb
      rw [next_buf, set_next_buf, load_store_same hb (by decide), Function.update_self,
        Nat.mod_eq_of_lt (Layout.ptr_lt fun c hc => (hx c hc).2)]
    · have hmem := Set.mem_of_mem_insert_of_ne hc hcb
      rw [Function.update_of_ne hcb, ← h.next_eq c hmem]
      exact load_store hb (hS c hmem) (by decide) (by decide) (.inl (Ne.symm hcb))
  · intro c hc d hd
    by_cases hcb : c = b
    · subst hcb
      rw [Function.update_self] at hd
      exact (hx d hd).1
    · rw [Function.update_of_ne hcb] at hd
      exact h.inside c (Set.mem_of_mem_insert_of_ne hc hcb) d hd

theorem Marked.set_next_buf (h : Marked L S m tags) (hS : ∀ b ∈ S, b < NET_BUF_NUM)
    (hb : b < NET_BUF_NUM) (v : ℕ) : Marked L S (set_next_buf m (L.hdr b) v) tags := by
  intro c hc
  obtain ⟨htag, hdatap⟩ := h c hc
  refine ⟨Eq.trans ?_ htag, Eq.trans ?_ hdatap⟩
  · exact load_store (j := 0) hb (hS c hc) (by decide) (by decide) (.inr (by decide))
  · exact load_store (j := 12) hb (hS c hc) (by decide) (by decide) (.inr (by decide))

/-- **A buffer goes behind the others**, in memory as in the list of links. -/
theorem Ends.insertTail (hq : Ends L S q q') (h : Links L S S m next)
    (hS : ∀ b ∈ S, b < NET_BUF_NUM)
    (hm : Marked L T m tags) (hT : ∀ b ∈ T, b < NET_BUF_NUM) (hb : b < NET_BUF_NUM) :
    Links L (insert b S) (insert b S) (net_insert_queue_tail m q (L.hdr b)).1
        (q'.insertTail next b).1 ∧
      Ends L (insert b S) (net_insert_queue_tail m q (L.hdr b)).2 (q'.insertTail next b).2 ∧
      Marked L T (net_insert_queue_tail m q (L.hdr b)).1 tags := by
  have hmem : b ∈ insert b S := Set.mem_insert b S
  have hlinks := h.mono (Set.subset_insert b S)
  have hnone : ∀ c ∈ (none : Option ℕ), c ∈ insert b S ∧ c < NET_BUF_NUM :=
    fun c hc => absurd hc (Option.not_mem_none c)
  -- an empty queue gets its first buffer, another one a link from its last
  cases htail : q'.tail with
  | none =>
      have hzero : q.tail = 0 := by rw [hq.tail_eq, htail, Layout.ptr]
      simp only [net_insert_queue_tail, LinkedQueue.insertTail, hzero, htail, ne_eq,
        not_true_eq_false, if_false]
      refine ⟨hlinks.set (x := none) hS hb hnone, ⟨rfl, rfl, ?_, ?_, ?_⟩, hm.set_next_buf hT hb _⟩
      · rw [hq.total_eq]
      · rintro _ ⟨⟩
        exact hmem
      · rintro _ ⟨⟩
        exact hmem
  | some t =>
      have htS : t ∈ S := hq.tail_mem t htail
      have htb : q.tail = L.hdr t := by rw [hq.tail_eq, htail, Layout.ptr]
      have hpos : q.tail ≠ 0 := by
        rw [htb]
        exact (L.hdr_pos t).ne'
      simp only [net_insert_queue_tail, LinkedQueue.insertTail, if_pos hpos, htail]
      rw [htb]
      have hset := hlinks.set (x := some b) hS (hS t htS) (by
        rintro _ ⟨⟩
        exact ⟨hmem, hb⟩)
      rw [Set.insert_eq_of_mem htS] at hset
      refine ⟨hset.set (x := none) hS hb hnone, ⟨hq.first_eq, rfl, ?_, ?_, ?_⟩,
        (hm.set_next_buf hT (hS t htS) _).set_next_buf hT hb _⟩
      · rw [hq.total_eq]
      · exact fun c hc => Set.mem_insert_of_mem b (hq.first_mem c hc)
      · rintro _ ⟨⟩
        exact hmem

/-- **The first buffer is taken away**, if there is one. -/
theorem Ends.removeFirst (hq : Ends L S q q') (h : Links L S S m next) :
    q'.removeFirst next = none ∧ net_remove_queue_first m q = (0, q) ∨
      ∃ b r', b ∈ S ∧ q'.removeFirst next = some (b, r') ∧
        (net_remove_queue_first m q).1 = L.hdr b ∧ Ends L S (net_remove_queue_first m q).2 r' := by
  cases hfirst : q'.first with
  | none =>
      have hzero : q.first = 0 := by rw [hq.first_eq, hfirst, Layout.ptr]
      refine .inl ⟨?_, ?_⟩
      · rw [LinkedQueue.removeFirst, hfirst, Option.map_none]
      · rw [net_remove_queue_first, hzero, if_neg (not_not.mpr rfl)]
  | some b =>
      have hbS : b ∈ S := hq.first_mem b hfirst
      have hat : q.first = L.hdr b := by rw [hq.first_eq, hfirst, Layout.ptr]
      have hpos : q.first ≠ 0 := by
        rw [hat]
        exact (L.hdr_pos b).ne'
      refine .inr ⟨b, _, hbS, by rw [LinkedQueue.removeFirst, hfirst, Option.map_some], ?_, ?_⟩
      · rw [net_remove_queue_first, if_pos hpos, hat]
      · rw [net_remove_queue_first, if_pos hpos]
        have hnext : next_buf m q.first = L.ptr (next b) := by rw [hat, h.next_eq b hbS]
        refine ⟨hnext, ?_, ?_, h.inside b hbS, ?_⟩
        · -- with the last buffer gone, the tail is 0 too
          cases hn : next b with
          | none => simp only [hnext, hn, Layout.ptr, Option.isNone_none, if_true]
          | some c =>
              have hc : L.hdr c ≠ 0 := (L.hdr_pos c).ne'
              simp only [hnext, hn, Layout.ptr, hc, if_false, Option.isNone_some,
                Bool.false_eq_true, hq.tail_eq]
        · simp only [hq.total_eq]
        · intro c hc
          cases hn : next b with
          | none => simp [hn] at hc
          | some d =>
              simp only [hn, Option.isNone_some, Bool.false_eq_true, if_false] at hc
              exact hq.tail_mem c hc

end Queues

/-- The buffers of the array. -/
def buffers : Set ℕ := { b | b < NET_BUF_NUM }

section Ops

variable {L : Layout} {S : Set ℕ} {m : ByteMem} {p : NetPool} {s : NetBufs} {b : ℕ} {a : PoolOp}

/-- One more buffer in the array. -/
theorem Ends.mono {q : NETBUF_QUEUE_T} {q' : LinkedQueue ℕ} (h : Ends L S q q') {T : Set ℕ}
    (hT : S ⊆ T) : Ends L T q q' :=
  ⟨h.first_eq, h.tail_eq, h.total_eq, fun b hb => hT (h.first_mem b hb),
    fun b hb => hT (h.tail_mem b hb)⟩

theorem Stored.insert_free (h : Stored L S p s) (hb : b ∈ S) :
    Stored L S (net_insert_free p (L.hdr b)) (Net.net_insert_free s b) := by
  obtain ⟨hlinks, hends, hmarked⟩ := h.free_q.insertTail h.links h.lt h.marked h.lt (h.lt b hb)
  rw [Set.insert_eq_of_mem hb] at hlinks hends
  exact ⟨h.lt, hmarked, hlinks, hends, h.rcv_q⟩

theorem Stored.insert_rcv (h : Stored L S p s) (hb : b ∈ S) :
    Stored L S (net_insert_rcv p (L.hdr b)) (Net.net_insert_rcv s b) := by
  obtain ⟨hlinks, hends, hmarked⟩ := h.rcv_q.insertTail h.links h.lt h.marked h.lt (h.lt b hb)
  rw [Set.insert_eq_of_mem hb] at hlinks hends
  exact ⟨h.lt, hmarked, hlinks, h.free_q, hends⟩

/-- Which buffers are being processed is not in the memory. -/
theorem Stored.with_processing (h : Stored L S p s) (l : List ℕ) :
    Stored L S p { s with processing := l } :=
  ⟨h.lt, h.marked, h.links, h.free_q, h.rcv_q⟩

theorem Stored.free_buf (h : Stored L S p s) (hb : b ∈ S) :
    Stored L S (net_free_buf (L.hdr b) p) (Net.net_free_buf b s) := by
  unfold net_free_buf Net.net_free_buf
  rw [(h.marked b hb).1]
  split_ifs
  · exact h
  · exact (h.insert_free hb).with_processing _

theorem Stored.put_rcvq (h : Stored L S p s) (hb : b ∈ S) :
    Stored L S (net_put_rcvq (L.hdr b) p) (Net.net_put_rcvq b s) := by
  unfold net_put_rcvq Net.net_put_rcvq
  rw [(h.marked b hb).1]
  split_ifs
  · exact h
  · exact (h.insert_rcv hb).with_processing _

/-- A buffer is taken out of the free queue, or there is none. -/
theorem Stored.alloc (h : Stored L S p s) :
    (Net.net_alloc_buf s = (none, s) ∧ net_alloc_buf p = (0, p)) ∨
      ∃ b s', b ∈ S ∧ p.net_free_q.first = L.hdr b ∧ Net.net_alloc_buf s = (some b, s') ∧
        (net_alloc_buf p).1 = L.hdr b ∧ (net_alloc_buf p).2.mem = p.mem ∧
        Stored L S (net_alloc_buf p).2 s' := by
  rcases h.free_q.removeFirst h.links with ⟨hnone, hzero⟩ | ⟨b, r, hbS, hsome, hhdr, hends⟩
  · refine .inl ⟨?_, ?_⟩
    · rw [Net.net_alloc_buf, hnone]
    · rw [net_alloc_buf, hzero]
  · refine .inr ⟨b, { s with net_free_q := r, processing := b :: s.processing }, hbS, ?_, ?_, hhdr,
      rfl, ⟨h.lt, h.marked, h.links, hends, h.rcv_q⟩⟩
    swap
    · rw [Net.net_alloc_buf, hsome]
    rw [net_remove_queue_first] at hhdr
    split_ifs at hhdr
    · exact hhdr
    · exact absurd hhdr.symm (L.hdr_pos b).ne'

theorem Stored.get_rcvq (h : Stored L S p s) :
    Stored L S (net_get_rcvq p).2 (Net.net_get_rcvq s).2 := by
  rcases h.rcv_q.removeFirst h.links with ⟨hnone, hzero⟩ | ⟨b, r, hbS, hsome, -, hends⟩
  · rw [net_get_rcvq, hzero, Net.net_get_rcvq, hnone]
    exact h
  · rw [net_get_rcvq, Net.net_get_rcvq, hsome]
    exact ⟨h.lt, h.marked, h.links, h.free_q, hends⟩

/-- What leaves the headers alone leaves the pool alone. -/
theorem Stored.headers_kept (h : Stored L buffers p s) {m : ByteMem} (hm : HeadersKept L p.mem m) :
    Stored L buffers { p with mem := m } s where
  lt := h.lt
  marked b hb := by
    obtain ⟨htag, -, hdatap⟩ := hm b hb
    exact ⟨htag.trans (h.marked b hb).1, hdatap.trans (h.marked b hb).2⟩
  links := ⟨fun b hb => (hm b hb).2.1.trans (h.links.next_eq b hb), h.links.inside⟩
  free_q := h.free_q
  rcv_q := h.rcv_q

/-! ## What a frame does to the headers -/

/-- The length is none of the three fields. -/
theorem len_kept (hb : b < NET_BUF_NUM) (m : ByteMem) (v : ℕ) :
    HeadersKept L m (set_len m (L.hdr b) v) := by
  intro c hc
  refine ⟨?_, ?_, ?_⟩
  · exact load_store (j := 0) hb hc (by decide) (by decide) (.inr (by decide))
  · exact load_store (j := 4) hb hc (by decide) (by decide) (.inr (by decide))
  · exact load_store (j := 12) hb hc (by decide) (by decide) (.inr (by decide))

theorem HeadersKept.congr {m m₁ m₂ : ByteMem} (h : HeadersKept L m₁ m₂) :
    HeadersKept L m m₂ ↔ HeadersKept L m m₁ := by
  refine ⟨fun hm b hb => ?_, fun hm b hb => ?_⟩
  · obtain ⟨h₁, h₂, h₃⟩ := h b hb
    rw [← h₁, ← h₂, ← h₃]
    exact hm b hb
  · obtain ⟨h₁, h₂, h₃⟩ := h b hb
    rw [h₁, h₂, h₃]
    exact hm b hb

/-- A frame that is copied behind a header keeps the headers if and only if what has
no room agrees with the next header. -/
theorem copy_kept_iff {srcep : ℕ → UInt8} {n : ℕ} (hb : b < NET_BUF_NUM) (hn : n ≤ NETBUF_SIZE) :
    HeadersKept L m (memcpy m (L.hdr b + NETBUF_HDR_SIZE) srcep n) ↔
      (b + 1 < NET_BUF_NUM → ∀ j, InFields j → NETBUF_SIZE - NETBUF_HDR_SIZE + j < n →
        srcep (NETBUF_SIZE - NETBUF_HDR_SIZE + j) = m (L.hdr (b + 1) + j)) := by
  have hlt : ∀ j, InFields j → j < NETBUF_HDR_SIZE := fun j hj => by
    unfold InFields at hj
    unfold NETBUF_HDR_SIZE
    omega
  constructor
  · intro h hb₁ j hj hjn
    have hbyte := fields_inj hb₁ h hj
    rwa [copy_byte hb hb₁ hn (hlt j hj), if_pos ⟨rfl, hjn⟩] at hbyte
  · intro h c hc
    refine fields_congr hc fun j hj => ?_
    rw [copy_byte hb hc hn (hlt j hj)]
    split_ifs with hover
    · obtain ⟨rfl, hjn⟩ := hover
      exact h hc j hj hjn
    · rfl

/-- **What a step does to the headers**, from a pool that is as it should be. -/
theorem Stored.undamaged_iff (h : Stored L buffers p s) (a : PoolOp) :
    Undamaged L p a ↔ Fits L p a := by
  cases a with
  | enet_input srcep size =>
      simp only [Undamaged, Fits]
      by_cases hdrop : enet_input_drops size
      · exact iff_of_true (fun hn => absurd hdrop hn) (.inl hdrop)
      have hsize : unsigned size ≤ NETBUF_SIZE := not_lt.mp fun hlt => hdrop (.inl hlt)
      rcases h.alloc with ⟨-, hnone⟩ | ⟨b, s', hb, hfirst, -, hat, hmem, hs'⟩
      · -- no buffer is free, and nothing is copied
        refine iff_of_true (fun _ hne => absurd (by rw [hnone]) hne) (.inr (.inr fun b _ hb => ?_))
        have hzero : p.net_free_q.first = 0 := by
          by_contra hne
          rw [net_alloc_buf, net_remove_queue_first, if_pos hne] at hnone
          exact hne (congrArg Prod.fst hnone)
        exact absurd (hb.symm.trans hzero) (L.hdr_pos b).ne'
      · have hdatap : datap p.mem (L.hdr b) = L.hdr b + NETBUF_HDR_SIZE := by
          rw [← hmem]
          exact (hs'.marked b hb).2
        have hpos : (net_alloc_buf p).1 ≠ 0 := by
          rw [hat]
          exact (L.hdr_pos b).ne'
        simp only [enet_input_len, enet_input_copy, hat, hmem, hdatap]
        rw [(len_kept hb _ _).congr, copy_kept_iff hb hsize]
        constructor
        · intro hkept
          refine .inr (.inr fun c hc hfc j hj hjn => ?_)
          have hbc : b = c := L.hdr_inj (hfirst.symm.trans hfc)
          subst hbc
          exact hkept hdrop (L.hdr_pos b).ne' hc j hj hjn
        · rintro (hd | hle | hfits) - - hb₁ j hj hjn
          · exact absurd hd hdrop
          · omega
          · exact hfits b hb₁ hfirst j hj hjn
  | net_alloc_buf => exact Iff.rfl
  | net_get_rcvq => exact Iff.rfl
  | net_free_buf b => exact Iff.rfl
  | net_put_rcvq b => exact Iff.rfl

/-- **A step that damages nothing is a step of the queues.** -/
theorem Stored.step (h : Stored L buffers p s) (ha : Undamaged L p a) :
    Stored L buffers (pool_step L p a) (queue_step s a) := by
  cases a with
  | enet_input srcep size =>
      simp only [pool_step, enet_input, queue_step]
      by_cases hdrop : enet_input_drops size
      · rwa [if_pos hdrop, if_pos hdrop]
      rw [if_neg hdrop, if_neg hdrop]
      rcases h.alloc with ⟨hn, hnone⟩ | ⟨b, s', hb, -, hsome, hat, -, hs'⟩
      · rw [hn, hnone]
        exact h
      · have hpos : (net_alloc_buf p).1 ≠ 0 := by
          rw [hat]
          exact (L.hdr_pos b).ne'
        have hkept := hs'.headers_kept (ha hdrop hpos)
        rw [if_pos hpos, hsome, hat]
        rw [hat] at hkept
        exact hkept.put_rcvq hb
  | net_alloc_buf =>
      rcases h.alloc with ⟨hn, hnone⟩ | ⟨b, s', -, -, hsome, -, -, hs'⟩
      · rw [pool_step, queue_step, hn, hnone]
        exact h
      · rw [pool_step, queue_step, hsome]
        exact hs'
  | net_get_rcvq => exact h.get_rcvq
  | net_free_buf b => exact h.free_buf b.isLt
  | net_put_rcvq b => exact h.put_rcvq b.isLt

end Ops

/-! ## All runs -/

section Runs

variable (L : Layout) (m : ByteMem)

/-- The `tag` and `datap` of one header are set. -/
def init_header (m : ByteMem) (a : ℕ) : ByteMem :=
  set_datap (set_tag m a NET_BUF_TAG) a (a + NETBUF_HDR_SIZE)

theorem init_header_other {b n j : ℕ} (hb : b < NET_BUF_NUM) (hn : n < NET_BUF_NUM) (hne : n ≠ b)
    (hj : j + 4 ≤ NETBUF_HDR_SIZE) :
    load32 (init_header m (L.hdr n)) (L.hdr b + j) = load32 m (L.hdr b + j) :=
  (load_store (i := 12) hn hb (by decide) hj (.inl hne)).trans
    (load_store (i := 0) hn hb (by decide) hj (.inl hne))

theorem init_header_same {n : ℕ} (hn : n < NET_BUF_NUM) :
    tag (init_header m (L.hdr n)) (L.hdr n) = NET_BUF_TAG ∧
      datap (init_header m (L.hdr n)) (L.hdr n) = L.hdr n + NETBUF_HDR_SIZE := by
  have hle := L.hdr_le hn
  constructor
  · refine (load_store (i := 12) (j := 0) hn hn (by decide) (by decide) (.inr (by decide))).trans ?_
    exact load_store_same (i := 0) hn (by decide)
  · refine (load_store_same (i := 12) hn (by decide)).trans (Nat.mod_eq_of_lt ?_)
    unfold NETBUF_SIZE NETBUF_HDR_SIZE at *
    omega

variable {L}

/-- One round of `net_init_buf`. -/
theorem Stored.init_one {n : ℕ} {p : NetPool} {s : NetBufs} (h : Stored L (Set.Iio n) p s)
    (hn : n < NET_BUF_NUM) :
    Stored L (Set.Iio (n + 1)) (net_init_one L p n) (Net.net_init_one s n) := by
  have hset : insert n (Set.Iio n) = Set.Iio (n + 1) := by
    ext b
    simp only [Set.mem_Iio, Set.mem_insert_iff]
    omega
  have hS : ∀ b ∈ Set.Iio (n + 1), b < NET_BUF_NUM := fun b hb =>
    Nat.lt_of_le_of_lt (Nat.le_of_lt_succ hb) hn
  have hother : ∀ b ∈ Set.Iio n, n ≠ b := fun b hb heq => absurd (Set.mem_Iio.mp hb) (by omega)
  have hlinks : Links L (Set.Iio n) (Set.Iio n) (init_header p.mem (L.hdr n)) s.next_buf :=
    ⟨fun b hb => (init_header_other L p.mem (j := 4) (h.lt b hb) hn (hother b hb)
      (by decide)).trans (h.links.next_eq b hb), h.links.inside⟩
  have hmarked : Marked L (Set.Iio (n + 1)) (init_header p.mem (L.hdr n))
      (Function.update s.tag n NET_BUF_TAG) := by
    intro b hb
    by_cases hbn : b = n
    · subst hbn
      rw [Function.update_self]
      exact init_header_same L p.mem hn
    · have hbS : b ∈ Set.Iio n := by
        simp only [Set.mem_Iio] at *
        omega
      obtain ⟨htag, hdatap⟩ := h.marked b hbS
      rw [Function.update_of_ne hbn]
      exact ⟨(init_header_other L p.mem (j := 0) (hS b hb) hn (hother b hbS)
          (by decide)).trans htag,
        (init_header_other L p.mem (j := 12) (hS b hb) hn (hother b hbS) (by decide)).trans hdatap⟩
  obtain ⟨hlinks', hends', hmarked'⟩ := h.free_q.insertTail hlinks h.lt hmarked hS hn
  rw [hset] at hlinks' hends'
  exact ⟨hS, hmarked', hlinks', hends', h.rcv_q.mono (Set.Iio_subset_Iio n.le_succ)⟩

variable (L)

/-- `net_init_buf` sets up the pool. -/
theorem stored_init (frame : ℕ → Frame) :
    Stored L buffers (net_init_buf L m) (Net.net_init_buf frame) := by
  suffices h : ∀ n, n ≤ NET_BUF_NUM →
      Stored L (Set.Iio n) ((List.range n).foldl (net_init_one L) ⟨m, ⟨0, 0, 0⟩, ⟨0, 0, 0⟩⟩)
        ((List.range n).foldl Net.net_init_one (net_empty frame)) from h _ le_rfl
  intro n hn
  induction n with
  | zero =>
      have hends : Ends L (Set.Iio 0) ⟨0, 0, 0⟩ LinkedQueue.empty :=
        ⟨rfl, rfl, rfl, nofun, nofun⟩
      exact ⟨nofun, nofun, ⟨nofun, nofun⟩, hends, hends⟩
  | succ n ih =>
      simp only [List.range_succ, List.foldl_append, List.foldl_cons, List.foldl_nil]
      exact (ih (Nat.le_of_succ_le hn)).init_one hn

/-- **Frames and headers**: in a run no header is changed by a frame if and only if
every frame that is queued fits, or what does not fit lies behind the last buffer, or
repeats the header it comes to lie on. -/
theorem frames_spare_headers_iff (ops : List PoolOp) :
    EveryStep (pool_step L) (Undamaged L) (net_init_buf L m) ops ↔
      EveryStep (pool_step L) (Fits L) (net_init_buf L m) ops := by
  have hinit : ∃ s, Stored L buffers (net_init_buf L m) s :=
    ⟨_, stored_init L m fun _ => ⟨fun _ => 0, 0⟩⟩
  refine EveryStep.iff_of_invariant (I := fun p => ∃ s, Stored L buffers p s) hinit ?_ ?_ ops
  · rintro p a ⟨s, hs⟩
    exact hs.undamaged_iff a
  · rintro p a ⟨s, hs⟩ ha
    exact ⟨_, hs.step ((hs.undamaged_iff a).mpr ha)⟩

end Runs

/-- The array at the address 4096. -/
def low_pool : Layout where
  netbuf := 4096
  pos := by norm_num
  fits := by
    unfold NET_BUF_NUM NETBUF_SIZE NETBUF_HDR_SIZE W
    omega

/-- **A frame that changes a header**: the last byte of a frame of 2049 bytes, which is
not too long for `enet_input`, is the first byte of the tag of the next buffer. -/
theorem long_frame_changes_tag :
    ¬ EveryStep (pool_step low_pool) (Undamaged low_pool) (net_init_buf low_pool fun _ => 0)
      [.enet_input (fun _ => 0) 2049] := by
  rintro ⟨h, -⟩
  have hs := stored_init low_pool (fun _ => 0) fun _ => ⟨fun _ => 0, 0⟩
  obtain ⟨hholds, -, -, htags⟩ := net_init_rounds (fun _ => ⟨fun _ => 0, 0⟩) NET_BUF_NUM
  have hsize : unsigned 2049 = 2049 := by
    unfold unsigned W
    omega
  have hfirst : (net_init_buf low_pool fun _ => 0).net_free_q.first = low_pool.hdr 0 := by
    rw [hs.free_q.first_eq, show (Net.net_init_buf _).net_free_q.first = some 0 from hholds.first,
      Layout.ptr]
  have htag : tag (net_init_buf low_pool fun _ => 0).mem (low_pool.hdr 1) = NET_BUF_TAG :=
    (hs.marked 1 (by decide : 1 < NET_BUF_NUM)).1.trans (htags 1 (by decide))
  rcases (hs.undamaged_iff _).mp h with hdrop | hle | hfits
  · rw [enet_input_drops, hsize] at hdrop
    unfold NETBUF_SIZE NETBUF_HDR_SIZE ETH_HDR_SIZE at hdrop
    omega
  · rw [hsize] at hle
    unfold NETBUF_SIZE NETBUF_HDR_SIZE at hle
    omega
  · have hbyte := hfits 0 (by decide) hfirst 0 (.inl (by decide)) (by
      rw [hsize]
      unfold NETBUF_SIZE NETBUF_HDR_SIZE
      omega)
    -- the first byte of a tag is the letter f
    have hmod : NET_BUF_TAG % 256 = 0 := by
      rw [← htag, tag, load32_mod, Nat.mod_eq_of_lt (low_pool.hdr_lt (by decide)),
        ← Nat.add_zero (low_pool.hdr 1), ← hbyte, UInt8.toNat_zero]
    exact absurd hmod (by decide)

end CsBoot.Net.Pool
