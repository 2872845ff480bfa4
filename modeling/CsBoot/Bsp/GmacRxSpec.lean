/-
No received frame is lost, given twice, torn or out of turn, whatever the device does between
two steps of `toe_gmac_handle_default_rxq`.

The invariant counts the uses of the queues: `released` buffers have been put back, the frames
before `processed` are out of the default queue, and `posted.length` are in it or were. The
function never writes the descriptor that it releases. The buffer of the frame with the number
`k` is the one in the place `k` of the free queue all the same, since both queues go round in
step, and the place that is released is the one before it.
-/
import CsBoot.Bsp.GmacRx

set_option autoImplicit false

namespace CsBoot.Gmac

open RingWindow

/-! ## The buffers -/

/-- The buffer in a place of the free queue. -/
def buffer (skb_ptr k : ℕ) : ℕ := skb_ptr + k % TOE_SW_FREEQ_DESC_NUM * RX_BUF_SIZE

section Buffers

variable {skb_ptr i j k l : ℕ}

theorem init_free_descs (skb_ptr n i : ℕ) :
    (List.range n).foldl (init_free_desc skb_ptr) (fun _ => desc_cleared) i =
      if i < n then
        { desc_cleared with
          buffer_size := RX_BUF_SIZE
          sw_id := i
          buf_adr := (skb_ptr + i * RX_BUF_SIZE) % 2 ^ 32 }
      else desc_cleared := by
  induction n with
  | zero => rfl
  | succ n ih =>
    rw [List.range_succ, List.foldl_append, List.foldl_cons, List.foldl_nil, init_free_desc]
    obtain rfl | hne := eq_or_ne i n
    · rw [Function.update_self, if_pos (Nat.lt_succ_self i)]
    · rw [Function.update_of_ne hne, ih]
      exact if_congr (by omega) rfl rfl

/-- The block of the buffers is inside the address space. -/
def BlockFits (skb_ptr : ℕ) : Prop := skb_ptr + TOE_SW_FREEQ_DESC_NUM * RX_BUF_SIZE ≤ 2 ^ 32

theorem toe_init_free_queue_buf (h : BlockFits skb_ptr) (k : ℕ) :
    (toe_init_free_queue skb_ptr (k % TOE_SW_FREEQ_DESC_NUM)).buf_adr = buffer skb_ptr k := by
  have hk : k % TOE_SW_FREEQ_DESC_NUM < TOE_SW_FREEQ_DESC_NUM := Nat.mod_lt _ (by decide)
  unfold toe_init_free_queue
  rw [init_free_descs, if_pos hk]
  refine Nat.mod_eq_of_lt (lt_of_lt_of_le ?_ h)
  exact Nat.add_lt_add_left (Nat.mul_lt_mul_of_pos_right hk (by decide)) _

/-- Two buffers have no byte in common. -/
theorem buffer_apart (hne : k % TOE_SW_FREEQ_DESC_NUM ≠ l % TOE_SW_FREEQ_DESC_NUM)
    (hi : i < RX_BUF_SIZE) (hj : j < RX_BUF_SIZE) :
    buffer skb_ptr k + i ≠ buffer skb_ptr l + j := by
  unfold buffer
  intro heq
  have h : k % TOE_SW_FREEQ_DESC_NUM * RX_BUF_SIZE + i =
      l % TOE_SW_FREEQ_DESC_NUM * RX_BUF_SIZE + j := by omega
  apply hne
  have hdiv := congrArg (· / RX_BUF_SIZE) h
  simpa only [Nat.mul_add_div (show 0 < RX_BUF_SIZE by decide), Nat.mul_comm _ RX_BUF_SIZE,
    Nat.div_eq_of_lt hi, Nat.div_eq_of_lt hj, Nat.add_zero] using hdiv

end Buffers

/-! ## The invariant -/

/-- The frame with the number `k` is in its buffer, as its descriptor says. -/
structure Stored (skb_ptr : ℕ) (mem : ℕ → UInt8) (posted : List RxFrame) (k : ℕ)
    (d : GMAC_RXDESC_T) : Prop where
  posted : posted[k]? = some ⟨d, rx_bytes mem d⟩
  buf_adr : d.buf_adr = buffer skb_ptr k
  fits : RX_INSERT_BYTES + d.byte_count ≤ RX_BUF_SIZE

/-- The frames whose turn is over, given the number of those out of the queue. -/
def RxAt.over (processed : ℕ) : RxAt → ℕ
  | .behind .. => processed + 1
  | .advance .. => processed + 1
  | _ => processed

/-- A frame is out of the queue and its buffer is not back yet. -/
def RxAt.lag : RxAt → ℕ
  | .release .. => 1
  | _ => 0

/-- The read pointer that the function has, and the write pointer that it saw. -/
def Seen (posted : List RxFrame) (processed : ℕ) (rwptr : DMA_RWPTR_T) (w : ℕ) : Prop :=
  rwptr.rptr = processed % TOE_DEFAULT_Q0_DESC_NUM ∧ rwptr.wptr = w % TOE_DEFAULT_Q0_DESC_NUM ∧
    processed ≤ w ∧ w ≤ posted.length

/-- The write pointer of the free queue. -/
def freed (released : ℕ) : ℕ := (TOE_SW_FREEQ_DESC_NUM - 1 + released) % TOE_SW_FREEQ_DESC_NUM

/-- What the variables of the function say. -/
def RxAt.Right (skb_ptr : ℕ) (s : GmacRx) (released processed : ℕ) : RxAt → Prop
  | .out => True
  | .loop rwptr _ => ∃ w, Seen s.posted processed rwptr w
  | .reading rwptr _ d copied => (∃ w, Seen s.posted processed rwptr w ∧ processed < w) ∧
      Stored skb_ptr s.mem s.posted processed d ∧ good_frame d ∧
      copied = (rx_bytes s.mem d).take copied.length
  | .behind rwptr _ => ∃ w, Seen s.posted processed rwptr w ∧ processed < w
  | .advance rwptr _ fq_rwptr => (∃ w, Seen s.posted processed rwptr w ∧ processed < w) ∧
      fq_rwptr.wptr = freed released
  | .release rwptr _ fq_rwptr => (∃ w, Seen s.posted processed rwptr w) ∧
      fq_rwptr.wptr = freed released
  | .hung => False

/-- The buffers that the device has taken. -/
def GmacRx.taken (s : GmacRx) : ℕ := s.posted.length + if s.held = none then 0 else 1

structure RxInv (skb_ptr : ℕ) (s : GmacRx) (released : ℕ) : Prop where
  block : BlockFits skb_ptr
  swfq : ∀ k, (s.swfq (k % TOE_SW_FREEQ_DESC_NUM)).buf_adr = buffer skb_ptr k
  free_rptr : s.swfq_rwptr.rptr = s.taken % TOE_SW_FREEQ_DESC_NUM
  free_wptr : s.swfq_rwptr.wptr = freed released
  kept_wptr : s.fq_rx_rwptr.wptr = freed released
  room : s.taken < TOE_SW_FREEQ_DESC_NUM + released
  rptr : s.default_rwptr.rptr = (released + s.at_.lag) % TOE_DEFAULT_Q0_DESC_NUM
  kept_rptr : s.rx_rwptr.rptr = (released + s.at_.lag) % TOE_DEFAULT_Q0_DESC_NUM
  wptr : s.default_rwptr.wptr = s.posted.length % TOE_DEFAULT_Q0_DESC_NUM
  order : released + s.at_.lag ≤ s.posted.length
  held : ∀ a, s.held = some a → a = buffer skb_ptr s.posted.length
  stored : Holds (Stored skb_ptr s.mem s.posted) TOE_DEFAULT_Q0_DESC_NUM (released + s.at_.lag)
    s.posted.length s.default_q
  given : s.given = good_bytes (s.posted.take (s.at_.over (released + s.at_.lag)))
  right : s.at_.Right skb_ptr s released (released + s.at_.lag)

section Invariant

variable {skb_ptr released : ℕ} {s : GmacRx} {mem : ℕ → UInt8} {d : GMAC_RXDESC_T}

theorem length_rx_bytes (mem : ℕ → UInt8) (d : GMAC_RXDESC_T) :
    (rx_bytes mem d).length = d.byte_count := by simp [rx_bytes]

theorem posted_le_taken (s : GmacRx) : s.posted.length ≤ s.taken := Nat.le_add_right _ _

/-- The default queue is never full: there is one buffer less than places. -/
theorem RxInv.between (h : RxInv skb_ptr s released) :
    Between TOE_DEFAULT_Q0_DESC_NUM (released + s.at_.lag) s.posted.length := by
  have hroom := h.room
  have hle := posted_le_taken s
  refine ⟨h.order, ?_⟩
  unfold TOE_SW_FREEQ_DESC_NUM at hroom
  unfold TOE_DEFAULT_Q0_DESC_NUM
  omega

theorem freed_zero : freed 0 = TOE_SW_FREEQ_DESC_NUM - 1 := Nat.mod_eq_of_lt (by decide)

theorem RxInv.start (hblock : BlockFits skb_ptr) (mem : ℕ → UInt8) :
    RxInv skb_ptr (toe_init_queues skb_ptr mem) 0 where
  block := hblock
  swfq := fun k => by
    dsimp only [toe_init_queues]
    exact toe_init_free_queue_buf hblock k
  free_rptr := (Nat.zero_mod _).symm
  free_wptr := freed_zero.symm
  kept_wptr := freed_zero.symm
  room := by
    have htaken : (toe_init_queues skb_ptr mem).taken = 0 := rfl
    rw [htaken]
    decide
  rptr := (Nat.zero_mod _).symm
  kept_rptr := (Nat.zero_mod _).symm
  wptr := (Nat.zero_mod _).symm
  order := Nat.le_refl 0
  held := fun a ha => by cases ha
  stored := Holds.empty
  given := rfl
  right := trivial

/-! ## The device -/

theorem Stored.mono {mem' : ℕ → UInt8} {posted posted' : List RxFrame} {k : ℕ}
    (h : Stored skb_ptr mem posted k d) (hposted : posted <+: posted')
    (hmem : rx_bytes mem' d = rx_bytes mem d) : Stored skb_ptr mem' posted' k d := by
  obtain ⟨rest, hrest⟩ := hposted
  obtain ⟨hlt, -⟩ := List.getElem?_eq_some_iff.mp h.posted
  refine ⟨?_, h.buf_adr, h.fits⟩
  rw [← hrest, List.getElem?_append_left hlt, hmem]
  exact h.posted

theorem Seen.mono {posted posted' : List RxFrame} {processed w : ℕ} {rwptr : DMA_RWPTR_T}
    (h : Seen posted processed rwptr w) (hposted : posted <+: posted') :
    Seen posted' processed rwptr w :=
  ⟨h.1, h.2.1, h.2.2.1, h.2.2.2.trans hposted.length_le⟩

/-- A step that leaves the function where it is, and the frame that it reads. -/
theorem RxAt.Right.mono {s' : GmacRx} {processed : ℕ} {a : RxAt}
    (h : a.Right skb_ptr s released processed) (hposted : s.posted <+: s'.posted)
    (hmem : ∀ d, Stored skb_ptr s.mem s.posted processed d → rx_bytes s'.mem d = rx_bytes s.mem d) :
    a.Right skb_ptr s' released processed := by
  cases a with
  | out => trivial
  | loop rwptr counter =>
    obtain ⟨w, hseen⟩ := h
    exact ⟨w, hseen.mono hposted⟩
  | reading rwptr counter d copied =>
    obtain ⟨⟨w, hseen, hlt⟩, hstored, hgood, hcopied⟩ := h
    have heq := hmem d hstored
    exact ⟨⟨w, hseen.mono hposted, hlt⟩, hstored.mono hposted heq, hgood, by rwa [heq]⟩
  | behind rwptr counter =>
    obtain ⟨w, hseen, hlt⟩ := h
    exact ⟨w, hseen.mono hposted, hlt⟩
  | advance rwptr counter fq_rwptr =>
    obtain ⟨⟨w, hseen, hlt⟩, hfq⟩ := h
    exact ⟨⟨w, hseen.mono hposted, hlt⟩, hfq⟩
  | release rwptr counter fq_rwptr =>
    obtain ⟨⟨w, hseen⟩, hfq⟩ := h
    exact ⟨⟨w, hseen.mono hposted⟩, hfq⟩
  | hung => exact h

/-- The frames whose turn is over were posted. -/
theorem RxInv.over_le (h : RxInv skb_ptr s released) :
    s.at_.over (released + s.at_.lag) ≤ s.posted.length := by
  have horder := h.order
  have hright := h.right
  cases hat : s.at_ with
  | behind rwptr counter =>
    rw [hat] at hright
    obtain ⟨w, hseen, hlt⟩ := hright
    exact (Nat.succ_le_of_lt hlt).trans hseen.2.2.2
  | advance rwptr counter fq_rwptr =>
    rw [hat] at hright
    obtain ⟨⟨w, hseen, hlt⟩, -⟩ := hright
    exact (Nat.succ_le_of_lt hlt).trans hseen.2.2.2
  | out => rwa [hat] at horder
  | loop => rwa [hat] at horder
  | reading => rwa [hat] at horder
  | release => rwa [hat] at horder
  | hung => rwa [hat] at horder

/-- The device takes a buffer. -/
theorem RxInv.take {s' : GmacRx} (h : RxInv skb_ptr s released)
    (hs : rx_step s .take = some s') : RxInv skb_ptr s' released := by
  simp only [rx_step] at hs
  split_ifs at hs with hfree
  obtain ⟨hnone, hne⟩ := hfree
  obtain rfl := Option.some.inj hs
  have htaken : s.taken = s.posted.length := by rw [GmacRx.taken, if_pos hnone, Nat.add_zero]
  have hroom := h.room
  -- the two pointers differ: there is a buffer to take
  have hlt : s.taken < TOE_SW_FREEQ_DESC_NUM - 1 + released := by
    by_contra hge
    apply hne
    rw [h.free_rptr, h.free_wptr, freed]
    congr 1
    have hpos : 0 < TOE_SW_FREEQ_DESC_NUM := by decide
    omega
  refine { h with free_rptr := ?_, room := ?_, held := ?_, right := ?_ }
  · have hrptr := h.free_rptr
    rw [htaken] at hrptr
    simp only [GmacRx.taken, reduceCtorEq, if_false, RWPTR_ADVANCE_ONE, hrptr,
      next_mod (show 0 < TOE_SW_FREEQ_DESC_NUM by decide)]
  · simp only [GmacRx.taken, reduceCtorEq, if_false]
    have hpos : 0 < TOE_SW_FREEQ_DESC_NUM := by decide
    omega
  · intro a ha
    cases ha
    rw [h.free_rptr, h.swfq, htaken]
  · exact h.right.mono List.prefix_rfl fun _ _ => rfl

/-- The device writes into its buffer. -/
theorem RxInv.write {s' : GmacRx} (h : RxInv skb_ptr s released) {i : ℕ} {b : UInt8}
    (hs : rx_step s (.write i b) = some s') : RxInv skb_ptr s' released := by
  simp only [rx_step] at hs
  split at hs
  case h_2 => cases hs
  rename_i a hheld
  split_ifs at hs with hi
  obtain rfl := Option.some.inj hs
  obtain rfl := h.held a hheld
  have hroom := h.room
  rw [GmacRx.taken, if_neg (by rw [hheld]; exact Option.some_ne_none _)] at hroom
  -- the frames that wait, and that which is read, are in other buffers
  have hsame : ∀ k d, released ≤ k → k < s.posted.length → Stored skb_ptr s.mem s.posted k d →
      rx_bytes (Function.update s.mem (buffer skb_ptr s.posted.length + i) b) d =
        rx_bytes s.mem d := by
    intro k d hk hk' hd
    refine List.map_congr_left fun j hj => Function.update_of_ne ?_ ..
    rw [List.mem_range] at hj
    have hfits := hd.fits
    rw [hd.buf_adr, Nat.add_assoc]
    exact buffer_apart (mod_ne hk' (by omega)) (by omega) hi
  refine { h with stored := ?_, right := ?_ }
  · refine h.stored.imp fun k d hk hk' hd => hd.mono List.prefix_rfl ?_
    exact hsame k d ((Nat.le_add_right _ _).trans hk) hk' hd
  · refine h.right.mono List.prefix_rfl fun d hd => ?_
    obtain ⟨hlt, -⟩ := List.getElem?_eq_some_iff.mp hd.posted
    exact hsame _ d (Nat.le_add_right _ _) hlt hd

/-- The device says what it has received. -/
theorem RxInv.post {s' : GmacRx} (h : RxInv skb_ptr s released)
    (hs : rx_step s (.post d) = some s') : RxInv skb_ptr s' released := by
  simp only [rx_step] at hs
  split_ifs at hs with hpost
  obtain ⟨hheld, hfits⟩ := hpost
  obtain rfl := Option.some.inj hs
  have htaken : s.taken = s.posted.length + 1 := by
    rw [GmacRx.taken, if_neg (by rw [hheld]; exact Option.some_ne_none _)]
  have hbuf := h.held _ hheld
  have hprefix : s.posted <+: s.posted ++ [⟨d, rx_bytes s.mem d⟩] := List.prefix_append ..
  -- the new descriptor is behind the others, in the next place of the ring
  have hlast : Stored skb_ptr s.mem (s.posted ++ [⟨d, rx_bytes s.mem d⟩]) s.posted.length d :=
    ⟨List.getElem?_concat_length, hbuf, hfits⟩
  have hrptr := h.free_rptr
  have hroom := h.room
  rw [htaken] at hrptr hroom
  refine { h with
    free_rptr := ?_, room := ?_, wptr := ?_, order := ?_, held := ?_, stored := ?_, given := ?_,
    right := ?_ }
  · simp only [GmacRx.taken, if_true, List.length_append, List.length_singleton, Nat.add_zero]
    exact hrptr
  · simp only [GmacRx.taken, if_true, List.length_append, List.length_singleton, Nat.add_zero]
    exact hroom
  · simp only [RWPTR_ADVANCE_ONE, h.wptr, List.length_append, List.length_singleton,
      next_mod (show 0 < TOE_DEFAULT_Q0_DESC_NUM by decide)]
  · exact h.order.trans hprefix.length_le
  · intro a ha
    cases ha
  · simp only [h.wptr, List.length_append, List.length_singleton]
    refine Holds.put (h.stored.imp fun k d _ _ hd => ?_) h.between hlast
    exact hd.mono hprefix rfl
  · simp only [List.take_append_of_le_length h.over_le]
    exact h.given
  · exact h.right.mono hprefix fun _ _ => rfl

/-! ## The function -/

/-- The function goes on without a step in the queues. -/
theorem RxInv.go (h : RxInv skb_ptr s released) {a : RxAt} {given : List (List UInt8)}
    (hlag : a.lag = s.at_.lag)
    (hgiven : given = good_bytes (s.posted.take (a.over (released + s.at_.lag))))
    (hright : a.Right skb_ptr s released (released + s.at_.lag)) :
    RxInv skb_ptr { s with at_ := a, given := given } released := by
  refine { h with
    rptr := ?_, kept_rptr := ?_, order := ?_, stored := ?_, given := ?_, right := ?_ }
  · simpa only [hlag] using h.rptr
  · simpa only [hlag] using h.kept_rptr
  · simpa only [hlag] using h.order
  · simpa only [hlag] using h.stored
  · simpa only [hlag] using hgiven
  · rw [hlag]
    exact hright.mono List.prefix_rfl fun _ _ => rfl

/-- The frame that is first in the queue. -/
theorem RxInv.first (h : RxInv skb_ptr s released) {rwptr : DMA_RWPTR_T} {w : ℕ}
    (hseen : Seen s.posted (released + s.at_.lag) rwptr w) :
    (rwptr.rptr ≠ rwptr.wptr ↔ released + s.at_.lag < w) ∧
      (released + s.at_.lag < w → Stored skb_ptr s.mem s.posted (released + s.at_.lag)
        (s.default_q rwptr.rptr)) := by
  obtain ⟨hrptr, hwptr, hle, hw⟩ := hseen
  have hbetween := h.between
  have hw' : Between TOE_DEFAULT_Q0_DESC_NUM (released + s.at_.lag) w :=
    ⟨hle, lt_of_le_of_lt hw hbetween.2⟩
  constructor
  · rw [hrptr, hwptr, ne_eq, hw'.eq_iff]
    omega
  · intro hlt
    rw [hrptr]
    exact h.stored _ (Nat.le_refl _) (hlt.trans_le hw)

/-- Taking one more frame into account. -/
theorem good_bytes_succ {posted : List RxFrame} {k : ℕ} {f : RxFrame} (hf : posted[k]? = some f) :
    good_bytes (posted.take (k + 1)) =
      good_bytes (posted.take k) ++ if good_frame f.desc then [f.bytes] else [] := by
  rw [List.take_add_one, hf, good_bytes, good_bytes, List.filter_append, List.map_append]
  congr 1
  cases hgood : good_frame f.desc
  · simp [hgood]
  · simp [hgood]

theorem freed_succ (released : ℕ) :
    RWPTR_ADVANCE_ONE (freed released) TOE_SW_FREEQ_DESC_NUM = freed (released + 1) := by
  rw [RWPTR_ADVANCE_ONE, freed, next_mod (by decide), freed, Nat.add_assoc]

/-- **A step of the function.** -/
theorem RxInv.driver (h : RxInv skb_ptr s released) :
    RxInv skb_ptr (toe_gmac_handle_default_rxq s) (released + s.at_.lag) := by
  have hright := h.right
  have hgiven := h.given
  unfold toe_gmac_handle_default_rxq
  cases hat : s.at_ with
  | out =>
    have hlag : s.at_.lag = 0 := by rw [hat]; rfl
    dsimp only
    rw [if_neg (not_not.mpr (h.rptr.trans h.kept_rptr.symm))]
    refine h.go (by rw [hlag]; rfl) (by rw [hgiven, hat]; rfl) ?_
    exact ⟨s.posted.length, h.rptr, h.wptr, h.order, Nat.le_refl _⟩
  | loop rwptr counter =>
    have hlag : s.at_.lag = 0 := by rw [hat]; rfl
    rw [hat] at hright
    obtain ⟨w, hseen⟩ := hright
    rw [show (RxAt.loop rwptr counter).lag = s.at_.lag by rw [hat]] at hseen
    obtain ⟨hne, hfirst⟩ := h.first hseen
    dsimp only
    split_ifs with hgo hgood
    · have hlt := hne.mp hgo.1
      refine h.go (by rw [hlag]; rfl) (by rw [hgiven, hat]; rfl) ?_
      exact ⟨⟨w, hseen, hlt⟩, hfirst hlt, hgood, rfl⟩
    · have hlt := hne.mp hgo.1
      refine h.go (by rw [hlag]; rfl) ?_ ⟨w, hseen, hlt⟩
      rw [hgiven, RxAt.over, good_bytes_succ (hfirst hlt).posted, if_neg hgood, List.append_nil,
        hat]
      rfl
    · exact h.go (by rw [hlag]; rfl) (by rw [hgiven, hat]; rfl) trivial
  | reading rwptr counter d copied =>
    have hlag : s.at_.lag = 0 := by rw [hat]; rfl
    rw [hat] at hright
    obtain ⟨⟨w, hseen, hlt⟩, hstored, hgood, hcopied⟩ := hright
    rw [show (RxAt.reading rwptr counter d copied).lag = s.at_.lag by rw [hat]] at hseen hlt hstored
    dsimp only
    split_ifs with hmore
    · refine h.go (by rw [hlag]; rfl) (by rw [hgiven, hat]; rfl)
        ⟨⟨w, hseen, hlt⟩, hstored, hgood, ?_⟩
      -- the next byte of the frame
      have hlen : copied.length < (rx_bytes s.mem d).length := by rwa [length_rx_bytes]
      rw [List.length_append, List.length_singleton, List.take_add_one, ← hcopied,
        List.getElem?_eq_getElem hlen]
      simp [rx_bytes]
    · refine h.go (by rw [hlag]; rfl) ?_ ⟨w, hseen, hlt⟩
      have hall : copied = rx_bytes s.mem d := by
        rw [hcopied]
        exact List.take_of_length_le (by rw [length_rx_bytes]; omega)
      rw [hgiven, RxAt.over, good_bytes_succ hstored.posted, if_pos hgood, hall, hat]
      rfl
  | behind rwptr counter =>
    have hlag : s.at_.lag = 0 := by rw [hat]; rfl
    rw [hat] at hright
    dsimp only
    rw [if_neg (not_not.mpr (h.kept_wptr.trans h.free_wptr.symm))]
    refine h.go (by rw [hlag]; rfl) (by rw [hgiven, hat]; rfl) ⟨?_, h.free_wptr⟩
    rwa [hat]
  | advance rwptr counter fq_rwptr =>
    rw [hat] at hright
    obtain ⟨⟨w, hseen, hlt⟩, hfq⟩ := hright
    have hlag : s.at_.lag = 0 := by rw [hat]; rfl
    have hnext : RWPTR_ADVANCE_ONE rwptr.rptr TOE_DEFAULT_Q0_DESC_NUM =
        (released + 1) % TOE_DEFAULT_Q0_DESC_NUM := by
      rw [hseen.1, RWPTR_ADVANCE_ONE, next_mod (by decide)]
      rfl
    have hstored := h.stored
    rw [hlag] at hstored
    refine { h with
      rptr := hnext, kept_rptr := hnext, order := ?_, stored := hstored.take, given := ?_,
      right := ?_ }
    · exact (Nat.succ_le_of_lt hlt).trans hseen.2.2.2
    · rw [hgiven, hat]
      rfl
    · exact ⟨⟨w, hnext, hseen.2.1, hlt, hseen.2.2.2⟩, hfq⟩
  | release rwptr counter fq_rwptr =>
    rw [hat] at hright
    obtain ⟨⟨w, hseen⟩, hfq⟩ := hright
    have hlag : s.at_.lag = 1 := by rw [hat]; rfl
    have hrptr := h.rptr
    have hkept := h.kept_rptr
    have horder := h.order
    have hstored := h.stored
    have hroom := h.room
    rw [hlag] at hrptr hkept horder hstored
    have hnext : RWPTR_ADVANCE_ONE fq_rwptr.wptr TOE_SW_FREEQ_DESC_NUM = freed (released + 1) := by
      rw [hfq, freed_succ]
    refine { h with
      free_wptr := hnext, kept_wptr := hnext, room := ?_, rptr := hrptr, kept_rptr := hkept,
      order := horder, stored := hstored, given := ?_, right := ⟨w, hseen⟩ }
    · exact Nat.lt_succ_of_lt hroom
    · rw [hgiven, hat]
      rfl
  | hung =>
    rw [hat] at hright
    exact hright.elim

/-- **One event**, of the driver or of the device. -/
theorem RxInv.step {s' : GmacRx} {e : RxEvent} (h : RxInv skb_ptr s released)
    (hs : rx_step s e = some s') : ∃ released', RxInv skb_ptr s' released' := by
  cases e with
  | driver =>
    obtain rfl := Option.some.inj hs
    exact ⟨_, h.driver⟩
  | take => exact ⟨released, h.take hs⟩
  | write i b => exact ⟨released, h.write hs⟩
  | post d => exact ⟨released, h.post hs⟩

theorem RxReaches.inv (hblock : BlockFits skb_ptr) (h : RxReaches skb_ptr mem s) :
    ∃ released, RxInv skb_ptr s released :=
  Reaches.invariant (P := fun s => ∃ released, RxInv skb_ptr s released)
    ⟨0, .start hblock mem⟩ (fun _ _ _ hinv _ hs => hinv.elim fun _ hinv => hinv.step hs) h

end Invariant

/-! ## Every run -/

section Runs

variable {skb_ptr released : ℕ} {s : GmacRx} {mem : ℕ → UInt8}

/-- Nothing is waiting in the default queue. -/
def GmacRx.Drained (s : GmacRx) : Prop :=
  s.at_ = .out ∧ s.default_rwptr.rptr = s.default_rwptr.wptr

/-- What was given to `enet_input` is a beginning of what was received without errors, and all
of it when nothing is waiting. -/
structure GivenInOrder (s : GmacRx) : Prop where
  runs : s.at_ ≠ .hung
  in_order : s.given <+: good_bytes s.posted
  all : s.Drained → s.given = good_bytes s.posted

theorem RxInv.givenInOrder (h : RxInv skb_ptr s released) : GivenInOrder s where
  runs := by
    intro hat
    have hright := h.right
    rw [hat] at hright
    exact hright
  in_order := by
    rw [h.given, good_bytes, good_bytes]
    exact ((List.take_prefix ..).filter _).map _
  all := by
    rintro ⟨hat, hempty⟩
    have hgiven := h.given
    have heq := h.between.eq_iff.mp (h.rptr.symm.trans (hempty.trans h.wptr))
    rw [hgiven, hat]
    rw [hat] at heq
    exact congrArg good_bytes (List.take_of_length_le heq.ge)

/-- **Received frames are given on in order**, each once and as it was received, in every
interleaving of the driver and the device. -/
theorem rx_frames_in_order (hblock : BlockFits skb_ptr) (h : RxReaches skb_ptr mem s) :
    GivenInOrder s := by
  obtain ⟨released, hinv⟩ := h.inv hblock
  exact hinv.givenInOrder

/-! ## The queue is worked off -/

/-- What is left of the turn of the function. -/
def RxAt.rank : RxAt → ℕ
  | .out => 3000
  | .loop rwptr counter => if rwptr.rptr ≠ rwptr.wptr ∧ counter < 16 then 2000 else 3500
  | .reading _ _ d copied => 12 + (d.byte_count - copied.length)
  | .behind .. => 11
  | .advance .. => 10
  | .release .. => 3600
  | .hung => 0

/-- The frames that wait, and the turn. -/
def GmacRx.rank (s : GmacRx) (processed : ℕ) : ℕ :=
  (s.posted.length - processed) * 4096 + s.at_.rank

/-- Every step of the function brings it nearer to the end of the queue. -/
theorem RxInv.rank_lt (h : RxInv skb_ptr s released) (hwork : ¬ s.Drained) :
    (toe_gmac_handle_default_rxq s).rank
        (released + s.at_.lag + (toe_gmac_handle_default_rxq s).at_.lag) <
      s.rank (released + s.at_.lag) := by
  have hright := h.right
  unfold GmacRx.rank toe_gmac_handle_default_rxq
  cases hat : s.at_ with
  | out =>
    have hne : s.default_rwptr.rptr ≠ s.default_rwptr.wptr := fun heq => hwork ⟨hat, heq⟩
    dsimp only
    rw [if_neg (not_not.mpr (h.rptr.trans h.kept_rptr.symm))]
    dsimp only [RxAt.lag, RxAt.rank]
    rw [if_pos ⟨hne, by norm_num⟩]
    omega
  | loop rwptr counter =>
    have hlag : s.at_.lag = 0 := by rw [hat]; rfl
    rw [hat] at hright
    obtain ⟨w, hseen⟩ := hright
    rw [show (RxAt.loop rwptr counter).lag = s.at_.lag by rw [hat]] at hseen
    obtain ⟨hne, hfirst⟩ := h.first hseen
    dsimp only [RxAt.lag, RxAt.rank]
    split_ifs with hgo hgood
    · -- a frame is shorter than its buffer
      have hfits := (hfirst (hne.mp hgo.1)).fits
      unfold RX_INSERT_BYTES RX_BUF_SIZE MAX_ETH_FRAME_SIZE at hfits
      simp only [List.length_nil]
      omega
    · dsimp only
      omega
    · dsimp only
      omega
  | reading rwptr counter d copied =>
    dsimp only [RxAt.lag, RxAt.rank]
    split_ifs with hmore
    · simp only [List.length_append, List.length_singleton]
      omega
    · dsimp only
      omega
  | behind rwptr counter =>
    dsimp only
    rw [if_neg (not_not.mpr (h.kept_wptr.trans h.free_wptr.symm))]
    dsimp only [RxAt.lag, RxAt.rank]
    omega
  | advance rwptr counter fq_rwptr =>
    rw [hat] at hright
    obtain ⟨⟨w, hseen, hlt⟩, -⟩ := hright
    have hw := hseen.2.2.2
    dsimp only [RxAt.lag, RxAt.rank] at hlt ⊢
    omega
  | release rwptr counter fq_rwptr =>
    dsimp only [RxAt.lag, RxAt.rank]
    split_ifs
    · omega
    · omega
  | hung =>
    rw [hat] at hright
    exact hright.elim

theorem driver_posted (s : GmacRx) : (toe_gmac_handle_default_rxq s).posted = s.posted := by
  unfold toe_gmac_handle_default_rxq
  cases s.at_ with
  | out => dsimp only; split <;> rfl
  | loop => dsimp only; split_ifs <;> rfl
  | reading => dsimp only; split <;> rfl
  | behind => dsimp only; split <;> rfl
  | advance => rfl
  | release => rfl
  | hung => rfl

/-- The function works the queue off when the device rests. -/
theorem RxInv.drains (h : RxInv skb_ptr s released) :
    ∃ n, (toe_gmac_handle_default_rxq^[n] s).Drained ∧
      (toe_gmac_handle_default_rxq^[n] s).given = good_bytes s.posted := by
  induction hrank : s.rank (released + s.at_.lag) using Nat.strong_induction_on
    generalizing s released with
  | _ rank ih =>
    by_cases hdone : s.Drained
    · exact ⟨0, hdone, h.givenInOrder.all hdone⟩
    · obtain ⟨n, hdrained, hgiven⟩ := ih _ (hrank ▸ h.rank_lt hdone) h.driver rfl
      exact ⟨n + 1, hdrained, hgiven.trans (by rw [driver_posted])⟩

/-- **Every frame is given on**: from any state that is reached, the driver alone comes to the
end of the queue, and has then given on all that was received without errors. -/
theorem rx_frames_drained (hblock : BlockFits skb_ptr) (h : RxReaches skb_ptr mem s) :
    ∃ n, (toe_gmac_handle_default_rxq^[n] s).Drained ∧
      (toe_gmac_handle_default_rxq^[n] s).given = good_bytes s.posted := by
  obtain ⟨released, hinv⟩ := h.inv hblock
  exact hinv.drains

end Runs

/-! ## One frame -/

/-- The block of the buffers. -/
def one_block : ℕ := 0x100000

theorem one_block_fits : BlockFits one_block := by
  norm_num [BlockFits, one_block, TOE_SW_FREEQ_DESC_NUM, RX_BUF_SIZE, MAX_ETH_FRAME_SIZE]

/-- A frame of sixty bytes in the first buffer. -/
def one_desc : GMAC_RXDESC_T :=
  { desc_cleared with byte_count := 60, buf_adr := one_block }

/-- It is received into an empty queue. -/
theorem one_received : ∃ s, RxReaches one_block (fun _ => 0) s ∧
    s.posted = [⟨one_desc, List.replicate 60 0⟩] ∧ s.given = [] := by
  have hbuf : (toe_init_free_queue one_block 0).buf_adr = one_block :=
    (toe_init_free_queue_buf one_block_fits 0).trans (Nat.add_zero _)
  obtain ⟨s₁, htake, hheld, hmem, hposted, hgiven⟩ : ∃ s₁,
      rx_step (toe_init_queues one_block fun _ => 0) .take = some s₁ ∧ s₁.held = some one_block ∧
        s₁.mem = (fun _ => 0) ∧ s₁.posted = [] ∧ s₁.given = [] := by
    simp only [rx_step]
    rw [if_pos ⟨rfl, by decide⟩]
    refine ⟨_, rfl, ?_, rfl, rfl, rfl⟩
    simp only [toe_init_queues, hbuf]
  obtain ⟨s₂, hpost, hposted₂, hgiven₂⟩ : ∃ s₂, rx_step s₁ (.post one_desc) = some s₂ ∧
      s₂.posted = [⟨one_desc, List.replicate 60 0⟩] ∧ s₂.given = [] := by
    simp only [rx_step]
    rw [if_pos ⟨hheld, by decide⟩]
    refine ⟨_, rfl, ?_, hgiven⟩
    simp only [hposted, hmem, rx_bytes, one_desc, List.nil_append]
    rfl
  exact ⟨s₂, .next (.next .start trivial htake) trivial hpost, hposted₂, hgiven₂⟩

theorem rx_frames_drained_one : ∃ s n, s.given = [] ∧
    (toe_gmac_handle_default_rxq^[n] s).given = [List.replicate 60 0] := by
  obtain ⟨s, hreach, hposted, hempty⟩ := one_received
  obtain ⟨n, -, hgiven⟩ := rx_frames_drained one_block_fits hreach
  exact ⟨s, n, hempty, by rw [hgiven, hposted]; rfl⟩

/-! ## Three frames -/

/-- A frame with this number of bytes in the buffer with this number. -/
def small_desc (buffer n : ℕ) (derr : Bool) : GMAC_RXDESC_T :=
  { desc_cleared with byte_count := n, derr := derr, buf_adr := one_block + buffer * RX_BUF_SIZE }

/-- The second one has an error, and the third is received while the driver is at the second. -/
def three_frames : List RxEvent :=
  [.take, .write 2 7, .write 3 9, .post (small_desc 0 2 false), .driver, .driver, .take, .driver,
    .driver, .post (small_desc 1 1 true), .driver, .take, .driver, .write 2 5] ++
    List.replicate 12 .driver ++ [.post (small_desc 2 1 false)] ++ List.replicate 20 .driver

theorem rx_frames_in_order_three :
    ∃ s, s.posted.length = 3 ∧ s.given = [[7, 9], [5]] ∧ GivenInOrder s := by
  have hrun : (runOps rx_step (fun _ _ => True) (toe_init_queues one_block fun _ => 0)
      three_frames).map (fun s => (s.posted.length, s.given)) = some (3, [[7, 9], [5]]) := by
    decide +kernel
  obtain ⟨s, hs, heq⟩ := Option.map_eq_some_iff.mp hrun
  obtain ⟨hposted, hgiven⟩ := Prod.mk.inj heq
  exact ⟨s, hposted, hgiven, rx_frames_in_order one_block_fits (.of_runOps _ hs)⟩

end CsBoot.Gmac
