/-
The device sends the frames that `toe_gmac_send` has accepted, in order and as they were given
to it, whatever it does between two steps of the function.

Frame number `k` is in place `k` of the queue, `sent.length` frames are out and
`accepted.length` are in the queue or were. The function fills in a place that the device does
not look at yet, and the buffer of the place is no other frame's.
-/
import CsBoot.Bsp.GmacTx

set_option autoImplicit false

namespace CsBoot.Gmac

open RingWindow

/-! ## The buffers -/

/-- The buffer of a place of the queue. -/
def tx_buffer (txbuf k : ℕ) : ℕ := txbuf + k % TOE_GMAC0_SWTXQ_DESC_NUM * MAX_ETH_FRAME_SIZE

/-- The block of the buffers is inside the address space. -/
def TxBlockFits (txbuf : ℕ) : Prop :=
  txbuf + TOE_GMAC0_SWTXQ_DESC_NUM * MAX_ETH_FRAME_SIZE ≤ 2 ^ 32

section Buffers

variable {txbuf i j k l : ℕ}

theorem tx_num_pos : 0 < TOE_GMAC0_SWTXQ_DESC_NUM := by decide

theorem init_txbufs (txbuf n i : ℕ) :
    (List.range n).foldl (init_txbuf txbuf) (fun _ => 0) i =
      if i < n then (txbuf + i * MAX_ETH_FRAME_SIZE) % 2 ^ 32 else 0 := by
  induction n with
  | zero => rfl
  | succ n ih =>
    rw [List.range_succ, List.foldl_append, List.foldl_cons, List.foldl_nil, init_txbuf]
    obtain rfl | hne := eq_or_ne i n
    · rw [Function.update_self, if_pos (Nat.lt_succ_self i)]
    · rw [Function.update_of_ne hne, ih]
      exact if_congr (by omega) rfl rfl

theorem txbuf_ptr_init (h : TxBlockFits txbuf) (mem : ℕ → UInt8) (k : ℕ) :
    (toe_init_swtx_queue txbuf mem).txbuf_ptr (k % TOE_GMAC0_SWTXQ_DESC_NUM) =
      tx_buffer txbuf k := by
  have hk : k % TOE_GMAC0_SWTXQ_DESC_NUM < TOE_GMAC0_SWTXQ_DESC_NUM := Nat.mod_lt _ tx_num_pos
  dsimp only [toe_init_swtx_queue]
  rw [init_txbufs, if_pos hk]
  refine Nat.mod_eq_of_lt (lt_of_lt_of_le ?_ h)
  exact Nat.add_lt_add_left (Nat.mul_lt_mul_of_pos_right hk (by decide)) _

/-- Two buffers have no byte in common. -/
theorem tx_buffer_apart (hne : k % TOE_GMAC0_SWTXQ_DESC_NUM ≠ l % TOE_GMAC0_SWTXQ_DESC_NUM)
    (hi : i < MAX_ETH_FRAME_SIZE) (hj : j < MAX_ETH_FRAME_SIZE) :
    tx_buffer txbuf k + i ≠ tx_buffer txbuf l + j := by
  unfold tx_buffer
  intro heq
  have h : k % TOE_GMAC0_SWTXQ_DESC_NUM * MAX_ETH_FRAME_SIZE + i =
      l % TOE_GMAC0_SWTXQ_DESC_NUM * MAX_ETH_FRAME_SIZE + j := by omega
  apply hne
  have hdiv := congrArg (· / MAX_ETH_FRAME_SIZE) h
  simpa only [Nat.mul_add_div (show 0 < MAX_ETH_FRAME_SIZE by decide),
    Nat.mul_comm _ MAX_ETH_FRAME_SIZE, Nat.div_eq_of_lt hi, Nat.div_eq_of_lt hj,
    Nat.add_zero] using hdiv

end Buffers

/-! ## The invariant -/

/-- The first bytes of a frame are at an address. -/
def BytesAt (mem : ℕ → UInt8) (a : ℕ) (f : List UInt8) (n : ℕ) : Prop :=
  ∀ i, i < n → mem (a + i) = f.getD i 0

/-- The frame is in its buffer, as its descriptor says. -/
structure Loaded (txbuf : ℕ) (mem : ℕ → UInt8) (k : ℕ) (f : List UInt8) (d : GMAC_TXDESC_T) :
    Prop where
  byte_count : d.byte_count = f.length
  buf_adr : d.buf_adr = tx_buffer txbuf k
  fits : f.length ≤ GMAC_MAX_ETH_FRAME_SIZE
  bytes : BytesAt mem (tx_buffer txbuf k) f f.length

/-- It is the frame with the number `k`. -/
def Queued (txbuf : ℕ) (mem : ℕ → UInt8) (accepted : List (List UInt8)) (k : ℕ)
    (d : GMAC_TXDESC_T) : Prop :=
  ∃ f, accepted[k]? = some f ∧ Loaded txbuf mem k f d

/-- The place that the function fills in, behind the last frame, and room behind it. -/
def Ahead (s : GmacTx) (rwptr : DMA_RWPTR_T) : Prop :=
  rwptr.wptr = s.accepted.length % TOE_GMAC0_SWTXQ_DESC_NUM ∧
    s.accepted.length + 1 < s.sent.length + TOE_GMAC0_SWTXQ_DESC_NUM

/-- What the variables of the function say. -/
def TxAt.Right (txbuf : ℕ) (s : GmacTx) : TxAt → Prop
  | .copying bufp rwptr i => Ahead s rwptr ∧ bufp.length ≤ GMAC_MAX_ETH_FRAME_SIZE ∧
      i ≤ bufp.length ∧ (s.swtxq rwptr.wptr).byte_count = bufp.length ∧
      BytesAt s.mem (tx_buffer txbuf s.accepted.length) bufp i
  | .ready bufp rwptr => Ahead s rwptr ∧
      Loaded txbuf s.mem s.accepted.length bufp (s.swtxq rwptr.wptr)
  | _ => True

structure TxInv (txbuf : ℕ) (s : GmacTx) : Prop where
  bufs : ∀ k, s.txbuf_ptr (k % TOE_GMAC0_SWTXQ_DESC_NUM) = tx_buffer txbuf k
  rptr : s.swtxq_rwptr.rptr = s.sent.length % TOE_GMAC0_SWTXQ_DESC_NUM
  wptr : s.swtxq_rwptr.wptr = s.accepted.length % TOE_GMAC0_SWTXQ_DESC_NUM
  between : Between TOE_GMAC0_SWTXQ_DESC_NUM s.sent.length s.accepted.length
  queued : Holds (Queued txbuf s.mem s.accepted) TOE_GMAC0_SWTXQ_DESC_NUM s.sent.length
    s.accepted.length s.swtxq
  in_order : s.sent = s.accepted.take s.sent.length
  sending : ∀ d bytes, s.sending = some (d, bytes) → ∃ f, s.accepted[s.sent.length]? = some f ∧
    Loaded txbuf s.mem s.sent.length f d ∧ bytes = f.take bytes.length
  right : s.at_.Right txbuf s

section Invariant

variable {txbuf : ℕ} {s s' : GmacTx} {mem mem' : ℕ → UInt8} {accepted : List (List UInt8)}
  {k : ℕ} {f : List UInt8} {d : GMAC_TXDESC_T} {rwptr : DMA_RWPTR_T}

theorem TxInv.start (hblock : TxBlockFits txbuf) (mem : ℕ → UInt8) :
    TxInv txbuf (toe_init_swtx_queue txbuf mem) where
  bufs := fun k => txbuf_ptr_init hblock mem k
  rptr := (Nat.zero_mod _).symm
  wptr := (Nat.zero_mod _).symm
  between := ⟨Nat.le_refl _, Nat.lt_add_of_pos_right tx_num_pos⟩
  queued := Holds.empty
  in_order := rfl
  sending := fun _ _ h => by cases h
  right := trivial

/-- A frame that waits is one of the accepted ones. -/
theorem Queued.lt (h : Queued txbuf mem accepted k d) : k < accepted.length := by
  obtain ⟨f, hf, -⟩ := h
  exact (List.getElem?_eq_some_iff.mp hf).1

theorem Loaded.mono (h : Loaded txbuf mem k f d)
    (hmem : ∀ i, i < f.length → mem' (tx_buffer txbuf k + i) = mem (tx_buffer txbuf k + i)) :
    Loaded txbuf mem' k f d :=
  ⟨h.byte_count, h.buf_adr, h.fits, fun i hi => (hmem i hi).trans (h.bytes i hi)⟩

theorem Queued.mono (h : Queued txbuf mem accepted k d) (rest : List (List UInt8)) :
    Queued txbuf mem (accepted ++ rest) k d := by
  obtain ⟨f, hf, hd⟩ := h
  have hlt := (List.getElem?_eq_some_iff.mp hf).1
  exact ⟨f, by rw [List.getElem?_append_left hlt, hf], hd⟩

/-- The function goes on in the place behind the last frame. -/
theorem TxInv.go (h : TxInv txbuf s) (hahead : Ahead s rwptr) {x : GMAC_TXDESC_T} {a : TxAt}
    (hmem : ∀ k f d, s.sent.length ≤ k → k < s.accepted.length → Loaded txbuf s.mem k f d →
      Loaded txbuf mem' k f d)
    (hright : a.Right txbuf
      { s with mem := mem', swtxq := Function.update s.swtxq rwptr.wptr x, at_ := a }) :
    TxInv txbuf
      { s with mem := mem', swtxq := Function.update s.swtxq rwptr.wptr x, at_ := a } := by
  refine { h with queued := ?_, sending := ?_, right := hright }
  · simp only [hahead.1]
    refine Holds.put_ahead (h.queued.imp fun k d hk hk' hd => ?_) h.between
    obtain ⟨f, hf, hload⟩ := hd
    exact ⟨f, hf, hmem k f d hk hk' hload⟩
  · intro d bytes hsend
    obtain ⟨f, hf, hload, hbytes⟩ := h.sending d bytes hsend
    have hlt := (List.getElem?_eq_some_iff.mp hf).1
    exact ⟨f, hf, hmem _ f d (Nat.le_refl _) hlt hload, hbytes⟩

/-- A byte in the buffer behind the last frame is in no other one. -/
theorem Ahead.write (h : Ahead s rwptr) {i : ℕ} (hi : i < GMAC_MAX_ETH_FRAME_SIZE) (b : UInt8)
    (hk : s.sent.length ≤ k) (hk' : k < s.accepted.length) (hd : Loaded txbuf s.mem k f d) :
    Loaded txbuf (Function.update s.mem (tx_buffer txbuf s.accepted.length + i) b) k f d := by
  have hroom := h.2
  refine hd.mono fun j hj => Function.update_of_ne ?_ ..
  have hfits := hd.fits
  refine tx_buffer_apart (mod_ne hk' (by omega)) ?_ ?_
  · unfold GMAC_MAX_ETH_FRAME_SIZE at hfits
    unfold MAX_ETH_FRAME_SIZE
    omega
  · unfold GMAC_MAX_ETH_FRAME_SIZE at hi
    unfold MAX_ETH_FRAME_SIZE
    omega

/-! ## The function -/

/-- **A call.** It goes on when the frame is no longer than a frame may be and fewer than
`TOE_GMAC0_SWTXQ_DESC_NUM - 1` frames are waiting. -/
theorem TxInv.send (h : TxInv txbuf s) (bufp : List UInt8) :
    (∀ s', toe_gmac_send s bufp = some s' → TxInv txbuf s') ∧
      (toe_gmac_send s bufp = none ↔ GMAC_MAX_ETH_FRAME_SIZE < bufp.length ∨
        s.accepted.length + 1 = s.sent.length + TOE_GMAC0_SWTXQ_DESC_NUM) := by
  have hroom : free_desc s.swtxq_rwptr TOE_GMAC0_SWTXQ_DESC_NUM =
      TOE_GMAC0_SWTXQ_DESC_NUM - 1 - (s.accepted.length - s.sent.length) := by
    rw [free_desc, h.rptr, h.wptr, h.between.room]
  have hbetween := h.between
  unfold toe_gmac_send
  dsimp only
  split_ifs with hlong hfull
  · exact ⟨(fun _ hs => nomatch hs), iff_of_true rfl (.inl hlong)⟩
  · refine ⟨(fun _ hs => nomatch hs), iff_of_true rfl (.inr ?_)⟩
    have h₁ := hbetween.1
    have h₂ := hbetween.2
    omega
  · have hahead : Ahead s s.swtxq_rwptr := by
      refine ⟨h.wptr, ?_⟩
      have h₁ := hbetween.1
      omega
    refine ⟨fun s' hs => ?_, iff_of_false not_false ?_⟩
    · obtain rfl := Option.some.inj hs
      refine h.go hahead (fun _ _ _ _ _ hd => hd) ?_
      refine ⟨hahead, Nat.le_of_not_lt hlong, Nat.zero_le _, ?_, fun i hi => ?_⟩
      · simp only [Function.update_self]
      · exact absurd hi (Nat.not_lt_zero i)
    · have hlt := hahead.2
      omega

/-- **A step of the function.** -/
theorem TxInv.driver (h : TxInv txbuf s) : TxInv txbuf (toe_gmac_send_on s) := by
  have hright := h.right
  unfold toe_gmac_send_on
  cases hat : s.at_ with
  | out => exact h
  | copying bufp rwptr i =>
    rw [hat] at hright
    obtain ⟨hahead, hfits, hi, hcount, hbytes⟩ := hright
    have hbuf : s.txbuf_ptr rwptr.wptr = tx_buffer txbuf s.accepted.length := by
      rw [hahead.1, h.bufs]
    dsimp only
    -- a byte more is copied, into a buffer that no queued descriptor has
    split_ifs with hmore
    · rw [hbuf]
      have hmem := fun k f d hk hk' (hd : Loaded txbuf s.mem k f d) =>
        hahead.write (hmore.trans_le hfits) (bufp.getD i 0) hk hk' hd
      have hgo := h.go hahead (x := s.swtxq rwptr.wptr) (a := .copying bufp rwptr (i + 1)) hmem
      simp only [Function.update_eq_self] at hgo
      refine hgo ⟨hahead, hfits, hmore, hcount, fun j hj => ?_⟩
      obtain rfl | hlt := Nat.eq_or_lt_of_le (Nat.le_of_lt_succ hj)
      · exact Function.update_self ..
      · exact (Function.update_of_ne (fun heq => hlt.ne (Nat.add_left_cancel heq)) ..).trans
          (hbytes j hlt)
    · obtain rfl : i = bufp.length := by omega
      rw [hbuf]
      refine h.go hahead (fun _ _ _ _ _ hd => hd) ⟨hahead, ?_⟩
      simp only [Function.update_self]
      exact ⟨hcount, rfl, hfits, hbytes⟩
  | ready bufp rwptr =>
    rw [hat] at hright
    obtain ⟨hahead, hload⟩ := hright
    have hbetween := h.between
    -- the frame is behind those that wait, and the pointer goes past it
    have hlast : Queued txbuf s.mem (s.accepted ++ [bufp]) s.accepted.length
        (s.swtxq rwptr.wptr) := ⟨bufp, List.getElem?_concat_length, hload⟩
    refine { h with wptr := ?_, between := ?_, queued := ?_, in_order := ?_, sending := ?_,
                    right := trivial }
    · simp only [hahead.1, RWPTR_ADVANCE_ONE, next_mod tx_num_pos, List.length_append,
        List.length_singleton]
    · have hroom := hahead.2
      simp only [List.length_append, List.length_singleton]
      exact ⟨hbetween.1.trans (Nat.le_succ _), hroom⟩
    · simp only [List.length_append, List.length_singleton]
      have hput := Holds.put (h.queued.imp fun k d _ _ hd => hd.mono [bufp]) hbetween hlast
      rwa [hahead.1, Function.update_eq_self] at hput
    · simp only [List.take_append_of_le_length hbetween.1]
      exact h.in_order
    · intro d bytes hsend
      obtain ⟨f, hf, hrest⟩ := h.sending d bytes hsend
      have hlt := (List.getElem?_eq_some_iff.mp hf).1
      exact ⟨f, by rw [List.getElem?_append_left hlt, hf], hrest⟩

/-! ## The device -/

/-- The device takes up a frame. -/
theorem TxInv.start_frame (h : TxInv txbuf s) (hs : tx_step s .start = some s') :
    TxInv txbuf s' := by
  simp only [tx_step] at hs
  split_ifs at hs with hstart
  obtain rfl := Option.some.inj hs
  have hlt : s.sent.length < s.accepted.length := by
    have hne := hstart.2
    rw [h.rptr, h.wptr, ne_eq, h.between.eq_iff] at hne
    exact lt_of_le_of_ne h.between.1 hne
  obtain ⟨f, hf, hload⟩ := h.queued _ (Nat.le_refl _) hlt
  refine { h with sending := fun d bytes hsend => ⟨f, hf, ?_, ?_⟩ }
  · cases hsend
    rw [h.rptr]
    exact hload
  · cases hsend
    rfl

/-- It reads a byte. -/
theorem TxInv.read (h : TxInv txbuf s) (hs : tx_step s .read = some s') : TxInv txbuf s' := by
  simp only [tx_step] at hs
  split at hs
  case h_2 => cases hs
  rename_i d bytes hsend
  split_ifs at hs with hmore
  obtain rfl := Option.some.inj hs
  obtain ⟨f, hf, hload, hbytes⟩ := h.sending d bytes hsend
  have hlen : bytes.length < f.length := by rwa [← hload.byte_count]
  refine { h with sending := fun d' bytes' hsend' => ?_ }
  cases hsend'
  refine ⟨f, hf, hload, ?_⟩
  rw [List.length_append, List.length_singleton, List.take_add_one, ← hbytes, hload.buf_adr,
    hload.bytes _ hlen, List.getD_eq_getElem?_getD, List.getElem?_eq_getElem hlen]
  rfl

/-- The frame is out. -/
theorem TxInv.finish (h : TxInv txbuf s) (hs : tx_step s .finish = some s') : TxInv txbuf s' := by
  simp only [tx_step] at hs
  split at hs
  case h_2 => cases hs
  rename_i d bytes hsend
  split_ifs at hs with hmore
  obtain rfl := Option.some.inj hs
  obtain ⟨f, hf, hload, hbytes⟩ := h.sending d bytes hsend
  have hlt := (List.getElem?_eq_some_iff.mp hf).1
  have hall : bytes = f := by
    rw [hbytes]
    exact List.take_of_length_le (by rw [← hload.byte_count]; omega)
  have hbetween := h.between
  refine { h with
    rptr := ?_, between := ?_, queued := ?_, in_order := ?_, sending := ?_, right := ?_ }
  · simp only [h.rptr, RWPTR_ADVANCE_ONE, next_mod tx_num_pos, List.length_append,
      List.length_singleton]
  · simp only [List.length_append, List.length_singleton]
    exact ⟨hlt, hbetween.2.trans (by omega)⟩
  · simp only [List.length_append, List.length_singleton]
    exact h.queued.take
  · simp only [List.length_append, List.length_singleton, List.take_add_one, hf, hall]
    rw [← h.in_order]
    rfl
  · intro d' bytes' hsend'
    cases hsend'
  · -- there is still more room than before
    have hright := h.right
    cases hat : s.at_ with
    | copying bufp rwptr i =>
      rw [hat] at hright
      obtain ⟨⟨hwptr, hroom⟩, hrest⟩ := hright
      refine ⟨⟨hwptr, ?_⟩, hrest⟩
      simp only [List.length_append, List.length_singleton]
      omega
    | ready bufp rwptr =>
      rw [hat] at hright
      obtain ⟨⟨hwptr, hroom⟩, hrest⟩ := hright
      refine ⟨⟨hwptr, ?_⟩, hrest⟩
      simp only [List.length_append, List.length_singleton]
      omega
    | out => trivial

/-- **One event**, of the driver or of the device. -/
theorem TxInv.step {e : TxEvent} (h : TxInv txbuf s) (hs : tx_step s e = some s') :
    TxInv txbuf s' := by
  cases e with
  | send bufp =>
    simp only [tx_step] at hs
    split at hs
    · exact (h.send bufp).1 s' hs
    · cases hs
  | driver =>
    obtain rfl := Option.some.inj hs
    exact h.driver
  | start => exact h.start_frame hs
  | read => exact h.read hs
  | finish => exact h.finish hs

theorem TxReaches.inv (hblock : TxBlockFits txbuf) (h : TxReaches txbuf mem s) : TxInv txbuf s :=
  Reaches.invariant (.start hblock mem) (fun _ _ _ hinv _ hs => hinv.step hs) h

end Invariant

/-! ## Every run -/

section Runs

variable {txbuf : ℕ} {s : GmacTx} {mem : ℕ → UInt8}

/-- What was sent is a beginning of what was accepted, and all of it when nothing is waiting;
a call is undefined exactly when the frame is too long or the queue is full. -/
structure SentInOrder (s : GmacTx) : Prop where
  in_order : s.sent <+: s.accepted
  all : s.swtxq_rwptr.rptr = s.swtxq_rwptr.wptr → s.sent = s.accepted
  waiting : s.accepted.length < s.sent.length + TOE_GMAC0_SWTXQ_DESC_NUM
  undefined : ∀ bufp, toe_gmac_send s bufp = none ↔
    GMAC_MAX_ETH_FRAME_SIZE < bufp.length ∨
      s.accepted.length + 1 = s.sent.length + TOE_GMAC0_SWTXQ_DESC_NUM

end Runs

/-! ## One frame -/

theorem tx_block_fits : TxBlockFits 0x100000 := by
  norm_num [TxBlockFits, TOE_GMAC0_SWTXQ_DESC_NUM, MAX_ETH_FRAME_SIZE]

end CsBoot.Gmac
