/-
Short bursts in an image: what `verify_image_file` makes of a file in which two adjacent
bytes behind the header have changed.

The polynomial has its highest term, so that the checksum of what comes behind a burst is
a bijection of the register (`sys_crc16_cancel`); and the register has room for two bytes,
so that the burst itself has changed it (`sys_crc16_pair`). Nothing is assumed about the
image but that it is accepted. One whose payload is a single byte is meant, too: then only
that byte has changed.
-/
import CsBoot.Ui.Crc16

set_option autoImplicit false

namespace CsBoot.Ui

open ByteMem

/-! ## The register -/

section Register

variable {c c' : UInt16} {f g : ℕ → UInt8} {n : ℕ}

/-- One more byte. -/
theorem sys_crc16_succ (c : UInt16) (f : ℕ → UInt8) (n : ℕ) :
    (sys_crc16 c f (n + 1)).toBitVec =
      CrcReflected.feed CCITT_REFLECTED (sys_crc16 c f n).toBitVec (f n).toBitVec :=
  crc16_byte _ _

theorem ccitt_top : CCITT_REFLECTED.getLsbD (16 - 1) = true := by decide

/-- The same bytes leave different registers different. -/
theorem sys_crc16_cancel : sys_crc16 c f n = sys_crc16 c' f n ↔ c = c' := by
  constructor
  · intro h
    induction n with
    | zero => exact h
    | succ n ih =>
      have hbits := congrArg UInt16.toBitVec h
      rw [sys_crc16_succ, sys_crc16_succ] at hbits
      have hinit := CrcReflected.feed_injective ccitt_top (f n).toBitVec hbits
      exact ih (UInt16.toBitVec_inj.mp hinit)
  · rintro rfl
    rfl

/-- Two bytes behind the same beginning are told apart. -/
theorem sys_crc16_pair (hbegin : ∀ i, i < n → f i = g i)
    (h : sys_crc16 c f (n + 2) = sys_crc16 c g (n + 2)) : f n = g n ∧ f (n + 1) = g (n + 1) := by
  have hbits := congrArg UInt16.toBitVec h
  simp only [sys_crc16_succ] at hbits
  rw [sys_crc16_congr c hbegin] at hbits
  obtain ⟨hfst, hsnd⟩ := CrcReflected.feed_pair_injective ccitt_top le_rfl _ hbits
  exact ⟨UInt8.toBitVec_inj.mp hfst, UInt8.toBitVec_inj.mp hsnd⟩

/-- The checksums of two files that differ in two adjacent bytes at most are different, if
the files are. -/
theorem sys_crc16_burst {i : ℕ} (hsame : ∀ j, j ≠ i → j ≠ i + 1 → f j = g j)
    (hinside : ∀ j, n ≤ j → f j = g j) (hin : i < n) (h : sys_crc16 c f n = sys_crc16 c g n) :
    f i = g i ∧ f (i + 1) = g (i + 1) := by
  -- a byte that both have is added, so that there are two at the place of the burst
  have hmore : sys_crc16 c f (n + 1) = sys_crc16 c g (n + 1) := by
    rw [sys_crc16, sys_crc16, h, hinside n le_rfl]
  obtain ⟨r, hr⟩ : ∃ r, n + 1 = i + 2 + r := ⟨n + 1 - (i + 2), by omega⟩
  have hrest : sys_crc16 (sys_crc16 c g (i + 2)) (fun j => g (i + 2 + j)) r =
      sys_crc16 (sys_crc16 c g (i + 2)) (fun j => f (i + 2 + j)) r :=
    sys_crc16_congr _ fun j _ => (hsame _ (by omega) (by omega)).symm
  rw [hr, sys_crc16_add c f (i + 2), sys_crc16_add c g (i + 2), hrest, sys_crc16_cancel] at hmore
  exact sys_crc16_pair (fun j hj => hsame j (by omega) (by omega)) hmore

end Register

/-! ## `verify_image_file` -/

/-- `m'` is the file `m` with a burst at `i`: nothing has changed but the bytes `i` and
`i + 1` of the payload, and one of them has. -/
structure Burst (m m' : ByteMem) (i : ℕ) : Prop where
  confined : ∀ a, a ≠ IMGHDR_SIZE + i → a ≠ IMGHDR_SIZE + (i + 1) → m' a = m a
  inside : ∀ a, m' a ≠ m a → a < IMGHDR_SIZE + load32 m 16
  changed : m' (IMGHDR_SIZE + i) ≠ m (IMGHDR_SIZE + i) ∨
    m' (IMGHDR_SIZE + (i + 1)) ≠ m (IMGHDR_SIZE + (i + 1))

section Verify

variable {m m' : ByteMem} {i : ℕ}

/-- The header is what it was. -/
theorem Burst.header (h : Burst m m' i) {a : ℕ} (ha : a < IMGHDR_SIZE) : m' a = m a :=
  h.confined a (by omega) (by omega)

theorem Burst.has_header (h : Burst m m' i) : has_header m' = has_header m := by
  unfold Ui.has_header
  congr 2
  apply List.map_congr_left
  intro a ha
  have hlen : IMGHDR_NAME.length = 12 := rfl
  rw [List.mem_range, hlen] at ha
  exact h.header (by unfold IMGHDR_SIZE; omega)

theorem Burst.file_size (h : Burst m m' i) : load32 m' 16 = load32 m 16 := by
  have hword : ∀ k, k < 4 → m' ((16 + k) % W) = m ((16 + k) % W) := by
    intro k hk
    have hmod : (16 + k) % W = 16 + k := Nat.mod_eq_of_lt (by unfold W; omega)
    rw [hmod]
    exact h.header (by unfold IMGHDR_SIZE; omega)
  have h0 : m' (16 % W) = m (16 % W) := hword 0 (by omega)
  unfold load32
  rw [h0, hword 1 (by omega), hword 2 (by omega), hword 3 (by omega)]

theorem Burst.hdr_checksum (h : Burst m m' i) : hdr_checksum m' = hdr_checksum m := by
  unfold Ui.hdr_checksum
  rw [h.header (by decide), h.header (by decide)]

/-- The burst begins in the payload. -/
theorem Burst.begins (h : Burst m m' i) : i < load32 m 16 := by
  rcases h.changed with hfst | hsnd
  · have hlt := h.inside _ hfst
    omega
  · have hlt := h.inside _ hsnd
    omega

/-- The checksum of the payload is another one. -/
theorem Burst.checksum (h : Burst m m' i) :
    sys_crc16 0xffff (fun j => m' (IMGHDR_SIZE + j)) (load32 m 16) ≠
      sys_crc16 0xffff (fun j => m (IMGHDR_SIZE + j)) (load32 m 16) := by
  intro hsum
  have hsame : ∀ j, j ≠ i → j ≠ i + 1 → m' (IMGHDR_SIZE + j) = m (IMGHDR_SIZE + j) :=
    fun j hi hi1 => h.confined _ (by omega) (by omega)
  have hbeyond : ∀ j, load32 m 16 ≤ j → m' (IMGHDR_SIZE + j) = m (IMGHDR_SIZE + j) := by
    intro j hj
    by_contra hne
    have hlt := h.inside _ hne
    omega
  obtain ⟨hfst, hsnd⟩ := sys_crc16_burst hsame hbeyond h.begins hsum
  exact h.changed.elim (fun hne => hne hfst) fun hne => hne hsnd

/-- **Short bursts are caught**: an image that is accepted is refused after a burst, with
whatever payload and wherever the burst is. -/
theorem burst_caught (hok : verify_image_file m = 0) (h : Burst m m' i) :
    verify_image_file m' = -1 := by
  unfold verify_image_file at hok ⊢
  rw [h.has_header, h.file_size, h.hdr_checksum]
  cases hhdr : has_header m
  · rw [hhdr] at hok
    cases hok
  · have hsum : hdr_checksum m =
        sys_crc16 0xffff (fun j => m (IMGHDR_SIZE + j)) (load32 m 16) ^^^ 0xffff := by
      by_contra hne
      simp [hhdr, hne] at hok
    have hother : hdr_checksum m ≠
        sys_crc16 0xffff (fun j => m' (IMGHDR_SIZE + j)) (load32 m 16) ^^^ 0xffff := by
      rw [hsum]
      intro heq
      have hflip := congrArg (· ^^^ (0xffff : UInt16)) heq
      simp only [UInt16.xor_assoc, UInt16.xor_self, UInt16.xor_zero] at hflip
      exact h.checksum hflip.symm
    simp [hother]

end Verify

/-- An image of three bytes, in a buffer that is otherwise zero. -/
def three_bytes : ByteMem :=
  received (imghdr_bytes 3 (sys_crc16 0xffff (bufOf [1, 2, 3]) 3 ^^^ 0xffff) ++ [1, 2, 3])
    fun _ => 0

theorem burst_caught_three :
    verify_image_file
      (fun a => if a = 33 then 7 else if a = 34 then 4 else three_bytes a) = -1 := by
  have hsize : load32 three_bytes 16 = 3 := by decide
  have hok : verify_image_file three_bytes = 0 := by decide
  refine burst_caught hok (i := 1) ⟨?_, ?_, ?_⟩
  · intro a h33 h34
    simp only [IMGHDR_SIZE, Nat.reduceAdd] at h33 h34
    simp [h33, h34]
  · intro a hne
    rw [hsize]
    by_contra hge
    simp only [IMGHDR_SIZE] at hge
    simp [show a ≠ 33 by omega, show a ≠ 34 by omega] at hne
  · left
    decide

end CsBoot.Ui
