/-
The header of boot images: `src/tools/sl_imghdr/sl_imghdr.c`, which puts it in front of
a file, against `verify_image_file`, which checks it.

The tool is a program of the host. It reads the file in pieces of 32 kilobytes and
carries the checksum from one to the next; the boot loader computes it at once, over
as many bytes as the header says. How many bytes were received is not looked at.

The header is laid out for the 32-bit target, with `unsigned long` of four bytes, and
the lowest byte first.
-/
import Mathlib.Data.List.GetD
import CsBoot.Ui.Upgrade

set_option autoImplicit false

namespace CsBoot.Ui

open ByteMem

/-! ## The tool -/

def BUF_SIZE : ℕ := 32 * 1024
def IMGHDR_NAME_SIZE : ℕ := 16

/-- A list of bytes as the buffer it fills. -/
def bufOf (l : List UInt8) : ℕ → UInt8 := fun i => l.getD i 0

/-- The loop over the file with at most `n` calls of `fread`, one of which returns 0. -/
def imghdr_crc16 : ℕ → UInt16 → List UInt8 → UInt16
  | 0, crc16, _ => crc16
  | n + 1, crc16, file =>
    if (file.take BUF_SIZE).length = 0 then crc16
    else
      imghdr_crc16 n (sys_crc16 crc16 (bufOf (file.take BUF_SIZE)) (file.take BUF_SIZE).length)
        (file.drop BUF_SIZE)

/-- The fields of `IMGHDR_T` in memory. -/
def imghdr_bytes (file_size : ℕ) (checksum : UInt16) : List UInt8 :=
  IMGHDR_NAME ++ List.replicate (IMGHDR_NAME_SIZE - IMGHDR_NAME.length) (0 : UInt8) ++
    [UInt8.ofNat file_size, UInt8.ofNat (file_size / 2 ^ 8), UInt8.ofNat (file_size / 2 ^ 16),
      UInt8.ofNat (file_size / 2 ^ 24)] ++
    List.replicate (IMGHDR_SIZE - IMGHDR_NAME_SIZE - 4 - 2) (0 : UInt8) ++
    [checksum.toUInt8, (checksum >>> 8).toUInt8]

/-- `main`: the output file, unless the input is empty. -/
def sl_imghdr (file : List UInt8) : Option (List UInt8) :=
  if file.length = 0 then none
  else
    let crc16 := imghdr_crc16 (file.length + 1) 0xffff file
    some (imghdr_bytes file.length (crc16 ^^^ 0xffff) ++ file)

/-! ## The checksum in pieces -/

theorem sys_crc16_congr {f g : ℕ → UInt8} (crc : UInt16) {n : ℕ} (h : ∀ i, i < n → f i = g i) :
    sys_crc16 crc f n = sys_crc16 crc g n := by
  induction n with
  | zero => rfl
  | succ n ih =>
    simp only [sys_crc16, ih fun i hi => h i (by omega), h n (by omega)]

/-- The checksum of two pieces, one after the other. -/
theorem sys_crc16_add (crc : UInt16) (f : ℕ → UInt8) (m n : ℕ) :
    sys_crc16 crc f (m + n) = sys_crc16 (sys_crc16 crc f m) (fun i => f (m + i)) n := by
  induction n with
  | zero => rfl
  | succ n ih =>
    rw [← Nat.add_assoc, sys_crc16, sys_crc16, ih]

theorem bufOf_drop (l : List UInt8) (n i : ℕ) : bufOf (l.drop n) i = bufOf l (n + i) := by
  simp [bufOf, List.getD_eq_getElem?_getD, List.getElem?_drop]

theorem bufOf_take {l : List UInt8} {n i : ℕ} (h : i < n) : bufOf (l.take n) i = bufOf l i := by
  simp [bufOf, List.getD_eq_getElem?_getD, h]

/-- The loop computes the checksum of the file at once, with enough calls. -/
theorem imghdr_crc16_eq (n : ℕ) (crc : UInt16) (file : List UInt8) (h : file.length < n) :
    imghdr_crc16 n crc file = sys_crc16 crc (bufOf file) file.length := by
  induction n generalizing crc file with
  | zero => omega
  | succ n ih =>
    have htake : (file.take BUF_SIZE).length = min BUF_SIZE file.length := List.length_take
    have hdrop : (file.drop BUF_SIZE).length = file.length - BUF_SIZE := List.length_drop
    have hpos : 0 < BUF_SIZE := by decide
    unfold imghdr_crc16
    by_cases hnil : (file.take BUF_SIZE).length = 0
    · have hlen : file.length = 0 := by omega
      rw [if_pos hnil, hlen]
      rfl
    · rw [if_neg hnil, ih _ _ (by omega), htake, hdrop]
      have hsplit : file.length = min BUF_SIZE file.length + (file.length - BUF_SIZE) := by omega
      conv_rhs => rw [hsplit, sys_crc16_add]
      have hfirst : sys_crc16 crc (bufOf (file.take BUF_SIZE)) (min BUF_SIZE file.length) =
          sys_crc16 crc (bufOf file) (min BUF_SIZE file.length) := by
        apply sys_crc16_congr
        intro i hi
        exact bufOf_take (by omega)
      rw [hfirst]
      apply sys_crc16_congr
      intro i hi
      rw [bufOf_drop, Nat.min_eq_left (by omega)]

/-! ## What the boot loader reads -/

/-- A 16-bit number is made of its bytes. -/
theorem checksum_bytes (x : UInt16) :
    x.toUInt8.toUInt16 ||| (x >>> 8).toUInt8.toUInt16 <<< 8 = x := by
  apply UInt16.toNat_inj.mp
  have hlt := x.toNat_lt
  have hor := Nat.shiftLeft_add_eq_or_of_lt (show x.toNat % 2 ^ 8 < 2 ^ 8 by omega)
    (x.toNat / 2 ^ 8 % 2 ^ 8)
  have h8 : UInt16.toNat 8 % 16 = 8 := by decide
  simp only [UInt16.toNat_or, UInt16.toNat_shiftLeft, UInt8.toNat_toUInt16, UInt16.toNat_toUInt8,
    UInt16.toNat_shiftRight, Nat.shiftRight_eq_div_pow, h8, Nat.shiftLeft_eq] at hor ⊢
  rw [Nat.or_comm, Nat.mod_eq_of_lt (show x.toNat / 2 ^ 8 % 2 ^ 8 * 2 ^ 8 < 2 ^ 16 by omega), ← hor]
  omega

/-- A file in the download buffer, with whatever is behind it. -/
def received (file : List UInt8) (rest : ByteMem) : ByteMem := fun i =>
  if h : i < file.length then file[i] else rest i

section Header

variable (file_size : ℕ) (checksum : UInt16) (p : List UInt8) (rest : ByteMem)

theorem imghdr_bytes_length : (imghdr_bytes file_size checksum).length = IMGHDR_SIZE := rfl

theorem received_header {i : ℕ} (hi : i < IMGHDR_SIZE) :
    received (imghdr_bytes file_size checksum ++ p) rest i =
      (imghdr_bytes file_size checksum).getD i 0 := by
  have hlen := imghdr_bytes_length file_size checksum
  unfold received
  rw [dif_pos (by rw [List.length_append, hlen]; omega), List.getElem_append_left (by omega),
    List.getD_eq_getElem _ _ (by omega)]

/-- The name is there. -/
theorem received_has_header :
    has_header (received (imghdr_bytes file_size checksum ++ p) rest) = true := by
  have hname : (List.range IMGHDR_NAME.length).map
      (received (imghdr_bytes file_size checksum ++ p) rest) =
      (List.range IMGHDR_NAME.length).map fun i => (imghdr_bytes file_size checksum).getD i 0 := by
    apply List.map_congr_left
    intro i hi
    have hlen : IMGHDR_NAME.length = 12 := rfl
    rw [List.mem_range, hlen] at hi
    exact received_header _ _ _ _ (by unfold IMGHDR_SIZE; omega)
  unfold has_header
  rw [hname, decide_eq_true_eq]
  rfl

/-- The size is read back, when it has 32 bits. -/
theorem received_file_size (h : file_size < 2 ^ 32) :
    load32 (received (imghdr_bytes file_size checksum ++ p) rest) 16 = file_size := by
  have hget : ∀ i, i < 4 → received (imghdr_bytes file_size checksum ++ p) rest ((16 + i) % W) =
      (imghdr_bytes file_size checksum).getD (16 + i) 0 := by
    intro i hi
    have hmod : (16 + i) % W = 16 + i := Nat.mod_eq_of_lt (by unfold W; omega)
    rw [hmod, received_header _ _ _ _ (by unfold IMGHDR_SIZE; omega)]
  have h0 : (imghdr_bytes file_size checksum).getD 16 0 = UInt8.ofNat file_size := rfl
  have h1 : (imghdr_bytes file_size checksum).getD 17 0 = UInt8.ofNat (file_size / 2 ^ 8) := rfl
  have h2 : (imghdr_bytes file_size checksum).getD 18 0 = UInt8.ofNat (file_size / 2 ^ 16) := rfl
  have h3 : (imghdr_bytes file_size checksum).getD 19 0 = UInt8.ofNat (file_size / 2 ^ 24) := rfl
  have hload : load32 (received (imghdr_bytes file_size checksum ++ p) rest) 16 =
      (UInt8.ofNat file_size).toNat + 256 * (UInt8.ofNat (file_size / 2 ^ 8)).toNat
        + 65536 * (UInt8.ofNat (file_size / 2 ^ 16)).toNat
        + 16777216 * (UInt8.ofNat (file_size / 2 ^ 24)).toNat := by
    rw [← h0, ← h1, ← h2, ← h3]
    unfold load32
    rw [hget 1 (by omega), hget 2 (by omega), hget 3 (by omega)]
    exact congrArg (fun b : UInt8 => b.toNat + _ + _ + _) (hget 0 (by omega))
  rw [hload]
  simp only [UInt8.toNat_ofNat']
  omega

theorem received_checksum :
    hdr_checksum (received (imghdr_bytes file_size checksum ++ p) rest) = checksum := by
  unfold hdr_checksum
  rw [received_header _ _ _ _ (by decide), received_header _ _ _ _ (by decide)]
  exact checksum_bytes checksum

/-- Behind the header is the file. -/
theorem received_payload {i : ℕ} (hi : i < p.length) :
    received (imghdr_bytes file_size checksum ++ p) rest (IMGHDR_SIZE + i) = bufOf p i := by
  have hlen := imghdr_bytes_length file_size checksum
  unfold received bufOf
  rw [dif_pos (by rw [List.length_append, hlen]; omega), List.getElem_append_right (by omega),
    List.getD_eq_getElem _ _ hi]
  congr 1
  omega

end Header

/-- An image of the tool is accepted. -/
theorem verify_sl_imghdr {p out : List UInt8} (h : sl_imghdr p = some out) (hp : p.length < 2 ^ 32)
    (rest : ByteMem) : verify_image_file (received out rest) = 0 := by
  unfold sl_imghdr at h
  split at h
  case isTrue => simp at h
  case isFalse =>
    simp only [Option.some.injEq] at h
    rw [← h]
    unfold verify_image_file
    rw [received_has_header, received_file_size _ _ _ _ hp, received_checksum,
      imghdr_crc16_eq _ _ _ (Nat.lt_succ_self _)]
    have hcrc : sys_crc16 0xffff (fun i => received (imghdr_bytes p.length
          (sys_crc16 0xffff (bufOf p) p.length ^^^ 0xffff) ++ p) rest (IMGHDR_SIZE + i)) p.length =
        sys_crc16 0xffff (bufOf p) p.length :=
      sys_crc16_congr _ fun i hi => received_payload _ _ _ _ hi
    simp only [hcrc, Bool.not_true, Bool.false_eq_true, if_false, if_true]

/-! ## Agreement -/

/-- The tool and the boot loader agree: images of the tool are accepted, and of what is
accepted the header has the size, and the checksum is over bytes that were received. -/
structure HeadersAgree (p : List UInt8) (rest : ByteMem) (u : Upload) : Prop where
  accepts : ∀ out, sl_imghdr p = some out → verify_image_file (received out rest) = 0
  size : verify_image_file u.filep = 0 → (load32 u.filep 16 : ℤ) = u.got_size - IMGHDR_SIZE
  inside : verify_image_file u.filep = 0 → (IMGHDR_SIZE : ℤ) + load32 u.filep 16 ≤ u.got_size

/-- **The headers agree exactly when the upload has no header, or the size in its header
is right, or its checksum is wrong over the number of bytes that the header says.** -/
theorem headers_agree_iff (p : List UInt8) (rest : ByteMem) (u : Upload) (hp : p.length < 2 ^ 32) :
    HeadersAgree p rest u ↔
      has_header u.filep = false ∨
      (load32 u.filep 16 : ℤ) = u.got_size - IMGHDR_SIZE ∨
      hdr_checksum u.filep ≠
        sys_crc16 0xffff (fun i => u.filep (IMGHDR_SIZE + i)) (load32 u.filep 16) ^^^ 0xffff := by
  -- a header passes with a checksum over as many bytes as it says itself
  have hzero : verify_image_file u.filep = 0 ↔
      has_header u.filep = true ∧ hdr_checksum u.filep =
        sys_crc16 0xffff (fun i => u.filep (IMGHDR_SIZE + i)) (load32 u.filep 16) ^^^ 0xffff := by
    unfold verify_image_file
    by_cases hh : has_header u.filep = true
    · simp only [hh, Bool.not_true, Bool.false_eq_true, if_false, true_and]
      split <;> simp_all
    · simp [hh]
  constructor
  · intro h
    by_cases hh : has_header u.filep = true
    · by_cases hc : hdr_checksum u.filep =
          sys_crc16 0xffff (fun i => u.filep (IMGHDR_SIZE + i)) (load32 u.filep 16) ^^^ 0xffff
      · exact .inr (.inl (h.size (hzero.mpr ⟨hh, hc⟩)))
      · exact .inr (.inr hc)
    · exact .inl (by simpa using hh)
  · intro h
    have hsize : verify_image_file u.filep = 0 →
        (load32 u.filep 16 : ℤ) = u.got_size - IMGHDR_SIZE := by
      intro hv
      obtain ⟨hh, hc⟩ := hzero.mp hv
      rcases h with h | h | h
      · simp [hh] at h
      · exact h
      · exact absurd hc h
    refine ⟨fun out hout => verify_sl_imghdr hout hp rest, hsize, fun hv => ?_⟩
    have := hsize hv
    omega

/-- A file that consists of the name and zeros. -/
def zero_sized : Upload := ⟨bufOf IMGHDR_NAME, 100, by decide, by decide⟩

theorem headers_agree_iff_zero_sized :
    HeadersAgree [1, 2, 3] (fun _ => 0) zero_sized ↔
      has_header zero_sized.filep = false ∨
      (load32 zero_sized.filep 16 : ℤ) = zero_sized.got_size - IMGHDR_SIZE ∨
      hdr_checksum zero_sized.filep ≠ sys_crc16 0xffff
        (fun i => zero_sized.filep (IMGHDR_SIZE + i)) (load32 zero_sized.filep 16) ^^^ 0xffff :=
  headers_agree_iff [1, 2, 3] (fun _ => 0) zero_sized (by decide)

/-- It is accepted, with 68 bytes behind its header that no checksum covers. -/
theorem zero_sized_accepted :
    verify_image_file zero_sized.filep = 0 ∧ ¬ HeadersAgree [] (fun _ => 0) zero_sized := by
  have hv : verify_image_file zero_sized.filep = 0 := by decide
  refine ⟨hv, fun h => ?_⟩
  have hsize := h.size hv
  have hload : load32 zero_sized.filep 16 = 0 := by decide
  rw [hload] at hsize
  simp [zero_sized, IMGHDR_SIZE] at hsize

end CsBoot.Ui
