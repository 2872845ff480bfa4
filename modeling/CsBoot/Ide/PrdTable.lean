/-
The descriptor table of a DMA transfer, `ide_build_prd` of `src/src/ide/ide.c`.

An entry has two words: an address, and the number of bytes in its low half with the
end flag as its highest bit. Zero in the low half stands for 64 KB, and that is how the
loop writes a piece of 64 KB, as `0x0000` when more follows and as `0x10000` when it is
the last one. The loop runs until the length is used up, without a look at how many
entries the table has room for.
-/
import CsBoot.Lib.ByteMem
import CsBoot.Ide.RwXlat

set_option autoImplicit false

namespace CsBoot.Ide

open ByteMem

def MAX_PRD : ℕ := 16

/-- The bytes of the largest piece. -/
def PRD_PIECE : ℕ := 0x10000

/-- An entry of the table. -/
structure Prd where
  phy : ℕ
  cnt : ℕ
  deriving DecidableEq

/-- `ADD_PRD_ENTRY` -/
def add_prd_entry (phy cnt eot : ℕ) : Prd := ⟨phy % W, cnt ||| eot <<< 31⟩

/-- The number of bytes that the controller takes from an entry. -/
def Prd.size (e : Prd) : ℕ := if e.cnt % 2 ^ 16 = 0 then PRD_PIECE else e.cnt % 2 ^ 16

/-- The end flag. -/
def Prd.eot (e : Prd) : Bool := e.cnt.testBit 31

/-- `ide_build_prd`: the entries that it writes, one behind the other. -/
def ide_build_prd (buff length : ℕ) : List Prd :=
  if _h : length = 0 then []
  else if 0x10000 < length then
    add_prd_entry buff 0x0000 0 :: ide_build_prd (buff + 0x10000) (length - 0x10000)
  else [add_prd_entry buff length 1]
termination_by length

/-! ## What a table describes -/

/-- The bytes that the first `k` entries describe. -/
def prd_bytes (l : List Prd) (k : ℕ) : ℕ := ((l.take k).map Prd.size).sum

/-- The entries describe the buffer: each piece begins where the one before it ends, all
of them together are as long as the buffer, and the end flag is on the last one. -/
structure Describes (l : List Prd) (buff length : ℕ) : Prop where
  contiguous : ∀ k e, l[k]? = some e → e.phy = (buff + prd_bytes l k) % W
  sum : prd_bytes l l.length = length
  ends : ∀ k e, l[k]? = some e → (e.eot = true ↔ k + 1 = l.length)

/-- The table describes the buffer, and is no longer than the memory it is in. -/
def PrdExact (buff length : ℕ) : Prop :=
  Describes (ide_build_prd buff length) buff length ∧
    (ide_build_prd buff length).length ≤ MAX_PRD

section Entries

variable {buff length : ℕ} {l : List Prd} {e : Prd}

theorem piece_size (phy : ℕ) : (add_prd_entry phy 0x0000 0).size = PRD_PIECE := rfl

theorem piece_eot (phy : ℕ) : (add_prd_entry phy 0x0000 0).eot = false := by
  simp [add_prd_entry, Prd.eot]

/-- The flag does not touch the low half of the word. -/
theorem last_cnt (h : length ≤ PRD_PIECE) :
    (add_prd_entry buff length 1).cnt = length + 2 ^ 31 := by
  have hlt : length < 2 ^ 31 := by
    unfold PRD_PIECE at h
    omega
  have hor := Nat.two_pow_add_eq_or_of_lt hlt 1
  rw [Nat.mul_one] at hor
  change length ||| 1 <<< 31 = length + 2 ^ 31
  rw [Nat.add_comm, hor, Nat.or_comm]
  rfl

theorem last_size (h0 : 0 < length) (h : length ≤ PRD_PIECE) :
    (add_prd_entry buff length 1).size = length := by
  unfold Prd.size
  rw [last_cnt h]
  unfold PRD_PIECE at *
  split_ifs <;> omega

theorem last_eot (h : length ≤ PRD_PIECE) : (add_prd_entry buff length 1).eot = true := by
  have hlt : length < 2 ^ 31 := by
    unfold PRD_PIECE at h
    omega
  unfold Prd.eot
  rw [last_cnt h, Nat.add_comm, Nat.testBit_two_pow_add_eq, Nat.testBit_lt_two_pow hlt]
  rfl

theorem prd_bytes_cons (k : ℕ) : prd_bytes (e :: l) (k + 1) = e.size + prd_bytes l k := by
  unfold prd_bytes
  rw [List.take_succ_cons, List.map_cons, List.sum_cons]

/-- One entry in front of a table that describes the rest. -/
theorem Describes.cons (hl : l ≠ []) (hphy : e.phy = buff % W) (heot : e.eot = false)
    (h : Describes l (buff + e.size) length) : Describes (e :: l) buff (e.size + length) where
  contiguous k e' hk := by
    cases k with
    | zero =>
        obtain rfl : e = e' := Option.some.inj hk
        exact hphy
    | succ k =>
        rw [prd_bytes_cons, ← Nat.add_assoc]
        exact h.contiguous k e' hk
  sum := by
    rw [List.length_cons, prd_bytes_cons, h.sum]
  ends k e' hk := by
    have hpos := List.length_pos_of_ne_nil hl
    rw [List.length_cons]
    cases k with
    | zero =>
        obtain rfl : e = e' := Option.some.inj hk
        exact iff_of_false (by rw [heot]; exact Bool.false_ne_true) (by omega)
    | succ k =>
        rw [Nat.add_right_cancel_iff]
        exact h.ends k e' hk

/-- A table of one entry. -/
theorem Describes.last (h0 : 0 < length) (h : length ≤ PRD_PIECE) :
    Describes [add_prd_entry buff length 1] buff length where
  contiguous k e' hk := by
    cases k with
    | zero =>
        obtain rfl := Option.some.inj hk
        rfl
    | succ k => cases hk
  sum := by
    change (add_prd_entry buff length 1).size + 0 = length
    rw [last_size h0 h, Nat.add_zero]
  ends k e' hk := by
    cases k with
    | zero =>
        obtain rfl := Option.some.inj hk
        exact iff_of_true (last_eot h) rfl
    | succ k => cases hk

end Entries

/-! ## The loop -/

theorem ide_build_prd_more {buff length : ℕ} (h : PRD_PIECE < length) :
    ide_build_prd buff length =
      add_prd_entry buff 0x0000 0 :: ide_build_prd (buff + PRD_PIECE) (length - PRD_PIECE) := by
  have hlit : 0x10000 < length := h
  rw [ide_build_prd, dif_neg (by omega), if_pos hlit]
  rfl

theorem ide_build_prd_last {buff length : ℕ} (h0 : 0 < length) (h : length ≤ PRD_PIECE) :
    ide_build_prd buff length = [add_prd_entry buff length 1] := by
  have hlit : ¬0x10000 < length := not_lt.mpr h
  rw [ide_build_prd, dif_neg (by omega), if_neg hlit]

/-- The entries describe the buffer, however long it is, and there is one for each piece
of 64 KB, the last of which may be shorter. -/
theorem ide_build_prd_spec (buff : ℕ) {length : ℕ} (h0 : 0 < length) :
    Describes (ide_build_prd buff length) buff length ∧
      (ide_build_prd buff length).length = (length + (PRD_PIECE - 1)) / PRD_PIECE := by
  have hpos : 0 < PRD_PIECE := by decide
  induction length using Nat.strong_induction_on generalizing buff with
  | _ length ih =>
    by_cases h : PRD_PIECE < length
    · obtain ⟨m, rfl⟩ := Nat.exists_eq_add_of_lt h
      have hrest : PRD_PIECE + m + 1 - PRD_PIECE = m + 1 := by omega
      obtain ⟨hdesc, hlen⟩ := ih (m + 1) (by omega) (buff + PRD_PIECE) (Nat.succ_pos m)
      rw [ide_build_prd_more h, hrest]
      constructor
      · have hne : ide_build_prd (buff + PRD_PIECE) (m + 1) ≠ [] := by
          intro hnil
          have hsum := hdesc.sum
          rw [hnil] at hsum
          exact Nat.succ_ne_zero m hsum.symm
        have hcons := Describes.cons hne rfl (piece_eot buff) hdesc
        rw [piece_size, ← Nat.add_assoc] at hcons
        exact hcons
      · rw [List.length_cons, hlen]
        unfold PRD_PIECE
        omega
    · have hle : length ≤ PRD_PIECE := not_lt.mp h
      rw [ide_build_prd_last h0 hle]
      refine ⟨.last h0 hle, ?_⟩
      rw [List.length_singleton]
      unfold PRD_PIECE at *
      omega

/-- **The tables of all requests.** Between 1 and 65536 sectors the entries always
describe the buffer, but they fit into the table for 2048 sectors at most. -/
theorem prd_exact_iff (buff : ℕ) {n_block : ℕ} (h0 : 0 < n_block) (_h : n_block ≤ 65536) :
    PrdExact buff (n_block * 512) ↔ n_block ≤ 2048 := by
  obtain ⟨hdesc, hlen⟩ := ide_build_prd_spec buff (show 0 < n_block * 512 by omega)
  have hcount : (ide_build_prd buff (n_block * 512)).length ≤ MAX_PRD ↔ n_block ≤ 2048 := by
    rw [hlen]
    unfold PRD_PIECE MAX_PRD
    omega
  unfold PrdExact
  exact ⟨fun h => hcount.mp h.2, fun h => ⟨hdesc, hcount.mpr h⟩⟩

/-- Three entries, the last of them for less than a piece. -/
theorem prd_exact_iff_three :
    (ide_build_prd 0x100000 (300 * 512)).map Prd.size = [0x10000, 0x10000, 0x5800] ∧
      PrdExact 0x100000 (300 * 512) := by
  refine ⟨?_, (prd_exact_iff 0x100000 (by decide) (by decide)).mpr (by decide)⟩
  rw [ide_build_prd_more (by decide), ide_build_prd_more (by decide),
    ide_build_prd_last (by decide) (by decide)]
  decide

/-- A `READ_10` of 2049 sectors. -/
def read_2049 : ℕ → UInt8 := fun i => [0x28, 0, 0, 0, 0, 0, 0, 8, 1].getD i 0

/-- It is carried out, and needs a seventeenth entry. -/
theorem prd_table_overrun :
    ata_scsi_rw_xlat read_2049 = .read 0 (2049 * 512) ∧ ¬ PrdExact 0 (2049 * 512) := by
  refine ⟨by decide, fun h => ?_⟩
  obtain ⟨-, hlen⟩ := ide_build_prd_spec 0 (show 0 < 2049 * 512 by decide)
  exact absurd (hlen ▸ h.2) (by decide)

end CsBoot.Ide
