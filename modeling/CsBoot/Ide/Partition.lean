/-
Requests to a partition, `ide_partition_read_dma` and `ide_partition_write_dma` of
`src/src/ide/ide.c`.

Both add the first sector of the partition to the start of the request and hand it
to the disk. What they check differs: the read only prints a message, and so does
the write with `BOARD_SUPPORT_RAID`, where the `return` is commented out; without it
the write refuses a request. The length is rounded up to sectors by the disk
routine, after the check.

`part_request_contained_iff` says which requests stay inside of the partition.
-/
import CsBoot.Ide.Disk

set_option autoImplicit false

namespace CsBoot.Ide

/-- The fields of `IDE_PART_T` that are not about RAID, and the size that RAID
gives it. -/
structure IDE_PART_T where
  disk : IDE_DISK_T
  start_sector : ℕ
  sector_num : ℕ
  os : ℕ
  rdev_size : ℕ
  start_lt : start_sector < 2 ^ 32
  sector_lt : sector_num < 2 ^ 64

/-- Whether `BOARD_SUPPORT_RAID` is set. -/
inductive Build
  | raid
  | plain
deriving DecidableEq

/-! ## The two functions

The second component says whether the message about the boundary is printed. -/

/-- `ide_partition_read_dma` -/
def ide_partition_read_dma (a : Answers) (part : IDE_PART_T) (start n_byte : ℕ) : Dma × Bool :=
  (ide_disk_read_dma a part.disk ((start + part.start_sector) % 2 ^ 64) n_byte,
    start > part.sector_num)

/-- `ide_partition_write_dma`. The sum in `rdev_size<<1+1` is done before the shift. -/
def ide_partition_write_dma (build : Build) (a : Answers) (part : IDE_PART_T)
    (start n_byte : ℕ) : Dma × Bool :=
  match build with
  | .raid =>
    (ide_disk_write_dma a part.disk ((start + part.start_sector) % 2 ^ 64) n_byte,
      (start + n_byte >>> 9) % 2 ^ 64 > part.rdev_size <<< (1 + 1) % 2 ^ 64)
  | .plain =>
    if (start + n_byte >>> 9) % 2 ^ 64 > part.sector_num then (⟨0, [], none⟩, true)
    else
      (ide_disk_write_dma a part.disk ((start + part.start_sector) % 2 ^ 64) n_byte, false)

/-- A request of either kind. -/
def part_request (build : Build) (write : Bool) (a : Answers) (part : IDE_PART_T)
    (start n_byte : ℕ) : Dma :=
  if write then (ide_partition_write_dma build a part start n_byte).1
  else (ide_partition_read_dma a part start n_byte).1

/-! ## Containment -/

/-- The sectors of the request, the last one perhaps in part, are in the partition. -/
def IDE_PART_T.Fits (part : IDE_PART_T) (start n_byte : ℕ) : Prop :=
  start + (n_byte + 511) / 512 ≤ part.sector_num

/-- Sector `s` of the disk is in the partition. -/
def IDE_PART_T.Owns (part : IDE_PART_T) (s : ℕ) : Prop :=
  part.start_sector ≤ s ∧ s < part.start_sector + part.sector_num

/-- No sector outside of the partition is transferred, and a request that does not
fit is refused: it returns 0 and the drive is not touched. -/
structure Contained (t : TaskFile) (part : IDE_PART_T) (start n_byte : ℕ) (d : Dma) : Prop where
  inside : ∀ c ∈ t.commands d.regs, ∀ s, c.Covers s → part.Owns s
  refused : ¬ part.Fits start n_byte → d.rc = 0 ∧ d.regs = []

/-- The sectors of a disk that the addresses of a DMA command can name: those of a
write on a disk with 48-bit addresses have 32 bits. -/
def named_limit (disk : IDE_DISK_T) (write : Bool) : ℕ :=
  if write then write_dma_limit disk else lba_limit disk

/-- The range that the registers hold is in the partition. The address is cut off at
`named_limit` and the number of sectors at `max_count`, with 0 for the maximum. -/
def IDE_PART_T.OwnsNamed (part : IDE_PART_T) (write : Bool) (start n_byte : ℕ) : Prop :=
  part.start_sector ≤ (start + part.start_sector) % named_limit part.disk write ∧
    (start + part.start_sector) % named_limit part.disk write
        + named_count part.disk ((n_byte + 511) / 512)
      ≤ part.start_sector + part.sector_num

/-- What the check without RAID refuses: whole sectors only, in 64 bits. -/
def IDE_PART_T.Refuses (part : IDE_PART_T) (start n_byte : ℕ) : Prop :=
  part.sector_num < (start + n_byte / 512) % 2 ^ 64

section Partition

variable (t : TaskFile) (a : Answers) (part : IDE_PART_T) {build : Build} {write : Bool}
  {start n_byte : ℕ}

/-- Commands that were not given are contained. -/
theorem contained_nothing {prd : Option ℕ} : Contained t part start n_byte ⟨0, [], prd⟩ :=
  ⟨by simp, fun _ => ⟨rfl, rfl⟩⟩

/-- Near the end of 32 bits the rounding gives 0. The count registers do not tell
that from the true number. -/
theorem named_count_round (disk : IDE_DISK_T) (n_byte : ℕ) :
    named_count disk (round_sectors n_byte / 2 ^ 9) = named_count disk ((n_byte + 511) / 512) := by
  have hmod : ∀ m : ℕ, m ∣ 2 ^ 16 →
      round_sectors n_byte / 2 ^ 9 % m = (n_byte + 511) / 512 % m := by
    intro m hm
    have h16 : round_sectors n_byte / 2 ^ 9 % 2 ^ 16 = (n_byte + 511) / 512 % 2 ^ 16 := by
      unfold round_sectors
      rw [and_1ff]
      split <;> omega
    rw [← Nat.mod_mod_of_dvd _ hm, h16, Nat.mod_mod_of_dvd _ hm]
  unfold named_count
  rw [hmod]
  unfold max_count
  split <;> decide

theorem named_count_pos (disk : IDE_DISK_T) (n : ℕ) : 0 < named_count disk n := by
  apply count_of_pos
  unfold max_count
  split <;> decide

theorem named_limit_dvd (disk : IDE_DISK_T) (w : Bool) : named_limit disk w ∣ 2 ^ 64 := by
  unfold named_limit write_dma_limit lba_limit
  split <;> split <;> decide

/-- A drive that is not ready is left alone. -/
theorem part_request_busy (ha : a.ready = false) :
    part_request build write a part start n_byte = ⟨0, [], none⟩ := by
  have hread : ∀ s, ide_disk_read_dma a part.disk s n_byte = ⟨0, [], none⟩ := by
    intro s
    simp [ide_disk_read_dma, ha]
  have hwrite : ∀ s, ide_disk_write_dma a part.disk s n_byte = ⟨0, [], none⟩ := by
    intro s
    simp [ide_disk_write_dma, ha]
  unfold part_request ide_partition_write_dma ide_partition_read_dma
  cases write with
  | false => exact hread _
  | true =>
    cases build with
    | raid => exact hwrite _
    | plain =>
      simp only [hwrite, if_true]
      split <;> rfl

/-- A request that is not refused gives the drive one command. -/
theorem commands_part_request (ha : a.ready = true)
    (hr : ¬ (build = .plain ∧ write = true ∧ part.Refuses start n_byte)) :
    t.commands (part_request build write a part start n_byte).regs =
      [⟨write, (start + part.start_sector) % named_limit part.disk write,
        named_count part.disk ((n_byte + 511) / 512)⟩] := by
  have hcut := Nat.mod_mod_of_dvd (start + part.start_sector) (named_limit_dvd part.disk write)
  rw [← hcut, ← named_count_round part.disk n_byte]
  cases write with
  | false => exact commands_read_dma t part.disk _ ha n_byte
  | true =>
    have hcall : part_request build true a part start n_byte =
        ide_disk_write_dma a part.disk ((start + part.start_sector) % 2 ^ 64) n_byte := by
      cases build with
      | raid => rfl
      | plain =>
        have hpass : ¬ (start + n_byte >>> 9) % 2 ^ 64 > part.sector_num := by
          simpa [IDE_PART_T.Refuses, Nat.shiftRight_eq_div_pow] using hr
        simp only [part_request, ide_partition_write_dma, if_true, if_neg hpass]
    rw [hcall]
    exact commands_write_dma t part.disk _ ha n_byte

/-- A request that gives the drive one command is contained exactly when it fits and
the command is inside. -/
theorem contained_one_iff {d : Dma} {w : Bool} {first cnt : ℕ}
    (hc : t.commands d.regs = [⟨w, first, cnt⟩]) (hcnt : 0 < cnt) :
    Contained t part start n_byte d ↔
      part.Fits start n_byte ∧ part.start_sector ≤ first ∧
        first + cnt ≤ part.start_sector + part.sector_num := by
  have hsome : d.regs ≠ [] := by
    intro h
    rw [h] at hc
    simp at hc
  constructor
  · intro h
    have hin : ∀ s, first ≤ s ∧ s < first + cnt → part.Owns s := by
      intro s hs
      exact h.inside ⟨w, first, cnt⟩ (by rw [hc]; exact List.mem_singleton_self _) s hs
    refine ⟨?_, (hin first ⟨le_refl _, by omega⟩).1, ?_⟩
    · by_contra hf
      exact hsome (h.refused hf).2
    · have hlast := (hin (first + cnt - 1) ⟨by omega, by omega⟩).2
      omega
  · rintro ⟨hf, hlo, hhi⟩
    refine ⟨?_, fun h => absurd hf h⟩
    intro c hmem s hs
    rw [hc, List.mem_singleton] at hmem
    rw [hmem] at hs
    exact ⟨le_trans hlo hs.1, lt_of_lt_of_le hs.2 hhi⟩

/-- **A request stays inside of its partition exactly when the drive is not ready,
or the check refuses it (a write without RAID), or it fits and the range that is left
of it in the registers is in the partition.** -/
theorem part_request_contained_iff (build : Build) (write : Bool) (start n_byte : ℕ) :
    Contained t part start n_byte (part_request build write a part start n_byte) ↔
      a.ready = false ∨
      (build = .plain ∧ write = true ∧ part.Refuses start n_byte) ∨
      (part.Fits start n_byte ∧ part.OwnsNamed write start n_byte) := by
  by_cases hr : build = .plain ∧ write = true ∧ part.Refuses start n_byte
  · obtain ⟨rfl, rfl, hr⟩ := hr
    have hcall : part_request .plain true a part start n_byte = ⟨0, [], none⟩ := by
      have htest : (start + n_byte >>> 9) % 2 ^ 64 > part.sector_num := by
        simpa [IDE_PART_T.Refuses, Nat.shiftRight_eq_div_pow] using hr
      simp only [part_request, ide_partition_write_dma, if_true, if_pos htest]
    simp [hcall, contained_nothing, hr]
  by_cases ha : a.ready = true
  · have hcnt := named_count_pos part.disk ((n_byte + 511) / 512)
    rw [contained_one_iff t part (commands_part_request t a part ha hr) hcnt]
    simp [ha, hr, IDE_PART_T.OwnsNamed]
  · have hbusy : a.ready = false := by simpa using ha
    rw [part_request_busy a part hbusy]
    simp [contained_nothing, hbusy]

/-- In a partition that the addresses reach, a request of at least one sector and not
too many for one command has to fit, and nothing else. -/
theorem ownsNamed_of_fits
    (hreach : part.start_sector + part.sector_num ≤ named_limit part.disk write)
    (h₀ : 0 < n_byte) (hmax : (n_byte + 511) / 512 ≤ max_count part.disk)
    (hf : part.Fits start n_byte) : part.OwnsNamed write start n_byte := by
  unfold IDE_PART_T.Fits at hf
  have hcount := named_count_of_le part.disk (n := (n_byte + 511) / 512) (by omega) hmax
  have hfirst : (start + part.start_sector) % named_limit part.disk write =
      start + part.start_sector := Nat.mod_eq_of_lt (by omega)
  unfold IDE_PART_T.OwnsNamed
  rw [hcount, hfirst]
  omega

end Partition

/-- A hundred sectors from the sector 63 on. -/
def small_part : IDE_PART_T := ⟨⟨0, true⟩, 63, 100, 0x83, 0, by decide, by decide⟩

/-- One byte written behind the last sector passes the check, and the sector behind
the partition is written. The same happens with a whole sector where the check only
prints, and to reads. -/
theorem part_request_not_contained :
    cleared.commands (part_request .plain true answering small_part 100 1).regs =
        [⟨true, 163, 1⟩] ∧
      ¬ Contained cleared small_part 100 1 (part_request .plain true answering small_part 100 1) ∧
      ¬ Contained cleared small_part 100 512
        (part_request .raid true answering small_part 100 512) ∧
      ¬ Contained cleared small_part 100 512
        (part_request .raid false answering small_part 100 512) := by
  have hin : ∀ {n_byte} {w : Bool} {d : Dma},
      cleared.commands d.regs = [⟨w, 163, 1⟩] → ¬ Contained cleared small_part 100 n_byte d := by
    intro n_byte w d hd h
    have := (contained_one_iff cleared small_part hd Nat.one_pos).mp h
    exact absurd this.2.2 (by decide)
  have hplain : cleared.commands (part_request .plain true answering small_part 100 1).regs =
      [⟨true, 163, 1⟩] := by decide
  have hwrite : cleared.commands (part_request .raid true answering small_part 100 512).regs =
      [⟨true, 163, 1⟩] := by decide
  have hread : cleared.commands (part_request .raid false answering small_part 100 512).regs =
      [⟨false, 163, 1⟩] := by decide
  exact ⟨hplain, hin hplain, hin hwrite, hin hread⟩

end CsBoot.Ide
