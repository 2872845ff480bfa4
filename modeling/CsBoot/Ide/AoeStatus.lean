/-
What the reply to an ATA packet says of the sectors: the status that `aoe_ata_pkt` puts
where the command was.

`aoe_getsec` and `aoe_putsec` do report a failure, and `aoe_ata_cmd` sets the error bit
for it, but then gives the registers of a command that went well. A failed `IDENTIFY
DEVICE` is reported by `BSY` alone, and `FLUSH CACHE` returns with whatever was on the
stack.
-/
import CsBoot.Ide.Aoe

set_option autoImplicit false

namespace CsBoot.Ide

/-! ## The sectors of a command -/

section Sectors

variable (aoe_p : AOE_INFO_T) (e : AoeMeets) (mem : ℕ → UInt8)

/-- The sectors of a read at `lba` all came. -/
def ReadDone (lba : ℕ) : Prop :=
  (ide_disk_read_sectors (e.calls 0) aoe_p.disk lba (pkt_sectors mem)).sectors = pkt_sectors mem

/-- The sectors of a write at `lba`, a call of `disk->write` for each, all went. -/
def WriteDone (lba : ℕ) : Prop :=
  ∀ k, k < pkt_sectors mem →
    (ide_disk_write_sectors (e.calls k) aoe_p.disk ((lba + k) % 2 ^ 64)).sectors = 1

/-- What a packet asks for was transferred. For `IDENTIFY DEVICE` that is one sector,
and `FLUSH CACHE` asks for none; a command that is not known is refused. -/
def Transferred : Prop :=
  match pkt_lba mem with
  | some v =>
    let lba := (v + aoe_p.part.start_sector) % 2 ^ 64
    (AtaRead (pkt_cmd mem) → ReadDone aoe_p e mem lba) ∧
      (AtaWrite (pkt_cmd mem) → WriteDone aoe_p e mem lba)
  | none => pkt_cmd mem = 0xe7 ∨ pkt_cmd mem = 0xec ∧ e.ident.isSome

/-- The drive answers the calls of a command that transfers sectors. -/
def DriveAnswers : Prop :=
  (AtaRead (pkt_cmd mem) →
    pkt_sectors mem = 0 ∨
      (e.calls 0).ready = true ∧ ∀ i, i < pkt_sectors mem → (e.calls 0).drq i = true) ∧
  (AtaWrite (pkt_cmd mem) →
    ∀ k, k < pkt_sectors mem → (e.calls k).ready = true ∧ (e.calls k).drq 0 = true)

theorem takeWhile_range_length (p : ℕ → Bool) (n : ℕ) :
    ((List.range n).takeWhile p).length = n ↔ ∀ i, i < n → p i = true := by
  constructor
  · intro h i hi
    have hall : (List.range n).takeWhile p = List.range n :=
      (List.takeWhile_prefix p).eq_of_length (h.trans List.length_range.symm)
    exact List.takeWhile_eq_self_iff.1 hall i (List.mem_range.2 hi)
  · intro h
    rw [List.takeWhile_eq_self_iff.2 fun i hi => h i (List.mem_range.1 hi), List.length_range]

theorem readDone_iff (lba : ℕ) :
    ReadDone aoe_p e mem lba ↔ pkt_sectors mem = 0 ∨
      (e.calls 0).ready = true ∧ ∀ i, i < pkt_sectors mem → (e.calls 0).drq i = true := by
  unfold ReadDone ide_disk_read_sectors
  cases hready : (e.calls 0).ready with
  | false =>
    simp only [Bool.not_false, if_true, Bool.false_eq_true, false_and, or_false]
    exact eq_comm
  | true =>
    simp only [Bool.not_true, Bool.false_eq_true, if_false, true_and]
    rw [takeWhile_range_length]
    constructor
    · exact .inr
    · rintro (hzero | h)
      · intro i hi
        omega
      · exact h

theorem writeDone_iff (lba : ℕ) :
    WriteDone aoe_p e mem lba ↔
      ∀ k, k < pkt_sectors mem → (e.calls k).ready = true ∧ (e.calls k).drq 0 = true := by
  unfold WriteDone ide_disk_write_sectors
  apply forall₂_congr
  intro k _
  cases (e.calls k).ready <;> cases (e.calls k).drq 0 <;> simp

variable {mem} {v : ℕ}

/-- The sectors of a packet with an address are transferred if the drive answers. -/
theorem transferred_some (hlba : pkt_lba mem = some v) :
    Transferred aoe_p e mem ↔ DriveAnswers e mem := by
  simp only [Transferred, hlba, readDone_iff, writeDone_iff, DriveAnswers]

theorem transferred_none (hlba : pkt_lba mem = none) :
    Transferred aoe_p e mem ↔ pkt_cmd mem = 0xe7 ∨ pkt_cmd mem = 0xec ∧ e.ident.isSome := by
  simp only [Transferred, hlba]

end Sectors

/-! ## The status -/

section Status

variable (t : TaskFile) (aoe_p : AOE_INFO_T) (e : AoeMeets) (medium : ℕ → UInt8)
  {mem : ℕ → UInt8} {v : ℕ}

/-- The status byte of the reply. -/
def reply_status (mem : ℕ → UInt8) : UInt8 := (aoe_ata_pkt t aoe_p e medium mem).2.mem 27

/-- The reply has the error bit if some of what was asked for was not transferred, and
has not if all of it was. -/
def StatusTrue (mem : ℕ → UInt8) : Prop :=
  (reply_status t aoe_p e medium mem).toNat &&& ERR ≠ 0 ↔ ¬ Transferred aoe_p e mem

/-- What `aoe_ata_cmd` leaves in the status register is what the client sees. -/
theorem reply_status_eq (mem : ℕ → UInt8) :
    reply_status t aoe_p e medium mem =
      UInt8.ofNat (aoe_ata_cmd t aoe_p e
        { lba := aoe_getlba mem, cmd := pkt_cmd mem, status := e.status, err := e.err,
          feature := pkt_err mem, sectors := pkt_sectors mem } AOE_DATA medium mem).2.status := by
  unfold reply_status aoe_ata_pkt
  simp only [Function.update_self]

/-- A command that transfers sectors always ends well for the client. -/
theorem reply_status_some (hlba : pkt_lba mem = some v) :
    reply_status t aoe_p e medium mem = UInt8.ofNat DRDY := by
  unfold pkt_lba at hlba
  rw [reply_status_eq]
  simp only [aoe_ata_cmd, hlba]

theorem reply_status_flush (hcmd : pkt_cmd mem = 0xe7) :
    reply_status t aoe_p e medium mem = UInt8.ofNat e.status := by
  rw [reply_status_eq]
  simp [aoe_ata_cmd, ata_lba, hcmd]

theorem reply_status_ident (hcmd : pkt_cmd mem = 0xec) :
    reply_status t aoe_p e medium mem =
      UInt8.ofNat (if e.ident.isSome then DRDY else BSY) := by
  rw [reply_status_eq]
  cases hident : e.ident <;> simp [aoe_ata_cmd, ata_lba, hcmd, aoe_ident, hident]

theorem reply_status_other (hlba : pkt_lba mem = none) (hflush : pkt_cmd mem ≠ 0xe7)
    (hident : pkt_cmd mem ≠ 0xec) :
    reply_status t aoe_p e medium mem = UInt8.ofNat (DRDY ||| ERR) := by
  unfold pkt_lba at hlba
  rw [reply_status_eq]
  simp only [aoe_ata_cmd, hlba, if_neg hflush, if_neg hident]

/-- When a packet with this status register on the stack is answered with the truth. -/
def SaysTruth (e : AoeMeets) (mem : ℕ → UInt8) : Prop :=
  DriveAnswers e mem ∧ (pkt_cmd mem = 0xec → e.ident.isSome) ∧
    (pkt_cmd mem = 0xe7 → e.status % 2 = 0)

theorem flush_no_lba (hcmd : pkt_cmd mem = 0xe7) : pkt_lba mem = none := by
  simp [pkt_lba, ata_lba, hcmd]

theorem ident_no_lba (hcmd : pkt_cmd mem = 0xec) : pkt_lba mem = none := by
  simp [pkt_lba, ata_lba, hcmd]

/-- Every command that transfers sectors has an address. -/
theorem driveAnswers_none (hlba : pkt_lba mem = none) : DriveAnswers e mem := by
  unfold pkt_lba ata_lba at hlba
  constructor
  · intro hread
    unfold AtaRead at hread
    grind
  · intro hwrite
    unfold AtaWrite at hwrite
    grind

theorem error_bit_stack (s : ℕ) : (UInt8.ofNat s).toNat &&& ERR ≠ 0 ↔ s % 2 = 1 := by
  have hbit : (UInt8.ofNat s).toNat &&& ERR = s % 2 := by
    rw [UInt8.toNat_ofNat', ERR, show (1 : ℕ) <<< 0 = 2 ^ 1 - 1 from rfl,
      Nat.and_two_pow_sub_one_eq_mod]
    omega
  rw [hbit]
  omega

theorem statusTrue_some (hlba : pkt_lba mem = some v) :
    StatusTrue t aoe_p e medium mem ↔ DriveAnswers e mem := by
  have hclear : ¬ (UInt8.ofNat DRDY).toNat &&& ERR ≠ 0 := by decide
  rw [StatusTrue, reply_status_some t aoe_p e medium hlba, transferred_some aoe_p e hlba,
    iff_false_left hclear, not_not]

theorem statusTrue_flush (hcmd : pkt_cmd mem = 0xe7) :
    StatusTrue t aoe_p e medium mem ↔ e.status % 2 = 0 := by
  have hdone : Transferred aoe_p e mem :=
    (transferred_none aoe_p e (flush_no_lba hcmd)).2 (.inl hcmd)
  rw [StatusTrue, reply_status_flush t aoe_p e medium hcmd, error_bit_stack,
    iff_false_right (not_not.2 hdone)]
  omega

theorem statusTrue_ident (hcmd : pkt_cmd mem = 0xec) :
    StatusTrue t aoe_p e medium mem ↔ e.ident.isSome := by
  have hdone : Transferred aoe_p e mem ↔ e.ident.isSome := by
    rw [transferred_none aoe_p e (ident_no_lba hcmd), hcmd]
    simp
  -- neither `DRDY` nor `BSY` has the bit
  have hclear : ∀ b : Bool,
      ¬ (UInt8.ofNat (if b = true then DRDY else BSY)).toNat &&& ERR ≠ 0 := by decide
  rw [StatusTrue, reply_status_ident t aoe_p e medium hcmd, hdone, iff_false_left (hclear _),
    not_not]

theorem statusTrue_other (hlba : pkt_lba mem = none) (hflush : pkt_cmd mem ≠ 0xe7)
    (hident : pkt_cmd mem ≠ 0xec) : StatusTrue t aoe_p e medium mem := by
  have hset : (UInt8.ofNat (DRDY ||| ERR)).toNat &&& ERR ≠ 0 := by decide
  rw [StatusTrue, reply_status_other t aoe_p e medium hlba hflush hident,
    transferred_none aoe_p e hlba, iff_true_left hset]
  simp [hflush, hident]

end Status

/-- **The status of a reply tells the truth exactly when the drive answers every call of
the command**, sends its data when it is to identify itself, and the byte of the stack
that `FLUSH CACHE` returns has the error bit clear. -/
theorem aoe_status_true_iff (t : TaskFile) (aoe_p : AOE_INFO_T) (e : AoeMeets)
    (medium mem : ℕ → UInt8) :
    StatusTrue t aoe_p e medium mem ↔ SaysTruth e mem := by
  unfold SaysTruth
  cases hlba : pkt_lba mem with
  | some v =>
    have hflush : pkt_cmd mem ≠ 0xe7 := fun h => by simp [flush_no_lba h] at hlba
    have hident : pkt_cmd mem ≠ 0xec := fun h => by simp [ident_no_lba h] at hlba
    simp [statusTrue_some t aoe_p e medium hlba, hflush, hident]
  | none =>
    have hanswers := driveAnswers_none e hlba
    by_cases hflush : pkt_cmd mem = 0xe7
    · simp [statusTrue_flush t aoe_p e medium hflush, hflush, hanswers]
    · by_cases hident : pkt_cmd mem = 0xec
      · simp [statusTrue_ident t aoe_p e medium hident, hident, hanswers]
      · simp [statusTrue_other t aoe_p e medium hlba hflush hident, hflush, hident, hanswers]

/-- A drive that never gets ready. -/
def stuck : AoeMeets := ⟨fun _ => { answering with ready := false }, none, 0, 0⟩

/-- The client is told that the sector is stored, and it is not. -/
theorem aoe_write_failure_lost :
    (aoe_ata_pkt cleared ⟨small_part⟩ stuck (fun _ => 7) (ata_packet 0x30 0)).2.rc = -1 ∧
      (aoe_ata_pkt cleared ⟨small_part⟩ stuck (fun _ => 7) (ata_packet 0x30 0)).2.commands = [] ∧
      reply_status cleared ⟨small_part⟩ stuck (fun _ => 7) (ata_packet 0x30 0) = 0x40 ∧
      ¬ StatusTrue cleared ⟨small_part⟩ stuck (fun _ => 7) (ata_packet 0x30 0) := by
  have hstatus :
      reply_status cleared ⟨small_part⟩ stuck (fun _ => 7) (ata_packet 0x30 0) = 0x40 := by
    decide
  refine ⟨by decide, by decide, hstatus, fun h => ?_⟩
  rw [StatusTrue, hstatus] at h
  have hdone : Transferred ⟨small_part⟩ stuck (ata_packet 0x30 0) := by
    by_contra hnot
    exact absurd (h.2 hnot) (by decide)
  have hwrite := (transferred_some _ _ (v := 0) (by decide)).1 hdone
  exact absurd (hwrite.2 (.inl (by decide)) 0 (by decide)).1 (by decide)

end CsBoot.Ide
