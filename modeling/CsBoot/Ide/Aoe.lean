/-
The ATA commands of `src/src/ide/aoe.c`, which come in packets and are carried out on
a partition: `aoe_ata_pkt`, `aoe_ata_cmd`, `aoe_getsec` and `aoe_putsec`.

The address and the number of sectors come from the packet, and the data goes to the
packet and comes from it, in the place. The test of the address against the size is not
compiled. `aoe_putsec` hands its size on as `(UINT8)IDE_SECTOR_SIZE`, which is 0, so the
sectors it writes are zeros.

`medium` is what the drive holds, by bytes. What the drive answers is a parameter.
-/
import Mathlib.Data.List.TakeWhile
import CsBoot.Ide.Partition
import CsBoot.Lib.RangeStore

set_option autoImplicit false

namespace CsBoot.Ide

open RangeStore

/-- The partition of an `AOE_INFO_T`. `aoe_init` takes the disk from it. -/
structure AOE_INFO_T where
  part : IDE_PART_T

def AOE_INFO_T.disk (aoe_p : AOE_INFO_T) : IDE_DISK_T := aoe_p.part.disk

structure AOE_ATA_REG_T where
  lba : ℕ
  cmd : ℕ
  status : ℕ
  err : ℕ
  feature : ℕ
  sectors : ℕ

def ABRT : ℕ := 1 <<< 2
def BSY : ℕ := 1 <<< 7
def DRDY : ℕ := 1 <<< 6
def ERR : ℕ := 1 <<< 0

def AOE_WRITE : ℕ := 1 <<< 0

/-- The room behind the header of a network buffer. -/
def NETBUF_ROOM : ℕ := 2048

/-- What a packet meets: the answers to the calls of the disk in turn, the data of the
drive for `IDENTIFY DEVICE` when it wants to send it, and what is on the stack where `r`
is put. -/
structure AoeMeets where
  calls : ℕ → Answers
  ident : Option (ℕ → UInt8)
  status : ℕ
  err : ℕ

/-- What a function leaves: its result, the commands for the drive, the ranges of the
packet that it used, and the contents. -/
structure AoeRun where
  rc : ℤ
  commands : List Command
  used : List (ℕ × ℕ)
  medium : ℕ → UInt8
  mem : ℕ → UInt8

/-! ## The functions -/

section Functions

variable (t : TaskFile) (aoe_p : AOE_INFO_T)

/-- The drive stores the sectors of a write. -/
def stored (p : Pio) (data medium : ℕ → UInt8) : ℕ → UInt8 :=
  (t.commands p.regs).foldl
    (fun medium c => splice medium (IDE_SECTOR_SIZE * c.start) (IDE_SECTOR_SIZE * p.sectors) data)
    medium

/-- The bytes that the drive sends for a read. -/
def fetched (p : Pio) (medium : ℕ → UInt8) : ℕ → UInt8 := fun b =>
  match t.commands p.regs with
  | [] => 0
  | c :: _ => medium (IDE_SECTOR_SIZE * c.start + b)

/-- How many bytes of its buffer `ide_disk_write_sectors` reads. -/
def write_sectors_reads (bytes : ℕ) : ℕ := min IDE_SECTOR_SIZE ((bytes + 3) / 4 * 4)

/-- `aoe_getsec` -/
def aoe_getsec (a : ℕ → Answers) (place lba nsec : ℕ) (medium mem : ℕ → UInt8) : AoeRun :=
  let lba := (lba + aoe_p.part.start_sector) % 2 ^ 64
  let p := ide_disk_read_sectors (a 0) aoe_p.disk lba nsec
  { rc := if p.rc ≠ 0 then 1 else -1
    commands := t.commands p.regs
    used := [(place, IDE_SECTOR_SIZE * p.sectors)]
    medium := medium
    mem := splice mem place (IDE_SECTOR_SIZE * p.sectors) (fetched t p medium) }

/-- The loop of `aoe_putsec`, with the number of calls made. -/
def putsec_loop (a : ℕ → Answers) (mem : ℕ → UInt8) (place lba k : ℕ) (medium : ℕ → UInt8) :
    ℕ → AoeRun
  | 0 => ⟨1, [], [], medium, mem⟩
  | nsec + 1 =>
    let bytes := IDE_SECTOR_SIZE % 2 ^ 8
    let p := ide_disk_write_sectors (a k) aoe_p.disk lba
    let data := write_sectors_data bytes fun b => mem (place + b)
    let used := (place, write_sectors_reads bytes * p.sectors)
    let medium := stored t p data medium
    if p.rc = 0 then ⟨-1, t.commands p.regs, [used], medium, mem⟩
    else
      let r := putsec_loop a mem (place + IDE_SECTOR_SIZE) ((lba + 1) % 2 ^ 64) (k + 1) medium nsec
      { r with commands := t.commands p.regs ++ r.commands, used := used :: r.used }

/-- `aoe_putsec` -/
def aoe_putsec (a : ℕ → Answers) (place lba nsec : ℕ) (medium mem : ℕ → UInt8) : AoeRun :=
  putsec_loop t aoe_p a mem place ((lba + aoe_p.part.start_sector) % 2 ^ 64) 0 medium nsec

/-- `aoe_ident`, up to the registers that it writes. -/
def aoe_ident (ident : Option (ℕ → UInt8)) (place : ℕ) (medium mem : ℕ → UInt8) : AoeRun :=
  match ident with
  | none => ⟨-1, [], [], medium, mem⟩
  | some data =>
    ⟨1, [], [(place, IDE_SECTOR_SIZE)], medium, splice mem place IDE_SECTOR_SIZE data⟩

/-- The address of a command that transfers sectors: 28 bits of it, or 48. -/
def ata_lba (cmd lba : ℕ) : Option ℕ :=
  if cmd = 0x20 ∨ cmd = 0x30 then some (lba &&& 0x0fffffff)
  else if cmd = 0x24 ∨ cmd = 0x34 then some (lba &&& 0x0000ffffffffffff)
  else none

/-- `aoe_ata_cmd` -/
def aoe_ata_cmd (e : AoeMeets) (p : AOE_ATA_REG_T) (dp : ℕ) (medium mem : ℕ → UInt8) :
    AoeRun × AOE_ATA_REG_T :=
  match ata_lba p.cmd p.lba with
  | some lba =>
    let run :=
      if p.cmd = 0x20 ∨ p.cmd = 0x24 then aoe_getsec t aoe_p e.calls dp lba p.sectors medium mem
      else aoe_putsec t aoe_p e.calls dp lba p.sectors medium mem
    let p := if run.rc = -1 then { p with status := p.status ||| ERR } else p
    (run, { p with lba := (p.lba + p.sectors) % 2 ^ 64, sectors := 0, status := DRDY, err := 0 })
  | none =>
    if p.cmd = 0xe7 then (⟨0, [], [], medium, mem⟩, p)
    else if p.cmd = 0xec then
      let run := aoe_ident e.ident dp medium mem
      (run, if run.rc < 0 then { p with err := 1, status := BSY }
        else { p with err := 0, status := DRDY })
    else (⟨0, [], [], medium, mem⟩, { p with status := DRDY ||| ERR, err := ABRT })

/-! The fields of the packet, an `AOE_ATA_H`. -/

def aflag (mem : ℕ → UInt8) : ℕ := (mem 24).toNat
def pkt_err (mem : ℕ → UInt8) : ℕ := (mem 25).toNat
def pkt_sectors (mem : ℕ → UInt8) : ℕ := (mem 26).toNat
def pkt_cmd (mem : ℕ → UInt8) : ℕ := (mem 27).toNat

/-- `aoe_getlba` of the bytes from 28 on. -/
def aoe_getlba (mem : ℕ → UInt8) : ℕ :=
  (List.range 6).foldl (fun v i => v ||| (mem (28 + i)).toNat <<< (i * 8)) 0

/-- Where the data is. -/
def AOE_DATA : ℕ := 36

/-- `sizeof(AOE_ATA_H)` -/
def AOE_ATA_SIZE : ℕ := AOE_DATA + 1024

/-- `aoe_ata_pkt`, with the length that it returns. -/
def aoe_ata_pkt (e : AoeMeets) (medium mem : ℕ → UInt8) : ℕ × AoeRun :=
  let len := if pkt_sectors mem ≠ 0 ∧ aflag mem &&& AOE_WRITE = 0 then AOE_ATA_SIZE else 60
  let r : AOE_ATA_REG_T :=
    { lba := aoe_getlba mem, cmd := pkt_cmd mem, status := e.status, err := e.err,
      feature := pkt_err mem, sectors := pkt_sectors mem }
  let (run, r) := aoe_ata_cmd t aoe_p e r AOE_DATA medium mem
  let mem := Function.update run.mem 26 (UInt8.ofNat r.sectors)
  let mem := Function.update mem 25 (UInt8.ofNat r.err)
  let mem := Function.update mem 27 (UInt8.ofNat r.status)
  (len, { run with mem := mem, used := (24, 10) :: run.used })

end Functions

/-! ## Calls of the disk -/

/-- A drive that carries out what it is told to. -/
structure AoeMeets.Works (e : AoeMeets) : Prop where
  ready : ∀ k, (e.calls k).ready = true
  drq : ∀ k i, (e.calls k).drq i = true

section Calls

variable (t : TaskFile) (aoe_p : AOE_INFO_T) {a : ℕ → Answers}

/-- The size that `aoe_putsec` hands on: no byte of the buffer is read. -/
theorem putsec_bytes : IDE_SECTOR_SIZE % 2 ^ 8 = 0 := rfl

theorem write_sectors_data_zero (buf : ℕ → UInt8) : write_sectors_data 0 buf = fun _ => 0 := by
  funext b
  simp [write_sectors_data]

theorem write_sectors_reads_zero : write_sectors_reads 0 = 0 := rfl

/-- Cutting an address off at 64 bits changes none that the drive can tell apart. -/
theorem lba_mod (disk : IDE_DISK_T) (x j : ℕ) :
    (x % 2 ^ 64 + j) % lba_limit disk = (x + j) % lba_limit disk := by
  have hdvd : lba_limit disk ∣ 2 ^ 64 := named_limit_dvd disk false
  rw [Nat.add_mod, Nat.mod_mod_of_dvd _ hdvd, ← Nat.add_mod]

theorem lba_limit_pos (disk : IDE_DISK_T) : 0 < lba_limit disk := by
  unfold lba_limit
  split <;> decide

/-- A drive that is ready is given one command for each call of `aoe_putsec`. -/
theorem putsec_loop_commands (mem : ℕ → UInt8) (place lba k : ℕ) (medium : ℕ → UInt8) (nsec : ℕ) :
    ∀ c ∈ (putsec_loop t aoe_p a mem place lba k medium nsec).commands,
      ∃ j, j < nsec ∧ c = ⟨true, (lba + j) % lba_limit aoe_p.disk, 1⟩ := by
  induction nsec generalizing place lba k medium with
  | zero => simp [putsec_loop]
  | succ nsec ih =>
    have hone : ∀ c ∈ t.commands (ide_disk_write_sectors (a k) aoe_p.disk lba).regs,
        ∃ j, j < nsec + 1 ∧ c = ⟨true, (lba + j) % lba_limit aoe_p.disk, 1⟩ := by
      intro c hc
      by_cases ha : (a k).ready = true
      · rw [commands_write_sectors t aoe_p.disk lba ha, List.mem_singleton] at hc
        exact ⟨0, Nat.succ_pos _, by rw [hc, Nat.add_zero]⟩
      · simp [ide_disk_write_sectors, ha] at hc
    intro c hc
    rw [putsec_loop] at hc
    split at hc
    · exact hone c hc
    · rcases List.mem_append.mp hc with hc | hc
      · exact hone c hc
      · obtain ⟨j, hj, rfl⟩ := ih _ _ _ _ c hc
        refine ⟨j + 1, by omega, ?_⟩
        rw [lba_mod, Nat.add_assoc, Nat.add_comm 1 j]

theorem putsec_loop_used (mem : ℕ → UInt8) (place lba k : ℕ) (medium : ℕ → UInt8) (nsec : ℕ) :
    ∀ u ∈ (putsec_loop t aoe_p a mem place lba k medium nsec).used, u.2 = 0 := by
  induction nsec generalizing place lba k medium with
  | zero => simp [putsec_loop]
  | succ nsec ih =>
    intro u hu
    rw [putsec_loop, putsec_bytes, write_sectors_reads_zero, Nat.zero_mul] at hu
    split at hu
    · rw [List.mem_singleton.mp hu]
    · rcases List.mem_cons.mp hu with rfl | hu
      · rfl
      · exact ih _ _ _ _ u hu

section Works

variable {e : AoeMeets} (he : e.Works)

include he

/-- One call of `disk->write` in `aoe_putsec`. -/
theorem write_sectors_works (k lba : ℕ) (data medium : ℕ → UInt8) :
    (ide_disk_write_sectors (e.calls k) aoe_p.disk lba).rc = 1 ∧
      stored t (ide_disk_write_sectors (e.calls k) aoe_p.disk lba) data medium =
        splice medium (512 * (lba % lba_limit aoe_p.disk)) 512 data := by
  have hcommands := commands_write_sectors t aoe_p.disk lba (he.ready k)
  have hcall : (ide_disk_write_sectors (e.calls k) aoe_p.disk lba).rc = 1 ∧
      (ide_disk_write_sectors (e.calls k) aoe_p.disk lba).sectors = 1 := by
    simp [ide_disk_write_sectors, he.ready k, he.drq k 0]
  refine ⟨hcall.1, ?_⟩
  rw [stored, hcommands, hcall.2]
  rfl

/-- The sectors of the range are zeros afterwards, and the others are what they were. -/
theorem putsec_loop_medium (mem : ℕ → UInt8) (place lba k : ℕ) (medium : ℕ → UInt8) (nsec x : ℕ) :
    ((∃ j, j < nsec ∧ x / 512 = (lba + j) % lba_limit aoe_p.disk) →
      (putsec_loop t aoe_p e.calls mem place lba k medium nsec).medium x = 0) ∧
    ((∀ j, j < nsec → x / 512 ≠ (lba + j) % lba_limit aoe_p.disk) →
      (putsec_loop t aoe_p e.calls mem place lba k medium nsec).medium x = medium x) := by
  induction nsec generalizing place lba k medium with
  | zero => simp [putsec_loop]
  | succ nsec ih =>
    obtain ⟨hrc, hstored⟩ := write_sectors_works t aoe_p he k lba (fun _ => 0) medium
    rw [putsec_loop, putsec_bytes, write_sectors_data_zero, hstored, hrc, if_neg Nat.one_ne_zero]
    set medium' := splice medium (512 * (lba % lba_limit aoe_p.disk)) 512 fun _ => (0 : UInt8)
    obtain ⟨hin, hout⟩ := ih (place + IDE_SECTOR_SIZE) ((lba + 1) % 2 ^ 64) (k + 1) medium'
    simp only [lba_mod, Nat.add_assoc, Nat.add_comm 1] at hin hout
    constructor
    · rintro ⟨j, hj, hx⟩
      -- the last write to a sector is the one that counts, but all of them are zeros
      by_cases hlater : ∃ j, j < nsec ∧ x / 512 = (lba + (j + 1)) % lba_limit aoe_p.disk
      · exact hin hlater
      · have hnone : ∀ j, j < nsec → x / 512 ≠ (lba + (j + 1)) % lba_limit aoe_p.disk :=
          fun j hj heq => hlater ⟨j, hj, heq⟩
        have hzero : j = 0 := by
          by_contra hne
          exact hnone (j - 1) (by omega) (by rw [hx, Nat.sub_add_cancel (by omega)])
        rw [hzero, Nat.add_zero] at hx
        exact (hout hnone).trans (splice_inside (by omega) (by omega))
    · intro hnone
      have hfirst := hnone 0 (Nat.succ_pos _)
      rw [Nat.add_zero] at hfirst
      rw [hout fun j hj => hnone (j + 1) (by omega)]
      exact splice_outside (by omega)

/-- A read puts the sectors of its range into the packet. -/
theorem getsec_works (place lba nsec : ℕ) (medium mem : ℕ → UInt8) :
    (aoe_getsec t aoe_p e.calls place lba nsec medium mem).mem =
      splice mem place (512 * nsec) fun b =>
        medium (512 * ((lba + aoe_p.part.start_sector) % lba_limit aoe_p.disk) + b) := by
  have hcut := lba_mod aoe_p.disk (lba + aoe_p.part.start_sector) 0
  have hcommands := commands_read_sectors t aoe_p.disk
    ((lba + aoe_p.part.start_sector) % 2 ^ 64) nsec (he.ready 0)
  have hsectors : (ide_disk_read_sectors (e.calls 0) aoe_p.disk
      ((lba + aoe_p.part.start_sector) % 2 ^ 64) nsec).sectors = nsec := by
    have hall : (List.range nsec).takeWhile (e.calls 0).drq = List.range nsec :=
      List.takeWhile_eq_self_iff.2 fun i _ => he.drq 0 i
    simp [ide_disk_read_sectors, he.ready 0, hall]
  rw [Nat.add_zero, Nat.add_zero] at hcut
  rw [hcut] at hcommands
  have hfetched : fetched t (ide_disk_read_sectors (e.calls 0) aoe_p.disk
      ((lba + aoe_p.part.start_sector) % 2 ^ 64) nsec) medium = fun b =>
        medium (512 * ((lba + aoe_p.part.start_sector) % lba_limit aoe_p.disk) + b) := by
    funext b
    simp only [fetched, hcommands, IDE_SECTOR_SIZE]
  simp only [aoe_getsec, hfetched, hsectors, IDE_SECTOR_SIZE]

end Works

/-- Whatever the drive answers, a read gives it at most one command and uses no more
of the packet than the sectors asked for. -/
theorem getsec_contained (place lba nsec : ℕ) (medium mem : ℕ → UInt8) :
    (∀ c ∈ (aoe_getsec t aoe_p a place lba nsec medium mem).commands,
      c = ⟨false, (lba + aoe_p.part.start_sector) % lba_limit aoe_p.disk,
        named_count aoe_p.disk nsec⟩) ∧
    ∀ u ∈ (aoe_getsec t aoe_p a place lba nsec medium mem).used,
      u.1 = place ∧ u.2 ≤ 512 * nsec := by
  have hcut := lba_mod aoe_p.disk (lba + aoe_p.part.start_sector) 0
  rw [Nat.add_zero, Nat.add_zero] at hcut
  constructor
  · intro c hc
    by_cases ha : (a 0).ready = true
    · rw [aoe_getsec, commands_read_sectors t aoe_p.disk _ nsec ha, List.mem_singleton, hcut] at hc
      exact hc
    · simp [aoe_getsec, ide_disk_read_sectors, ha] at hc
  · intro u hu
    have hle : ((List.range nsec).takeWhile (a 0).drq).length ≤ nsec := by
      simpa using (List.takeWhile_sublist (a 0).drq (l := List.range nsec)).length_le
    rw [List.mem_singleton.mp hu]
    refine ⟨rfl, ?_⟩
    unfold ide_disk_read_sectors IDE_SECTOR_SIZE
    split
    · simp
    · exact Nat.mul_le_mul_left 512 hle

end Calls

/-! ## Packets -/

/-- The commands that transfer sectors. -/
def AtaRead (cmd : ℕ) : Prop := cmd = 0x20 ∨ cmd = 0x24
def AtaWrite (cmd : ℕ) : Prop := cmd = 0x30 ∨ cmd = 0x34

/-- The address that a packet is about. -/
def pkt_lba (mem : ℕ → UInt8) : Option ℕ := ata_lba (pkt_cmd mem) (aoe_getlba mem)

theorem ata_lba_some {cmd lba v : ℕ} (h : ata_lba cmd lba = some v) :
    AtaRead cmd ∨ AtaWrite cmd := by
  unfold ata_lba at h
  unfold AtaRead AtaWrite
  split at h
  · omega
  · split at h
    · omega
    · cases h

theorem AtaWrite.not_read {cmd : ℕ} (h : AtaWrite cmd) : ¬ AtaRead cmd := by
  unfold AtaWrite at h
  unfold AtaRead
  omega

section Packets

variable (t : TaskFile) (aoe_p : AOE_INFO_T) {e : AoeMeets} {medium mem : ℕ → UInt8} {v : ℕ}

/-- What a command that reads sectors does. -/
theorem aoe_ata_pkt_read (e : AoeMeets) (medium : ℕ → UInt8) (hcmd : AtaRead (pkt_cmd mem))
    (hlba : pkt_lba mem = some v) :
    let run := aoe_getsec t aoe_p e.calls AOE_DATA v (pkt_sectors mem) medium mem
    (aoe_ata_pkt t aoe_p e medium mem).2.commands = run.commands ∧
      (aoe_ata_pkt t aoe_p e medium mem).2.used = (24, 10) :: run.used ∧
      ∀ b, (aoe_ata_pkt t aoe_p e medium mem).2.mem (AOE_DATA + b) = run.mem (AOE_DATA + b) := by
  have hcase : pkt_cmd mem = 0x20 ∨ pkt_cmd mem = 0x24 := hcmd
  unfold pkt_lba at hlba
  simp only [aoe_ata_pkt, aoe_ata_cmd, hlba, if_pos hcase, AOE_DATA]
  refine ⟨trivial, trivial, fun b => ?_⟩
  rw [Function.update_of_ne (by omega), Function.update_of_ne (by omega),
    Function.update_of_ne (by omega)]

/-- What a command that writes sectors does. -/
theorem aoe_ata_pkt_write (e : AoeMeets) (medium : ℕ → UInt8) (hcmd : AtaWrite (pkt_cmd mem))
    (hlba : pkt_lba mem = some v) :
    let run := aoe_putsec t aoe_p e.calls AOE_DATA v (pkt_sectors mem) medium mem
    (aoe_ata_pkt t aoe_p e medium mem).2.commands = run.commands ∧
      (aoe_ata_pkt t aoe_p e medium mem).2.used = (24, 10) :: run.used ∧
      (aoe_ata_pkt t aoe_p e medium mem).2.medium = run.medium := by
  have hcase : ¬ (pkt_cmd mem = 0x20 ∨ pkt_cmd mem = 0x24) := hcmd.not_read
  unfold pkt_lba at hlba
  simp only [aoe_ata_pkt, aoe_ata_cmd, hlba, if_neg hcase]
  exact ⟨trivial, trivial, trivial⟩

/-- Any other command leaves the drive alone, and the packet but for one sector. -/
theorem aoe_ata_pkt_other (e : AoeMeets) (medium : ℕ → UInt8) (hlba : pkt_lba mem = none) :
    (aoe_ata_pkt t aoe_p e medium mem).2.commands = [] ∧
      ∀ u ∈ (aoe_ata_pkt t aoe_p e medium mem).2.used, u.1 + u.2 ≤ NETBUF_ROOM := by
  unfold pkt_lba at hlba
  simp only [aoe_ata_pkt, aoe_ata_cmd, hlba]
  split
  · simp [NETBUF_ROOM]
  · split
    · unfold aoe_ident
      split <;> simp [NETBUF_ROOM, AOE_DATA, IDE_SECTOR_SIZE]
    · simp [NETBUF_ROOM]

/-! ## Reading back -/

/-- The first sector that the drive makes of an address. -/
def first_sector (v : ℕ) : ℕ := (v + aoe_p.part.start_sector) % lba_limit aoe_p.disk

/-- A packet that reads (`r`), after one that writes (`w`), comes back with the data
that was written. -/
def ReadsBack (ew er : AoeMeets) (medium w r : ℕ → UInt8) : Prop :=
  ∀ b, b < IDE_SECTOR_SIZE * pkt_sectors w →
    (aoe_ata_pkt t aoe_p er (aoe_ata_pkt t aoe_p ew medium w).2.medium r).2.mem (AOE_DATA + b) =
      w (AOE_DATA + b)

section ReadBack

variable {w r : ℕ → UInt8} {ew er : AoeMeets}

/-- What is read are the sectors of the range as the write left them. -/
theorem readsBack_iff_medium (hw : AtaWrite (pkt_cmd w)) (hr : AtaRead (pkt_cmd r))
    (hwlba : pkt_lba w = some v) (hrlba : pkt_lba r = some v)
    (hsectors : pkt_sectors r = pkt_sectors w) (her : er.Works) (medium : ℕ → UInt8) :
    ReadsBack t aoe_p ew er medium w r ↔ ∀ b, b < 512 * pkt_sectors w →
      (aoe_putsec t aoe_p ew.calls AOE_DATA v (pkt_sectors w) medium w).medium
        (512 * first_sector aoe_p v + b) = w (AOE_DATA + b) := by
  have hwritten := (aoe_ata_pkt_write t aoe_p ew medium hw hwlba).2.2
  unfold ReadsBack IDE_SECTOR_SIZE
  rw [hwritten]
  apply forall₂_congr
  intro b hb
  rw [(aoe_ata_pkt_read t aoe_p er _ hr hrlba).2.2 b, getsec_works t aoe_p her, hsectors,
    splice_inside (by omega) (by omega), Nat.add_sub_cancel_left, first_sector]

/-- A sector of the range, and what a write makes of it. -/
theorem putsec_medium (hew : ew.Works) (medium : ℕ → UInt8) (x : ℕ) :
    ((∃ j, j < pkt_sectors w ∧ x / 512 = first_sector aoe_p (v + j)) →
      (aoe_putsec t aoe_p ew.calls AOE_DATA v (pkt_sectors w) medium w).medium x = 0) ∧
    ((∀ j, j < pkt_sectors w → x / 512 ≠ first_sector aoe_p (v + j)) →
      (aoe_putsec t aoe_p ew.calls AOE_DATA v (pkt_sectors w) medium w).medium x =
        medium x) := by
  have h := putsec_loop_medium t aoe_p hew w AOE_DATA ((v + aoe_p.part.start_sector) % 2 ^ 64) 0
    medium (pkt_sectors w) x
  simp only [lba_mod, Nat.add_right_comm v] at h
  exact h

/-- No write makes anything but zeros of a drive that holds zeros. -/
theorem putsec_zeros (hew : ew.Works) (x : ℕ) :
    (aoe_putsec t aoe_p ew.calls AOE_DATA v (pkt_sectors w) (fun _ => 0) w).medium x = 0 := by
  by_cases hx : ∃ j, j < pkt_sectors w ∧ x / 512 = first_sector aoe_p (v + j)
  · exact (putsec_medium t aoe_p hew _ x).1 hx
  · exact (putsec_medium t aoe_p hew _ x).2 fun j hj heq => hx ⟨j, hj, heq⟩

/-- Sectors that follow each other in a range that the addresses of the drive hold. -/
theorem first_sector_add {n j : ℕ} (hover : first_sector aoe_p v + n ≤ lba_limit aoe_p.disk)
    (hj : j < n) : first_sector aoe_p (v + j) = first_sector aoe_p v + j := by
  have hlt : first_sector aoe_p v + j < lba_limit aoe_p.disk := by omega
  rw [first_sector, Nat.add_right_comm, Nat.add_mod, ← first_sector,
    Nat.mod_eq_of_lt (a := j) (by omega), Nat.mod_eq_of_lt hlt]

/-- What is read back is what was written exactly when that is zeros, and the range
does not go over the end of the addresses of the drive. -/
theorem readsBack_iff (hw : AtaWrite (pkt_cmd w)) (hr : AtaRead (pkt_cmd r))
    (hwlba : pkt_lba w = some v) (hrlba : pkt_lba r = some v)
    (hsectors : pkt_sectors r = pkt_sectors w) (hew : ew.Works) (her : er.Works) :
    (∀ medium, ReadsBack t aoe_p ew er medium w r) ↔
      (∀ b, b < IDE_SECTOR_SIZE * pkt_sectors w → w (AOE_DATA + b) = 0) ∧
        first_sector aoe_p v + pkt_sectors w ≤ lba_limit aoe_p.disk := by
  have hpos := lba_limit_pos aoe_p.disk
  simp only [readsBack_iff_medium t aoe_p hw hr hwlba hrlba hsectors her, IDE_SECTOR_SIZE]
  constructor
  · intro h
    have hdata : ∀ b, b < 512 * pkt_sectors w → w (AOE_DATA + b) = 0 := by
      intro b hb
      rw [← h (fun _ => 0) b hb]
      exact putsec_zeros t aoe_p hew _
    refine ⟨hdata, ?_⟩
    by_contra hover
    -- the last sector of the range is not one that was written, and need not be zeros
    have hfirst : first_sector aoe_p v < lba_limit aoe_p.disk := Nat.mod_lt _ hpos
    have hb : 512 * (pkt_sectors w - 1) < 512 * pkt_sectors w := by omega
    have hlast := h (fun _ => 1) _ hb
    rw [hdata _ hb] at hlast
    have hkept := (putsec_medium t aoe_p (v := v) (w := w) hew (fun _ => 1)
      (512 * first_sector aoe_p v + 512 * (pkt_sectors w - 1))).2 (by
        intro j hj heq
        have hlt : first_sector aoe_p (v + j) < lba_limit aoe_p.disk := Nat.mod_lt _ hpos
        omega)
    have hone : (1 : UInt8) = 0 := hkept.symm.trans hlast
    exact absurd hone (by decide)
  · rintro ⟨hdata, hover⟩ medium b hb
    rw [hdata b hb]
    apply (putsec_medium t aoe_p hew medium _).1
    refine ⟨b / 512, by omega, ?_⟩
    rw [first_sector_add aoe_p hover (by omega)]
    omega

end ReadBack

/-! ## Containment -/

/-- Only sectors of the partition are accessed, and only bytes of the buffer. -/
structure PacketContained (run : AoeRun) : Prop where
  sectors : ∀ c ∈ run.commands, ∀ s, c.Covers s → aoe_p.part.Owns s
  bytes : ∀ u ∈ run.used, ∀ i, i < u.2 → u.1 + i < NETBUF_ROOM

/-- The sectors that the registers name are in the partition, and those to be read
have room in the buffer. -/
def Harmless (mem : ℕ → UInt8) : Prop :=
  ∀ v, pkt_lba mem = some v →
    (AtaRead (pkt_cmd mem) →
      aoe_p.part.start_sector ≤ first_sector aoe_p v ∧
        first_sector aoe_p v + named_count aoe_p.disk (pkt_sectors mem) ≤
          aoe_p.part.start_sector + aoe_p.part.sector_num ∧
        AOE_DATA + IDE_SECTOR_SIZE * pkt_sectors mem ≤ NETBUF_ROOM) ∧
    (AtaWrite (pkt_cmd mem) →
      ∀ j, j < pkt_sectors mem → aoe_p.part.Owns (first_sector aoe_p (v + j)))

/-- The header is in the buffer. -/
theorem header_inside {i : ℕ} (h : i < 10) : 24 + i < NETBUF_ROOM := by
  unfold NETBUF_ROOM
  omega

theorem packetContained_read (hcmd : AtaRead (pkt_cmd mem)) (hlba : pkt_lba mem = some v)
    (h : Harmless aoe_p mem) : PacketContained aoe_p (aoe_ata_pkt t aoe_p e medium mem).2 := by
  obtain ⟨hlo, hhi, hroom⟩ := (h v hlba).1 hcmd
  obtain ⟨hcommands, hused, -⟩ := aoe_ata_pkt_read t aoe_p e medium hcmd hlba
  obtain ⟨hone, hbytes⟩ := getsec_contained t aoe_p (a := e.calls) AOE_DATA v (pkt_sectors mem)
    medium mem
  simp only [IDE_SECTOR_SIZE] at hroom
  constructor
  · intro c hc s hs
    rw [hcommands] at hc
    rw [hone c hc] at hs
    exact ⟨le_trans hlo hs.1, lt_of_lt_of_le hs.2 hhi⟩
  · intro u hu i hi
    rw [hused] at hu
    rcases List.mem_cons.mp hu with rfl | hu
    · exact header_inside hi
    · have hlen := hbytes u hu
      omega

theorem packetContained_write (hcmd : AtaWrite (pkt_cmd mem)) (hlba : pkt_lba mem = some v)
    (h : Harmless aoe_p mem) : PacketContained aoe_p (aoe_ata_pkt t aoe_p e medium mem).2 := by
  have howns := (h v hlba).2 hcmd
  obtain ⟨hcommands, hused, -⟩ := aoe_ata_pkt_write t aoe_p e medium hcmd hlba
  constructor
  · intro c hc s hs
    rw [hcommands] at hc
    obtain ⟨j, hj, rfl⟩ := putsec_loop_commands t aoe_p _ _ _ _ _ _ c hc
    have hsector := howns j hj
    rw [first_sector, Nat.add_right_comm] at hsector
    rw [lba_mod] at hs
    have heq : s = (v + aoe_p.part.start_sector + j) % lba_limit aoe_p.disk :=
      le_antisymm (Nat.lt_succ_iff.mp hs.2) hs.1
    rw [heq]
    exact hsector
  · intro u hu i hi
    rw [hused] at hu
    rcases List.mem_cons.mp hu with rfl | hu
    · exact header_inside hi
    · have hlen := putsec_loop_used t aoe_p _ _ _ _ _ _ u hu
      omega

/-- A working drive is given all commands of a write. -/
theorem putsec_loop_gives (he : e.Works) (mem : ℕ → UInt8) (place lba k : ℕ)
    (medium : ℕ → UInt8) (nsec j : ℕ) (hj : j < nsec) :
    (⟨true, (lba + j) % lba_limit aoe_p.disk, 1⟩ : Command) ∈
      (putsec_loop t aoe_p e.calls mem place lba k medium nsec).commands := by
  induction nsec generalizing place lba k medium j with
  | zero => omega
  | succ nsec ih =>
    have hrc : (ide_disk_write_sectors (e.calls k) aoe_p.disk lba).rc = 1 :=
      (write_sectors_works t aoe_p he k lba (fun _ => 0) fun _ => 0).1
    rw [putsec_loop, hrc, if_neg Nat.one_ne_zero]
    apply List.mem_append.mpr
    by_cases hzero : j = 0
    · rw [commands_write_sectors t aoe_p.disk lba (he.ready k), hzero]
      exact .inl (List.mem_singleton.mpr rfl)
    · have hrest := fun medium => ih (place + IDE_SECTOR_SIZE) ((lba + 1) % 2 ^ 64) (k + 1) medium
        (j - 1) (by omega)
      simp only [lba_mod, show lba + 1 + (j - 1) = lba + j by omega] at hrest
      exact .inr (hrest _)

/-- Under a working drive, a packet that is contained is harmless. -/
theorem harmless_of_contained (he : e.Works)
    (h : PacketContained aoe_p (aoe_ata_pkt t aoe_p e medium mem).2) : Harmless aoe_p mem := by
  intro v hlba
  constructor
  · intro hcmd
    obtain ⟨hcommands, hused, -⟩ := aoe_ata_pkt_read t aoe_p e medium hcmd hlba
    have hcount : 0 < named_count aoe_p.disk (pkt_sectors mem) := named_count_pos _ _
    have hcut := lba_mod aoe_p.disk (v + aoe_p.part.start_sector) 0
    rw [Nat.add_zero, Nat.add_zero] at hcut
    have hc : (⟨false, first_sector aoe_p v, named_count aoe_p.disk (pkt_sectors mem)⟩ : Command) ∈
        (aoe_ata_pkt t aoe_p e medium mem).2.commands := by
      rw [hcommands, aoe_getsec, commands_read_sectors t aoe_p.disk _ _ (he.ready 0), hcut]
      exact List.mem_singleton.mpr rfl
    have hfirst := (h.sectors _ hc _ ⟨le_rfl, by simp only; omega⟩).1
    -- the command that was given names the first and the last sector
    have hlast := (h.sectors _ hc
      (first_sector aoe_p v + named_count aoe_p.disk (pkt_sectors mem) - 1)
      ⟨by simp only; omega, by simp only; omega⟩).2
    refine ⟨hfirst, by omega, ?_⟩
    have hdata : (AOE_DATA, IDE_SECTOR_SIZE * pkt_sectors mem) ∈
        (aoe_ata_pkt t aoe_p e medium mem).2.used := by
      have hall : (List.range (pkt_sectors mem)).takeWhile (e.calls 0).drq =
          List.range (pkt_sectors mem) :=
        List.takeWhile_eq_self_iff.2 fun i _ => he.drq 0 i
      rw [hused]
      simp [aoe_getsec, ide_disk_read_sectors, he.ready 0, hall]
    have hbytes := h.bytes _ hdata (IDE_SECTOR_SIZE * pkt_sectors mem - 1)
    simp only [AOE_DATA, IDE_SECTOR_SIZE, NETBUF_ROOM] at hbytes ⊢
    omega
  · intro hcmd j hj
    obtain ⟨hcommands, -⟩ := aoe_ata_pkt_write t aoe_p e medium hcmd hlba
    have hmem := putsec_loop_gives t aoe_p he mem AOE_DATA
      ((v + aoe_p.part.start_sector) % 2 ^ 64) 0 medium (pkt_sectors mem) j hj
    rw [← aoe_putsec, ← hcommands, lba_mod] at hmem
    rw [first_sector, Nat.add_right_comm]
    exact h.sectors _ hmem _ ⟨le_rfl, Nat.lt_succ_self _⟩

end Packets

/-- The answers of a drive that carries out everything. -/
def working : AoeMeets := ⟨fun _ => answering, none, 0, 0⟩

theorem working_works : working.Works := ⟨fun _ => rfl, fun _ _ => rfl⟩

/-- **What AoE reads back is what was written exactly when that is zeros** and the range
ends where the addresses of the drive end, at the latest; **and a packet is contained,
whatever the drive answers, exactly when the sectors that the registers name are in the
partition, and those that are read have room behind the header.** -/
theorem aoe_readback_contained_iff (t : TaskFile) (aoe_p : AOE_INFO_T) :
    (∀ (w r : ℕ → UInt8) (ew er : AoeMeets) (v : ℕ), AtaWrite (pkt_cmd w) → AtaRead (pkt_cmd r) →
      pkt_lba w = some v → pkt_lba r = some v → pkt_sectors r = pkt_sectors w →
      ew.Works → er.Works →
      ((∀ medium, ReadsBack t aoe_p ew er medium w r) ↔
        (∀ b, b < IDE_SECTOR_SIZE * pkt_sectors w → w (AOE_DATA + b) = 0) ∧
          first_sector aoe_p v + pkt_sectors w ≤ lba_limit aoe_p.disk)) ∧
    ∀ mem, (∀ e medium, PacketContained aoe_p (aoe_ata_pkt t aoe_p e medium mem).2) ↔
      Harmless aoe_p mem := by
  constructor
  · intro w r ew er v hw hr hwlba hrlba hsectors hew her
    exact readsBack_iff t aoe_p hw hr hwlba hrlba hsectors hew her
  · intro mem
    constructor
    · intro h
      exact harmless_of_contained t aoe_p working_works (h working fun _ => 0)
    · intro h e medium
      cases hlba : pkt_lba mem with
      | none =>
        obtain ⟨hcommands, hused⟩ := aoe_ata_pkt_other t aoe_p e medium hlba
        refine ⟨by simp [hcommands], fun u hu i hi => ?_⟩
        have hle := hused u hu
        omega
      | some v =>
        rcases ata_lba_some hlba with hcmd | hcmd
        · exact packetContained_read t aoe_p hcmd hlba h
        · exact packetContained_write t aoe_p hcmd hlba h

/-- A packet for two sectors at 90, with zeros as data. -/
def zeros_packet (cmd : UInt8) : ℕ → UInt8 := fun i =>
  if i = 26 then 2 else if i = 27 then cmd else if i = 28 then 90 else 0

/-- The zeros are read back, and the packet that reads them is contained. -/
theorem aoe_readback_contained_iff_zeros :
    (∀ medium, ReadsBack cleared ⟨small_part⟩ working working medium (zeros_packet 0x30)
        (zeros_packet 0x20)) ∧
      ∀ e medium, PacketContained ⟨small_part⟩
        (aoe_ata_pkt cleared ⟨small_part⟩ e medium (zeros_packet 0x20)).2 := by
  have h := aoe_readback_contained_iff cleared ⟨small_part⟩
  have hlba : ∀ cmd, cmd = 0x20 ∨ cmd = 0x30 → pkt_lba (zeros_packet cmd) = some 90 := by
    rintro cmd (rfl | rfl) <;> decide
  constructor
  · refine (h.1 (zeros_packet 0x30) (zeros_packet 0x20) working working 90 (.inl rfl) (.inl rfl)
      (hlba _ (.inr rfl)) (hlba _ (.inl rfl)) rfl working_works working_works).mpr
      ⟨fun b _ => ?_, by decide⟩
    unfold zeros_packet AOE_DATA
    rw [if_neg (by omega), if_neg (by omega), if_neg (by omega)]
  · refine (h.2 (zeros_packet 0x20)).mpr fun v hv => ?_
    obtain rfl : 90 = v := Option.some.inj ((hlba _ (.inl rfl)).symm.trans hv)
    refine ⟨fun _ => by decide, fun hwrite => absurd hwrite ?_⟩
    unfold AtaWrite
    decide

/-- A packet for one sector, with 1 as the first byte of its data. -/
def ata_packet (cmd lba : UInt8) : ℕ → UInt8 := fun i =>
  if i = 26 then 1 else if i = 27 then cmd else if i = 28 then lba else if i = 36 then 1 else 0

/-- The byte 1 comes back as 0, and the sector behind the partition can be read. -/
theorem aoe_reads_back_zeros :
    (aoe_ata_pkt cleared ⟨small_part⟩ working
        (aoe_ata_pkt cleared ⟨small_part⟩ working (fun _ => 7) (ata_packet 0x30 0)).2.medium
        (ata_packet 0x20 0)).2.mem 36 = 0 ∧
      ¬ ReadsBack cleared ⟨small_part⟩ working working (fun _ => 7) (ata_packet 0x30 0)
        (ata_packet 0x20 0) ∧
      (aoe_ata_pkt cleared ⟨small_part⟩ working (fun _ => 7) (ata_packet 0x20 100)).2.commands =
        [⟨false, 163, 1⟩] ∧
      ¬ PacketContained ⟨small_part⟩
        (aoe_ata_pkt cleared ⟨small_part⟩ working (fun _ => 7) (ata_packet 0x20 100)).2 := by
  have hzero : (aoe_ata_pkt cleared ⟨small_part⟩ working
      (aoe_ata_pkt cleared ⟨small_part⟩ working (fun _ => 7) (ata_packet 0x30 0)).2.medium
      (ata_packet 0x20 0)).2.mem 36 = 0 := by decide
  have houtside : (aoe_ata_pkt cleared ⟨small_part⟩ working (fun _ => 7)
      (ata_packet 0x20 100)).2.commands = [⟨false, 163, 1⟩] := by decide
  refine ⟨hzero, fun h => ?_, houtside, fun h => ?_⟩
  · have hback := h 0 (by decide)
    rw [AOE_DATA, Nat.add_zero, hzero] at hback
    exact absurd hback (by decide)
  · have howns := h.sectors ⟨false, 163, 1⟩ (by rw [houtside]; exact List.mem_singleton_self _) 163
      ⟨le_rfl, Nat.lt_succ_self _⟩
    exact absurd howns.2 (by decide)

end CsBoot.Ide
