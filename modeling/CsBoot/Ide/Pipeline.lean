/-
The pipeline of `ata_scsi_rw_xlat` under every timing of the arrival of its data.

A timing says how many words have come at each step, and never fewer than before. The
function is safe under all of them: a word that does not hold the pattern has come
(`pbuf_ready`), and what is counted behind a piece that has come has come as well, so
no call is made for data that is missing (`Inv`). What can go wrong is the end. When
the data itself has the pattern in one of the watched words, a timing exists that makes
the function wait for that word, and then it waits for good.

A write of less than `SW_PIPE_SIZE` watches nothing and does not wait.
-/
import CsBoot.Lib.FedRun
import CsBoot.Ide.RwXlat

set_option autoImplicit false

namespace CsBoot.Ide

open FedRun

/-! ## What is written -/

/-- The sectors of a call, each with the sector of the buffer that goes there. -/
def DmaWrite.sectors (w : DmaWrite) : List (ℕ × ℕ) :=
  (List.range (w.n_byte / IDE_SECTOR_SIZE)).map fun k =>
    (w.start + k, w.buf / IDE_SECTOR_SIZE + k)

def Pipe.sectors (s : Pipe) : List (ℕ × ℕ) := s.writes.flatMap DmaWrite.sectors

/-- The first `n` sectors of the data, each at its place behind `block`. -/
def first_sectors (block n : ℕ) : List (ℕ × ℕ) := (List.range n).map fun k => (block + k, k)

/-- A call for the `c` sectors behind the first `n` ones. -/
theorem sectors_append (s : Pipe) (w : DmaWrite) (pc : Pc) {block n c : ℕ}
    (h : s.sectors = first_sectors block n) (hstart : w.start = block + n)
    (hbuf : w.buf / IDE_SECTOR_SIZE = n) (hlen : w.n_byte / IDE_SECTOR_SIZE = c) :
    (Pipe.mk pc (s.writes ++ [w])).sectors = first_sectors block (n + c) := by
  have hw : w.sectors = (List.range c).map fun k => (block + n + k, n + k) := by
    rw [DmaWrite.sectors, hstart, hbuf, hlen]
  unfold Pipe.sectors at h ⊢
  rw [List.flatMap_append, h, List.flatMap_singleton, hw]
  unfold first_sectors
  rw [List.range_add, List.map_append, List.map_map]
  simp [Function.comp_def, Nat.add_assoc]

namespace WriteJob

variable (x : WriteJob)

/-- The words that the function watches: the last of each piece, and the last of all. -/
def Watched (w : ℕ) : Prop :=
  (∃ i, i < x.pipes ∧ w = last_word i) ∨
    (0 < x.pipes ∧ x.remainder ≠ 0 ∧ w = x.last_word_rest x.pipes)

/-- The function writes the data as it should under one timing: what it has written at
any time is the first sectors of the data, each once and in its place; each call is
made when the data of it is there; and when all of it comes, all of it is written. -/
structure WritesData (arrival : ℕ → ℕ) : Prop where
  once : ∀ n, ∃ k, k ≤ x.n_byte / IDE_SECTOR_SIZE ∧
    (run x.step x.start arrival n).sectors = first_sectors x.block k
  ready : ∀ n, ∀ w ∈ (run x.step x.start arrival n).writes, w.buf + w.n_byte ≤ 4 * w.arrived
  finishes : (∃ t, x.n_byte ≤ 4 * arrival t) → ∃ n, (run x.step x.start arrival n).pc = .done ∧
    (run x.step x.start arrival n).sectors = first_sectors x.block (x.n_byte / IDE_SECTOR_SIZE)

/-- The data consists of sectors, and the pattern is in the watched words before it
comes. -/
structure Prepared : Prop where
  whole : x.n_byte % IDE_SECTOR_SIZE = 0
  stale : ∀ w, x.Watched w → x.stale w = CHECK_PATTERN1

theorem remainder_eq : x.remainder = x.n_byte % 8192 :=
  Nat.and_two_pow_sub_one_eq_mod x.n_byte 13

theorem pipes_eq : x.pipes = x.n_byte / 8192 := rfl

theorem last_word_eq (i : ℕ) : last_word i = i * 2048 + 2047 := by
  unfold last_word SW_PIPE_SIZE
  omega

/-! ## The invariant -/

variable {x} {a a' : ℕ} {s : Pipe}

theorem watched_lt (hx : x.Prepared) {w : ℕ} (hw : x.Watched w) : 4 * w < x.n_byte := by
  have hwhole := hx.whole
  have hpipes := x.pipes_eq
  have hrem := x.remainder_eq
  rcases hw with ⟨i, hi, rfl⟩ | ⟨-, hrest, rfl⟩
  · rw [last_word_eq]
    omega
  · simp only [last_word_rest, SW_PIPE_SIZE, IDE_SECTOR_SIZE] at hwhole ⊢
    omega

/-- The sectors that are written at each place of the function. -/
def written (x : WriteJob) : Pc → ℕ
  | .direct => 0
  | .loop i => i * 16
  | .count i _ _ => i * 16
  | .write i _ => i * 16
  | .rest i => i * 16
  | .write_rest i => i * 16
  | .done => x.n_byte / IDE_SECTOR_SIZE

/-- What is known at each place of the function when `a` words have come. -/
def Place (x : WriteJob) (a : ℕ) : Pc → Prop
  | .direct => x.n_byte ≤ 4 * a
  | .loop i => i ≤ x.pipes ∧ 0 < x.pipes ∧ i * 2048 ≤ a
  | .count i j bulk_no =>
    0 < bulk_no ∧ i + bulk_no ≤ j ∧ j ≤ x.pipes ∧ (i + bulk_no) * 2048 ≤ a
  | .write i bulk_no => 0 < bulk_no ∧ i + bulk_no ≤ x.pipes ∧ (i + bulk_no) * 2048 ≤ a
  | .rest i => i = x.pipes ∧ 0 < x.pipes ∧ x.remainder ≠ 0 ∧ i * 2048 ≤ a
  | .write_rest i => i = x.pipes ∧ x.n_byte ≤ 4 * a
  | .done => x.n_byte ≤ 4 * a

/-- The invariant. -/
structure Inv (x : WriteJob) (a : ℕ) (s : Pipe) : Prop where
  ready : ∀ w ∈ s.writes, w.buf + w.n_byte ≤ 4 * w.arrived
  place : Place x a s.pc
  sectors : s.sectors = first_sectors x.block (written x s.pc)

theorem Inv.mono (h : Inv x a s) (ha : a ≤ a') : Inv x a' s := by
  refine ⟨h.ready, ?_, h.sectors⟩
  have hplace := h.place
  cases hpc : s.pc <;> simp only [hpc, Place] at hplace ⊢ <;> omega

/-- A watched word without the pattern has come. -/
theorem pbuf_ready (hx : x.Prepared) {w : ℕ} (hw : x.Watched w)
    (h : x.pbuf a w ≠ CHECK_PATTERN1) : w < a := by
  by_contra hge
  exact h (by rw [pbuf, if_neg hge, hx.stale w hw])

/-- The word that the function waits for. -/
def waits (x : WriteJob) : Pc → Option ℕ
  | .loop i => if i < x.pipes then some (last_word i) else none
  | .rest i => some (x.last_word_rest i)
  | _ => none

theorem waits_watched (h : Inv x a s) {w : ℕ} (hw : waits x s.pc = some w) : x.Watched w := by
  have hplace := h.place
  cases hpc : s.pc <;> simp only [hpc, waits, Place] at hplace hw
  case loop i =>
    split at hw
    case isTrue hi => exact .inl ⟨i, hi, (Option.some.inj hw).symm⟩
    case isFalse => cases hw
  case rest i =>
    obtain ⟨rfl, hpos, hrest, -⟩ := hplace
    exact .inr ⟨hpos, hrest, (Option.some.inj hw).symm⟩
  all_goals cases hw

/-- The invariant of a place that makes no call on the way there. -/
theorem Inv.goto (h : Inv x a s) {pc : Pc} (hplace : Place x a pc)
    (hwritten : written x pc = written x s.pc) : Inv x a ⟨pc, s.writes⟩ :=
  ⟨h.ready, hplace, hwritten ▸ h.sectors⟩

/-- The invariant after a call. -/
theorem Inv.call (h : Inv x a s) (pc : Pc) (i n_byte : ℕ) (hplace : Place x a pc)
    (hi : written x s.pc = i * 16) (hready : i * SW_PIPE_SIZE + n_byte ≤ 4 * a)
    (hwritten : written x pc = i * 16 + n_byte / IDE_SECTOR_SIZE) :
    Inv x a ⟨pc, s.writes ++ [⟨x.block + i * (SW_PIPE_SIZE / IDE_SECTOR_SIZE), n_byte,
      i * SW_PIPE_SIZE, a⟩]⟩ := by
  refine ⟨?_, hplace, ?_⟩
  · intro w hw
    rcases List.mem_append.mp hw with hw | hw
    · exact h.ready w hw
    · rw [List.mem_singleton.mp hw]
      exact hready
  · have hsectors := h.sectors
    rw [hi] at hsectors
    rw [hwritten]
    refine sectors_append s _ pc hsectors rfl ?_ rfl
    simp only [SW_PIPE_SIZE, IDE_SECTOR_SIZE]
    omega

/-- The piece that the loop goes on with after a call. -/
theorem next_piece {i bulk_no : ℕ} (h : 0 < bulk_no) :
    (if 1 < bulk_no then i + (bulk_no - 1) else i) + 1 = i + bulk_no := by
  split <;> omega

/-- At the head of the loop. -/
theorem Inv.step_loop (hx : x.Prepared) (h : Inv x a s) {i : ℕ} (hpc : s.pc = .loop i) :
    Inv x a (x.step a s) := by
  have hplace := h.place
  have hpipes := x.pipes_eq
  have hrem := x.remainder_eq
  unfold WriteJob.step
  simp only [hpc, Place] at hplace ⊢
  split
  case isTrue hi =>
    split
    case isTrue => exact h
    case isFalse hword =>
      have hlt := pbuf_ready hx (.inl ⟨i, hi, rfl⟩) hword
      rw [last_word_eq] at hlt
      exact h.goto (by simp only [Place]; omega) (by rw [hpc]; rfl)
  case isFalse hi =>
    split
    case isTrue hrest =>
      rw [if_neg (by omega)]
      exact h.goto ⟨by omega, hplace.2.1, hrest, hplace.2.2⟩ (by rw [hpc]; rfl)
    case isFalse hrest =>
      apply h.goto
      · simp only [Place]
        omega
      · rw [hpc]
        simp only [written, IDE_SECTOR_SIZE]
        omega

/-- When a piece is counted, it has come, and so have all before it: these are at least
as many as were counted. -/
theorem Inv.step_count (hx : x.Prepared) (h : Inv x a s) {i j bulk_no : ℕ}
    (hpc : s.pc = .count i j bulk_no) : Inv x a (x.step a s) := by
  have hplace := h.place
  unfold WriteJob.step
  simp only [hpc, Place] at hplace ⊢
  split
  case isTrue hj =>
    apply h.goto
    · split
      case isTrue hword =>
        have hlt := pbuf_ready hx (.inl ⟨j, hj, rfl⟩) hword
        rw [last_word_eq] at hlt
        simp only [Place]
        omega
      case isFalse =>
        simp only [Place]
        omega
    · rw [hpc]
      rfl
  case isFalse hj =>
    exact h.goto (by simp only [Place]; omega) (by rw [hpc]; rfl)

/-- Each step keeps the invariant. -/
theorem Inv.step (hx : x.Prepared) (h : Inv x a s) : Inv x a (x.step a s) := by
  have hplace := h.place
  have hwhole := hx.whole
  have hpipes := x.pipes_eq
  have hrem := x.remainder_eq
  simp only [IDE_SECTOR_SIZE] at hwhole
  -- one case for each place in the program; the loops have lemmas of their own
  cases hpc : s.pc <;> simp only [hpc, Place] at hplace
  case loop i => exact h.step_loop hx hpc
  case count i j bulk_no => exact h.step_count hx hpc
  all_goals
    unfold WriteJob.step
    simp only [hpc]
  case direct =>
    have hcall := h.call .done 0 x.n_byte hplace
      (by rw [hpc]; rfl) (by omega) (by simp [written])
    simpa using hcall
  case write i bulk_no =>
    rw [next_piece hplace.1]
    apply h.call
    · simp only [Place]
      omega
    · rw [hpc]
      rfl
    · simp only [SW_PIPE_SIZE]
      omega
    · simp only [written, SW_PIPE_SIZE, IDE_SECTOR_SIZE]
      omega
  case rest i =>
    split
    case isTrue => exact h
    case isFalse hword =>
      obtain ⟨rfl, hpos, hrest, -⟩ := hplace
      have hlt := pbuf_ready hx (.inr ⟨hpos, hrest, rfl⟩) hword
      simp only [last_word_rest, SW_PIPE_SIZE] at hlt
      exact h.goto ⟨rfl, by omega⟩ (by rw [hpc]; rfl)
  case write_rest i =>
    obtain ⟨rfl, hall⟩ := hplace
    apply h.call
    · exact hall
    · rw [hpc]
      rfl
    · simp only [SW_PIPE_SIZE]
      omega
    · simp only [written, IDE_SECTOR_SIZE]
      omega
  case done => exact h

/-! ## Progress -/

/-- The number of steps that are left at most, when no step waits. -/
def left (x : WriteJob) : Pc → ℕ
  | .direct => 1
  | .loop i => (x.pipes - i) * (x.pipes + 4) + 3
  | .count i j _ => (x.pipes - (i + 1)) * (x.pipes + 4) + 5 + (x.pipes - j)
  | .write i _ => (x.pipes - (i + 1)) * (x.pipes + 4) + 4
  | .rest _ => 2
  | .write_rest _ => 1
  | .done => 0

/-- The function is at its end, or it waits for a word that has the pattern. -/
def Settled (x : WriteJob) (a : ℕ) (s : Pipe) : Prop :=
  s.pc = .done ∨ ∃ w, waits x s.pc = some w ∧ x.pbuf a w = CHECK_PATTERN1

/-- A function that is settled stays where it is. -/
theorem step_settled (h : Settled x a s) : x.step a s = s := by
  unfold WriteJob.step
  rcases h with hpc | ⟨w, hw, hword⟩
  · simp only [hpc]
  · cases hpc : s.pc <;> simp only [hpc, waits] at hw ⊢
    case loop i =>
      split at hw
      case isTrue hi =>
        rw [if_pos hi, if_pos (by rw [Option.some.inj hw]; exact hword)]
      case isFalse => cases hw
    case rest i =>
      rw [if_pos (by rw [Option.some.inj hw]; exact hword)]
    all_goals cases hw

/-- Any other step brings the end nearer. -/
theorem step_left (h : Inv x a s) (hset : ¬ Settled x a s) :
    left x (x.step a s).pc < left x s.pc := by
  have hplace := h.place
  obtain ⟨hdone, hready⟩ := not_or.mp hset
  unfold WriteJob.step
  -- `left` counts down in each place of the program, the waits apart
  cases hpc : s.pc <;> simp only [hpc, Place] at hplace ⊢
  case direct => simp [left]
  case loop i =>
    split
    case isTrue hi =>
      have hword : x.pbuf a (last_word i) ≠ CHECK_PATTERN1 := fun hword =>
        hready ⟨_, by rw [hpc, waits, if_pos hi], hword⟩
      have hsub : x.pipes - i = (x.pipes - (i + 1)) + 1 := by omega
      rw [if_neg hword]
      simp only [left]
      rw [hsub, Nat.succ_mul]
      omega
    case isFalse hi =>
      split
      · simp only [left]
        omega
      · simp only [left]
        omega
  case count i j bulk_no =>
    split
    · simp only [left]
      omega
    · simp only [left]
      omega
  case write i bulk_no =>
    have hle : (x.pipes - (i + bulk_no)) * (x.pipes + 4) ≤
        (x.pipes - (i + 1)) * (x.pipes + 4) :=
      Nat.mul_le_mul_right _ (by omega)
    simp only [left, next_piece hplace.1]
    omega
  case rest i =>
    have hword : x.pbuf a (x.last_word_rest i) ≠ CHECK_PATTERN1 := fun hword =>
      hready ⟨_, by rw [hpc, waits], hword⟩
    rw [if_neg hword]
    simp [left]
  case write_rest i => simp [left]
  case done => exact absurd hpc hdone

/-! ## Runs -/

section Runs

variable (arrival : ℕ → ℕ)

/-- A write that watches, or one whose data is there at the call. -/
def Startable (x : WriteJob) (a : ℕ) : Prop := SW_PIPE_SIZE ≤ x.n_byte ∨ x.n_byte ≤ 4 * a

theorem inv_start (h : Startable x a) : Inv x a x.start := by
  unfold start
  split
  case isTrue hlen =>
    have hpipes := x.pipes_eq
    simp only [SW_PIPE_SIZE] at hlen
    exact ⟨by simp, by simp only [Place]; omega, rfl⟩
  case isFalse hlen =>
    exact ⟨by simp, h.resolve_left hlen, rfl⟩

/-- The invariant holds throughout every run. -/
theorem inv_run (hx : x.Prepared) (hmono : Monotone arrival) (hstart : Startable x (arrival 0))
    (n : ℕ) : Inv x (arrival n) (run x.step x.start arrival n) :=
  FedRun.invariant (P := fun t s => Inv x (arrival t) s) (inv_start hstart)
    (fun t _ h => (h.step hx).mono (hmono (Nat.le_succ t))) n

/-- The function comes to its end or waits. -/
theorem run_settles (hx : x.Prepared) (hmono : Monotone arrival)
    (hstart : Startable x (arrival 0)) (n : ℕ) :
    ∃ m, n ≤ m ∧ Settled x (arrival m) (run x.step x.start arrival m) :=
  FedRun.settles (P := fun t s => Inv x (arrival t) s)
    (fun t s => Settled x (arrival t) s) (fun s => left x s.pc)
    (fun t _ => inv_run arrival hx hmono hstart t) (fun _ _ _ h hset => step_left h hset)

theorem written_le (h : Inv x a s) :
    written x s.pc ≤ x.n_byte / IDE_SECTOR_SIZE := by
  have hplace := h.place
  have hpipes := x.pipes_eq
  cases hpc : s.pc <;> simp only [hpc, Place, written, IDE_SECTOR_SIZE] at hplace ⊢ <;> omega

/-- When no watched word of the data has the pattern, the function does what it should
under every timing. -/
theorem writesData_of_clear (hx : x.Prepared) (hmono : Monotone arrival)
    (hstart : Startable x (arrival 0))
    (hclear : ∀ w, x.Watched w → x.payload w ≠ CHECK_PATTERN1) : x.WritesData arrival := by
  have hinv := inv_run arrival hx hmono hstart
  refine ⟨?_, fun n => (hinv n).ready, ?_⟩
  · intro n
    exact ⟨_, written_le (hinv n), (hinv n).sectors⟩
  · rintro ⟨t, ht⟩
    obtain ⟨m, hm, hset⟩ := run_settles arrival hx hmono hstart t
    refine ⟨m, ?_⟩
    rcases hset with hdone | ⟨w, hw, hword⟩
    · have hsectors := (hinv m).sectors
      rw [hdone] at hsectors
      exact ⟨hdone, hsectors⟩
    · -- all words are there, so the word that is waited for is one of the data
      have hwatched := waits_watched (hinv m) hw
      have hcome : w < arrival m := by
        have hall := hmono hm
        have hlt := watched_lt hx hwatched
        omega
      rw [pbuf, if_pos hcome] at hword
      exact absurd hword (hclear w hwatched)

/-- When the data up to the piece of a watched word has come, the word is the only one
not there that the function can wait for. -/
theorem waits_only (hx : x.Prepared) {w w' : ℕ} (hw : x.Watched w)
    (h : Inv x (w / 2048 * 2048) s) (hw' : waits x s.pc = some w')
    (hge : w / 2048 * 2048 ≤ w') : w' = w := by
  have hplace := h.place
  have hwhole := hx.whole
  have hpipes := x.pipes_eq
  have hrem := x.remainder_eq
  simp only [IDE_SECTOR_SIZE] at hwhole
  cases hpc : s.pc <;> simp only [hpc, waits, Place] at hplace hw'
  case loop i =>
    split at hw'
    case isTrue hi =>
      rw [← Option.some.inj hw', last_word_eq] at hge ⊢
      rcases hw with ⟨c, hc, rfl⟩ | ⟨-, hrest, rfl⟩
      · rw [last_word_eq] at *
        omega
      · simp only [last_word_rest, SW_PIPE_SIZE] at *
        omega
    case isFalse => cases hw'
  case rest i =>
    rw [← Option.some.inj hw']
    rcases hw with ⟨c, hc, rfl⟩ | ⟨-, hrest, rfl⟩
    · rw [last_word_eq] at *
      omega
    · rw [hplace.1]
  all_goals cases hw'

/-- A watched word of the data that has the pattern is waited for in vain: not under
every timing, but under one. -/
theorem not_writesData (hx : x.Prepared) {w : ℕ} (hw : x.Watched w)
    (hword : x.payload w = CHECK_PATTERN1) :
    ∃ arrival, Monotone arrival ∧ ¬ x.WritesData arrival := by
  have hlt := watched_lt hx hw
  have hwhole := hx.whole
  simp only [IDE_SECTOR_SIZE] at hwhole
  have hlen : SW_PIPE_SIZE ≤ x.n_byte := by
    have hpipes := x.pipes_eq
    simp only [SW_PIPE_SIZE]
    rcases hw with ⟨i, hi, -⟩ | ⟨hpos, -⟩ <;> omega
  -- the data first comes up to the piece of the word, and the function waits
  set a₀ := w / 2048 * 2048 with ha₀
  obtain ⟨m, -, hset⟩ := run_settles (fun _ => a₀) hx monotone_const (.inl hlen) 0
  have hinv := inv_run (fun _ => a₀) hx monotone_const (.inl hlen) m
  set s := run x.step x.start (fun _ => a₀) m with hs
  have hdone : s.pc ≠ .done := by
    intro hpc
    have hplace := hinv.place
    rw [hpc] at hplace
    simp only [Place] at hplace
    omega
  obtain ⟨w', hw', hword'⟩ := hset.resolve_left hdone
  have hpayload : x.payload w' = CHECK_PATTERN1 := by
    by_cases hcome : w' < a₀
    · rwa [pbuf, if_pos hcome] at hword'
    · rw [waits_only hx hw hinv hw' (by omega), hword]
  have hstay : ∀ a, Settled x a s := by
    intro a
    refine .inr ⟨w', hw', ?_⟩
    unfold pbuf
    split
    · exact hpayload
    · exact hx.stale w' (waits_watched hinv hw')
  -- then all of it comes
  let late : ℕ → ℕ := fun t => if t < m then a₀ else x.n_byte / 4
  have hagree : run x.step x.start late m = s :=
    run_congr fun t ht => if_pos ht
  refine ⟨late, ?_, ?_⟩
  · intro t t' htt'
    simp only [late]
    split <;> split <;> omega
  · intro hright
    obtain ⟨n, hn, -⟩ := hright.finishes ⟨m, by simp only [late, lt_irrefl, if_false]; omega⟩
    rcases Nat.le_total m n with hmn | hnm
    · have hrun : run x.step x.start late n = s := by
        rw [blocked x.step x.start late (fun t _ => ?_) hmn, hagree]
        rw [hagree]
        exact step_settled (hstay _)
      rw [hrun] at hn
      exact hdone hn
    · have hrun := blocked x.step x.start late (fun t _ => step_settled (.inl hn)) hnm
      rw [hagree] at hrun
      rw [← hrun] at hn
      exact hdone hn

/-- A short write does what it should exactly when its data is there at the call. -/
theorem writesData_short (hx : x.Prepared) (hshort : x.n_byte < SW_PIPE_SIZE)
    (hmono : Monotone arrival) : x.WritesData arrival ↔ x.n_byte ≤ 4 * arrival 0 := by
  constructor
  · intro h
    have hready := h.ready 1
    have hstep : (run x.step x.start arrival 1).writes = [⟨x.block, x.n_byte, 0, arrival 0⟩] := by
      simp [run, start, WriteJob.step, Nat.not_le.mpr hshort]
    rw [hstep] at hready
    simpa using hready
  · intro h
    apply writesData_of_clear arrival hx hmono (.inr h)
    intro w hw
    have hpipes := x.pipes_eq
    simp only [SW_PIPE_SIZE] at hshort
    rcases hw with ⟨i, hi, -⟩ | ⟨hpos, -⟩ <;> omega

end Runs

end WriteJob

/-- **A write of less than `SW_PIPE_SIZE` is carried out rightly exactly when its data
is there at the call, and a longer one under every timing exactly when no watched word of
its data has the pattern.** -/
theorem rw_xlat_writes_iff (scsicmd : ℕ → UInt8) (block n_byte : ℕ) (payload stale : ℕ → UInt32)
    (hwrite : ata_scsi_rw_xlat scsicmd = .write block n_byte)
    (hstale : ∀ w, (WriteJob.mk block n_byte payload stale).Watched w →
      stale w = CHECK_PATTERN1) :
    (n_byte < SW_PIPE_SIZE → ∀ arrival, Monotone arrival →
      ((WriteJob.mk block n_byte payload stale).WritesData arrival ↔ n_byte ≤ 4 * arrival 0)) ∧
    (SW_PIPE_SIZE ≤ n_byte →
      ((∀ arrival, Monotone arrival →
          (WriteJob.mk block n_byte payload stale).WritesData arrival) ↔
        ∀ w, (WriteJob.mk block n_byte payload stale).Watched w →
          payload w ≠ CHECK_PATTERN1)) := by
  have hx : (WriteJob.mk block n_byte payload stale).Prepared := by
    obtain ⟨n_block, -, -, hlen⟩ := write_n_byte hwrite
    exact ⟨by rw [hlen, IDE_SECTOR_SIZE, Nat.mul_mod_right], hstale⟩
  constructor
  · intro hshort arrival hmono
    exact WriteJob.writesData_short arrival hx hshort hmono
  · intro hlong
    constructor
    · intro h w hw hword
      obtain ⟨arrival, hmono, hnot⟩ := WriteJob.not_writesData hx hw hword
      exact hnot (h arrival hmono)
    · intro hclear arrival hmono
      exact WriteJob.writesData_of_clear arrival hx hmono (.inl hlong) hclear

/-- `WRITE_10` of forty blocks at 3. -/
def write_forty : ℕ → UInt8 := fun i =>
  if i = 0 then 0x2a else if i = 5 then 3 else if i = 8 then 40 else 0

/-- Two whole pieces and a half, each word its own number: written rightly under every timing. -/
theorem rw_xlat_writes_iff_numbers :
    ata_scsi_rw_xlat write_forty = .write 3 20480 ∧
      ∀ arrival, Monotone arrival →
        (WriteJob.mk 3 20480 UInt32.ofNat fun _ => CHECK_PATTERN1).WritesData arrival := by
  have hwrite : ata_scsi_rw_xlat write_forty = .write 3 20480 := by decide
  refine ⟨hwrite, ((rw_xlat_writes_iff write_forty 3 20480 UInt32.ofNat
    (fun _ => CHECK_PATTERN1) hwrite fun _ _ => rfl).2 (by decide)).mpr fun w hw hword => ?_⟩
  have hlt := WriteJob.watched_lt ⟨by decide, fun _ _ => rfl⟩ hw
  simp only at hlt
  have hword' := congrArg UInt32.toNat hword
  rw [UInt32.toNat_ofNat', Nat.mod_eq_of_lt (by omega)] at hword'
  have hpattern : 20480 < CHECK_PATTERN1.toNat := by decide
  omega

/-- `WRITE_10` of sixteen blocks at 0. -/
def write_sixteen : ℕ → UInt8 := fun i => if i = 0 then 0x2a else if i = 8 then 16 else 0

/-- Zeros with the pattern as the last word. All of the data is there at the call, and it
waits without end. -/
theorem rw_xlat_waits_for_pattern :
    ata_scsi_rw_xlat write_sixteen = .write 0 8192 ∧
      ¬ (WriteJob.mk 0 8192 (fun w => if w = 2047 then CHECK_PATTERN1 else 0)
        fun _ => CHECK_PATTERN1).WritesData fun _ => 2048 := by
  refine ⟨by decide, fun h => ?_⟩
  obtain ⟨n, hn, -⟩ := h.finishes ⟨0, by simp⟩
  have hrun := blocked
    (WriteJob.mk 0 8192 (fun w => if w = 2047 then CHECK_PATTERN1 else 0)
      fun _ => CHECK_PATTERN1).step
    ⟨.loop 0, []⟩ (fun _ => 2048) (fun t _ => rfl) (Nat.zero_le n)
  have hstart : (WriteJob.mk 0 8192 (fun w => if w = 2047 then CHECK_PATTERN1 else 0)
      fun _ => CHECK_PATTERN1).start = ⟨.loop 0, []⟩ := rfl
  rw [hstart, hrun, run] at hn
  cases hn

end CsBoot.Ide
