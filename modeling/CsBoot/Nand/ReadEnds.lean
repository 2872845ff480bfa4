/-
When `flash_read_buf` ends, down to the single answers of the chip.

`ReadBuf.lean` takes what `StatusCheck` returns as given. Here it is followed
through its own loop: the status register is read again after every answer zero,
and after any other answer that is not the one it waits for as long as `cnt`, an
8-bit counter, is not zero. `flash_read_buf` in turn tries a page again as often
as `StatusCheck` fails, and goes on to the next block as long as it finds one bad,
with no regard to where the chip ends.

The loop that waits for the register access itself is left out: it ends when the
controller has done what it was told. Addresses are not taken modulo `2^32`, as a
chip is no larger than that.
-/
import CsBoot.Nand.ReadBuf

set_option autoImplicit false

namespace CsBoot.Nand

open Status FlashErr

/-! ## `StatusCheck` -/

def STS_WP : UInt8 := 0x80
def STS_READY : UInt8 := 0x40
def STS_TRUE_READY : UInt8 := 0x40

def PAGE512_RAW_SIZE : ℕ := 0x210

/-- The answer that `StatusCheck` waits for. -/
def sts_ready (g : FlashInfo) : UInt8 :=
  if g.page_size < PAGE512_RAW_SIZE then STS_WP ||| STS_READY
  else STS_WP ||| STS_READY ||| STS_TRUE_READY

/-- What `StatusCheck` makes of one answer: it asks again, with `cnt` as it is then,
or returns. -/
def StatusCheck_answer (g : FlashInfo) (status cnt : UInt8) : UInt8 ⊕ Status :=
  if status = 0 then .inl (cnt - 1)
  else if status ≠ sts_ready g ∧ 0 < cnt then .inl (cnt - 1)
  else .inr (if status = sts_ready g then PASS else FAIL)

/-! ## `flash_read_buf`, answer by answer -/

/-- `flash_read_buf` with the number of answers so far, and with the counter of
`StatusCheck` while that runs. -/
structure PollState where
  read : ReadState
  polls : ℕ
  cnt : Option UInt8

/-- The test at the label `NEXT_BLOCK`. -/
def next_block_bad (g : FlashInfo) (d : NandDev) (addr : ℕ) : Prop :=
  addr &&& (g.block_size - 1) = 0 ∧ VeffBad g d addr = FAIL

instance (g : FlashInfo) (d : NandDev) (addr : ℕ) : Decidable (next_block_bad g d addr) :=
  inferInstanceAs (Decidable (_ ∧ _))

/-- A pass over a bad block, the call of `StatusCheck`, or one answer. `answer k` is
what the chip says when it is asked for the `k`-th time. -/
def flash_read_buf_poll (g : FlashInfo) (d : NandDev) (answer : ℕ → UInt8) (t : PollState) :
    PollState ⊕ ReadState :=
  match t.cnt with
  | none =>
      if t.read.len = 0 ∨ next_block_bad g d t.read.addr then
        match flash_read_buf_pass g d (fun _ => PASS) t.read with
        | .inl s => .inl { t with read := s }
        | .inr r => .inr r
      else .inl { t with cnt := some 5 }
  | some cnt =>
      match StatusCheck_answer g (answer t.polls) cnt with
      | .inl cnt => .inl { t with polls := t.polls + 1, cnt := some cnt }
      | .inr status =>
          -- `StatusCheck` returns, and the pass goes on with what it returns
          match flash_read_buf_pass g d (fun _ => status) t.read with
          | .inl s => .inl ⟨s, t.polls + 1, none⟩
          | .inr r => .inr r

/-- The block that the next step asks the chip about, to check its marker or to read
a page of it. -/
def asks_block (g : FlashInfo) (answer : ℕ → UInt8) (t : PollState) : Option ℕ :=
  match t.cnt with
  | none =>
      if t.read.len ≠ 0 ∧ t.read.addr &&& (g.block_size - 1) = 0 then
        some (t.read.addr / g.block_size)
      else none
  | some cnt =>
      match StatusCheck_answer g (answer t.polls) cnt with
      | .inl _ => none
      | .inr PASS => some (t.read.addr / g.block_size)
      | .inr FAIL => none

def flash_read_buf_enter (addr : ℕ) (buf : ℕ → UInt8) (len : ℕ) : PollState :=
  ⟨flash_read_buf_start addr buf len, 0, none⟩

/-- `flash_read_buf` returns after finitely many steps, everything read or with an
error, and asks only about the `N` blocks that the chip has. -/
def ReadEnds (g : FlashInfo) (d : NandDev) (N : ℕ) (answer : ℕ → UInt8) (addr : ℕ)
    (buf : ℕ → UInt8) (len : ℕ) : Prop :=
  Loop.Ends (flash_read_buf_poll g d answer) (fun t => ∀ b ∈ asks_block g answer t, b < N)
    (fun r => r.len = 0 ∨ r.res ≠ FLASH_ERR_OK) (flash_read_buf_enter addr buf len)

/-! ## What a read needs -/

/-- There is a page to be read at the address: it lies in the chip, and not at the
front of a bad block. -/
def page_there (g : FlashInfo) (d : NandDev) (N addr : ℕ) : Prop :=
  addr / g.block_size < N ∧ ¬ next_block_bad g d addr

/-- `len` bytes from the address on need `n` pages, and the chip has them: bad blocks
are passed over, and the need ends with a page that cannot be corrected. -/
inductive Needs (g : FlashInfo) (d : NandDev) (N : ℕ) : ℕ → ℕ → ℕ → Prop
  | nothing (addr : ℕ) : Needs g d N addr 0 0
  | bad {addr len n : ℕ} : len ≠ 0 → next_block_bad g d addr → addr / g.block_size < N →
      Needs g d N (addr + g.block_size) len n → Needs g d N addr len n
  | error {addr len : ℕ} : len ≠ 0 → page_there g d N addr → (pageread g d addr).1 ≠ PASS →
      Needs g d N addr len 1
  | page {addr len n : ℕ} : len ≠ 0 → page_there g d N addr → (pageread g d addr).1 = PASS →
      Needs g d N (addr + read_size g (len - read_size g len)) (len - read_size g len) n →
      Needs g d N addr len (n + 1)

/-- Among the answers from the `k`-th on there are `n` that say that the chip is ready. -/
def ReadyTimes (g : FlashInfo) (answer : ℕ → UInt8) (k n : ℕ) : Prop :=
  ∃ m, n ≤ Nat.count (fun j => answer (k + j) = sts_ready g) m

section Answers

variable {g : FlashInfo} {d : NandDev} {N : ℕ} {answer : ℕ → UInt8} {t : PollState}
  {cnt : UInt8} {n k : ℕ}

theorem StatusCheck_ready : StatusCheck_answer g (sts_ready g) cnt = .inr PASS := by
  have hne : sts_ready g ≠ 0 := by
    unfold sts_ready
    split_ifs <;> decide
  rw [StatusCheck_answer, if_neg hne, if_neg (fun h => h.1 rfl), if_pos rfl]

variable (cnt) in
/-- Any other answer makes it ask again, or fail. -/
theorem StatusCheck_other {status : UInt8} (h : status ≠ sts_ready g) :
    (∃ cnt', StatusCheck_answer g status cnt = .inl cnt') ∨
      StatusCheck_answer g status cnt = .inr FAIL := by
  unfold StatusCheck_answer
  split_ifs
  · exact .inl ⟨_, rfl⟩
  · exact .inl ⟨_, rfl⟩
  · exact .inr rfl

/-! ## Counting answers -/

theorem readyTimes_zero : ReadyTimes g answer k 0 := ⟨0, Nat.zero_le _⟩

/-- The first answer of `m + 1`, and the others. -/
theorem count_answers (m : ℕ) :
    Nat.count (fun j => answer (k + j) = sts_ready g) (m + 1) =
      Nat.count (fun j => answer (k + 1 + j) = sts_ready g) m +
        if answer k = sts_ready g then 1 else 0 := by
  rw [Nat.count_succ']
  simp only [Nat.add_zero, Nat.add_assoc, Nat.add_comm 1]

/-- An answer that the chip is ready is one more. -/
theorem ReadyTimes.ready (h : answer k = sts_ready g) (hn : ReadyTimes g answer (k + 1) n) :
    ReadyTimes g answer k (n + 1) := by
  obtain ⟨m, hm⟩ := hn
  refine ⟨m + 1, ?_⟩
  rw [count_answers, if_pos h]
  omega

theorem ReadyTimes.later (hn : ReadyTimes g answer (k + 1) n) : ReadyTimes g answer k n := by
  obtain ⟨m, hm⟩ := hn
  refine ⟨m + 1, ?_⟩
  rw [count_answers]
  omega

/-! ## The steps -/

variable {s : ReadState} {cnt' : UInt8}

theorem poll_done (hlen : s.len = 0) :
    flash_read_buf_poll g d answer ⟨s, k, none⟩ = .inr s := by
  have hpass : flash_read_buf_pass g d (fun _ => PASS) s = .inr s := by
    rw [flash_read_buf_pass, if_pos hlen]
  simp only [flash_read_buf_poll, if_pos (Or.inl hlen), hpass]

theorem poll_bad (hlen : s.len ≠ 0) (hbad : next_block_bad g d s.addr) :
    flash_read_buf_poll g d answer ⟨s, k, none⟩ =
      .inl ⟨{ s with addr := s.addr + g.block_size }, k, none⟩ := by
  have hpass : flash_read_buf_pass g d (fun _ => PASS) s =
      .inl { s with addr := s.addr + g.block_size } := by
    rw [flash_read_buf_pass, if_neg hlen, if_pos (show _ ∧ _ from hbad)]
  simp only [flash_read_buf_poll, if_pos (Or.inr hbad), hpass]

theorem poll_call (hlen : s.len ≠ 0) (hbad : ¬ next_block_bad g d s.addr) :
    flash_read_buf_poll g d answer ⟨s, k, none⟩ = .inl ⟨s, k, some 5⟩ := by
  simp only [flash_read_buf_poll, if_neg (not_or.mpr ⟨hlen, hbad⟩)]

theorem poll_again (h : StatusCheck_answer g (answer k) cnt = .inl cnt') :
    flash_read_buf_poll g d answer ⟨s, k, some cnt⟩ = .inl ⟨s, k + 1, some cnt'⟩ := by
  simp only [flash_read_buf_poll, h]

theorem poll_fail (h : StatusCheck_answer g (answer k) cnt = .inr FAIL) (hlen : s.len ≠ 0)
    (hbad : ¬ next_block_bad g d s.addr) :
    flash_read_buf_poll g d answer ⟨s, k, some cnt⟩ =
      .inl ⟨{ s with checks := s.checks + 1 }, k + 1, none⟩ := by
  have hpass : flash_read_buf_pass g d (fun _ => FAIL) s =
      .inl { s with checks := s.checks + 1 } := by
    rw [flash_read_buf_pass, if_neg hlen, if_neg (show ¬ (_ ∧ _) from hbad), if_pos rfl]
  simp only [flash_read_buf_poll, h, hpass]

theorem poll_error (h : answer k = sts_ready g) (hlen : s.len ≠ 0)
    (hbad : ¬ next_block_bad g d s.addr) (hpage : (pageread g d s.addr).1 ≠ PASS) :
    flash_read_buf_poll g d answer ⟨s, k, some cnt⟩ =
      .inr { s with res := FLASH_ERR_HWR, checks := s.checks + 1 } := by
  have hpass : flash_read_buf_pass g d (fun _ => PASS) s =
      .inr { s with res := FLASH_ERR_HWR, checks := s.checks + 1 } := by
    rw [flash_read_buf_pass, if_neg hlen, if_neg (show ¬ (_ ∧ _) from hbad), if_neg (by decide)]
    exact if_pos hpage
  simp only [flash_read_buf_poll, h, StatusCheck_ready, hpass]

variable (cnt) in
/-- What a page that is read leaves of the variables that decide what comes next. -/
theorem poll_page (h : answer k = sts_ready g) (hlen : s.len ≠ 0)
    (hbad : ¬ next_block_bad g d s.addr) (hpage : (pageread g d s.addr).1 = PASS) :
    ∃ s', flash_read_buf_poll g d answer ⟨s, k, some cnt⟩ = .inl ⟨s', k + 1, none⟩ ∧
      s'.len = s.len - read_size g s.len ∧ s'.addr = s.addr + read_size g s'.len := by
  obtain ⟨s', hpass, haddr⟩ : ∃ s', flash_read_buf_pass g d (fun _ => PASS) s = .inl s' ∧
      s'.len = s.len - read_size g s.len ∧ s'.addr = s.addr + read_size g s'.len := by
    rw [flash_read_buf_pass, if_neg hlen, if_neg (show ¬ (_ ∧ _) from hbad), if_neg (by decide)]
    refine ⟨_, if_neg (not_not.mpr hpage), rfl, rfl⟩
  refine ⟨s', ?_, haddr⟩
  simp only [flash_read_buf_poll, h, StatusCheck_ready, hpass]

/-! ## The blocks asked about -/

theorem asks_idle (hN : s.len ≠ 0 → s.addr / g.block_size < N) :
    ∀ b ∈ asks_block g answer ⟨s, k, none⟩, b < N := by
  intro b hb
  unfold asks_block at hb
  dsimp only at hb
  split_ifs at hb with h
  · exact Option.some.inj hb ▸ hN h.1
  · nomatch hb

theorem asks_call (hN : s.addr / g.block_size < N) :
    ∀ b ∈ asks_block g answer ⟨s, k, some cnt⟩, b < N := by
  intro b hb
  unfold asks_block at hb
  dsimp only at hb
  split at hb
  · nomatch hb
  · exact Option.some.inj hb ▸ hN
  · nomatch hb

/-- A bad block is asked about, -/
theorem asked_bad (hlen : s.len ≠ 0) (hbad : next_block_bad g d s.addr)
    (h : ∀ b ∈ asks_block g answer ⟨s, k, none⟩, b < N) : s.addr / g.block_size < N := by
  refine h _ ?_
  unfold asks_block
  exact if_pos ⟨hlen, hbad.1⟩

/-- and the block of a page that is read. -/
theorem asked_page (hready : answer k = sts_ready g)
    (h : ∀ b ∈ asks_block g answer ⟨s, k, some cnt⟩, b < N) : s.addr / g.block_size < N := by
  refine h _ ?_
  simp only [asks_block, hready, StatusCheck_ready, Option.mem_def]

/-! ## Both directions -/

/-- `ReadEnds` from any state. -/
def PollEnds (g : FlashInfo) (d : NandDev) (N : ℕ) (answer : ℕ → UInt8) (t : PollState) : Prop :=
  Loop.Ends (flash_read_buf_poll g d answer) (fun t => ∀ b ∈ asks_block g answer t, b < N)
    (fun r => r.len = 0 ∨ r.res ≠ FLASH_ERR_OK) t

/-- A page is waited for until the chip is ready: the induction is on the answers up to
there, in whatever calls of `StatusCheck` they come. -/
theorem ends_of_ready {addr len : ℕ} (hlen : len ≠ 0) (hpage : page_there g d N addr)
    (hrest : ∀ s k cnt, s.addr = addr → s.len = len → answer k = sts_ready g →
      ReadyTimes g answer (k + 1) n → PollEnds g d N answer ⟨s, k, some cnt⟩)
    {m : ℕ} (hm : n + 1 ≤ Nat.count (fun j => answer (k + j) = sts_ready g) m)
    (haddr : s.addr = addr) (hslen : s.len = len) : PollEnds g d N answer ⟨s, k, some cnt⟩ := by
  induction m generalizing s k cnt with
  | zero => simp at hm
  | succ m ih =>
      rw [count_answers] at hm
      by_cases hready : answer k = sts_ready g
      · rw [if_pos hready] at hm
        exact hrest s k cnt haddr hslen hready ⟨m, by omega⟩
      · rw [if_neg hready] at hm
        have hN : s.addr / g.block_size < N := haddr ▸ hpage.1
        have hasks : ∀ b ∈ asks_block g answer ⟨s, k, some cnt⟩, b < N := asks_call hN
        have hbad : ¬ next_block_bad g d s.addr := haddr ▸ hpage.2
        have hslen' : s.len ≠ 0 := hslen ▸ hlen
        rcases StatusCheck_other cnt hready with ⟨cnt', hagain⟩ | hfail
        · exact (Loop.ends_again (poll_again hagain)).mpr ⟨hasks, ih hm haddr hslen⟩
        · -- the page is tried again, with another call
          refine (Loop.ends_again (poll_fail hfail hslen' hbad)).mpr ⟨hasks, ?_⟩
          exact (Loop.ends_again
            (poll_call (s := { s with checks := s.checks + 1 }) hslen' hbad)).mpr
            ⟨asks_idle fun _ => haddr ▸ hpage.1, ih hm haddr hslen⟩

theorem Needs.ends {addr len : ℕ} (h : Needs g d N addr len n) (haddr : s.addr = addr)
    (hslen : s.len = len) (hready : ReadyTimes g answer k n) :
    PollEnds g d N answer ⟨s, k, none⟩ := by
  induction h generalizing s k with
  | nothing addr =>
      exact (Loop.ends_done (poll_done hslen)).mpr
        ⟨asks_idle fun h => absurd hslen h, .inl hslen⟩
  | bad hlen hbad hN hnext ih =>
      subst haddr hslen
      exact (Loop.ends_again (poll_bad hlen hbad)).mpr ⟨asks_idle fun _ => hN, ih rfl rfl hready⟩
  | error hlen hpage herr =>
      obtain ⟨m, hm⟩ := hready
      refine (Loop.ends_again (poll_call (hslen ▸ hlen) (haddr ▸ hpage.2))).mpr
        ⟨asks_idle fun _ => haddr ▸ hpage.1, ?_⟩
      refine ends_of_ready (n := 0) hlen hpage ?_ hm haddr hslen
      rintro s k cnt rfl rfl hnow -
      exact (Loop.ends_done (poll_error hnow hlen hpage.2 herr)).mpr
        ⟨asks_call hpage.1, .inr nofun⟩
  | page hlen hpage hok hnext ih =>
      obtain ⟨m, hm⟩ := hready
      refine (Loop.ends_again (poll_call (hslen ▸ hlen) (haddr ▸ hpage.2))).mpr
        ⟨asks_idle fun _ => haddr ▸ hpage.1, ?_⟩
      refine ends_of_ready hlen hpage ?_ hm haddr hslen
      rintro s k cnt rfl rfl hnow hlater
      obtain ⟨s', hstep, hlen', haddr'⟩ := poll_page cnt hnow hlen hpage.2 hok
      exact (Loop.ends_again hstep).mpr
        ⟨asks_call hpage.1, ih (by rw [haddr', hlen']) hlen' hlater⟩

/-- A page is waited for only where one is to be read. -/
def Waits (g : FlashInfo) (d : NandDev) (t : PollState) : Prop :=
  t.cnt ≠ none → t.read.len ≠ 0 ∧ ¬ next_block_bad g d t.read.addr

theorem PollEnds.needs (h : PollEnds g d N answer t) (ht : Waits g d t) :
    ∃ n, Needs g d N t.read.addr t.read.len n ∧ ReadyTimes g answer t.polls n := by
  revert ht
  refine Loop.Ends.induct (P := fun t => Waits g d t →
    ∃ n, Needs g d N t.read.addr t.read.len n ∧ ReadyTimes g answer t.polls n) ?_ ?_ h
  · rintro ⟨s, k, cnt⟩ r hr hI hw
    -- the loop ends here: nothing is left, or a page cannot be read
    cases cnt with
    | none =>
        by_cases hlen : s.len = 0
        · exact ⟨0, by rw [hlen]; exact .nothing _, readyTimes_zero⟩
        · by_cases hbad : next_block_bad g d s.addr
          · rw [poll_bad hlen hbad] at hr
            nomatch hr
          · rw [poll_call hlen hbad] at hr
            nomatch hr
    | some cnt =>
        obtain ⟨hlen, hbad⟩ := hw nofun
        by_cases hready : answer k = sts_ready g
        · have hpage : page_there g d N s.addr := ⟨asked_page hready hI, hbad⟩
          by_cases hok : (pageread g d s.addr).1 = PASS
          · obtain ⟨s', hstep, -⟩ := poll_page cnt hready hlen hbad hok
            rw [hstep] at hr
            nomatch hr
          · exact ⟨1, .error hlen hpage hok, readyTimes_zero.ready hready⟩
        · rcases StatusCheck_other cnt hready with ⟨cnt', hagain⟩ | hfail
          · rw [poll_again hagain] at hr
            nomatch hr
          · rw [poll_fail hfail hlen hbad] at hr
            nomatch hr
  · rintro ⟨s, k, cnt⟩ t' hr hI ih hw
    cases cnt with
    | none =>
        by_cases hlen : s.len = 0
        · exact ⟨0, by rw [hlen]; exact .nothing _, readyTimes_zero⟩
        · by_cases hbad : next_block_bad g d s.addr
          · rw [poll_bad hlen hbad] at hr
            obtain rfl := Sum.inl.inj hr
            obtain ⟨n, hn, htimes⟩ := ih (fun h => absurd rfl h)
            exact ⟨n, .bad hlen hbad (asked_bad hlen hbad hI) hn, htimes⟩
          · rw [poll_call hlen hbad] at hr
            obtain rfl := Sum.inl.inj hr
            exact ih fun _ => ⟨hlen, hbad⟩
    | some cnt =>
        obtain ⟨hlen, hbad⟩ := hw nofun
        by_cases hready : answer k = sts_ready g
        · have hpage : page_there g d N s.addr := ⟨asked_page hready hI, hbad⟩
          by_cases hok : (pageread g d s.addr).1 = PASS
          · obtain ⟨s', hstep, hlen', haddr'⟩ := poll_page cnt hready hlen hbad hok
            rw [hstep] at hr
            obtain rfl := Sum.inl.inj hr
            obtain ⟨n, hn, htimes⟩ := ih (fun h => absurd rfl h)
            dsimp only at hn
            rw [haddr', hlen'] at hn
            exact ⟨n + 1, .page hlen hpage hok hn, htimes.ready hready⟩
          · rw [poll_error hready hlen hbad hok] at hr
            nomatch hr
        · rcases StatusCheck_other cnt hready with ⟨cnt', hagain⟩ | hfail
          · rw [poll_again hagain] at hr
            obtain rfl := Sum.inl.inj hr
            obtain ⟨n, hn, htimes⟩ := ih fun _ => ⟨hlen, hbad⟩
            exact ⟨n, hn, htimes.later⟩
          · rw [poll_fail hfail hlen hbad] at hr
            obtain rfl := Sum.inl.inj hr
            obtain ⟨n, hn, htimes⟩ := ih (fun h => absurd rfl h)
            exact ⟨n, hn, htimes.later⟩

end Answers

/-- **When `flash_read_buf` ends**, with whatever answers of the chip: the chip has the
pages that the read needs, and says for each of them once that it is ready. Whatever
else it says is only a reason to ask again. -/
theorem flash_read_buf_ends_iff (g : FlashInfo) (d : NandDev) (N : ℕ) (answer : ℕ → UInt8)
    (addr : ℕ) (buf : ℕ → UInt8) (len : ℕ) :
    ReadEnds g d N answer addr buf len ↔
      ∃ n, Needs g d N addr len n ∧ ReadyTimes g answer 0 n := by
  constructor
  · intro h
    exact PollEnds.needs h fun h => absurd rfl h
  · rintro ⟨n, hn, hready⟩
    exact hn.ends rfl rfl hready

/-! ## A chip of one bad block -/

theorem next_block_bad_iff {g : FlashInfo} {d : NandDev} (b : ℕ) :
    next_block_bad g d (b * g.block_size) ↔ blk_bad g d b = true := by
  rw [next_block_bad, g.block_mask, Nat.mul_mod_left, blk_bad, decide_eq_true_eq]
  exact and_iff_right rfl

/-- A chip with one block, which is marked bad. -/
def bad_dev : NandDev :=
  ⟨fun _ _ => 0, ⟨fun _ => false, fun _ _ => 0, fun _ => false, fun _ => none⟩, []⟩

/-- **A read that runs off the chip**: of one byte, from a chip whose only block is bad,
though the chip is ready whenever it is asked. -/
theorem bad_chip_read_runs_on :
    ¬ ReadEnds zeros_g bad_dev 1 (fun _ => sts_ready zeros_g) 0 (fun _ => 0) 1 := by
  have hbad : ∀ b, blk_bad zeros_g bad_dev b = true := by
    intro b
    rw [← Bool.not_eq_false, blk_bad_eq_false]
    rintro ⟨h, -⟩
    exact absurd h (show (0 : UInt8) ≠ 0xff by decide)
  have hskip : ∀ b, next_block_bad zeros_g bad_dev (b * zeros_g.block_size) := fun b =>
    (next_block_bad_iff b).mpr (hbad b)
  intro h
  obtain ⟨n, hn, -⟩ := PollEnds.needs h fun h => absurd rfl h
  -- the first block is passed over, and there is no second one
  have hfirst : Needs zeros_g bad_dev 1 (1 * zeros_g.block_size) 1 n := by
    cases hn with
    | bad _ _ _ hnext => exact hnext
    | error _ hpage _ => exact absurd (hskip 0) hpage.2
    | page _ hpage _ _ => exact absurd (hskip 0) hpage.2
  cases hfirst with
  | bad _ _ hN _ =>
      rw [Nat.mul_div_cancel _ zeros_g.block_pos] at hN
      exact absurd hN (lt_irrefl 1)
  | error _ hpage _ => exact absurd (hskip 1) hpage.2
  | page _ hpage _ _ => exact absurd (hskip 1) hpage.2

end CsBoot.Nand
