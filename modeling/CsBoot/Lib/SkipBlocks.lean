/-
Storing a byte string in blocks, some of which cannot be used.

A string of `len` bytes is cut into chunks of one block each, and every chunk
goes into the next block that takes it. Blocks marked bad beforehand are passed
over; other blocks are tried, and a block that fails is marked bad as well, so
that a reader who passes over the marked blocks finds the chunks in order.

`placed n` is the number of bytes stored once the first `n` blocks have been
passed. Nothing here says what a block is or how it fails.
-/
import Mathlib.Tactic

set_option autoImplicit false

namespace SkipBlocks

/-- The first `n` bytes of a string given as a function. -/
def firstBytes {α : Type*} (data : ℕ → α) (n : ℕ) : List α := (List.range n).map data

/-- The contents of the blocks not marked, in order, among the first `n`. -/
def goodBytes {α : Type*} (bad : ℕ → Bool) (content : ℕ → List α) : ℕ → List α
  | 0 => []
  | n + 1 => goodBytes bad content n ++ if bad n then [] else content n

@[simp] theorem length_firstBytes {α : Type*} (data : ℕ → α) (n : ℕ) :
    (firstBytes data n).length = n := by
  simp [firstBytes]

/-- The first `m` bytes and those behind them. -/
theorem firstBytes_add {α : Type*} (data : ℕ → α) (m n : ℕ) :
    firstBytes data (m + n) = firstBytes data m ++ firstBytes (fun i => data (m + i)) n := by
  simp [firstBytes, List.range_add, Function.comp_def]

theorem firstBytes_cons {α : Type*} (data : ℕ → α) (n : ℕ) :
    firstBytes data (n + 1) = data 0 :: firstBytes (fun i => data (i + 1)) n := by
  simp [firstBytes, List.range_succ_eq_map, Function.comp_def]

/-- Only the bytes in front count. -/
theorem firstBytes_congr {α : Type*} {f h : ℕ → α} {n : ℕ} (hfh : ∀ i, i < n → f i = h i) :
    firstBytes f n = firstBytes h n :=
  List.map_congr_left fun i hi => hfh i (List.mem_range.mp hi)

theorem firstBytes_inj {α : Type*} {f h : ℕ → α} {n : ℕ} :
    firstBytes f n = firstBytes h n ↔ ∀ i, i < n → f i = h i := by
  rw [firstBytes, firstBytes, List.map_inj_left]
  simp only [List.mem_range]

/-- Fewer of the same bytes are an initial part of more. -/
theorem firstBytes_initial {α : Type*} {f h : ℕ → α} {m n : ℕ} (hmn : m ≤ n)
    (hfh : ∀ i, i < m → f i = h i) : firstBytes f m <+: firstBytes h n := by
  obtain ⟨k, rfl⟩ := Nat.exists_eq_add_of_le hmn
  exact ⟨firstBytes (fun i => h (m + i)) k, by rw [firstBytes_add, firstBytes_congr hfh]⟩

/-- A longer walk goes on behind a shorter one. -/
theorem goodBytes_initial {α : Type*} {bad : ℕ → Bool} {content : ℕ → List α} {m n : ℕ}
    (h : m ≤ n) : goodBytes bad content m <+: goodBytes bad content n := by
  induction n, h using Nat.le_induction with
  | base => exact List.prefix_refl _
  | succ n _ ih => exact ih.trans (List.prefix_append _ _)

/-- The blocks from the `m`-th on follow the first `m`. -/
theorem goodBytes_add {α : Type*} (bad : ℕ → Bool) (content : ℕ → List α) (m n : ℕ) :
    goodBytes bad content (m + n) =
      goodBytes bad content m ++ goodBytes (fun k => bad (m + k)) (fun k => content (m + k)) n := by
  induction n with
  | zero => exact (List.append_nil _).symm
  | succ n ih => rw [← Nat.add_assoc, goodBytes, goodBytes, ih, List.append_assoc]

section Writer

variable (bad : ℕ → Bool) (accept : ℕ → ℕ → Bool) (bs len : ℕ)

/-- Bytes stored after the first `n` blocks. Block `n` is offered the chunk that
begins at `placed n`. -/
def placed : ℕ → ℕ
  | 0 => 0
  | n + 1 =>
    if !bad n && accept n (placed n) then placed n + min bs (len - placed n) else placed n

/-- Whether the last block tried among the first `n` took its chunk; true when
none was tried. -/
def lastOk : ℕ → Bool
  | 0 => true
  | n + 1 => if bad n then lastOk n else accept n (placed bad accept bs len n)

variable {bad accept bs len}

/-- A good block that takes its data is filled, or gets the rest. -/
theorem placed_succ_of_accept {n : ℕ} (hb : bad n = false)
    (ha : accept n (placed bad accept bs len n) = true) :
    placed bad accept bs len (n + 1) =
      placed bad accept bs len n + min bs (len - placed bad accept bs len n) := by
  rw [placed, if_pos (by rw [hb, ha]; rfl)]

/-- A bad block gets nothing, -/
theorem placed_succ_of_bad {n : ℕ} (hb : bad n = true) :
    placed bad accept bs len (n + 1) = placed bad accept bs len n := by
  rw [placed, hb, if_neg (by simp)]

/-- and neither does one that does not take it. -/
theorem placed_succ_of_fail {n : ℕ} (ha : accept n (placed bad accept bs len n) = false) :
    placed bad accept bs len (n + 1) = placed bad accept bs len n := by
  rw [placed, ha, if_neg (by simp)]

/-- No more is placed than there is, -/
theorem placed_le (n : ℕ) : placed bad accept bs len n ≤ len := by
  induction n with
  | zero => exact Nat.zero_le _
  | succ n ih =>
      rw [placed]
      split <;> omega

/-- and nothing is taken back. -/
theorem placed_mono {m n : ℕ} (h : m ≤ n) :
    placed bad accept bs len m ≤ placed bad accept bs len n := by
  induction n, h using Nat.le_induction with
  | base => exact le_refl _
  | succ n _ ih =>
      apply ih.trans
      rw [placed]
      split <;> omega

/-- The string stays stored. -/
theorem placed_eq_len {m n : ℕ} (h : placed bad accept bs len m = len) (hmn : m ≤ n) :
    placed bad accept bs len n = len :=
  le_antisymm (placed_le n) (h.symm.le.trans (placed_mono hmn))

/-- A block that took bytes did not fail. -/
theorem lastOk_of_placed_lt {n : ℕ}
    (h : placed bad accept bs len n < placed bad accept bs len (n + 1)) :
    lastOk bad accept bs len (n + 1) = true := by
  rw [placed] at h
  cases hb : bad n with
  | true => simp [hb] at h
  | false =>
      cases ha : accept n (placed bad accept bs len n) with
      | true => rw [lastOk, hb, if_neg Bool.false_ne_true, ha]
      | false => simp [ha] at h

/-- **The layout is readable.** Let `bad'` mark the blocks that were bad and
those that failed, and let every block that took a chunk hold it at its front.
Then the blocks not marked begin with the bytes stored. -/
theorem firstBytes_placed {α : Type*} {data : ℕ → α} {content : ℕ → List α}
    {bad' : ℕ → Bool} {n : ℕ}
    (hbad : ∀ k, k < n → bad k = true → bad' k = true)
    (hfail : ∀ k, k < n → bad k = false → placed bad accept bs len k < len →
      accept k (placed bad accept bs len k) = false → bad' k = true)
    (htake : ∀ k, k < n → bad k = false → placed bad accept bs len k < len →
      accept k (placed bad accept bs len k) = true → bad' k = false ∧
      firstBytes (fun i => data (placed bad accept bs len k + i))
        (min bs (len - placed bad accept bs len k)) <+: content k ∧ (content k).length = bs) :
    firstBytes data (placed bad accept bs len n) <+: goodBytes bad' content n ∧
      (placed bad accept bs len n < len →
        firstBytes data (placed bad accept bs len n) = goodBytes bad' content n) := by
  induction n with
  | zero => exact ⟨List.nil_prefix, fun _ => rfl⟩
  | succ n ih =>
      obtain ⟨ih₁, ih₂⟩ := ih (fun k hk => hbad k (by omega)) (fun k hk => hfail k (by omega))
        (fun k hk => htake k (by omega))
      rw [goodBytes]
      by_cases hfull : placed bad accept bs len n = len
      · -- the string is stored already; whatever follows comes behind it
        rw [placed_eq_len hfull (Nat.le_succ n)]
        rw [hfull] at ih₁
        exact ⟨ih₁.trans (List.prefix_append _ _), fun h => absurd h (lt_irrefl len)⟩
      have hlt : placed bad accept bs len n < len := lt_of_le_of_ne (placed_le n) hfull
      cases hb : bad n with
      | true =>
          rw [placed_succ_of_bad hb, hbad n (by omega) hb, if_pos rfl, List.append_nil]
          exact ⟨ih₁, ih₂⟩
      | false =>
          cases ha : accept n (placed bad accept bs len n) with
          | false =>
              rw [placed_succ_of_fail ha, hfail n (by omega) hb hlt ha, if_pos rfl, List.append_nil]
              exact ⟨ih₁, ih₂⟩
          | true =>
              obtain ⟨h₁, h₂, h₃⟩ := htake n (by omega) hb hlt ha
              have happ : ∀ m, firstBytes data (placed bad accept bs len n + m) =
                  goodBytes bad' content n ++
                    firstBytes (fun i => data (placed bad accept bs len n + i)) m := by
                intro m
                rw [← ih₂ hlt, firstBytes_add]
              rw [placed_succ_of_accept hb ha, h₁, if_neg Bool.false_ne_true, happ]
              refine ⟨(List.prefix_append_right_inj _).mpr h₂, ?_⟩
              intro h
              -- a chunk that is not the last fills its block
              rw [h₂.eq_of_length (by rw [length_firstBytes, h₃]; omega)]

end Writer

end SkipBlocks
