/-
Stores that are read and written in ranges of addresses.

A content is a function from addresses to values, and a buffer is one as well, with
its own addresses from 0 on. A request names a range of the store by its first
address and its length. `splice` is what writing a range does to a content.

What makes a store is that a read returns, for each address of its range, the value
that was last written there, in whatever ranges that happened. `ReadsLast` says so
for a run of requests, and `readsLast_of_view` proves it for a device of which only
the single requests are known: the device has a content (`view`), a read returns it
and a write splices it. Requests are limited to those that are `ok`, and the content
to the addresses in `dom`.
-/
import Mathlib.Tactic

set_option autoImplicit false

namespace RangeStore

variable {α σ : Type*}

/-! ## Writing a range -/

/-- The content `d` with `n` values of `buf` at `pos`. -/
def splice (d : ℕ → α) (pos n : ℕ) (buf : ℕ → α) : ℕ → α := fun x =>
  if pos ≤ x ∧ x < pos + n then buf (x - pos) else d x

theorem splice_inside {d buf : ℕ → α} {pos n x : ℕ} (h : pos ≤ x) (h' : x < pos + n) :
    splice d pos n buf x = buf (x - pos) := by
  unfold splice
  rw [if_pos ⟨h, h'⟩]

theorem splice_outside {d buf : ℕ → α} {pos n x : ℕ} (h : x < pos ∨ pos + n ≤ x) :
    splice d pos n buf x = d x := by
  unfold splice
  rw [if_neg]
  omega

/-- The values of the range itself. -/
theorem splice_add {d buf : ℕ → α} {pos n i : ℕ} (h : i < n) :
    splice d pos n buf (pos + i) = buf i := by
  rw [splice_inside (by omega) (by omega), Nat.add_sub_cancel_left]

/-- What is read back does not depend on what was there. -/
theorem splice_congr {d d' buf buf' : ℕ → α} {pos n x : ℕ} (hd : d x = d' x)
    (hbuf : ∀ i, i < n → buf i = buf' i) : splice d pos n buf x = splice d' pos n buf' x := by
  unfold splice
  by_cases h : pos ≤ x ∧ x < pos + n
  · rw [if_pos h, if_pos h, hbuf _ (by omega)]
  · rw [if_neg h, if_neg h, hd]

/-- A range is written as well in two parts. -/
theorem splice_splice (d buf : ℕ → α) (pos m n : ℕ) :
    splice (splice d pos m buf) (pos + m) n (fun i => buf (m + i)) = splice d pos (m + n) buf := by
  funext x
  by_cases h₁ : pos ≤ x ∧ x < pos + m
  · rw [splice_outside (by omega), splice_inside h₁.1 h₁.2, splice_inside h₁.1 (by omega)]
  by_cases h₂ : pos + m ≤ x ∧ x < pos + m + n
  · rw [splice_inside h₂.1 h₂.2, splice_inside (by omega) (by omega)]
    congr 1
    omega
  · rw [splice_outside (by omega), splice_outside (by omega), splice_outside (by omega)]

/-! ## Runs of requests -/

/-- A range that was written. -/
structure Write (α : Type*) where
  pos : ℕ
  len : ℕ
  data : ℕ → α

/-- A request. A read puts its range into a buffer that holds `buf` before. -/
inductive Request (α : Type*)
  | read (pos len : ℕ) (buf : ℕ → α)
  | write (w : Write α)

/-- A device: reading into a buffer, and writing. -/
structure Device (σ α : Type*) where
  read : σ → ℕ → ℕ → (ℕ → α) → (ℕ → α)
  write : σ → Write α → σ

/-- The value last written to an address, the latest write first in the list. -/
def lastWritten (init : ℕ → α) : List (Write α) → ℕ → α
  | [], x => init x
  | w :: ws, x =>
    if w.pos ≤ x ∧ x < w.pos + w.len then w.data (x - w.pos) else lastWritten init ws x

/-- The latest write is spliced in. -/
theorem lastWritten_cons (init : ℕ → α) (w : Write α) (ws : List (Write α)) :
    lastWritten init (w :: ws) = splice (lastWritten init ws) w.pos w.len w.data := rfl

/-- Where no range comes to, nothing has changed. -/
theorem lastWritten_outside {init : ℕ → α} {ws : List (Write α)} {x : ℕ}
    (h : ∀ w ∈ ws, x < w.pos ∨ w.pos + w.len ≤ x) : lastWritten init ws x = init x := by
  induction ws with
  | nil => rfl
  | cons w ws ih =>
    have hw := h w List.mem_cons_self
    rw [lastWritten, if_neg (by omega)]
    exact ih fun w' hw' => h w' (List.mem_cons_of_mem _ hw')

/-- Where one range comes to and no other does, its data is read. -/
theorem lastWritten_of_only {init : ℕ → α} {ws : List (Write α)} {w : Write α} {i : ℕ} (hw : w ∈ ws)
    (hi : i < w.len)
    (honly : ∀ w' ∈ ws, w' ≠ w → w.pos + i < w'.pos ∨ w'.pos + w'.len ≤ w.pos + i) :
    lastWritten init ws (w.pos + i) = w.data i := by
  induction ws with
  | nil => cases hw
  | cons w' ws ih =>
    rw [lastWritten]
    by_cases heq : w' = w
    · subst heq
      rw [if_pos (by omega), Nat.add_sub_cancel_left]
    · have hout := honly w' List.mem_cons_self heq
      rw [if_neg (by omega)]
      refine ih ((List.mem_cons.mp hw).resolve_left fun h => heq h.symm) ?_
      exact fun v hv => honly v (List.mem_cons_of_mem _ hv)

/-- Every read of a run returns for each of its addresses the value last written, by
the run or before it by `ws`. -/
def ReadsLast (D : Device σ α) (init : ℕ → α) : σ → List (Write α) → List (Request α) → Prop
  | _, _, [] => True
  | s, ws, .read pos len buf :: rs =>
    (∀ i, i < len → D.read s pos len buf i = lastWritten init ws (pos + i)) ∧
      ReadsLast D init s ws rs
  | s, ws, .write w :: rs => ReadsLast D init (D.write s w) (w :: ws) rs

/-- The range of a request. -/
def Request.range : Request α → ℕ × ℕ
  | .read pos len _ => (pos, len)
  | .write w => (w.pos, w.len)

/-- A device whose single requests are right on its content, for the requests that
are `ok` and the addresses in `dom`. -/
structure Faithful (D : Device σ α) (inv : σ → Prop) (view : σ → ℕ → α) (ok : ℕ → ℕ → Prop)
    (dom : ℕ → Prop) : Prop where
  covered : ∀ {pos len i}, ok pos len → i < len → dom (pos + i)
  read : ∀ {s pos len} (buf : ℕ → α) {i}, inv s → ok pos len → i < len →
    D.read s pos len buf i = view s (pos + i)
  keeps : ∀ {s} (w : Write α), inv s → ok w.pos w.len → inv (D.write s w)
  write : ∀ {s} (w : Write α) {x}, inv s → ok w.pos w.len → dom x →
    view (D.write s w) x = splice (view s) w.pos w.len w.data x

/-- **Single requests that are right make a store**: whatever the ranges of the
requests, a read returns what was last written. -/
theorem readsLast_of_view {D : Device σ α} {inv : σ → Prop} {view : σ → ℕ → α}
    {ok : ℕ → ℕ → Prop} {dom : ℕ → Prop} (hD : Faithful D inv view ok dom) (init : ℕ → α)
    (rs : List (Request α)) (hok : ∀ r ∈ rs, ok r.range.1 r.range.2) {s : σ} {ws : List (Write α)}
    (hs : inv s) (hview : ∀ x, dom x → view s x = lastWritten init ws x) :
    ReadsLast D init s ws rs := by
  induction rs generalizing s ws with
  | nil => trivial
  | cons r rs ih =>
    have hr := hok r List.mem_cons_self
    have hrs : ∀ q ∈ rs, ok q.range.1 q.range.2 := fun q hq => hok q (List.mem_cons_of_mem _ hq)
    cases r with
    | read pos len buf =>
      refine ⟨fun i hi => ?_, ih hrs hs hview⟩
      have hread : D.read s pos len buf i = view s (pos + i) := hD.read buf hs hr hi
      rw [hread]
      exact hview _ (hD.covered hr hi)
    | write w =>
      apply ih hrs (hD.keeps w hs hr)
      intro x hx
      rw [hD.write w hs hr hx]
      unfold lastWritten splice
      rw [hview x hx]

end RangeStore
