/-
Strings that end with a zero, in a memory of bytes.

`Str m p n` says that the string at `p` has `n` characters. `text` reads it, looking at
`bound` bytes at most. A string is read from its middle on as the rest of what is read from
its beginning (`Str.text_add`), and does not depend on what is outside it (`Str.congr`).
-/
import Mathlib.Tactic

set_option autoImplicit false

namespace CString

/-- A character constant. -/
abbrev ch (c : Char) : UInt8 := UInt8.ofNat c.toNat

/-- The string at `p` has `n` characters, and then comes the zero. -/
structure Str (m : ℕ → UInt8) (p n : ℕ) : Prop where
  chars : ∀ i, i < n → m (p + i) ≠ 0
  zero : m (p + n) = 0

/-- The characters at `p` up to the zero, in `bound` bytes at most. -/
def text (bound : ℕ) (m : ℕ → UInt8) (p : ℕ) : List UInt8 :=
  ((List.range bound).map fun i => m (p + i)).takeWhile (· ≠ 0)

variable {m m' : ℕ → UInt8} {p n n' k bound : ℕ}

/-- The rest of the string, from some character on. -/
theorem Str.drop (h : Str m p n) (hk : k ≤ n) : Str m (p + k) (n - k) where
  chars := fun i hi => by
    rw [Nat.add_assoc]
    exact h.chars (k + i) (by omega)
  zero := by
    rw [Nat.add_assoc, Nat.add_sub_cancel' hk]
    exact h.zero

/-- Memory with the same bytes has the same string. -/
theorem Str.congr (h : Str m p n) (hm : ∀ i, i ≤ n → m' (p + i) = m (p + i)) : Str m' p n where
  chars := fun i hi => by
    rw [hm i hi.le]
    exact h.chars i hi
  zero := by
    rw [hm n le_rfl]
    exact h.zero

/-- The text of a string that ends within the bound. -/
theorem Str.text_eq (h : Str m p n) (hn : n < bound) :
    text bound m p = (List.range n).map fun i => m (p + i) := by
  obtain ⟨r, rfl⟩ : ∃ r, bound = n + (r + 1) := ⟨bound - n - 1, by omega⟩
  have hchars : ∀ c ∈ (List.range n).map (fun i => m (p + i)), decide (c ≠ 0) = true := by
    intro c hc
    obtain ⟨i, hi, rfl⟩ := List.mem_map.mp hc
    exact decide_eq_true (h.chars i (List.mem_range.mp hi))
  rw [text, List.range_add, List.map_append, List.takeWhile_append_of_pos hchars,
    List.range_succ_eq_map]
  simp [h.zero]

theorem Str.length_text (h : Str m p n) (hn : n < bound) : (text bound m p).length = n := by
  rw [h.text_eq hn, List.length_map, List.length_range]

theorem Str.text_congr (h : Str m p n) (hn : n < bound) (hm : ∀ i, i ≤ n → m' (p + i) = m (p + i)) :
    text bound m' p = text bound m p := by
  rw [(h.congr hm).text_eq hn, h.text_eq hn]
  exact List.map_congr_left fun i hi => hm i (List.mem_range.mp hi).le

/-- A pointer into the string, or to its end, has the rest of the text. -/
theorem Str.text_add (h : Str m p n) (hn : n < bound) (hk : k ≤ n) :
    text bound m (p + k) = (text bound m p).drop k := by
  obtain ⟨r, rfl⟩ : ∃ r, n = k + r := ⟨n - k, by omega⟩
  have hrest := h.drop hk
  rw [Nat.add_sub_cancel_left] at hrest
  rw [hrest.text_eq (by omega), h.text_eq hn, List.range_add, List.map_append,
    List.drop_left' (by simp), List.map_map]
  simp only [Function.comp_def, Nat.add_assoc]

theorem Str.text_cons (h : Str m p (n + 1)) (hn : n + 1 < bound) :
    text bound m p = m p :: text bound m (p + 1) := by
  have hrest := h.drop (k := 1) (by omega)
  rw [Nat.add_sub_cancel] at hrest
  rw [h.text_eq hn, hrest.text_eq (by omega), List.range_succ_eq_map, List.map_cons, List.map_map]
  simp only [Function.comp_def, Nat.add_zero, Nat.succ_eq_add_one, Nat.add_assoc, Nat.add_comm 1]

/-- A pointer that goes on as long as the characters have a property. -/
theorem Str.skip (h : Str m p n) (hn : n < bound) {q : UInt8 → Bool} (hq : q 0 = false) :
    ∃ k, k = ((text bound m p).takeWhile q).length ∧ k ≤ n ∧ q (m (p + k)) = false ∧
      text bound m (p + k) = (text bound m p).dropWhile q := by
  have hle : ((text bound m p).takeWhile q).length ≤ n := by
    rw [← h.length_text hn]
    exact (List.takeWhile_prefix q).length_le
  have hdrop : (text bound m p).drop ((text bound m p).takeWhile q).length =
      (text bound m p).dropWhile q :=
    (congrArg (List.drop _) List.takeWhile_append_dropWhile.symm).trans (List.drop_left ..)
  have hrest := (h.text_add hn hle).trans hdrop
  refine ⟨_, rfl, hle, ?_, hrest⟩
  obtain ⟨r, hr⟩ := Nat.exists_eq_add_of_le hle
  have hstr := h.drop hle
  generalize ((text bound m p).takeWhile q).length = k at *
  cases r with
  | zero =>
    rw [show p + k = p + n by omega, h.zero]
    exact hq
  | succ r =>
    -- the first character that is not passed over does not have the property
    have hcons := (hr ▸ hstr : Str m (p + k) (k + (r + 1) - k))
    rw [Nat.add_sub_cancel_left] at hcons
    have hhead := hcons.text_cons (show r + 1 < bound by omega)
    rw [hrest] at hhead
    have hnot := List.head?_dropWhile_not q (text bound m p)
    rw [hhead] at hnot
    simpa using hnot

end CString
