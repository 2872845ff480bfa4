/-
A map kept as a list of records, where the first record with a key counts.

`put` replaces the first record with the key and drops the later ones, or
appends the record when there is none. `putWithin` does the same into a place
of limited size: a record for which there is no room is left out, and the copy
goes on with the next. The two agree exactly when everything fits
(`putWithin_eq_put`, `putWithin_keeps_iff`).

What there is to say about the other keys is said of `others`, the records with
another key, which determine every lookup of another key.
-/
import Mathlib.Tactic

set_option autoImplicit false

namespace Keyed

variable {α κ : Type*} [DecidableEq κ] (key : α → κ) (len : α → ℕ)

/-- The record that counts for `k`. -/
def lookup (k : κ) (as : List α) : Option α := as.find? fun a => key a = k

/-- The records with another key than `k`, in order. -/
def others (k : κ) (as : List α) : List α := as.filter fun a => key a ≠ k

/-- The number of bytes in the records. -/
def size (as : List α) : ℕ := (as.map len).sum

/-- The record `e` takes the place of the first one with its key. -/
def put (e : α) : List α → List α
  | [] => [e]
  | a :: as => if key a = key e then e :: others key (key e) as else a :: put e as

/-- `put` with room below `limit`, `n` bytes of which are taken. The flag says
that `e` is in already. -/
def putWithin (limit : ℕ) (e : α) : ℕ → Bool → List α → List α
  | n, added, [] => if added = false ∧ n + len e < limit then [e] else []
  | n, added, a :: as =>
    if key a ≠ key e then
      if n + len a < limit then a :: putWithin limit e (n + len a) added as
      else putWithin limit e n added as
    else if added = false ∧ n + len e < limit then e :: putWithin limit e (n + len e) true as
    else putWithin limit e n added as

variable {key len} {k k' : κ} {e a : α} {as bs : List α} {limit n : ℕ} {added : Bool}

/-! ## Lookup and the other records -/

@[simp] theorem others_nil : others key k ([] : List α) = [] := rfl

/-- A record with the key is left out, -/
theorem others_cons_self (h : key a = k) : others key k (a :: as) = others key k as := by
  simp [others, h]

/-- and one with another key stays. -/
theorem others_cons_ne (h : key a ≠ k) : others key k (a :: as) = a :: others key k as := by
  simp [others, h]

/-- A second time there is nothing to leave out. -/
theorem others_others : others key k (others key k as) = others key k as := by
  simp [others]

theorem others_sublist : (others key k as).Sublist as :=
  List.filter_sublist

/-- What is looked up has the key. -/
theorem key_of_lookup (h : lookup key k as = some a) : key a = k := by
  simpa using List.find?_some h

theorem mem_of_lookup (h : lookup key k as = some a) : a ∈ as :=
  List.mem_of_find?_eq_some h

/-- The other records answer for every other key. -/
theorem lookup_others (h : k' ≠ k) : lookup key k' (others key k as) = lookup key k' as := by
  induction as with
  | nil => rfl
  | cons a as ih =>
      by_cases ha : key a = k
      · have hk : ¬ key a = k' := fun h' => h (h'.symm.trans ha)
        rw [others_cons_self ha, ih]
        simp [lookup, hk]
      · rw [others_cons_ne ha]
        by_cases hk : key a = k'
        · simp [lookup, hk]
        · simpa [lookup, hk] using ih

/-- Other keys are found among the other records. -/
theorem lookup_eq_of_others (h : others key k as = others key k bs) (hk : k' ≠ k) :
    lookup key k' as = lookup key k' bs := by
  rw [← lookup_others hk, h, lookup_others hk]

/-! ## Sizes -/

@[simp] theorem size_nil : size len ([] : List α) = 0 := rfl

@[simp] theorem size_cons : size len (a :: as) = len a + size len as := by simp [size]

@[simp] theorem size_append : size len (as ++ bs) = size len as + size len bs := by simp [size]

/-- Fewer records take no more room. -/
theorem size_le_of_sublist (h : as.Sublist bs) : size len as ≤ size len bs := by
  induction h with
  | slnil => exact le_refl _
  | cons a _ ih =>
      rw [size_cons]
      omega
  | cons_cons a _ ih =>
      rw [size_cons, size_cons]
      omega

/-- A record is not among those with another key. -/
theorem size_others_add_le (h : e ∈ as) :
    size len (others key (key e) as) + len e ≤ size len as := by
  induction as with
  | nil => cases h
  | cons a as ih =>
      by_cases ha : key a = key e
      · rw [others_cons_self ha, size_cons]
        obtain rfl | h := List.mem_cons.mp h
        · have hle : size len (others key (key e) as) ≤ size len as :=
            size_le_of_sublist others_sublist
          omega
        · have hle := ih h
          omega
      · rw [others_cons_ne ha, size_cons, size_cons]
        obtain rfl | h := List.mem_cons.mp h
        · exact absurd rfl ha
        · have hle := ih h
          omega

/-! ## `put` -/

/-- The records with other keys stay as they were. -/
theorem others_put : others key (key e) (put key e as) = others key (key e) as := by
  induction as with
  | nil => exact others_cons_self rfl
  | cons a as ih =>
      by_cases ha : key a = key e
      · rw [put, if_pos ha, others_cons_self rfl, others_others, others_cons_self ha]
      · rw [put, if_neg ha, others_cons_ne ha, others_cons_ne ha, ih]

/-- What is put is found. -/
theorem lookup_put_self : lookup key (key e) (put key e as) = some e := by
  induction as with
  | nil => simp [put, lookup]
  | cons a as ih =>
      by_cases ha : key a = key e
      · rw [put, if_pos ha]
        simp [lookup]
      · rw [put, if_neg ha]
        simpa [lookup, ha] using ih

/-- Putting a record changes no lookup of another key. -/
theorem lookup_put_other (h : k ≠ key e) : lookup key k (put key e as) = lookup key k as :=
  lookup_eq_of_others others_put h

/-- The record takes its place behind the others. -/
theorem size_put : size len (put key e as) = size len (others key (key e) as) + len e := by
  induction as with
  | nil => simp [put]
  | cons a as ih =>
      by_cases ha : key a = key e
      · rw [put, if_pos ha, others_cons_self ha, size_cons]
        omega
      · rw [put, if_neg ha, others_cons_ne ha, size_cons, size_cons, ih]
        omega

/-- At most one record is new. -/
theorem length_put_le : (put key e as).length ≤ as.length + 1 := by
  induction as with
  | nil => exact le_rfl
  | cons a as ih =>
      by_cases ha : key a = key e
      · rw [put, if_pos ha]
        have hle := List.Sublist.length_le (others_sublist : (others key (key e) as).Sublist as)
        simp only [List.length_cons]
        omega
      · rw [put, if_neg ha]
        exact Nat.succ_le_succ ih

/-! ## `putWithin` -/

/-- With `e` in and room for the rest, what is left of the list is copied
without the records of its key. -/
theorem putWithin_added (h : n + size len (others key (key e) as) < limit) :
    putWithin key len limit e n true as = others key (key e) as := by
  induction as generalizing n with
  | nil => simp [putWithin]
  | cons a as ih =>
      by_cases ha : key a = key e
      · rw [others_cons_self ha] at h ⊢
        rw [putWithin, if_neg (not_not.mpr ha), if_neg (by simp), ih h]
      · rw [others_cons_ne ha, size_cons] at h
        rw [others_cons_ne ha, putWithin, if_pos ha, if_pos (by omega), ih (by omega)]

/-- With room for everything nothing is left out. -/
theorem putWithin_eq_put (h : n + size len (put key e as) < limit) :
    putWithin key len limit e n false as = put key e as := by
  induction as generalizing n with
  | nil =>
      have he : n + len e < limit := by simpa [put] using h
      simp [putWithin, put, he]
  | cons a as ih =>
      by_cases ha : key a = key e
      · rw [put, if_pos ha, size_cons] at h
        rw [put, if_pos ha, putWithin, if_neg (not_not.mpr ha), if_pos ⟨rfl, by omega⟩,
          putWithin_added (by omega)]
      · rw [put, if_neg ha, size_cons] at h
        rw [put, if_neg ha, putWithin, if_pos ha, if_pos (by omega), ih (by omega)]

/-- What is copied stays below the limit, and so at most at any bound it starts
from that is no lower. -/
theorem putWithin_size_le {B : ℕ} (hn : n ≤ B) (hB : limit ≤ B + 1) :
    n + size len (putWithin key len limit e n added as) ≤ B := by
  induction as generalizing n added with
  | nil =>
      rw [putWithin]
      split_ifs with h
      · rw [size_cons, size_nil]
        omega
      · simpa using hn
  | cons a as ih =>
      rw [putWithin]
      split_ifs with _ hr hr
      · rw [size_cons, ← Nat.add_assoc]
        exact ih (by omega)
      · exact ih hn
      · rw [size_cons, ← Nat.add_assoc]
        exact ih (by omega)
      · exact ih hn

theorem putWithin_length_le :
    (putWithin key len limit e n added as).length ≤ as.length + 1 := by
  induction as generalizing n added with
  | nil =>
      rw [putWithin]
      split_ifs <;> simp
  | cons a as ih =>
      rw [putWithin]
      split_ifs
      · exact Nat.succ_le_succ ih
      · exact ih.trans (Nat.le_succ _)
      · exact Nat.succ_le_succ ih
      · exact ih.trans (Nat.le_succ _)

/-- **Nothing is lost exactly when everything fits.** -/
theorem putWithin_keeps_iff (hn : n < limit) :
    (others key (key e) as).Sublist
        (others key (key e) (putWithin key len limit e n false as)) ∧
      e ∈ putWithin key len limit e n false as ↔
    n + size len (put key e as) < limit := by
  constructor
  · rintro ⟨hsub, he⟩
    have hlt : n + size len (putWithin key len limit e n false as) ≤ limit - 1 :=
      putWithin_size_le (by omega) (by omega)
    have hle := @size_le_of_sublist _ len _ _ hsub
    have hs := @size_others_add_le _ _ _ key len _ _ he
    rw [size_put]
    omega
  · intro h
    rw [putWithin_eq_put h, others_put]
    exact ⟨List.Sublist.refl _, mem_of_lookup lookup_put_self⟩

end Keyed
