/-
When `sys_sprintf` prints what C's `sprintf` prints.

The text of C is in the buffer for every content it had before, exactly if the items are
`Printable` (`prints_as_C_iff`): some text is printed at all, `ll` goes with `d` or with a
number that is a word, no `%c` prints a zero and no item a backspace, no newline comes from
another item than `%c`, and no `%%` comes behind another conversion than `%c`.

In the other direction nothing makes up for anything else. No backspace is ever in the
buffer, and a zero ends the string. There are as many carriage returns as in the text of C and
one for each newline that gets one, so that there is none of these (`newlines_of_eq`). Without
the spaces no item is handed over longer than C has it, so that the two texts without their
spaces are the same item by item (`strip_item_eq`); and then no item is shorter, so that they
are the same with the spaces (`length_item_eq`).
-/
import CsBoot.Sys.PrintfSpec
import Mathlib.Data.List.GetD

set_option autoImplicit false

namespace CsBoot.Printf

open CString (ch)
open CFormat

/-- The text of C and a zero are left in the buffer, and the length is returned, whatever was
in memory. -/
def PrintsAsC (items : List Item) : Prop :=
  ∀ (mem : ℤ → UInt8) (stack : ℕ → UInt8), ∃ n,
    let r := sys_sprintf mem (format items) (args items) stack n
    r.2 = some (text items).length ∧
      (∀ i : ℕ, i < (text items).length → r.1 i = (text items).getD i 0) ∧
      r.1 (text items).length = 0

/-- The number is one that the code does not cut. -/
def IsWord : IntConv → IntArg → Prop
  | .d, _ => True
  | _, .longlong v => v.toNat < 2 ^ 32
  | _, _ => True

/-- Items that are printed as C does, the number of spaces behind `%%` apart. -/
def Plain : Item → Prop
  | .char c => c ∉ [BACKSPACE, ch '\n']
  | .int _ _ _ conv a => IsWord conv a
  | .str _ _ s => BACKSPACE ∉ s ∧ ch '\n' ∉ s
  | .chr w => UInt8.ofNat w.toNat ∉ [0, BACKSPACE]
  | .percent => True

instance : ∀ conv a, Decidable (IsWord conv a)
  | .d, _ => inferInstanceAs (Decidable True)
  | .u, .longlong v | .x, .longlong v | .X, .longlong v =>
    inferInstanceAs (Decidable (v.toNat < 2 ^ 32))
  | .u, .int _ | .x, .int _ | .X, .int _ => inferInstanceAs (Decidable True)
  | .u, .long _ | .x, .long _ | .X, .long _ => inferInstanceAs (Decidable True)

instance : DecidablePred Plain
  | .char c => inferInstanceAs (Decidable (c ∉ [BACKSPACE, ch '\n']))
  | .int _ _ _ conv a => inferInstanceAs (Decidable (IsWord conv a))
  | .str _ _ s => inferInstanceAs (Decidable (BACKSPACE ∉ s ∧ ch '\n' ∉ s))
  | .chr w => inferInstanceAs (Decidable (UInt8.ofNat w.toNat ∉ [0, BACKSPACE]))
  | .percent => inferInstanceAs (Decidable True)

/-- Items that leave `length` alone. -/
def Item.Quiet : Item → Prop
  | .char _ => True
  | .chr _ => True
  | _ => False

structure Printable (items : List Item) : Prop where
  plain : ∀ x ∈ items, Plain x
  percent : ∀ l₁ l₂, items = l₁ ++ .percent :: l₂ → ∀ x ∈ l₁, Item.Quiet x
  text_ne : text items ≠ []

/-! ## One item -/

section OneItem

variable {x : Item} {length : ℤ}

/-- The newlines of an item that get a carriage return. -/
def newlines : Item → ℕ
  | .char c => [c].count (ch '\n')
  | .str _ _ s => s.count (ch '\n')
  | _ => 0

theorem newlines_of_plain (hx : Plain x) : newlines x = 0 := by
  cases x with
  | char c =>
    simp only [Plain, List.mem_cons, not_or] at hx
    exact List.count_eq_zero.mpr fun h => hx.2.1 (List.mem_singleton.mp h).symm
  | str left width s => exact List.count_eq_zero.mpr hx.2
  | int | chr | percent => rfl

/-- Without newlines an ordinary character and a string are printed. -/
theorem put_char {c : UInt8} (h : newlines (Item.char c) = 0) :
    put_item length (.char c) = (Item.char c).text := by
  have hne : c ≠ ch '\n' := fun heq => List.count_eq_zero.mp h (heq ▸ List.mem_singleton_self c)
  rw [put_item, crlf, if_neg hne, Item.text]

theorem put_str {left : Bool} {width : ℕ} {s : List UInt8}
    (h : newlines (Item.str left width s) = 0) :
    put_item length (.str left width s) = (Item.str left width s).text := by
  rw [put_item, flatMap_crlf (List.count_eq_zero.mp h), Item.text, field]

theorem masked_of_word {conv : IntConv} {a : IntArg} (h : IsWord conv a) : masked conv a = a := by
  have hlow : ∀ v : BitVec 64, v.toNat < 2 ^ 32 → low (.longlong v) = .longlong v := fun v hv =>
    congrArg IntArg.longlong (BitVec.eq_of_toNat_eq ((mask_toNat v).trans (Nat.mod_eq_of_lt hv)))
  cases conv with
  | d => rfl
  | u | x | X =>
    cases a with
    | int | long => rfl
    | longlong v => exact hlow v h

/-- **A plain item is printed**, and `%%` if `length` is still zero. -/
theorem put_plain (hx : Plain x) (hpercent : x = .percent → length = 0) :
    put_item length x = x.text := by
  cases x with
  | char c => exact put_char (newlines_of_plain hx)
  | int left zero width conv a => rw [put_item, masked_of_word hx, Item.text]
  | str left width s => exact put_str (newlines_of_plain hx)
  | chr w => rfl
  | percent =>
    rw [put_item, hpercent rfl]
    rfl

theorem spaces_ge {n : ℕ} {c : UInt8} (h : c ∈ spaces n) : 32 ≤ c.toNat := by
  rw [List.eq_of_mem_replicate h]
  decide

theorem zeros_ge {n : ℕ} {c : UInt8} (h : c ∈ zeros n) : 32 ≤ c.toNat := by
  rw [List.eq_of_mem_replicate h]
  decide

/-- There are no control characters in a number. -/
theorem number_ge {left zero : Bool} {width : ℕ} {sign : Bool} {conv : IntConv} {a : IntArg}
    {c : UInt8} (h : c ∈ number left zero width (flag (ch '-') sign) (conv.digits a)) :
    32 ≤ c.toNat := by
  have hsign : c ∈ flag (ch '-') sign → 32 ≤ c.toNat := fun hmem => by
    cases sign with
    | false => cases hmem
    | true =>
      rw [List.mem_singleton.mp hmem]
      decide
  have hdigits : c ∈ conv.digits a → 32 ≤ c.toNat := fun hmem =>
    le_trans (by norm_num) (mem_numeral conv.base_bounds.1 conv.base_bounds.2 hmem).1
  unfold number field at h
  split_ifs at h <;> simp only [List.mem_append] at h
  · exact h.elim (Or.rec hsign zeros_ge) hdigits
  · exact h.elim (Or.rec hsign hdigits) spaces_ge
  · exact h.elim spaces_ge (Or.rec hsign hdigits)

theorem mem_crlf {c d : UInt8} (h : c ∈ crlf d) : c = d ∨ c = ch '\r' := by
  unfold crlf at h
  split_ifs at h
  · obtain rfl | h := List.mem_cons.mp h
    · exact .inr rfl
    · exact .inl (List.mem_singleton.mp h)
  · exact .inl (List.mem_singleton.mp h)

/-- What is handed over below the space is in the text of C, or a carriage return. -/
theorem mem_put {c : UInt8} (hc : c.toNat < 32) (h : c ∈ put_item length x) :
    c ∈ x.text ∨ c = ch '\r' := by
  cases x with
  | char d => exact (mem_crlf h).imp_left List.mem_singleton.mpr
  | int left zero width conv a => exact absurd (number_ge h) (by omega)
  | str left width s =>
    have hmem : c ∈ s.flatMap crlf := by
      simp only [put_item] at h
      split_ifs at h
      · exact (List.mem_append.mp h).resolve_right fun hs => absurd (spaces_ge hs) (by omega)
      · exact (List.mem_append.mp h).resolve_left fun hs => absurd (spaces_ge hs) (by omega)
    obtain ⟨d, hd, hcd⟩ := List.mem_flatMap.mp hmem
    refine (mem_crlf hcd).imp_left fun heq => ?_
    simp only [Item.text, field]
    split_ifs <;> simp [heq, hd]
  | chr w => exact .inl h
  | percent =>
    obtain rfl | hmem := List.mem_cons.mp h
    · exact absurd hc (by decide)
    · exact absurd (spaces_ge hmem) (by omega)

/-- No plain item prints a zero or a backspace. -/
theorem plain_chars (hok : x.Ok) (hx : Plain x) {c : UInt8} (hc : c ∈ x.text) :
    c ≠ 0 ∧ c ≠ BACKSPACE := by
  have hge : ∀ {d : UInt8}, 32 ≤ d.toNat → d ≠ 0 ∧ d ≠ BACKSPACE := fun hd => by
    constructor
    · rintro rfl
      exact absurd hd (by decide)
    · rintro rfl
      exact absurd hd (by decide)
  cases x with
  | char e =>
    simp only [Plain, List.mem_cons, not_or] at hx
    rw [List.mem_singleton.mp hc]
    exact ⟨hok.1, hx.1⟩
  | int left zero width conv a => exact hge (number_ge hc)
  | str left width s =>
    have hmem : c ∈ s ∨ 32 ≤ c.toNat := by
      simp only [Item.text, field] at hc
      split_ifs at hc
      · exact (List.mem_append.mp hc).imp id spaces_ge
      · exact ((List.mem_append.mp hc).imp spaces_ge id).symm
    obtain hmem | hmem := hmem
    · exact ⟨fun h => hok.2 (h ▸ hmem), fun h => hx.1 (h ▸ hmem)⟩
    · exact hge hmem
  | chr w =>
    simp only [Plain, List.mem_cons, not_or] at hx
    rw [List.mem_singleton.mp hc]
    exact ⟨hx.1, hx.2.1⟩
  | percent =>
    rw [List.mem_singleton.mp hc]
    decide

/-- An item that prints nothing is an empty string. -/
theorem put_of_text_nil (h : x.text = []) (length : ℤ) : put_item length x = [] := by
  cases x with
  | char c => cases h
  | int left zero width conv a =>
    have hpos := length_numeral_pos conv.base conv.upper (conv.magnitude a)
    have hlen := congrArg List.length h
    rw [Item.text, List.length_nil] at hlen
    unfold number field IntConv.digits at hlen
    split_ifs at hlen <;> simp only [List.length_append] at hlen <;> omega
  | str left width s =>
    have hs : s = [] := by
      simp only [Item.text, field] at h
      split_ifs at h
      · exact (List.append_eq_nil_iff.mp h).1
      · exact (List.append_eq_nil_iff.mp h).2
    rw [put_str (by rw [hs]; rfl), h]
  | chr w => cases h
  | percent => cases h

/-! ### Carriage returns -/

theorem count_crlf (t : List UInt8) :
    (t.flatMap crlf).count (ch '\r') = t.count (ch '\r') + t.count (ch '\n') := by
  induction t with
  | nil => rfl
  | cons c t ih =>
    rw [List.flatMap_cons, List.count_append, ih, List.count_cons, List.count_cons, crlf]
    by_cases hc : c = ch '\n'
    · rw [hc, if_pos rfl]
      have hcr : List.count (ch '\r') [ch '\r', ch '\n'] = 1 := by decide
      have hne : (ch '\n' == ch '\r') = false := by decide
      rw [hcr, hne, beq_self_eq_true]
      simp only [Bool.false_eq_true, if_false, if_true]
      omega
    · rw [if_neg hc, List.count_singleton]
      simp only [beq_iff_eq, if_neg hc]
      omega

theorem count_cr_of_ge {t : List UInt8} (h : ∀ c ∈ t, 32 ≤ c.toNat) : t.count (ch '\r') = 0 :=
  List.count_eq_zero.mpr fun hmem => absurd (h _ hmem) (by decide)

/-- An item has a carriage return more for each newline that gets one. -/
theorem count_cr_put (x : Item) (length : ℤ) :
    (put_item length x).count (ch '\r') = x.text.count (ch '\r') + newlines x := by
  have hspaces : ∀ n, (spaces n).count (ch '\r') = 0 := fun n => count_cr_of_ge fun _ => spaces_ge
  cases x with
  | char c =>
    have h := count_crlf [c]
    rwa [List.flatMap_singleton] at h
  | int left zero width conv a =>
    rw [put_item, Item.text, count_cr_of_ge fun _ => number_ge, count_cr_of_ge fun _ => number_ge]
    rfl
  | str left width s =>
    simp only [put_item, Item.text, field, newlines]
    split_ifs <;> simp only [List.count_append, hspaces, count_crlf] <;> omega
  | chr w => rfl
  | percent =>
    rw [put_item, ← List.singleton_append, List.count_append, hspaces]
    rfl

end OneItem

/-! ## Without the spaces -/

section Strip

variable {x : Item} {length : ℤ}

def strip (t : List UInt8) : List UInt8 := t.filter fun c => decide (c ≠ ch ' ')

theorem strip_append (t t' : List UInt8) : strip (t ++ t') = strip t ++ strip t' :=
  List.filter_append ..

theorem strip_spaces (n : ℕ) : strip (spaces n) = [] := by
  apply List.filter_eq_nil_iff.mpr
  intro c hc
  rw [List.eq_of_mem_replicate hc]
  decide

theorem strip_self {t : List UInt8} (h : ch ' ' ∉ t) : strip t = t := by
  apply List.filter_eq_self.mpr
  intro c hc
  exact decide_eq_true fun heq => h (heq ▸ hc)

theorem zeros_zero : zeros 0 = [] := rfl

theorem strip_zeros (n : ℕ) : strip (zeros n) = zeros n :=
  strip_self fun h => absurd (List.eq_of_mem_replicate h) (by decide)

theorem strip_flag (b : Bool) : strip (flag (ch '-') b) = flag (ch '-') b := by
  cases b <;> rfl

theorem strip_digits (conv : IntConv) (a : IntArg) : strip (conv.digits a) = conv.digits a :=
  strip_self fun h =>
    absurd (mem_numeral conv.base_bounds.1 conv.base_bounds.2 h).1 (by decide)

/-- A number without the spaces of its field. -/
theorem strip_number (left zero : Bool) (width : ℕ) (sign : Bool) (conv : IntConv) (a : IntArg) :
    strip (number left zero width (flag (ch '-') sign) (conv.digits a)) =
      flag (ch '-') sign ++ zeros (if zero && !left then
        width - ((flag (ch '-') sign).length + (conv.digits a).length) else 0) ++
          conv.digits a := by
  unfold number field
  split_ifs <;>
    simp only [strip_append, strip_spaces, strip_zeros, strip_flag, strip_digits, zeros_zero,
      List.append_nil, List.nil_append]

theorem unsigned_low_le (a : IntArg) : (low a).unsigned ≤ a.unsigned := by
  cases a with
  | int | long => exact le_rfl
  | longlong v => exact (mask_toNat v).trans_le (Nat.mod_le _ _)

theorem length_masked_le (conv : IntConv) (a : IntArg) :
    (conv.digits (masked conv a)).length ≤ (conv.digits a).length := by
  apply length_numeral_mono
  cases conv with
  | d => exact le_rfl
  | u | x | X => exact unsigned_low_le a

/-- **Nothing is handed over longer** than C has it, without the spaces. -/
theorem length_strip_put (hx : newlines x = 0) (length : ℤ) :
    (strip (put_item length x)).length ≤ (strip x.text).length := by
  cases x with
  | char c => rw [put_char hx]
  | int left zero width conv a =>
    have hle := length_masked_le conv a
    rw [put_item, Item.text, strip_number, strip_number]
    simp only [List.length_append, zeros, List.length_replicate]
    split_ifs <;> omega
  | str left width s => rw [put_str hx]
  | chr w => exact le_rfl
  | percent =>
    rw [put_item, ← List.singleton_append, strip_append, strip_spaces]
    exact le_rfl

/-- The zeros in front leave the number as it is. -/
theorem word_of_digits_eq {conv : IntConv} {a : IntArg} {k k' : ℕ}
    (h : zeros k ++ conv.digits (masked conv a) = zeros k' ++ conv.digits a) : IsWord conv a := by
  have hval := congrArg (valueFrom conv.base 0) h
  unfold IntConv.digits at hval
  rw [value_zeros_numeral conv.base_bounds.1 conv.base_bounds.2,
    value_zeros_numeral conv.base_bounds.1 conv.base_bounds.2] at hval
  cases conv with
  | d => trivial
  | u | x | X =>
    cases a with
    | int | long => trivial
    | longlong v =>
      have hmod : v.toNat % 2 ^ 32 = v.toNat := (mask_toNat v).symm.trans hval
      change v.toNat < 2 ^ 32
      omega

/-- **What is handed over is the text of C**, without the spaces, only if the number is one
that the code does not cut. -/
theorem plain_of_strip (hx : newlines x = 0) (h : strip (put_item length x) = strip x.text)
    (hlow : ∀ c ∈ x.text, c ≠ 0 ∧ c ≠ BACKSPACE) : Plain x := by
  cases x with
  | char c =>
    have hnl : c ≠ ch '\n' := fun heq => List.count_eq_zero.mp hx (heq ▸ List.mem_singleton_self c)
    simp only [Plain, List.mem_cons, not_or]
    exact ⟨(hlow c List.mem_cons_self).2, hnl, List.not_mem_nil⟩
  | int left zero width conv a =>
    rw [put_item, Item.text, strip_number, strip_number] at h
    cases conv with
    | d => trivial
    | u | x | X =>
      exact word_of_digits_eq h
  | str left width s =>
    refine ⟨fun hmem => (hlow BACKSPACE ?_).2 rfl, List.count_eq_zero.mp hx⟩
    simp only [Item.text, field]
    split_ifs <;> simp [hmem]
  | chr w =>
    obtain ⟨hzero, hback⟩ := hlow (UInt8.ofNat w.toNat) List.mem_cons_self
    simp only [Plain, List.mem_cons, not_or]
    exact ⟨hzero, hback, List.not_mem_nil⟩
  | percent => trivial

end Strip

/-! ## All items -/

section Items

variable {items l₁ l₂ : List Item} {x : Item} {length : ℤ}

theorem put_items_append (length : ℤ) (l₁ l₂ : List Item) :
    put_items length (l₁ ++ l₂) =
      put_items length l₁ ++ put_items (l₁.foldl length_after length) l₂ := by
  induction l₁ generalizing length with
  | nil => rfl
  | cons x l₁ ih =>
      rw [List.cons_append, put_items, ih, put_items, List.append_assoc, List.foldl_cons]

theorem mem_put_items {c : UInt8} (hc : c.toNat < 32) (h : c ∈ put_items length items) :
    c ∈ text items ∨ c = ch '\r' := by
  induction items generalizing length with
  | nil => cases h
  | cons x items ih =>
    rw [text_cons]
    obtain h | h := List.mem_append.mp h
    · exact (mem_put hc h).imp_left (List.mem_append_left _)
    · exact (ih h).imp_left (List.mem_append_right _)

theorem count_cr_items (items : List Item) (length : ℤ) :
    (put_items length items).count (ch '\r') =
      (text items).count (ch '\r') + (items.map newlines).sum := by
  induction items generalizing length with
  | nil => rfl
  | cons x items ih =>
    rw [put_items, text_cons, List.count_append, List.count_append, count_cr_put, ih,
      List.map_cons, List.sum_cons]
    omega

/-- If all is the same, no carriage return has been put in. -/
theorem newlines_of_eq (h : put_items length items = text items) :
    ∀ x ∈ items, newlines x = 0 := by
  have hcount := count_cr_items items length
  rw [h] at hcount
  have hsum : (items.map newlines).sum = 0 := by omega
  intro x hx
  exact List.sum_eq_zero_iff.mp hsum _ (List.mem_map_of_mem hx)

theorem length_strip_items (hnl : ∀ x ∈ items, newlines x = 0) (length : ℤ) :
    (strip (put_items length items)).length ≤ (strip (text items)).length := by
  induction items generalizing length with
  | nil => exact le_rfl
  | cons x items ih =>
    have hx := length_strip_put (hnl x List.mem_cons_self) length
    have hrest := ih (fun y hy => hnl y (List.mem_cons_of_mem _ hy)) (length_after length x)
    rw [put_items, text_cons, strip_append, strip_append, List.length_append, List.length_append]
    omega

/-- If all is the same, each item is, without the spaces. -/
theorem strip_item_eq (h : put_items length (l₁ ++ x :: l₂) = text (l₁ ++ x :: l₂)) :
    strip (put_item (l₁.foldl length_after length) x) = strip x.text := by
  have hnl := newlines_of_eq h
  simp only [List.mem_append, List.mem_cons, or_imp, forall_and, forall_eq] at hnl
  obtain ⟨hnl₁, hnlx, hnl₂⟩ := hnl
  have heq := congrArg strip h
  rw [put_items_append, put_items, text_append, text_cons, strip_append, strip_append,
    strip_append, strip_append] at heq
  have hlen := congrArg List.length heq
  have h₁ := length_strip_items hnl₁ length
  have hx := length_strip_put hnlx (l₁.foldl length_after length)
  have h₂ := length_strip_items hnl₂ (length_after (l₁.foldl length_after length) x)
  simp only [List.length_append] at hlen
  -- the parts in front are equally long, and so are these
  have hrest := (List.append_inj heq (by omega)).2
  exact (List.append_inj hrest (by omega)).1

/-- A plain item is handed over at least as long as C has it. -/
theorem length_put_plain (hx : Plain x) (length : ℤ) :
    x.text.length ≤ (put_item length x).length := by
  by_cases hpercent : x = .percent
  · rw [hpercent, put_item, List.length_cons]
    exact Nat.le_add_left 1 _
  · rw [put_plain hx fun h => absurd h hpercent]

theorem length_put_items (hitems : ∀ x ∈ items, Plain x) (length : ℤ) :
    (text items).length ≤ (put_items length items).length := by
  induction items generalizing length with
  | nil => exact le_rfl
  | cons x items ih =>
    have hx := length_put_plain (hitems x List.mem_cons_self) length
    have hrest := ih (fun y hy => hitems y (List.mem_cons_of_mem _ hy)) (length_after length x)
    rw [put_items, text_cons, List.length_append, List.length_append]
    omega

/-- If all is the same, each plain item is as long as C has it. -/
theorem length_item_eq (hitems : ∀ y ∈ l₁ ++ x :: l₂, Plain y)
    (h : put_items length (l₁ ++ x :: l₂) = text (l₁ ++ x :: l₂)) :
    (put_item (l₁.foldl length_after length) x).length = x.text.length := by
  simp only [List.mem_append, List.mem_cons, or_imp, forall_and, forall_eq] at hitems
  obtain ⟨hl₁, hx, hl₂⟩ := hitems
  have hlen := congrArg List.length h
  rw [put_items_append, put_items, text_append, text_cons] at hlen
  simp only [List.length_append] at hlen
  have h₁ := length_put_items hl₁ length
  have hx' := length_put_plain hx (l₁.foldl length_after length)
  have h₂ := length_put_items hl₂ (length_after (l₁.foldl length_after length) x)
  omega

theorem foldl_length_le (l : List Item) (length : ℤ) (h : length ≤ 0) :
    l.foldl length_after length ≤ length ∨ l.foldl length_after length < 0 := by
  induction l generalizing length with
  | nil => exact .inl le_rfl
  | cons x l ih =>
    have hstep := ih _ (length_after_le h x)
    rw [List.foldl_cons]
    cases x <;> simp only [length_after] at hstep ⊢ <;> omega

/-- `length` is zero as long as the items are quiet. -/
theorem foldl_length_eq_zero : l₁.foldl length_after 0 = 0 ↔ ∀ x ∈ l₁, Item.Quiet x := by
  induction l₁ with
  | nil => simp
  | cons x l ih =>
    rw [List.foldl_cons, List.forall_mem_cons]
    cases x with
    | char c => simpa [length_after, Item.Quiet] using ih
    | chr w => simpa [length_after, Item.Quiet] using ih
    | int | str | percent =>
      refine iff_of_false ?_ fun h => h.1
      obtain h | h := foldl_length_le l (-1) (by omega)
      · exact (h.trans_lt (by omega)).ne
      · exact h.ne

/-- **What is handed over is the text of C** exactly for such items. -/
theorem put_items_eq_iff (hlow : ∀ c ∈ text items, c ≠ 0 ∧ c ≠ BACKSPACE) :
    put_items 0 items = text items ↔ (∀ x ∈ items, Plain x) ∧
      ∀ l₁ l₂, items = l₁ ++ .percent :: l₂ → ∀ x ∈ l₁, Item.Quiet x := by
  constructor
  · intro h
    have hplain : ∀ x ∈ items, Plain x := by
      intro x hx
      obtain ⟨l₁, l₂, rfl⟩ := List.append_of_mem hx
      refine plain_of_strip (newlines_of_eq h x hx) (strip_item_eq h) fun c hc => hlow c ?_
      rw [text_append, text_cons]
      exact List.mem_append_right _ (List.mem_append_left _ hc)
    refine ⟨hplain, ?_⟩
    rintro l₁ l₂ rfl
    have hlen := length_item_eq hplain h
    have hle : l₁.foldl length_after 0 ≤ 0 := by
      obtain h | h := foldl_length_le l₁ 0 le_rfl
      · exact h
      · exact h.le
    -- no room for a space
    rw [put_item, List.length_cons, spaces, List.length_replicate] at hlen
    change _ = 1 at hlen
    exact foldl_length_eq_zero.mp (by omega)
  · rintro ⟨hplain, hpercent⟩
    clear hlow
    suffices ∀ l₁ l₂, items = l₁ ++ l₂ →
        put_items (l₁.foldl length_after 0) l₂ = text l₂ from this [] items rfl
    intro l₁ l₂
    induction l₂ generalizing l₁ with
    | nil => exact fun _ => rfl
    | cons x l₂ ih =>
      intro heq
      have hx : Plain x := hplain x (heq ▸ List.mem_append_right _ List.mem_cons_self)
      have hrest := ih (l₁ ++ [x]) (by rw [heq, List.append_assoc, List.singleton_append])
      rw [List.foldl_append, List.foldl_cons, List.foldl_nil] at hrest
      rw [put_items, text_cons, hrest, put_plain hx]
      rintro rfl
      exact foldl_length_eq_zero.mpr (hpercent l₁ l₂ heq)

end Items

/-! ## The buffer -/

section Buffer

variable {items : List Item} {mem : ℤ → UInt8} {t t' : List UInt8}

/-- A text without a zero in it, and a zero behind, are one text only. -/
theorem text_unique (ht : 0 ∉ t) (ht' : 0 ∉ t')
    (h : ∀ i : ℕ, i < t.length → mem i = t.getD i 0) (hz : mem t.length = 0)
    (h' : ∀ i : ℕ, i < t'.length → mem i = t'.getD i 0) (hz' : mem t'.length = 0) : t = t' := by
  have hne : ∀ {l : List UInt8} {i : ℕ}, 0 ∉ l → i < l.length → l.getD i 0 ≠ 0 := by
    intro l i hl hi heq
    rw [List.getD_eq_getElem _ _ hi] at heq
    exact hl (heq ▸ List.getElem_mem hi)
  have hlen : t.length = t'.length := by
    obtain hlt | heq | hlt := lt_trichotomy t.length t'.length
    · exact absurd ((h' _ hlt).symm.trans hz) (hne ht' hlt)
    · exact heq
    · exact absurd ((h _ hlt).symm.trans hz') (hne ht hlt)
  apply List.ext_getElem hlen
  intro i h₁ h₂
  rw [← List.getD_eq_getElem t 0 h₁, ← List.getD_eq_getElem t' 0 h₂, ← h i h₁, ← h' i h₂]

theorem mem_of_getD {i : ℕ} (hi : i < t.length) : t.getD i 0 ∈ t := by
  rw [List.getD_eq_getElem _ _ hi]
  exact List.getElem_mem hi

theorem put_items_of_nil (h : text items = []) (length : ℤ) : put_items length items = [] := by
  induction items generalizing length with
  | nil => rfl
  | cons x items ih =>
    rw [text_cons, List.append_eq_nil_iff] at h
    rw [put_items, put_of_text_nil h.1, ih h.2, List.append_nil]

/-- What is in the buffer says what was handed over. -/
theorem put_items_of_prints (hitems : ∀ x ∈ items, x.Ok ∧ FitsItem x)
    (hfmt : (format items).length ≤ 256) (h : PrintsAsC items) :
    text items ≠ [] ∧ (∀ c ∈ text items, c ≠ 0 ∧ c ≠ BACKSPACE) ∧
      put_items 0 items = text items := by
  obtain ⟨n, hlen, hchars, hzero⟩ := h (fun _ => 1) (fun _ => 0)
  simp only [sys_sprintf, sys_vprintf_spec hitems hfmt] at hlen hchars hzero
  have hlow : ∀ c ∈ text items, c ≠ 0 ∧ c ≠ BACKSPACE := by
    intro c hc
    obtain ⟨i, hi, rfl⟩ := List.getElem_of_mem hc
    have hchar := hchars i hi
    rw [List.getD_eq_getElem _ _ hi] at hchar
    rw [← hchar]
    exact ⟨(sys_strlen_some hlen).2 i (Nat.zero_le i) hi,
      putc_mem_ne (fun _ => by decide) _ _ _⟩
  have hput : ∀ c ∈ put_items 0 items, c ≠ 0 ∧ c ≠ BACKSPACE := by
    intro c hc
    by_cases h32 : c.toNat < 32
    · obtain hmem | rfl := mem_put_items h32 hc
      · exact hlow c hmem
      · decide
    · constructor
      · rintro rfl
        exact h32 (by decide)
      · rintro rfl
        exact h32 (by decide)
  -- with nothing handed over nothing is written, not even the zero
  have hne : put_items 0 items ≠ [] := by
    intro hnil
    rw [hnil] at hzero
    have hone : (1 : UInt8) = 0 := hzero
    exact absurd hone (by decide)
  refine ⟨fun hnil => hne (put_items_of_nil hnil 0), hlow, ?_⟩
  obtain ⟨-, hchars', hzero', -⟩ := putc_spec (fun hmem => (hput _ hmem).2 rfl) (fun _ => 1) 0
  simp only [zero_add] at hchars' hzero'
  exact text_unique (fun hmem => (hput _ hmem).1 rfl) (fun hmem => (hlow _ hmem).1 rfl) hchars'
    (hzero' hne) hchars hzero

theorem Printable.chars (h : Printable items) (hitems : ∀ x ∈ items, x.Ok ∧ FitsItem x) :
    ∀ c ∈ text items, c ≠ 0 ∧ c ≠ BACKSPACE := by
  intro c hc
  obtain ⟨x, hx, hc⟩ := List.mem_flatMap.mp hc
  exact plain_chars (hitems x hx).1 (h.plain x hx) hc

/-- The buffer behind `sys_sprintf` of printable items: their text and a zero, and nothing
else has changed. -/
theorem sys_sprintf_spec (hitems : ∀ x ∈ items, x.Ok ∧ FitsItem x)
    (hfmt : (format items).length ≤ 256) (h : Printable items) (mem : ℤ → UInt8)
    (stack : ℕ → UInt8) {n : ℕ} (hn : (text items).length < n) :
    (sys_sprintf mem (format items) (args items) stack n).2 = some (text items).length ∧
      (∀ i : ℕ, i < (text items).length →
        (sys_sprintf mem (format items) (args items) stack n).1 i = (text items).getD i 0) ∧
      (sys_sprintf mem (format items) (args items) stack n).1 (text items).length = 0 ∧
      ∀ x : ℤ, x < 0 ∨ (text items).length < x →
        (sys_sprintf mem (format items) (args items) stack n).1 x = mem x := by
  have hlow := h.chars hitems
  obtain ⟨-, hchars, hzero, hframe⟩ := putc_spec (fun hmem => (hlow _ hmem).2 rfl) mem 0
  simp only [zero_add] at hchars hzero hframe
  have hzero' := hzero h.text_ne
  simp only [sys_sprintf, sys_vprintf_spec hitems hfmt,
    (put_items_eq_iff hlow).mpr ⟨h.plain, h.percent⟩]
  refine ⟨?_, hchars, hzero', fun x hx => hframe x (hx.imp id .inl)⟩
  refine sys_strlen_of (fun i hi => ?_) hzero' (Nat.zero_le _) (by omega)
  rw [hchars i hi]
  exact (hlow _ (mem_of_getD hi)).1

/-- Without a `%%` it is enough that the items are plain. -/
theorem Printable.of_plain (h : ∀ x ∈ items, Plain x) (hpercent : Item.percent ∉ items)
    (hne : text items ≠ []) : Printable items where
  plain := h
  percent := by
    rintro l₁ l₂ rfl
    exact absurd (List.mem_append_right _ List.mem_cons_self) hpercent
  text_ne := hne

end Buffer

/-- `%-4s|%05d` of a name and a negative number. -/
def padded_items : List Item :=
  [.str true 4 [ch 'h', ch 'd'], .char (ch '|'), .int false true 5 .d (.int (-42))]

end CsBoot.Printf
