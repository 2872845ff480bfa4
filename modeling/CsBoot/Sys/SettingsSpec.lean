/-
Text entries of the VCTL store, from the text that is printed to what is read of it.

`sprintf_at` puts the text and its zero into the buffer (`sprintf_at_spec`); the entry that
is saved is well formed, of its type, and has the text behind its header, whatever entry was
there (`text_entry_spec`). `sys_find_str` passes over characters that are no first letter of
the word (`find_str_skip`), and numbers are read as they were printed.
-/
import CsBoot.Sys.PrintfAsC
import CsBoot.Sys.Settings
import CsBoot.Sys.VctlStore

set_option autoImplicit false

namespace CsBoot.Vctl

open CString (ch)
open ByteMem SkipBlocks Nor Ui Keyed Printf CFormat

/-! ## The buffer -/

section Buffer

variable {items : List Item} {buf : List UInt8} {i : ℕ} {t : List UInt8}

/-- Items that `sprintf` prints as they are: printable, and in range. -/
structure Printed (items : List Item) : Prop where
  ok : ∀ x ∈ items, x.Ok ∧ FitsItem x
  fmt_le : (format items).length ≤ 256
  printable : Printable items

theorem Printed.zero_not_mem (h : Printed items) : 0 ∉ text items := fun hmem =>
  (h.printable.chars h.ok 0 hmem).1 rfl

/-- The buffer keeps its length, -/
theorem length_patch {srce : List UInt8} (h : i + srce.length ≤ buf.length) :
    (patch buf i srce).length = buf.length := by
  simp only [patch, List.length_append, List.length_take, List.length_drop]
  omega

/-- and has the new bytes in their place. -/
theorem getD_patch {srce : List UInt8} (h : i + srce.length ≤ buf.length) (k : ℕ) :
    (patch buf i srce).getD k 0 =
      if i ≤ k ∧ k < i + srce.length then srce.getD (k - i) 0 else buf.getD k 0 := by
  have htake : (buf.take i).length = i := by
    rw [List.length_take]
    omega
  rw [patch, List.append_assoc]
  obtain hlt | hge := lt_or_ge k i
  · rw [List.getD_append _ _ _ _ (by omega), if_neg (by omega), List.getD_eq_getElem?_getD,
      List.getElem?_take_of_lt hlt, List.getD_eq_getElem?_getD]
  · rw [List.getD_append_right _ _ _ _ (by omega), htake]
    obtain hlt' | hge' := lt_or_ge (k - i) srce.length
    · rw [List.getD_append _ _ _ _ hlt', if_pos (by omega)]
    · rw [List.getD_append_right _ _ _ _ hge', if_neg (by omega), List.getD_eq_getElem?_getD,
        List.getElem?_drop, List.getD_eq_getElem?_getD]
      congr 2
      omega

/-- **`sprintf` inside a buffer** puts the text and a zero there. -/
theorem sprintf_at_spec (h : Printed items) (hfits : i + (text items).length < buf.length)
    (stack : ℕ → UInt8) :
    sprintf_at buf i (format items) (args items) stack =
      (patch buf i (text items ++ [0]), (text items).length) := by
  obtain ⟨hlen, hchars, hzero, hframe⟩ := sys_sprintf_spec h.ok h.fmt_le h.printable
    (fun k => buf.getD (i + k).toNat 0) stack (n := buf.length - i) (by omega)
  have hpatch : i + (text items ++ [0]).length ≤ buf.length := by
    rw [List.length_append, List.length_singleton]
    omega
  simp only [sprintf_at, hlen]
  refine Prod.ext ?_ rfl
  apply List.ext_getElem
  · rw [List.length_map, List.length_range, length_patch hpatch]
  · intro k h₁ h₂
    rw [List.length_map, List.length_range] at h₁
    rw [List.getElem_map, List.getElem_range, ← List.getD_eq_getElem _ 0 h₂, getD_patch hpatch]
    rw [List.length_append, List.length_singleton]
    split_ifs with hk
    · obtain ⟨j, rfl⟩ := Nat.exists_eq_add_of_le hk.1
      rw [Nat.add_sub_cancel_left, show ((i + j : ℕ) : ℤ) - i = (j : ℤ) by push_cast; ring]
      have hle : j ≤ (text items).length := by omega
      obtain hlt | heq := Nat.lt_or_eq_of_le hle
      · rw [hchars j hlt, List.getD_append _ _ _ _ hlt]
      · rw [heq, hzero, List.getD_append_right _ _ _ _ le_rfl, Nat.sub_self]
        rfl
    · rw [hframe _ (by omega)]
      congr 1
      omega

end Buffer

/-! ## The entry -/

section TextEntry

variable {items : List Item} {entry bytes t : List UInt8} {type size n : ℕ}

/-- The string stands in the entry, with its zero. -/
structure HasText (bytes t : List UInt8) : Prop where
  lt : ENTRY_LEN + t.length < bytes.length
  chars : ∀ k, k < t.length → bytes.getD (ENTRY_LEN + k) 0 = t.getD k 0
  zero : bytes.getD (ENTRY_LEN + t.length) 0 = 0

/-- **The text is found** in a buffer that the entry fits. -/
theorem HasText.entry_text_eq (h : HasText bytes t) (ht : 0 ∉ t) (hsize : bytes.length ≤ size)
    (stack : List UInt8) : entry_text bytes stack size = t := by
  obtain ⟨hlt, hchars, hzero⟩ := h
  unfold ENTRY_LEN at *
  generalize hl : (((bytes ++ stack.drop bytes.length).take size).drop 20) = l
  -- the text ends inside the entry, so what is on the stack behind it is not read
  have hget : ∀ k, 20 + k < bytes.length → l[k]? = bytes[20 + k]? := by
    intro k hk
    rw [← hl, List.getElem?_drop, List.getElem?_take_of_lt (by omega),
      List.getElem?_append_left hk]
  have hlen : t.length < l.length := by
    have hk := hget t.length hlt
    rw [List.getElem?_eq_getElem hlt] at hk
    exact (List.getElem?_eq_some_iff.mp hk).1
  have htake : l.take t.length = t := by
    apply List.ext_getElem
    · rw [List.length_take]
      omega
    · intro k h₁ h₂
      have hk := hget k (by omega)
      have hc := hchars k h₂
      rw [List.getD_eq_getElem _ _ (by omega), List.getD_eq_getElem _ _ h₂] at hc
      rw [List.getElem?_eq_getElem (by omega), List.getElem?_eq_getElem (by omega),
        Option.some.injEq] at hk
      rw [List.getElem_take, hk, hc]
  have hdrop : l.drop t.length = 0 :: l.drop (t.length + 1) := by
    have hk := hget t.length hlt
    rw [List.getElem?_eq_getElem hlen, List.getElem?_eq_getElem hlt, Option.some.injEq] at hk
    rw [List.getD_eq_getElem _ _ hlt] at hzero
    rw [List.drop_eq_getElem_cons hlen, hk, hzero]
  have hsplit : l = t ++ 0 :: l.drop (t.length + 1) := by
    rw [← hdrop]
    nth_rewrite 1 [← htake]
    exact (List.take_append_drop _ _).symm
  unfold entry_text ENTRY_LEN
  rw [hl, hsplit, List.takeWhile_append_of_pos]
  · simp
  · intro c hc
    exact decide_eq_true fun heq => ht (heq ▸ hc)

/-- A word is its four bytes. -/
theorem word_congr {l l' : List UInt8} {i j : ℕ} (hi : i + 4 ≤ W) (hj : j + 4 ≤ W)
    (h : ∀ k, k < 4 → l.getD (i + k) 0 = l'.getD (j + k) 0) : word l i = word l' j :=
  load32_shift hi hj h

/-- A word that is written is read back. -/
theorem word_le32 (hn : n < W) : word (le32 n) 0 = n := by
  unfold W at hn
  simp only [word, le32, load32, W]
  simp
  omega

theorem length_le32 (n : ℕ) : (le32 n).length = 4 := rfl

/-- **The entry that is saved** has its size, keeps its type, and holds the text. -/
theorem text_bytes_spec (h : Printed items) (hentry : ENTRY_LEN ≤ entry.length)
    (hle : entry.length ≤ size) (hsize : 4 ∣ size) (hint : size < 2 ^ 31)
    (hfits : ENTRY_LEN + (text items).length < size) (stack : ℕ → UInt8) :
    let p := sprintf_at (entry ++ List.replicate (size - entry.length) 0) ENTRY_LEN (format items)
      (args items) stack
    let entry_size := (p.2 + ENTRY_LEN + 1 + 3) / 4 * 4
    let bytes := (patch p.1 4 (le32 entry_size)).take entry_size
    bytes.length = entry_size ∧ word bytes 4 = bytes.length ∧ word bytes 8 = word entry 8 ∧
      bytes.length ≤ size ∧ HasText bytes (text items) := by
  have hW : W = 2 ^ 32 := rfl
  have hbuf : (entry ++ List.replicate (size - entry.length) (0 : UInt8)).length = size := by
    rw [List.length_append, List.length_replicate]
    omega
  simp only [sprintf_at_spec h (hbuf ▸ hfits)]
  unfold ENTRY_LEN at *
  generalize hes : ((text items).length + 20 + 1 + 3) / 4 * 4 = entry_size
  have hbounds : 20 + (text items).length < entry_size ∧ entry_size ≤ size := by omega
  have hpatch : 20 + (text items ++ [0]).length ≤
      (entry ++ List.replicate (size - entry.length) (0 : UInt8)).length := by
    rw [hbuf, List.length_append, List.length_singleton]
    omega
  have hlen : (patch (entry ++ List.replicate (size - entry.length) 0) 20
      (text items ++ [0])).length = size := (length_patch hpatch).trans hbuf
  have hpatch' : 4 + (le32 entry_size).length ≤ (patch (entry ++
      List.replicate (size - entry.length) 0) 20 (text items ++ [0])).length := by
    rw [hlen, length_le32]
    omega
  have hbytes : ((patch (patch (entry ++ List.replicate (size - entry.length) 0) 20
      (text items ++ [0])) 4 (le32 entry_size)).take entry_size).length = entry_size := by
    rw [List.length_take, length_patch hpatch', hlen]
    omega
  -- a byte is one of the size, of the text, or of the entry as it was
  have hgetD : ∀ k, k < entry_size → ((patch (patch (entry ++
      List.replicate (size - entry.length) 0) 20 (text items ++ [0])) 4
      (le32 entry_size)).take entry_size).getD k 0 =
        if 4 ≤ k ∧ k < 8 then (le32 entry_size).getD (k - 4) 0
        else if 20 ≤ k ∧ k < 20 + ((text items).length + 1) then (text items ++ [0]).getD (k - 20) 0
        else (entry ++ List.replicate (size - entry.length) 0).getD k 0 := by
    intro k hk
    rw [List.getD_eq_getElem?_getD, List.getElem?_take_of_lt hk, ← List.getD_eq_getElem?_getD,
      getD_patch hpatch', getD_patch hpatch, length_le32, List.length_append,
      List.length_singleton]
  refine ⟨hbytes, ?_, ?_, hbytes.trans_le hbounds.2, ?_, ?_, ?_⟩
  · rw [hbytes]
    refine (word_congr (j := 0) (by omega) (by omega) fun k hk => ?_).trans
      (word_le32 (by omega))
    rw [hgetD _ (by omega), if_pos (by omega), Nat.add_sub_cancel_left, Nat.zero_add]
  · refine word_congr (by omega) (by omega) fun k hk => ?_
    rw [hgetD _ (by omega), if_neg (by omega), if_neg (by omega),
      List.getD_append _ _ _ _ (by omega)]
  · unfold ENTRY_LEN
    rw [hbytes]
    exact hbounds.1
  · intro k hk
    unfold ENTRY_LEN
    rw [hgetD _ (by omega), if_neg (by omega), if_pos (by omega), Nat.add_sub_cancel_left,
      List.getD_append _ _ _ _ hk]
  · unfold ENTRY_LEN
    rw [hgetD _ (by omega), if_neg (by omega), if_pos (by omega), Nat.add_sub_cancel_left,
      List.getD_append_right _ _ _ _ le_rfl, Nat.sub_self]
    rfl

end TextEntry

/-! ## `sys_find_str` -/

section FindStr

variable {k t s : List UInt8}

/-- A text begins with its own letters. -/
theorem same_letters_self (k s : List UInt8) : same_letters (k ++ s) k = true := by
  unfold same_letters
  rw [List.all_eq_true]
  intro i hi
  rw [List.mem_range] at hi
  rw [decide_eq_true_eq, List.getD_append _ _ _ _ hi]

/-- The word stands where the search begins. -/
theorem find_str_here (hkey : k ≠ []) : sys_find_str (k ++ s) k = some (k ++ s) := by
  obtain ⟨c, k, rfl⟩ := List.exists_cons_of_ne_nil hkey
  have hsame := same_letters_self (c :: k) s
  rw [List.cons_append] at hsame ⊢
  rw [sys_find_str, if_pos ⟨rfl, hsame⟩]

/-- The search passes over other characters than the first letter. -/
theorem find_str_skip (ht : ∀ c ∈ t, Strto.toupper c ≠ Strto.toupper (k.headD 0)) :
    sys_find_str (t ++ s) k = sys_find_str s k := by
  induction t with
  | nil => rfl
  | cons c t ih =>
    rw [List.cons_append, sys_find_str, if_neg fun h => ht c List.mem_cons_self h.1]
    exact ih fun d hd => ht d (List.mem_cons_of_mem _ hd)

end FindStr

/-! ## Addresses -/

section Addresses

variable {n : ℕ}

/-- The characters as items. -/
def chars (l : List UInt8) : List Item := l.map .char

/-- Ordinary characters are printed as they are, -/
theorem text_chars (l : List UInt8) : text (chars l) = l := by
  induction l with
  | nil => rfl
  | cons c l ih => exact congrArg (c :: ·) ih

/-- and written so. -/
theorem format_chars (l : List UInt8) : format (chars l) = l := by
  induction l with
  | nil => rfl
  | cons c l ih => exact congrArg (c :: ·) ih

/-- A word printed by `%d`. -/
def word_item (x : UInt32) : Item := .int false false 0 .d (.int x.toBitVec)

/-- The byte of an address behind `k` bytes. -/
def octet (a : UInt32) (k : ℕ) : ℕ := a.toNat / 2 ^ (8 * k) % 256

theorem octet_lt (a : UInt32) (k : ℕ) : octet a k < 256 := Nat.mod_lt _ (by norm_num)

/-- `IP1(a)` to `IP4(a)` -/
theorem ip_macros (a : UInt32) :
    (a >>> 24 &&& 0xff).toNat = octet a 3 ∧ (a >>> 16 &&& 0xff).toNat = octet a 2 ∧
      (a >>> 8 &&& 0xff).toNat = octet a 1 ∧ (a &&& 0xff).toNat = octet a 0 := by
  have hmask : ∀ n : ℕ, n &&& 255 = n % 256 := fun n => Nat.and_two_pow_sub_one_eq_mod n 8
  refine ⟨?_, ?_, ?_, ?_⟩ <;>
    simp [octet, UInt32.toNat_and, UInt32.toNat_shiftRight, Nat.shiftRight_eq_div_pow, hmask]

/-- An address is made of its octets. -/
theorem address_octets (a : UInt32) :
    Str.address (octet a 3) (octet a 2) (octet a 1) (octet a 0) = a.toNat := by
  have hlt := a.toNat_lt
  unfold Str.address octet
  omega

/-- `%d` of a small number prints its digits. -/
theorem text_word_item {x : UInt32} (hx : x.toNat < 256) :
    (word_item x).text = numeral 10 false x.toNat := by
  have hint : x.toBitVec.toInt = (x.toNat : ℤ) := by
    rw [BitVec.toInt_eq_toNat_of_lt]
    · rfl
    · change 2 * x.toNat < 2 ^ 32
      omega
  have hneg : ¬ ((x.toNat : ℤ) < 0) := by omega
  simp [word_item, Item.text, number, field, IntConv.negative, IntConv.digits, IntConv.magnitude,
    IntConv.base, IntConv.upper, IntArg.signed, hint, hneg, flag, spaces]

/-- The four numbers of an address with dots between them. -/
def dotted (n₁ n₂ n₃ n₄ : ℕ) : List UInt8 :=
  numeral 10 false n₁ ++ Str.DOT :: (numeral 10 false n₂ ++ Str.DOT :: (numeral 10 false n₃ ++
    Str.DOT :: numeral 10 false n₄))

/-- An address as text. -/
def address_text (a : UInt32) : List UInt8 :=
  dotted (octet a 3) (octet a 2) (octet a 1) (octet a 0)

/-- The items that print it. -/
def address_items (a : UInt32) : List Item :=
  [word_item (a >>> 24 &&& 0xff), .char Str.DOT, word_item (a >>> 16 &&& 0xff), .char Str.DOT,
    word_item (a >>> 8 &&& 0xff), .char Str.DOT, word_item (a &&& 0xff)]

theorem text_address_items (a : UInt32) : text (address_items a) = address_text a := by
  obtain ⟨h₁, h₂, h₃, h₄⟩ := ip_macros a
  have hlt := octet_lt a
  have hdot : (Item.char Str.DOT).text = [Str.DOT] := rfl
  simp [address_items, address_text, dotted, text, text_word_item, h₁, h₂, h₃, h₄, hlt, hdot]

/-- The characters of a decimal number are digits. -/
theorem decimal_digit_bounds {c : UInt8} (hc : c ∈ numeral 10 false n) :
    48 ≤ c.toNat ∧ c.toNat ≤ 57 := by
  obtain ⟨d, hd, rfl⟩ := exists_digit_of_mem (by norm_num) hc
  rw [digit_toNat (by omega), if_pos hd]
  omega

theorem isDigit_of_numeral {c : UInt8} (hc : c ∈ numeral 10 false n) : Str.IsDigit c := by
  obtain ⟨hlo, hhi⟩ := decimal_digit_bounds hc
  exact ⟨UInt8.le_iff_toNat_le.mpr hlo, UInt8.le_iff_toNat_le.mpr hhi⟩

/-- A decimal number is read back. -/
theorem decimal_numeral (n : ℕ) : Str.decimal (numeral 10 false n) = n := by
  have hfold : ∀ (l : List UInt8) (v : ℕ), (∀ c ∈ l, c.toNat ≤ 57) →
      Str.decimalFrom v l = valueFrom 10 v l := by
    intro l
    induction l with
    | nil => exact fun v _ => rfl
    | cons c l ih =>
      intro v hl
      have hc : digitValue c = c.toNat - 48 := if_pos (by have := hl c List.mem_cons_self; omega)
      rw [Str.decimalFrom, valueFrom, List.foldl_cons, List.foldl_cons, hc]
      exact ih _ fun d hd => hl d (List.mem_cons_of_mem _ hd)
  rw [Str.decimal, hfold _ 0 fun c hc => (decimal_digit_bounds hc).2,
    valueFrom_numeral (by norm_num) (by norm_num)]

/-- **An address is read** as it was printed. -/
theorem str2ip_address_text (a : UInt32) {rest : List UInt8}
    (hrest : ∀ c ∈ rest.head?, ¬ Str.IsDigit c) : Str.str2ip (address_text a ++ rest) = a := by
  have hdotted : Str.Dotted (address_text a ++ rest) (numeral 10 false (octet a 3))
      (numeral 10 false (octet a 2)) (numeral 10 false (octet a 1))
      (numeral 10 false (octet a 0)) := by
    refine ⟨rest, by simp [address_text, dotted], ?_, fun c => isDigit_of_numeral, hrest⟩
    simp only [List.mem_append, or_imp, forall_and]
    exact ⟨⟨fun c => isDigit_of_numeral, fun c => isDigit_of_numeral⟩, fun c => isDigit_of_numeral⟩
  rw [Str.str2ip_dotted hdotted, decimal_numeral, decimal_numeral, decimal_numeral,
    decimal_numeral, address_octets]
  exact UInt32.ofNat_toNat

end Addresses

end CsBoot.Vctl
