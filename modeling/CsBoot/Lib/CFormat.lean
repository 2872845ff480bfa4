/-
Formats of C's `printf`, and what the standard has them print.

An `Item` is an ordinary character or a conversion with its argument: `d`, `u`, `x` and `X`
with flags, a width and a length modifier, `s` with the flag `-` and a width, `c` and `%`.
`format` is how a list of items is written, `text` what it prints. The digits of a number are
found again in what is printed of it (`value_zeros_numeral`).
-/
import CsBoot.Lib.CString
import Mathlib.Data.Nat.Digits.Lemmas

set_option autoImplicit false

namespace CFormat

open CString

/-! ## Numerals -/

/-- The character of a digit. -/
def digit (upper : Bool) (d : ℕ) : UInt8 :=
  UInt8.ofNat (if d < 10 then 48 + d else if upper then 55 + d else 87 + d)

/-- The digits, the first one first; none for 0. -/
def digitsOf (base : ℕ) (upper : Bool) (n : ℕ) : List UInt8 :=
  (Nat.digits base n).reverse.map (digit upper)

/-- A number as it is printed. -/
def numeral (base : ℕ) (upper : Bool) (n : ℕ) : List UInt8 :=
  if n = 0 then [ch '0'] else digitsOf base upper n

/-- What a digit counts. -/
def digitValue (c : UInt8) : ℕ :=
  if c.toNat < 58 then c.toNat - 48 else if c.toNat < 91 then c.toNat - 55 else c.toNat - 87

/-- The number that digits denote, behind those that denote `v`. -/
def valueFrom (base v : ℕ) (l : List UInt8) : ℕ := l.foldl (fun v c => base * v + digitValue c) v

/-! ## Items -/

/-- An integer argument with the length modifier that announces it. -/
inductive IntArg
  | int (v : BitVec 32)
  | long (v : BitVec 32)
  | longlong (v : BitVec 64)

/-- The length modifier that goes with the type. -/
def IntArg.modifier : IntArg → List UInt8
  | .int _ => []
  | .long _ => [ch 'l']
  | .longlong _ => [ch 'l', ch 'l']

/-- The argument as `%d` takes it. -/
def IntArg.signed : IntArg → ℤ
  | .int v => v.toInt
  | .long v => v.toInt
  | .longlong v => v.toInt

/-- The argument as `%u`, `%x` and `%X` take it. -/
def IntArg.unsigned : IntArg → ℕ
  | .int v => v.toNat
  | .long v => v.toNat
  | .longlong v => v.toNat

/-- The conversions of an integer. -/
inductive IntConv
  | d
  | u
  | x
  | X
deriving DecidableEq

/-- The character of a conversion. -/
def IntConv.letter : IntConv → UInt8
  | .d => ch 'd'
  | .u => ch 'u'
  | .x => ch 'x'
  | .X => ch 'X'

/-- A piece of a format with its argument. -/
inductive Item
  | char (c : UInt8)
  | int (left zero : Bool) (width : ℕ) (conv : IntConv) (arg : IntArg)
  | str (left : Bool) (width : ℕ) (s : List UInt8)
  | chr (c : BitVec 32)
  | percent

/-- A flag, if it is set. -/
def flag (c : UInt8) (b : Bool) : List UInt8 := if b then [c] else []

/-- How an item is written. -/
def Item.format : Item → List UInt8
  | .char c => [c]
  | .int left zero width conv arg =>
    ch '%' :: (flag (ch '-') left ++ (flag (ch '0') zero ++
      (digitsOf 10 false width ++ (arg.modifier ++ [conv.letter]))))
  | .str left width _ =>
    ch '%' :: (flag (ch '-') left ++ (digitsOf 10 false width ++
      [ch 's']))
  | .chr _ => [ch '%', ch 'c']
  | .percent => [ch '%', ch '%']

/-- The format string of a list of items. -/
def format (l : List Item) : List UInt8 := l.flatMap Item.format

/-! ## What is printed -/

/-- What fills a field. -/
def spaces (n : ℕ) : List UInt8 := List.replicate n (ch ' ')

/-- What fills it with the flag `0`. -/
def zeros (n : ℕ) : List UInt8 := List.replicate n (ch '0')

/-- The text in a field. -/
def field (left : Bool) (width : ℕ) (t : List UInt8) : List UInt8 :=
  if left then t ++ spaces (width - t.length) else spaces (width - t.length) ++ t

/-- Whether a sign is printed. -/
def IntConv.negative : IntConv → IntArg → Bool
  | .d, a => decide (a.signed < 0)
  | _, _ => false

/-- The base of the digits. -/
def IntConv.base : IntConv → ℕ
  | .d | .u => 10
  | .x | .X => 16

/-- Whether the digits are upper case. -/
def IntConv.upper : IntConv → Bool
  | .X => true
  | _ => false

/-- The number that is printed behind the sign. -/
def IntConv.magnitude : IntConv → IntArg → ℕ
  | .d, a => a.signed.natAbs
  | _, a => a.unsigned

/-- The digits that are printed behind the sign. -/
def IntConv.digits (conv : IntConv) (a : IntArg) : List UInt8 :=
  numeral conv.base conv.upper (conv.magnitude a)

/-- A number in its field; zeros fill it between the sign and the digits, unless it is to
stand on the left. -/
def number (left zero : Bool) (width : ℕ) (sign digits : List UInt8) : List UInt8 :=
  if zero && !left then sign ++ zeros (width - (sign.length + digits.length)) ++ digits
  else field left width (sign ++ digits)

/-- What C prints for an item. -/
def Item.text : Item → List UInt8
  | .char c => [c]
  | .int left zero width conv arg =>
    number left zero width (flag (ch '-') (conv.negative arg)) (conv.digits arg)
  | .str left width s => field left width s
  | .chr c => [UInt8.ofNat c.toNat]
  | .percent => [ch '%']

/-- What C prints for a list of items. -/
def text (l : List Item) : List UInt8 := l.flatMap Item.text

theorem text_nil : text [] = [] := rfl

theorem text_cons (x : Item) (l : List Item) : text (x :: l) = x.text ++ text l :=
  List.flatMap_cons

/-- The text of two formats, one behind the other. -/
theorem text_append (l l' : List Item) : text (l ++ l') = text l ++ text l' := List.flatMap_append

theorem format_nil : format [] = [] := rfl

theorem format_cons (x : Item) (l : List Item) : format (x :: l) = x.format ++ format l :=
  List.flatMap_cons

/-- The format string of two lists of items. -/
theorem format_append (l l' : List Item) : format (l ++ l') = format l ++ format l' :=
  List.flatMap_append

/-- The largest `int`. -/
def INT_MAX : ℕ := 2 ^ 31 - 1

/-- An ordinary character is no `%`, a width is an `int`, and a string has no zero in it. -/
def Item.Ok : Item → Prop
  | .char c => c ≠ 0 ∧ c ≠ ch '%'
  | .int _ _ width _ _ => width ≤ INT_MAX
  | .str _ width s => width ≤ INT_MAX ∧ 0 ∉ s
  | .chr _ => True
  | .percent => True

instance : DecidablePred Item.Ok
  | .char c => inferInstanceAs (Decidable (c ≠ 0 ∧ c ≠ ch '%'))
  | .int _ _ width _ _ => inferInstanceAs (Decidable (width ≤ INT_MAX))
  | .str _ width s => inferInstanceAs (Decidable (width ≤ INT_MAX ∧ 0 ∉ s))
  | .chr _ => inferInstanceAs (Decidable True)
  | .percent => inferInstanceAs (Decidable True)

/-! ## Digits -/

section Digits

variable {base n d : ℕ} {upper : Bool}

/-- The code of a digit in ASCII. -/
theorem digit_toNat (hd : d < 16) :
    (digit upper d).toNat = if d < 10 then 48 + d else if upper then 55 + d else 87 + d := by
  rw [digit, UInt8.toNat_ofNat']
  apply Nat.mod_eq_of_lt
  split_ifs <;> omega

/-- A digit is read back, -/
theorem digitValue_digit (hd : d < 16) : digitValue (digit upper d) = d := by
  rw [digitValue, digit_toNat hd]
  split_ifs <;> omega

/-- The digits that are printed lie between `0` and `f`. -/
theorem digit_bounds (hd : d < 16) :
    48 ≤ (digit upper d).toNat ∧ (digit upper d).toNat ≤ 102 := by
  rw [digit_toNat hd]
  split_ifs <;> omega

/-- and so is a row of digits. -/
theorem valueFrom_digits {l : List ℕ} (hl : ∀ d ∈ l, d < 16) (v : ℕ) :
    valueFrom base v (l.map (digit upper)) = l.foldl (fun v d => base * v + d) v := by
  induction l generalizing v with
  | nil => rfl
  | cons d l ih =>
    rw [List.map_cons, valueFrom, List.foldl_cons, digitValue_digit (hl d List.mem_cons_self),
      List.foldl_cons]
    exact ih (fun d hd => hl d (List.mem_cons_of_mem _ hd)) _

/-- No conversion has a base that the digits do not reach. -/
theorem IntConv.base_bounds (conv : IntConv) : 1 < conv.base ∧ conv.base ≤ 16 := by
  cases conv <;> decide

/-- Horner's rule on the digits of a number, the highest first. -/
theorem foldl_digits_reverse (base n : ℕ) :
    (Nat.digits base n).reverse.foldl (fun v d => base * v + d) 0 = n := by
  have hofDigits := Nat.ofDigits_eq_foldr base (Nat.digits base n)
  rw [Nat.ofDigits_digits] at hofDigits
  rw [List.foldl_reverse]
  simpa [add_comm] using hofDigits.symm

/-- The digits of a number have characters. -/
theorem digits_lt (hb : 1 < base) (hb' : base ≤ 16) {d : ℕ} (hd : d ∈ (Nat.digits base n).reverse) :
    d < 16 :=
  (Nat.digits_lt_base hb (List.mem_reverse.mp hd)).trans_le hb'

/-- The characters of a number lie between `0` and `f`. -/
theorem mem_numeral (hb : 1 < base) (hb' : base ≤ 16) {c : UInt8} (hc : c ∈ numeral base upper n) :
    48 ≤ c.toNat ∧ c.toNat ≤ 102 := by
  unfold numeral at hc
  split_ifs at hc
  · rw [List.mem_singleton.mp hc]
    decide
  · obtain ⟨d, hd, rfl⟩ := List.mem_map.mp hc
    exact digit_bounds (digits_lt hb hb' hd)

/-- The characters of a numeral are digits. -/
theorem exists_digit_of_mem (hb : 1 < base) {c : UInt8} (hc : c ∈ numeral base upper n) :
    ∃ d, d < base ∧ c = digit upper d := by
  unfold numeral at hc
  split_ifs at hc
  · exact ⟨0, by omega, List.mem_singleton.mp hc⟩
  · obtain ⟨d, hd, rfl⟩ := List.mem_map.mp hc
    exact ⟨d, Nat.digits_lt_base hb (List.mem_reverse.mp hd), rfl⟩

/-- A number is read on behind the digits that are done. -/
theorem valueFrom_append (v : ℕ) (l l' : List UInt8) :
    valueFrom base v (l ++ l') = valueFrom base (valueFrom base v l) l' := List.foldl_append

/-- Leading zeros do not count. -/
theorem valueFrom_zeros (n : ℕ) : valueFrom base 0 (zeros n) = 0 := by
  induction n with
  | zero => rfl
  | succ n ih => simpa [zeros, List.replicate_succ, valueFrom, digitValue] using ih

/-- A number that is printed is read back. -/
theorem valueFrom_numeral (hb : 1 < base) (hb' : base ≤ 16) :
    valueFrom base 0 (numeral base upper n) = n := by
  unfold numeral
  split_ifs with h
  · rw [h]
    rfl
  · rw [digitsOf, valueFrom_digits fun d hd => digits_lt hb hb' hd]
    exact foldl_digits_reverse base n

/-- The number is found again behind any zeros. -/
theorem value_zeros_numeral (hb : 1 < base) (hb' : base ≤ 16) (k : ℕ) :
    valueFrom base 0 (zeros k ++ numeral base upper n) = n := by
  rw [valueFrom_append, valueFrom_zeros, valueFrom_numeral hb hb']

/-- A number has a digit, zero as well. -/
theorem length_numeral_pos (base : ℕ) (upper : Bool) (n : ℕ) :
    0 < (numeral base upper n).length := by
  unfold numeral
  split_ifs with h
  · exact Nat.one_pos
  · rw [digitsOf, List.length_map, List.length_reverse]
    exact List.length_pos_iff.mpr (Nat.digits_ne_nil_iff_ne_zero.mpr h)

/-- A larger number has no fewer digits. -/
theorem length_numeral_mono {m : ℕ} (h : m ≤ n) :
    (numeral base upper m).length ≤ (numeral base upper n).length := by
  by_cases hm : m = 0
  · rw [hm, numeral, if_pos rfl]
    exact length_numeral_pos ..
  · rw [numeral, if_neg hm, numeral, if_neg (by omega), digitsOf, digitsOf, List.length_map,
      List.length_map, List.length_reverse, List.length_reverse]
    exact Nat.le_length_digits_le base m n h

/-- The first digit of a width is none of the flags. -/
theorem head_digitsOf (hb : 1 < base) (hb' : base ≤ 10) (upper : Bool) (n : ℕ) (t : List UInt8) :
    (n = 0 ∧ digitsOf base upper n ++ t = t) ∨
      ∃ c s, digitsOf base upper n ++ t = c :: s ∧ 49 ≤ c.toNat ∧ c.toNat ≤ 57 := by
  by_cases hn : n = 0
  · left
    rw [hn, digitsOf, Nat.digits_zero]
    exact ⟨rfl, rfl⟩
  · right
    have hne : Nat.digits base n ≠ [] := Nat.digits_ne_nil_iff_ne_zero.mpr hn
    have hlast := Nat.getLast_digit_ne_zero base hn
    have hlt : (Nat.digits base n).getLast hne < base :=
      Nat.digits_lt_base hb (List.getLast_mem hne)
    have hrev : (Nat.digits base n).reverse =
        (Nat.digits base n).getLast hne :: (Nat.digits base n).dropLast.reverse := by
      conv_lhs => rw [← List.dropLast_append_getLast hne]
      rw [List.reverse_append]
      rfl
    refine ⟨digit upper ((Nat.digits base n).getLast hne),
      (Nat.digits base n).dropLast.reverse.map (digit upper) ++ t, ?_, ?_, ?_⟩
    · rw [digitsOf, hrev, List.map_cons, List.cons_append]
    · rw [digit_toNat (by omega)]
      split_ifs <;> omega
    · rw [digit_toNat (by omega)]
      split_ifs <;> omega

end Digits

end CFormat
