/-
Numbers that are read, `simple_strtoul` and `simple_strtoull` of `src/src/sys/sys_printf.c`
and the integer conversions of `sys_vsscanf`.

A string is its characters in front of the final zero. The macro `isdigit` of
`src/inc/api.h` is a conditional expression without parentheses, and what is meant as its
two results in `isdigit(*cp) ? *cp-'0' : ..` belongs to its `FALSE` alone: a decimal digit
counts as `TRUE`, a letter as itself. So a number is read by its value exactly if it makes
no difference that its digits count as one (`parses_by_value_iff`).
-/
import Mathlib.Tactic
import Mathlib.Data.List.GetD
import Mathlib.Data.List.TakeWhile
import Mathlib.Data.Nat.Digits.Defs

set_option autoImplicit false

namespace CsBoot.Strto

/-! ## `simple_strtoul`, `simple_strtoull` -/

def TRUE : ℕ := 1
def FALSE : ℕ := 0

/-- `cp[i]` -/
def peek (cp : List UInt8) (i : ℕ) : UInt8 := cp.getD i 0

def toupper (c : UInt8) : UInt8 := if 0x61 ≤ c ∧ c ≤ 0x7a then c - 0x20 else c

/-- `isxdigit` -/
abbrev IsXDigit (c : UInt8) : Prop :=
  0x30 ≤ c ∧ c ≤ 0x39 ∨ 0x61 ≤ c ∧ c ≤ 0x66 ∨ 0x41 ≤ c ∧ c ≤ 0x46

/-- The condition of `isdigit`. -/
abbrev IsDigit (c : UInt8) : Prop := 0x30 ≤ c ∧ c ≤ 0x39

/-- `isdigit(*cp) ? *cp-'0' : toupper(*cp)-'A'+10` as it is expanded. -/
def strtoul_digit (c : UInt8) : ℕ :=
  if IsDigit c then TRUE
  else if FALSE ≠ 0 then c.toNat - 0x30
  else (toupper c).toNat - 0x41 + 10

/-- `isdigit(*cp) ? *cp-'0' : (islower(*cp) ? toupper(*cp) : *cp)-'A'+10`, likewise. -/
def strtoull_digit (c : UInt8) : ℕ :=
  if IsDigit c then TRUE
  else if FALSE ≠ 0 then c.toNat - 0x30
  else (if 0x61 ≤ c ∧ c ≤ 0x7a then toupper c else c).toNat - 0x41 + 10

/-- The beginning of both functions: the base, and where the digits are. -/
def strto_start (cp : List UInt8) (base : ℕ) : ℕ × List UInt8 :=
  if base = 0 then
    if peek cp 0 = 0x30 then
      if toupper (peek cp 1) = 0x58 ∧ IsXDigit (peek cp 2) then (16, cp.drop 2) else (8, cp.drop 1)
    else (10, cp)
  else if base = 16 then
    if peek cp 0 = 0x30 ∧ toupper (peek cp 1) = 0x58 then (16, cp.drop 2) else (16, cp)
  else (base, cp)

/-- The loop of both functions, with a word of `w` bits and their way to convert a digit. -/
def strto_loop (w : ℕ) (digit : UInt8 → ℕ) (base : ℕ) : ℕ → List UInt8 → ℕ × List UInt8
  | result, [] => (result, [])
  | result, c :: cp =>
    if IsXDigit c ∧ digit c < base then
      strto_loop w digit base ((result * base + digit c) % 2 ^ w) cp
    else (result, c :: cp)

/-- What is returned, and `*endp`. -/
def strto (w : ℕ) (digit : UInt8 → ℕ) (cp : List UInt8) (base : ℕ) : ℕ × List UInt8 :=
  let (base, cp) := strto_start cp base
  strto_loop w digit base 0 cp

def simple_strtoul (cp : List UInt8) (base : ℕ) : ℕ × List UInt8 := strto 32 strtoul_digit cp base

def simple_strtoull (cp : List UInt8) (base : ℕ) : ℕ × List UInt8 :=
  strto 64 strtoull_digit cp base

/-- A minus sign in front, as a word of `w` bits. -/
def negated (w : ℕ) (strto : List UInt8 → ℕ → ℕ × List UInt8) (cp : List UInt8) (base : ℕ) :
    ℕ × List UInt8 :=
  if peek cp 0 = 0x2d then
    ((2 ^ w - (strto (cp.drop 1) base).1) % 2 ^ w, (strto (cp.drop 1) base).2)
  else strto cp base

def simple_strtol (cp : List UInt8) (base : ℕ) : ℕ × List UInt8 := negated 32 simple_strtoul cp base

def simple_strtoll (cp : List UInt8) (base : ℕ) : ℕ × List UInt8 :=
  negated 64 simple_strtoull cp base

/-! ## `sys_vsscanf` -/

/-- `qualifier`: `hh`, `h`, none, `l`, `ll` or `L`, and `z` or `Z`. -/
inductive Qualifier
  | hh | h | int | l | ll | z
deriving DecidableEq

/-- The integer conversions, where `x` may be written `X`. -/
inductive Conversion
  | o | x | i | d | u

def Conversion.base : Conversion → ℕ
  | .o => 8
  | .x => 16
  | .i => 0
  | .d | .u => 10

def Conversion.is_sign : Conversion → Bool
  | .i | .d => true
  | .o | .x | .u => false

def Qualifier.width : Qualifier → ℕ
  | .hh => 8
  | .h => 16
  | .int | .l | .z => 32
  | .ll => 64

/-- What a number is once it is stored. A `size_t` has no sign. -/
def Qualifier.store (q : Qualifier) (is_sign : Bool) (v : ℤ) : ℤ :=
  if is_sign = true ∧ q ≠ .z then v.bmod (2 ^ q.width) else v % 2 ^ q.width

/-- An integer conversion: what is stored, and where `str` is then, unless `sys_vsscanf` ends
there. -/
def sys_vsscanf_int (q : Qualifier) (c : Conversion) (str : List UInt8) : Option (ℤ × List UInt8) :=
  let str := str.dropWhile (· = 0x20)
  let digit := if c.is_sign = true ∧ peek str 0 = 0x2d then peek str 1 else peek str 0
  if digit = 0 ∨ c.base = 16 ∧ ¬ IsXDigit digit ∨ c.base = 10 ∧ ¬ IsDigit digit ∨
      c.base = 8 ∧ (¬ IsDigit digit ∨ 0x37 < digit) ∨ c.base = 0 ∧ ¬ IsDigit digit then none
  else
    let r :=
      match q with
      | .ll => if c.is_sign then simple_strtoll str c.base else simple_strtoull str c.base
      | .z => simple_strtoul str c.base
      | .hh | .h | .int | .l =>
        if c.is_sign then simple_strtol str c.base else simple_strtoul str c.base
    some (q.store c.is_sign r.1, r.2)

/-! ## Numbers by their value -/

/-- The value of a digit; a character that is none has one too large for any base. -/
def digitVal (c : UInt8) : ℕ :=
  if 0x30 ≤ c ∧ c ≤ 0x39 then c.toNat - 48
  else if 0x41 ≤ c ∧ c ≤ 0x46 then c.toNat - 55
  else if 0x61 ≤ c ∧ c ≤ 0x66 then c.toNat - 87
  else 16

/-- The base of a number, and its digits with what follows them. A hexadecimal number may have
`0x` in front of its first digit; without a base this makes one, and a zero an octal one. -/
def numberStart (base : ℕ) (s : List UInt8) : ℕ × List UInt8 :=
  if (base = 0 ∨ base = 16) ∧ peek s 0 = 0x30 ∧ (peek s 1 = 0x78 ∨ peek s 1 = 0x58) ∧
      digitVal (peek s 2) < 16 then
    (16, s.drop 2)
  else (if base = 0 then if peek s 0 = 0x30 then 8 else 10 else base, s)

/-- The value of the longest prefix of digits. -/
def numberValue (base : ℕ) (s : List UInt8) : ℕ :=
  let (b, t) := numberStart base s
  Nat.ofDigits b (((t.takeWhile (digitVal · < b)).map digitVal).reverse)

/-- What follows it. -/
def numberRest (base : ℕ) (s : List UInt8) : List UInt8 :=
  let (b, t) := numberStart base s
  t.dropWhile (digitVal · < b)

/-- What an integer conversion stores of a number, which may have a sign unless it is a
`size_t`, and what follows the number. -/
def converted (q : Qualifier) (c : Conversion) (s : List UInt8) : Option (ℤ × List UInt8) :=
  let minus := c.is_sign = true ∧ peek s 0 = 0x2d
  let t := if minus then s.drop 1 else s
  if digitVal (peek t 0) < (if c.base = 0 then 10 else c.base) then
    if minus ∧ q ≠ .z then
      some (q.store c.is_sign (-(numberValue c.base t : ℤ)), numberRest c.base t)
    else some (q.store c.is_sign (numberValue c.base s), numberRest c.base s)
  else none

/-- A string is read by its value in a base, and the conversions with this base store that
value of it, whatever spaces are in front of it, and go on behind it. -/
structure ParsesByValue (base : ℕ) (s : List UInt8) : Prop where
  strtoul : simple_strtoul s base = (numberValue base s % 2 ^ 32, numberRest base s)
  strtoull : simple_strtoull s base = (numberValue base s % 2 ^ 64, numberRest base s)
  conversions : ∀ q c k, c.base = base → peek s 0 ≠ 0x20 →
    sys_vsscanf_int q c (List.replicate k 0x20 ++ s) = converted q c s

/-! ## When they are -/

/-- By how much digits are more than they count for: a decimal digit counts as one. -/
def excess (base : ℕ) (d : List UInt8) : ℤ :=
  d.foldl (fun e c => e * base + if IsDigit c then (digitVal c : ℤ) - 1 else 0) 0

/-- The digits behind the prefix: it makes no difference that each decimal one counts as one,
and octal ones are not followed by an 8 or a 9. With base 16, digits follow a `0x`. -/
def Plain (base : ℕ) (s : List UInt8) : Prop :=
  let b := (strto_start s base).1
  let t := (strto_start s base).2
  (2 ^ 64 : ℤ) ∣ excess b (t.takeWhile (digitVal · < b)) ∧
    (b = 8 → ¬ IsDigit (peek (t.dropWhile (digitVal · < b)) 0)) ∧
    (base = 16 → peek s 0 = 0x30 → toupper (peek s 1) = 0x58 → IsXDigit (peek s 2))

/-- With a conversion that takes a sign, the number behind it as well. -/
def PlainNumber (base : ℕ) (s : List UInt8) : Prop :=
  Plain base s ∧ (base = 0 ∨ base = 10 → peek s 0 = 0x2d → Plain base (s.drop 1))

instance decidablePlain (base : ℕ) (s : List UInt8) : Decidable (Plain base s) :=
  inferInstanceAs (Decidable (_ ∧ (_ → _) ∧ (_ → _ → _ → _)))

/-! ## Digits -/

section Digits

variable {c : UInt8} {b : ℕ} {d t : List UInt8}

theorem strtoull_digit_eq (c : UInt8) : strtoull_digit c = strtoul_digit c := by
  have hupper : (if 0x61 ≤ c ∧ c ≤ 0x7a then toupper c else c) = toupper c := by
    by_cases h : 0x61 ≤ c ∧ c ≤ 0x7a
    · rw [if_pos h]
    · rw [if_neg h, toupper, if_neg h]
  rw [strtoull_digit, strtoul_digit, hupper]

theorem isDigit_toNat : IsDigit c ↔ 48 ≤ c.toNat ∧ c.toNat ≤ 57 :=
  and_congr UInt8.le_iff_toNat_le UInt8.le_iff_toNat_le

theorem upper_toNat : 0x41 ≤ c ∧ c ≤ 0x46 ↔ 65 ≤ c.toNat ∧ c.toNat ≤ 70 :=
  and_congr UInt8.le_iff_toNat_le UInt8.le_iff_toNat_le

theorem lower_toNat : 0x61 ≤ c ∧ c ≤ 0x66 ↔ 97 ≤ c.toNat ∧ c.toNat ≤ 102 :=
  and_congr UInt8.le_iff_toNat_le UInt8.le_iff_toNat_le

theorem isXDigit_toNat : IsXDigit c ↔
    48 ≤ c.toNat ∧ c.toNat ≤ 57 ∨ 97 ≤ c.toNat ∧ c.toNat ≤ 102 ∨ 65 ≤ c.toNat ∧ c.toNat ≤ 70 :=
  or_congr isDigit_toNat (or_congr lower_toNat upper_toNat)

theorem digitVal_eq : digitVal c =
    if 48 ≤ c.toNat ∧ c.toNat ≤ 57 then c.toNat - 48
    else if 65 ≤ c.toNat ∧ c.toNat ≤ 70 then c.toNat - 55
    else if 97 ≤ c.toNat ∧ c.toNat ≤ 102 then c.toNat - 87
    else 16 := by
  simp only [digitVal, isDigit_toNat, upper_toNat, lower_toNat]

theorem toupper_toNat :
    (toupper c).toNat = if 97 ≤ c.toNat ∧ c.toNat ≤ 122 then c.toNat - 32 else c.toNat := by
  have hlower : 0x61 ≤ c ∧ c ≤ 0x7a ↔ 97 ≤ c.toNat ∧ c.toNat ≤ 122 :=
    and_congr UInt8.le_iff_toNat_le UInt8.le_iff_toNat_le
  rw [toupper, apply_ite UInt8.toNat]
  refine if_ctx_congr hlower (fun h => ?_) fun _ => rfl
  have hle : (0x20 : UInt8) ≤ c := UInt8.le_iff_toNat_le.mpr (show 32 ≤ c.toNat by omega)
  exact UInt8.toNat_sub_of_le c 0x20 hle

theorem isDigit_iff : IsDigit c ↔ digitVal c < 10 := by
  rw [isDigit_toNat, digitVal_eq]
  split_ifs <;> omega

theorem isXDigit_iff : IsXDigit c ↔ digitVal c < 16 := by
  rw [isXDigit_toNat, digitVal_eq]
  split_ifs <;> omega

/-- A decimal digit counts as one, and a letter as its value. -/
theorem strtoul_digit_eq (h : IsXDigit c) :
    strtoul_digit c = if IsDigit c then 1 else digitVal c := by
  have hfalse : ¬ FALSE ≠ 0 := not_not.mpr rfl
  rw [strtoul_digit, if_neg hfalse]
  split
  · rfl
  · next hdigit =>
    rw [isXDigit_toNat] at h
    rw [isDigit_toNat] at hdigit
    rw [toupper_toNat, digitVal_eq]
    show _ - 65 + 10 = _
    split_ifs <;> omega

/-- The characters that the loop takes: with a base below ten, all decimal digits. -/
theorem taken_iff (hb : b = 8 ∨ b = 10 ∨ b = 16) :
    IsXDigit c ∧ strtoul_digit c < b ↔ digitVal c < max b 10 := by
  constructor
  · rintro ⟨hx, hlt⟩
    rw [strtoul_digit_eq hx] at hlt
    split_ifs at hlt with hdigit
    · exact (isDigit_iff.mp hdigit).trans_le (le_max_right b 10)
    · exact hlt.trans_le (le_max_left b 10)
  · intro h
    have hx : IsXDigit c := isXDigit_iff.mpr (by omega)
    rw [strtoul_digit_eq hx]
    refine ⟨hx, ?_⟩
    split_ifs with hdigit
    · omega
    · rw [isDigit_iff] at hdigit
      omega

end Digits

/-! ## The loop -/

section Loop

variable {b w : ℕ} {d t : List UInt8} {digit : UInt8 → ℕ}

/-- What digits make of a number, when each counts as `digit` says. -/
def counted (b : ℕ) (digit : UInt8 → ℕ) (d : List UInt8) : ℕ :=
  d.foldl (fun v c => v * b + digit c) 0

theorem foldl_mod (v v' : ℕ) (h : v % 2 ^ w = v') :
    d.foldl (fun v c => (v * b + digit c) % 2 ^ w) v' =
      d.foldl (fun v c => v * b + digit c) v % 2 ^ w := by
  induction d generalizing v v' with
  | nil => exact h.symm
  | cons c d ih =>
    subst h
    exact ih _ _ (((Nat.mod_modEq v (2 ^ w)).symm.mul_right b).add_right (digit c))

theorem strto_loop_eq (r : ℕ) :
    strto_loop w digit b r t =
      ((t.takeWhile (fun c => IsXDigit c ∧ digit c < b)).foldl
          (fun v c => (v * b + digit c) % 2 ^ w) r,
        t.dropWhile (fun c => IsXDigit c ∧ digit c < b)) := by
  induction t generalizing r with
  | nil => rfl
  | cons c t ih =>
    rw [strto_loop]
    split_ifs with hc
    · rw [ih, List.takeWhile_cons_of_pos (by simpa using hc), List.dropWhile_cons_of_pos
        (by simpa using hc), List.foldl_cons]
    · rw [List.takeWhile_cons_of_neg (by simpa using hc), List.dropWhile_cons_of_neg
        (by simpa using hc)]
      rfl

theorem counted_eq_ofDigits : counted b digit d = Nat.ofDigits b ((d.map digit).reverse) := by
  rw [Nat.ofDigits_eq_foldr, List.foldr_reverse, List.foldl_map, counted]
  simp only [Nat.cast_id, mul_comm b, add_comm]

/-- The excess is what is missing. -/
theorem excess_eq (h : ∀ c ∈ d, IsXDigit c) :
    excess b d = (counted b digitVal d : ℤ) - counted b strtoul_digit d := by
  have hfold : ∀ (e : ℤ) (v r : ℕ), e = v - r →
      d.foldl (fun e c => e * b + if IsDigit c then (digitVal c : ℤ) - 1 else 0) e =
        (d.foldl (fun v c => v * b + digitVal c) v : ℕ) -
          (d.foldl (fun v c => v * b + strtoul_digit c) r : ℕ) := by
    induction d with
    | nil => exact fun e v r he => he
    | cons c d ih =>
      intro e v r he
      refine ih (fun x hx => h x (List.mem_cons_of_mem _ hx)) _ _ _ ?_
      beta_reduce
      rw [he, strtoul_digit_eq (h c List.mem_cons_self)]
      split_ifs <;> push_cast <;> ring
  exact hfold 0 0 0 rfl

theorem excess_append (c : UInt8) :
    excess b (d ++ [c]) = excess b d * b + if IsDigit c then (digitVal c : ℤ) - 1 else 0 := by
  rw [excess, List.foldl_append]
  rfl

/-- Numbers that are not too long: only those count right whose decimal digits are all one. -/
theorem excess_eq_zero_iff (hb : 2 ≤ b) (hd : ∀ c ∈ d, digitVal c < b) :
    excess b d = 0 ↔ ∀ c ∈ d, IsDigit c → digitVal c = 1 := by
  induction d using List.reverseRecOn with
  | nil => exact iff_of_true rfl nofun
  | append_singleton d c ih =>
    have hc := hd c (by simp)
    have hlast : ∀ e : ℤ, -1 ≤ e → e + 1 < b →
        (excess b d * b + e = 0 ↔ excess b d = 0 ∧ e = 0) := by
      intro e hlow hhigh
      constructor
      · intro h
        -- the last digit is what the sum leaves modulo the base
        have hdvd : (b : ℤ) ∣ e := ⟨-excess b d, by linarith⟩
        have hzero : e = 0 := by
          rcases lt_trichotomy e 0 with hneg | hzero | hpos
          · have hle := Int.le_of_dvd (by omega) ((Int.dvd_neg).mpr hdvd)
            omega
          · exact hzero
          · have hle := Int.le_of_dvd hpos hdvd
            omega
        rw [hzero, add_zero] at h
        exact ⟨(mul_eq_zero.mp h).resolve_right (by omega), hzero⟩
      · rintro ⟨h, rfl⟩
        rw [h, zero_mul, zero_add]
    rw [excess_append, hlast _ (by split_ifs <;> omega) (by split_ifs <;> omega),
      ih fun x hx => hd x (by simp [hx]), List.forall_mem_append, List.forall_mem_singleton]
    refine and_congr_right fun _ => ?_
    split_ifs with hdigit
    · rw [forall_prop_of_true hdigit]
      omega
    · exact iff_of_true rfl fun h => absurd h hdigit

/-- Both functions, from where the digits are. -/
theorem strto_eq {s : List UInt8} {base : ℕ} (hstart : strto_start s base = (b, t)) :
    strto w digit s base =
      (counted b digit (t.takeWhile (fun c => IsXDigit c ∧ digit c < b)) % 2 ^ w,
        t.dropWhile (fun c => IsXDigit c ∧ digit c < b)) := by
  simp only [strto, hstart, strto_loop_eq]
  rw [foldl_mod 0 0 (Nat.zero_mod _)]
  rfl

end Loop

/-! ## Numbers -/

section Numbers

variable {base b : ℕ} {s t : List UInt8}

/-- A base that is asked for. -/
def IsBase (base : ℕ) : Prop := base = 0 ∨ base = 8 ∨ base = 10 ∨ base = 16

/-- A `0x` without a digit behind it, with base 16. -/
def BareHex (base : ℕ) (s : List UInt8) : Prop :=
  base = 16 ∧ peek s 0 = 0x30 ∧ toupper (peek s 1) = 0x58 ∧ ¬ IsXDigit (peek s 2)

theorem toupper_x {c : UInt8} : toupper c = 0x58 ↔ c = 0x78 ∨ c = 0x58 := by
  have h : ∀ x : UInt8, c = x ↔ c.toNat = x.toNat := fun x => UInt8.toNat_inj.symm
  rw [← UInt8.toNat_inj, toupper_toNat, h, h]
  show _ = 88 ↔ c.toNat = 120 ∨ c.toNat = 88
  split_ifs <;> omega

theorem eq_cons_of_peek {c : UInt8} (hc : c ≠ 0) (h : peek s 0 = c) : s = c :: s.drop 1 := by
  cases s with
  | nil => exact absurd h.symm hc
  | cons x s => exact congrArg (· :: s) h

/-- The head of a number, in the words of the code. -/
theorem numberStart_eq : numberStart base s =
    if (base = 0 ∨ base = 16) ∧ peek s 0 = 0x30 ∧ toupper (peek s 1) = 0x58 ∧
        IsXDigit (peek s 2) then (16, s.drop 2)
    else (if base = 0 then if peek s 0 = 0x30 then 8 else 10 else base, s) := by
  simp only [numberStart, toupper_x, isXDigit_iff]

/-- The digits are where they should be, but for the zero in front of an octal number. -/
theorem number_eq (hbase : IsBase base) (hbare : ¬ BareHex base s)
    (hstart : strto_start s base = (b, t)) :
    numberValue base s = counted b digitVal (t.takeWhile (digitVal · < b)) ∧
      numberRest base s = t.dropWhile (digitVal · < b) := by
  by_cases hoctal : base = 0 ∧ peek s 0 = 0x30 ∧
      ¬ (toupper (peek s 1) = 0x58 ∧ IsXDigit (peek s 2))
  · obtain ⟨rfl, hzero, hhex⟩ := hoctal
    have hnumber : numberStart 0 s = (8, s) := by
      rw [numberStart_eq, if_neg fun h => hhex h.2.2, if_pos rfl, if_pos hzero]
    rw [strto_start, if_pos rfl, if_pos hzero, if_neg hhex] at hstart
    cases hstart
    have hcons := eq_cons_of_peek (by decide) hzero
    simp only [numberValue, numberRest, hnumber, ← counted_eq_ofDigits]
    generalize s.drop 1 = t at hcons
    subst hcons
    exact ⟨rfl, rfl⟩
  · have hsame : numberStart base s = strto_start s base := by
      rw [numberStart_eq, strto_start]
      rcases hbase with rfl | rfl | rfl | rfl
      · by_cases hzero : peek s 0 = 0x30
        · have hhex : toupper (peek s 1) = 0x58 ∧ IsXDigit (peek s 2) :=
            by_contra fun hno => hoctal ⟨rfl, hzero, hno⟩
          rw [if_pos ⟨.inl rfl, hzero, hhex⟩, if_pos rfl, if_pos hzero, if_pos hhex]
        · rw [if_neg fun h => hzero h.2.1, if_pos rfl, if_neg hzero, if_pos rfl, if_neg hzero]
      · simp
      · simp
      · by_cases hprefix : peek s 0 = 0x30 ∧ toupper (peek s 1) = 0x58
        · have hhex : IsXDigit (peek s 2) :=
            by_contra fun hno => hbare ⟨rfl, hprefix.1, hprefix.2, hno⟩
          rw [if_pos ⟨.inr rfl, hprefix.1, hprefix.2, hhex⟩, if_neg (by decide), if_pos rfl,
            if_pos hprefix]
        · rw [if_neg fun h => hprefix ⟨h.2.1, h.2.2.1⟩, if_neg (by decide), if_neg (by decide),
            if_pos rfl, if_neg hprefix]
    simp only [numberValue, numberRest, hsame, hstart, ← counted_eq_ofDigits, and_self]

theorem start_base (hbase : IsBase base) (hstart : strto_start s base = (b, t)) :
    b = 8 ∨ b = 10 ∨ b = 16 := by
  have hfst : (strto_start s base).1 = b := congrArg Prod.fst hstart
  rw [← hfst, strto_start]
  rcases hbase with rfl | rfl | rfl | rfl <;> split_ifs <;> simp_all

/-- What is taken on and on is the same for a weaker condition if that one fails where the
stronger one does. -/
theorem dropWhile_eq_iff {p q : UInt8 → Bool} (hqp : ∀ c, q c = true → p c = true)
    (hzero : p 0 = false) :
    t.dropWhile p = t.dropWhile q ↔ p (peek (t.dropWhile q) 0) = false := by
  induction t with
  | nil => exact iff_of_true rfl hzero
  | cons c t ih =>
    by_cases hq : q c = true
    · rw [List.dropWhile_cons_of_pos hq, List.dropWhile_cons_of_pos (hqp c hq)]
      exact ih
    · rw [List.dropWhile_cons_of_neg hq]
      by_cases hp : p c = true
      · refine iff_of_false (fun h => ?_) fun h => absurd (hp.symm.trans h) (by decide)
        rw [List.dropWhile_cons_of_pos hp] at h
        have hlen := (List.dropWhile_suffix p (l := t)).length_le
        rw [h] at hlen
        exact absurd hlen (by simp)
      · rw [List.dropWhile_cons_of_neg hp]
        exact iff_of_true rfl (Bool.not_eq_true _ ▸ hp)

theorem takeWhile_eq_of_dropWhile {p q : UInt8 → Bool} (h : t.dropWhile p = t.dropWhile q) :
    t.takeWhile p = t.takeWhile q := by
  have hp := List.takeWhile_append_dropWhile (p := p) (l := t)
  have hq := List.takeWhile_append_dropWhile (p := q) (l := t)
  rw [← h] at hq
  exact List.append_cancel_right (hp.trans hq.symm)

/-- The characters that the loop takes are digits, and the next one is none, unless it is an
8 or a 9 behind octal digits. -/
theorem taken_eq (hb : b = 8 ∨ b = 10 ∨ b = 16) :
    t.dropWhile (fun c => IsXDigit c ∧ strtoul_digit c < b) = t.dropWhile (digitVal · < b) ↔
      (b = 8 → ¬ IsDigit (peek (t.dropWhile (digitVal · < b)) 0)) := by
  have htaken : ∀ c, (IsXDigit c ∧ strtoul_digit c < b ↔ digitVal c < max b 10) :=
    fun c => taken_iff hb
  have hweak : ∀ c, decide (digitVal c < b) = true →
      decide (IsXDigit c ∧ strtoul_digit c < b) = true := by
    intro c hc
    exact decide_eq_true ((htaken c).mpr ((of_decide_eq_true hc).trans_le (le_max_left b 10)))
  have hzero : decide (IsXDigit 0 ∧ strtoul_digit 0 < b) = false :=
    decide_eq_false fun h => absurd h.1 (by decide)
  rw [dropWhile_eq_iff hweak hzero, decide_eq_false_iff_not, htaken]
  rcases hb with rfl | hb
  · rw [show max 8 10 = 10 from rfl, ← isDigit_iff, forall_prop_of_true rfl]
  · -- with these bases the condition is the one of a digit
    refine iff_of_true ?_ fun h => by omega
    rw [show max b 10 = b by omega]
    generalize hu : t.dropWhile (digitVal · < b) = u
    cases u with
    | nil => rcases hb with rfl | rfl <;> decide
    | cons c u =>
      have hnot := List.head?_dropWhile_not (digitVal · < b) t
      rw [hu] at hnot
      simpa [peek] using hnot

/-- Nothing is left behind a `0x` that is no prefix. -/
theorem rest_ne_of_bare (hbare : BareHex base s) (hstart : strto_start s base = (b, t)) :
    t.dropWhile (fun c => IsXDigit c ∧ strtoul_digit c < b) ≠ numberRest base s := by
  obtain ⟨rfl, hzero, hx, hhex⟩ := hbare
  rw [strto_start, if_neg (by decide), if_pos rfl, if_pos ⟨hzero, hx⟩] at hstart
  cases hstart
  have hnumber : numberStart 16 s = (16, s) := by
    rw [numberStart_eq, if_neg fun h => hhex h.2.2.2, if_neg (by decide)]
  have hcons := eq_cons_of_peek (by decide) hzero
  -- C takes the `0` alone, and leaves the `x` and what follows it
  have hlong : (numberRest 16 s).length = (s.drop 1).length := by
    have hnone : ¬ digitVal (peek s 1) < 16 := by
      rw [← isXDigit_iff]
      rcases toupper_x.mp hx with h | h <;> rw [h] <;> decide
    have hpeek : peek (s.drop 1) 0 = peek s 1 := by simp [peek]
    simp only [numberRest, hnumber]
    generalize s.drop 1 = u at *
    rw [hcons]
    show (u.dropWhile (digitVal · < 16)).length = u.length
    cases u with
    | nil => rfl
    | cons c u =>
      rw [List.dropWhile_cons_of_neg]
      rw [← hpeek] at hnone
      simpa [peek] using hnone
  intro h
  have hle := (List.dropWhile_suffix (fun c => decide (IsXDigit c ∧ strtoul_digit c < 16))
    (l := s.drop 2)).length_le
  have hpos : 2 ≤ s.length := by
    by_contra hshort
    have hnone : peek s 1 = 0 := by
      rw [peek, List.getD_eq_default _ _ (by omega)]
    rw [hnone] at hx
    exact absurd hx (by decide)
  rw [h, hlong, List.length_drop, List.length_drop] at hle
  omega

/-- **When a number is read by its value**, with a word of `w` bits. -/
theorem strto_right_iff {w : ℕ} (hbase : IsBase base) (hstart : strto_start s base = (b, t)) :
    strto w strtoul_digit s base = (numberValue base s % 2 ^ w, numberRest base s) ↔
      (2 ^ w : ℤ) ∣ excess b (t.takeWhile (digitVal · < b)) ∧
        (b = 8 → ¬ IsDigit (peek (t.dropWhile (digitVal · < b)) 0)) ∧ ¬ BareHex base s := by
  have hb := start_base hbase hstart
  rw [strto_eq hstart, Prod.mk.injEq]
  by_cases hbare : BareHex base s
  · exact iff_of_false (fun h => rest_ne_of_bare hbare hstart h.2) fun h => h.2.2 hbare
  · obtain ⟨hvalue, hrest⟩ := number_eq hbase hbare hstart
    rw [and_iff_left hbare, hvalue, hrest, ← taken_eq hb]
    refine and_congr_left fun hsame => ?_
    have hdigits : ∀ c ∈ t.takeWhile (digitVal · < b), IsXDigit c := by
      intro c hc
      have hin := List.mem_takeWhile_imp hc
      have hlt : digitVal c < b := of_decide_eq_true hin
      rw [isXDigit_iff]
      omega
    rw [takeWhile_eq_of_dropWhile hsame, excess_eq hdigits]
    exact Nat.modEq_iff_dvd.trans (by push_cast; exact Iff.rfl)

end Numbers

/-! ## The conversions -/

section Conversions

variable {base : ℕ} {s : List UInt8} {q : Qualifier} {c : Conversion}

theorem plain_iff (hbase : IsBase base) :
    Plain base s ↔ simple_strtoull s base = (numberValue base s % 2 ^ 64, numberRest base s) := by
  obtain ⟨⟨b, t⟩, hstart⟩ : ∃ r, strto_start s base = r := ⟨_, rfl⟩
  have hdigit : strtoull_digit = strtoul_digit := funext strtoull_digit_eq
  have hbare : ¬ BareHex base s ↔
      (base = 16 → peek s 0 = 0x30 → toupper (peek s 1) = 0x58 → IsXDigit (peek s 2)) := by
    simp only [BareHex, not_and, not_not]
  rw [simple_strtoull, hdigit, strto_right_iff hbase hstart, Plain, hstart, hbare]

theorem strtoul_of_plain (hbase : IsBase base) (h : Plain base s) :
    simple_strtoul s base = (numberValue base s % 2 ^ 32, numberRest base s) := by
  obtain ⟨⟨b, t⟩, hstart⟩ : ∃ r, strto_start s base = r := ⟨_, rfl⟩
  have hdigit : strtoull_digit = strtoul_digit := funext strtoull_digit_eq
  have hull := (plain_iff hbase).mp h
  rw [simple_strtoull, hdigit, strto_right_iff hbase hstart] at hull
  obtain ⟨hdvd, hrest⟩ := hull
  rw [simple_strtoul, strto_right_iff hbase hstart]
  exact ⟨(pow_dvd_pow 2 (by decide)).trans hdvd, hrest⟩

/-- What the conversion refuses. -/
theorem refused_iff {digit : UInt8} :
    (digit = 0 ∨ c.base = 16 ∧ ¬ IsXDigit digit ∨ c.base = 10 ∧ ¬ IsDigit digit ∨
      c.base = 8 ∧ (¬ IsDigit digit ∨ 0x37 < digit) ∨ c.base = 0 ∧ ¬ IsDigit digit) ↔
      ¬ digitVal digit < if c.base = 0 then 10 else c.base := by
  have hzero : digit = 0 ↔ digit.toNat = 0 := UInt8.toNat_inj.symm
  have hseven : 0x37 < digit ↔ 55 < digit.toNat := UInt8.lt_iff_toNat_lt
  rw [hzero, hseven, isXDigit_toNat, isDigit_toNat, digitVal_eq]
  cases c with
  | o =>
    simp only [Conversion.base, show ¬ (8 = 16) by decide, show ¬ (8 = 10) by decide,
      show ¬ (8 = 0) by decide, false_and, false_or, or_false, true_and, if_false]
    split_ifs <;> omega
  | x =>
    simp only [Conversion.base, show ¬ (16 = 8) by decide, show ¬ (16 = 10) by decide,
      show ¬ (16 = 0) by decide, false_and, or_false, true_and, if_false]
    split_ifs <;> omega
  | i =>
    simp only [Conversion.base, show ¬ (0 = 16) by decide, show ¬ (0 = 10) by decide,
      show ¬ (0 = 8) by decide, false_and, false_or, true_and, if_true]
    split_ifs <;> omega
  | d | u =>
    simp only [Conversion.base, show ¬ (10 = 16) by decide, show ¬ (10 = 8) by decide,
      show ¬ (10 = 0) by decide, false_and, false_or, or_false, true_and, if_false]
    split_ifs <;> omega

/-- Words that agree in the bits of the type are stored as one number. -/
theorem store_congr {is_sign : Bool} {v v' : ℤ} (h : v ≡ v' [ZMOD 2 ^ q.width]) :
    q.store is_sign v = q.store is_sign v' := by
  rw [Qualifier.store, Qualifier.store]
  split
  · have hmod : v % ((2 ^ q.width : ℕ) : ℤ) = v' % ((2 ^ q.width : ℕ) : ℤ) := by
      push_cast
      exact h
    rw [Int.bmod_def, Int.bmod_def, hmod]
  · exact h

/-- A word with more bits than the type. -/
theorem store_mod {is_sign : Bool} {w v : ℕ} (hw : q.width ≤ w) :
    q.store is_sign ((v % 2 ^ w : ℕ) : ℤ) = q.store is_sign v := by
  apply store_congr
  push_cast
  exact Int.emod_emod_of_dvd _ (pow_dvd_pow 2 hw)

/-- One whose sign was changed. -/
theorem store_neg {is_sign : Bool} {w v : ℕ} (hw : q.width ≤ w) :
    q.store is_sign (((2 ^ w - v % 2 ^ w) % 2 ^ w : ℕ) : ℤ) = q.store is_sign (-(v : ℤ)) := by
  rw [store_mod hw]
  apply store_congr
  have hle : v % 2 ^ w ≤ 2 ^ w := (Nat.mod_lt v (Nat.two_pow_pos w)).le
  have hdvd : (2 ^ q.width : ℤ) ∣ 2 ^ w := pow_dvd_pow 2 hw
  rw [Int.modEq_iff_dvd]
  push_cast [Nat.cast_sub hle]
  have hmod : (2 ^ w : ℤ) ∣ v - v % 2 ^ w := Int.dvd_self_sub_emod
  have hsum : -(v : ℤ) - (2 ^ w - v % 2 ^ w) = -((v - v % 2 ^ w) + 2 ^ w) := by ring
  rw [hsum]
  exact (Int.dvd_neg).mpr (dvd_add (hdvd.trans hmod) hdvd)

theorem skip_spaces (k : ℕ) (hs : peek s 0 ≠ 0x20) :
    (List.replicate k 0x20 ++ s).dropWhile (· = 0x20) = s := by
  induction k with
  | zero =>
    cases s with
    | nil => rfl
    | cons x s =>
      rw [List.replicate_zero, List.nil_append, List.dropWhile_cons_of_neg]
      simpa [peek] using hs
  | succ k ih => exact ih

/-- The minus sign of a conversion that takes one. -/
abbrev Minus (c : Conversion) (s : List UInt8) : Prop := c.is_sign = true ∧ peek s 0 = 0x2d

/-- The number without the sign. -/
def magnitude (c : Conversion) (s : List UInt8) : List UInt8 := if Minus c s then s.drop 1 else s

/-- The word that the conversion stores, and what follows. -/
def word (q : Qualifier) (c : Conversion) (s : List UInt8) : ℕ × List UInt8 :=
  match q with
  | .ll => if c.is_sign then simple_strtoll s c.base else simple_strtoull s c.base
  | .z => simple_strtoul s c.base
  | .hh | .h | .int | .l => if c.is_sign then simple_strtol s c.base else simple_strtoul s c.base

theorem vsscanf_int_eq (k : ℕ) (hs : peek s 0 ≠ 0x20) :
    sys_vsscanf_int q c (List.replicate k 0x20 ++ s) =
      if digitVal (peek (magnitude c s) 0) < if c.base = 0 then 10 else c.base then
        some (q.store c.is_sign (word q c s).1, (word q c s).2)
      else none := by
  have hdigit : peek (magnitude c s) 0 = if Minus c s then peek s 1 else peek s 0 := by
    rw [magnitude]
    split
    · simp [peek]
    · rfl
  simp only [sys_vsscanf_int, skip_spaces k hs, refused_iff, hdigit, ite_not]
  rfl

theorem converted_eq : converted q c s =
    if digitVal (peek (magnitude c s) 0) < if c.base = 0 then 10 else c.base then
      if Minus c s ∧ q ≠ .z then
        some (q.store c.is_sign (-(numberValue c.base (magnitude c s) : ℤ)),
          numberRest c.base (magnitude c s))
      else some (q.store c.is_sign (numberValue c.base s), numberRest c.base s)
    else none := rfl

theorem negated_minus {w base v : ℕ} {rest : List UInt8} {strto : List UInt8 → ℕ → ℕ × List UInt8}
    (hs : peek s 0 = 0x2d) (h : strto (s.drop 1) base = (v % 2 ^ w, rest)) :
    negated w strto s base = ((2 ^ w - v % 2 ^ w) % 2 ^ w, rest) := by
  rw [negated, if_pos hs, h]

theorem negated_plus {w base : ℕ} {strto : List UInt8 → ℕ → ℕ × List UInt8}
    (hs : peek s 0 ≠ 0x2d) : negated w strto s base = strto s base := if_neg hs

/-- Without a sign, or where none is taken, the number is read as it stands. -/
theorem word_plus (hbase : IsBase c.base) (h : Plain c.base s) (hm : ¬ (Minus c s ∧ q ≠ .z)) :
    ∃ w, q.width ≤ w ∧ word q c s = (numberValue c.base s % 2 ^ w, numberRest c.base s) := by
  have hul := strtoul_of_plain hbase h
  have hull := (plain_iff hbase).mp h
  have hplus : q ≠ .z → c.is_sign = true → peek s 0 ≠ 0x2d :=
    fun hq hsign hminus => hm ⟨⟨hsign, hminus⟩, hq⟩
  match q with
  | .z => exact ⟨32, le_rfl, hul⟩
  | .ll =>
    refine ⟨64, le_rfl, ?_⟩
    rw [word]
    split
    · next hsign => exact (negated_plus (hplus nofun hsign)).trans hull
    · exact hull
  | .hh | .h | .int | .l =>
    refine ⟨32, by decide, ?_⟩
    rw [word]
    split
    · next hsign => exact (negated_plus (hplus nofun hsign)).trans hul
    · exact hul

/-- Behind a minus sign it is read and negated. -/
theorem word_minus (hbase : IsBase c.base) (h : Plain c.base (s.drop 1)) (hm : Minus c s)
    (hq : q ≠ .z) :
    ∃ w, q.width ≤ w ∧ word q c s =
      ((2 ^ w - numberValue c.base (s.drop 1) % 2 ^ w) % 2 ^ w, numberRest c.base (s.drop 1)) := by
  match q with
  | .z => exact absurd rfl hq
  | .ll =>
    refine ⟨64, le_rfl, ?_⟩
    rw [word, if_pos hm.1]
    exact negated_minus hm.2 ((plain_iff hbase).mp h)
  | .hh | .h | .int | .l =>
    refine ⟨32, by decide, ?_⟩
    rw [word, if_pos hm.1]
    exact negated_minus hm.2 (strtoul_of_plain hbase h)

/-- A sign is taken with base 10 or without a base. -/
theorem base_of_sign (h : c.is_sign = true) : c.base = 0 ∨ c.base = 10 := by
  cases c with
  | i => exact .inl rfl
  | d => exact .inr rfl
  | o | x | u => cases h

/-- A conversion stores the value of a number that is read by its value. -/
theorem conversion_right (hbase : IsBase c.base) (h : PlainNumber c.base s) :
    some (q.store c.is_sign (word q c s).1, (word q c s).2) =
      if Minus c s ∧ q ≠ .z then
        some (q.store c.is_sign (-(numberValue c.base (magnitude c s) : ℤ)),
          numberRest c.base (magnitude c s))
      else some (q.store c.is_sign (numberValue c.base s), numberRest c.base s) := by
  split
  · next hm =>
    have hplain := h.2 (base_of_sign hm.1.1) hm.1.2
    obtain ⟨w, hw, hword⟩ := word_minus hbase hplain hm.1 hm.2
    rw [hword, store_neg hw, magnitude, if_pos hm.1]
  · next hm =>
    obtain ⟨w, hw, hword⟩ := word_plus hbase h.1 hm
    rw [hword, store_mod hw]

/-- A string in front of which no digit stands is read by its value, with base 10 or none. -/
theorem plain_of_no_digit (hbase : base = 0 ∨ base = 10) (h : ¬ digitVal (peek s 0) < 10) :
    Plain base s := by
  have hstart : strto_start s base = (10, s) := by
    have hzero : peek s 0 ≠ 0x30 := by
      intro hzero
      rw [hzero] at h
      exact h (by decide)
    rcases hbase with rfl | rfl
    · rw [strto_start, if_pos rfl, if_neg hzero]
    · rw [strto_start, if_neg (by decide), if_neg (by decide)]
  have hnone : s.takeWhile (digitVal · < 10) = [] := by
    cases s with
    | nil => rfl
    | cons x s => exact List.takeWhile_cons_of_neg (by simpa [peek] using h)
  rw [Plain, hstart]
  refine ⟨?_, fun h => absurd (show 10 = 8 from h) (by decide), fun h => ?_⟩
  · show (2 ^ 64 : ℤ) ∣ excess 10 (s.takeWhile (digitVal · < 10))
    rw [hnone]
    exact dvd_zero _
  · omega

/-- Signed numbers that are equal come from one word. -/
theorem word_of_store {r v : ℕ} (hr : r < 2 ^ 64)
    (h : Qualifier.ll.store true (((2 ^ 64 - r) % 2 ^ 64 : ℕ) : ℤ) =
      Qualifier.ll.store true (-(v : ℤ))) : r = v % 2 ^ 64 := by
  rw [Qualifier.store, Qualifier.store, if_pos ⟨rfl, nofun⟩, if_pos ⟨rfl, nofun⟩,
    Qualifier.width] at h
  have hmod := congrArg (· % ((2 ^ 64 : ℕ) : ℤ)) h
  simp only [Int.bmod_emod] at hmod
  omega

/-- What `%lld` or `%lli` stores behind a minus sign is the number only if it is read by its
value. -/
theorem plain_of_conversion (hsign : c.is_sign = true) (hs : peek s 0 = 0x2d)
    (h : sys_vsscanf_int .ll c s = converted .ll c s) : Plain c.base (s.drop 1) := by
  have hm : Minus c s := ⟨hsign, hs⟩
  have hbase := base_of_sign hsign
  have hten : (if c.base = 0 then 10 else c.base) = 10 := by
    rcases hbase with hb | hb <;> rw [hb] <;> rfl
  have hscan := vsscanf_int_eq (q := .ll) (c := c) 0 (hs.trans_ne (by decide))
  rw [List.replicate_zero, List.nil_append] at hscan
  rw [hscan, converted_eq, magnitude, if_pos hm, hten] at h
  by_cases hdigit : digitVal (peek (s.drop 1) 0) < 10
  · rw [if_pos hdigit, if_pos hdigit, if_pos ⟨hm, nofun⟩] at h
    obtain ⟨⟨b, t⟩, hstart⟩ : ∃ r, strto_start (s.drop 1) c.base = r := ⟨_, rfl⟩
    have hull : simple_strtoull (s.drop 1) c.base = _ := strto_eq hstart
    have hword : word .ll c s = _ := (if_pos hsign).trans (negated_minus hs hull)
    rw [hword] at h
    obtain ⟨hstore, hrest⟩ := Prod.mk.inj (Option.some.inj h)
    rw [hsign] at hstore
    rw [plain_iff (hbase.elim .inl fun hb => .inr (.inr (.inl hb))), hull]
    exact Prod.ext (word_of_store (Nat.mod_lt _ (Nat.two_pow_pos 64)) hstore) hrest
  · exact plain_of_no_digit hbase hdigit

end Conversions

/-! ## Every string -/

/-- **When strings are parsed by value**: in a base that is 8, 10 or 16 or 0. -/
theorem parses_by_value_iff (s : List UInt8) {base : ℕ} (hbase : IsBase base) :
    ParsesByValue base s ↔ PlainNumber base s := by
  constructor
  · intro h
    refine ⟨(plain_iff hbase).mpr h.strtoull, fun hten hs => ?_⟩
    have hspace : peek s 0 ≠ 0x20 := hs.trans_ne (by decide)
    rcases hten with rfl | rfl
    · exact plain_of_conversion (c := .i) rfl hs (h.conversions .ll .i 0 rfl hspace)
    · exact plain_of_conversion (c := .d) rfl hs (h.conversions .ll .d 0 rfl hspace)
  · intro h
    refine ⟨strtoul_of_plain hbase h.1, (plain_iff hbase).mp h.1, ?_⟩
    rintro q c k rfl hspace
    rw [vsscanf_int_eq k hspace, converted_eq, conversion_right hbase h]

/-- A hexadecimal number of letters, with a decimal digit that is one. -/
theorem parses_by_value_hex :
    ParsesByValue 16 [0x30, 0x78, 0x42, 0x31, 0x66] :=
  (parses_by_value_iff _ (.inr (.inr (.inr rfl)))).mpr ⟨by decide, by decide⟩

/-- `2` is read as one. -/
theorem two_read_as_one : ¬ ParsesByValue 10 [0x32] :=
  fun h => absurd h.strtoul (by decide)

end CsBoot.Strto
