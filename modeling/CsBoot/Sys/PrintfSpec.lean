/-
What `sys_sprintf` leaves for a format that C knows.

The conversions that stand behind a `%` are taken apart as they were written
(`parse_conv_spec`), and a pass of the loop of `sys_vprintf` hands the text of one item to
`printf_putc` (`Item.put`), which depends on what `length` was left at by the items in front
of it. The text of all items comes to the buffer with a zero behind it, if it is not empty
and there is no backspace in it (`putc_spec`).
-/
import CsBoot.Lib.CFormat
import CsBoot.Sys.Printf

set_option autoImplicit false

namespace CsBoot.Printf

open CString CFormat

/-! ## `printf_putc` and `sys_strlen` -/

section Putc

variable {mem : ℤ → UInt8} {p : ℤ} {t : List UInt8}

theorem printf_putc_char {c : UInt8} (hc : c ≠ BACKSPACE) (mem : ℤ → UInt8) (p : ℤ) :
    printf_putc ⟨mem, p⟩ c =
      ⟨Function.update (Function.update mem p c) (p + 1) 0, p + 1⟩ := by
  rw [printf_putc, if_neg hc]

/-- **Characters go behind each other**, the zero behind the last, and nothing else is
written. -/
theorem putc_spec (ht : BACKSPACE ∉ t) (mem : ℤ → UInt8) (p : ℤ) :
    (t.foldl printf_putc ⟨mem, p⟩).sprint_bufp = p + t.length ∧
      (∀ i : ℕ, i < t.length → (t.foldl printf_putc ⟨mem, p⟩).mem (p + i) = t.getD i 0) ∧
      (t ≠ [] → (t.foldl printf_putc ⟨mem, p⟩).mem (p + t.length) = 0) ∧
      ∀ x, x < p ∨ p + t.length < x ∨ t = [] → (t.foldl printf_putc ⟨mem, p⟩).mem x = mem x := by
  induction t generalizing mem p with
  | nil => simp
  | cons c t ih =>
    rw [List.mem_cons, not_or] at ht
    -- the zero behind each character is written over by the next one
    obtain ⟨hend, hchars, hzero, hframe⟩ :=
      ih ht.2 (Function.update (Function.update mem p c) (p + 1) 0) (p + 1)
    rw [List.foldl_cons, printf_putc_char (Ne.symm ht.1)]
    refine ⟨?_, ?_, ?_, ?_⟩
    · rw [hend, List.length_cons]
      push_cast
      ring
    · intro i hi
      cases i with
      | zero =>
        rw [hframe (p + (0 : ℕ)) (.inl (by simp)), Nat.cast_zero, add_zero,
          Function.update_of_ne (by omega), Function.update_self]
        rfl
      | succ i =>
        have hchar := hchars i (by simpa using hi)
        rw [show p + 1 + (i : ℤ) = p + ((i + 1 : ℕ) : ℤ) by push_cast; ring] at hchar
        exact hchar
    · intro _
      rw [List.length_cons, show p + ((t.length + 1 : ℕ) : ℤ) = p + 1 + t.length by push_cast; ring]
      by_cases h : t = []
      · rw [hframe _ (.inr (.inr h)), h, List.length_nil, Nat.cast_zero, add_zero,
          Function.update_self]
      · exact hzero h
    · rintro x (hx | hx | hx)
      · rw [hframe x (.inl (by omega)), Function.update_of_ne (by omega),
          Function.update_of_ne (by omega)]
      · rw [List.length_cons] at hx
        push_cast at hx
        rw [hframe x (.inr (.inl (by omega))), Function.update_of_ne (by omega),
          Function.update_of_ne (by omega)]
      · cases hx

/-- No backspace is ever stored. -/
theorem putc_mem_ne (hmem : ∀ x, mem x ≠ BACKSPACE) (t : List UInt8) (p x : ℤ) :
    (t.foldl printf_putc ⟨mem, p⟩).mem x ≠ BACKSPACE := by
  induction t generalizing mem p with
  | nil => exact hmem x
  | cons c t ih =>
    rw [List.foldl_cons]
    apply ih
    intro y
    have hzero : (0 : UInt8) ≠ BACKSPACE := by decide
    by_cases hc : c = BACKSPACE
    · simp only [if_pos hc, Function.update_apply]
      split_ifs
      · exact hzero
      · exact hmem y
    · simp only [if_neg hc, Function.update_apply]
      split_ifs
      · exact hzero
      · exact hc
      · exact hmem y

theorem sys_strlen_of {n : ℕ} (hchars : ∀ i : ℕ, i < n → mem i ≠ 0) (hzero : mem n = 0)
    {fuel i : ℕ} (hi : i ≤ n) (hfuel : n < i + fuel) : sys_strlen mem fuel i = some n := by
  induction fuel generalizing i with
  | zero => omega
  | succ fuel ih =>
    rw [sys_strlen]
    obtain rfl | hlt := hi.eq_or_lt
    · exact if_pos hzero
    · rw [if_neg (hchars i hlt)]
      exact ih hlt (by omega)

theorem sys_strlen_some {fuel i n : ℕ} (h : sys_strlen mem fuel i = some n) :
    mem n = 0 ∧ ∀ j : ℕ, i ≤ j → j < n → mem j ≠ 0 := by
  induction fuel generalizing i with
  | zero => cases h
  | succ fuel ih =>
    rw [sys_strlen] at h
    split_ifs at h with hz
    · cases h
      exact ⟨hz, fun j hj hlt => absurd hlt (by omega)⟩
    · obtain ⟨hzero, hchars⟩ := ih h
      refine ⟨hzero, fun j hj hlt => ?_⟩
      obtain rfl | hj := hj.eq_or_lt
      · exact hz
      · exact hchars j hj hlt

end Putc

/-! ## `parse_conv` -/

section Parse

theorem skip_self (c : UInt8) (s : List UInt8) : skip c (c :: s) = s := if_pos rfl

theorem skip_other {c : UInt8} {s : List UInt8} (h : s.headD 0 ≠ c) : skip c s = s := if_neg h

/-- A flag that is looked for, and does not stand behind. -/
theorem skip_flag {c : UInt8} {s : List UInt8} (h : s.headD 0 ≠ c) (b : Bool) :
    skip c (flag c b ++ s) = s ∧ decide ((flag c b ++ s).headD 0 = c) = b := by
  cases b with
  | false => exact ⟨skip_other h, decide_eq_false h⟩
  | true => exact ⟨skip_self c s, decide_eq_true rfl⟩

theorem take_num_other {s : List UInt8} (h : ¬ IsDigit (s.headD 0)) (v : ℕ) :
    take_num v s = (v, s) := by
  cases s with
  | nil => rfl
  | cons c s => exact if_neg h

theorem isDigit_digit {d : ℕ} (hd : d < 10) :
    IsDigit (digit false d) ∧ (digit false d - ch '0').toNat = d := by
  have hnat : (digit false d).toNat = 48 + d := by rw [digit_toNat (by omega), if_pos hd]
  have hlo : ch '0' ≤ digit false d := by
    rw [UInt8.le_iff_toNat_le, hnat]
    exact Nat.le_add_right 48 d
  refine ⟨⟨hlo, ?_⟩, ?_⟩
  · rw [UInt8.le_iff_toNat_le, hnat]
    exact Nat.add_le_add_left (Nat.le_of_lt_succ hd) 48
  · rw [UInt8.toNat_sub_of_le _ _ hlo, hnat]
    exact Nat.add_sub_cancel_left 48 d

theorem take_num_digits {l : List ℕ} (hl : ∀ d ∈ l, d < 10) {s : List UInt8}
    (hs : ¬ IsDigit (s.headD 0)) (v : ℕ) :
    take_num v (l.map (digit false) ++ s) = (l.foldl (fun v d => 10 * v + d) v, s) := by
  induction l generalizing v with
  | nil => exact take_num_other hs v
  | cons d l ih =>
    obtain ⟨hdig, hval⟩ := isDigit_digit (hl d List.mem_cons_self)
    rw [List.map_cons, List.cons_append, take_num, if_pos hdig, hval, Nat.mul_comm]
    exact ih (fun d hd => hl d (List.mem_cons_of_mem _ hd)) _

/-- A width is read. -/
theorem take_num_width {s : List UInt8} (hs : ¬ IsDigit (s.headD 0)) (w : ℕ) :
    take_num 0 (digitsOf 10 false w ++ s) = (w, s) := by
  have hdigits : ∀ d ∈ (Nat.digits 10 w).reverse, d < 10 := fun d hd =>
    Nat.digits_lt_base (by norm_num) (List.mem_reverse.mp hd)
  rw [digitsOf, take_num_digits hdigits hs, foldl_digits_reverse]

/-- A letter that begins none of the parts in front of it. -/
structure Letter (c : UInt8) : Prop where
  minus : c ≠ ch '-'
  digit : ¬ IsDigit c
  dot : c ≠ ch '.'
  ell : c ≠ ch 'l'

/-- What a modifier and a letter begin with. -/
theorem head_modifier (a : IntArg) (c : UInt8) (fmt : List UInt8) :
    (a.modifier ++ c :: fmt).headD 0 = c ∨ (a.modifier ++ c :: fmt).headD 0 = ch 'l' := by
  cases a
  · exact .inl rfl
  · exact .inr rfl
  · exact .inr rfl

theorem Letter.ne_zero_digit {c : UInt8} (hc : Letter c) : c ≠ ch '0' := by
  rintro rfl
  exact hc.digit (by decide)

/-- What is in front of the letter, from the width on. -/
theorem head_width {c : UInt8} (hc : Letter c) (w : ℕ) (a : IntArg) (fmt : List UInt8) :
    (digitsOf 10 false w ++ (a.modifier ++ c :: fmt)).headD 0 ≠ ch '-' ∧
      (digitsOf 10 false w ++ (a.modifier ++ c :: fmt)).headD 0 ≠ ch '0' := by
  obtain ⟨-, heq⟩ | ⟨d, s', heq, hlo, hhi⟩ := head_digitsOf (by norm_num : 1 < 10) le_rfl false w
    (a.modifier ++ c :: fmt)
  · rw [heq]
    obtain hhead | hhead := head_modifier a c fmt
    · rw [hhead]
      exact ⟨hc.minus, hc.ne_zero_digit⟩
    · rw [hhead]
      decide
  · rw [heq]
    constructor
    · rintro (rfl : d = ch '-')
      exact absurd hlo (by decide)
    · rintro (rfl : d = ch '0')
      exact absurd hlo (by decide)

/-- **A conversion is taken apart** as it was written. -/
theorem parse_conv_spec {c : UInt8} (hc : Letter c) (left zero : Bool) (w : ℕ) (a : IntArg)
    (fmt : List UInt8) :
    parse_conv (flag (ch '-') left ++ (flag (ch '0') zero ++
        (digitsOf 10 false w ++ (a.modifier ++ c :: fmt)))) =
      { left_prec := w
        pad_on_right := left
        zero_fill := zero
        islong := decide (a.modifier ≠ [])
        islonglong := decide (a.modifier.length = 2)
        c
        fmt } := by
  have hdig : ¬ IsDigit ((a.modifier ++ c :: fmt).headD 0) := by
    obtain h | h := head_modifier a c fmt
    · rw [h]
      exact hc.digit
    · rw [h]
      decide
  have hprec : decide ((a.modifier ++ c :: fmt).headD 0 = ch '.') = false := by
    obtain h | h := head_modifier a c fmt
    · rw [h]
      exact decide_eq_false hc.dot
    · rw [h]
      decide
  obtain ⟨hminus, hzero⟩ := head_width hc w a fmt
  obtain ⟨hskip0, hflag0⟩ := skip_flag hzero zero
  have hminus' : (flag (ch '0') zero ++ (digitsOf 10 false w ++ (a.modifier ++ c :: fmt))).headD 0 ≠
      ch '-' := by
    cases zero with
    | false => exact hminus
    | true => exact (by decide : ch '0' ≠ ch '-')
  obtain ⟨hskip, hflag⟩ := skip_flag hminus' left
  simp only [parse_conv, hskip, hflag, hskip0, hflag0, take_num_width hdig, hprec, Bool.or_false,
    Bool.false_eq_true, if_false]
  -- the modifier
  have hskipl : skip (ch 'l') (c :: fmt) = c :: fmt := skip_other hc.ell
  have hell : (c = ch 'l') = False := eq_false hc.ell
  cases a with
  | int v =>
    simp only [IntArg.modifier, List.nil_append, List.headD_cons, hskipl, hell, decide_false,
      Bool.false_and]
    rfl
  | long v =>
    simp only [IntArg.modifier, List.cons_append, List.nil_append, List.headD_cons, skip_self, hell,
      decide_false, Bool.and_false]
    rfl
  | longlong v =>
    simp only [IntArg.modifier, List.cons_append, List.nil_append, List.headD_cons, skip_self]
    rfl

end Parse

/-! ## Numbers -/

section Numbers

variable {radix val n : ℕ} {upper : Bool}

/-- The table of digits for a base. -/
def table (upper : Bool) : List UInt8 := if upper then upper_digits else lower_digits

theorem table_getD (upper : Bool) {d : ℕ} (hd : d < 16) :
    (table upper).getD d 0 = digit upper d := by
  interval_cases d <;> cases upper <;> rfl

theorem cvt_loop_spec (hr : 1 < radix) (hr' : radix ≤ 16) (h : val < radix ^ n) :
    cvt_loop radix (table upper) n val = (Nat.digits radix val).map (digit upper) := by
  induction n generalizing val with
  | zero =>
    have hval : val = 0 := by simpa using h
    rw [hval, Nat.digits_zero]
    rfl
  | succ n ih =>
    by_cases hval : val = 0
    · rw [hval, Nat.digits_zero]
      rfl
    · have hlt : val % radix < 16 := (Nat.mod_lt val (by omega)).trans_le hr'
      have hmask : val % radix &&& 0xf = val % radix := by
        rw [show (0xf : ℕ) = 2 ^ 4 - 1 from rfl, Nat.and_two_pow_sub_one_eq_mod,
          Nat.mod_eq_of_lt hlt]
      have hdiv : val / radix < radix ^ n := by
        rw [Nat.div_lt_iff_lt_mul (by omega)]
        rwa [pow_succ] at h
      rw [cvt_loop, if_neg hval, hmask, table_getD upper hlt, ih hdiv,
        Nat.digits_def' hr (Nat.pos_of_ne_zero hval), List.map_cons]

/-- **`_cvt`** makes the numeral. -/
theorem cvt_spec (hr : 1 < radix) (hr' : radix ≤ 16) (h : val < 2 ^ 64) :
    cvt val radix (table upper) = numeral radix upper val := by
  unfold cvt numeral
  by_cases hval : val = 0
  · rw [if_pos hval, if_pos hval]
  · have hlt : val < radix ^ 80 := by
      calc val < 2 ^ 64 := h
        _ ≤ 2 ^ 80 := by norm_num
        _ ≤ radix ^ 80 := Nat.pow_le_pow_left hr 80
    rw [if_neg hval, if_neg (by omega), if_neg hval, cvt_loop_spec hr hr' hlt, digitsOf,
      List.map_reverse]

/-- The argument as it is passed. -/
def pass : IntArg → Arg
  | .int v => .word v
  | .long v => .word v
  | .longlong v => .dword v

/-- The low word of the argument. -/
def low : IntArg → IntArg
  | .longlong v => .longlong (v &&& 0xffffffff)
  | a => a

/-- What `sys_vprintf` takes the argument for: all but `d` look at the low word only. -/
def masked : IntConv → IntArg → IntArg
  | .d, a => a
  | _, a => low a

theorem mask_toNat (v : BitVec 64) : (v &&& 0xffffffff).toNat = v.toNat % 2 ^ 32 := by
  rw [BitVec.toNat_and]
  exact Nat.and_two_pow_sub_one_eq_mod v.toNat 32

theorem mask_signExtend (v : BitVec 32) : (v.signExtend 64 &&& 0xffffffff).toNat = v.toNat := by
  have hlt := v.isLt
  rw [mask_toNat, BitVec.toNat_signExtend, BitVec.toNat_setWidth]
  split_ifs <;> omega

/-- The sign that is noted, and the number without it. -/
theorem negate_spec (v : BitVec 64) :
    v.msb = decide (v.toInt < 0) ∧ (if v.msb then -v else v).toNat = v.toInt.natAbs := by
  have hlt := v.isLt
  have hmsb := BitVec.msb_eq_toInt (x := v)
  refine ⟨hmsb, ?_⟩
  rw [hmsb]
  rw [BitVec.toInt_eq_toNat_cond]
  split_ifs with h₁ h₂
  all_goals simp only [decide_eq_true_eq, BitVec.toNat_neg] at *
  all_goals omega

/-- **"Fetch value".** -/
theorem fetch_spec {conv : IntConv} {a : IntArg} {v : Conv} (hc : v.c = conv.letter)
    (hll : v.islonglong = decide (a.modifier.length = 2)) (ap : List Arg) :
    ∃ val, fetch v (pass a :: ap) = (val, conv.negative a, ap) ∧
      val.toNat = conv.magnitude (masked conv a) := by
  -- as a signed number the value is the argument; cut to 32 bits it is unsigned
  have hval : (if v.islonglong then va_arg_dword (pass a :: ap)
      else (va_arg_word (pass a :: ap)).signExtend 64).toInt = a.signed := by
    rw [hll]
    cases a with
    | int w => exact BitVec.toInt_signExtend_of_le (by norm_num)
    | long w => exact BitVec.toInt_signExtend_of_le (by norm_num)
    | longlong w => rfl
  have hmask : ((if v.islonglong then va_arg_dword (pass a :: ap)
      else (va_arg_word (pass a :: ap)).signExtend 64) &&& 0xffffffff).toNat =
        (low a).unsigned := by
    rw [hll]
    cases a with
    | int w => exact mask_signExtend w
    | long w => exact mask_signExtend w
    | longlong w => rfl
  unfold fetch
  rw [hc]
  generalize (if v.islonglong then va_arg_dword (pass a :: ap)
    else (va_arg_word (pass a :: ap)).signExtend 64) = val at hval hmask
  cases conv with
  | d =>
    obtain ⟨hmsb, habs⟩ := negate_spec val
    rw [hval] at hmsb habs
    refine ⟨if val.msb then -val else val, ?_, habs⟩
    rw [if_pos (by decide), if_pos (by decide)]
    simp only [IntConv.negative, hmsb]
    by_cases hneg : a.signed < 0
    · simp [hneg]
    · simp [hneg]
  | u => exact ⟨_, rfl, hmask⟩
  | x => exact ⟨_, rfl, hmask⟩
  | X => exact ⟨_, rfl, hmask⟩

end Numbers

/-! ## A pass of the loop -/

section Pass

variable {l : Locals} {t : List UInt8}

theorem map_range_getD {cp : ℕ → UInt8} (hcp : ∀ i, i < t.length → cp i = t.getD i 0) :
    (List.range t.length).map cp = t := by
  apply List.ext_getElem
  · simp
  · intro i h₁ h₂
    simp [hcp i h₂, h₂]

/-- The text at `cp` in its field. -/
theorem finish_spec (v : Conv) (sign : Bool) (hlen : l.length = t.length)
    (hcp : ∀ i, i < t.length → l.cp i = t.getD i 0) :
    (finish v sign l).put = l.put ++
        (let sgn := flag (ch '-') sign
         let pad := v.left_prec - (sgn.length + t.length)
         if v.pad_on_right then sgn ++ t.flatMap crlf ++ spaces pad
         else if v.zero_fill then sgn ++ zeros pad ++ t.flatMap crlf
         else spaces pad ++ sgn ++ t.flatMap crlf) ∧
      (finish v sign l).length = -1 ∧ (finish v sign l).ap = l.ap := by
  have hpad : ((v.left_prec : ℤ) - l.length - (flag (ch '-') sign).length).toNat =
      v.left_prec - ((flag (ch '-') sign).length + t.length) := by omega
  have htext : (List.range l.length.toNat).map l.cp = t := by
    rw [hlen, Int.toNat_natCast]
    exact map_range_getD hcp
  refine ⟨?_, ?_, rfl⟩
  · change l.put ++ _ = _
    rw [htext, show (if sign then [ch '-'] else []) = flag (ch '-') sign from rfl, hpad]
    congr 1
    cases v.pad_on_right <;> cases v.zero_fill <;> simp [spaces, zeros]
  · change min l.length 0 - 1 = -1
    omega

/-- A number in its field is what C prints. -/
theorem number_eq (left zero : Bool) (width : ℕ) (sign : Bool) (ht : t.flatMap crlf = t) :
    (let sgn := flag (ch '-') sign
     let pad := width - (sgn.length + t.length)
     if left then sgn ++ t.flatMap crlf ++ spaces pad
     else if zero then sgn ++ zeros pad ++ t.flatMap crlf
     else spaces pad ++ sgn ++ t.flatMap crlf) =
      number left zero width (flag (ch '-') sign) t := by
  rw [ht]
  cases left <;> cases zero <;> simp [number, field]

theorem flatMap_crlf (ht : ch '\n' ∉ t) : t.flatMap crlf = t := by
  induction t with
  | nil => rfl
  | cons c t ih =>
    rw [List.mem_cons, not_or] at ht
    rw [List.flatMap_cons, ih ht.2, crlf, if_neg (Ne.symm ht.1)]
    rfl

theorem digits_crlf (conv : IntConv) (a : IntArg) :
    (conv.digits a).flatMap crlf = conv.digits a := by
  apply flatMap_crlf
  intro hmem
  exact absurd (mem_numeral conv.base_bounds.1 conv.base_bounds.2 hmem).1 (by decide)

theorem process_spec {conv : IntConv} {v : Conv} (hc : v.c = conv.letter) (val : BitVec 64)
    (l : Locals) :
    process v val l = (v, l.set_buf (cvt val.toNat conv.base (table conv.upper))) := by
  unfold process
  rw [hc]
  cases conv <;> rfl

/-- **A number.** -/
theorem conversion_int {conv : IntConv} {a : IntArg} {v : Conv} {ap : List Arg}
    (hc : v.c = conv.letter) (hll : v.islonglong = decide (a.modifier.length = 2))
    (hap : l.ap = pass a :: ap) :
    (conversion v l).put = l.put ++ number v.pad_on_right v.zero_fill v.left_prec
        (flag (ch '-') (conv.negative a)) (conv.digits (masked conv a)) ∧
      (conversion v l).length = -1 ∧ (conversion v l).ap = ap := by
  obtain ⟨val, hfetch, hval⟩ := fetch_spec hc hll ap
  have hcvt : cvt val.toNat conv.base (table conv.upper) = conv.digits (masked conv a) := by
    rw [cvt_spec conv.base_bounds.1 conv.base_bounds.2 val.isLt, hval]
    rfl
  have hchar : ¬ (v.c = ch 'c' ∨ v.c = ch 'C') := by
    rw [hc]
    cases conv <;> decide
  have hfinish := finish_spec (l := { l with ap := ap }.set_buf (conv.digits (masked conv a))) v
    (conv.negative a) rfl fun i hi => if_pos hi
  rw [number_eq _ _ _ _ (digits_crlf conv _)] at hfinish
  simp only [conversion, hap, hfetch, if_neg hchar, process_spec hc, hcvt]
  exact hfinish

/-- **A string.** -/
theorem conversion_str {v : Conv} {s : List UInt8} {ap : List Arg} (hc : v.c = ch 's')
    (hzero : v.zero_fill = false) (hs : sys_check_string s) (hap : l.ap = .str (some s) :: ap) :
    (conversion v l).put = l.put ++
        (if v.pad_on_right then s.flatMap crlf ++ spaces (v.left_prec - s.length)
         else spaces (v.left_prec - s.length) ++ s.flatMap crlf) ∧
      (conversion v l).length = -1 ∧ (conversion v l).ap = ap := by
  have hfetch : fetch v l.ap = (0, false, l.ap) := by
    unfold fetch
    rw [hc]
    rfl
  have hprocess : process v 0 { l with ap := l.ap } =
      (v, { l with cp := fun i => s.getD i 0, length := s.length, ap }) := by
    unfold process
    rw [hc, hap]
    simp only [va_arg_str, if_pos hs]
    rfl
  have hchar : ¬ (v.c = ch 'c' ∨ v.c = ch 'C') := by
    rw [hc]
    decide
  have hfinish := finish_spec (t := s)
    (l := { l with cp := fun i => s.getD i 0, length := s.length, ap }) v false rfl
    fun i _ => rfl
  simp only [conversion, hfetch, if_neg hchar, hprocess]
  rw [hzero] at hfinish
  simpa [flag] using hfinish

/-- **`%c`** -/
theorem conversion_chr {v : Conv} {w : BitVec 32} {ap : List Arg} (hc : v.c = ch 'c')
    (hap : l.ap = .word w :: ap) :
    (conversion v l).put = l.put ++ [UInt8.ofNat w.toNat] ∧
      (conversion v l).length = l.length ∧ (conversion v l).ap = ap := by
  have hfetch : fetch v l.ap = (0, false, l.ap) := by
    unfold fetch
    rw [hc]
    rfl
  simp only [conversion, hfetch, if_pos (Or.inl hc : v.c = ch 'c' ∨ v.c = ch 'C')]
  rw [hap]
  exact ⟨rfl, rfl, rfl⟩

/-- **`%%`** has a field of its own, as wide as `length` is below zero. -/
theorem conversion_percent {v : Conv} (hc : v.c = ch '%') (hw : v.left_prec = 0)
    (hright : v.pad_on_right = false) (hzero : v.zero_fill = false) (hlen : l.length ≤ 0) :
    (conversion v l).put = l.put ++ ch '%' :: spaces (-l.length).toNat ∧
      (conversion v l).length = l.length - 1 ∧ (conversion v l).ap = l.ap := by
  have hfetch : fetch v l.ap = (0, false, l.ap) := by
    unfold fetch
    rw [hc]
    rfl
  have hprocess : process v 0 { l with ap := l.ap } = (v, { l with put := l.put ++ [ch '%'] }) := by
    unfold process
    rw [hc]
    rfl
  have hchar : ¬ (v.c = ch 'c' ∨ v.c = ch 'C') := by
    rw [hc]
    decide
  have hnone : l.length.toNat = 0 := by omega
  simp only [conversion, hfetch, if_neg hchar, hprocess]
  refine ⟨?_, ?_, rfl⟩
  · simp [finish, Locals.puts, hw, hright, hzero, hnone, spaces]
  · change min l.length 0 - 1 = l.length - 1
    omega

end Pass

/-! ## Items -/

/-- The arguments of an item. -/
def item_args : Item → List Arg
  | .int _ _ _ _ a => [pass a]
  | .str _ _ s => [.str (some s)]
  | .chr w => [.word w]
  | _ => []

def args (l : List Item) : List Arg := l.flatMap item_args

/-- What is handed to `printf_putc` for an item when `length` is below zero or zero. -/
def put_item (length : ℤ) : Item → List UInt8
  | .char c => crlf c
  | .int left zero width conv a =>
    number left zero width (flag (ch '-') (conv.negative a)) (conv.digits (masked conv a))
  | .str left width s =>
    if left then s.flatMap crlf ++ spaces (width - s.length)
    else spaces (width - s.length) ++ s.flatMap crlf
  | .chr w => [UInt8.ofNat w.toNat]
  | .percent => ch '%' :: spaces (-length).toNat

/-- What `length` is left at. -/
def length_after (length : ℤ) : Item → ℤ
  | .char _ => length
  | .chr _ => length
  | .percent => length - 1
  | _ => -1

def put_items : ℤ → List Item → List UInt8
  | _, [] => []
  | length, x :: l => put_item length x ++ put_items (length_after length x) l

section Items

variable {l : Locals} {x : Item} {items : List Item}

theorem length_after_le {length : ℤ} (h : length ≤ 0) (x : Item) : length_after length x ≤ 0 := by
  cases x <;> simp only [length_after] <;> omega

theorem letter_conv (conv : IntConv) : Letter conv.letter := by
  cases conv <;> exact ⟨by decide, by decide, by decide, by decide⟩

theorem letter_s : Letter (ch 's') := ⟨by decide, by decide, by decide, by decide⟩

theorem letter_c : Letter (ch 'c') := ⟨by decide, by decide, by decide, by decide⟩

theorem letter_percent : Letter (ch '%') := ⟨by decide, by decide, by decide, by decide⟩

/-- A string of C that `sys_check_string` accepts. -/
def FitsItem : Item → Prop
  | .str _ _ s => s.length ≤ 256
  | _ => True

instance : DecidablePred FitsItem
  | .str _ _ s => inferInstanceAs (Decidable (s.length ≤ 256))
  | .char _ | .int _ _ _ _ _ | .chr _ | .percent => inferInstanceAs (Decidable True)

/-- The pass for a conversion. -/
theorem loop_conversion (n : ℕ) (fmt : List UInt8) (l : Locals) :
    sys_vprintf_loop (n + 1) (ch '%' :: fmt) l =
      sys_vprintf_loop n (parse_conv fmt).fmt (conversion (parse_conv fmt) l) := by
  rw [sys_vprintf_loop, if_pos rfl]

/-- **A pass of the loop** deals with an item. -/
theorem loop_item (hx : x.Ok) (hfits : FitsItem x) (n : ℕ) (rest : List UInt8) {ap : List Arg}
    (hlen : l.length ≤ 0) (hap : l.ap = item_args x ++ ap) :
    ∃ l', sys_vprintf_loop (n + 1) (x.format ++ rest) l = sys_vprintf_loop n rest l' ∧
      l'.put = l.put ++ put_item l.length x ∧ l'.length = length_after l.length x ∧ l'.ap = ap := by
  cases x with
  | char c =>
    refine ⟨l.puts (crlf c), ?_, rfl, rfl, hap⟩
    rw [Item.format, List.singleton_append, sys_vprintf_loop, if_neg hx.2]
  | int left zero width conv a =>
    -- what is written as one item is parsed as one conversion
    have hparse := parse_conv_spec (letter_conv conv) left zero width a rest
    have hfmt : (Item.int left zero width conv a).format ++ rest =
        ch '%' :: (flag (ch '-') left ++ (flag (ch '0') zero ++
          (digitsOf 10 false width ++ (a.modifier ++ conv.letter :: rest)))) := by
      simp [Item.format]
    rw [hfmt, loop_conversion, hparse]
    exact ⟨_, rfl, conversion_int rfl rfl hap⟩
  | str left width s =>
    have hparse := parse_conv_spec letter_s left false width (.int 0) rest
    have hfmt : (Item.str left width s).format ++ rest =
        ch '%' :: (flag (ch '-') left ++ (flag (ch '0') false ++
          (digitsOf 10 false width ++ ((IntArg.int 0).modifier ++ ch 's' :: rest)))) := by
      simp [Item.format, flag, IntArg.modifier]
    have hs : sys_check_string s := decide_eq_true (Nat.le_succ_of_le hfits)
    rw [hfmt, loop_conversion, hparse]
    exact ⟨_, rfl, conversion_str rfl rfl hs hap⟩
  | chr w =>
    have hparse := parse_conv_spec letter_c false false 0 (.int 0) rest
    have hfmt : (Item.chr w).format ++ rest =
        ch '%' :: (flag (ch '-') false ++ (flag (ch '0') false ++
          (digitsOf 10 false 0 ++ ((IntArg.int 0).modifier ++ ch 'c' :: rest)))) := by
      simp [Item.format, flag, digitsOf, IntArg.modifier]
    rw [hfmt, loop_conversion, hparse]
    exact ⟨_, rfl, conversion_chr rfl hap⟩
  | percent =>
    have hparse := parse_conv_spec letter_percent false false 0 (.int 0) rest
    have hfmt : Item.percent.format ++ rest =
        ch '%' :: (flag (ch '-') false ++ (flag (ch '0') false ++
          (digitsOf 10 false 0 ++ ((IntArg.int 0).modifier ++ ch '%' :: rest)))) := by
      simp [Item.format, flag, digitsOf, IntArg.modifier]
    rw [hfmt, loop_conversion, hparse]
    obtain ⟨hput, hlength, happ⟩ := conversion_percent (l := l)
      (v := ⟨0, false, false, _, _, ch '%', rest⟩) rfl rfl rfl rfl hlen
    exact ⟨_, rfl, hput, hlength, happ.trans hap⟩

theorem length_format_pos (x : Item) : 1 ≤ x.format.length := by
  cases x <;> simp [Item.format]

/-- **The loop** hands over the items one after the other. -/
theorem loop_items (hitems : ∀ x ∈ items, x.Ok ∧ FitsItem x) {n : ℕ}
    (hn : (format items).length ≤ n) (hlen : l.length ≤ 0) (hap : l.ap = args items) :
    (sys_vprintf_loop n (format items) l).put = l.put ++ put_items l.length items := by
  induction items generalizing n l with
  | nil =>
    rw [put_items, List.append_nil, format, List.flatMap_nil]
    cases n <;> rfl
  | cons x items ih =>
    have hpos := length_format_pos x
    rw [format, List.flatMap_cons, List.length_append] at hn
    obtain ⟨m, rfl⟩ : ∃ m, n = m + 1 := ⟨n - 1, by omega⟩
    obtain ⟨hx, hfits⟩ := hitems x List.mem_cons_self
    obtain ⟨l', hloop, hput, hlen', hap'⟩ := loop_item hx hfits m (format items) hlen hap
    rw [format, List.flatMap_cons, ← format, hloop,
      ih (fun y hy => hitems y (List.mem_cons_of_mem _ hy)) (by unfold format; omega)
        (hlen' ▸ length_after_le hlen x) hap',
      hput, hlen', put_items, List.append_assoc]

/-- **`sys_vprintf`** -/
theorem sys_vprintf_spec (hitems : ∀ x ∈ items, x.Ok ∧ FitsItem x)
    (hfmt : (format items).length ≤ 256) (buf : ℕ → UInt8) :
    (sys_vprintf (format items) (args items) buf).put = put_items 0 items := by
  have hcheck : sys_check_string (format items) := decide_eq_true (Nat.le_succ_of_le hfmt)
  simp only [sys_vprintf, if_pos hcheck]
  exact loop_items hitems le_rfl le_rfl rfl

end Items

end CsBoot.Printf
