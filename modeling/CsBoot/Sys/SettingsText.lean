/-
The texts of the IP entry and the boot file entry are read back as they were printed.

The words that `sys_get_vctl_ip` searches for begin with letters that no address has, and the
`2:` of the boot files is searched for behind the first name only, so that a name may have
any characters but spaces (`parse_ip_text`, `parse_boot_text`). A hexadecimal number is read
by `str2value` as it was printed (`str2value_hex`).
-/
import CsBoot.Sys.SettingsSpec

set_option autoImplicit false

namespace CsBoot.Vctl

open CString (ch)
open ByteMem SkipBlocks Nor Ui Keyed Printf CFormat

/-! ## The IP entry -/

section Ip

variable {c : IpCfg}

/-- What `ip_format` prints. -/
def ip_items (c : IpCfg) : List Item :=
  chars (ascii ['I', 'P', ':']) ++ (address_items c.ipaddr ++
    (chars (ascii [' ', 'N', 'e', 't', 'm', 'a', 's', 'k', ':']) ++ (address_items c.netmask ++
      (chars (ascii [' ', 'G', 'a', 't', 'e', 'w', 'a', 'y', ':']) ++ address_items c.gateway))))

/-- Three addresses, each behind its key. -/
def ip_text (c : IpCfg) : List UInt8 :=
  ascii ['I', 'P', ':'] ++ (address_text c.ipaddr ++ (ch ' ' ::
    (ascii ['N', 'e', 't', 'm', 'a', 's', 'k', ':'] ++ (address_text c.netmask ++ (ch ' ' ::
      (ascii ['G', 'a', 't', 'e', 'w', 'a', 'y', ':'] ++ address_text c.gateway))))))

/-- The arguments of two formats, one behind the other. -/
theorem args_append (l l' : List Item) : args (l ++ l') = args l ++ args l' := List.flatMap_append

/-- Ordinary characters take none. -/
theorem args_chars (l : List UInt8) : args (chars l) = [] := by
  induction l with
  | nil => rfl
  | cons c l ih => exact ih

/-- The text of the items is `ip_text`. -/
theorem text_ip_items (c : IpCfg) : text (ip_items c) = ip_text c := by
  simp only [ip_items, text_append, text_chars, text_address_items]
  rfl

/-- An address is printed with four `%d`. -/
theorem format_address_items (a : UInt32) :
    format (address_items a) =
      ascii ['%', 'd', '.', '%', 'd', '.', '%', 'd', '.', '%', 'd'] := by
  have hwidth : digitsOf 10 false 0 = [] := by simp [digitsOf]
  simp only [address_items, word_item, format_cons, format_nil, Item.format, hwidth]
  rfl

/-- The format of the items is the one of `sys_set_vctl_ip`, -/
theorem format_ip_items (c : IpCfg) : format (ip_items c) = ip_format := by
  simp only [ip_items, format_append, format_chars, format_address_items]
  rfl

/-- and their arguments are those it is called with. -/
theorem args_ip_items (c : IpCfg) :
    args (ip_items c) = ip_args c.ipaddr ++ (ip_args c.netmask ++ ip_args c.gateway) := by
  simp only [ip_items, args_append, args_chars, List.nil_append]
  rfl

/-- What the items of an address have in common with other characters. -/
theorem plain_address_items {a : UInt32} {x : Item} (hx : x ∈ address_items a) :
    (x.Ok ∧ FitsItem x) ∧ Plain x ∧ x ≠ .percent := by
  simp only [address_items, List.mem_cons, List.not_mem_nil, or_false] at hx
  have hword : ∀ w, ((word_item w).Ok ∧ FitsItem (word_item w)) ∧ Plain (word_item w) ∧
      word_item w ≠ .percent := fun w =>
    ⟨⟨Nat.zero_le _, trivial⟩, trivial, fun h => by cases h⟩
  have hdot : ((Item.char Str.DOT).Ok ∧ FitsItem (.char Str.DOT)) ∧ Plain (.char Str.DOT) ∧
      Item.char Str.DOT ≠ .percent := by
    refine ⟨by decide, by decide, fun h => by cases h⟩
  obtain rfl | rfl | rfl | rfl | rfl | rfl | rfl := hx
  · exact hword _
  · exact hdot
  · exact hword _
  · exact hdot
  · exact hword _
  · exact hdot
  · exact hword _

/-- Characters above the control characters, but `%`. -/
theorem plain_chars_items {l : List UInt8} (hl : l.all fun c => 32 ≤ c.toNat ∧ c ≠ ch '%')
    {x : Item} (hx : x ∈ chars l) : (x.Ok ∧ FitsItem x) ∧ Plain x ∧ x ≠ .percent := by
  obtain ⟨c, hc, rfl⟩ := List.mem_map.mp hx
  obtain ⟨hge, hne⟩ := of_decide_eq_true (List.all_eq_true.mp hl c hc)
  have hcontrol : ∀ d : UInt8, d.toNat < 32 → c ≠ d := by
    rintro _ hd rfl
    omega
  refine ⟨⟨⟨hcontrol 0 (by decide), hne⟩, trivial⟩, ?_, fun h => by cases h⟩
  simp only [Plain, List.mem_cons, not_or]
  exact ⟨hcontrol _ (by decide), hcontrol _ (by decide), List.not_mem_nil⟩

/-- An address has digits and points only, between `.` and `9`. -/
theorem mem_address_text {a : UInt32} {c : UInt8} (hc : c ∈ address_text a) :
    46 ≤ c.toNat ∧ c.toNat ≤ 57 := by
  have hdigit : ∀ {n}, c ∈ numeral 10 false n → 46 ≤ c.toNat ∧ c.toNat ≤ 57 := fun h => by
    have := decimal_digit_bounds h
    omega
  have hdot : c = Str.DOT → 46 ≤ c.toNat ∧ c.toNat ≤ 57 := by
    rintro rfl
    decide
  simp only [address_text, dotted, List.mem_append, List.mem_cons] at hc
  obtain hc | hc | hc | hc | hc | hc | hc := hc
  · exact hdigit hc
  · exact hdot hc
  · exact hdigit hc
  · exact hdot hc
  · exact hdigit hc
  · exact hdot hc
  · exact hdigit hc

/-- An octet has at most three digits, -/
theorem length_numeral_octet {n : ℕ} (hn : n < 256) : (numeral 10 false n).length ≤ 3 := by
  unfold numeral
  split_ifs with h
  · exact Nat.succ_le_succ (Nat.zero_le 2)
  · rw [digitsOf, List.length_map, List.length_reverse]
    exact (Nat.digits_length_le_iff (by norm_num) n).mpr (by omega)

/-- so that an address has at most fifteen characters -/
theorem length_address_text (a : UInt32) : (address_text a).length ≤ 15 := by
  have h := fun k => length_numeral_octet (octet_lt a k)
  have h₀ := h 0
  have h₁ := h 1
  have h₂ := h 2
  have h₃ := h 3
  simp only [address_text, dotted, List.length_append, List.length_cons]
  omega

/-- and the text fits into `entry_buf`. -/
theorem length_ip_text (c : IpCfg) : (ip_text c).length ≤ 66 := by
  have h₁ := length_address_text c.ipaddr
  have h₂ := length_address_text c.netmask
  have h₃ := length_address_text c.gateway
  simp only [ip_text, ascii, List.length_append, List.length_cons, List.length_map, List.length_nil]
  omega

/-- The text of the IP entry is printed as it is. -/
theorem printed_ip_items (c : IpCfg) : Printed (ip_items c) := by
  have hitems : ∀ x ∈ ip_items c, (x.Ok ∧ FitsItem x) ∧ Plain x ∧ x ≠ .percent := by
    intro x hx
    simp only [ip_items, List.mem_append] at hx
    obtain hx | hx | hx | hx | hx | hx := hx
    · exact plain_chars_items (by decide) hx
    · exact plain_address_items hx
    · exact plain_chars_items (by decide) hx
    · exact plain_address_items hx
    · exact plain_chars_items (by decide) hx
    · exact plain_address_items hx
  refine ⟨fun x hx => (hitems x hx).1, ?_, .of_plain (fun x hx => (hitems x hx).2.1)
    (fun hx => (hitems _ hx).2.2 rfl) ?_⟩
  · rw [format_ip_items]
    decide
  · rw [text_ip_items, ip_text]
    simp [ascii]

/-- The characters of an address are no letters. -/
theorem toupper_address {a : UInt32} {c d : UInt8} (hc : c ∈ address_text a ++ [ch ' '])
    (hd : 65 ≤ (Strto.toupper d).toNat) : Strto.toupper c ≠ Strto.toupper d := by
  have hlt : c.toNat ≤ 57 := by
    obtain hc | hc := List.mem_append.mp hc
    · exact (mem_address_text hc).2
    · rw [List.mem_singleton.mp hc]
      decide
  intro heq
  rw [← heq, Strto.toupper_toNat] at hd
  split_ifs at hd <;> omega

/-- A key that begins with a letter is not found inside an address. -/
theorem find_behind_address {a : UInt32} {key s : List UInt8} (hkey : key ≠ [])
    (hd : 65 ≤ (Strto.toupper (key.headD 0)).toNat) :
    sys_find_str (address_text a ++ (ch ' ' :: (key ++ s))) key = some (key ++ s) := by
  rw [show address_text a ++ (ch ' ' :: (key ++ s)) = (address_text a ++ [ch ' ']) ++ (key ++ s) by
    simp, find_str_skip fun c hc => toupper_address hc hd]
  exact find_str_here hkey

/-- **The IP settings are read** as they were printed. -/
theorem parse_ip_text (c old : IpCfg) : parse_ip (ip_text c) old = c := by
  have hspace : ∀ {s : List UInt8}, ∀ d ∈ (ch ' ' :: s).head?, ¬ Str.IsDigit d := by
    intro s d hd
    cases hd
    unfold Str.IsDigit
    decide
  have hnone : ∀ d ∈ ([] : List UInt8).head?, ¬ Str.IsDigit d := fun d hd => by cases hd
  rw [parse_ip, ip_text, find_str_here (by decide)]
  have hdrop₁ : ∀ s : List UInt8, (ascii ['I', 'P', ':'] ++ s).drop 3 = s := fun s => rfl
  have hdrop₂ : ∀ s : List UInt8,
      (ascii ['N', 'e', 't', 'm', 'a', 's', 'k', ':'] ++ s).drop 8 = s := fun s => rfl
  have hdrop₃ : ∀ s : List UInt8,
      (ascii ['G', 'a', 't', 'e', 'w', 'a', 'y', ':'] ++ s).drop 8 = s := fun s => rfl
  have haddr := str2ip_address_text c.gateway hnone
  rw [List.append_nil] at haddr
  simp only [hdrop₁]
  rw [find_behind_address (by decide) (by decide)]
  simp only [hdrop₂]
  rw [find_behind_address (by decide) (by decide)]
  simp only [hdrop₃, str2ip_address_text _ hspace, haddr]

end Ip

/-! ## Hexadecimal numbers -/

section Hex

variable {n : ℕ} {rest : List UInt8}

/-- What the reader asks of a character, for each hexadecimal digit that is printed. -/
theorem hex_digit_cases {d : ℕ} (hd : d < 16) :
    char2hex (digit true d) = UInt32.ofNat d ∧ char2hex (digit true d) ≠ 0xffffffff ∧
      digit true d ∉ [ch ' ', ch ':', ch ',', ch '.'] ∧
      Strto.toupper (digit true d) ≠ ch 'X' ∧
      (ch 'A' ≤ digit true d ∧ digit true d ≤ ch 'F' ∨ ch '0' ≤ digit true d ∧
        digit true d ≤ ch '9') := by
  interval_cases d <;> decide

/-- The characters of a hexadecimal number are such digits. -/
theorem hex_of_mem {c : UInt8} (hc : c ∈ numeral 16 true n) :
    ∃ d, d < 16 ∧ c = digit true d :=
  exists_digit_of_mem (by norm_num) hc

/-- The check passes over the digits. -/
theorem str2value_check_digits {l : List UInt8} (hl : ∀ c ∈ l, ∃ d, d < 16 ∧ c = digit true d)
    (rest : List UInt8) :
    str2value_check true (l ++ ch ' ' :: rest) = some true := by
  induction l with
  | nil => rfl
  | cons c l ih =>
    obtain ⟨d, hd, rfl⟩ := hl c List.mem_cons_self
    obtain ⟨-, -, hsep, -, hrange⟩ := hex_digit_cases hd
    have hrest := ih fun x hx => hl x (List.mem_cons_of_mem _ hx)
    rw [List.cons_append, str2value_check, if_neg hsep]
    obtain hrange | hrange := hrange
    · rw [if_pos (.inl hrange), hrest]
    · split_ifs
      · exact hrest
      · exact hrest

/-- The loop of `str2hex` counts them. -/
theorem str2hex_loop_digits {l : List ℕ} (hl : ∀ d ∈ l, d < 16) (v : ℕ) (rest : List UInt8) :
    str2hex_loop (UInt32.ofNat v) (l.map (digit true) ++ ch ' ' :: rest) =
      UInt32.ofNat (l.foldl (fun v d => 16 * v + d) v) := by
  induction l generalizing v with
  | nil => exact if_neg (by decide)
  | cons d l ih =>
    obtain ⟨hval, hne, -⟩ := hex_digit_cases (hl d List.mem_cons_self)
    have hword : UInt32.ofNat v * 16 + char2hex (digit true d) = UInt32.ofNat (16 * v + d) := by
      rw [hval, UInt32.ofNat_add, UInt32.ofNat_mul, UInt32.mul_comm]
      rfl
    rw [List.map_cons, List.cons_append, str2hex_loop, if_pos hne, hword, List.foldl_cons]
    exact ih (fun x hx => hl x (List.mem_cons_of_mem _ hx)) _

/-- A number that is printed with `%X` does not begin with `0x`, since no digit is an `X`. -/
theorem has_0x_numeral : has_0x (numeral 16 true n ++ ch ' ' :: rest) = false := by
  obtain ⟨c, l, hl⟩ := List.exists_cons_of_length_pos (length_numeral_pos 16 true n)
  have hsecond : Strto.toupper ((l ++ ch ' ' :: rest).headD 0) ≠ ch 'X' := by
    cases l with
    | nil => exact (by decide : Strto.toupper (ch ' ') ≠ ch 'X')
    | cons c' l =>
      obtain ⟨d, hd, hc'⟩ := hex_of_mem (n := n) (c := c')
        (hl ▸ List.mem_cons_of_mem _ List.mem_cons_self)
      have hX := (hex_digit_cases hd).2.2.2.1
      rwa [← hc'] at hX
  rw [hl, List.cons_append, has_0x, Bool.and_eq_false_iff]
  exact .inr (decide_eq_false hsecond)

/-- **A hexadecimal number is read** as it was printed. -/
theorem str2value_hex (x : UInt32) (rest : List UInt8) :
    str2value (ch '0' :: ch 'x' :: (numeral 16 true x.toNat ++ ch ' ' :: rest)) = x := by
  have hcheck := str2value_check_digits (fun c hc => hex_of_mem (n := x.toNat) hc) rest
  have hloop : str2hex_loop 0 (numeral 16 true x.toNat ++ ch ' ' :: rest) = x := by
    by_cases hzero : x.toNat = 0
    · rw [hzero, numeral, if_pos rfl]
      have h0 : str2hex_loop 0 ([ch '0'] ++ ch ' ' :: rest) = 0 := by
        rw [List.singleton_append, str2hex_loop, if_pos (by decide)]
        exact if_neg (by decide)
      rw [h0]
      exact UInt32.toNat_inj.mp hzero.symm
    · have hdigits := str2hex_loop_digits
        (fun d hd => digits_lt (by norm_num) (by norm_num) hd :
          ∀ d ∈ (Nat.digits 16 x.toNat).reverse, d < 16) 0 rest
      rw [foldl_digits_reverse] at hdigits
      rw [numeral, if_neg hzero, digitsOf]
      exact hdigits.trans UInt32.ofNat_toNat
  have hhex : has_0x (ch '0' :: ch 'x' :: (numeral 16 true x.toNat ++ ch ' ' :: rest)) = true := by
    have hx : Strto.toupper (ch 'x') = ch 'X' := by decide
    exact Bool.and_eq_true_iff.mpr ⟨decide_eq_true rfl, decide_eq_true hx⟩
  have hdrop : (ch '0' :: ch 'x' :: (numeral 16 true x.toNat ++ ch ' ' :: rest)).drop 2 =
      numeral 16 true x.toNat ++ ch ' ' :: rest := rfl
  simp only [str2value, hhex, if_true, hdrop, hcheck, str2hex, has_0x_numeral,
    Bool.false_eq_true, if_false, hloop]

end Hex

/-! ## The boot file entry -/

section Boot

variable {f : BootFiles}

/-- A file name as it is typed: printable characters without a space, in a buffer of 128
bytes. -/
structure FileName (name : List UInt8) : Prop where
  length_le : name.length ≤ 127
  chars : ∀ c ∈ name, 33 ≤ c.toNat ∧ c.toNat ≤ 126

/-- For a given name it can be computed. -/
theorem FileName.of_all {name : List UInt8} (hlen : name.length ≤ 127)
    (h : name.all fun c => 33 ≤ c.toNat ∧ c.toNat ≤ 126) : FileName name :=
  ⟨hlen, fun c hc => of_decide_eq_true (List.all_eq_true.mp h c hc)⟩

/-- Both names are file names. -/
def BootFiles.Ok (f : BootFiles) : Prop := FileName f.f1_name ∧ FileName f.f2_name

/-- `%X` of a word. -/
def hex_item (x : UInt32) : Item := .int false false 0 .X (.int x.toBitVec)

/-- What `boot_format` prints. -/
def boot_items (f : BootFiles) : List Item :=
  chars (ascii ['1', ':', '0', 'x']) ++
    ([hex_item f.f1_addr, .char (ch ' '), .str false 0 f.f1_name]
    ++ (chars (ascii [' ', '2', ':', '0', 'x']) ++
      [hex_item f.f2_addr, .char (ch ' '), .str false 0 f.f2_name]))

/-- Two addresses and two names. -/
def boot_text (f : BootFiles) : List UInt8 :=
  ascii ['1', ':'] ++ (ch '0' :: ch 'x' :: (numeral 16 true f.f1_addr.toNat ++ ch ' ' ::
    (f.f1_name ++ ch ' ' :: (ascii ['2', ':'] ++ (ch '0' :: ch 'x' ::
      (numeral 16 true f.f2_addr.toNat ++ ch ' ' :: f.f2_name))))))

/-- The digits of the word, without `0x`. -/
theorem text_hex_item (x : UInt32) : (hex_item x).text = numeral 16 true x.toNat := by
  simp [hex_item, Item.text, number, field, IntConv.negative, IntConv.digits, IntConv.magnitude,
    IntConv.base, IntConv.upper, IntArg.unsigned, flag, spaces]

/-- `%s` prints the name as it is. -/
theorem text_str_item (s : List UInt8) : (Item.str false 0 s).text = s := by
  simp [Item.text, field, spaces]

/-- The text of the items is `boot_text`, -/
theorem text_boot_items (f : BootFiles) : text (boot_items f) = boot_text f := by
  have hspace : (Item.char (ch ' ')).text = [ch ' '] := rfl
  simp only [boot_items, text_append, text_chars, text_cons, text_nil, text_hex_item,
    text_str_item, hspace]
  simp [boot_text, ascii]

/-- their format is the one of `sys_set_vctl_boot_file`, -/
theorem format_boot_items (f : BootFiles) : format (boot_items f) = boot_format := by
  have hwidth : digitsOf 10 false 0 = [] := by simp [digitsOf]
  simp only [boot_items, hex_item, format_append, format_chars, format_cons, format_nil,
    Item.format, hwidth]
  rfl

/-- and their arguments are those it is called with. -/
theorem args_boot_items (f : BootFiles) : args (boot_items f) = boot_args f := by
  simp only [boot_items, args_append, args_chars, List.nil_append]
  rfl

/-- A word has at most eight hexadecimal digits, -/
theorem length_hex (x : UInt32) : (numeral 16 true x.toNat).length ≤ 8 := by
  have hlt := x.toNat_lt
  unfold numeral
  split_ifs with h
  · exact Nat.succ_le_succ (Nat.zero_le 7)
  · rw [digitsOf, List.length_map, List.length_reverse]
    exact (Nat.digits_length_le_iff (by norm_num) _).mpr (by omega)

/-- so that the text fits into `entry_buf` with two names of 127 characters. -/
theorem length_boot_text (h : f.Ok) : (boot_text f).length ≤ 281 := by
  have h₁ := length_hex f.f1_addr
  have h₂ := length_hex f.f2_addr
  have h₃ := h.1.length_le
  have h₄ := h.2.length_le
  simp only [boot_text, ascii, List.length_append, List.length_cons, List.length_map,
    List.length_nil]
  omega

/-- There is no blank in a name, which is where the reader would stop. -/
theorem FileName.not_mem {name : List UInt8} (h : FileName name) {c : UInt8} (hc : c.toNat < 33) :
    c ∉ name := fun hmem => by
  have := (h.chars c hmem).1
  omega

/-- The text of the boot file entry is printed as it is. -/
theorem printed_boot_items (h : f.Ok) : Printed (boot_items f) := by
  have hname : ∀ {name}, FileName name →
      ((Item.str false 0 name).Ok ∧ FitsItem (.str false 0 name)) ∧
      Plain (.str false 0 name) ∧ Item.str false 0 name ≠ .percent := fun hn =>
    ⟨⟨⟨Nat.zero_le _, hn.not_mem (by decide)⟩, hn.length_le.trans (by norm_num)⟩,
      ⟨hn.not_mem (by decide), hn.not_mem (by decide)⟩, fun hx => by cases hx⟩
  have hhex : ∀ x, ((hex_item x).Ok ∧ FitsItem (hex_item x)) ∧ Plain (hex_item x) ∧
      hex_item x ≠ .percent := fun x => ⟨⟨Nat.zero_le _, trivial⟩, trivial, fun hx => by cases hx⟩
  have hspace : ((Item.char (ch ' ')).Ok ∧ FitsItem (.char (ch ' '))) ∧ Plain (.char (ch ' ')) ∧
      Item.char (ch ' ') ≠ .percent := ⟨by decide, by decide, fun hx => by cases hx⟩
  have hitems : ∀ x ∈ boot_items f, (x.Ok ∧ FitsItem x) ∧ Plain x ∧ x ≠ .percent := by
    intro x hx
    simp only [boot_items, List.mem_append, List.mem_cons, List.not_mem_nil, or_false] at hx
    obtain hx | (rfl | rfl | rfl) | hx | rfl | rfl | rfl := hx
    · exact plain_chars_items (by decide) hx
    · exact hhex _
    · exact hspace
    · exact hname h.1
    · exact plain_chars_items (by decide) hx
    · exact hhex _
    · exact hspace
    · exact hname h.2
  refine ⟨fun x hx => (hitems x hx).1, ?_, .of_plain (fun x hx => (hitems x hx).2.1)
    (fun hx => (hitems _ hx).2.2 rfl) ?_⟩
  · rw [format_boot_items]
    decide
  · rw [text_boot_items, boot_text]
    simp [ascii]

/-- A search for a space passes over a number. -/
theorem find_space (x : UInt32) (s : List UInt8) :
    sys_find_str (ch '0' :: ch 'x' :: (numeral 16 true x.toNat ++ ch ' ' :: s)) [ch ' '] =
      some (ch ' ' :: s) := by
  have hskip : ∀ c ∈ ch '0' :: ch 'x' :: numeral 16 true x.toNat,
      Strto.toupper c ≠ Strto.toupper ([ch ' '].headD 0) := by
    intro c hc heq
    have hge : 48 ≤ c.toNat := by
      obtain rfl | rfl | hc := by simpa only [List.mem_cons] using hc
      · decide
      · decide
      · exact (mem_numeral (by norm_num) (by norm_num) hc).1
    have hnat := congrArg UInt8.toNat heq
    rw [Strto.toupper_toNat, Strto.toupper_toNat] at hnat
    have h32 : ([ch ' '].headD 0).toNat = 32 := rfl
    rw [h32] at hnat
    split_ifs at hnat <;> omega
  exact (find_str_skip hskip).trans (find_str_here (k := [ch ' ']) (by decide))

/-- A name is copied up to the space behind it. -/
theorem copy_name {name : List UInt8} (h : FileName name) (s : List UInt8) :
    sys_copy_str (name ++ ch ' ' :: s) = (name, ch ' ' :: s) := by
  have hne : ∀ c ∈ name, decide (c ≠ ch ' ') = true := fun c hc =>
    decide_eq_true fun heq => h.not_mem (by decide : (ch ' ').toNat < 33) (heq ▸ hc)
  refine Prod.ext ?_ ?_
  · rw [sys_copy_str, List.takeWhile_append_of_pos hne]
    simp
  · rw [sys_copy_str, List.dropWhile_append_of_pos hne]
    simp

/-- A name at the end of the entry is copied whole. -/
theorem copy_last {name : List UInt8} (h : FileName name) : (sys_copy_str name).1 = name :=
  List.takeWhile_eq_self_iff.mpr fun _ hc =>
    decide_eq_true fun heq => h.not_mem (by decide : (ch ' ').toNat < 33) (heq ▸ hc)

/-- **The boot files are read** as they were printed. -/
theorem parse_boot_text (h : f.Ok) (old : BootFiles) : parse_boot_file (boot_text f) old = f := by
  have hfind₁ : ∀ s, sys_find_str (ascii ['1', ':'] ++ s) (ascii ['1', ':']) =
      some (ascii ['1', ':'] ++ s) := fun s => find_str_here (by decide)
  have hspace : ∀ c ∈ [ch ' '], Strto.toupper c ≠ Strto.toupper (ch '2') := by
    intro c hc
    rw [List.mem_singleton.mp hc]
    decide
  have hfind₂ : ∀ s, sys_find_str (ch ' ' :: (ascii ['2', ':'] ++ s)) (ascii ['2', ':']) =
      some (ascii ['2', ':'] ++ s) := fun s =>
    (find_str_skip (t := [ch ' ']) (k := ascii ['2', ':']) hspace).trans
      (find_str_here (k := ascii ['2', ':']) (by decide))
  have hdrop₁ : ∀ s : List UInt8, (ascii ['1', ':'] ++ s).drop 2 = s := fun s => rfl
  have hdrop₂ : ∀ s : List UInt8, (ascii ['2', ':'] ++ s).drop 2 = s := fun s => rfl
  have hdrop : ∀ s : List UInt8, (ch ' ' :: s).drop 1 = s := fun s => rfl
  rw [parse_boot_file, boot_text, hfind₁]
  simp only [hdrop₁, str2value_hex, find_space, hdrop, copy_name h.1, hfind₂, hdrop₂,
    copy_last h.2]

end Boot

end CsBoot.Vctl
