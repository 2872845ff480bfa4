/-
Whether the command line stays inside its arrays.

Each key keeps the line a string of as many characters as `total` says, and each line of
the history a string that ends in its 80 bytes. So what a key writes is known from the
length of the line and, when a command is called, from the number of its arguments. A space
is put into the line however long it is, an argument into `argv` however many there are, and
a line that is taken back is a format for `printf` whatever is in it: every other key is safe,
and a run is safe exactly if its spaces, characters, commands and lines taken back are
(`cli_in_bounds_iff`).
-/
import CsBoot.Lib.Run
import CsBoot.Ui.Cli

set_option autoImplicit false

namespace CsBoot.Cli

open CString

/-! ## What is asked of a run -/

/-- The place is in its array. -/
def Place.Inside : Place → Prop
  | .buf i => i < CLI_MAX_CHARS + 1
  | .line k i => k < CLI_MAX_HISTORY ∧ i < CLI_MAX_CHARS
  | .argv i => i < CLI_MAX_ARGUMENTS

/-- Only the arrays were written to, the counters are those of something in them, and no line
had `printf` ask for what it was not given. -/
structure InBounds (cli : CLI_INFO_T) : Prop where
  written : ∀ w ∈ cli.written, w.Inside
  total : cli.total < CLI_MAX_CHARS + 1
  index : cli.history_index < CLI_MAX_HISTORY
  current : cli.current_history < CLI_MAX_HISTORY
  argc : cli.argc ≤ CLI_MAX_ARGUMENTS
  printf : cli.stray = false

/-! ## What a key has to meet -/

/-- The number of words, where spaces between double quotes do not count. -/
def words (in_word double_q : Bool) : List UInt8 → ℕ
  | [] => 0
  | c :: cs =>
    if c = KEY_SP ∧ double_q = false then words false false cs
    else (if in_word then 0 else 1) + words true (double_q ^^ (c = 0x22)) cs

/-- The command of the line is called with no more arguments than there is room for. -/
def ArgumentsFit (tables : ℕ → List CLI_CMD_T) (buf : ℕ → UInt8) : Prop :=
  ∀ r ∈ cli_command tables buf,
    r.2.handler.isSome = true → words false false (string buf r.1) ≤ CLI_MAX_ARGUMENTS

/-- Spaces, tabs and printable characters. -/
abbrev IsText (data : UInt8) : Prop :=
  data = KEY_TAB ∨ 0x20 ≤ data ∧ data ≤ 0x7f

/-- The keys of the history. -/
abbrev IsUp (data : UInt8) : Prop := data = KEY_CTRL_U ∨ data = ARROW_U
abbrev IsDown (data : UInt8) : Prop := data = ARROW_D ∨ data = KEY_CTRL_D ∨ data = KEY_CTRL_N

/-- The line of the history, if there is one, is a format that stands alone. -/
def RecallFits (cli : CLI_INFO_T) (k : ℕ) : Prop :=
  cli.history_total ≠ 0 → Printf.stands_alone (string (cli.history_buf k) 0) = true

/-- A character comes to fewer than 80 of them, and so does return, with a command whose
arguments fit; and a line that is taken back can be printed. -/
def KeyFits (tables : ℕ → List CLI_CMD_T) (cli : CLI_INFO_T) (data : UInt8) : Prop :=
  cli.cli_exit_flag = true ∨
    (IsText data → cli.total < CLI_MAX_CHARS) ∧
      (data = KEY_CR ∨ data = KEY_LF →
        cli.total < CLI_MAX_CHARS ∧
          ArgumentsFit tables (Function.update cli.buf cli.total 0)) ∧
      (IsUp data → RecallFits cli (up_history cli)) ∧
      (IsDown data → RecallFits cli (down_history cli))

instance decidableArgumentsFit (tables : ℕ → List CLI_CMD_T) (buf : ℕ → UInt8) :
    Decidable (ArgumentsFit tables buf) :=
  inferInstanceAs (Decidable (∀ r ∈ cli_command tables buf, _ → _ ≤ _))

instance decidableRecallFits (cli : CLI_INFO_T) (k : ℕ) : Decidable (RecallFits cli k) :=
  inferInstanceAs (Decidable (_ → _ = _))

instance decidableKeyFits (tables : ℕ → List CLI_CMD_T) (cli : CLI_INFO_T) (data : UInt8) :
    Decidable (KeyFits tables cli data) :=
  inferInstanceAs (Decidable (_ ∨ (_ → _) ∧ (_ → _ ∧ _) ∧ (_ → _) ∧ (_ → _)))

/-! ## Pointers into the line -/

section Line

variable {buf : ℕ → UInt8} {p n : ℕ} {l : List UInt8} {q : Bool}

theorem string_zero (h : Str buf p 0) : string buf p = [] := by
  rw [string, h.text_eq (by omega)]
  rfl

theorem strlen_eq (h : Str buf 0 n) (hn : n < 256) : strlen buf = n := h.length_text hn

/-- Behind the spaces comes something else. -/
theorem skip_spaces_spec (h : Str buf p n) (hn : n < 256) :
    ∃ k, k ≤ n ∧ skip_spaces buf p = p + k ∧ buf (p + k) ≠ KEY_SP ∧
      string buf (p + k) = (string buf p).dropWhile (· = KEY_SP) := by
  obtain ⟨k, rfl, hle, hnot, hrest⟩ := h.skip hn (q := (· = KEY_SP)) rfl
  exact ⟨_, hle, rfl, of_decide_eq_false hnot, hrest⟩

/-! The arguments of a line. -/

theorem words_skip : words false false (l.dropWhile (· = KEY_SP)) = words false false l := by
  induction l with
  | nil => rfl
  | cons c cs ih =>
    by_cases hc : c = KEY_SP
    · rw [List.dropWhile_cons_of_pos (by simpa using hc), ih, words, if_pos ⟨hc, rfl⟩]
    · rw [List.dropWhile_cons_of_neg (by simpa using hc)]

/-- A word ends where the next argument begins to be looked for. -/
theorem words_in_word : words true q l = words false false (l.drop (arg_length q l)) := by
  induction l generalizing q with
  | nil => rfl
  | cons c cs ih =>
    by_cases hc : c = KEY_SP ∧ q = false
    · rw [words, arg_length, if_pos hc, if_pos hc, List.drop_zero, words, if_pos ⟨hc.1, rfl⟩]
    · rw [words, arg_length, if_neg hc, if_neg hc, List.drop_succ_cons, ih]
      exact Nat.zero_add _

theorem arg_length_le : arg_length q l ≤ l.length := by
  induction l generalizing q with
  | nil => exact le_rfl
  | cons c cs ih =>
    rw [arg_length]
    split
    · exact Nat.zero_le _
    · exact Nat.succ_le_succ ih

/-- An argument that is not the rest of the line ends at a space. -/
theorem arg_length_space (h : arg_length q l < l.length) :
    ∃ rest, l.drop (arg_length q l) = KEY_SP :: rest := by
  induction l generalizing q with
  | nil => exact absurd h (Nat.not_lt_zero _)
  | cons c cs ih =>
    rw [arg_length] at h ⊢
    by_cases hc : c = KEY_SP ∧ q = false
    · rw [if_pos hc, List.drop_zero, hc.1]
      exact ⟨cs, rfl⟩
    · rw [if_neg hc, List.length_cons] at h
      rw [if_neg hc, List.drop_succ_cons]
      exact ih (Nat.lt_of_succ_lt_succ h)

/-- A character begins an argument. -/
theorem words_first {c : UInt8} (hc : c ≠ KEY_SP) :
    0 < arg_length false (c :: l) ∧
      words false false (c :: l) =
        words false false ((c :: l).drop (arg_length false (c :: l))) + 1 := by
  have hnot : ¬ (c = KEY_SP ∧ false = false) := fun h => hc h.1
  constructor
  · rw [arg_length, if_neg hnot]
    exact Nat.succ_pos _
  · rw [words, arg_length, if_neg hnot, if_neg hnot, words_in_word, List.drop_succ_cons]
    exact Nat.add_comm _ _

end Line

/-! ## `cli_parse_argument` -/

section Arguments

variable {cli : CLI_INFO_T} {p n : ℕ}

def AllInside (cli : CLI_INFO_T) : Prop := ∀ w ∈ cli.written, w.Inside

theorem allInside_set_buf (i : ℕ) (c : UInt8) :
    AllInside (cli.set_buf i c) ↔ AllInside cli ∧ i < CLI_MAX_CHARS + 1 := by
  exact List.forall_mem_append.trans (and_congr_right' List.forall_mem_singleton)

theorem allInside_set_argv (i p : ℕ) :
    AllInside (cli.set_argv i p) ↔ AllInside cli ∧ i < CLI_MAX_ARGUMENTS := by
  exact List.forall_mem_append.trans (and_congr_right' List.forall_mem_singleton)

/-- The variables that the parser leaves alone. -/
def SameLine (cli cli' : CLI_INFO_T) : Prop :=
  ∃ argc argv buf written,
    cli' = { cli with argc := argc, argv := argv, buf := buf, written := written }

theorem SameLine.refl : SameLine cli cli := ⟨_, _, _, _, rfl⟩

theorem SameLine.trans {cli₁ cli₂ : CLI_INFO_T} (h : SameLine cli cli₁) (h' : SameLine cli₁ cli₂) :
    SameLine cli cli₂ := by
  obtain ⟨_, _, _, _, rfl⟩ := h
  obtain ⟨_, _, _, _, rfl⟩ := h'
  exact ⟨_, _, _, _, rfl⟩

/-- The end of the line. -/
theorem get_argument_ptr_zero (h : Str cli.buf p 0) : cli_get_argument_ptr cli p = (cli, none) := by
  have hcut : ¬ cli.buf p = KEY_SP := by
    have hzero : cli.buf p = 0 := h.zero
    rw [hzero]
    decide
  simp only [cli_get_argument_ptr, string_zero h, arg_length, Nat.add_zero, if_neg hcut]
  rfl

/-- An argument is cut off: what follows it is as it was, without the spaces, and the only byte
that is written is the first of these. -/
theorem get_argument_ptr_cut (cli : CLI_INFO_T) (h : Str cli.buf p (n + 1))
    (hn : p + (n + 1) < CLI_MAX_CHARS + 1) (hsp : cli.buf p ≠ KEY_SP) :
    ∃ cli' k, cli_get_argument_ptr cli p = (cli', some (p + k)) ∧
      0 < arg_length false (string cli.buf p) ∧ arg_length false (string cli.buf p) ≤ k ∧
      k ≤ n + 1 ∧ Str cli'.buf (p + k) (n + 1 - k) ∧ cli'.buf (p + k) ≠ KEY_SP ∧
      string cli'.buf (p + k) =
        ((string cli.buf p).drop (arg_length false (string cli.buf p))).dropWhile (· = KEY_SP) ∧
      (cli' = cli.set_buf (p + arg_length false (string cli.buf p)) 0 ∧
          p + arg_length false (string cli.buf p) < CLI_MAX_CHARS + 1 ∨
        cli' = cli ∧ cli.buf (p + arg_length false (string cli.buf p)) = 0) := by
  have hn256 : n + 1 < 256 := by
    rw [CLI_MAX_CHARS] at hn
    omega
  have hcons : string cli.buf p = cli.buf p :: string cli.buf (p + 1) := h.text_cons hn256
  obtain ⟨hpos, -⟩ := words_first (l := string cli.buf (p + 1)) hsp
  rw [← hcons] at hpos
  have hle : arg_length false (string cli.buf p) ≤ n + 1 := by
    have := arg_length_le (q := false) (l := string cli.buf p)
    rwa [string, h.length_text hn256] at this
  have hdrop : string cli.buf (p + arg_length false (string cli.buf p)) =
      (string cli.buf p).drop (arg_length false (string cli.buf p)) := h.text_add hn256 hle
  rw [← hdrop]
  have hrest := h.drop hle
  generalize hf : arg_length false (string cli.buf p) = found at *
  by_cases hcut : cli.buf (p + found) = KEY_SP
  · -- the space is not the zero, so the line goes on behind it
    have hlt : found < n + 1 := by
      by_contra hge
      obtain rfl : found = n + 1 := by omega
      rw [h.zero] at hcut
      exact absurd hcut (by decide)
    obtain ⟨r, rfl⟩ : ∃ r, n = found + r := ⟨n - found, by omega⟩
    rw [show found + r + 1 - found = r + 1 by omega] at hrest
    have htail := hrest.drop (k := 1) (by omega)
    rw [Nat.add_sub_cancel] at htail
    have hsame : ∀ i, i ≤ r →
        (cli.set_buf (p + found) 0).buf (p + found + 1 + i) = cli.buf (p + found + 1 + i) :=
      fun i _ => Function.update_of_ne (by omega) ..
    have htail' := htail.congr hsame
    have hstring : string (cli.set_buf (p + found) 0).buf (p + found + 1) =
        string cli.buf (p + found + 1) := htail.text_congr (by omega) hsame
    have hspace : (string cli.buf (p + found)).dropWhile (· = KEY_SP) =
        (string cli.buf (p + found + 1)).dropWhile (· = KEY_SP) := by
      have hhead : string cli.buf (p + found) =
          cli.buf (p + found) :: string cli.buf (p + found + 1) := hrest.text_cons (by omega)
      rw [hhead, List.dropWhile_cons_of_pos (by simpa using hcut)]
    obtain ⟨k, hk, hptr, hnot, hskip⟩ := skip_spaces_spec htail' (by omega)
    have hplace : p + (found + 1 + k) = p + found + 1 + k := by omega
    refine ⟨cli.set_buf (p + found) 0, found + 1 + k, ?_, hpos, by omega, by omega, ?_, ?_, ?_,
      .inl ⟨rfl, by omega⟩⟩
    · rw [hplace]
      simp only [cli_get_argument_ptr, hf, if_pos hcut, hptr, if_pos hpos.ne']
    · have hend := htail'.drop hk
      rw [hplace, show found + r + 1 - (found + 1 + k) = r - k by omega]
      exact hend
    · rw [hplace]
      exact hnot
    · rw [hplace, hskip, hspace, hstring]
  · -- only the zero ends an argument that no space does
    have hend : found = n + 1 := by
      by_contra hne
      have hlt : arg_length false (string cli.buf p) < (string cli.buf p).length := by
        rw [hf, string, h.length_text hn256]
        omega
      obtain ⟨rest, hspace⟩ := arg_length_space hlt
      rw [hf, ← hdrop] at hspace
      obtain ⟨r, rfl⟩ : ∃ r, n = found + r := ⟨n - found, by omega⟩
      rw [show found + r + 1 - found = r + 1 by omega] at hrest
      have hhead : string cli.buf (p + found) =
          cli.buf (p + found) :: string cli.buf (p + found + 1) := hrest.text_cons (by omega)
      rw [hhead] at hspace
      exact hcut (List.cons.inj hspace).1
    have hzero : Str cli.buf (p + found) 0 := by
      rw [hend, Nat.sub_self] at hrest
      rw [hend]
      exact hrest
    have hskip : skip_spaces cli.buf (p + found) = p + found := by
      rw [skip_spaces, string_zero hzero]
      rfl
    refine ⟨cli, found, ?_, hpos, le_rfl, hle, hrest, hcut, ?_, .inr ⟨rfl, hzero.zero⟩⟩
    · simp only [cli_get_argument_ptr, hf, if_neg hcut, hskip, if_pos hpos.ne']
    · rw [string_zero hzero]
      rfl

/-- The pointer is at the next argument or at the end, and there is one word less. -/
theorem get_argument_ptr_word (cli : CLI_INFO_T) (h : Str cli.buf p (n + 1))
    (hn : p + (n + 1) < CLI_MAX_CHARS + 1)
    (hsp : cli.buf p ≠ KEY_SP) :
    ∃ cli' k, cli_get_argument_ptr cli p = (cli', some (p + k)) ∧ 0 < k ∧ k ≤ n + 1 ∧
      Str cli'.buf (p + k) (n + 1 - k) ∧ cli'.buf (p + k) ≠ KEY_SP ∧
      words false false (string cli.buf p) =
        words false false (string cli'.buf (p + k)) + 1 ∧
      cli'.argc = cli.argc ∧ (AllInside cli' ↔ AllInside cli) ∧ SameLine cli cli' := by
  obtain ⟨cli', k, hptr, hpos, hfound, hk, hstr, hnot, hrest, hcut⟩ :=
    get_argument_ptr_cut cli h hn hsp
  have hwords : words false false (string cli.buf p) =
      words false false (string cli'.buf (p + k)) + 1 := by
    have hcons : string cli.buf p = cli.buf p :: string cli.buf (p + 1) :=
      h.text_cons (by unfold CLI_MAX_CHARS at hn; omega)
    rw [hrest, words_skip, hcons]
    exact (words_first hsp).2
  refine ⟨cli', k, hptr, by omega, hk, hstr, hnot, hwords, ?_⟩
  obtain ⟨rfl, hin⟩ | ⟨rfl, -⟩ := hcut
  · exact ⟨rfl, (allInside_set_buf _ _).trans (and_iff_left hin), _, _, _, _, rfl⟩
  · exact ⟨rfl, Iff.rfl, SameLine.refl⟩

/-- The loop from an argument on: it counts the rest of them, and stays in `argv` exactly if
they have room. -/
theorem parse_loop (cli : CLI_INFO_T) (fuel : ℕ) (h : Str cli.buf p n)
    (hn : p + n < CLI_MAX_CHARS + 1)
    (hsp : cli.buf p ≠ KEY_SP) (hfuel : n < fuel) (hargc : cli.argc + n < 256) :
    (cli_parse_loop fuel cli p).argc = cli.argc + words false false (string cli.buf p) ∧
      (AllInside (cli_parse_loop fuel cli p) ↔
        AllInside cli ∧ (words false false (string cli.buf p) = 0 ∨
          cli.argc + words false false (string cli.buf p) ≤ CLI_MAX_ARGUMENTS)) ∧
      SameLine cli (cli_parse_loop fuel cli p) := by
  -- each argument has a character at least
  induction fuel generalizing cli p n with
  | zero => exact absurd hfuel (Nat.not_lt_zero n)
  | succ fuel ih =>
    cases n with
    | zero =>
      have hzero : ¬ cli.buf p ≠ 0 := not_not.mpr h.zero
      have hloop : cli_parse_loop (fuel + 1) cli p = cli := by
        simp only [cli_parse_loop, if_neg hzero, get_argument_ptr_zero h]
      rw [hloop, string_zero h]
      exact ⟨rfl, (and_iff_left (.inl rfl)).symm, SameLine.refl⟩
    | succ n =>
      have hchar : cli.buf p ≠ 0 := h.chars 0 (Nat.succ_pos n)
      have hcount : (cli.argc + 1) % 256 = cli.argc + 1 := Nat.mod_eq_of_lt (by omega)
      obtain ⟨cli', k, hptr, hpos, hle, hstr, hsp', hwords, hargc', hinside, hsame⟩ :=
        get_argument_ptr_word { cli.set_argv cli.argc p with argc := cli.argc + 1 }
          h hn hsp
      have hloop : cli_parse_loop (fuel + 1) cli p = cli_parse_loop fuel cli' (p + k) := by
        simp only [cli_parse_loop, if_pos hchar, hcount, hptr]
      have hargc₁ : cli'.argc = cli.argc + 1 := hargc'
      obtain ⟨hcounts, hfits, hline⟩ := ih cli' hstr (by omega) hsp' (by omega) (by omega)
      rw [hargc₁] at hcounts hfits
      have hset : AllInside cli' ↔ AllInside cli ∧ cli.argc < CLI_MAX_ARGUMENTS :=
        hinside.trans (allInside_set_argv _ p)
      have hwords' : words false false (string cli.buf p) =
          words false false (string cli'.buf (p + k)) + 1 := hwords
      rw [hloop, hcounts, hfits, hset, hwords']
      refine ⟨by omega, ?_, (SameLine.trans ⟨_, _, _, _, rfl⟩ hsame).trans hline⟩
      rw [and_assoc]
      exact and_congr_right fun _ => by omega

/-- **`cli_parse_argument`** counts the arguments of the line. -/
theorem parse_argument (h : Str cli.buf p n) (hn : p + n < CLI_MAX_CHARS + 1)
    (hsp : cli.buf p ≠ KEY_SP) :
    (cli_parse_argument cli p).argc = words false false (string cli.buf p) ∧
      (AllInside (cli_parse_argument cli p) ↔
        AllInside cli ∧ words false false (string cli.buf p) ≤ CLI_MAX_ARGUMENTS) ∧
      SameLine cli (cli_parse_argument cli p) := by
  have hn256 : n < 256 := by
    rw [CLI_MAX_CHARS] at hn
    omega
  have hlength : (string cli.buf p).length = n := h.length_text hn256
  have hstart : ({ cli with argc := 0 }.set_argv 0 p).argc = 0 := rfl
  obtain ⟨hargc, hinside, hline⟩ :=
    parse_loop ({ cli with argc := 0 }.set_argv 0 p) ((string cli.buf p).length + 1)
      h hn hsp (by omega) (by omega)
  refine ⟨hargc.trans (Nat.zero_add _), hinside.trans ?_, SameLine.trans ⟨_, _, _, _, rfl⟩ hline⟩
  have hfirst : AllInside ({ cli with argc := 0 }.set_argv 0 p) ↔ AllInside cli :=
    (allInside_set_argv _ _).trans (and_iff_left (by decide))
  have hstring : string ({ cli with argc := 0 }.set_argv 0 p).buf p = string cli.buf p := rfl
  rw [hfirst, hstart, Nat.zero_add, hstring]
  exact and_congr_right fun _ => by omega

end Arguments

/-! ## `cli_parse_enter` -/

section Enter

variable {tables : ℕ → List CLI_CMD_T} {cli : CLI_INFO_T} {buf : ℕ → UInt8} {p n : ℕ}

/-- A name ends inside the line, and the next one begins there too. -/
theorem get_name_ptr (h : Str buf p n) (hn : n < 256) {name : List UInt8} {p' : ℕ}
    (hname : cli_get_name buf p = some (name, p')) :
    ∃ k, p' = p + k ∧ 0 < k ∧ k ≤ n ∧ buf p' ≠ KEY_SP := by
  rw [cli_get_name] at hname
  split_ifs at hname with hnil
  obtain ⟨-, rfl⟩ := Prod.mk.inj (Option.some.inj hname)
  have hpos := List.length_pos_iff.mpr hnil
  have hle : (((string buf p).take (CLI_NAME_SIZE - 1)).takeWhile (· ≠ KEY_SP)).length ≤ n := by
    have hlength : (string buf p).length = n := h.length_text hn
    rw [← hlength]
    exact ((List.takeWhile_prefix _).trans (List.take_prefix _ _)).length_le
  obtain ⟨k, hk, hptr, hnot, -⟩ := skip_spaces_spec (h.drop hle) (by omega)
  rw [hptr]
  exact ⟨_, Nat.add_assoc .., by omega, by omega, hnot⟩

/-- The arguments are looked for inside the line. -/
theorem find_ptr {fuel current : ℕ} {old_cmd : Option CLI_CMD_T} (h : Str buf p n) (hn : n < 256)
    (hsp : buf p ≠ KEY_SP) {q : ℕ} {cmd : CLI_CMD_T}
    (hfind : cli_find tables buf fuel current p old_cmd = some (q, cmd)) :
    ∃ k, q = p + k ∧ k ≤ n ∧ buf q ≠ KEY_SP := by
  induction fuel generalizing current p n old_cmd with
  | zero => cases hfind
  | succ fuel ih =>
    rw [cli_find] at hfind
    cases hname : cli_get_name buf p with
    | none =>
      simp only [hname] at hfind
      obtain ⟨_, -, heq⟩ := Option.map_eq_some_iff.mp hfind
      obtain ⟨rfl, -⟩ := Prod.mk.inj heq
      exact ⟨0, rfl, Nat.zero_le n, hsp⟩
    | some r =>
      obtain ⟨name, p'⟩ := r
      obtain ⟨k, rfl, -, hk, hsp'⟩ := get_name_ptr h hn hname
      simp only [hname] at hfind
      split at hfind
      · next cmd' hmatched =>
        cases hnext : cmd'.next with
        | none =>
          simp only [hnext] at hfind
          obtain ⟨rfl, -⟩ := Prod.mk.inj (Option.some.inj hfind)
          exact ⟨0, rfl, Nat.zero_le n, hsp⟩
        | some next =>
          simp only [hnext] at hfind
          obtain ⟨k', rfl, hk', hq⟩ := ih (h.drop hk) (by omega) hsp' hfind
          exact ⟨k + k', Nat.add_assoc .., by omega, hq⟩
      · cases hfind

theorem command_ptr (h : Str buf 0 n) (hn : n < 256) {q : ℕ} {cmd : CLI_CMD_T}
    (hfind : cli_command tables buf = some (q, cmd)) : q ≤ n ∧ buf q ≠ KEY_SP := by
  obtain ⟨k, hk, hptr, hnot, -⟩ := skip_spaces_spec h hn
  rw [cli_command, hptr] at hfind
  obtain ⟨k', rfl, hk', hq⟩ := find_ptr (h.drop hk) (by omega) hnot hfind
  exact ⟨by omega, hq⟩

/-- The line that is empty is no command. -/
theorem command_empty (h : Str buf 0 0) : cli_command tables buf = none := by
  have hname : cli_get_name buf (skip_spaces buf 0) = none := by
    have hskip : skip_spaces buf 0 = 0 := by
      rw [skip_spaces, string_zero h]
      rfl
    rw [hskip, cli_get_name, string_zero h]
    rfl
  rw [cli_command, cli_find, hname]
  rfl

/-- The variables that the parser and the handler leave alone. -/
def SameInput (cli cli' : CLI_INFO_T) : Prop :=
  ∃ argc argv buf written cli_exit_flag,
    cli' = { cli with
      argc := argc, argv := argv, buf := buf, written := written, cli_exit_flag := cli_exit_flag }

/-- **`cli_parse_enter`** is inside `argv` exactly if the arguments have room there. -/
theorem parse_enter (tables : ℕ → List CLI_CMD_T) (h : Str cli.buf 0 n)
    (hn : n < CLI_MAX_CHARS + 1) :
    (AllInside (cli_parse_enter tables cli) ↔ AllInside cli ∧ ArgumentsFit tables cli.buf) ∧
      (ArgumentsFit tables cli.buf → cli.argc ≤ CLI_MAX_ARGUMENTS →
        (cli_parse_enter tables cli).argc ≤ CLI_MAX_ARGUMENTS) ∧
      SameInput cli (cli_parse_enter tables cli) := by
  have hn256 : n < 256 := by
    rw [CLI_MAX_CHARS] at hn
    omega
  -- without a command, or one that has a handler, nothing is parsed
  cases hfind : cli_command tables cli.buf with
  | none =>
    have hsame : cli_parse_enter tables cli = cli := by rw [cli_parse_enter, hfind]
    have hfit : ArgumentsFit tables cli.buf := by
      rw [ArgumentsFit, hfind]
      exact nofun
    rw [hsame]
    exact ⟨(and_iff_left hfit).symm, fun _ hargc => hargc, _, _, _, _, _, rfl⟩
  | some r =>
    obtain ⟨q, cmd⟩ := r
    cases hhandler : cmd.handler with
    | none =>
      have hsame : cli_parse_enter tables cli = cli := by
        simp only [cli_parse_enter, hfind, hhandler]
      have hfit : ArgumentsFit tables cli.buf := by
        rw [ArgumentsFit, hfind]
        rintro _ ⟨⟩ hsome
        rw [hhandler] at hsome
        cases hsome
      rw [hsame]
      exact ⟨(and_iff_left hfit).symm, fun _ hargc => hargc, _, _, _, _, _, rfl⟩
    | some handler =>
      obtain ⟨hq, hsp⟩ := command_ptr h hn256 hfind
      have hrest := h.drop hq
      rw [Nat.zero_add] at hrest
      obtain ⟨hargc, hinside, argc, argv, buf, written, hline⟩ :=
        parse_argument hrest (by omega) hsp
      have hfit : ArgumentsFit tables cli.buf ↔
          words false false (string cli.buf q) ≤ CLI_MAX_ARGUMENTS := by
        simp only [ArgumentsFit, hfind, Option.mem_some_iff, forall_eq', hhandler,
          Option.isSome_some, forall_true_left]
      have hcall : cli_parse_enter tables cli =
          { cli_parse_argument cli q with
            buf := (handler (cli_parse_argument cli q).argc (cli_parse_argument cli q).argv
              (cli_parse_argument cli q).buf).1
            cli_exit_flag := (cli_parse_argument cli q).cli_exit_flag ||
              (handler (cli_parse_argument cli q).argc (cli_parse_argument cli q).argv
                (cli_parse_argument cli q).buf).2 } := by
        simp only [cli_parse_enter, hfind, hhandler]
      rw [hfit, hcall]
      refine ⟨hinside, fun hwords _ => hargc.trans_le hwords, ?_⟩
      rw [hline]
      exact ⟨_, _, _, _, _, rfl⟩

end Enter

/-! ## Keys -/

/-- What every key keeps: the line has no zero before `total`, and each line of the history
ends inside its array. -/
structure Inv (cli : CLI_INFO_T) : Prop where
  bounds : InBounds cli
  history_total : cli.history_total ≤ CLI_MAX_HISTORY
  chars : ∀ i, i < cli.total → cli.buf i ≠ 0
  lines : ∀ k, k < CLI_MAX_HISTORY → ∃ n, n < CLI_MAX_CHARS ∧ Str (cli.history_buf k) 0 n

theorem inv_start : Inv cli_start where
  bounds := ⟨nofun, by decide, by decide, by decide, by decide, rfl⟩
  history_total := by decide
  chars := fun i hi => absurd hi (Nat.not_lt_zero i)
  lines := fun k _ => ⟨0, by decide, fun i hi => absurd hi (Nat.not_lt_zero i), rfl⟩

section Keys

variable {tables : ℕ → List CLI_CMD_T} {cli : CLI_INFO_T} {c : UInt8} {k : ℕ}

theorem inv_put (h : Inv cli) (hc : c ≠ 0) (hroom : cli.total < CLI_MAX_CHARS) :
    Inv (cli_put cli c) := by
  have htotal : (cli_put cli c).total = cli.total + 1 := by
    rw [CLI_MAX_CHARS] at hroom
    exact Nat.mod_eq_of_lt (by omega)
  refine ⟨⟨?_, ?_, h.bounds.index, h.bounds.current, h.bounds.argc, h.bounds.printf⟩,
    h.history_total, ?_, h.lines⟩
  · exact (allInside_set_buf _ 0).mpr
      ⟨(allInside_set_buf _ c).mpr ⟨h.bounds.written, h.bounds.total⟩, Nat.succ_lt_succ hroom⟩
  · rw [htotal]
    exact Nat.succ_lt_succ hroom
  · intro i hi
    rw [htotal] at hi
    show Function.update (Function.update cli.buf cli.total c) (cli.total + 1) 0 i ≠ 0
    rw [Function.update_of_ne hi.ne]
    by_cases hlast : i = cli.total
    · rw [hlast, Function.update_self]
      exact hc
    · rw [Function.update_of_ne hlast]
      exact h.chars i (by omega)

/-- The second byte that is stored has to be in the line. -/
theorem room_of_put (h : AllInside (cli_put cli c)) : cli.total < CLI_MAX_CHARS :=
  Nat.lt_of_succ_lt_succ ((allInside_set_buf _ 0).mp h).2

theorem inv_total_zero (h : Inv cli) (hk : k < CLI_MAX_HISTORY) :
    Inv { cli with total := 0, current_history := k } :=
  ⟨⟨h.bounds.written, Nat.succ_pos _, h.bounds.index, hk, h.bounds.argc, h.bounds.printf⟩,
    h.history_total, fun i hi => absurd hi (Nat.not_lt_zero i), h.lines⟩

theorem inv_char (h : Inv cli) (hc : c ≠ 0) (hroom : cli.total < CLI_MAX_CHARS) :
    Inv (cli_char cli c) := by
  have hput := inv_put h hc hroom
  rw [cli_char]
  split
  · exact inv_total_zero hput hput.bounds.current
  · exact hput

theorem room_of_char (h : AllInside (cli_char cli c)) : cli.total < CLI_MAX_CHARS := by
  rw [cli_char] at h
  split at h <;> exact room_of_put h

theorem inv_back (h : Inv cli) : Inv (cli_back cli) := by
  rw [cli_back]
  split
  · refine ⟨⟨?_, ?_, h.bounds.index, h.bounds.current, h.bounds.argc, h.bounds.printf⟩,
      h.history_total, ?_, h.lines⟩
    · exact (allInside_set_buf _ 0).mpr ⟨h.bounds.written, h.bounds.total⟩
    · exact (Nat.sub_le ..).trans_lt h.bounds.total
    · intro i hi
      have hlt : i < cli.total := hi.trans_le (Nat.sub_le ..)
      show Function.update cli.buf cli.total 0 i ≠ 0
      rw [Function.update_of_ne hlt.ne]
      exact h.chars i hlt
  · exact h

/-- A line of the history fits into `buf`. -/
theorem recall_buf (h : Inv cli) (hk : k < CLI_MAX_HISTORY) :
    ∃ n, n < CLI_MAX_CHARS ∧ strlen (cli.history_buf k) = n ∧ Str (cli_recall cli k).buf 0 n ∧
      (cli_recall cli k).total = n ∧
      string (cli_recall cli k).buf 0 = string (cli.history_buf k) 0 := by
  obtain ⟨n, hn, hstr⟩ := h.lines k hk
  have hn256 : n < 256 := by
    rw [CLI_MAX_CHARS] at hn
    omega
  have hlen : strlen (cli.history_buf k) = n := strlen_eq hstr hn256
  have hbuf : ∀ i, i ≤ n → (cli_recall cli k).buf (0 + i) = cli.history_buf k (0 + i) := by
    intro i hi
    rw [Nat.zero_add]
    exact if_pos (hlen.symm ▸ hi)
  have hcopy : Str (cli_recall cli k).buf 0 n := hstr.congr hbuf
  exact ⟨n, hn, hlen, hcopy, strlen_eq hcopy hn256, hstr.text_congr hn256 hbuf⟩

/-- It is printed. -/
theorem recall_stray (h : Inv cli) (hk : k < CLI_MAX_HISTORY) :
    (cli_recall cli k).stray = false ↔
      Printf.stands_alone (string (cli.history_buf k) 0) = true := by
  obtain ⟨-, -, -, -, -, hstring⟩ := recall_buf h hk
  have hstray : (cli_recall cli k).stray =
      (cli.stray || !Printf.stands_alone (string (cli_recall cli k).buf 0)) := rfl
  rw [hstray, hstring, h.bounds.printf, Bool.false_or, Bool.not_eq_false']

theorem inv_recall (h : Inv cli) (hk : k < CLI_MAX_HISTORY)
    (hprint : Printf.stands_alone (string (cli.history_buf k) 0) = true) :
    Inv (cli_recall cli k) := by
  obtain ⟨n, hn, hlen, hcopy, htotal, -⟩ := recall_buf h hk
  refine ⟨⟨?_, ?_, h.bounds.index, hk, h.bounds.argc, (recall_stray h hk).mpr hprint⟩,
    h.history_total, ?_, h.lines⟩
  · refine List.forall_mem_append.mpr ⟨h.bounds.written, fun w hw => ?_⟩
    obtain ⟨i, hi, rfl⟩ := List.mem_map.mp hw
    have hi' : i < n + 1 := hlen ▸ List.mem_range.mp hi
    exact (Nat.lt_succ_iff.mp hi').trans_lt (hn.trans (Nat.lt_succ_self _))
  · rw [htotal]
    exact hn.trans (Nat.lt_succ_self _)
  · intro i hi
    rw [htotal] at hi
    have hchar := hcopy.chars i hi
    rwa [Nat.zero_add] at hchar

theorem up_history_lt (h : Inv cli) : up_history cli < CLI_MAX_HISTORY := by
  have hle := h.history_total
  have hcurrent := h.bounds.current
  unfold up_history
  rw [CLI_MAX_HISTORY] at hle hcurrent ⊢
  split <;> omega

theorem down_history_lt (h : Inv cli) : down_history cli < CLI_MAX_HISTORY := by
  have hle := h.history_total
  unfold down_history
  split
  · decide
  · omega

/-- **The history keys** are in bounds exactly if the line can be printed. -/
theorem up_spec (h : Inv cli) :
    (InBounds (cli_up cli) → RecallFits cli (up_history cli)) ∧
      (RecallFits cli (up_history cli) → Inv (cli_up cli)) := by
  rw [cli_up]
  by_cases htotal : cli.history_total ≠ 0
  · have hlt := up_history_lt h
    rw [if_pos htotal]
    exact ⟨fun hin _ => (recall_stray h hlt).mp hin.printf,
      fun hfit => inv_recall h hlt (hfit htotal)⟩
  · rw [if_neg htotal]
    exact ⟨fun _ hne => absurd hne htotal, fun _ => h⟩

theorem down_spec (h : Inv cli) :
    (InBounds (cli_down cli) → RecallFits cli (down_history cli)) ∧
      (RecallFits cli (down_history cli) → Inv (cli_down cli)) := by
  rw [cli_down]
  by_cases htotal : cli.history_total ≠ 0
  · have hlt := down_history_lt h
    rw [if_pos htotal]
    exact ⟨fun hin _ => (recall_stray h hlt).mp hin.printf,
      fun hfit => inv_recall h hlt (hfit htotal)⟩
  · rw [if_neg htotal]
    exact ⟨fun _ hne => absurd hne htotal, fun _ => h⟩

/-! ### Return -/

/-- The line with its zero. -/
theorem str_ended (h : Inv cli) : Str (Function.update cli.buf cli.total 0) 0 cli.total where
  chars := fun i hi => by
    rw [Nat.zero_add, Function.update_of_ne hi.ne]
    exact h.chars i hi
  zero := by rw [Nat.zero_add, Function.update_self]

/-- A line goes into the history, where it has to have less than 80 characters. -/
theorem remember_inside {n : ℕ} (hlen : strlen cli.buf = n)
    (hindex : cli.history_index < CLI_MAX_HISTORY) :
    AllInside (cli_remember cli) ↔ AllInside cli ∧ n < CLI_MAX_CHARS := by
  refine List.forall_mem_append.trans (and_congr_right fun _ => ?_)
  rw [hlen]
  constructor
  · intro h
    exact (h _ (List.mem_map.mpr ⟨n, List.self_mem_range_succ, rfl⟩)).2
  · intro hn w hw
    obtain ⟨i, hi, rfl⟩ := List.mem_map.mp hw
    exact ⟨hindex, (Nat.lt_succ_iff.mp (List.mem_range.mp hi)).trans_lt hn⟩

/-- The other lines stay as they are. -/
theorem remember_lines {n : ℕ} (hstr : Str cli.buf 0 n) (hn : n < CLI_MAX_CHARS)
    (hlines : ∀ k, k < CLI_MAX_HISTORY → ∃ n, n < CLI_MAX_CHARS ∧ Str (cli.history_buf k) 0 n) :
    ∀ k, k < CLI_MAX_HISTORY →
      ∃ n, n < CLI_MAX_CHARS ∧ Str ((cli_remember cli).history_buf k) 0 n := by
  intro k hk
  by_cases hself : k = cli.history_index
  · refine ⟨n, hn, hstr.congr fun i hi => ?_⟩
    have hlen : strlen cli.buf = n := strlen_eq hstr (by rw [CLI_MAX_CHARS] at hn; omega)
    show Function.update cli.history_buf cli.history_index _ k (0 + i) = _
    rw [hself, Function.update_self, if_pos (by omega)]
  · have hother : (cli_remember cli).history_buf k = cli.history_buf k :=
      Function.update_of_ne hself ..
    rw [hother]
    exact hlines k hk

/-- An empty line is not looked at. -/
theorem enter_empty (hlen : strlen (cli_end cli).buf = 0) :
    cli_enter tables cli =
      { cli_end cli with total := 0, current_history := cli.history_index } := by
  simp only [cli_enter, if_neg (not_not.mpr hlen)]
  rfl

theorem enter_line (hlen : strlen (cli_end cli).buf ≠ 0) :
    cli_enter tables cli =
      { cli_parse_enter tables (cli_remember (cli_end cli)) with
        total := 0
        current_history :=
          (cli_parse_enter tables (cli_remember (cli_end cli))).history_index } := by
  simp only [cli_enter, if_pos hlen]

/-- **Return** is in bounds exactly if the line has less than 80 characters and its command
has room for the arguments. -/
theorem enter_spec (tables : ℕ → List CLI_CMD_T) (h : Inv cli) :
    (AllInside (cli_enter tables cli) →
      cli.total < CLI_MAX_CHARS ∧ ArgumentsFit tables (Function.update cli.buf cli.total 0)) ∧
    (cli.total < CLI_MAX_CHARS → ArgumentsFit tables (Function.update cli.buf cli.total 0) →
      Inv (cli_enter tables cli)) := by
  have hstr : Str (cli_end cli).buf 0 cli.total := str_ended h
  have hlen : strlen (cli_end cli).buf = cli.total := by
    have htotal := h.bounds.total
    rw [CLI_MAX_CHARS] at htotal
    exact strlen_eq hstr (by omega)
  have hended : AllInside (cli_end cli) :=
    (allInside_set_buf cli.total 0).mpr ⟨h.bounds.written, h.bounds.total⟩
  -- an empty line is not remembered, and has no command
  by_cases hzero : cli.total = 0
  · rw [enter_empty (hlen.trans hzero)]
    constructor
    · intro _
      refine ⟨hzero.trans_lt (by decide), ?_⟩
      rw [hzero] at hstr
      rw [ArgumentsFit,
        command_empty (show Str (Function.update cli.buf cli.total 0) 0 0 from hstr)]
      exact nofun
    · intro _ _
      exact ⟨⟨hended, Nat.succ_pos _, h.bounds.index, h.bounds.index, h.bounds.argc,
        h.bounds.printf⟩, h.history_total, fun i hi => absurd hi (Nat.not_lt_zero i), h.lines⟩
  · rw [enter_line (hlen ▸ hzero)]
    -- what is remembered needs room for its zero, and the arguments need theirs
    have hroom := remember_inside hlen h.bounds.index
    obtain ⟨hinside, hargc, argc, argv, buf, written, flag, hsame⟩ :=
      parse_enter tables (show Str (cli_remember (cli_end cli)).buf 0 cli.total from hstr)
        h.bounds.total
    constructor
    · intro hall
      obtain ⟨hremember, hfit⟩ := hinside.mp hall
      exact ⟨(hroom.mp hremember).2, hfit⟩
    · intro hlt hfit
      have hindex : (cli_remember (cli_end cli)).history_index < CLI_MAX_HISTORY := by
        show (if CLI_MAX_HISTORY ≤ cli.history_index + 1 then 0 else cli.history_index + 1) < _
        split
        · decide
        · omega
      have htotal : (cli_remember (cli_end cli)).history_total ≤ CLI_MAX_HISTORY := by
        have htotal := h.history_total
        show (if cli.history_total < CLI_MAX_HISTORY then _ else _) ≤ _
        split
        · exact Nat.succ_le_of_lt ‹_›
        · exact htotal
      have hlines := remember_lines hstr hlt h.lines
      have hall := hinside.mpr ⟨hroom.mpr ⟨hended, hlt⟩, hfit⟩
      have hfew := hargc hfit h.bounds.argc
      rw [hsame] at hall hfew ⊢
      exact ⟨⟨hall, Nat.succ_pos _, hindex, hindex, hfew, h.bounds.printf⟩, htotal,
        fun i hi => absurd hi (Nat.not_lt_zero i), hlines⟩

/-- A key that neither is a character nor ends the line nor takes one back. -/
theorem keyFits_other {data : UInt8} (htext : ¬ IsText data)
    (henter : ¬ (data = KEY_CR ∨ data = KEY_LF)) (hup : ¬ IsUp data) (hdown : ¬ IsDown data) :
    KeyFits tables cli data :=
  .inr ⟨fun h => absurd h htext, fun h => absurd h henter, fun h => absurd h hup,
    fun h => absurd h hdown⟩

theorem keyFits_text {data : UInt8} (hrun : cli.cli_exit_flag ≠ true) (htext : IsText data) :
    KeyFits tables cli data ↔ cli.total < CLI_MAX_CHARS := by
  have henter : ¬ (data = KEY_CR ∨ data = KEY_LF) := by
    rintro (rfl | rfl) <;> exact absurd htext (by decide)
  have hup : ¬ IsUp data := by
    rintro (rfl | rfl) <;> exact absurd htext (by decide)
  have hdown : ¬ IsDown data := by
    rintro (rfl | rfl | rfl) <;> exact absurd htext (by decide)
  rw [KeyFits, or_iff_right hrun]
  exact ⟨fun h => h.1 htext, fun h => ⟨fun _ => h, fun h' => absurd h' henter,
    fun h' => absurd h' hup, fun h' => absurd h' hdown⟩⟩

theorem keyFits_enter {data : UInt8} (hrun : cli.cli_exit_flag ≠ true)
    (henter : data = KEY_CR ∨ data = KEY_LF) :
    KeyFits tables cli data ↔
      cli.total < CLI_MAX_CHARS ∧ ArgumentsFit tables (Function.update cli.buf cli.total 0) := by
  have htext : ¬ IsText data := by
    rcases henter with rfl | rfl <;> decide
  have hup : ¬ IsUp data := by
    rcases henter with rfl | rfl <;> decide
  have hdown : ¬ IsDown data := by
    rcases henter with rfl | rfl <;> decide
  rw [KeyFits, or_iff_right hrun]
  exact ⟨fun h => h.2.1 henter, fun h => ⟨fun h' => absurd h' htext, fun _ => h,
    fun h' => absurd h' hup, fun h' => absurd h' hdown⟩⟩

theorem keyFits_up {data : UInt8} (hrun : cli.cli_exit_flag ≠ true) (hup : IsUp data) :
    KeyFits tables cli data ↔ RecallFits cli (up_history cli) := by
  have htext : ¬ IsText data := by
    rcases hup with rfl | rfl <;> decide
  have henter : ¬ (data = KEY_CR ∨ data = KEY_LF) := by
    rcases hup with rfl | rfl <;> decide
  have hdown : ¬ IsDown data := by
    rcases hup with rfl | rfl <;> decide
  rw [KeyFits, or_iff_right hrun]
  exact ⟨fun h => h.2.2.1 hup, fun h => ⟨fun h' => absurd h' htext, fun h' => absurd h' henter,
    fun _ => h, fun h' => absurd h' hdown⟩⟩

theorem keyFits_down {data : UInt8} (hrun : cli.cli_exit_flag ≠ true) (hdown : IsDown data) :
    KeyFits tables cli data ↔ RecallFits cli (down_history cli) := by
  have htext : ¬ IsText data := by
    rcases hdown with rfl | rfl | rfl <;> decide
  have henter : ¬ (data = KEY_CR ∨ data = KEY_LF) := by
    rcases hdown with rfl | rfl | rfl <;> decide
  have hup : ¬ IsUp data := by
    rcases hdown with rfl | rfl | rfl <;> decide
  rw [KeyFits, or_iff_right hrun]
  exact ⟨fun h => h.2.2.2 hdown, fun h => ⟨fun h' => absurd h' htext, fun h' => absurd h' henter,
    fun h' => absurd h' hup, fun _ => h⟩⟩

/-- Every key: it is in bounds exactly if it fits, and then the invariant is kept. -/
theorem key_spec (h : Inv cli) (data : UInt8) :
    (InBounds (cli_key tables cli data) → KeyFits tables cli data) ∧
      (KeyFits tables cli data → Inv (cli_key tables cli data)) := by
  by_cases hexit : cli.cli_exit_flag = true
  · rw [cli_key, if_pos hexit]
    exact ⟨fun _ => .inl hexit, fun _ => h⟩
  rw [cli_key, if_neg hexit]
  by_cases hback : data = KEY_BS ∨ data = ARROW_L
  · rw [if_pos hback]
    refine ⟨fun _ => ?_, fun _ => inv_back h⟩
    rcases hback with rfl | rfl <;>
      exact keyFits_other (by decide) (by decide) (by decide) (by decide)
  rw [if_neg hback]
  by_cases hspace : data = KEY_TAB ∨ data = KEY_SP
  · -- the only character that is put whatever the length of the line
    have hfits : KeyFits tables cli data ↔ cli.total < CLI_MAX_CHARS := by
      rcases hspace with rfl | rfl <;> exact keyFits_text hexit (by decide)
    rw [if_pos hspace, hfits]
    exact ⟨fun hin => room_of_put hin.written, inv_put h (by decide)⟩
  rw [if_neg hspace]
  by_cases henter : data = KEY_CR ∨ data = KEY_LF
  · rw [if_pos henter, keyFits_enter hexit henter]
    obtain ⟨hfits, hinv⟩ := enter_spec tables h
    exact ⟨fun hin => hfits hin.written, fun hfit => hinv hfit.1 hfit.2⟩
  rw [if_neg henter]
  by_cases hesc : data = KEY_ESC
  · rw [if_pos hesc]
    refine ⟨fun _ => ?_, fun _ => inv_total_zero h h.bounds.index⟩
    subst hesc
    exact keyFits_other (by decide) (by decide) (by decide) (by decide)
  rw [if_neg hesc]
  by_cases hup : IsUp data
  · rw [if_pos hup, keyFits_up hexit hup]
    exact up_spec h
  rw [if_neg hup]
  by_cases hdown : IsDown data
  · rw [if_pos hdown, keyFits_down hexit hdown]
    exact down_spec h
  rw [if_neg hdown]
  by_cases hother : data < 0x20 ∨ 0x7f < data
  · rw [if_pos hother]
    refine ⟨fun _ => keyFits_other ?_ henter hup hdown, fun _ => h⟩
    rintro (htab | ⟨hle, hge⟩)
    · exact hspace (.inl htab)
    · exact hother.elim (UInt8.not_lt.mpr hle) (UInt8.not_lt.mpr hge)
  · rw [not_or, UInt8.not_lt, UInt8.not_lt] at hother
    have hzero : data ≠ 0 := by
      rintro rfl
      exact absurd hother.1 (by decide)
    rw [if_neg (not_or.mpr ⟨UInt8.not_lt.mpr hother.1, UInt8.not_lt.mpr hother.2⟩),
      keyFits_text hexit (.inr hother)]
    exact ⟨fun hin => room_of_char hin.written, inv_char h hzero⟩

end Keys

/-! ## Every run -/

/-- From any state that the invariant allows. -/
theorem run_in_bounds_iff {tables : ℕ → List CLI_CMD_T} {cli : CLI_INFO_T} (h : Inv cli)
    (keys : List UInt8) :
    EveryStep (cli_key tables) (fun cli data => InBounds (cli_key tables cli data)) cli keys ↔
      EveryStep (cli_key tables) (KeyFits tables) cli keys :=
  EveryStep.iff_of_invariant h
    (fun _ data h => ⟨(key_spec h data).1, fun hfit => ((key_spec h data).2 hfit).bounds⟩)
    (fun _ data h hfit => (key_spec h data).2 hfit) keys

end CsBoot.Cli
