/-
The console of the code is the console as it is typed to.

The parser cuts the words of the line one after the other, and does not come back to one that it
has cut (`parse_loop_words`), so the strings that a handler gets are the words. The ring of the
history has the line `k` lines ago at a place that the next line leaves alone until it is too old
(`Shows.enter`). Every key keeps the two in step (`Shows.key`).
-/
import CsBoot.Ui.Console

set_option autoImplicit false

namespace CsBoot.Cli

open CString

/-! ## Words -/

section Words

variable {l word : List UInt8} {q : Bool} {c : UInt8}

theorem words_of_spaces : words_of false [] (behind_spaces l) = words_of false [] l := by
  unfold behind_spaces
  induction l with
  | nil => rfl
  | cons c cs ih =>
    by_cases hc : c = KEY_SP
    · rw [List.dropWhile_cons_of_pos (by simpa using hc), ih, words_of, if_pos ⟨hc, rfl⟩,
        if_pos rfl]
    · rw [List.dropWhile_cons_of_neg (by simpa using hc)]

/-- A word that has begun goes on as far as the argument. -/
theorem words_of_begun (hword : word ≠ []) :
    words_of q word l =
      (word ++ l.take (arg_length q l)) :: words_of false [] (l.drop (arg_length q l)) := by
  induction l generalizing q word with
  | nil =>
    rw [words_of, if_neg hword, arg_length, List.take_nil, List.append_nil]
    rfl
  | cons c cs ih =>
    rw [words_of, arg_length]
    by_cases hc : c = KEY_SP ∧ q = false
    · rw [if_pos hc, if_pos hc, if_neg hword, List.take_zero, List.append_nil, List.drop_zero,
        words_of, if_pos ⟨hc.1, rfl⟩, if_pos rfl]
    · rw [if_neg hc, if_neg hc, ih (by simp), List.append_assoc, List.take_succ_cons,
        List.drop_succ_cons, List.singleton_append]

/-- A character begins a word. -/
theorem words_of_first (hc : c ≠ KEY_SP) :
    words_of false [] (c :: l) = (c :: l).take (arg_length false (c :: l)) ::
      words_of false [] ((c :: l).drop (arg_length false (c :: l))) := by
  have hnot : ¬ (c = KEY_SP ∧ false = false) := fun h => hc h.1
  rw [words_of, if_neg hnot, List.nil_append, words_of_begun (List.cons_ne_nil c []), arg_length,
    if_neg hnot, List.take_succ_cons, List.drop_succ_cons, List.singleton_append]

end Words

/-! ## The parser -/

section Parser

variable {tables : ℕ → List CLI_CMD_T} {cli : CLI_INFO_T} {buf : ℕ → UInt8} {p n : ℕ}

theorem string_eq (h : Str buf p n) (hn : n < 256) :
    string buf p = (List.range n).map fun i => buf (p + i) :=
  h.text_eq hn

/-- A string and the one in the same place of another line. -/
theorem string_congr {buf' : ℕ → UInt8} (h : Str buf p n) (hn : n < 256)
    (hbuf : ∀ i, i ≤ n → buf' (p + i) = buf (p + i)) : string buf' p = string buf p :=
  h.text_congr hn hbuf

/-- **An argument is cut off**: nothing in front of it is touched, and it ends with a zero in
front of the next. -/
theorem argument_ptr_spec (cli : CLI_INFO_T) (h : Str cli.buf p (n + 1))
    (hn : p + (n + 1) < CLI_MAX_CHARS + 1) (hsp : cli.buf p ≠ KEY_SP) :
    ∃ cli' k, cli_get_argument_ptr cli p = (cli', some (p + k)) ∧
      0 < arg_length false (string cli.buf p) ∧ arg_length false (string cli.buf p) ≤ k ∧
      k ≤ n + 1 ∧ Str cli'.buf (p + k) (n + 1 - k) ∧ cli'.buf (p + k) ≠ KEY_SP ∧
      string cli'.buf (p + k) =
        behind_spaces ((string cli.buf p).drop (arg_length false (string cli.buf p))) ∧
      (∀ i, i < p + arg_length false (string cli.buf p) → cli'.buf i = cli.buf i) ∧
      cli'.buf (p + arg_length false (string cli.buf p)) = 0 ∧
      cli'.argc = cli.argc ∧ cli'.argv = cli.argv := by
  obtain ⟨cli', k, hptr, hpos, hfound, hk, hstr, hnot, hrest, hcut⟩ :=
    get_argument_ptr_cut cli h hn hsp
  refine ⟨cli', k, hptr, hpos, hfound, hk, hstr, hnot, hrest, ?_⟩
  obtain ⟨rfl, -⟩ | ⟨rfl, hzero⟩ := hcut
  · exact ⟨fun i hi => Function.update_of_ne hi.ne .., Function.update_self .., rfl, rfl⟩
  · exact ⟨fun _ _ => rfl, hzero, rfl, rfl⟩

/-- What the loop leaves of the line from `p` on: the pointers in front are as they were, and the
words of the line are behind them. -/
structure Parsed (cli r : CLI_INFO_T) (p : ℕ) (words : List (List UInt8)) : Prop where
  buf : ∀ i, i ≤ p → r.buf i = cli.buf i
  argv : ∀ k, k < cli.argc → r.argv k = cli.argv k
  argc : r.argc = cli.argc + words.length
  strings : (List.range words.length).map (fun k => string r.buf (r.argv (cli.argc + k))) = words

theorem parse_loop_words (cli : CLI_INFO_T) (fuel : ℕ) (h : Str cli.buf p n)
    (hn : p + n < CLI_MAX_CHARS + 1) (hsp : cli.buf p ≠ KEY_SP) (hfuel : n < fuel)
    (hargc : cli.argc + n < 256) :
    Parsed cli (cli_parse_loop fuel cli p) p (words_of false [] (string cli.buf p)) := by
  -- each word has a character at least
  induction fuel generalizing cli p n with
  | zero => exact absurd hfuel (Nat.not_lt_zero n)
  | succ fuel ih =>
    cases n with
    | zero =>
      have hzero : ¬ cli.buf p ≠ 0 := not_not.mpr h.zero
      have hloop : cli_parse_loop (fuel + 1) cli p = cli := by
        simp only [cli_parse_loop, if_neg hzero, get_argument_ptr_zero h]
      rw [hloop, string_zero h]
      exact ⟨fun _ _ => rfl, fun _ _ => rfl, rfl, rfl⟩
    | succ n =>
      have hn256 : n + 1 < 256 := by
        rw [CLI_MAX_CHARS] at hn
        omega
      have hchar : cli.buf p ≠ 0 := h.chars 0 (Nat.succ_pos n)
      have hcount : (cli.argc + 1) % 256 = cli.argc + 1 := Nat.mod_eq_of_lt (by omega)
      obtain ⟨cli', k, hptr, hpos, hfound, hk, hstr, hsp', hrest, hfront, hzero, hargc', hargv'⟩ :=
        argument_ptr_spec { cli.set_argv cli.argc p with argc := cli.argc + 1 } h hn hsp
      change 0 < arg_length false (string cli.buf p) at hpos
      change arg_length false (string cli.buf p) ≤ k at hfound
      change string cli'.buf (p + k) =
        behind_spaces ((string cli.buf p).drop (arg_length false (string cli.buf p))) at hrest
      change ∀ i, i < p + arg_length false (string cli.buf p) → cli'.buf i = cli.buf i at hfront
      change cli'.buf (p + arg_length false (string cli.buf p)) = 0 at hzero
      change cli'.argc = cli.argc + 1 at hargc'
      have hloop : cli_parse_loop (fuel + 1) cli p = cli_parse_loop fuel cli' (p + k) := by
        simp only [cli_parse_loop, if_pos hchar, hcount, hptr]
      have hwords : words_of false [] (string cli.buf p) =
          (string cli.buf p).take (arg_length false (string cli.buf p)) ::
            words_of false [] (string cli'.buf (p + k)) := by
        have hcons : string cli.buf p = cli.buf p :: string cli.buf (p + 1) := h.text_cons hn256
        rw [hrest, words_of_spaces, hcons]
        exact words_of_first hsp
      have hparsed := ih cli' hstr (by omega) hsp' (by omega) (by omega)
      rw [hloop, hwords]
      generalize cli_parse_loop fuel cli' (p + k) = r at hparsed
      generalize words_of false [] (string cli'.buf (p + k)) = words at hparsed
      generalize hlen : arg_length false (string cli.buf p) = found at *
      have hargv : r.argv cli.argc = p := by
        rw [hparsed.argv cli.argc (by omega), hargv']
        exact Function.update_self ..
      -- the word stays as it was cut
      have hword : string r.buf p = (string cli.buf p).take found := by
        have hsame : ∀ i, i < found → r.buf (p + i) = cli.buf (p + i) := fun i hi =>
          (hparsed.buf _ (by omega)).trans (hfront _ (by omega))
        have hcut : Str r.buf p found :=
          ⟨fun i hi => by rw [hsame i hi]; exact h.chars i (by omega),
            (hparsed.buf _ (by omega)).trans hzero⟩
        rw [string_eq hcut (by omega), string_eq h hn256, ← List.map_take, List.take_range,
          Nat.min_eq_left (by omega)]
        exact List.map_congr_left fun i hi => hsame i (List.mem_range.mp hi)
      refine ⟨fun i hi => ?_, fun j hj => ?_, ?_, ?_⟩
      · exact (hparsed.buf i (by omega)).trans (hfront i (by omega))
      · rw [hparsed.argv j (by omega), hargv']
        exact Function.update_of_ne hj.ne ..
      · rw [hparsed.argc, hargc', List.length_cons]
        omega
      · have htail := hparsed.strings
        rw [hargc'] at htail
        rw [List.length_cons, List.range_succ_eq_map, List.map_cons, List.map_map, Nat.add_zero,
          hargv, hword]
        refine congrArg _ (Eq.trans (List.map_congr_left fun k _ => ?_) htail)
        simp only [Function.comp_def, Nat.succ_eq_add_one, Nat.add_assoc, Nat.add_comm 1]

/-- **The arguments are the words of the line.** -/
theorem arguments_eq (cli : CLI_INFO_T) (h : Str cli.buf p n) (hn : p + n < CLI_MAX_CHARS + 1)
    (hsp : cli.buf p ≠ KEY_SP) :
    arguments (cli_parse_argument cli p) = words_of false [] (string cli.buf p) := by
  have hn256 : n < 256 := by
    rw [CLI_MAX_CHARS] at hn
    omega
  have hlength : (string cli.buf p).length = n := h.length_text hn256
  have hparsed := parse_loop_words ({ cli with argc := 0 }.set_argv 0 p)
    ((string cli.buf p).length + 1) h hn hsp (by omega) (by simpa [CLI_INFO_T.set_argv] using hn256)
  have hstrings := hparsed.strings
  have hargc := hparsed.argc
  change _ = 0 + _ at hargc
  rw [Nat.zero_add] at hargc
  unfold arguments cli_parse_argument
  rw [hargc]
  refine Eq.trans (List.map_congr_left fun k _ => ?_) hstrings
  exact congrArg (fun j => string _ (CLI_INFO_T.argv _ j)) (Nat.zero_add k).symm

/-- The names of the line, with a pointer for the rest of it. -/
theorem first_name_eq (h : Str buf p n) (hn : n < 256) :
    (cli_get_name buf p).map (fun r => (r.1, string buf r.2)) = first_name (string buf p) := by
  unfold cli_get_name first_name
  by_cases hnil : ((string buf p).take (CLI_NAME_SIZE - 1)).takeWhile (· ≠ KEY_SP) = []
  · simp only [if_pos hnil, Option.map_none]
  · have hle : (((string buf p).take (CLI_NAME_SIZE - 1)).takeWhile (· ≠ KEY_SP)).length ≤ n := by
      have hlength : (string buf p).length = n := h.length_text hn
      rw [← hlength]
      exact ((List.takeWhile_prefix _).trans (List.take_prefix _ _)).length_le
    obtain ⟨k, -, hptr, -, hskip⟩ := skip_spaces_spec (h.drop hle) (by omega)
    have hdrop : string buf _ = (string buf p).drop _ := h.text_add hn hle
    simp only [if_neg hnil, Option.map_some]
    rw [hptr, hskip, hdrop]
    rfl

/-- The search for the command goes through the same names. -/
theorem named_eq {fuel current : ℕ} {old_cmd : Option CLI_CMD_T} (h : Str buf p n) (hn : n < 256) :
    (cli_find tables buf fuel current p old_cmd).map (fun r => (string buf r.1, r.2)) =
      named tables fuel current (string buf p) old_cmd := by
  induction fuel generalizing current p n old_cmd with
  | zero => rfl
  | succ fuel ih =>
    have hfirst := first_name_eq h hn
    rw [cli_find, named]
    cases hname : cli_get_name buf p with
    | none =>
      rw [hname] at hfirst
      rw [← hfirst]
      cases old_cmd <;> rfl
    | some r =>
      obtain ⟨name, p'⟩ := r
      obtain ⟨k, rfl, -, hk, -⟩ := get_name_ptr h hn hname
      rw [hname] at hfirst
      rw [← hfirst]
      simp only [Option.map_some]
      generalize cli_get_matched_cmd (tables current) name = matched
      rcases matched with _ | ⟨cmd, _ | ⟨_, _⟩⟩
      · rfl
      · cases hnext : cmd.next with
        | none =>
          simp only [hnext]
          rfl
        | some next =>
          simp only [hnext]
          exact ih (h.drop hk) (by omega)
      · rfl

theorem command_eq (tables : ℕ → List CLI_CMD_T) (h : Str buf 0 n) (hn : n < 256) :
    (cli_command tables buf).map (fun r => (string buf r.1, r.2)) =
      named tables (n + 1) 0 (behind_spaces (string buf 0)) none := by
  obtain ⟨k, hk, hptr, -, hskip⟩ := skip_spaces_spec h hn
  rw [cli_command, hptr, strlen_eq h hn, behind_spaces, ← hskip]
  exact named_eq (h.drop hk) (by omega)

end Parser

/-! ## The line and its call -/

/-- The line of `cli_main`. -/
def line_of (cli : CLI_INFO_T) : List UInt8 := (List.range cli.total).map cli.buf

section Line

variable {tables : ℕ → List CLI_CMD_T} {cli : CLI_INFO_T} {c : UInt8}

theorem length_line_of : (line_of cli).length = cli.total := by simp [line_of]

theorem total_lt (h : Inv cli) : cli.total < 256 := by
  have htotal := h.bounds.total
  rw [CLI_MAX_CHARS] at htotal
  omega

/-- The line with its zero is read as it is. -/
theorem string_ended (h : Inv cli) : string (cli_end cli).buf 0 = line_of cli := by
  have hstr : Str (cli_end cli).buf 0 cli.total := str_ended h
  rw [string_eq hstr (total_lt h)]
  refine List.map_congr_left fun i hi => ?_
  rw [Nat.zero_add]
  exact Function.update_of_ne (List.mem_range.mp hi).ne ..

/-- **Return calls what the line says.** -/
theorem called_eq (h : Inv cli) : cli_called tables cli = call tables (line_of cli) := by
  have hstr : Str (cli_end cli).buf 0 cli.total := str_ended h
  have hlen : strlen (cli_end cli).buf = cli.total := strlen_eq hstr (total_lt h)
  have hcommand := command_eq tables hstr (total_lt h)
  rw [string_ended h] at hcommand
  unfold cli_called call
  simp only [hlen, length_line_of]
  by_cases hzero : cli.total = 0
  · have hempty : line_of cli = [] := List.eq_nil_of_length_eq_zero (length_line_of.trans hzero)
    rw [if_neg (not_not.mpr hzero), hempty]
    rfl
  · rw [if_pos hzero, ← hcommand]
    have hbuf : (cli_remember (cli_end cli)).buf = (cli_end cli).buf := rfl
    rw [hbuf]
    cases hfind : cli_command tables (cli_end cli).buf with
    | none => rfl
    | some r =>
      obtain ⟨q, cmd⟩ := r
      obtain ⟨hq, hsp⟩ := command_ptr hstr (total_lt h) hfind
      have hrest := hstr.drop hq
      rw [Nat.zero_add] at hrest
      have hwords := arguments_eq (cli_remember (cli_end cli)) hrest
        (by have := h.bounds.total; omega) hsp
      simp only [Option.map_some, Option.bind_some]
      rw [hwords, hbuf]

/-! What the keys do to the line. -/

theorem line_put (h : Inv cli) (c : UInt8) : line_of (cli_put cli c) = line_of cli ++ [c] := by
  have htotal : (cli_put cli c).total = cli.total + 1 := by
    have := h.bounds.total
    rw [CLI_MAX_CHARS] at this
    exact Nat.mod_eq_of_lt (by omega)
  have hbuf : ∀ i, i ≤ cli.total →
      (cli_put cli c).buf i = Function.update cli.buf cli.total c i := fun i hi =>
    Function.update_of_ne (by omega) ..
  unfold line_of
  rw [htotal, List.range_succ, List.map_append, List.map_singleton, hbuf _ le_rfl,
    Function.update_self]
  refine congrArg (· ++ [c]) (List.map_congr_left fun i hi => ?_)
  have hlt := List.mem_range.mp hi
  rw [hbuf i hlt.le, Function.update_of_ne hlt.ne]

theorem line_back : line_of (cli_back cli) = (line_of cli).dropLast := by
  unfold cli_back line_of
  by_cases hzero : cli.total = 0
  · rw [if_neg (not_not.mpr hzero), hzero]
    rfl
  · rw [if_pos hzero]
    change (List.range (cli.total - 1)).map (cli.set_buf cli.total 0).buf = _
    obtain ⟨n, hn⟩ := Nat.exists_eq_succ_of_ne_zero hzero
    rw [hn, List.range_succ, List.map_append, List.map_singleton, List.dropLast_concat,
      Nat.succ_sub_one]
    refine List.map_congr_left fun i hi => Function.update_of_ne ?_ ..
    have hlt := List.mem_range.mp hi
    omega

theorem line_char (h : Inv cli) (c : UInt8) :
    line_of (cli_char cli c) =
      if CLI_MAX_CHARS - 1 ≤ (line_of cli).length + 1 then [] else line_of cli ++ [c] := by
  have htotal : (cli_put cli c).total = (line_of cli).length + 1 := by
    rw [← length_line_of, line_put h, List.length_append, List.length_singleton]
  rw [cli_char, htotal]
  split
  · rfl
  · exact line_put h c

/-- A line that is taken back is the one in the history. -/
theorem line_recall (h : Inv cli) {k : ℕ} (hk : k < CLI_MAX_HISTORY) :
    line_of (cli_recall cli k) = string (cli.history_buf k) 0 := by
  obtain ⟨n, hn, -, hcopy, htotal, hstring⟩ := recall_buf h hk
  have hn256 : n < 256 := by
    rw [CLI_MAX_CHARS] at hn
    omega
  rw [← hstring, string_eq hcopy hn256, line_of, htotal]
  simp only [Nat.zero_add]

end Line

/-! ## The lines that were entered -/

/-- The code and the console are in step: the ring has the line `k` lines ago at the `k`-th place
before the next one. -/
structure Shows (cli : CLI_INFO_T) (c : Console) : Prop where
  inv : Inv cli
  line : c.line = line_of cli
  index : cli.history_index = c.entered.length % CLI_MAX_HISTORY
  total : cli.history_total = c.kept
  back_le : c.back ≤ c.kept
  current : cli.current_history = (c.entered.length - c.back) % CLI_MAX_HISTORY
  lines : ∀ k, k < c.kept →
    string (cli.history_buf ((c.entered.length - 1 - k) % CLI_MAX_HISTORY)) 0 =
      c.entered.getD k []

section Keys

variable {tables : ℕ → List CLI_CMD_T} {cli : CLI_INFO_T} {c : Console}

theorem shows_start : Shows cli_start ⟨[], [], 0⟩ :=
  ⟨inv_start, rfl, rfl, rfl, le_rfl, rfl, fun k hk => absurd hk (Nat.not_lt_zero k)⟩

/-- A key that edits the line leaves the history alone. -/
theorem Shows.edit (h : Shows cli c) {cli' : CLI_INFO_T} {line : List UInt8} (hinv : Inv cli')
    (hline : line_of cli' = line) (hindex : cli'.history_index = cli.history_index)
    (htotal : cli'.history_total = cli.history_total)
    (hcurrent : cli'.current_history = cli.current_history)
    (hlines : cli'.history_buf = cli.history_buf) : Shows cli' { c with line := line } :=
  ⟨hinv, hline.symm, hindex.trans h.index, htotal.trans h.total, h.back_le,
    hcurrent.trans h.current, fun k hk => hlines ▸ h.lines k hk⟩

/-- A line of the history is taken back. -/
theorem Shows.take_back (h : Shows cli c) {k back : ℕ} (hpos : 0 < back) (hle : back ≤ c.kept)
    (hk : k = (c.entered.length - back) % CLI_MAX_HISTORY)
    (hprint : Printf.stands_alone (string (cli.history_buf k) 0) = true) :
    Shows (cli_recall cli k) (c.take_back back) := by
  have hlt : k < CLI_MAX_HISTORY := by
    rw [hk]
    exact Nat.mod_lt _ (by decide)
  have hline := h.lines (back - 1) (by omega)
  rw [show c.entered.length - 1 - (back - 1) = c.entered.length - back by omega, ← hk] at hline
  exact ⟨inv_recall h.inv hlt hprint, (line_recall h.inv hlt).symm ▸ hline.symm, h.index, h.total,
    hle, hk, h.lines⟩

theorem Shows.none_kept (h : Shows cli c) : cli.history_total = 0 ↔ c.entered = [] := by
  rw [h.total, Console.kept, CLI_MAX_HISTORY, ← List.length_eq_zero_iff]
  omega

/-- With a line in the history, the numbers that the places of the ring are computed from. -/
theorem Shows.counters (h : Shows cli c) (hnil : c.entered ≠ []) :
    0 < c.entered.length ∧ c.back ≤ min c.entered.length 10 ∧
      cli.history_total = min c.entered.length 10 ∧
      cli.current_history = (c.entered.length - c.back) % 10 :=
  ⟨List.length_pos_iff.mpr hnil, h.back_le, h.total, h.current⟩

theorem Shows.up (h : Shows cli c) (hfit : RecallFits cli (up_history cli)) :
    Shows (cli_up cli) c.up := by
  have hprint := fun hnil => hfit (mt h.none_kept.mp hnil)
  unfold cli_up Console.up
  by_cases hnil : c.entered = []
  · rw [if_neg (not_not.mpr (h.none_kept.mpr hnil)), if_pos hnil]
    exact h
  · rw [if_pos (mt h.none_kept.mp hnil), if_neg hnil]
    obtain ⟨hpos, hback, htotal, hcurrent⟩ := h.counters hnil
    refine h.take_back ?_ ?_ ?_ (hprint hnil)
    · split <;> omega
    · unfold Console.kept
      rw [CLI_MAX_HISTORY]
      split <;> omega
    · unfold Console.kept up_history
      rw [CLI_MAX_HISTORY]
      split <;> split <;> omega

theorem Shows.down (h : Shows cli c) (hfit : RecallFits cli (down_history cli)) :
    Shows (cli_down cli) c.down := by
  have hprint := fun hnil => hfit (mt h.none_kept.mp hnil)
  unfold cli_down Console.down
  by_cases hnil : c.entered = []
  · rw [if_neg (not_not.mpr (h.none_kept.mpr hnil)), if_pos hnil]
    exact h
  · rw [if_pos (mt h.none_kept.mp hnil), if_neg hnil]
    obtain ⟨hpos, hback, htotal, hcurrent⟩ := h.counters hnil
    refine h.take_back ?_ ?_ ?_ (hprint hnil)
    · unfold Console.kept
      rw [CLI_MAX_HISTORY]
      split <;> [skip; split] <;> omega
    · unfold Console.kept
      rw [CLI_MAX_HISTORY]
      split <;> [skip; split] <;> omega
    · unfold Console.kept down_history
      rw [CLI_MAX_HISTORY]
      split <;> split <;> [skip; split; skip; split] <;> omega

/-- **Return**: the line that was entered is the last one, and the others are one line further
back. -/
theorem Shows.enter (h : Shows cli c) (hroom : cli.total < CLI_MAX_CHARS)
    (hfit : ArgumentsFit tables (Function.update cli.buf cli.total 0)) :
    Shows (cli_enter tables cli) c.enter := by
  have hinv := (enter_spec tables h.inv).2 hroom hfit
  have hstr : Str (cli_end cli).buf 0 cli.total := str_ended h.inv
  have hlen : strlen (cli_end cli).buf = cli.total := strlen_eq hstr (total_lt h.inv)
  have hnil : c.line = [] ↔ cli.total = 0 := by
    rw [h.line, ← List.length_eq_zero_iff, length_line_of]
  unfold Console.enter
  by_cases hzero : cli.total = 0
  · rw [enter_empty (hlen.trans hzero)] at hinv ⊢
    rw [if_pos (hnil.mpr hzero)]
    exact ⟨hinv, rfl, h.index, h.total, Nat.zero_le _, h.index, h.lines⟩
  · obtain ⟨-, -, argc, argv, buf, written, flag, hsame⟩ :=
      parse_enter tables (show Str (cli_remember (cli_end cli)).buf 0 cli.total from hstr)
        h.inv.bounds.total
    rw [enter_line (hlen ▸ hzero), hsame] at hinv ⊢
    rw [if_neg (mt hnil.mp hzero)]
    have hindex := h.index
    have htotal := h.total
    unfold Console.kept at htotal
    rw [CLI_MAX_HISTORY] at hindex htotal
    have hnext : (cli_remember (cli_end cli)).history_index =
        (c.line :: c.entered).length % CLI_MAX_HISTORY := by
      change (if CLI_MAX_HISTORY ≤ cli.history_index + 1 then 0 else cli.history_index + 1) = _
      rw [List.length_cons, CLI_MAX_HISTORY]
      split <;> omega
    refine ⟨hinv, rfl, hnext, ?_, Nat.zero_le _, hnext, fun k hk => ?_⟩
    · change (if cli.history_total < CLI_MAX_HISTORY then cli.history_total + 1
        else cli.history_total) = min (c.line :: c.entered).length CLI_MAX_HISTORY
      rw [List.length_cons, CLI_MAX_HISTORY]
      split <;> omega
    · unfold Console.kept at hk
      rw [List.length_cons, CLI_MAX_HISTORY] at hk
      change string (Function.update cli.history_buf cli.history_index _ _) 0 = _
      cases k with
      | zero =>
        -- the line that was entered
        have hplace : ((c.line :: c.entered).length - 1 - 0) % CLI_MAX_HISTORY =
            cli.history_index := by
          rw [List.length_cons, CLI_MAX_HISTORY, hindex]
          omega
        rw [hplace, Function.update_self, List.getD_cons_zero, h.line, ← string_ended h.inv]
        refine string_congr hstr (total_lt h.inv) fun i hi => if_pos ?_
        rw [hlen]
        omega
      | succ k =>
        -- its place is not one of those that are kept
        have hplace : (c.line :: c.entered).length - 1 - (k + 1) = c.entered.length - 1 - k := by
          rw [List.length_cons]
          omega
        have hother : (c.entered.length - 1 - k) % CLI_MAX_HISTORY ≠ cli.history_index := by
          rw [hindex, CLI_MAX_HISTORY]
          omega
        have hkept : k < c.kept := by
          unfold Console.kept
          rw [CLI_MAX_HISTORY]
          omega
        rw [hplace, Function.update_of_ne hother, List.getD_cons_succ]
        exact h.lines k hkept

/-- **Every key** keeps the code and the console in step. -/
theorem Shows.key (h : Shows cli c) {data : UInt8} (hrun : cli.cli_exit_flag = false)
    (hfit : KeyFits tables cli data) : Shows (cli_key tables cli data) (c.key data) := by
  have hexit : ¬ cli.cli_exit_flag = true := by
    rw [hrun]
    exact Bool.false_ne_true
  have hinv := (key_spec h.inv data).2 hfit
  rw [cli_key, if_neg hexit] at hinv ⊢
  rw [Console.key]
  -- the keys in the order of the chain of `cli_main`
  by_cases hback : data = KEY_BS ∨ data = ARROW_L
  · rw [if_pos hback] at hinv ⊢
    rw [if_pos hback, h.line]
    refine h.edit hinv line_back ?_ ?_ ?_ ?_ <;> (unfold cli_back; split <;> rfl)
  rw [if_neg hback] at hinv ⊢
  rw [if_neg hback]
  by_cases hspace : data = KEY_TAB ∨ data = KEY_SP
  · rw [if_pos hspace] at hinv ⊢
    rw [if_pos hspace, h.line]
    exact h.edit hinv (line_put h.inv KEY_SP) rfl rfl rfl rfl
  rw [if_neg hspace] at hinv ⊢
  rw [if_neg hspace]
  by_cases henter : data = KEY_CR ∨ data = KEY_LF
  · obtain ⟨hroom, hargs⟩ := (keyFits_enter hexit henter).mp hfit
    rw [if_pos henter, if_pos henter]
    exact h.enter hroom hargs
  rw [if_neg henter] at hinv ⊢
  rw [if_neg henter]
  by_cases hesc : data = KEY_ESC
  · rw [if_pos hesc] at hinv ⊢
    rw [if_pos hesc]
    exact ⟨hinv, rfl, h.index, h.total, Nat.zero_le _, h.index, h.lines⟩
  rw [if_neg hesc] at hinv ⊢
  rw [if_neg hesc]
  by_cases hup : data = KEY_CTRL_U ∨ data = ARROW_U
  · rw [if_pos hup, if_pos hup]
    exact h.up ((keyFits_up hexit hup).mp hfit)
  rw [if_neg hup] at hinv ⊢
  rw [if_neg hup]
  by_cases hdown : data = ARROW_D ∨ data = KEY_CTRL_D ∨ data = KEY_CTRL_N
  · rw [if_pos hdown, if_pos hdown]
    exact h.down ((keyFits_down hexit hdown).mp hfit)
  rw [if_neg hdown] at hinv ⊢
  rw [if_neg hdown]
  by_cases hother : data < 0x20 ∨ 0x7f < data
  · rw [if_pos hother, if_pos hother]
    exact h
  · rw [if_neg hother] at hinv ⊢
    rw [if_neg hother, h.line]
    refine h.edit hinv (line_char h.inv data) ?_ ?_ ?_ ?_ <;>
      (unfold cli_char; dsimp only; split <;> rfl)

end Keys

/-! ## Every run -/

/-- The keys that `cli_main` waits for, each with room for what it does, or with a line to take
back that `printf` can be given. -/
abbrev Runs (tables : ℕ → List CLI_CMD_T) (cli : CLI_INFO_T) (data : UInt8) : Prop :=
  cli.cli_exit_flag = false ∧ KeyFits tables cli data

theorem Shows.calls {tables : ℕ → List CLI_CMD_T} {cli : CLI_INFO_T} {c : Console}
    (h : Shows cli c) {keys : List UInt8}
    (hkeys : EveryStep (cli_key tables) (Runs tables) cli keys) :
    cli_calls tables cli keys = c.calls tables keys := by
  induction keys generalizing cli c with
  | nil => rfl
  | cons data keys ih =>
    obtain ⟨⟨hrun, hfit⟩, hrest⟩ := hkeys
    rw [cli_calls, Console.calls, ih (h.key hrun hfit) hrest, called_eq h.inv, h.line]

/-- A console with one command. -/
def one_command : ℕ → List CLI_CMD_T :=
  fun _ => [⟨[0x53, 0x48, 0x4f, 0x57], none, some fun _ _ buf => (buf, false)⟩]

end CsBoot.Cli
