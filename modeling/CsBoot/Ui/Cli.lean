/-
The command line of the console, `src/src/ui/ui_cli_main.c`.

`cli_main` edits a line in `cli->buf` key by key, keeps the last ten lines in the history,
and gives a line that is entered to `cli_parse_enter`, which looks for the command in the
tables and splits its arguments in place. A `char` has 8 bits and no sign. Pointers into the
line count from the beginning of `buf`; the places of `buf`, of the lines of the history and
of `argv` that `cli_main` and the parser write to are kept in a list, in order.

The tables are arbitrary, and so is a handler: it gets `argc`, `argv` and the line, may
change the line, and may ask `cli_main` to return. What is printed is left out, but a line
that is taken back is given to `printf` as the format, and it is kept whether such a line asked
for more than the line. `name` and `matched_cmds`, which are variables of `cli_parse_enter` of
their own, are left out too.
-/
import CsBoot.Sys.Printf

set_option autoImplicit false

namespace CsBoot.Cli

open CString

def KEY_BS : UInt8 := 0x08
def KEY_TAB : UInt8 := 0x09
def KEY_LF : UInt8 := 0x0a
def KEY_CR : UInt8 := 0x0d
def KEY_ESC : UInt8 := 0x1b
def KEY_SP : UInt8 := 0x20
def ARROW_U : UInt8 := 0xf0
def ARROW_D : UInt8 := 0xf1
def ARROW_L : UInt8 := 0xf3
def KEY_CTRL_U : UInt8 := 21
def KEY_CTRL_D : UInt8 := 4
def KEY_CTRL_N : UInt8 := 14

def CLI_MAX_HISTORY : ℕ := 10
def CLI_MAX_CHARS : ℕ := 80
def CLI_NAME_SIZE : ℕ := 16
def CLI_MAX_ARGUMENTS : ℕ := 8

/-- `CLI_CMD_T`. The next table is given by its number, and the handler takes `argc`, `argv`
and the line, and leaves the line and whether it has set `cli_exit_flag`. -/
structure CLI_CMD_T where
  name : List UInt8
  next : Option ℕ
  handler : Option (ℕ → (ℕ → ℕ) → (ℕ → UInt8) → (ℕ → UInt8) × Bool)

/-- Something that is written. -/
inductive Place
  /-- `cli->buf[i]` -/
  | buf (i : ℕ)
  /-- `history->buf[k][i]` -/
  | line (k i : ℕ)
  /-- `cli->argv[i]` -/
  | argv (i : ℕ)

/-- `CLI_INFO_T` with its history, the variables of `cli_main`, and what was written; `stray`
says that `printf` was given a line that does not stand alone. -/
structure CLI_INFO_T where
  total : ℕ
  argc : ℕ
  argv : ℕ → ℕ
  buf : ℕ → UInt8
  history_index : ℕ
  history_total : ℕ
  history_buf : ℕ → ℕ → UInt8
  current_history : ℕ
  cli_exit_flag : Bool
  written : List Place
  stray : Bool

namespace CLI_INFO_T

variable (cli : CLI_INFO_T)

def set_buf (i : ℕ) (c : UInt8) : CLI_INFO_T :=
  { cli with buf := Function.update cli.buf i c, written := cli.written ++ [.buf i] }

def set_argv (i p : ℕ) : CLI_INFO_T :=
  { cli with argv := Function.update cli.argv i p, written := cli.written ++ [.argv i] }

end CLI_INFO_T

/-- What is read of a string: `total` is a `char`, so that no line is longer. -/
def string (m : ℕ → UInt8) (p : ℕ) : List UInt8 := text 256 m p

def strlen (m : ℕ → UInt8) : ℕ := (string m 0).length

/-- `strcpy` of the line to the history -/
def strcpy_history (cli : CLI_INFO_T) (k : ℕ) : CLI_INFO_T :=
  { cli with
    history_buf := Function.update cli.history_buf k fun i =>
      if i ≤ strlen cli.buf then cli.buf i else cli.history_buf k i
    written := cli.written ++ (List.range (strlen cli.buf + 1)).map (.line k) }

/-- `strcpy` of a line of the history to `buf` -/
def strcpy_buf (cli : CLI_INFO_T) (k : ℕ) : CLI_INFO_T :=
  { cli with
    buf := fun i =>
      if i ≤ strlen (cli.history_buf k) then cli.history_buf k i else cli.buf i
    written := cli.written ++ (List.range (strlen (cli.history_buf k) + 1)).map .buf }

/-! ## Parsing -/

def toupper (c : UInt8) : UInt8 := if 97 ≤ c ∧ c ≤ 122 then c - 32 else c

/-- `while (*in == ' ') in++` -/
def skip_spaces (buf : ℕ → UInt8) (p : ℕ) : ℕ :=
  p + ((string buf p).takeWhile (· = KEY_SP)).length

/-- `cli_get_name`: the name, and the pointer behind it and the spaces. -/
def cli_get_name (buf : ℕ → UInt8) (p : ℕ) : Option (List UInt8 × ℕ) :=
  let name := ((string buf p).take (CLI_NAME_SIZE - 1)).takeWhile (· ≠ KEY_SP)
  if name = [] then none else some (name.map toupper, skip_spaces buf (p + name.length))

/-- `cli_get_matched_cmd` with `cli_bcmp`: the names that begin with it. -/
def cli_get_matched_cmd (table : List CLI_CMD_T) (name : List UInt8) : List CLI_CMD_T :=
  table.filter fun cmd => name.isPrefixOf (cmd.name.map toupper)

/-- The loop of `cli_parse_enter`, up to the call of `cli_parse_argument`: the pointer that
it gets, and the command whose handler is called. `old_cmd` is the last command that was
matched. -/
def cli_find (tables : ℕ → List CLI_CMD_T) (buf : ℕ → UInt8) :
    ℕ → ℕ → ℕ → Option CLI_CMD_T → Option (ℕ × CLI_CMD_T)
  | 0, _, _, _ => none
  | fuel + 1, current, datap, old_cmd =>
    match cli_get_name buf datap with
    | none => old_cmd.map (datap, ·)
    | some (name, next_datap) =>
      match cli_get_matched_cmd (tables current) name with
      | [cmd] =>
        match cmd.next with
        | none => some (datap, cmd)
        | some next => cli_find tables buf fuel next next_datap (some cmd)
      | _ => none

/-- `cli_parse_enter` up to there. -/
def cli_command (tables : ℕ → List CLI_CMD_T) (buf : ℕ → UInt8) : Option (ℕ × CLI_CMD_T) :=
  cli_find tables buf (strlen buf + 1) 0 (skip_spaces buf 0) none

/-- The length of an argument, whose spaces may be between double quotes. -/
def arg_length (double_q : Bool) : List UInt8 → ℕ
  | [] => 0
  | c :: cs =>
    if c = KEY_SP ∧ double_q = false then 0 else arg_length (double_q ^^ (c = 0x22)) cs + 1

/-- `cli_get_argument_ptr` -/
def cli_get_argument_ptr (cli : CLI_INFO_T) (p : ℕ) : CLI_INFO_T × Option ℕ :=
  let found := arg_length false (string cli.buf p)
  let p := p + found
  let cut := cli.buf p = KEY_SP
  let cli := if cut then cli.set_buf p 0 else cli
  let p := skip_spaces cli.buf (if cut then p + 1 else p)
  (cli, if found ≠ 0 then some p else none)

/-- The loop of `cli_parse_argument`. -/
def cli_parse_loop : ℕ → CLI_INFO_T → ℕ → CLI_INFO_T
  | 0, cli, _ => cli
  | fuel + 1, cli, datap =>
    let cli :=
      if cli.buf datap ≠ 0 then { cli.set_argv cli.argc datap with argc := (cli.argc + 1) % 256 }
      else cli
    match cli_get_argument_ptr cli datap with
    | (cli, some datap) => cli_parse_loop fuel cli datap
    | (cli, none) => cli

/-- `cli_parse_argument` -/
def cli_parse_argument (cli : CLI_INFO_T) (datap : ℕ) : CLI_INFO_T :=
  cli_parse_loop ((string cli.buf datap).length + 1) ({ cli with argc := 0 }.set_argv 0 datap) datap

/-- `cli_parse_enter`. A command with a next table is called only if the line ends behind
it. -/
def cli_parse_enter (tables : ℕ → List CLI_CMD_T) (cli : CLI_INFO_T) : CLI_INFO_T :=
  match cli_command tables cli.buf with
  | none => cli
  | some (datap, cmd) =>
    match cmd.handler with
    | none => cli
    | some handler =>
      let cli := cli_parse_argument cli datap
      let r := handler cli.argc cli.argv cli.buf
      { cli with buf := r.1, cli_exit_flag := cli.cli_exit_flag || r.2 }

/-! ## `cli_main` -/

/-- What is there before the first key. -/
def cli_start : CLI_INFO_T where
  total := 0
  argc := 0
  argv := fun _ => 0
  buf := fun _ => 0
  history_index := 0
  history_total := 0
  history_buf := fun _ _ => 0
  current_history := 0
  cli_exit_flag := false
  written := []
  stray := false

/-- `data_bufp[cli->total] = c; data_bufp[cli->total+1] = '\0'; cli->total++` -/
def cli_put (cli : CLI_INFO_T) (c : UInt8) : CLI_INFO_T :=
  { (cli.set_buf cli.total c).set_buf (cli.total + 1) 0 with total := (cli.total + 1) % 256 }

/-- Backspace. -/
def cli_back (cli : CLI_INFO_T) : CLI_INFO_T :=
  if cli.total ≠ 0 then { cli.set_buf cli.total 0 with total := cli.total - 1 } else cli

/-- A printable key. -/
def cli_char (cli : CLI_INFO_T) (c : UInt8) : CLI_INFO_T :=
  let cli := cli_put cli c
  if CLI_MAX_CHARS - 1 ≤ cli.total then { cli with total := 0 } else cli

/-- The line goes into the history. -/
def cli_remember (cli : CLI_INFO_T) : CLI_INFO_T :=
  { strcpy_history cli cli.history_index with
    history_index :=
      if CLI_MAX_HISTORY ≤ cli.history_index + 1 then 0 else cli.history_index + 1
    history_total :=
      if cli.history_total < CLI_MAX_HISTORY then cli.history_total + 1 else cli.history_total }

/-- `data_bufp[cli->total++] = 0x00` -/
def cli_end (cli : CLI_INFO_T) : CLI_INFO_T :=
  { cli.set_buf cli.total 0 with total := (cli.total + 1) % 256 }

/-- Return. -/
def cli_enter (tables : ℕ → List CLI_CMD_T) (cli : CLI_INFO_T) : CLI_INFO_T :=
  let cli := cli_end cli
  let cli := if strlen cli.buf ≠ 0 then cli_parse_enter tables (cli_remember cli) else cli
  { cli with total := 0, current_history := cli.history_index }

/-- `printf(data_bufp)` -/
def cli_print (cli : CLI_INFO_T) : CLI_INFO_T :=
  { cli with stray := cli.stray || !Printf.stands_alone (string cli.buf 0) }

/-- A line of the history is taken back. -/
def cli_recall (cli : CLI_INFO_T) (k : ℕ) : CLI_INFO_T :=
  let cli := cli_print (strcpy_buf { cli with current_history := k } k)
  { cli with total := strlen cli.buf }

/-- The line that the history keys come to, up -/
def up_history (cli : CLI_INFO_T) : ℕ :=
  if cli.current_history = 0 then cli.history_total - 1 else cli.current_history - 1

/-- and down. -/
def down_history (cli : CLI_INFO_T) : ℕ :=
  if cli.history_total ≤ cli.current_history + 1 then 0 else cli.current_history + 1

def cli_up (cli : CLI_INFO_T) : CLI_INFO_T :=
  if cli.history_total ≠ 0 then cli_recall cli (up_history cli) else cli

def cli_down (cli : CLI_INFO_T) : CLI_INFO_T :=
  if cli.history_total ≠ 0 then cli_recall cli (down_history cli) else cli

/-- The `switch` of `cli_main`, while `cli_exit_flag` is not set. -/
def cli_key (tables : ℕ → List CLI_CMD_T) (cli : CLI_INFO_T) (data : UInt8) : CLI_INFO_T :=
  if cli.cli_exit_flag then cli
  else if data = KEY_BS ∨ data = ARROW_L then cli_back cli
  else if data = KEY_TAB ∨ data = KEY_SP then cli_put cli KEY_SP
  else if data = KEY_CR ∨ data = KEY_LF then cli_enter tables cli
  else if data = KEY_ESC then { cli with total := 0, current_history := cli.history_index }
  else if data = KEY_CTRL_U ∨ data = ARROW_U then cli_up cli
  else if data = ARROW_D ∨ data = KEY_CTRL_D ∨ data = KEY_CTRL_N then cli_down cli
  else if data < 0x20 ∨ 0x7f < data then cli
  else cli_char cli data

end CsBoot.Cli
