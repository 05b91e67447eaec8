import SoftBts.CommandLine
import SoftBts.History
import SoftBts.Lib.Loop
import SoftBts.Lib.Octets

/-! The sessions of `vty.c`: the line buffer, the keys that edit it, and the lines that a session
executes. What `command.c` answers is a parameter here, and so is what is in memory that has just
been allocated. -/

namespace SoftBts

open Octets Loop

def vtyBufsiz : ℕ := 512

/-- What the language leaves undefined, and a loop that does not come to its end. -/
inductive Fault where
  | overrun
  | hang
  deriving DecidableEq

/-- The status of a session; nothing sets the other two that the type has. -/
inductive Status where
  | normal
  | close
  deriving DecidableEq

inductive Escape where
  | normal
  | preEscape
  | escape
  deriving DecidableEq

/-- `struct host`, with the configure lock and the password check of `vty.c`. -/
structure Host (H : Type) where
  password : Option (List UInt8)
  passwordEncrypt : Option (List UInt8)
  enable : Option (List UInt8)
  enableEncrypt : Option (List UInt8)
  advanced : Bool
  vtyConfig : Bool
  noPasswordCheck : Bool
  other : H

/-- What the commands of a session see of it and may change. -/
structure Seat (H : Type) where
  node : NodeType
  status : Status
  config : Bool
  fail : ℕ
  host : Host H

/-- `struct vty` of type `VTY_TERM`, without the options of telnet. -/
structure Vty (H : Type) where
  seat : Seat H
  obuf : List UInt8
  buf : Mem
  cp : ℕ
  length : ℕ
  max : ℕ
  history : History
  escape : Escape

/-- What `cmd_execute_command` returns. -/
inductive CmdReturn where
  | success
  | warning
  | errNoMatch
  | errAmbiguous
  | errIncomplete
  | errExeedArgcMax
  | successDaemon
  deriving DecidableEq

/-- What `cmd_complete_command` returns. -/
inductive Completion where
  | errAmbiguous
  | errNoMatch
  | errNothingTodo
  | completeFullMatch (matched : List UInt8)
  | completeMatch (matched : List UInt8)
  | completeListMatch (matched : List (List UInt8))

/-- What `cmd_describe_command` comes to, with what is printed of it. -/
inductive Description where
  | errAmbiguous
  | errNoMatch
  | shown (text : List UInt8)

/-- `command.c`: the prompt, the execution, the completion and the description of a line. A word that
is `none` is the null pointer behind a space at the end of the line. -/
structure Commands (H : Type) where
  prompt : Seat H → List UInt8
  execute : List (List UInt8) → History → Seat H → Seat H × CmdReturn × List UInt8
  complete : List (Option (List UInt8)) → Seat H → Completion
  describe : List (Option (List UInt8)) → Seat H → Description

/-- Where a session runs: the commands, the octets of memory that has just been allocated, and the
number of turns at which a loop counts as one that hangs. -/
structure Setting (H : Type) extends Commands H where
  heap : Mem
  turns : ℕ

variable {H : Type}

/-- `VTY_NEWLINE` -/
def vtyNewline : List UInt8 := [0x0d, 0x0a]

namespace Seat

def isAuth (s : Seat H) : Bool := s.node = .auth || s.node = .authEnable

/-- `vty_config_unlock` -/
def configUnlock (s : Seat H) : Seat H :=
  if s.host.vtyConfig && s.config then
    { s with config := false, host := { s.host with vtyConfig := false } }
  else s

/-- `config_exit`, for the sessions that telnet has. -/
def configExit (s : Seat H) : Seat H :=
  match s.node with
  | .subscr => { s with node := .view }
  | .view | .enable => { s with status := .close }
  | .config => configUnlock { s with node := .enable }
  | .vty => { s with node := .config }
  | _ => s

/-- The switch of `vty_stop_input` and of `vty_end_config`. -/
def leaveConfig (s : Seat H) : Seat H :=
  match s.node with
  | .config | .vty => { s.configUnlock with node := .enable }
  | _ => s

/-- `vty_auth`, with what it prints. -/
def auth (buf : List UInt8) (s : Seat H) : Seat H × List UInt8 :=
  let passwd := if s.node = .auth then s.host.password else s.host.enable
  let nextNode : NodeType :=
    if s.node = .auth then
      if s.host.advanced then (if s.host.enable.isSome then .view else .enable) else .view
    else .enable
  if passwd = some buf then
    ({ s with fail := 0, node := nextNode }, [])
  else if s.fail + 1 < 3 then
    ({ s with fail := s.fail + 1 }, [])
  else if s.node = .auth then
    ({ s with fail := s.fail + 1, status := .close },
      ascii "% Bad passwords, too many failures!" ++ vtyNewline)
  else
    ({ s with fail := 0, node := .view },
      ascii "% Bad enable passwords, too many failures!" ++ vtyNewline)

end Seat

/-- `vty_command`, with what it and the command print. -/
def Commands.command (c : Commands H) (buf : List UInt8) (history : History) (s : Seat H) :
    Seat H × List UInt8 :=
  match makeStrvec buf with
  | none => (s, [])
  | some vline =>
      let r := c.execute vline history s
      (r.1, r.2.2 ++
        match r.2.1 with
        | .errAmbiguous => ascii "% Ambiguous command." ++ vtyNewline
        | .errNoMatch => ascii "% Unknown command." ++ vtyNewline
        | .errIncomplete => ascii "% Command incomplete." ++ vtyNewline
        | _ => [])

namespace Vty

/-! ### The buffers -/

def get (i : ℕ) (v : Vty H) : Except Fault UInt8 :=
  if i < v.max then .ok (v.buf i) else .error .overrun

def load (off n : ℕ) (v : Vty H) : Except Fault (List UInt8) :=
  if off + n ≤ v.max then .ok (v.buf.load off n) else .error .overrun

def store (off : ℕ) (bs : List UInt8) (v : Vty H) : Except Fault (Vty H) :=
  if off + bs.length ≤ v.max then .ok { v with buf := v.buf.store off bs } else .error .overrun

/-- The string at the beginning of the buffer. -/
def line (v : Vty H) : Except Fault (List UInt8) :=
  let octets := v.buf.load 0 v.max
  if 0 ∈ octets then .ok (octets.takeWhile (· ≠ 0)) else .error .overrun

/-- The number of characters from the cursor on; a negative one is too large as a size. -/
def rest (v : Vty H) : Except Fault ℕ :=
  if v.cp ≤ v.length then .ok (v.length - v.cp) else .error .overrun

/-- `vty_clear_buf` -/
def clearBuf (v : Vty H) : Vty H := { v with buf := fun i => if i < v.max then 0 else v.buf i }

/-- `vty_out` -/
def out (bs : List UInt8) (v : Vty H) : Vty H := { v with obuf := v.obuf ++ bs }

def newline (v : Vty H) : Vty H := v.out vtyNewline

/-- `vty_write` -/
def write (bs : List UInt8) (v : Vty H) : Vty H :=
  { v with obuf := if v.seat.isAuth then v.obuf else v.obuf ++ bs }

def telnetBackwardChar : UInt8 := 0x08
def telnetSpaceChar : UInt8 := 0x20

variable (e : Setting H)

/-- `vty_prompt` -/
def prompt (v : Vty H) : Vty H := v.out (e.prompt v.seat)

/-- `vty_ensure` -/
def ensure (length : ℕ) (v : Vty H) : Vty H :=
  if v.max ≤ length then
    { v with max := v.max * 2, buf := fun i => if i < v.max then v.buf i else e.heap i }
  else v

/-! ### Characters -/

/-- `vty_self_insert` -/
def selfInsert (c : UInt8) (v : Vty H) : Except Fault (Vty H) := do
  let v := v.ensure e (v.length + 1)
  let length ← v.rest
  let moved ← v.load v.cp length
  let v ← v.store (v.cp + 1) moved
  let v ← v.store v.cp [c]
  let echo ← v.load v.cp (length + 1)
  let v := (v.write echo).write (List.replicate length telnetBackwardChar)
  return { v with cp := v.cp + 1, length := v.length + 1 }

/-- `vty_self_insert_overwrite` -/
def selfInsertOverwrite (c : UInt8) (v : Vty H) : Except Fault (Vty H) := do
  let v := v.ensure e (v.length + 1)
  let v ← v.store v.cp [c]
  let v := { v with cp := v.cp + 1 }
  let v := { v with length := if v.length < v.cp then v.length + 1 else v.length }
  return v.write [c]

/-- `vty_insert_word_overwrite` -/
def insertWordOverwrite (str : List UInt8) (v : Vty H) : Except Fault (Vty H) := do
  let v ← (v.write str).store v.cp (str ++ [0])
  return { v with cp := v.cp + str.length, length := v.cp + str.length }

/-- `vty_forward_char` -/
def forwardChar (v : Vty H) : Except Fault (Vty H) := do
  if v.cp < v.length then
    let c ← v.get v.cp
    return { v.write [c] with cp := v.cp + 1 }
  else
    return v

/-- `vty_backward_char` -/
def backwardChar (v : Vty H) : Except Fault (Vty H) :=
  if 0 < v.cp then
    .ok (write [telnetBackwardChar] { v with cp := v.cp - 1 })
  else
    .ok v

/-- `vty_beginning_of_line` -/
def beginningOfLine : Vty H → Except Fault (Vty H) :=
  loop .hang (fun v => .ok (v.cp ≠ 0)) backwardChar e.turns

/-- `vty_end_of_line` -/
def endOfLine : Vty H → Except Fault (Vty H) :=
  loop .hang (fun v => .ok (v.cp < v.length)) forwardChar e.turns

/-- `vty_redraw_line` -/
def redrawLine (v : Vty H) : Except Fault (Vty H) := do
  let echo ← v.load 0 v.length
  return { v.write echo with cp := v.length }

/-! ### Levels -/

/-- `vty_down_level` -/
def downLevel (v : Vty H) : Vty H :=
  prompt e { v.newline with seat := v.seat.configExit, cp := 0 }

/-- `vty_end_config` -/
def endConfig (v : Vty H) : Vty H :=
  prompt e { v.newline with seat := v.seat.leaveConfig, cp := 0 }

/-- `vty_stop_input` -/
def stopInput (v : Vty H) : Vty H :=
  let v := newline (clearBuf { v with cp := 0, length := 0 })
  prompt e { v with seat := v.seat.leaveConfig, history := v.history.latest }

/-! ### Deleting -/

/-- `vty_delete_char` -/
def deleteChar (v : Vty H) : Except Fault (Vty H) := do
  if v.seat.isAuth then
    return v
  else if v.length = 0 then
    return v.downLevel e
  else if v.cp = v.length then
    return v
  else
    let size ← v.rest
    let v := { v with length := v.length - 1 }
    let moved ← v.load (v.cp + 1) (size - 1)
    let v ← v.store v.cp moved
    let v ← v.store v.length [0]
    let echo ← v.load v.cp (size - 1)
    return ((v.write echo).write [telnetSpaceChar]).write (List.replicate size telnetBackwardChar)

/-- `vty_delete_backward_char` -/
def deleteBackwardChar (v : Vty H) : Except Fault (Vty H) := do
  if v.cp = 0 then
    return v
  else
    let v ← v.backwardChar
    v.deleteChar e

/-- `vty_kill_line` -/
def killLine (v : Vty H) : Except Fault (Vty H) := do
  let size ← v.rest
  if size = 0 then
    return v
  else
    let v := v.write (List.replicate size telnetSpaceChar)
    let v := v.write (List.replicate size telnetBackwardChar)
    let v ← v.store v.cp (List.replicate size 0)
    return { v with length := v.cp }

/-- `vty_kill_line_from_beginning` -/
def killLineFromBeginning (v : Vty H) : Except Fault (Vty H) := do
  let v ← v.beginningOfLine e
  v.killLine

/-! ### Words -/

/-- The test of the loops over the characters from the cursor on. -/
def atCursor (p : UInt8 → Bool) (v : Vty H) : Except Fault Bool := do
  if v.cp = v.length then
    return false
  else
    return p (← v.get v.cp)

/-- The test of the loops over the characters before the cursor. -/
def beforeCursor (p : UInt8 → Bool) (v : Vty H) : Except Fault Bool := do
  if v.cp = 0 then
    return false
  else
    return p (← v.get (v.cp - 1))

def blank (c : UInt8) : Bool := c = telnetSpaceChar
def nonblank (c : UInt8) : Bool := c ≠ telnetSpaceChar

/-- `vty_forward_word` -/
def forwardWord (v : Vty H) : Except Fault (Vty H) := do
  let v ← loop .hang (atCursor nonblank) forwardChar e.turns v
  loop .hang (atCursor blank) forwardChar e.turns v

/-- `vty_backward_pure_word` -/
def backwardPureWord : Vty H → Except Fault (Vty H) :=
  loop .hang (beforeCursor nonblank) backwardChar e.turns

/-- `vty_backward_word` -/
def backwardWord (v : Vty H) : Except Fault (Vty H) := do
  let v ← loop .hang (beforeCursor blank) backwardChar e.turns v
  loop .hang (beforeCursor nonblank) backwardChar e.turns v

/-- `vty_forward_kill_word` -/
def forwardKillWord (v : Vty H) : Except Fault (Vty H) := do
  let v ← loop .hang (atCursor blank) (deleteChar e) e.turns v
  loop .hang (atCursor nonblank) (deleteChar e) e.turns v

/-- `vty_backward_kill_word` -/
def backwardKillWord (v : Vty H) : Except Fault (Vty H) := do
  let v ← loop .hang (beforeCursor blank) (deleteBackwardChar e) e.turns v
  loop .hang (beforeCursor nonblank) (deleteBackwardChar e) e.turns v

/-- `vty_transpose_chars` -/
def transposeChars (v : Vty H) : Except Fault (Vty H) := do
  if v.length < 2 ∨ v.cp < 1 then
    return v
  else if v.cp = v.length then
    let c1 ← v.get (v.cp - 1)
    let c2 ← v.get (v.cp - 2)
    let v ← v.backwardChar
    let v ← v.backwardChar
    let v ← v.selfInsertOverwrite e c1
    v.selfInsertOverwrite e c2
  else
    let c1 ← v.get v.cp
    let c2 ← v.get (v.cp - 1)
    let v ← v.backwardChar
    let v ← v.selfInsertOverwrite e c1
    v.selfInsertOverwrite e c2

/-! ### Lines -/

/-- `vty_history_print` of a line of the history -/
def historyPrint (entry : List UInt8) (v : Vty H) : Except Fault (Vty H) := do
  let v ← v.killLineFromBeginning e
  let v ← v.store 0 entry
  redrawLine { v with cp := entry.length, length := entry.length }

/-- `vty_next_line` and `vty_previous_line`, with the slot that they come to. -/
def lookUp (found : Option (List UInt8 × History)) (v : Vty H) : Except Fault (Vty H) :=
  match found with
  | none => .ok v
  | some (entry, history) => historyPrint e entry { v with history := history }

/-- `vty_hist_add` -/
def histAdd (buf : List UInt8) (v : Vty H) : History :=
  if v.length = 0 then v.history else v.history.add buf

/-- `vty_execute` -/
def execute (v : Vty H) : Except Fault (Vty H) := do
  let buf ← v.line
  let r := if v.seat.isAuth then v.seat.auth buf else e.command buf v.history v.seat
  let history := if v.seat.isAuth then v.history else v.histAdd buf
  let v := clearBuf { v.out r.2 with seat := r.1, history := history, cp := 0, length := 0 }
  return if v.seat.status = .close then v else v.prompt e

/-- The words of the line for `command.c`, with the null pointer behind a space at its end. -/
def words (vline : List (List UInt8)) (v : Vty H) : Except Fault (List (Option (List UInt8))) := do
  if v.length = 0 then
    .error .overrun
  else
    let last ← v.get (v.length - 1)
    return vline.map some ++ if isspace last then [none] else []

/-- `%-10s ` of the words, six of them in a row. -/
def columns (matched : List (List UInt8)) : List UInt8 :=
  (matched.zipIdx.flatMap fun (word, i) =>
    (if i ≠ 0 ∧ i % 6 = 0 then vtyNewline else []) ++
      word ++ List.replicate (10 - word.length) 0x20 ++ [0x20])

/-- `vty_complete_command` -/
def completeCommand (v : Vty H) : Except Fault (Vty H) := do
  if v.seat.isAuth then
    return v
  else
    match makeStrvec (← v.line) with
    | none => return v
    | some vline =>
        let vline ← v.words vline
        let again (v : Vty H) := (v.prompt e).redrawLine
        match e.complete vline v.seat with
        | .errAmbiguous => again (v.newline.out (ascii "% Ambiguous command.")).newline
        | .errNoMatch => again v.newline
        | .errNothingTodo => again v.newline
        | .completeFullMatch matched =>
            let v ← again v.newline
            let v ← v.backwardPureWord e
            let v ← v.insertWordOverwrite matched
            v.selfInsert e telnetSpaceChar
        | .completeMatch matched =>
            let v ← again v.newline
            let v ← v.backwardPureWord e
            v.insertWordOverwrite matched
        | .completeListMatch matched => again (v.newline.out (columns matched)).newline

/-- `vty_describe_command` -/
def describeCommand (v : Vty H) : Except Fault (Vty H) := do
  let vline ← match makeStrvec (← v.line) with
    | none => pure [none]
    | some vline => v.words vline
  let v :=
    match e.describe vline v.seat with
    | .errAmbiguous => (v.newline.out (ascii "% Ambiguous command.")).newline
    | .errNoMatch => (v.newline.out (ascii "% There is no matched command.")).newline
    | .shown text => v.newline.out text
  (v.prompt e).redrawLine

end Vty

/-! ### Keys -/

/-- The functions that `vty_read` calls for an octet. -/
inductive Key where
  | beginningOfLine
  | backwardChar
  | stopInput
  | deleteChar
  | endOfLine
  | forwardChar
  | deleteBackwardChar
  | killLine
  | nextLine
  | previousLine
  | transposeChars
  | killLineFromBeginning
  | backwardKillWord
  | endConfig
  | execute
  | completeCommand
  | describeCommand
  | insert (c : UInt8)
  | backwardWord
  | forwardWord
  | forwardKillWord
  | nothing
  deriving DecidableEq

/-- `vty_escape_map` -/
def escapeMap (c : UInt8) : Key :=
  if c = 0x41 then .previousLine
  else if c = 0x42 then .nextLine
  else if c = 0x43 then .forwardChar
  else if c = 0x44 then .backwardChar
  else .nothing

/-- The switch of the pre-escape status, `[` apart. -/
def preEscapeMap (c : UInt8) : Key :=
  if c = 0x62 then .backwardWord
  else if c = 0x66 then .forwardWord
  else if c = 0x64 then .forwardKillWord
  else if c = 0x08 ∨ c = 0x7f then .backwardKillWord
  else .nothing

/-- The switch over the other octets, the escape character apart. -/
def normalMap (c : UInt8) : Key :=
  if c = 0x01 then .beginningOfLine
  else if c = 0x02 then .backwardChar
  else if c = 0x03 then .stopInput
  else if c = 0x04 then .deleteChar
  else if c = 0x05 then .endOfLine
  else if c = 0x06 then .forwardChar
  else if c = 0x08 ∨ c = 0x7f then .deleteBackwardChar
  else if c = 0x0b then .killLine
  else if c = 0x0e then .nextLine
  else if c = 0x10 then .previousLine
  else if c = 0x14 then .transposeChars
  else if c = 0x15 then .killLineFromBeginning
  else if c = 0x17 then .backwardKillWord
  else if c = 0x1a then .endConfig
  else if c = 0x0a ∨ c = 0x0d then .execute
  else if c = 0x09 then .completeCommand
  else if c = 0x3f then .describeCommand
  else if 31 < c ∧ c < 127 then .insert c
  else .nothing

/-- What an octet does in each state of the escape handling, and the state after it. -/
def keymap : Escape → UInt8 → Key × Escape
  | .escape, c => (escapeMap c, .normal)
  | .preEscape, c => if c = 0x5b then (.nothing, .escape) else (preEscapeMap c, .normal)
  | .normal, c => if c = 0x1b then (.nothing, .preEscape) else (normalMap c, .normal)

namespace Vty

variable (e : Setting H)

def act (k : Key) (v : Vty H) : Except Fault (Vty H) :=
  match k with
  | .beginningOfLine => v.beginningOfLine e
  | .backwardChar => v.backwardChar
  | .stopInput => .ok (v.stopInput e)
  | .deleteChar => v.deleteChar e
  | .endOfLine => v.endOfLine e
  | .forwardChar => v.forwardChar
  | .deleteBackwardChar => v.deleteBackwardChar e
  | .killLine => v.killLine
  | .nextLine => v.lookUp e v.history.next
  | .previousLine => v.lookUp e v.history.previous
  | .transposeChars => v.transposeChars e
  | .killLineFromBeginning => v.killLineFromBeginning e
  | .backwardKillWord => v.backwardKillWord e
  | .endConfig => .ok (v.endConfig e)
  | .execute => v.newline.execute e
  | .completeCommand => v.completeCommand e
  | .describeCommand => if v.seat.isAuth then v.selfInsert e 0x3f else v.describeCommand e
  | .insert c => v.selfInsert e c
  | .backwardWord => v.backwardWord e
  | .forwardWord => v.forwardWord e
  | .forwardKillWord => v.forwardKillWord e
  | .nothing => .ok v

/-- An octet that has passed the telnet options. -/
def press (c : UInt8) (v : Vty H) : Except Fault (Vty H) := do
  let v' ← v.act e (keymap v.escape c).1
  return { v' with escape := (keymap v.escape c).2 }

/-- Octets one after the other. -/
def pressAll (os : List UInt8) (v : Vty H) : Except Fault (Vty H) :=
  os.foldlM (fun v o => v.press e o) v

/-- `vty_create`: the node is the first one of the session, and `hello` is what `vty_hello` and the
request for the password put out. -/
def create (node : NodeType) (host : Host H) (hello : List UInt8) : Vty H :=
  prompt e
    { seat := ⟨node, .normal, false, 0, host⟩
      obuf := hello ++
        -- WILL ECHO, WILL SGA, DONT LINEMODE, DO NAWS
        [0xff, 0xfb, 0x01, 0xff, 0xfb, 0x03, 0xff, 0xfe, 0x22, 0xff, 0xfd, 0x1f]
      buf := Mem.blank
      cp := 0
      length := 0
      max := vtyBufsiz
      history := .clear
      escape := .normal }

end Vty

end SoftBts
