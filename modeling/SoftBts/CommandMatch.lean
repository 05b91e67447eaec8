import SoftBts.CommandTable
import SoftBts.Vty

/-! How a line is matched with the commands of a node: the filters for one word, the test for
ambiguity, and `cmd_execute_command_real` with its strict twin up to the call of the command. A vector
whose slots are set to the null pointer is a list that gets shorter here, for all its readers skip
these slots. To read a slot behind the words of a command is a fault, and so is to write an argument
behind the room for arguments. -/

namespace SoftBts

/-! ### Numbers and addresses -/

def isdigit (c : UInt8) : Bool := 0x30 ≤ c && c ≤ 0x39

/-- The value of decimal digits. -/
def decimal (s : List UInt8) : ℕ := s.foldl (fun n c => 10 * n + (c.toNat - 0x30)) 0

def ulongMax : ℕ := 18446744073709551615

/-- `strtoul` in base 10, with what is behind the number. -/
def strtoul (str : List UInt8) : ℕ × List UInt8 :=
  let s := str.dropWhile isspace
  let negative := s.head? = some 0x2d
  let s := if negative ∨ s.head? = some 0x2b then s.tail else s
  let digits := s.takeWhile isdigit
  if digits = [] then (0, str)
  else if ulongMax < decimal digits then (ulongMax, s.dropWhile isdigit)
  else if negative then ((ulongMax + 1 - decimal digits) % (ulongMax + 1), s.dropWhile isdigit)
  else (decimal digits, s.dropWhile isdigit)

/-- `atoi` of decimal digits: the value as a `long`, of which an `int` is left. -/
def atoi (digits : List UInt8) : ℤ :=
  let n := min (decimal digits) 9223372036854775807 % 4294967296
  if n < 2147483648 then n else (n : ℤ) - 4294967296

/-- `enum match_type`, without the matches of IPv6. -/
inductive MatchType where
  | noMatch
  | extend
  | ipv4Prefix
  | ipv4
  | range
  | vararg
  | partly
  | exact
  deriving DecidableEq

/-- The place in the enumeration. -/
def MatchType.rank : MatchType → ℕ
  | .noMatch => 0
  | .extend => 1
  | .ipv4Prefix => 2
  | .ipv4 => 3
  | .range => 6
  | .vararg => 7
  | .partly => 8
  | .exact => 9

/-- The number in front of a dot or of the end; with `slash` also in front of a slash. -/
def ipv4Part (slash : Bool) (dots : ℕ) : List UInt8 → Except MatchType (List UInt8 × List UInt8)
  | [] => .ok ([], [])
  | c :: str =>
      if slash && c == 0x2f then .ok ([], c :: str)
      else if c = 0x2e then
        if 3 ≤ dots then .error .noMatch
        else
          match str with
          | [] => .error .partly
          | d :: _ =>
              if d = 0x2e ∨ (slash && d == 0x2f) = true then .error .noMatch else .ok ([], c :: str)
      else if isdigit c then
        (ipv4Part slash dots str).map fun r => (c :: r.1, r.2)
      else .error .noMatch

theorem ipv4Part_append {slash : Bool} {dots : ℕ} {str digits rest : List UInt8}
    (h : ipv4Part slash dots str = .ok (digits, rest)) : digits ++ rest = str := by
  induction str generalizing digits rest with
  | nil =>
      cases h
      rfl
  | cons c str ih =>
      rw [ipv4Part.eq_def] at h
      dsimp only at h
      split at h
      · cases h
        rfl
      · split at h
        · split at h
          · cases h
          · split at h
            · cases h
            · split at h
              · cases h
              · cases h
                rfl
        · split at h
          · cases hpart : ipv4Part slash dots str with
            | error m =>
                rw [hpart] at h
                cases h
            | ok r =>
                rw [hpart] at h
                obtain ⟨rfl, rfl⟩ := Prod.mk.inj (Except.ok.inj h)
                exact congrArg (c :: ·) (ih hpart)
          · cases h

/-- The loop of `cmd_ipv4_match`. -/
def ipv4Numbers (dots nums : ℕ) (str : List UInt8) : MatchType :=
  match _hpart : ipv4Part false dots str with
  | .error m => m
  | .ok (digits, rest) =>
      if 3 < digits.length ∨ 255 < atoi digits then .noMatch
      else
        match rest with
        | [] => if nums + 1 < 4 then .partly else .exact
        | _ :: str' => ipv4Numbers (dots + 1) (nums + 1) str'
termination_by str.length
decreasing_by
  rw [← ipv4Part_append _hpart, List.length_append, List.length_cons]
  omega

def cmdIpv4Match (str : List UInt8) : MatchType := ipv4Numbers 0 0 str

/-- The loop of `cmd_ipv4_prefix_match`; a slash in front of the last number counts as a dot does. -/
def ipv4PrefixNumbers (dots : ℕ) (str : List UInt8) : MatchType :=
  match _hpart : ipv4Part true dots str with
  | .error m => m
  | .ok (digits, rest) =>
      if 3 < digits.length ∨ 255 < atoi digits then .noMatch
      else
        match rest with
        | [] => .partly
        | c :: str' =>
            let dots := if c = 0x2e then dots + 1 else dots
            if dots = 3 ∧ c = 0x2f then
              if str' = [] then .partly
              else if str'.all isdigit then (if 32 < atoi str' then .noMatch else .exact)
              else .noMatch
            else ipv4PrefixNumbers dots str'
termination_by str.length
decreasing_by
  rw [← ipv4Part_append _hpart, List.length_append, List.length_cons]
  omega

def cmdIpv4PrefixMatch (str : List UInt8) : MatchType := ipv4PrefixNumbers 0 str

/-- The number of a range in front of a character. -/
def rangeNumber (stop : UInt8) (range : List UInt8) : Option (ℕ × List UInt8) :=
  if stop ∈ range then
    let buf := range.takeWhile (· ≠ stop)
    if 10 < buf.length ∨ (strtoul buf).2 ≠ [] then none
    else some ((strtoul buf).1, (range.dropWhile (· ≠ stop)).tail)
  else none

/-- `cmd_range_match` -/
def cmdRangeMatch (range str : List UInt8) : Bool :=
  if (strtoul str).2 ≠ [] then false
  else
    match rangeNumber 0x2d range.tail with
    | none => false
    | some (min, range) =>
        match rangeNumber 0x3e range with
        | none => false
        | some (max, _) => min ≤ (strtoul str).1 && (strtoul str).1 ≤ max

/-! ### Filters -/

variable {F : Type}

def ipv4Str : List UInt8 := ascii "A.B.C.D"

def ipv4PrefixStr : List UInt8 := ascii "A.B.C.D/M"

/-- How the filters take a word of a line for a word of a command: the address matches that count, and
what a keyword comes to. -/
def wordMatch (address : MatchType → Bool) (literal : Option MatchType) (command str : List UInt8) :
    Option MatchType :=
  if cmdVararg str then some .vararg
  else if cmdRange str then if cmdRangeMatch str command then some .range else none
  else if str = ipv4Str then if address (cmdIpv4Match command) then some .ipv4 else none
  else if str = ipv4PrefixStr then
    if address (cmdIpv4PrefixMatch command) then some .ipv4Prefix else none
  else if cmdOption str || cmdVariable str then some .extend
  else literal

/-- The word in `cmd_filter_by_completion` -/
def completionMatch (command str : List UInt8) : Option MatchType :=
  wordMatch (· ≠ .noMatch)
    (if command <+: str then some (if command = str then .exact else .partly) else none) command str

/-- The word in `cmd_filter_by_string` -/
def stringMatch (command str : List UInt8) : Option MatchType :=
  wordMatch (· = .exact) (if command = str then some .exact else none) command str

/-- The words at a position of a command; none where it has no such position, which the filters look
at first. -/
def CmdElement.descvec (e : CmdElement F) (index : ℕ) : List Desc := e.strvec.getD index []

def MatchType.raise (m m' : MatchType) : MatchType := if m.rank < m'.rank then m' else m

/-- The matches of a word with the words at a position of the commands. -/
def wordMatches (how : List UInt8 → List UInt8 → Option MatchType) (command : List UInt8) (index : ℕ)
    (e : CmdElement F) : List MatchType :=
  (e.descvec index).filterMap fun desc => how command desc.cmd

/-- The loop of both filters: the best match, and the commands that have one at the position. -/
def cmdFilterBy (how : List UInt8 → List UInt8 → Option MatchType) (command : List UInt8)
    (v : List (CmdElement F)) (index : ℕ) : MatchType × List (CmdElement F) :=
  ((v.flatMap (wordMatches how command index)).foldl MatchType.raise .noMatch,
    v.filter fun e => wordMatches how command index e ≠ [])

def cmdFilterByCompletion (command : List UInt8) (v : List (CmdElement F)) (index : ℕ) :
    MatchType × List (CmdElement F) :=
  cmdFilterBy completionMatch command v index

def cmdFilterByString (command : List UInt8) (v : List (CmdElement F)) (index : ℕ) :
    MatchType × List (CmdElement F) :=
  cmdFilterBy stringMatch command v index

/-! ### Ambiguity -/

/-- What `is_cmd_ambiguous` returns when it is not 0. -/
inductive Ambiguity where
  | ambiguous
  | incomplete
  deriving DecidableEq

/-- A keyword, as `is_cmd_ambiguous` tells it from arguments. -/
def keyword (str : List UInt8) : Bool := !(cmdOption str || cmdVariable str)

/-- One word of a command in `is_cmd_ambiguous`: the word that has matched so far, and whether the
command has one. -/
def ambiguousDesc (command : List UInt8) (type : MatchType) (str : List UInt8)
    (s : Option (List UInt8) × Bool) : Except Ambiguity (Option (List UInt8) × Bool) :=
  let only (hit : Bool) : Except Ambiguity (Option (List UInt8) × Bool) :=
    if hit then
      match s.1 with
      | some matched => if matched ≠ str then .error .ambiguous else .ok (some str, true)
      | none => .ok (some str, true)
    else .ok s
  match type with
  | .exact => .ok (s.1, s.2 || (keyword str && command == str))
  | .partly => only (keyword str && command.isPrefixOf str)
  | .range => only (cmdRangeMatch str command)
  | .ipv4 => .ok (s.1, s.2 || str == ipv4Str)
  | .ipv4Prefix =>
      match cmdIpv4PrefixMatch command with
      | .noMatch => .ok s
      | .partly => .error .incomplete
      | _ => .ok (s.1, true)
  | .extend => .ok (s.1, s.2 || cmdOption str || cmdVariable str)
  | .noMatch | .vararg => .ok s

/-- `is_cmd_ambiguous`, from a word that has matched on, for commands that have a word at the position:
what it returns, and the commands that are left. A return in the middle leaves the others as they are. -/
def isCmdAmbiguous (command : List UInt8) (index : ℕ) (type : MatchType) :
    List (CmdElement F) → Option (List UInt8) → Option Ambiguity × List (CmdElement F)
  | [], _ => (none, [])
  | e :: v, matched =>
      match (e.descvec index).foldlM (fun s desc => ambiguousDesc command type desc.cmd s)
          (matched, false) with
      | .error a => (some a, e :: v)
      | .ok (matched, hit) =>
          let r := isCmdAmbiguous command index type v matched
          (r.1, if hit then e :: r.2 else r.2)

/-! ### Lines -/

/-- `CMD_ARGC_MAX` -/
def cmdArgcMax : ℕ := 25

/-- The loop over the words, when it reads no slot that is not there: the last match, the number of words
in front of it or of the end, and the commands that are left. A match of `.VARARG` ends it. -/
def matchWords (how : List UInt8 → List UInt8 → Option MatchType) :
    List (List UInt8) → ℕ → MatchType → List (CmdElement F) →
    Except CmdReturn (MatchType × ℕ × List (CmdElement F))
  | [], index, m, v => .ok (m, index, v)
  | command :: vline, index, _, v =>
      let r := cmdFilterBy how command v index
      if r.1 = .vararg then .ok (.vararg, index, r.2)
      else
        match isCmdAmbiguous command index r.1 r.2 none with
        | (some .ambiguous, _) => .error .errAmbiguous
        | (some .incomplete, _) => .error .errNoMatch
        | (none, v) => matchWords how vline (index + 1) r.1 v

theorem matchWords_cons (how : List UInt8 → List UInt8 → Option MatchType) (command : List UInt8)
    (vline : List (List UInt8)) (index : ℕ) (m : MatchType) (v : List (CmdElement F)) :
    matchWords how (command :: vline) index m v =
      if (cmdFilterBy how command v index).1 = .vararg then
        .ok (.vararg, index, (cmdFilterBy how command v index).2)
      else
        match isCmdAmbiguous command index (cmdFilterBy how command v index).1
            (cmdFilterBy how command v index).2 none with
        | (some .ambiguous, _) => .error .errAmbiguous
        | (some .incomplete, _) => .error .errNoMatch
        | (none, v') => matchWords how vline (index + 1) (cmdFilterBy how command v index).1 v' :=
  rfl

/-- `vector_slot` of the words of a command -/
def CmdElement.slot (e : CmdElement F) (index : ℕ) : Except Fault (List Desc) :=
  match e.strvec[index]? with
  | some descvec => .ok descvec
  | none => .error .overrun

namespace Checked

/-- `is_cmd_ambiguous`, which does not look whether a command has a word at the position. -/
def isCmdAmbiguous (command : List UInt8) (index : ℕ) (type : MatchType) :
    List (CmdElement F) → Option (List UInt8) → Except Fault (Option Ambiguity × List (CmdElement F))
  | [], _ => .ok (none, [])
  | e :: v, matched =>
      (e.slot index).bind fun descvec =>
        match descvec.foldlM (fun s desc => ambiguousDesc command type desc.cmd s) (matched, false) with
        | .error a => .ok (some a, e :: v)
        | .ok (matched, hit) =>
            (isCmdAmbiguous command index type v matched).map fun r =>
              (r.1, if hit then e :: r.2 else r.2)

/-- The loop over the words, with the slots that it reads. -/
def matchWords (how : List UInt8 → List UInt8 → Option MatchType) :
    List (List UInt8) → ℕ → MatchType → List (CmdElement F) →
    Except Fault (Except CmdReturn (MatchType × ℕ × List (CmdElement F)))
  | [], index, m, v => .ok (.ok (m, index, v))
  | command :: vline, index, _, v =>
      let r := cmdFilterBy how command v index
      if r.1 = .vararg then .ok (.ok (.vararg, index, r.2))
      else
        (isCmdAmbiguous command index r.1 r.2 none).bind fun r' =>
          match r' with
          | (some .ambiguous, _) => .ok (.error .errAmbiguous)
          | (some .incomplete, _) => .ok (.error .errNoMatch)
          | (none, v) => matchWords how vline (index + 1) r.1 v

end Checked

/-- `argv[argc++] = word` -/
def pushArgument (word : List UInt8) (argv : List (List UInt8)) : Except Fault (List (List UInt8)) :=
  if argv.length < cmdArgcMax then .ok (argv ++ [word]) else .error .overrun

theorem room_nil : ([] : List (List UInt8)).length < cmdArgcMax := by decide

/-- The words that the command gets, and `none` when there are too many, which is looked at behind each
word. The vector of the command has no slot for a word in front of `.VARARG` that is one too many. -/
def argumentWords (varflag : Bool) :
    List (List UInt8) → List (List Desc) → List (List UInt8) →
    Except Fault (Option (List (List UInt8)))
  | [], _, argv => .ok (some argv)
  | word :: vline, strvec, argv =>
      if varflag then
        (pushArgument word argv).bind fun argv =>
          if cmdArgcMax ≤ argv.length then .ok none
          else argumentWords true vline strvec.tail argv
      else
        match strvec with
        | [] => .error .overrun
        | [desc] :: strvec =>
            (if cmdVararg desc.cmd || cmdVariable desc.cmd || cmdOption desc.cmd then
                pushArgument word argv
              else .ok argv).bind fun argv =>
              if cmdArgcMax ≤ argv.length then .ok none
              else argumentWords (cmdVararg desc.cmd) vline strvec argv
        | _ :: strvec =>
            (pushArgument word argv).bind fun argv =>
              if cmdArgcMax ≤ argv.length then .ok none
              else argumentWords false vline strvec argv

/-- A turn of the loop over the arguments, when there is room for one. -/
theorem argumentWords_cons {argv : List (List UInt8)} (h : argv.length < cmdArgcMax) (varflag : Bool)
    (word : List UInt8) (vline : List (List UInt8)) (strvec : List (List Desc)) :
    argumentWords varflag (word :: vline) strvec argv =
      if varflag then
        if cmdArgcMax ≤ (argv ++ [word]).length then .ok none
        else argumentWords true vline strvec.tail (argv ++ [word])
      else
        match strvec with
        | [] => .error .overrun
        | [desc] :: strvec =>
            let argv' :=
              if cmdVararg desc.cmd || cmdVariable desc.cmd || cmdOption desc.cmd then argv ++ [word]
              else argv
            if cmdArgcMax ≤ argv'.length then .ok none
            else argumentWords (cmdVararg desc.cmd) vline strvec argv'
        | _ :: strvec =>
            if cmdArgcMax ≤ (argv ++ [word]).length then .ok none
            else argumentWords false vline strvec (argv ++ [word]) := by
  have hpush : pushArgument word argv = .ok (argv ++ [word]) := if_pos h
  rw [argumentWords.eq_def]
  simp only [hpush]
  split
  · rfl
  · split
    · rfl
    · split <;> rfl
    · rfl

/-- What `cmd_execute_command_real` comes to in front of the call of the command. -/
inductive Matched (F : Type) where
  | refused (ret : CmdReturn)
  | call (e : CmdElement F) (argv : List (List UInt8))

/-- What follows the loop over the words: the matched commands are counted, and the one gets its
arguments. -/
def callMatched (vline : List (List UInt8)) :
    Except CmdReturn (MatchType × ℕ × List (CmdElement F)) → Except Fault (Matched F)
  | .error ret => .ok (.refused ret)
  | .ok (m, index, left) =>
      match left.filter fun e => m = .vararg ∨ e.cmdsize ≤ index with
      | [] => .ok (.refused (if left.isEmpty then .errNoMatch else .errIncomplete))
      | [e] =>
          (argumentWords false vline e.strvec []).map fun
            | none => .refused .errExeedArgcMax
            | some argv => if e.daemon then .refused .successDaemon else .call e argv
      | _ => .ok (.refused .errAmbiguous)

def matchLine (how : List UInt8 → List UInt8 → Option MatchType) (v : List (CmdElement F))
    (vline : List (List UInt8)) : Except Fault (Matched F) :=
  (Checked.matchWords how vline 0 .noMatch v).bind (callMatched vline)

/-- `cmd_execute_command_real` -/
def matchReal (v : List (CmdElement F)) (vline : List (List UInt8)) : Except Fault (Matched F) :=
  matchLine completionMatch v vline

/-- `cmd_execute_command_strict` -/
def matchStrict (v : List (CmdElement F)) (vline : List (List UInt8)) : Except Fault (Matched F) :=
  matchLine stringMatch v vline

end SoftBts
