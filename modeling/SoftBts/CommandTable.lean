import Mathlib.Data.List.TakeWhile
import SoftBts.CommandLine

/-! The commands that `install_element` puts into the command tree: `cmd_make_descvec` reads the
words of a command and their descriptions from two texts, and reads back what is written in its
notation. -/

namespace SoftBts

/-- `struct desc` -/
structure Desc where
  cmd : List UInt8
  str : Option (List UInt8)
  deriving DecidableEq

def cmdOption (s : List UInt8) : Bool := s.head? = some 0x5b

def cmdRange (s : List UInt8) : Bool := s.head? = some 0x3c

def cmdVararg (s : List UInt8) : Bool := s.head? = some 0x2e

def cmdVariable (s : List UInt8) : Bool := s.head?.any fun c => (0x41 ≤ c && c ≤ 0x5a) || c == 0x3c

/-- `struct cmd_element`: what the command does, its words, and whether another daemon runs it. -/
structure CmdElement (F : Type) where
  func : F
  strvec : List (List Desc)
  daemon : Bool

/-- `cmd_cmdsize`: the words that have to come. -/
def cmdCmdsize : List (List Desc) → ℕ
  | [] => 0
  | [desc] :: strvec => if cmdOption desc.cmd then 0 else cmdCmdsize strvec + 1
  | _ :: strvec => cmdCmdsize strvec + 1

def CmdElement.cmdsize {F : Type} (e : CmdElement F) : ℕ := cmdCmdsize e.strvec

/-! ### The reader -/

/-- `cmd_desc_str`: the next line of the descriptions, and what is behind it. -/
def cmdDescStr (string : List UInt8) : Option (List UInt8) × List UInt8 :=
  match string.dropWhile isspace with
  | [] => (none, string)
  | c :: cs =>
      (some ((c :: cs).takeWhile fun d => d != 0x0d && d != 0x0a),
        (c :: cs).dropWhile fun d => d != 0x0d && d != 0x0a)

/-- A character that ends no word of a command. -/
def specChar (c : UInt8) : Bool := !(isspace c || c == 0x29 || c == 0x7c)

/-- `(` begins a choice. -/
def opened (cp : List UInt8) (multiple : ℕ) : List UInt8 × ℕ :=
  if cp.head? = some 0x28 then (cp.tail, 1) else (cp, multiple)

/-- `)` ends it. -/
def closed (cp : List UInt8) (multiple : ℕ) : List UInt8 × ℕ :=
  if cp.head? = some 0x29 then (cp.tail, 0) else (cp, multiple)

/-- `|` is an error outside of a choice; what is behind it may begin one again. -/
def barred (cp : List UInt8) (multiple : ℕ) : Option (List UInt8 × ℕ) :=
  if cp.head? = some 0x7c then
    if multiple = 0 then none else some (opened (cp.tail.dropWhile isspace) multiple)
  else some (opened (cp.dropWhile isspace) multiple)

/-- What the loop of `cmd_make_descvec` does in front of a word. -/
def wordStart (cp : List UInt8) (multiple : ℕ) : Option (List UInt8 × ℕ) :=
  let a := opened (cp.dropWhile isspace) multiple
  let b := closed a.1 a.2
  barred b.1 b.2

/-- `vector_set` on the vector of the choice. -/
def setLast (desc : Desc) : List (List Desc) → List (List Desc)
  | [] => []
  | [strvec] => [strvec ++ [desc]]
  | strvec :: allvec => strvec :: setLast desc allvec

theorem opened_suffix (cp : List UInt8) (m : ℕ) : (opened cp m).1 <:+ cp := by
  unfold opened
  split
  · exact List.tail_suffix cp
  · exact List.suffix_rfl

theorem closed_suffix (cp : List UInt8) (m : ℕ) : (closed cp m).1 <:+ cp := by
  unfold closed
  split
  · exact List.tail_suffix cp
  · exact List.suffix_rfl

theorem wordStart_space {c : UInt8} (h : isspace c = true) (cs : List UInt8) (m : ℕ) :
    wordStart (c :: cs) m = wordStart cs m := by
  rw [wordStart, wordStart, List.dropWhile_cons_of_pos h]

theorem barred_suffix {cp w : List UInt8} {m m' : ℕ} (h : barred cp m = some (w, m')) : w <:+ cp := by
  rw [barred] at h
  split at h
  · split at h
    · cases h
    · obtain ⟨rfl, -⟩ := Prod.mk.inj (Option.some.inj h)
      exact ((opened_suffix _ _).trans (List.dropWhile_suffix _)).trans (List.tail_suffix _)
  · obtain ⟨rfl, -⟩ := Prod.mk.inj (Option.some.inj h)
    exact (opened_suffix _ _).trans (List.dropWhile_suffix _)

/-- What is in front of a word is taken from the front. -/
theorem wordStart_suffix {cp w : List UInt8} {m m' : ℕ} (h : wordStart cp m = some (w, m')) :
    w <:+ cp :=
  (barred_suffix h).trans
    (((closed_suffix _ _).trans (opened_suffix _ _)).trans (List.dropWhile_suffix _))

/-- What can begin no word is taken. -/
theorem wordStart_mark {c : UInt8} {cs w : List UInt8} {m m' : ℕ} (hc : specChar c = false)
    (h : wordStart (c :: cs) m = some (w, m')) : w <:+ cs := by
  cases hspace : isspace c with
  | true => exact wordStart_suffix (wordStart_space hspace cs m ▸ h)
  | false =>
      have hmark : c = 0x29 ∨ c = 0x7c := by
        by_contra hno
        rw [not_or] at hno
        simp [specChar, hspace, hno] at hc
      rw [wordStart, List.dropWhile_cons_of_neg (by simp [hspace])] at h
      rcases hmark with rfl | rfl
      · exact barred_suffix (m := 0) h
      · change (if m = 0 then none else some (opened (cs.dropWhile isspace) m)) = _ at h
        split at h
        · cases h
        · obtain ⟨rfl, -⟩ := Prod.mk.inj (Option.some.inj h)
          exact (opened_suffix _ _).trans (List.dropWhile_suffix _)

/-- The loop comes closer to the end of the text: what it does not skip begins a word. -/
theorem wordStart_less {cp w : List UInt8} {m m' : ℕ} (h : wordStart cp m = some (w, m'))
    (hw : w ≠ []) : (w.dropWhile specChar).length < cp.length := by
  have hdrop : (w.dropWhile specChar).length ≤ w.length := (List.dropWhile_suffix _).length_le
  cases cp with
  | nil => exact absurd (List.suffix_nil.mp (wordStart_suffix h)) hw
  | cons c cs =>
      cases hc : specChar c with
      | false => exact Nat.lt_succ_of_le (hdrop.trans (wordStart_mark hc h).length_le)
      | true =>
          rcases List.suffix_cons_iff.mp (wordStart_suffix h) with rfl | hsuffix
          · rw [List.dropWhile_cons_of_pos hc]
            exact Nat.lt_succ_of_le (List.dropWhile_suffix _).length_le
          · exact Nat.lt_succ_of_le (hdrop.trans hsuffix.length_le)

/-- `cmd_make_descvec`; there is no vector when the text is not in the notation. -/
def makeDescvec (cp dp : List UInt8) (multiple : ℕ) (allvec : List (List Desc)) :
    Option (List (List Desc)) :=
  match _hstart : wordStart cp multiple with
  | none => none
  | some (start, m) =>
      if _hend : start = [] then some allvec
      else
        let desc : Desc := ⟨start.takeWhile specChar, (cmdDescStr dp).1⟩
        makeDescvec (start.dropWhile specChar) (cmdDescStr dp).2 (if m = 0 then 0 else m + 1)
          (if m ≤ 1 then allvec ++ [[desc]] else setLast desc allvec)
termination_by cp.length
decreasing_by exact wordStart_less ‹_› ‹_›

def cmdMakeDescvec (string descstr : List UInt8) : Option (List (List Desc)) :=
  makeDescvec string descstr 0 []

theorem makeDescvec_some {cp start : List UInt8} {m k : ℕ} (h : wordStart cp m = some (start, k))
    (dp : List UInt8) (allvec : List (List Desc)) :
    makeDescvec cp dp m allvec =
      if start = [] then some allvec
      else
        let desc : Desc := ⟨start.takeWhile specChar, (cmdDescStr dp).1⟩
        makeDescvec (start.dropWhile specChar) (cmdDescStr dp).2 (if k = 0 then 0 else k + 1)
          (if k ≤ 1 then allvec ++ [[desc]] else setLast desc allvec) := by
  rw [makeDescvec]
  split
  · rename_i hnone
    rw [h] at hnone
    cases hnone
  · rename_i start' k' hstart
    rw [h] at hstart
    obtain ⟨rfl, rfl⟩ := Prod.mk.inj (Option.some.inj hstart)
    rw [dite_eq_ite]

theorem makeDescvec_none {cp : List UInt8} {m : ℕ} (h : wordStart cp m = none) (dp : List UInt8)
    (allvec : List (List Desc)) : makeDescvec cp dp m allvec = none := by
  rw [makeDescvec]
  split
  · rfl
  · rename_i hstart
    rw [h] at hstart
    cases hstart

/-- A space in front changes nothing. -/
theorem makeDescvec_space {c : UInt8} (h : isspace c = true) (cs dp : List UInt8) (m : ℕ)
    (allvec : List (List Desc)) : makeDescvec (c :: cs) dp m allvec = makeDescvec cs dp m allvec := by
  cases hstart : wordStart cs m with
  | none =>
      rw [makeDescvec_none hstart, makeDescvec_none ((wordStart_space h cs m).trans hstart)]
  | some r => rw [makeDescvec_some hstart, makeDescvec_some ((wordStart_space h cs m).trans hstart)]

/-! ### The notation -/

/-- A line that can be a description. -/
def descLine (line : List UInt8) : Bool :=
  line.head?.any (fun c => !isspace c) && line.all fun c => c != 0x0d && c != 0x0a

/-- A word of a command and its description, as they can be written. -/
structure Desc.Written (d : Desc) : Prop where
  cmd_ne_nil : d.cmd ≠ []
  cmd_head : d.cmd.head? ≠ some 0x28
  cmd : ∀ c ∈ d.cmd, specChar c = true
  str : d.str.any descLine = true

instance (d : Desc) : Decidable d.Written :=
  decidable_of_iff (d.cmd ≠ [] ∧ d.cmd.head? ≠ some 0x28 ∧ d.cmd.all specChar = true ∧
    d.str.any descLine = true)
    ⟨fun ⟨h1, h2, h3, h4⟩ => ⟨h1, h2, List.all_eq_true.mp h3, h4⟩,
      fun ⟨h1, h2, h3, h4⟩ => ⟨h1, h2, List.all_eq_true.mpr h3, h4⟩⟩

theorem Desc.Written.line {d : Desc} (h : d.Written) :
    ∃ c line, d.str = some (c :: line) ∧ isspace c = false ∧
      ∀ c' ∈ c :: line, (c' != 0x0d && c' != 0x0a) = true := by
  have hstr := h.str
  cases hd : d.str with
  | none =>
      rw [hd] at hstr
      cases hstr
  | some line =>
      rw [hd] at hstr
      obtain ⟨hhead, hline⟩ := Bool.and_eq_true_iff.mp hstr
      cases line with
      | nil => cases hhead
      | cons c line => exact ⟨c, line, rfl, by simpa using hhead, List.all_eq_true.mp hline⟩

/-- A position of a command: a word, or a choice of words. -/
def writePosition : List Desc → List UInt8
  | [] => []
  | [d] => d.cmd
  | d :: ds => 0x28 :: (d.cmd ++ ds.flatMap fun d => 0x7c :: d.cmd) ++ [0x29]

/-- The text of a command. -/
def writeCommand (strvec : List (List Desc)) : List UInt8 :=
  (strvec.flatMap fun ds => 0x20 :: writePosition ds).tail

/-- The descriptions of words, line by line. -/
def writeDoc (ds : List Desc) : List UInt8 := ds.flatMap fun d => d.str.getD [] ++ [0x0a]

theorem writeDoc_trim {ds : List Desc} (h : ∀ d ∈ ds, d.Written) :
    (writeDoc ds).dropWhile isspace = writeDoc ds := by
  cases ds with
  | nil => rfl
  | cons d ds =>
      obtain ⟨c, line, hline, hspace, -⟩ := (h d List.mem_cons_self).line
      rw [writeDoc, List.flatMap_cons, hline, Option.getD_some]
      exact List.dropWhile_cons_of_neg (by simp [hspace])

/-- A description that has been read. -/
theorem cmdDescStr_written {d : Desc} {ds : List Desc} (h : ∀ d' ∈ d :: ds, d'.Written)
    {dp : List UInt8} (hdp : dp.dropWhile isspace = writeDoc (d :: ds)) :
    (cmdDescStr dp).1 = d.str ∧ (cmdDescStr dp).2.dropWhile isspace = writeDoc ds := by
  obtain ⟨c, line, hline, hspace, hchars⟩ := (h d List.mem_cons_self).line
  rw [writeDoc, List.flatMap_cons, hline, Option.getD_some] at hdp
  have hdoc : dp.dropWhile isspace = (c :: line) ++ 0x0a :: writeDoc ds := by
    rw [hdp, List.append_assoc]
    rfl
  have hread : cmdDescStr dp = (some (c :: line), 0x0a :: writeDoc ds) := by
    rw [cmdDescStr, hdoc]
    change (some (((c :: line) ++ 0x0a :: writeDoc ds).takeWhile _),
      ((c :: line) ++ 0x0a :: writeDoc ds).dropWhile _) = _
    rw [List.takeWhile_append_of_pos hchars, List.dropWhile_append_of_pos hchars]
    simp
  rw [hread, hline]
  exact ⟨rfl, writeDoc_trim fun d' hd' => h d' (List.mem_cons_of_mem _ hd')⟩

/-- The text behind a word: it is at its end, or the next character is in no word. -/
def Stops (rest : List UInt8) : Prop := rest.head?.any specChar = false

/-- A word that has been read. -/
theorem makeDescvec_word {d : Desc} {ds : List Desc} (h : ∀ d' ∈ d :: ds, d'.Written)
    {cp rest dp : List UInt8} {m k : ℕ} (hstart : wordStart cp m = some (d.cmd ++ rest, k))
    (hrest : Stops rest) (hdp : dp.dropWhile isspace = writeDoc (d :: ds))
    (allvec : List (List Desc)) :
    ∃ dp', dp'.dropWhile isspace = writeDoc ds ∧
      makeDescvec cp dp m allvec = makeDescvec rest dp' (if k = 0 then 0 else k + 1)
        (if k ≤ 1 then allvec ++ [[d]] else setLast d allvec) := by
  have hd := h d List.mem_cons_self
  obtain ⟨hstr, hdp'⟩ := cmdDescStr_written h hdp
  have hne : d.cmd ++ rest ≠ [] := fun hnil => hd.cmd_ne_nil (List.append_eq_nil_iff.mp hnil).1
  have htake : rest.takeWhile specChar = [] ∧ rest.dropWhile specChar = rest := by
    cases rest with
    | nil => exact ⟨rfl, rfl⟩
    | cons c rest =>
        have hc : ¬ specChar c = true := Bool.eq_false_iff.mp hrest
        exact ⟨List.takeWhile_cons_of_neg hc, List.dropWhile_cons_of_neg hc⟩
  refine ⟨(cmdDescStr dp).2, hdp', ?_⟩
  rw [makeDescvec_some hstart, if_neg hne, List.takeWhile_append_of_pos hd.cmd,
    List.dropWhile_append_of_pos hd.cmd, htake.1, htake.2, List.append_nil, hstr]

theorem Desc.Written.dropWhile {d : Desc} (h : d.Written) (rest : List UInt8) :
    (d.cmd ++ rest).dropWhile isspace = d.cmd ++ rest ∧ (d.cmd ++ rest).head? ≠ some 0x28 ∧
      (d.cmd ++ rest).head? ≠ some 0x29 ∧ (d.cmd ++ rest).head? ≠ some 0x7c := by
  obtain ⟨c, cs, hcmd⟩ := List.exists_cons_of_ne_nil h.cmd_ne_nil
  have hc := h.cmd c (hcmd ▸ List.mem_cons_self)
  have hhead := h.cmd_head
  rw [hcmd] at hhead ⊢
  simp only [specChar, Bool.not_eq_true', Bool.or_eq_false_iff, beq_eq_false_iff_ne, ne_eq] at hc
  obtain ⟨⟨hspace, hclose⟩, hbar⟩ := hc
  refine ⟨List.dropWhile_cons_of_neg (by simp [hspace]), ?_, ?_, ?_⟩
  · exact fun h => hhead h
  · exact fun h => hclose (Option.some.inj h)
  · exact fun h => hbar (Option.some.inj h)

theorem opened_of_ne {cp : List UInt8} (h : cp.head? ≠ some 0x28) (m : ℕ) : opened cp m = (cp, m) :=
  if_neg h

/-- In front of a word there is nothing more to skip. -/
theorem barred_word {d : Desc} (h : d.Written) (rest : List UInt8) (m : ℕ) :
    barred (d.cmd ++ rest) m = some (d.cmd ++ rest, m) := by
  obtain ⟨hspace, hopen, -, hbar⟩ := h.dropWhile rest
  rw [barred, if_neg hbar, hspace, opened_of_ne hopen]

theorem wordStart_bar {d : Desc} (h : d.Written) (rest : List UInt8) {m : ℕ} (hm : m ≠ 0) :
    wordStart (0x7c :: (d.cmd ++ rest)) m = some (d.cmd ++ rest, m) := by
  obtain ⟨hspace, hopen, -, -⟩ := h.dropWhile rest
  change (if m = 0 then none else some (opened ((d.cmd ++ rest).dropWhile isspace) m)) = _
  rw [if_neg hm, hspace, opened_of_ne hopen]

theorem stops_choice (ds : List Desc) (rest : List UInt8) :
    Stops ((ds.flatMap fun d => 0x7c :: d.cmd) ++ 0x29 :: rest) := by
  cases ds <;> rfl

theorem setLast_append (d : Desc) (allvec : List (List Desc)) (first : List Desc) :
    setLast d (allvec ++ [first]) = allvec ++ [first ++ [d]] := by
  induction allvec with
  | nil => rfl
  | cons strvec allvec ih =>
      cases allvec with
      | nil => rfl
      | cons strvec' allvec => exact congrArg (strvec :: ·) ih

/-- The words of a choice behind the first one. -/
theorem makeDescvec_choice {ds more : List Desc} (h : ∀ d ∈ ds ++ more, d.Written)
    {r dp : List UInt8} {m : ℕ} (hm : 2 ≤ m) (hdp : dp.dropWhile isspace = writeDoc (ds ++ more))
    (allvec : List (List Desc)) (first : List Desc) :
    ∃ dp' k, dp'.dropWhile isspace = writeDoc more ∧
      makeDescvec ((ds.flatMap fun d => 0x7c :: d.cmd) ++ 0x29 :: r) dp m (allvec ++ [first]) =
        makeDescvec (0x29 :: r) dp' k (allvec ++ [first ++ ds]) := by
  induction ds generalizing dp m first with
  | nil => exact ⟨dp, m, hdp, by rw [List.append_nil]; rfl⟩
  | cons d ds ih =>
      have hm0 : m ≠ 0 := by omega
      have hm1 : ¬ m ≤ 1 := by omega
      obtain ⟨dp', hdp', hword⟩ := makeDescvec_word h
        (wordStart_bar (h d List.mem_cons_self) _ hm0) (stops_choice ds r) hdp (allvec ++ [first])
      rw [if_neg hm0, if_neg hm1, setLast_append] at hword
      obtain ⟨dp'', k, hdp'', hrest⟩ := ih (fun d' hd' => h d' (List.mem_cons_of_mem _ hd'))
        (Nat.le_succ_of_le hm) hdp' (first ++ [d])
      refine ⟨dp'', k, hdp'', ?_⟩
      rw [List.flatMap_cons, List.append_assoc, List.cons_append, hword, hrest, List.append_assoc]
      rfl

/-- What may stand between two positions: a space, behind the end of a choice. -/
def Between (lead : List UInt8) (m : ℕ) : Prop := (lead = [] ∧ m = 0) ∨ lead = [0x29]

theorem wordStart_between {lead : List UInt8} {m : ℕ} (h : Between lead m) {d : Desc} (hd : d.Written)
    (rest : List UInt8) : wordStart (lead ++ 0x20 :: (d.cmd ++ rest)) m = some (d.cmd ++ rest, 0) := by
  obtain ⟨hspace, hopen, hclose, -⟩ := hd.dropWhile rest
  rcases h with ⟨rfl, rfl⟩ | rfl
  · rw [List.nil_append, wordStart_space (by decide), wordStart, hspace, opened_of_ne hopen]
    dsimp only
    rw [closed, if_neg hclose, barred_word hd]
  · change some (opened ((d.cmd ++ rest).dropWhile isspace) 0) = _
    rw [hspace, opened_of_ne hopen]

theorem wordStart_between_choice {lead : List UInt8} {m : ℕ} (h : Between lead m) {d : Desc}
    (hd : d.Written) (rest : List UInt8) :
    wordStart (lead ++ 0x20 :: 0x28 :: (d.cmd ++ rest)) m = some (d.cmd ++ rest, 1) := by
  obtain ⟨-, -, hclose, -⟩ := hd.dropWhile rest
  rcases h with ⟨rfl, rfl⟩ | rfl
  · change barred (closed (d.cmd ++ rest) 1).1 (closed (d.cmd ++ rest) 1).2 = _
    rw [closed, if_neg hclose, barred_word hd]
  · rfl

theorem wordStart_between_end {lead : List UInt8} {m : ℕ} (h : Between lead m) :
    wordStart lead m = some ([], 0) := by
  rcases h with ⟨rfl, rfl⟩ | rfl <;> rfl

/-- The positions of a command that are still to be read. -/
theorem makeDescvec_written {strvec : List (List Desc)} (hne : ∀ ds ∈ strvec, ds ≠ [])
    (h : ∀ d ∈ strvec.flatten, d.Written) {lead dp : List UInt8} {m : ℕ} (hlead : Between lead m)
    (hdp : dp.dropWhile isspace = writeDoc strvec.flatten) (allvec : List (List Desc)) :
    makeDescvec (lead ++ strvec.flatMap fun ds => 0x20 :: writePosition ds) dp m allvec =
      some (allvec ++ strvec) := by
  induction strvec generalizing lead dp m allvec with
  | nil =>
      rw [List.flatMap_nil, List.append_nil, List.append_nil,
        makeDescvec_some (wordStart_between_end hlead), if_pos rfl]
  | cons ds strvec ih =>
      have hne' : ∀ ds ∈ strvec, ds ≠ [] := fun ds' hds' => hne ds' (List.mem_cons_of_mem _ hds')
      have h' : ∀ d ∈ strvec.flatten, d.Written := fun d hd =>
        h d (List.mem_append_right _ hd)
      have hrest : Stops (strvec.flatMap fun ds => 0x20 :: writePosition ds) := by
        cases strvec <;> rfl
      cases ds with
      | nil => exact absurd rfl (hne [] List.mem_cons_self)
      | cons d ds =>
          have hd : d.Written := h d List.mem_cons_self
          cases ds with
          | nil =>
              obtain ⟨dp', hdp', hword⟩ :=
                makeDescvec_word h (wordStart_between hlead hd _) hrest hdp allvec
              have hread := ih hne' h' (.inl ⟨rfl, rfl⟩) hdp' (allvec ++ [[d]])
              rw [List.append_assoc] at hread
              exact hword.trans hread
          | cons d' ds =>
              obtain ⟨dp', hdp', hword⟩ := makeDescvec_word h
                (wordStart_between_choice hlead hd _) (stops_choice (d' :: ds) _) hdp allvec
              obtain ⟨dp'', k, hdp'', hwords⟩ := makeDescvec_choice
                (fun d'' hd'' => h d'' (List.mem_cons_of_mem _ hd'')) (Nat.le_refl 2) hdp' allvec [d]
                (r := strvec.flatMap fun ds => 0x20 :: writePosition ds)
              have hread := ih hne' h' (m := k) (.inr rfl) hdp'' (allvec ++ [d :: d' :: ds])
              rw [List.append_assoc] at hread
              have htext : ((d :: d' :: ds) :: strvec).flatMap (fun ds => 0x20 :: writePosition ds) =
                  0x20 :: 0x28 :: (d.cmd ++ (((d' :: ds).flatMap fun d => 0x7c :: d.cmd) ++
                    0x29 :: strvec.flatMap fun ds => 0x20 :: writePosition ds)) := by
                simp [writePosition]
              rw [htext]
              exact hword.trans (hwords.trans hread)

/-- **The command notation.** What is written in the notation is read back: the words at each
position, the choices and the descriptions. -/
theorem cmdMakeDescvec_write (strvec : List (List Desc)) (hne : ∀ ds ∈ strvec, ds ≠ [])
    (h : ∀ d ∈ strvec.flatten, d.Written) :
    cmdMakeDescvec (writeCommand strvec) (writeDoc strvec.flatten) = some strvec := by
  have hread := makeDescvec_written hne h (.inl ⟨rfl, rfl⟩) (writeDoc_trim h) []
  cases strvec with
  | nil => exact hread
  | cons ds strvec => exact (makeDescvec_space (by decide) _ _ _ _).symm.trans hread

/-- `show (version|history) [FILE]` -/
theorem cmdMakeDescvec_write_show :
    let doc := some (ascii "text")
    let strvec : List (List Desc) := [[⟨ascii "show", doc⟩],
      [⟨ascii "version", doc⟩, ⟨ascii "history", doc⟩], [⟨ascii "[FILE]", doc⟩]]
    cmdMakeDescvec (writeCommand strvec) (writeDoc strvec.flatten) = some strvec :=
  cmdMakeDescvec_write _ (by decide) (by decide)

/-! ### Any text -/

/-- The words of the choice that goes on, and the positions in front of it. -/
theorem mem_setLast {desc : Desc} {allvec : List (List Desc)} {ds : List Desc}
    (h : ds ∈ setLast desc allvec) : ds ∈ allvec ∨ ∃ ds' ∈ allvec, ds = ds' ++ [desc] := by
  induction allvec with
  | nil => cases h
  | cons first allvec ih =>
      cases allvec with
      | nil => exact .inr ⟨first, List.mem_singleton_self first, List.mem_singleton.mp h⟩
      | cons second allvec =>
          rcases List.mem_cons.mp h with rfl | h
          · exact .inl List.mem_cons_self
          · rcases ih h with hmem | ⟨ds', hds', rfl⟩
            · exact .inl (List.mem_cons_of_mem _ hmem)
            · exact .inr ⟨ds', List.mem_cons_of_mem _ hds', rfl⟩

/-- The words are parts of the text. -/
theorem makeDescvec_part {cp dp : List UInt8} {m : ℕ} {allvec strvec : List (List Desc)}
    (h : makeDescvec cp dp m allvec = some strvec) {ds : List Desc} (hds : ds ∈ strvec) {desc : Desc}
    (hdesc : desc ∈ ds) : (∃ ds' ∈ allvec, desc ∈ ds') ∨ desc.cmd <:+: cp := by
  induction hn : cp.length using Nat.strong_induction_on generalizing cp dp m allvec with
  | _ n ih =>
      cases hstart : wordStart cp m with
      | none =>
          rw [makeDescvec_none hstart] at h
          cases h
      | some r =>
          obtain ⟨start, k⟩ := r
          rw [makeDescvec_some hstart] at h
          split at h
          · obtain rfl := Option.some.inj h
            exact .inl ⟨ds, hds, hdesc⟩
          · rename_i hend
            have hless := wordStart_less hstart hend
            have hsuffix := wordStart_suffix hstart
            rcases ih _ (hn ▸ hless) h rfl with ⟨ds', hds', hmem⟩ | hpart
            · have hword : start.takeWhile specChar <:+: cp :=
                (List.takeWhile_prefix specChar).isInfix.trans hsuffix.isInfix
              have hnew : ds' ∈ allvec ∨ ds' = [⟨start.takeWhile specChar, (cmdDescStr dp).1⟩] ∨
                  ∃ ds'' ∈ allvec, ds' = ds'' ++ [⟨start.takeWhile specChar, (cmdDescStr dp).1⟩] := by
                split at hds'
                · rcases List.mem_append.mp hds' with hds' | hds'
                  · exact .inl hds'
                  · exact .inr (.inl (List.mem_singleton.mp hds'))
                · exact (mem_setLast hds').imp_right .inr
              rcases hnew with hold | rfl | ⟨ds'', hold, rfl⟩
              · exact .inl ⟨ds', hold, hmem⟩
              · exact .inr (List.mem_singleton.mp hmem ▸ hword)
              · rcases List.mem_append.mp hmem with hmem | hmem
                · exact .inl ⟨ds'', hold, hmem⟩
                · exact .inr (List.mem_singleton.mp hmem ▸ hword)
            · exact .inr (hpart.trans ((List.dropWhile_suffix _).trans hsuffix).isInfix)

theorem cmdMakeDescvec_part {string descstr : List UInt8} {strvec : List (List Desc)}
    (h : cmdMakeDescvec string descstr = some strvec) {ds : List Desc} (hds : ds ∈ strvec) {desc : Desc}
    (hdesc : desc ∈ ds) : desc.cmd <:+: string := by
  rcases makeDescvec_part h hds hdesc with ⟨ds', hds', -⟩ | hpart
  · cases hds'
  · exact hpart

theorem wordStart_plain {cp start : List UInt8} {k : ℕ} (hopen : (0x28 : UInt8) ∉ cp)
    (h : wordStart cp 0 = some (start, k)) : k = 0 := by
  have hopened : ∀ {w : List UInt8}, w <:+ cp → opened w 0 = (w, 0) := fun {w} hw =>
    opened_of_ne (fun hhead => hopen (hw.subset (List.mem_of_mem_head? hhead))) 0
  have hclosed : ∀ w, (closed w 0).2 = 0 := by
    intro w
    rw [closed]
    split <;> rfl
  rw [wordStart, hopened (List.dropWhile_suffix _)] at h
  dsimp only at h
  rw [hclosed, barred] at h
  split at h
  · cases h
  · have hsuffix := (List.dropWhile_suffix isspace).trans
      ((closed_suffix (cp.dropWhile isspace) 0).trans (List.dropWhile_suffix _))
    rw [hopened hsuffix] at h
    exact (congrArg Prod.snd (Option.some.inj h)).symm

/-- Without a choice in the text there is one word at each position. -/
theorem makeDescvec_plain {cp dp : List UInt8} {allvec strvec : List (List Desc)}
    (hopen : (0x28 : UInt8) ∉ cp) (h : makeDescvec cp dp 0 allvec = some strvec) {ds : List Desc}
    (hds : ds ∈ strvec) : ds ∈ allvec ∨ ds.length = 1 := by
  induction hn : cp.length using Nat.strong_induction_on generalizing cp dp allvec with
  | _ n ih =>
      cases hstart : wordStart cp 0 with
      | none =>
          rw [makeDescvec_none hstart] at h
          cases h
      | some r =>
          obtain ⟨start, k⟩ := r
          obtain rfl := wordStart_plain hopen hstart
          rw [makeDescvec_some hstart] at h
          split at h
          · obtain rfl := Option.some.inj h
            exact .inl hds
          · rename_i hend
            have hrest := (List.dropWhile_suffix specChar).trans (wordStart_suffix hstart)
            have hless := wordStart_less hstart hend
            rcases ih _ (hn ▸ hless) (fun hmem => hopen (hrest.subset hmem)) h rfl with hmem | hlen
            · rcases List.mem_append.mp hmem with hmem | hmem
              · exact .inl hmem
              · exact .inr (List.mem_singleton.mp hmem ▸ rfl)
            · exact .inr hlen

theorem cmdMakeDescvec_plain {string descstr : List UInt8} {strvec : List (List Desc)}
    (hopen : (0x28 : UInt8) ∉ string) (h : cmdMakeDescvec string descstr = some strvec)
    {ds : List Desc} (hds : ds ∈ strvec) : ds.length = 1 := by
  rcases makeDescvec_plain hopen h hds with hmem | hlen
  · cases hmem
  · exact hlen

end SoftBts
