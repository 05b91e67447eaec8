import SoftBts.CommandSpelling
import SoftBts.Lib.CommonPrefix

/-! What the tabulator does to a line (`cmd_complete_command_real`): the word that it completes stands
for the same command as the word that was typed, and a beginning of several words is completed as far
as they go together. -/

namespace SoftBts

open CommonPrefix

open scoped List

variable {F : Type}

/-- `cmd_entry_function`: the keyword, when the word is a beginning of it or is still to be typed. -/
def cmdEntryFunction (src : Option (List UInt8)) (dst : List UInt8) : Option (List UInt8) :=
  if cmdOption dst || cmdVariable dst || cmdVararg dst || dst == ipv4Str || dst == ipv4PrefixStr ||
      cmdRange dst then none
  else
    match src with
    | none => some dst
    | some src => if src <+: dst then some dst else none

/-- `cmd_unique_string` on the words so far. -/
def uniqueString (matched : List (List UInt8)) (str : List UInt8) : List (List UInt8) :=
  if str ∈ matched then matched else matched ++ [str]

/-- The matches of the last word with the words of the commands at its position. -/
def matchvec (last : Option (List UInt8)) (index : ℕ) (v : List (CmdElement F)) :
    List (List UInt8) :=
  ((v.flatMap fun e => e.descvec index).filterMap fun desc =>
    cmdEntryFunction last desc.cmd).foldl uniqueString []

/-- `cmd_lcd` -/
def cmdLcd (matched : List (List UInt8)) : ℕ := chain matched

/-- The loop over the words in front of the last one; there is no vector when one of them is ambiguous. -/
def completeWords : List (Option (List UInt8)) → ℕ → List (CmdElement F) →
    Option (List (CmdElement F))
  | [], _, v => some v
  | none :: vline, index, v => completeWords vline (index + 1) v
  | some command :: vline, index, v =>
      let r := cmdFilterByCompletion command v index
      match isCmdAmbiguous command index r.1 r.2 none with
      | (some .ambiguous, _) => none
      | (_, left) => completeWords vline (index + 1) left

/-- What a last word with these matches is completed to. -/
def completeLast (last : Option (List UInt8)) (matched : List (List UInt8)) : Completion :=
  match matched, last with
  | [], none => .errNothingTodo
  | [], some _ => .errNoMatch
  | [str], _ => .completeFullMatch str
  | matched, none => .completeListMatch matched
  | matched, some word =>
      if cmdLcd matched ≠ 0 ∧ word.length < cmdLcd matched then
        .completeMatch (matched.headI.take (cmdLcd matched))
      else .completeListMatch matched

/-- `cmd_complete_command_real` -/
def cmdCompleteCommandReal (vline : List (Option (List UInt8))) (v : List (CmdElement F)) :
    Completion :=
  match vline.getLast? with
  | none => .errNoMatch
  | some last =>
      match completeWords vline.dropLast 0 v with
      | none => .errAmbiguous
      | some left => completeLast last (matchvec last (vline.length - 1) left)

/-! ### The matches -/

theorem uniqueString_mem {strs matched : List (List UInt8)} {s : List UInt8} :
    s ∈ strs.foldl uniqueString matched ↔ s ∈ matched ∨ s ∈ strs := by
  induction strs generalizing matched with
  | nil => simp
  | cons str strs ih =>
      rw [List.foldl_cons, ih, uniqueString, List.mem_cons]
      split
      · rename_i hmem
        constructor
        · rintro (h | h)
          · exact .inl h
          · exact .inr (.inr h)
        · rintro (h | rfl | h)
          · exact .inl h
          · exact .inl hmem
          · exact .inr h
      · rw [List.mem_append, List.mem_singleton, or_assoc]

/-- The words that a last word is completed to. -/
theorem mem_matchvec {last : Option (List UInt8)} {index : ℕ} {v : List (CmdElement F)}
    {s : List UInt8} : s ∈ matchvec last index v ↔
      ∃ e ∈ v, ∃ desc ∈ e.descvec index, cmdEntryFunction last desc.cmd = some s := by
  rw [matchvec, uniqueString_mem]
  simp only [List.not_mem_nil, false_or, List.mem_filterMap, List.mem_flatMap]
  constructor
  · rintro ⟨desc, ⟨e, he, hdesc⟩, h⟩
    exact ⟨e, he, desc, hdesc, h⟩
  · rintro ⟨e, he, desc, hdesc, h⟩
    exact ⟨desc, ⟨e, he, hdesc⟩, h⟩

/-- A word is completed to keywords that begin with it. -/
theorem cmdEntryFunction_some {src : Option (List UInt8)} {dst s : List UInt8} :
    cmdEntryFunction src dst = some s ↔
      dst = s ∧ keyword s = true ∧ cmdVararg s = false ∧ ∀ w, src = some w → w <+: s := by
  have hkeyword : (cmdOption dst || cmdVariable dst || cmdVararg dst || dst == ipv4Str ||
      dst == ipv4PrefixStr || cmdRange dst) = false ↔ keyword dst = true ∧ cmdVararg dst = false := by
    constructor
    · intro h
      simp only [Bool.or_eq_false_iff] at h
      obtain ⟨⟨⟨⟨⟨hoption, hvariable⟩, hvararg⟩, -⟩, -⟩, -⟩ := h
      exact ⟨by simp [keyword, hoption, hvariable], hvararg⟩
    · rintro ⟨hkey, hvararg⟩
      obtain ⟨hrange, hip, hnet, hargument⟩ := keyword_plain hkey
      simp [hargument, hvararg, hip, hnet, hrange]
  unfold cmdEntryFunction
  by_cases hplain : keyword dst = true ∧ cmdVararg dst = false
  · rw [hkeyword.mpr hplain, if_neg (by decide)]
    cases src with
    | none =>
        constructor
        · intro h
          obtain rfl := Option.some.inj h
          exact ⟨rfl, hplain.1, hplain.2, fun w hw => by cases hw⟩
        · rintro ⟨rfl, -⟩
          rfl
    | some w =>
        dsimp only
        constructor
        · intro h
          split at h
          · rename_i hbegins
            obtain rfl := Option.some.inj h
            exact ⟨rfl, hplain.1, hplain.2, fun w' hw => Option.some.inj hw ▸ hbegins⟩
          · cases h
        · rintro ⟨rfl, -, -, hw⟩
          rw [if_pos (hw w rfl)]
  · rw [Bool.ne_false_iff.mp fun h => hplain (hkeyword.mp h), if_pos rfl]
    constructor
    · intro h
      cases h
    · rintro ⟨rfl, hkey, hvararg, -⟩
      exact absurd ⟨hkey, hvararg⟩ hplain

theorem completeLast_full {last : Option (List UInt8)} {matched : List (List UInt8)} {s : List UInt8}
    (h : completeLast last matched = .completeFullMatch s) : matched = [s] := by
  rw [completeLast.eq_def] at h
  split at h
  · cases h
  · cases h
  · rw [Completion.completeFullMatch.inj h]
  · cases h
  · split at h <;> cases h

theorem completeLast_match {last : Option (List UInt8)} {matched : List (List UInt8)} {s : List UInt8}
    (h : completeLast last matched = .completeMatch s) :
    ∃ w a b l, last = some w ∧ matched = a :: b :: l ∧ w.length < cmdLcd matched ∧
      s = a.take (cmdLcd matched) := by
  rw [completeLast.eq_def] at h
  split at h
  · cases h
  · cases h
  · cases h
  · cases h
  · rename_i word hnil hone
    split at h
    · rename_i hlcd
      obtain ⟨a, rest, rfl⟩ := List.exists_cons_of_ne_nil hnil
      cases rest with
      | nil => exact absurd rfl (hone a)
      | cons b l => exact ⟨word, a, b, l, rfl, rfl, hlcd.2, (Completion.completeMatch.inj h).symm⟩
    · cases h

/-- A line that is completed, by its words in front of the last one. -/
theorem cmdCompleteCommandReal_append (pre : List (Option (List UInt8))) (last : Option (List UInt8))
    (v : List (CmdElement F)) :
    cmdCompleteCommandReal (pre ++ [last]) v =
      match completeWords pre 0 v with
      | none => .errAmbiguous
      | some left => completeLast last (matchvec last pre.length left) := by
  rw [cmdCompleteCommandReal, List.getLast?_concat, List.dropLast_concat, List.length_append,
    List.length_singleton, Nat.add_sub_cancel]

/-- A completion has words in front of the last one that are not ambiguous. -/
theorem cmdCompleteCommandReal_some {vline : List (Option (List UInt8))} {v : List (CmdElement F)}
    {s : List UInt8} (h : cmdCompleteCommandReal vline v = .completeFullMatch s ∨
      cmdCompleteCommandReal vline v = .completeMatch s) :
    ∃ pre last left, vline = pre ++ [last] ∧ completeWords pre 0 v = some left ∧
      (completeLast last (matchvec last pre.length left) = .completeFullMatch s ∨
        completeLast last (matchvec last pre.length left) = .completeMatch s) := by
  induction vline using List.reverseRecOn with
  | nil => rcases h with h | h <;> cases h
  | append_singleton pre last _ =>
      rw [cmdCompleteCommandReal_append] at h
      cases hleft : completeWords pre 0 v with
      | none =>
          rw [hleft] at h
          rcases h with h | h <;> cases h
      | some left =>
          rw [hleft] at h
          exact ⟨pre, last, left, rfl, hleft, h⟩

theorem completeWords_sublist {vline : List (Option (List UInt8))} {index : ℕ}
    {v left : List (CmdElement F)} (h : completeWords vline index v = some left) : left <+ v := by
  induction vline generalizing index v with
  | nil =>
      cases h
      exact .refl _
  | cons word vline ih =>
      cases word with
      | none => exact ih h
      | some command =>
          have hsub := (isCmdAmbiguous_sublist command index
            (cmdFilterByCompletion command v index).1 (cmdFilterByCompletion command v index).2
            none).trans (cmdFilterBy_sublist _ _ _ _)
          rw [completeWords] at h
          cases hleft : isCmdAmbiguous command index (cmdFilterByCompletion command v index).1
              (cmdFilterByCompletion command v index).2 none with
          | mk ambiguity left' =>
              rw [hleft] at h hsub
              cases ambiguity with
              | none => exact (ih h).trans hsub
              | some ambiguity =>
                  cases ambiguity with
                  | ambiguous => cases h
                  | incomplete => exact (ih h).trans hsub

/-- A word that a line is completed to goes on from its last word, and it begins a keyword of one of
the commands. -/
theorem cmdCompleteCommandReal_goesOn {vline : List (Option (List UInt8))} {v : List (CmdElement F)}
    {s : List UInt8} (h : cmdCompleteCommandReal vline v = .completeFullMatch s ∨
      cmdCompleteCommandReal vline v = .completeMatch s) :
    (∀ w, vline.getLast? = some (some w) → w <+: s) ∧
      ∃ e ∈ v, ∃ ds ∈ e.strvec, ∃ desc ∈ ds, s <+: desc.cmd := by
  obtain ⟨pre, last, left, rfl, hleft, h⟩ := cmdCompleteCommandReal_some h
  -- what goes on from the word is a beginning of one of the matches
  have hmatch : ∃ m ∈ matchvec last pre.length left, s <+: m ∧ ∀ w, last = some w → w <+: m →
      w <+: s := by
    rcases h with h | h
    · rw [completeLast_full h]
      exact ⟨s, List.mem_singleton_self s, List.prefix_refl s, fun _ _ h => h⟩
    · obtain ⟨w, a, b, l, rfl, hmatched, hless, rfl⟩ := completeLast_match h
      refine ⟨a, hmatched ▸ List.mem_cons_self, List.take_prefix _ _, fun w' hw' hbegins => ?_⟩
      obtain rfl := Option.some.inj hw'
      exact List.prefix_take_iff.mpr ⟨hbegins, Nat.le_of_lt hless⟩
  obtain ⟨m, hm, hs, hword⟩ := hmatch
  obtain ⟨e, he, desc, hdesc, hentry⟩ := mem_matchvec.mp hm
  obtain ⟨rfl, -, -, hbegins⟩ := cmdEntryFunction_some.mp hentry
  obtain ⟨ds, hds, hmem⟩ := CmdElement.mem_descvec hdesc
  refine ⟨fun w hw => ?_, e, (completeWords_sublist hleft).subset he, ds, hds, desc, hmem, hs⟩
  rw [List.getLast?_concat] at hw
  exact hword w (Option.some.inj hw) (hbegins w (Option.some.inj hw))

/-! ### A beginning of several words -/

/-- A longer beginning of all matches has the same matches. -/
theorem matchvec_longer {w s : List UInt8} {index : ℕ} {left : List (CmdElement F)} (hws : w <+: s)
    (hall : ∀ m ∈ matchvec (some w) index left, s <+: m) :
    matchvec (some s) index left = matchvec (some w) index left := by
  rw [matchvec, matchvec]
  congr 1
  apply List.filterMap_congr
  intro desc hdesc
  obtain ⟨e, he, hmem⟩ := List.mem_flatMap.mp hdesc
  apply Option.ext
  intro t
  rw [cmdEntryFunction_some, cmdEntryFunction_some]
  constructor
  · rintro ⟨rfl, hkey, hvararg, hbegins⟩
    exact ⟨rfl, hkey, hvararg, fun w' hw' => Option.some.inj hw' ▸ hws.trans (hbegins s rfl)⟩
  · rintro ⟨rfl, hkey, hvararg, hbegins⟩
    refine ⟨rfl, hkey, hvararg, fun s' hs' => Option.some.inj hs' ▸ hall _ (mem_matchvec.mpr ?_)⟩
    exact ⟨e, he, desc, hmem, cmdEntryFunction_some.mpr ⟨rfl, hkey, hvararg, hbegins⟩⟩

/-- **Completion as far as it goes.** A beginning of several words is completed to the longest
beginning that they have in common, and no word is lost: the next time they are all listed. -/
theorem complete_longest (v : List (CmdElement F)) (pre : List (Option (List UInt8)))
    (w s : List UInt8) (h : cmdCompleteCommandReal (pre ++ [some w]) v = .completeMatch s) :
    ∃ left, completeWords pre 0 v = some left ∧
      cmdCompleteCommandReal (pre ++ [some s]) v =
        .completeListMatch (matchvec (some w) pre.length left) ∧
      ∀ p, (∀ m ∈ matchvec (some w) pre.length left, p <+: m) ↔ p <+: s := by
  rw [cmdCompleteCommandReal_append] at h
  cases hleft : completeWords pre 0 v with
  | none =>
      rw [hleft] at h
      cases h
  | some left =>
      rw [hleft] at h
      obtain ⟨w', a, b, l, hw', hmatched, hless, hs⟩ := completeLast_match h
      obtain rfl := Option.some.inj hw'
      rw [hmatched] at hless hs
      have hbegins : w <+: a := by
        obtain ⟨e, -, desc, -, hentry⟩ := mem_matchvec.mp (hmatched ▸ List.mem_cons_self)
        exact (cmdEntryFunction_some.mp hentry).2.2.2 w rfl
      have hlength : s.length = cmdLcd (a :: b :: l) := by
        rw [hs, List.length_take]
        exact Nat.min_eq_left (chain_le a b l)
      have hws : w <+: s := by
        rw [hs]
        exact List.prefix_take_iff.mpr ⟨hbegins, Nat.le_of_lt hless⟩
      have hall : ∀ m ∈ a :: b :: l, s <+: m :=
        (prefix_chain b l (hs ▸ List.take_prefix _ _)).mpr (Nat.le_of_eq hlength)
      refine ⟨left, rfl, ?_, fun p => ?_⟩
      · rw [cmdCompleteCommandReal_append, hleft]
        dsimp only
        rw [matchvec_longer hws (hmatched ▸ hall), hmatched, completeLast.eq_def]
        exact if_neg fun h => absurd h.2 (Nat.not_lt.mpr (Nat.le_of_eq hlength.symm))
      · rw [hmatched]
        constructor
        · intro hp
          have ha := hp a List.mem_cons_self
          rw [hs]
          exact List.prefix_take_iff.mpr ⟨ha, (prefix_chain b l ha).mp hp⟩
        · exact fun hp m hm => hp.trans (hall m hm)

/-- `s` is completed to `sh`, for `show` and `shutdown`. -/
theorem complete_longest_sh :
    let v : List (CmdElement ℕ) := [⟨0, [[⟨ascii "show", none⟩]], false⟩,
      ⟨1, [[⟨ascii "shutdown", none⟩]], false⟩]
    ∃ left, completeWords [] 0 v = some left ∧
      cmdCompleteCommandReal [some (ascii "sh")] v =
        .completeListMatch (matchvec (some (ascii "s")) 0 left) ∧
      ∀ p, (∀ m ∈ matchvec (some (ascii "s")) 0 left, p <+: m) ↔ p <+: ascii "sh" :=
  complete_longest _ [] (ascii "s") (ascii "sh") rfl

/-! ### A whole word -/

/-- What two lines come to that differ in the last word: the same, but for this word as an argument. -/
inductive Matched.SameButLast (w s : List UInt8) : Matched F → Matched F → Prop
  | same (r : Matched F) : SameButLast w s r r
  | last (e : CmdElement F) (argv : List (List UInt8)) :
      SameButLast w s (.call e (argv ++ [w])) (.call e (argv ++ [s]))

/-- Arguments of two lines: the same, or the same but for the last one. -/
def LastDiffers (w s : List UInt8) (x y : Except Fault (Option (List (List UInt8)))) : Prop :=
  x = y ∨ ∃ argv, x = .ok (some (argv ++ [w])) ∧ y = .ok (some (argv ++ [s]))

theorem LastDiffers.turn {w s : List UInt8} {x y : Except Fault (Option (List (List UInt8)))} {n : ℕ}
    (h : n < cmdArgcMax → LastDiffers w s x y) :
    LastDiffers w s (if cmdArgcMax ≤ n then .ok none else x) (if cmdArgcMax ≤ n then .ok none else y) := by
  split
  · exact .inl rfl
  · rename_i hless
    exact h (Nat.lt_of_not_le hless)

theorem LastDiffers.push (w s : List UInt8) (varflag : Bool) (strvec : List (List Desc))
    (argv : List (List UInt8)) :
    LastDiffers w s
      (if cmdArgcMax ≤ (argv ++ [w]).length then .ok none
        else argumentWords varflag [] strvec (argv ++ [w]))
      (if cmdArgcMax ≤ (argv ++ [s]).length then .ok none
        else argumentWords varflag [] strvec (argv ++ [s])) := by
  rw [List.length_append, List.length_append]
  refine LastDiffers.turn fun _ => .inr ⟨argv, ?_, ?_⟩
  · rw [argumentWords.eq_1]
  · rw [argumentWords.eq_1]

/-- The arguments of two lines that differ in the last word. -/
theorem argumentWords_last (w s : List UInt8) (ws : List (List UInt8)) (strvec : List (List Desc))
    (varflag : Bool) {argv : List (List UInt8)} (hargv : argv.length < cmdArgcMax) :
    LastDiffers w s (argumentWords varflag (ws ++ [w]) strvec argv)
      (argumentWords varflag (ws ++ [s]) strvec argv) := by
  induction ws generalizing varflag strvec argv with
  | nil =>
      rw [List.nil_append, List.nil_append, argumentWords_cons hargv, argumentWords_cons hargv]
      split
      · exact .push w s true _ argv
      · split
        · exact .inl rfl
        · rename_i desc strvec
          split
          · exact .push w s _ strvec argv
          · exact .inl rfl
        · exact .push w s false _ argv
  | cons word ws ih =>
      rw [List.cons_append, List.cons_append, argumentWords_cons hargv, argumentWords_cons hargv]
      split
      · exact .turn (ih _ _)
      · split
        · exact .inl rfl
        · exact .turn (ih _ _)
        · exact .turn (ih _ _)

theorem isCmdAmbiguous_vararg (command : List UInt8) (index : ℕ) (v : List (CmdElement F))
    (matched : Option (List UInt8)) : isCmdAmbiguous command index .vararg v matched = (none, []) := by
  induction v with
  | nil => rfl
  | cons e v ih =>
      have hfold : (e.descvec index).foldlM (fun s desc => ambiguousDesc command .vararg desc.cmd s)
          (matched, false) =
            (.ok (matched, false || (e.descvec index).any fun _ => false) : Except Ambiguity _) :=
        foldlM_hits (fun _ => false) _ (fun _ _ b => by rw [Bool.or_false]; rfl) false
      rw [isCmdAmbiguous, hfold]
      dsimp only
      rw [ih]
      simp

/-- The words in front of the last one leave the same commands to the matching and to the completion,
or the matching is refused whatever the last word is. -/
theorem matchWords_completeWords {ws : List (List UInt8)} {index : ℕ} {v left : List (CmdElement F)}
    (h : completeWords (ws.map some) index v = some left) (hne : left ≠ []) :
    (∃ ret, ∀ x m, matchWords completionMatch (ws ++ [x]) index m v = .error ret) ∨
      ∀ x m, matchWords completionMatch (ws ++ [x]) index m v =
        matchWords completionMatch [x] (index + ws.length) .noMatch left := by
  induction ws generalizing index v with
  | nil =>
      cases h
      exact .inr fun x m => by rw [List.nil_append, matchWords, matchWords]; rfl
  | cons command ws ih =>
      rw [List.map_cons, completeWords, cmdFilterByCompletion] at h
      have hwords := fun x m => matchWords_cons completionMatch command (ws ++ [x]) index m v
      by_cases hvararg : (cmdFilterBy completionMatch command v index).1 = .vararg
      · -- nothing is left to complete
        rw [hvararg, isCmdAmbiguous_vararg] at h
        exact absurd (List.sublist_nil.mp (completeWords_sublist h)) hne
      · cases hleft : isCmdAmbiguous command index (cmdFilterBy completionMatch command v index).1
            (cmdFilterBy completionMatch command v index).2 none with
        | mk ambiguity left' =>
            rw [hleft] at h
            simp only [hleft, if_neg hvararg] at hwords
            cases ambiguity with
            | none =>
                rw [List.length_cons, Nat.add_comm ws.length, ← Nat.add_assoc]
                rcases ih h with ⟨ret, hret⟩ | hrest
                · exact .inl ⟨ret, fun x m => (hwords x m).trans (hret x _)⟩
                · exact .inr fun x m => (hwords x m).trans (hrest x _)
            | some ambiguity =>
                cases ambiguity with
                | ambiguous => cases h
                | incomplete => exact .inl ⟨.errNoMatch, hwords⟩

theorem raise_eq_partly {l : List MatchType} (h : .partly ∈ l) (hexact : .exact ∉ l) {m : MatchType}
    (hm : m ≠ .exact) : l.foldl MatchType.raise m = .partly := by
  have hkeep : ∀ {l : List MatchType}, .exact ∉ l → l.foldl MatchType.raise .partly = .partly := by
    intro l hl
    induction l with
    | nil => rfl
    | cons m l ih =>
        have hm : MatchType.raise .partly m = .partly := by
          cases m with
          | exact => exact absurd List.mem_cons_self hl
          | _ => rfl
        rw [List.foldl_cons, hm, ih fun h => hl (List.mem_cons_of_mem _ h)]
  induction l generalizing m with
  | nil => cases h
  | cons m' l ih =>
      have hrest : .exact ∉ l := fun h => hexact (List.mem_cons_of_mem _ h)
      rw [List.foldl_cons]
      rcases List.mem_cons.mp h with rfl | h
      · have hraise : m.raise .partly = .partly := by
          cases m with
          | exact => exact absurd rfl hm
          | _ => rfl
        rw [hraise, hkeep hrest]
      · refine ih h hrest ?_
        rw [MatchType.raise]
        split
        · rintro rfl
          exact hexact List.mem_cons_self
        · exact hm

/-- One word, when only one keyword begins with `w`. -/
theorem ambiguousDesc_partly {w s str : List UInt8} {matched : Option (List UInt8)}
    (hs : (keyword str && w.isPrefixOf str) = (keyword str && s == str))
    (hmatched : matched = none ∨ matched = some s) (b : Bool) :
    ∃ matched', (matched' = none ∨ matched' = some s) ∧
      ambiguousDesc w .partly str (matched, b) =
        .ok (matched', b || (keyword str && s == str)) := by
  rw [ambiguousDesc]
  dsimp only
  rw [hs]
  cases hhit : (keyword str && s == str) with
  | false =>
      rw [Bool.or_false]
      exact ⟨matched, hmatched, rfl⟩
  | true =>
      obtain rfl : s = str := beq_iff_eq.mp (Bool.and_eq_true_iff.mp hhit).2
      rw [Bool.or_true]
      refine ⟨some s, .inr rfl, ?_⟩
      rcases hmatched with rfl | rfl
      · rfl
      · simp

/-- With beginnings of one keyword only there is no ambiguity, and the commands that have it are left. -/
theorem isCmdAmbiguous_partly {w s : List UInt8} {index : ℕ} {v : List (CmdElement F)}
    (hs : ∀ e ∈ v, ∀ desc ∈ e.descvec index,
      (keyword desc.cmd && w.isPrefixOf desc.cmd) = (keyword desc.cmd && s == desc.cmd))
    {matched : Option (List UInt8)} (hmatched : matched = none ∨ matched = some s) :
    isCmdAmbiguous w index .partly v matched = (none, v.filter (keywordAt s index)) := by
  have hfold : ∀ ds : List Desc, (∀ desc ∈ ds,
      (keyword desc.cmd && w.isPrefixOf desc.cmd) = (keyword desc.cmd && s == desc.cmd)) →
      ∀ {matched : Option (List UInt8)}, matched = none ∨ matched = some s → ∀ b,
      ∃ matched', (matched' = none ∨ matched' = some s) ∧
        ds.foldlM (fun s desc => ambiguousDesc w .partly desc.cmd s) (matched, b) =
          (.ok (matched', b || ds.any fun desc => keyword desc.cmd && s == desc.cmd) :
            Except Ambiguity _) := by
    intro ds hds
    induction ds with
    | nil =>
        intro matched hmatched b
        rw [List.any_nil, Bool.or_false]
        exact ⟨matched, hmatched, rfl⟩
    | cons desc ds ih =>
        intro matched hmatched b
        obtain ⟨matched', hmatched', hdesc⟩ :=
          ambiguousDesc_partly (hds desc List.mem_cons_self) hmatched b
        obtain ⟨matched'', hmatched'', hrest⟩ :=
          ih (fun desc' h => hds desc' (List.mem_cons_of_mem _ h)) hmatched' _
        refine ⟨matched'', hmatched'', ?_⟩
        rw [List.foldlM_cons, hdesc, List.any_cons, ← Bool.or_assoc]
        exact hrest
  induction v generalizing matched with
  | nil => rfl
  | cons e v ih =>
      obtain ⟨matched', hmatched', hresult⟩ :=
        hfold (e.descvec index) (hs e List.mem_cons_self) hmatched false
      rw [isCmdAmbiguous, hresult]
      dsimp only
      rw [ih (fun e' he' => hs e' (List.mem_cons_of_mem _ he')) hmatched', List.filter_cons, keywordAt,
        Bool.false_or]

theorem head?_of_begins {w s : List UInt8} (h : w <+: s) (hw : w ≠ []) : s.head? = w.head? := by
  obtain ⟨rest, rfl⟩ := h
  obtain ⟨c, cs, rfl⟩ := List.exists_cons_of_ne_nil hw
  rfl

/-- The keywords that go on from a word that is completed to one word are this word. -/
theorem matchvec_only {w s : List UInt8} {index : ℕ} {left : List (CmdElement F)} (hw : w ≠ [])
    (hmatched : matchvec (some w) index left = [s]) (hword : w <+: s) (hvararg : cmdVararg s = false) :
    ∀ e ∈ left, ∀ desc ∈ e.descvec index, keyword desc.cmd = true → w <+: desc.cmd → desc.cmd = s := by
  intro e he desc hdesc hkey hbegins
  have hvararg' : cmdVararg desc.cmd = false := by
    rw [cmdVararg, head?_of_begins hbegins hw, ← head?_of_begins hword hw]
    exact hvararg
  have hmem : desc.cmd ∈ matchvec (some w) index left :=
    mem_matchvec.mpr ⟨e, he, desc, hdesc, cmdEntryFunction_some.mpr
      ⟨rfl, hkey, hvararg', fun w' hw' => Option.some.inj hw' ▸ hbegins⟩⟩
  rw [hmatched] at hmem
  exact List.mem_singleton.mp hmem

section Beginning

variable {x : List UInt8} {index : ℕ} {left : List (CmdElement F)} {desc : Desc}

/-- A beginning of one keyword only is the beginning of a word for the filter. -/
theorem cmdFilterBy_beginning {e : CmdElement F} (he : e ∈ left) (hdesc : desc ∈ e.descvec index)
    (hpartly : completionMatch x desc.cmd = some .partly) (hsame : x ≠ desc.cmd)
    (honly : ∀ e ∈ left, ∀ desc' ∈ e.descvec index, keyword desc'.cmd = true → x <+: desc'.cmd →
      desc'.cmd = desc.cmd) : (cmdFilterBy completionMatch x left index).1 = .partly := by
  refine raise_eq_partly (List.mem_flatMap.mpr ⟨e, he, List.mem_filterMap.mpr ⟨desc, hdesc, hpartly⟩⟩)
    (fun hexact => ?_) (by decide)
  obtain ⟨e', he', hmem⟩ := List.mem_flatMap.mp hexact
  obtain ⟨desc', hdesc', hmatch⟩ := List.mem_filterMap.mp hmem
  obtain ⟨hkey', -, hliteral⟩ := wordMatch_exact hmatch
  split at hliteral
  · rename_i hbegins'
    split at hliteral
    · rename_i heq
      exact hsame (heq.trans (honly e' he' desc' hdesc' hkey' hbegins'))
    · cases hliteral
  · cases hliteral

/-- The filter leaves the commands that have a keyword that the word matches. -/
theorem cmdFilterBy_keywordAt (hpartly : completionMatch x desc.cmd = some .partly) :
    (cmdFilterBy completionMatch x left index).2.filter (keywordAt desc.cmd index) =
      left.filter (keywordAt desc.cmd index) := by
  rw [cmdFilterBy, List.filter_filter]
  refine List.filter_congr fun e _ => ?_
  rw [Bool.and_eq_left_iff_imp]
  intro hkeyword
  obtain ⟨desc', hdesc', hat⟩ := List.any_eq_true.mp hkeyword
  have hcmd : desc.cmd = desc'.cmd := beq_iff_eq.mp (Bool.and_eq_true_iff.mp hat).2
  have hmem : MatchType.partly ∈ wordMatches completionMatch x index e :=
    List.mem_filterMap.mpr ⟨desc', hdesc', hcmd ▸ hpartly⟩
  simpa using List.ne_nil_of_mem hmem

end Beginning

/-- A word, or the only one it is completed to, leaves the commands that have this keyword. -/
theorem matchWords_completed {w s x : List UInt8} {index : ℕ} {left : List (CmdElement F)}
    (hw : w ≠ []) (hmatched : matchvec (some w) index left = [s]) (hx : x = w ∨ x = s) :
    ∃ t ≠ MatchType.vararg, matchWords completionMatch [x] index .noMatch left =
      .ok (t, index + 1, left.filter (keywordAt s index)) := by
  obtain ⟨e, he, desc, hdesc, hentry⟩ := mem_matchvec.mp (hmatched ▸ List.mem_singleton_self s)
  obtain ⟨rfl, hkey, hvararg, hbegins⟩ := cmdEntryFunction_some.mp hentry
  have hword := hbegins w rfl
  by_cases hsame : x = desc.cmd
  · -- the keyword itself
    subst hsame
    obtain ⟨htype, hleft⟩ := cmdFilterBy_exact completionMatch_takes
      ⟨e, he, desc, hdesc, completionMatch_self hkey hvararg⟩
    refine ⟨.exact, by decide, ?_⟩
    rw [matchWords, htype, if_neg (by decide), hleft]
    rfl
  · -- a beginning of it, and of no other keyword
    obtain rfl : x = w := hx.resolve_right hsame
    have honly := matchvec_only hw hmatched hword hvararg
    have hpartly : completionMatch x desc.cmd = some .partly := by
      rw [completionMatch, wordMatch_keyword hkey hvararg, if_pos hword, if_neg hsame]
    have htype := cmdFilterBy_beginning he hdesc hpartly hsame honly
    have hhits : ∀ e' ∈ left, ∀ desc' ∈ e'.descvec index,
        (keyword desc'.cmd && x.isPrefixOf desc'.cmd) = (keyword desc'.cmd && desc.cmd == desc'.cmd) := by
      intro e' he' desc' hdesc'
      cases hkey' : keyword desc'.cmd with
      | false => rfl
      | true =>
          rw [Bool.true_and, Bool.true_and, Bool.eq_iff_iff, List.isPrefixOf_iff_prefix, beq_iff_eq]
          exact ⟨fun hb => (honly e' he' desc' hdesc' hkey' hb).symm, fun heq => heq ▸ hword⟩
    refine ⟨.partly, by decide, ?_⟩
    rw [matchWords, htype, if_neg (by decide), isCmdAmbiguous_partly
      (fun e' he' => hhits e' ((cmdFilterBy_sublist _ _ _ _).subset he')) (.inl rfl),
      cmdFilterBy_keywordAt hpartly]
    rfl

/-- The matching behind its loop over the words, when that has not ended at `.VARARG`. -/
theorem matchLine_words {how : List UInt8 → List UInt8 → Option MatchType} {v left : List (CmdElement F)}
    {vline : List (List UInt8)} {m : MatchType} {index : ℕ} (hm : m ≠ .vararg)
    (h : matchWords how vline 0 .noMatch v = .ok (m, index, left)) :
    matchLine how v vline =
      match left.filter fun e => e.cmdsize ≤ index with
      | [] => .ok (.refused (if left.isEmpty then .errNoMatch else .errIncomplete))
      | [e] =>
          (argumentWords false vline e.strvec []).map fun
            | none => .refused .errExeedArgcMax
            | some argv => if e.daemon then .refused .successDaemon else .call e argv
      | _ => .ok (.refused .errAmbiguous) := by
  have hfilter : (left.filter fun e => m = .vararg ∨ e.cmdsize ≤ index) =
      left.filter fun e => e.cmdsize ≤ index :=
    List.filter_congr fun e _ => by simp [hm]
  rw [matchLine_eq, h, callMatched]
  generalize (left.filter fun e => m = .vararg ∨ e.cmdsize ≤ index) = whole at hfilter ⊢
  subst hfilter
  rfl

/-- **Completion to a word.** A word that is completed to a whole word stands for the same command as
this one: the line is refused with the same error, or it calls the same command with the same
arguments, but for the word itself where it is one. -/
theorem complete_calls (v : List (CmdElement F)) (hv : ∀ e ∈ v, e.WellFormed) (ws : List (List UInt8))
    (w s : List UInt8) (hw : w ≠ [])
    (h : cmdCompleteCommandReal (ws.map some ++ [some w]) v = .completeFullMatch s) :
    ∃ r r', matchReal v (ws ++ [w]) = .ok r ∧ matchReal v (ws ++ [s]) = .ok r' ∧
      r.SameButLast w s r' := by
  obtain ⟨r, hr⟩ := matchLine_total completionMatch_vararg hv (ws ++ [w])
  obtain ⟨r', hr'⟩ := matchLine_total completionMatch_vararg hv (ws ++ [s])
  refine ⟨r, r', hr, hr', ?_⟩
  rw [cmdCompleteCommandReal_append] at h
  cases hleft : completeWords (ws.map some) 0 v with
  | none =>
      rw [hleft] at h
      cases h
  | some left =>
      rw [hleft, List.length_map] at h
      have hmatched := completeLast_full h
      have hne : left ≠ [] := by
        rintro rfl
        cases hmatched
      rcases matchWords_completeWords hleft hne with ⟨ret, hret⟩ | hrest
      · rw [matchLine_eq, hret] at hr hr'
        obtain rfl := Except.ok.inj hr
        obtain rfl := Except.ok.inj hr'
        exact .same _
      · obtain ⟨t, ht, hword⟩ := matchWords_completed hw hmatched (.inl rfl)
        obtain ⟨t', ht', hword'⟩ := matchWords_completed hw hmatched (.inr rfl)
        rw [Nat.zero_add] at hrest
        rw [matchLine_words ht ((hrest w _).trans hword)] at hr
        rw [matchLine_words ht' ((hrest s _).trans hword')] at hr'
        split at hr
        · rename_i hnil
          rw [hnil] at hr'
          obtain rfl := Except.ok.inj hr
          obtain rfl := Except.ok.inj hr'
          exact .same _
        · rename_i e hone
          rw [hone] at hr'
          dsimp only at hr'
          rcases argumentWords_last w s ws e.strvec false room_nil with hsame | ⟨argv, hargv, hargv'⟩
          · rw [hsame, hr'] at hr
            obtain rfl := Except.ok.inj hr
            exact .same _
          · rw [hargv] at hr
            rw [hargv'] at hr'
            obtain rfl := Except.ok.inj hr
            obtain rfl := Except.ok.inj hr'
            dsimp only
            split
            · exact .same _
            · exact .last e argv
        · rename_i hnil hone
          split at hr'
          · rename_i hnil'
            exact absurd hnil' hnil
          · rename_i e hone'
            exact absurd hone' (hone e)
          · obtain rfl := Except.ok.inj hr
            obtain rfl := Except.ok.inj hr'
            exact .same _

/-- `terminal l` is completed to `terminal length`. -/
theorem complete_calls_length :
    let v : List (CmdElement ℕ) :=
      [⟨0, [[⟨ascii "terminal", none⟩], [⟨ascii "length", none⟩]], false⟩]
    ∃ r r', matchReal v [ascii "terminal", ascii "l"] = .ok r ∧
      matchReal v [ascii "terminal", ascii "length"] = .ok r' ∧
      r.SameButLast (ascii "l") (ascii "length") r' :=
  complete_calls _ (by decide) [ascii "terminal"] (ascii "l") (ascii "length") (by decide) rfl

end SoftBts
