import SoftBts.CommandMatch

/-! The matching of a line stays inside the vectors and the arguments it has room for, and its two
forms agree on a line whose words are spelled out. -/

namespace SoftBts

open scoped List

variable {F : Type}

/-! ### The best match -/

theorem raise_mem (l : List MatchType) (m : MatchType) :
    l.foldl MatchType.raise m = m ∨ l.foldl MatchType.raise m ∈ l := by
  induction l generalizing m with
  | nil => exact .inl rfl
  | cons m' l ih =>
      rw [List.foldl_cons]
      rcases ih (m.raise m') with h | h
      · rw [h, MatchType.raise]
        split
        · exact .inr List.mem_cons_self
        · exact .inl rfl
      · exact .inr (List.mem_cons_of_mem _ h)

theorem raise_exact (l : List MatchType) : l.foldl MatchType.raise .exact = .exact := by
  induction l with
  | nil => rfl
  | cons m l ih =>
      have hm : MatchType.raise .exact m = .exact := by cases m <;> rfl
      rw [List.foldl_cons, hm, ih]

theorem raise_eq_exact {l : List MatchType} (h : .exact ∈ l) (m : MatchType) :
    l.foldl MatchType.raise m = .exact := by
  induction l generalizing m with
  | nil => cases h
  | cons m' l ih =>
      rw [List.foldl_cons]
      rcases List.mem_cons.mp h with rfl | h
      · have hm : m.raise .exact = .exact := by cases m <;> rfl
        rw [hm, raise_exact]
      · exact ih h _

/-- The best match is one of the matches, if it is any. -/
theorem cmdFilterBy_best {how : List UInt8 → List UInt8 → Option MatchType} {command : List UInt8}
    {v : List (CmdElement F)} {index : ℕ} (hne : (cmdFilterBy how command v index).1 ≠ .noMatch) :
    ∃ e ∈ (cmdFilterBy how command v index).2, ∃ desc ∈ e.descvec index,
      how command desc.cmd = some (cmdFilterBy how command v index).1 := by
  rcases raise_mem (v.flatMap (wordMatches how command index)) .noMatch with h | h
  · exact absurd h hne
  · obtain ⟨e, he, hmem⟩ := List.mem_flatMap.mp h
    obtain ⟨desc, hdesc, hhow⟩ := List.mem_filterMap.mp hmem
    refine ⟨e, ?_, desc, hdesc, hhow⟩
    exact List.mem_filter.mpr ⟨he, by simpa using List.ne_nil_of_mem hmem⟩

theorem cmdFilterBy_sublist (how : List UInt8 → List UInt8 → Option MatchType) (command : List UInt8)
    (v : List (CmdElement F)) (index : ℕ) : (cmdFilterBy how command v index).2 <+ v :=
  List.filter_sublist

/-- The commands that are left have a word at the position. -/
theorem cmdFilterBy_long {how : List UInt8 → List UInt8 → Option MatchType} {command : List UInt8}
    {v : List (CmdElement F)} {index : ℕ} {e : CmdElement F}
    (he : e ∈ (cmdFilterBy how command v index).2) : index < e.strvec.length := by
  have hmatches : wordMatches how command index e ≠ [] := by simpa using (List.mem_filter.mp he).2
  by_contra hlong
  apply hmatches
  have hempty : e.descvec index = [] := by
    rw [CmdElement.descvec, List.getD_eq_getElem?_getD, List.getElem?_eq_none (Nat.le_of_not_lt hlong)]
    rfl
  rw [wordMatches, hempty]
  rfl

/-- `is_cmd_ambiguous` reads no slot that is not there, when the commands have a word at the position. -/
theorem Checked.isCmdAmbiguous_eq (command : List UInt8) {index : ℕ} (type : MatchType)
    {v : List (CmdElement F)} (h : ∀ e ∈ v, index < e.strvec.length) (matched : Option (List UInt8)) :
    Checked.isCmdAmbiguous command index type v matched =
      .ok (SoftBts.isCmdAmbiguous command index type v matched) := by
  induction v generalizing matched with
  | nil => rfl
  | cons e v ih =>
      obtain ⟨he, hv⟩ := List.forall_mem_cons.mp h
      have hslot : e.slot index = .ok (e.descvec index) := by
        rw [CmdElement.slot, CmdElement.descvec, List.getD_eq_getElem?_getD, List.getElem?_eq_getElem he]
        rfl
      rw [Checked.isCmdAmbiguous, SoftBts.isCmdAmbiguous, hslot, Except.bind]
      split
      · rfl
      · rw [ih hv]
        rfl

/-- The loop over the words reads no slot that is not there: what the filters leave has a word at the
position. -/
theorem Checked.matchWords_eq (how : List UInt8 → List UInt8 → Option MatchType)
    (vline : List (List UInt8)) (index : ℕ) (m : MatchType) (v : List (CmdElement F)) :
    Checked.matchWords how vline index m v = .ok (SoftBts.matchWords how vline index m v) := by
  induction vline generalizing index m v with
  | nil => rfl
  | cons command vline ih =>
      have hlong : ∀ e ∈ (cmdFilterBy how command v index).2, index < e.strvec.length :=
        fun e he => cmdFilterBy_long he
      rw [Checked.matchWords, SoftBts.matchWords]
      split
      · rfl
      · rw [Checked.isCmdAmbiguous_eq command _ hlong, Except.bind]
        split
        · rfl
        · rfl
        · exact ih _ _ _

theorem matchLine_eq (how : List UInt8 → List UInt8 → Option MatchType) (v : List (CmdElement F))
    (vline : List (List UInt8)) :
    matchLine how v vline = callMatched vline (matchWords how vline 0 .noMatch v) := by
  rw [matchLine, Checked.matchWords_eq]
  rfl

theorem isCmdAmbiguous_sublist (command : List UInt8) (index : ℕ) (type : MatchType)
    (v : List (CmdElement F)) (matched : Option (List UInt8)) :
    (isCmdAmbiguous command index type v matched).2 <+ v := by
  induction v generalizing matched with
  | nil => exact .refl _
  | cons e v ih =>
      rw [isCmdAmbiguous]
      split
      · exact .refl _
      · rename_i matched' hit _
        dsimp only
        split
        · exact (ih matched').cons_cons e
        · exact (ih matched').cons e

/-! ### Slots -/

/-- Only words of the form `.VARARG` match as such. -/
def TellsVararg (how : List UInt8 → List UInt8 → Option MatchType) : Prop :=
  ∀ command str, how command str = some .vararg → cmdVararg str = true

theorem wordMatch_vararg {address : MatchType → Bool} {literal : Option MatchType}
    {command str : List UInt8} (hliteral : literal ≠ some .vararg)
    (h : wordMatch address literal command str = some .vararg) : cmdVararg str = true := by
  rw [wordMatch] at h
  split at h
  · assumption
  · split at h
    · split at h <;> cases h
    · split at h
      · split at h <;> cases h
      · split at h
        · split at h <;> cases h
        · split at h
          · cases h
          · exact absurd h hliteral

theorem completionMatch_vararg : TellsVararg completionMatch := by
  intro command str h
  refine wordMatch_vararg ?_ h
  split
  · split <;> rintro ⟨⟩
  · rintro ⟨⟩

theorem stringMatch_vararg : TellsVararg stringMatch := by
  intro command str h
  refine wordMatch_vararg ?_ h
  split <;> rintro ⟨⟩

theorem CmdElement.mem_descvec {e : CmdElement F} {index : ℕ} {desc : Desc}
    (h : desc ∈ e.descvec index) : ∃ ds ∈ e.strvec, desc ∈ ds := by
  rw [CmdElement.descvec, List.getD_eq_getElem?_getD] at h
  cases hds : e.strvec[index]? with
  | none =>
      rw [hds] at h
      cases h
  | some ds =>
      rw [hds] at h
      exact ⟨ds, List.mem_of_getElem? hds, h⟩

/-- `.VARARG` is the only word at its position. -/
def CmdElement.WellFormed (e : CmdElement F) : Prop :=
  ∀ ds ∈ e.strvec, (∃ desc ∈ ds, cmdVararg desc.cmd = true) → ds.length = 1

instance (e : CmdElement F) : Decidable e.WellFormed :=
  inferInstanceAs (Decidable (∀ ds ∈ e.strvec, (∃ desc ∈ ds, _) → _))

/-- What the commands that are left behind the words have: a word for each word of the line, or
`.VARARG` at the position where the loop has ended. -/
structure WordsReached (v : List (CmdElement F)) (m : MatchType) (index : ℕ) (total : ℕ)
    (left : List (CmdElement F)) : Prop where
  sub : left <+ v
  words : m ≠ .vararg → index = total ∧ ∀ e ∈ left, total ≤ e.strvec.length
  vararg : m = .vararg → ∃ e ∈ left, ∃ desc ∈ e.descvec index, cmdVararg desc.cmd = true

theorem matchWords_reached {how : List UInt8 → List UInt8 → Option MatchType} (hhow : TellsVararg how)
    {vline : List (List UInt8)} {index k : ℕ} {m m' : MatchType} {v left : List (CmdElement F)}
    (h : matchWords how vline index m v = .ok (m', k, left)) (hm : m ≠ .vararg)
    (hlong : ∀ e ∈ v, index ≤ e.strvec.length) : WordsReached v m' k (index + vline.length) left := by
  induction vline generalizing index m v with
  | nil =>
      cases h
      exact ⟨.refl _, fun _ => ⟨rfl, hlong⟩, fun hvararg => absurd hvararg hm⟩
  | cons command vline ih =>
      rw [matchWords] at h
      split at h
      · rename_i hvararg
        cases h
        refine ⟨cmdFilterBy_sublist _ _ _ _, fun hne => absurd rfl hne, fun _ => ?_⟩
        have hbest : (cmdFilterBy how command v k).1 ≠ .noMatch := by
          rw [hvararg]
          decide
        obtain ⟨e, he, desc, hdesc, hmatch⟩ := cmdFilterBy_best hbest
        exact ⟨e, he, desc, hdesc, hhow _ _ (hvararg ▸ hmatch)⟩
      · rename_i hne
        split at h
        · cases h
        · cases h
        · rename_i v' hambiguous
          have hsub : v' <+ (cmdFilterBy how command v index).2 := by
            have := isCmdAmbiguous_sublist command index (cmdFilterBy how command v index).1
              (cmdFilterBy how command v index).2 none
            rwa [hambiguous] at this
          have hreached := ih h hne fun e he => cmdFilterBy_long (hsub.subset he)
          rw [List.length_cons, Nat.add_comm vline.length, ← Nat.add_assoc]
          exact ⟨(hreached.sub.trans hsub).trans (cmdFilterBy_sublist _ _ _ _), hreached.words,
            hreached.vararg⟩

/-- A word that has made the arguments too many ends the loop, and the others leave room for one. -/
theorem argcMax_total {α : Type} {n : ℕ} {x : Except Fault (Option α)}
    (h : n < cmdArgcMax → ∃ r, x = .ok r) : ∃ r, (if cmdArgcMax ≤ n then .ok none else x) = .ok r := by
  split
  · exact ⟨none, rfl⟩
  · rename_i hless
    exact h (Nat.lt_of_not_le hless)

/-- The arguments behind `.VARARG` need no slot. -/
theorem argumentWords_varargs (vline : List (List UInt8)) (strvec : List (List Desc))
    {argv : List (List UInt8)} (hargv : argv.length < cmdArgcMax) :
    ∃ r, argumentWords true vline strvec argv = .ok r := by
  induction vline generalizing strvec argv with
  | nil => exact ⟨_, argumentWords.eq_1 _ _ _⟩
  | cons word vline ih =>
      rw [argumentWords_cons hargv, if_pos rfl]
      exact argcMax_total fun hless => ih _ hless

/-- A command with a slot for each word, or with `.VARARG` alone in a slot, has its arguments read
from slots that it has, and written where there is room for them. -/
theorem argumentWords_total {vline : List (List UInt8)} {strvec : List (List Desc)}
    (h : vline.length ≤ strvec.length ∨ ∃ desc, [desc] ∈ strvec ∧ cmdVararg desc.cmd = true)
    {argv : List (List UInt8)} (hargv : argv.length < cmdArgcMax) :
    ∃ r, argumentWords false vline strvec argv = .ok r := by
  induction vline generalizing strvec argv with
  | nil => exact ⟨_, argumentWords.eq_1 _ _ _⟩
  | cons word vline ih =>
      cases strvec with
      | nil =>
          rcases h with h | ⟨desc, hmem, -⟩
          · cases h
          · cases hmem
      | cons ds strvec =>
          -- behind the first slot the line is in the same case, unless the slot is the one of `.VARARG`
          have hrest : (∃ desc, ds = [desc] ∧ cmdVararg desc.cmd = true) ∨ vline.length ≤ strvec.length ∨
              ∃ desc, [desc] ∈ strvec ∧ cmdVararg desc.cmd = true := by
            rcases h with h | ⟨desc, hmem, hvararg⟩
            · exact .inr (.inl (Nat.le_of_succ_le_succ h))
            · rcases List.mem_cons.mp hmem with hds | hmem
              · exact .inl ⟨desc, hds.symm, hvararg⟩
              · exact .inr (.inr ⟨desc, hmem, hvararg⟩)
          rw [argumentWords_cons hargv]
          simp only [Bool.false_eq_true, if_false]
          split
          · rename_i hds
            cases hds
          · rename_i desc strvec' hds
            obtain ⟨rfl, rfl⟩ := List.cons.inj hds
            refine argcMax_total fun hless => ?_
            cases hvararg : cmdVararg desc.cmd with
            | true =>
                rw [hvararg] at hless
                exact argumentWords_varargs _ _ hless
            | false =>
                rw [hvararg] at hless
                refine ih (hrest.resolve_left ?_) hless
                rintro ⟨desc', hdesc, hvararg'⟩
                obtain rfl := List.singleton_inj.mp hdesc
                rw [hvararg] at hvararg'
                cases hvararg'
          · rename_i strvec' hno hds
            obtain ⟨rfl, rfl⟩ := List.cons.inj hds
            refine argcMax_total fun hless => ih (hrest.resolve_left ?_) hless
            rintro ⟨desc, rfl, -⟩
            exact hno desc rfl

/-- **Memory of the matching.** No line makes the matching read a slot that a command does not have or
write an argument behind the room for them, in a table whose commands have `.VARARG` alone at its
position. -/
theorem matchLine_total {how : List UInt8 → List UInt8 → Option MatchType} (hhow : TellsVararg how)
    {v : List (CmdElement F)} (hv : ∀ e ∈ v, e.WellFormed) (vline : List (List UInt8)) :
    ∃ r, matchLine how v vline = .ok r := by
  rw [matchLine_eq]
  cases hwords : matchWords how vline 0 .noMatch v with
  | error ret => exact ⟨_, rfl⟩
  | ok r =>
      obtain ⟨m, index, left⟩ := r
      have hreached := matchWords_reached hhow hwords (by decide) fun e _ => Nat.zero_le _
      rw [Nat.zero_add] at hreached
      rw [callMatched]
      split
      · exact ⟨_, rfl⟩
      · rename_i e hwhole
        have he : e ∈ left := (List.mem_filter.mp (hwhole ▸ List.mem_singleton_self e)).1
        have hslots : vline.length ≤ e.strvec.length ∨
            ∃ desc, [desc] ∈ e.strvec ∧ cmdVararg desc.cmd = true := by
          by_cases hm : m = .vararg
          · obtain ⟨e', he', desc, hdesc, hvararg⟩ := hreached.vararg hm
            have hwhole' : left = [e] := by
              rw [← hwhole]
              exact (List.filter_eq_self.mpr fun _ _ => by simp [hm]).symm
            obtain rfl : e' = e := List.mem_singleton.mp (hwhole' ▸ he')
            obtain ⟨ds, hds, hmem⟩ := CmdElement.mem_descvec hdesc
            obtain ⟨desc', rfl⟩ := List.length_eq_one_iff.mp
              (hv e' (hreached.sub.subset he') ds hds ⟨desc, hmem, hvararg⟩)
            obtain rfl := List.mem_singleton.mp hmem
            exact .inr ⟨desc, hds, hvararg⟩
          · exact .inl ((hreached.words hm).2 e he)
        obtain ⟨r, hargs⟩ := argumentWords_total hslots room_nil
        rw [hargs]
        exact ⟨_, rfl⟩
      · exact ⟨_, rfl⟩

theorem argumentWords_room {vline argv r : List (List UInt8)} {strvec : List (List Desc)}
    {varflag : Bool} (h : argumentWords varflag vline strvec argv = .ok (some r))
    (hargv : argv.length < cmdArgcMax) : r.length < cmdArgcMax ∧ ∃ s, r = argv ++ s ∧ s <+ vline := by
  induction vline generalizing strvec argv varflag with
  | nil =>
      rw [argumentWords.eq_1] at h
      cases h
      exact ⟨hargv, [], (List.append_nil _).symm, .refl _⟩
  | cons word vline ih =>
      -- one turn of the loop, with or without the word
      have hturn : ∀ {flag strvec' argv'}, (argv' = argv ∨ argv' = argv ++ [word]) →
          (if cmdArgcMax ≤ argv'.length then .ok none else argumentWords flag vline strvec' argv') =
            .ok (some r) →
          r.length < cmdArgcMax ∧ ∃ s, r = argv ++ s ∧ s <+ word :: vline := by
        intro flag strvec' argv' hargv' hif
        split at hif
        · cases hif
        · rename_i hless
          obtain ⟨hlen, s, rfl, hs⟩ := ih hif (Nat.lt_of_not_le hless)
          refine ⟨hlen, ?_⟩
          rcases hargv' with rfl | rfl
          · exact ⟨s, rfl, hs.cons word⟩
          · exact ⟨word :: s, by rw [List.append_assoc]; rfl, hs.cons_cons word⟩
      rw [argumentWords_cons hargv] at h
      dsimp only at h
      split at h
      · exact hturn (.inr rfl) h
      · split at h
        · cases h
        · refine hturn ?_ h
          split
          · exact .inr rfl
          · exact .inl rfl
        · exact hturn (.inr rfl) h

/-- What a line comes to: a command of the node that gets words of the line, of which there are fewer
than it has room for. -/
def Matched.Within (v : List (CmdElement F)) (vline : List (List UInt8)) (r : Matched F) : Prop :=
  ∀ e argv, r = .call e argv → e ∈ v ∧ argv <+ vline ∧ argv.length < cmdArgcMax

/-- A line that calls a command: the command is one of those that are left, with the words that it has
to have, and it gets its arguments. -/
theorem matchLine_call {how : List UInt8 → List UInt8 → Option MatchType} {v : List (CmdElement F)}
    {vline argv : List (List UInt8)} {e : CmdElement F} (h : matchLine how v vline = .ok (.call e argv)) :
    ∃ m k left, matchWords how vline 0 .noMatch v = .ok (m, k, left) ∧ e ∈ left ∧
      (m = .vararg ∨ e.cmdsize ≤ k) ∧ argumentWords false vline e.strvec [] = .ok (some argv) := by
  rw [matchLine_eq] at h
  cases hwords : matchWords how vline 0 .noMatch v with
  | error ret =>
      rw [hwords] at h
      cases h
  | ok r =>
      obtain ⟨m, k, left⟩ := r
      rw [hwords, callMatched] at h
      split at h
      · cases h
      · rename_i e' hwhole
        have he := List.mem_filter.mp (hwhole ▸ List.mem_singleton_self e')
        cases hargs : argumentWords false vline e'.strvec [] with
        | error f =>
            rw [hargs] at h
            cases h
        | ok args =>
            rw [hargs] at h
            cases args with
            | none => cases h
            | some argv' =>
                have hcall := Except.ok.inj h
                dsimp only at hcall
                split at hcall
                · cases hcall
                · cases hcall
                  exact ⟨m, k, left, rfl, he.1, of_decide_eq_true he.2, hargs⟩
      · cases h

theorem matchLine_within {how : List UInt8 → List UInt8 → Option MatchType} (hhow : TellsVararg how)
    {v : List (CmdElement F)} {vline : List (List UInt8)} {r : Matched F}
    (h : matchLine how v vline = .ok r) : r.Within v vline := by
  rintro e argv rfl
  obtain ⟨m, k, left, hwords, he, -, hargs⟩ := matchLine_call h
  have hreached := matchWords_reached hhow hwords (by decide) fun e _ => Nat.zero_le _
  obtain ⟨hlen, s, hs, hsub⟩ := argumentWords_room hargs room_nil
  rw [List.nil_append] at hs
  exact ⟨hreached.sub.subset he, hs ▸ hsub, hlen⟩

/-- **Memory of the commands.** In a table whose commands have `.VARARG` alone at its position, no line
makes the two forms of the matching read a slot that a command does not have or write an argument
that there is no room for, and what they call is a command of the node. -/
theorem cmdExecute_within (v : List (CmdElement F)) (hv : ∀ e ∈ v, e.WellFormed)
    (vline : List (List UInt8)) :
    (∃ r, matchReal v vline = .ok r ∧ r.Within v vline) ∧
      ∃ r, matchStrict v vline = .ok r ∧ r.Within v vline := by
  obtain ⟨r, hreal⟩ := matchLine_total completionMatch_vararg hv vline
  obtain ⟨r', hstrict⟩ := matchLine_total stringMatch_vararg hv vline
  exact ⟨⟨r, hreal, matchLine_within completionMatch_vararg hreal⟩,
    ⟨r', hstrict, matchLine_within stringMatch_vararg hstrict⟩⟩

/-- `echo .MESSAGE` -/
theorem cmdExecute_within_echo :
    let v : List (CmdElement ℕ) := [⟨0, [[⟨ascii "echo", none⟩], [⟨ascii ".MESSAGE", none⟩]], false⟩]
    let vline := [ascii "echo", ascii "a", ascii "b"]
    (∃ r, matchReal v vline = .ok r ∧ r.Within v vline) ∧
      ∃ r, matchStrict v vline = .ok r ∧ r.Within v vline :=
  cmdExecute_within _ (by decide) _

/-! ### Spelling -/

/-- A word is spelled out among commands: it is a keyword of one of them at its position, or it is not
short for any, and no part of an address. -/
def SpelledWord (command : List UInt8) (v : List (CmdElement F)) (index : ℕ) : Prop :=
  (∃ e ∈ v, ∃ desc ∈ e.descvec index, stringMatch command desc.cmd = some .exact) ∨
    ∀ e ∈ v, ∀ desc ∈ e.descvec index, completionMatch command desc.cmd = stringMatch command desc.cmd

/-- Each word is, among the commands that the words before it leave. -/
def Spelled : List (List UInt8) → ℕ → List (CmdElement F) → Prop
  | [], _, _ => True
  | command :: vline, index, v =>
      let left := isCmdAmbiguous command index (cmdFilterByString command v index).1
        (cmdFilterByString command v index).2 none
      SpelledWord command v index ∧ (left.1 = none → Spelled vline (index + 1) left.2)

instance (command : List UInt8) (v : List (CmdElement F)) (index : ℕ) :
    Decidable (SpelledWord command v index) := inferInstanceAs (Decidable (_ ∨ _))

instance decidableSpelled : ∀ vline index (v : List (CmdElement F)), Decidable (Spelled vline index v)
  | [], _, _ => .isTrue trivial
  | command :: vline, index, v =>
      have : ∀ left : List (CmdElement F), Decidable (Spelled vline (index + 1) left) :=
        decidableSpelled vline (index + 1)
      inferInstanceAs (Decidable (SpelledWord command v index ∧ (_ → _)))

/-- The keyword itself, for `is_cmd_ambiguous`. -/
def keywordAt (command : List UInt8) (index : ℕ) (e : CmdElement F) : Bool :=
  (e.descvec index).any fun desc => keyword desc.cmd && command == desc.cmd

theorem foldlM_hits {command : List UInt8} {type : MatchType} (hit : List UInt8 → Bool)
    {matched : Option (List UInt8)} (ds : List Desc)
    (hstep : ∀ desc ∈ ds, ∀ b, ambiguousDesc command type desc.cmd (matched, b) =
      .ok (matched, b || hit desc.cmd)) (b : Bool) :
    ds.foldlM (fun s desc => ambiguousDesc command type desc.cmd s) (matched, b) =
      (.ok (matched, b || ds.any fun desc => hit desc.cmd) : Except Ambiguity _) := by
  induction ds generalizing b with
  | nil => rw [List.any_nil, Bool.or_false]; rfl
  | cons desc ds ih =>
      rw [List.foldlM_cons, hstep desc List.mem_cons_self]
      refine (ih (fun desc' h => hstep desc' (List.mem_cons_of_mem _ h)) _).trans ?_
      rw [List.any_cons, Bool.or_assoc]

/-- With the keyword itself there is no ambiguity, and the commands that have it are left. -/
theorem isCmdAmbiguous_exact (command : List UInt8) (index : ℕ) (v : List (CmdElement F))
    (matched : Option (List UInt8)) :
    isCmdAmbiguous command index .exact v matched = (none, v.filter (keywordAt command index)) := by
  induction v with
  | nil => rfl
  | cons e v ih =>
      have hfold : (e.descvec index).foldlM (fun s desc => ambiguousDesc command .exact desc.cmd s)
          (matched, false) = (.ok (matched, false || keywordAt command index e) : Except Ambiguity _) :=
        foldlM_hits (fun str => keyword str && command == str) _ (fun _ _ _ => rfl) false
      rw [isCmdAmbiguous, hfold]
      dsimp only
      rw [ih, List.filter_cons, Bool.false_or]

theorem variable_of_range {str : List UInt8} (h : cmdRange str = true) : cmdVariable str = true := by
  cases str with
  | nil => cases h
  | cons c str =>
      obtain rfl : c = 0x3c := by simpa [cmdRange] using h
      rfl

/-- What a keyword is not. -/
theorem keyword_plain {str : List UInt8} (h : keyword str = true) :
    cmdRange str = false ∧ str ≠ ipv4Str ∧ str ≠ ipv4PrefixStr ∧
      (cmdOption str || cmdVariable str) = false := by
  have hargument : (cmdOption str || cmdVariable str) = false := by simpa [keyword] using h
  have hvariable : cmdVariable str = false := (Bool.or_eq_false_iff.mp hargument).2
  refine ⟨Bool.eq_false_iff.mpr fun hrange => ?_, ?_, ?_, hargument⟩
  · rw [variable_of_range hrange] at hvariable
    cases hvariable
  · rintro rfl
    cases hvariable
  · rintro rfl
    cases hvariable

/-- A keyword that is not `.VARARG` is taken literally. -/
theorem wordMatch_keyword {str : List UInt8} (h : keyword str = true) (hvararg : cmdVararg str = false)
    (address : MatchType → Bool) (literal : Option MatchType) (command : List UInt8) :
    wordMatch address literal command str = literal := by
  obtain ⟨hrange, hip, hnet, hargument⟩ := keyword_plain h
  rw [wordMatch, if_neg (by simp [hvararg]), if_neg (by simp [hrange]), if_neg hip, if_neg hnet,
    if_neg (by simp [hargument])]

/-- Only a keyword is taken exactly. -/
theorem wordMatch_exact {address : MatchType → Bool} {literal : Option MatchType}
    {command str : List UInt8} (h : wordMatch address literal command str = some .exact) :
    keyword str = true ∧ cmdVararg str = false ∧ literal = some .exact := by
  rw [wordMatch] at h
  split at h
  · cases h
  · rename_i hvararg
    split at h
    · split at h <;> cases h
    · split at h
      · split at h <;> cases h
      · split at h
        · split at h <;> cases h
        · split at h
          · cases h
          · rename_i hargument
            exact ⟨by simpa [keyword] using hargument, Bool.eq_false_iff.mpr hvararg, h⟩

theorem stringMatch_exact {command str : List UInt8} (h : stringMatch command str = some .exact) :
    keyword str = true ∧ cmdVararg str = false ∧ command = str := by
  obtain ⟨hkeyword, hvararg, hliteral⟩ := wordMatch_exact h
  refine ⟨hkeyword, hvararg, ?_⟩
  by_contra hne
  rw [if_neg hne] at hliteral
  cases hliteral

theorem completionMatch_self {str : List UInt8} (h : keyword str = true)
    (hvararg : cmdVararg str = false) : completionMatch str str = some .exact := by
  rw [completionMatch, wordMatch_keyword h hvararg, if_pos (List.prefix_refl str), if_pos rfl]

/-- Both filters take a keyword as itself. -/
def TakesKeywords (how : List UInt8 → List UInt8 → Option MatchType) : Prop :=
  ∀ str, keyword str = true → how str str ≠ none

theorem wordMatch_takes {literal : List UInt8 → Option MatchType} (h : ∀ str, literal str ≠ none)
    (address : MatchType → Bool) :
    ∀ str, keyword str = true → wordMatch address (literal str) str str ≠ none := by
  intro str hkeyword
  cases hvararg : cmdVararg str with
  | true =>
      rw [wordMatch, if_pos hvararg]
      rintro ⟨⟩
  | false =>
      rw [wordMatch_keyword hkeyword hvararg]
      exact h str

theorem completionMatch_takes : TakesKeywords completionMatch := by
  refine wordMatch_takes (fun str => ?_) _
  rw [if_pos (List.prefix_refl str)]
  rintro ⟨⟩

theorem stringMatch_takes : TakesKeywords stringMatch := by
  refine wordMatch_takes (fun str => ?_) _
  rw [if_pos rfl]
  rintro ⟨⟩

/-- A word that is a keyword of one of the commands leaves the commands that have it. -/
theorem cmdFilterBy_exact {how : List UInt8 → List UInt8 → Option MatchType} (hhow : TakesKeywords how)
    {command : List UInt8} {v : List (CmdElement F)} {index : ℕ}
    (h : ∃ e ∈ v, ∃ desc ∈ e.descvec index, how command desc.cmd = some .exact) :
    (cmdFilterBy how command v index).1 = .exact ∧
      isCmdAmbiguous command index .exact (cmdFilterBy how command v index).2 none =
        (none, v.filter (keywordAt command index)) := by
  obtain ⟨e, he, desc, hdesc, hexact⟩ := h
  constructor
  · exact raise_eq_exact
      (List.mem_flatMap.mpr ⟨e, he, List.mem_filterMap.mpr ⟨desc, hdesc, hexact⟩⟩) _
  · rw [isCmdAmbiguous_exact, cmdFilterBy, List.filter_filter]
    congr 1
    apply List.filter_congr
    intro e' _
    rw [Bool.and_eq_left_iff_imp]
    intro hkeyword
    obtain ⟨desc', hdesc', hsame⟩ := List.any_eq_true.mp hkeyword
    obtain ⟨hkey, hcommand⟩ := Bool.and_eq_true_iff.mp hsame
    have hmatch : how command desc'.cmd ≠ none := by
      rw [← beq_iff_eq.mp hcommand]
      exact hhow _ (beq_iff_eq.mp hcommand ▸ hkey)
    obtain ⟨m, hm⟩ := Option.ne_none_iff_exists'.mp hmatch
    have hmem : m ∈ wordMatches how command index e' := List.mem_filterMap.mpr ⟨desc', hdesc', hm⟩
    simpa using List.ne_nil_of_mem hmem

/-- One word that is spelled out leaves the same commands in both forms. -/
theorem spelledWord_step {command : List UInt8} {v : List (CmdElement F)} {index : ℕ}
    (h : SpelledWord command v index) :
    (cmdFilterByCompletion command v index).1 = (cmdFilterByString command v index).1 ∧
      ((cmdFilterByCompletion command v index).1 = .vararg →
        (cmdFilterByCompletion command v index).2 = (cmdFilterByString command v index).2) ∧
      isCmdAmbiguous command index (cmdFilterByCompletion command v index).1
          (cmdFilterByCompletion command v index).2 none =
        isCmdAmbiguous command index (cmdFilterByString command v index).1
          (cmdFilterByString command v index).2 none := by
  rcases h with ⟨e, he, desc, hdesc, hexact⟩ | hsame
  · obtain ⟨hkeyword, hvararg, rfl⟩ := stringMatch_exact hexact
    obtain ⟨htype, hleft⟩ := cmdFilterBy_exact completionMatch_takes
      ⟨e, he, desc, hdesc, completionMatch_self hkeyword hvararg⟩
    obtain ⟨htype', hleft'⟩ := cmdFilterBy_exact stringMatch_takes ⟨e, he, desc, hdesc, hexact⟩
    rw [cmdFilterByCompletion, cmdFilterByString, htype, htype', hleft, hleft']
    exact ⟨rfl, fun hne => (nomatch hne), rfl⟩
  · have hmatches : ∀ e ∈ v, wordMatches completionMatch command index e =
        wordMatches stringMatch command index e := fun e he =>
      List.filterMap_congr fun desc hdesc => hsame e he desc hdesc
    have hfilter : cmdFilterByCompletion command v index = cmdFilterByString command v index := by
      refine Prod.ext ?_ (List.filter_congr fun e he => ?_)
      · exact congrArg (List.foldl MatchType.raise .noMatch) (List.flatMap_congr hmatches)
      · rw [hmatches e he]
    rw [hfilter]
    exact ⟨rfl, fun _ => rfl, rfl⟩

theorem matchWords_spelled {vline : List (List UInt8)} {index : ℕ} {v : List (CmdElement F)}
    (h : Spelled vline index v) (m : MatchType) :
    matchWords completionMatch vline index m v = matchWords stringMatch vline index m v := by
  induction vline generalizing index m v with
  | nil => rfl
  | cons command vline ih =>
      obtain ⟨hword, hrest⟩ := h
      obtain ⟨htype, hleft, hambiguous⟩ := spelledWord_step hword
      rw [cmdFilterByCompletion, cmdFilterByString] at htype hleft hambiguous
      rw [cmdFilterByString] at hrest
      rw [matchWords, matchWords, hambiguous, ← htype]
      split
      · rename_i hvararg
        rw [hleft hvararg]
      · rw [← htype] at hrest
        split
        · rfl
        · rfl
        · rename_i left hleft'
          rw [hleft'] at hrest
          exact ih (hrest rfl) _

/-- **Spelled lines.** On a line whose words are spelled out among the commands that are left, the
matching that takes abbreviations and the strict one come to the same: the same command with the
same arguments, or the same error. -/
theorem matchReal_spelled (v : List (CmdElement F)) (vline : List (List UInt8))
    (h : Spelled vline 0 v) : matchReal v vline = matchStrict v vline := by
  rw [matchReal, matchStrict, matchLine_eq, matchLine_eq, matchWords_spelled h]

/-- `ip` is a keyword, and another one begins with it. -/
theorem matchReal_spelled_ip :
    let v : List (CmdElement ℕ) := [⟨0, [[⟨ascii "show", none⟩], [⟨ascii "ip", none⟩]], false⟩,
      ⟨1, [[⟨ascii "show", none⟩], [⟨ascii "ipv6", none⟩]], false⟩]
    matchReal v [ascii "show", ascii "ip"] = matchStrict v [ascii "show", ascii "ip"] :=
  matchReal_spelled _ _ (by decide)

end SoftBts
