import SoftBts.CmdInit

/-! The arguments of the commands of softbts: a function that looks at an argument without asking how
many there are finds it, but for one whose argument may be left out. -/

namespace SoftBts

open scoped List

variable {F : Type}

/-! ### How many arguments there are -/

/-- A position whose word is an argument. -/
def argumentSlot : List Desc → Bool
  | [desc] => cmdVararg desc.cmd || cmdVariable desc.cmd || cmdOption desc.cmd
  | _ => true

/-- Without `.VARARG` a command gets the words at its argument positions. -/
theorem argumentWords_count {vline argv r : List (List UInt8)} {strvec : List (List Desc)}
    (hplain : ∀ ds ∈ strvec, ∀ desc ∈ ds, cmdVararg desc.cmd = false)
    (hargv : argv.length < cmdArgcMax) (h : argumentWords false vline strvec argv = .ok (some r)) :
    vline.length ≤ strvec.length ∧
      r.length = argv.length + (strvec.take vline.length).countP argumentSlot := by
  induction vline generalizing strvec argv with
  | nil =>
      rw [argumentWords.eq_1] at h
      cases h
      exact ⟨Nat.zero_le _, rfl⟩
  | cons word vline ih =>
      cases strvec with
      | nil => cases h
      | cons ds strvec =>
          have hplain' := fun ds' hds' => hplain ds' (List.mem_cons_of_mem _ hds')
          -- one turn of the loop, with or without the word
          have hturn : ∀ {argv' : List (List UInt8)},
              argv'.length = argv.length + (if argumentSlot ds then 1 else 0) →
              (if cmdArgcMax ≤ argv'.length then .ok none
                else argumentWords false vline strvec argv') = .ok (some r) →
              (word :: vline).length ≤ (ds :: strvec).length ∧ r.length = argv.length +
                ((ds :: strvec).take (word :: vline).length).countP argumentSlot := by
            intro argv' hargv' hif
            split at hif
            · cases hif
            · rename_i hless
              obtain ⟨hlen, hr⟩ := ih hplain' (Nat.lt_of_not_le hless) hif
              refine ⟨Nat.succ_le_succ hlen, ?_⟩
              rw [List.length_cons, List.take_succ_cons, List.countP_cons, hr, hargv']
              omega
          rw [argumentWords_cons hargv] at h
          simp only [Bool.false_eq_true, if_false] at h
          split at h
          · rename_i hds
            cases hds
          · rename_i desc strvec' hds
            obtain ⟨rfl, rfl⟩ := List.cons.inj hds
            have hvararg := hplain [desc] List.mem_cons_self desc (List.mem_singleton_self desc)
            rw [hvararg] at h
            refine hturn ?_ h
            rw [argumentSlot, hvararg]
            split
            · exact List.length_append
            · rfl
          · rename_i strvec' hno hds
            obtain ⟨rfl, rfl⟩ := List.cons.inj hds
            refine hturn ?_ h
            rw [argumentSlot.eq_2 ds hno, if_pos rfl]
            exact List.length_append

/-! ### Commands with the same first word -/

/-- A word of a command either does not go on from the beginning of a keyword, or it is the keyword
that has matched so far. -/
theorem ambiguousDesc_shared {w str : List UInt8} {matched matched' : Option (List UInt8)} {b b' : Bool}
    (h : ambiguousDesc w .partly str (matched, b) = .ok (matched', b')) :
    matched' = matched ∧ b' = b ∨
      matched' = some str ∧ keyword str = true ∧ ∀ s, matched = some s → s = str := by
  rw [ambiguousDesc] at h
  dsimp only at h
  split at h
  · rename_i hword
    have hkey := (Bool.and_eq_true_iff.mp hword).1
    cases matched with
    | none =>
        cases h
        exact .inr ⟨rfl, hkey, by rintro _ ⟨⟩⟩
    | some t =>
        dsimp only at h
        split at h
        · cases h
        · rename_i hsame
          cases h
          refine .inr ⟨rfl, hkey, ?_⟩
          rintro _ ⟨⟩
          exact Classical.not_not.mp hsame
  · cases h
    exact .inl ⟨rfl, rfl⟩

/-- The words of a command that go on from the beginning of a keyword: they are the keyword that has
matched so far. -/
theorem foldlM_shared {w : List UInt8} {ds : List Desc} {matched matched' : Option (List UInt8)}
    {b hit : Bool}
    (h : ds.foldlM (fun s desc => ambiguousDesc w .partly desc.cmd s) (matched, b) =
      .ok (matched', hit)) :
    (∀ s, matched = some s → matched' = some s) ∧
      (hit = true → b = true ∨ ∃ s, matched' = some s ∧
        ds.any (fun desc => keyword desc.cmd && s == desc.cmd) = true) := by
  induction ds generalizing matched b with
  | nil =>
      cases h
      exact ⟨fun _ h => h, fun h => .inl h⟩
  | cons desc ds ih =>
      rw [List.foldlM_cons] at h
      cases hfirst : ambiguousDesc w .partly desc.cmd (matched, b) with
      | error a =>
          rw [hfirst] at h
          cases h
      | ok r =>
          obtain ⟨matched1, b1⟩ := r
          rw [hfirst] at h
          obtain ⟨hkept, hhit⟩ := ih h
          rcases ambiguousDesc_shared hfirst with ⟨rfl, rfl⟩ | ⟨rfl, hkey, hsame⟩
          · refine ⟨hkept, fun htrue => (hhit htrue).imp_right ?_⟩
            rintro ⟨s, hs, hany⟩
            exact ⟨s, hs, by rw [List.any_cons, hany, Bool.or_true]⟩
          · have hlast := hkept desc.cmd rfl
            refine ⟨fun s hs => (hsame s hs) ▸ hlast, fun _ => .inr ⟨desc.cmd, hlast, ?_⟩⟩
            rw [List.any_cons, hkey, beq_self_eq_true]
            rfl

/-- Behind the beginning of a keyword the commands that are left have the same one. -/
theorem isCmdAmbiguous_shared {w : List UInt8} {index : ℕ} {v left : List (CmdElement F)}
    {matched : Option (List UInt8)}
    (h : isCmdAmbiguous w index .partly v matched = (none, left)) :
    ∃ s, (∀ t, matched = some t → t = s) ∧ ∀ e ∈ left, keywordAt s index e = true := by
  induction v generalizing matched left with
  | nil =>
      cases h
      cases matched with
      | none => exact ⟨[], (by rintro _ ⟨⟩), fun _ he => (nomatch he)⟩
      | some s => exact ⟨s, (by rintro _ ⟨⟩; rfl), fun _ he => (nomatch he)⟩
  | cons e v ih =>
      rw [isCmdAmbiguous] at h
      cases hfold : (e.descvec index).foldlM (fun s desc => ambiguousDesc w .partly desc.cmd s)
          (matched, false) with
      | error a =>
          rw [hfold] at h
          cases h
      | ok r =>
          obtain ⟨matched', hit⟩ := r
          rw [hfold] at h
          dsimp only at h
          obtain ⟨hnone, hleft⟩ := Prod.mk.inj h
          have hrest : isCmdAmbiguous w index .partly v matched' =
              (none, (isCmdAmbiguous w index .partly v matched').2) := Prod.ext hnone rfl
          obtain ⟨s, hs, hshared⟩ := ih hrest
          obtain ⟨hkept, hhit⟩ := foldlM_shared hfold
          refine ⟨s, fun t ht => hs t (hkept t ht), fun e' he' => ?_⟩
          rw [← hleft] at he'
          split at he'
          · rename_i htrue
            rcases List.mem_cons.mp he' with rfl | he'
            · obtain ⟨t, ht, hany⟩ := (hhit htrue).resolve_left (by decide)
              exact hs t ht ▸ hany
            · exact hshared e' he'
          · exact hshared e' he'

/-- The type of the matches when a keyword is among them. -/
theorem filter_keyword {w : List UInt8} {index : ℕ} {v : List (CmdElement F)} {e : CmdElement F}
    {desc : Desc} {t : MatchType} (he : e ∈ v) (hdesc : desc ∈ e.descvec index)
    (hkey : keyword desc.cmd = true) (hplain : cmdVararg desc.cmd = false)
    (hmatch : completionMatch w desc.cmd = some t) :
    (cmdFilterBy completionMatch w v index).1 = .exact ∨
      (cmdFilterBy completionMatch w v index).1 = .partly := by
  have hmem : t ∈ v.flatMap (wordMatches completionMatch w index) :=
    List.mem_flatMap.mpr ⟨e, he, List.mem_filterMap.mpr ⟨desc, hdesc, hmatch⟩⟩
  by_cases hexact : MatchType.exact ∈ v.flatMap (wordMatches completionMatch w index)
  · exact .inl (raise_eq_exact hexact _)
  · refine .inr (raise_eq_partly ?_ hexact (by decide))
    rw [completionMatch, wordMatch_keyword hkey hplain] at hmatch
    split at hmatch
    · split at hmatch
      · cases hmatch
        exact absurd hmem hexact
      · cases hmatch
        exact hmem
    · cases hmatch

/-- When `.VARARG` ends the line behind the first word, the commands that are left share a keyword
there, if one of those with `.VARARG` has nothing else. -/
theorem matchWords_shared {vline : List (List UInt8)} {k : ℕ} {v left : List (CmdElement F)}
    (h : matchWords completionMatch vline 0 .noMatch v = .ok (.vararg, k, left))
    (hecho : ∀ e ∈ v, ∀ index, ∀ desc ∈ e.descvec index, cmdVararg desc.cmd = true →
      index = 1 ∧ ∀ desc' ∈ e.descvec 0, keyword desc'.cmd = true ∧ cmdVararg desc'.cmd = false) :
    ∃ s, ∀ e ∈ left, keywordAt s 0 e = true := by
  have hreached := matchWords_reached completionMatch_vararg h (by decide) fun _ _ => Nat.zero_le _
  obtain ⟨e, he, desc, hdesc, hvararg⟩ := hreached.vararg rfl
  have hleft := hreached.sub
  obtain ⟨-, hword⟩ := hecho e (hleft.subset he) k desc hdesc hvararg
  cases vline with
  | nil => cases h
  | cons w vline =>
      rw [matchWords] at h
      split at h
      · cases h
        cases (hecho e (hleft.subset he) 0 desc hdesc hvararg).1
      · rename_i hne
        split at h
        · cases h
        · cases h
        · rename_i v' hambiguous
          have hfilter : v' <+ (cmdFilterBy completionMatch w v 0).2 := by
            have hsub := isCmdAmbiguous_sublist w 0 (cmdFilterBy completionMatch w v 0).1
              (cmdFilterBy completionMatch w v 0).2 none
            rwa [hambiguous] at hsub
          have hrest : left <+ v' := (matchWords_reached completionMatch_vararg h hne
            fun e' he' => cmdFilterBy_long (hfilter.subset he')).sub
          -- the word of the command with `.VARARG` has matched as a keyword
          have hmatches := (List.mem_filter.mp (hfilter.subset (hrest.subset he))).2
          obtain ⟨t, ht⟩ := List.exists_mem_of_ne_nil _ (of_decide_eq_true hmatches)
          obtain ⟨desc', hdesc', hmatch⟩ := List.mem_filterMap.mp ht
          obtain ⟨hkey, hplain⟩ := hword desc' hdesc'
          rcases filter_keyword (hleft.subset he) hdesc' hkey hplain hmatch with htype | htype
          · rw [htype, isCmdAmbiguous_exact] at hambiguous
            obtain ⟨-, rfl⟩ := Prod.mk.inj hambiguous
            exact ⟨w, fun e' he' => (List.mem_filter.mp (hrest.subset he')).2⟩
          · rw [htype] at hambiguous
            obtain ⟨s, -, hshared⟩ := isCmdAmbiguous_shared hambiguous
            exact ⟨s, fun e' he' => hshared e' (hrest.subset he')⟩

/-! ### The commands of softbts -/

/-- The arguments of the function that is called. -/
def Matched.argv : Matched F → Option (List (List UInt8))
  | .refused _ => none
  | .call _ argv => some argv

/-- How many arguments a function looks at without asking how many there are. -/
def Defun.reads : Defun → ℕ
  | .configTerminalLength | .configHostname | .serviceTerminalLength | .bannerMotdFile => 1
  | _ => 0

/-- The words of a command against what its function reads: only `echo` takes as many arguments as
there are, and only the name of the banner's file may be left out where it is read. -/
def Defun.Argued (f : Defun) (strvec : List (List Desc)) : Prop :=
  if f = .doEcho then strvec.map (List.map Desc.cmd) = [[ascii "echo"], [ascii ".MESSAGE"]]
  else
    (∀ ds ∈ strvec, ∀ desc ∈ ds, cmdVararg desc.cmd = false) ∧
      (∀ desc ∈ strvec.getD 0 [], desc.cmd ≠ ascii "echo") ∧
      ∀ k ≤ strvec.length, cmdCmdsize strvec ≤ k →
        ((strvec.take k).countP argumentSlot < f.reads ↔ f = .bannerMotdFile ∧ k = 3)

instance (f : Defun) (strvec : List (List Desc)) : Decidable (f.Argued strvec) :=
  inferInstanceAs (Decidable (ite _ _ _))

theorem nodeCommands_argued : ∀ n, ∀ cs ∈ nodeCommands n, ∀ c ∈ cs,
    ∀ strvec ∈ cmdMakeDescvec (ascii c.string) (ascii c.doc), c.func.Argued strvec := by
  rintro (_ | _ | _ | _ | _ | _ | _ | _ | _ | _ | _ | _ | _ | _) <;> decide +kernel

section Shipped

variable {H : Type} {rest : Defun → QuietFunc H} {n : NodeType} {v : List (CmdElement (CmdFunc H))}

theorem cmdInit_argued (hv : cmdInit rest n = some v) {e : CmdElement (CmdFunc H)} (he : e ∈ v) :
    ∃ cs, nodeCommands n = some cs ∧ ∃ c ∈ cs, c.install rest = some e ∧ c.func.Argued e.strvec := by
  obtain ⟨cs, hcs, rfl⟩ := Option.map_eq_some_iff.mp hv
  obtain ⟨c, hc, hinstall⟩ := List.mem_filterMap.mp he
  obtain ⟨strvec, hstrvec, rfl⟩ := Option.map_eq_some_iff.mp hinstall
  exact ⟨cs, hcs, c, hc, hinstall, nodeCommands_argued n cs hcs c hc strvec hstrvec⟩

/-- A command with `.VARARG` is `echo`. -/
theorem cmdInit_vararg (hv : cmdInit rest n = some v) {e : CmdElement (CmdFunc H)} (he : e ∈ v)
    {index : ℕ} {desc : Desc} (hdesc : desc ∈ e.descvec index) (hvararg : cmdVararg desc.cmd = true) :
    index = 1 ∧ ∃ echo, e.descvec 0 = [echo] ∧ echo.cmd = ascii "echo" := by
  obtain ⟨cs, -, c, -, -, hargued⟩ := cmdInit_argued hv he
  rw [CmdElement.descvec] at hdesc ⊢
  unfold Defun.Argued at hargued
  split at hargued
  · obtain ⟨ds, tail, hstrvec, hfirst, htail⟩ := List.map_eq_cons_iff.mp hargued
    obtain ⟨ds', tail', rfl, hsecond, hnil⟩ := List.map_eq_cons_iff.mp htail
    obtain ⟨echo, rest', rfl, hecho, hnil'⟩ := List.map_eq_cons_iff.mp hfirst
    obtain rfl := List.map_eq_nil_iff.mp hnil
    obtain rfl := List.map_eq_nil_iff.mp hnil'
    rw [hstrvec] at hdesc ⊢
    refine ⟨?_, echo, rfl, hecho⟩
    rcases index with - | - | index
    · obtain rfl := List.mem_singleton.mp hdesc
      rw [hecho] at hvararg
      exact absurd hvararg (by decide)
    · rfl
    · exact absurd hdesc List.not_mem_nil
  · cases hat : e.strvec[index]? with
    | none =>
        rw [List.getD_eq_getElem?_getD, hat] at hdesc
        exact absurd hdesc List.not_mem_nil
    | some ds =>
        rw [List.getD_eq_getElem?_getD, hat] at hdesc
        rw [hargued.1 ds (List.mem_of_getElem? hat) desc hdesc] at hvararg
        cases hvararg

/-- The commands that are left when `.VARARG` has ended the loop begin with the word `echo`. -/
theorem cmdInit_left (hv : cmdInit rest n = some v) {vline : List (List UInt8)} {k : ℕ}
    {left : List (CmdElement (CmdFunc H))}
    (hwords : matchWords completionMatch vline 0 .noMatch v = .ok (.vararg, k, left))
    {e : CmdElement (CmdFunc H)} (he : e ∈ left) : ∃ desc ∈ e.descvec 0, desc.cmd = ascii "echo" := by
  have hecho : ∀ e ∈ v, ∀ index, ∀ desc ∈ e.descvec index, cmdVararg desc.cmd = true →
      index = 1 ∧ ∀ desc' ∈ e.descvec 0, keyword desc'.cmd = true ∧ cmdVararg desc'.cmd = false := by
    intro e' he' index desc hdesc hvararg
    obtain ⟨rfl, echo, hzero, hname⟩ := cmdInit_vararg hv he' hdesc hvararg
    refine ⟨rfl, fun desc' hdesc' => ?_⟩
    obtain rfl := List.mem_singleton.mp (hzero ▸ hdesc')
    rw [hname]
    decide
  -- the keyword that they share is that of the command with `.VARARG`
  obtain ⟨s, hs⟩ := matchWords_shared hwords hecho
  have hreached := matchWords_reached completionMatch_vararg hwords (by decide) fun _ _ => Nat.zero_le _
  obtain ⟨e', he', desc', hdesc', hvararg⟩ := hreached.vararg rfl
  obtain ⟨-, echo, hzero, hname⟩ := cmdInit_vararg hv (hreached.sub.subset he') hdesc' hvararg
  have hat' := hs e' he'
  rw [keywordAt, hzero, List.any_cons, List.any_nil, Bool.or_false, Bool.and_eq_true_iff,
    beq_iff_eq] at hat'
  obtain ⟨desc, hdesc, hat⟩ := List.any_eq_true.mp (hs e he)
  rw [Bool.and_eq_true_iff, beq_iff_eq] at hat
  exact ⟨desc, hdesc, (hat.2.symm.trans hat'.2).trans hname⟩

/-- **The arguments.** In the commands of softbts, a function that is called looks at an argument that
it has not got in one case only: `banner motd file` without the name of the file. -/
theorem cmdInit_arguments (hv : cmdInit rest n = some v) {vline argv : List (List UInt8)}
    {e : CmdElement (CmdFunc H)} (h : matchReal v vline = .ok (.call e argv)) :
    ∃ cs, nodeCommands n = some cs ∧ ∃ c ∈ cs, c.install rest = some e ∧
      (argv.length < c.func.reads ↔ c.func = .bannerMotdFile ∧ vline.length = 3) := by
  obtain ⟨m, k, left, hwords, he, hsize, hargs⟩ := matchLine_call h
  have hreached := matchWords_reached completionMatch_vararg hwords (by decide) fun _ _ => Nat.zero_le _
  obtain ⟨cs, hcs, c, hc, hinstall, hargued⟩ := cmdInit_argued hv (hreached.sub.subset he)
  refine ⟨cs, hcs, c, hc, hinstall, ?_⟩
  unfold Defun.Argued at hargued
  split at hargued
  · rename_i hfunc
    rw [hfunc]
    exact ⟨fun hless => absurd hless (Nat.not_lt_zero _), fun ⟨hfalse, _⟩ => nomatch hfalse⟩
  · obtain ⟨hplain, hfirst, hcount⟩ := hargued
    have hm : m ≠ .vararg := by
      rintro rfl
      obtain ⟨desc, hdesc, hname⟩ := cmdInit_left hv hwords he
      exact hfirst desc hdesc hname
    obtain ⟨hlen, hargc⟩ := argumentWords_count hplain room_nil hargs
    have hk : k = vline.length := (hreached.words hm).1.trans (Nat.zero_add _)
    have hwhole : cmdCmdsize e.strvec ≤ vline.length := hk ▸ hsize.resolve_left hm
    rw [hargc, List.length_nil, Nat.zero_add]
    exact hcount vline.length hlen hwhole

/-- The banner's file is not named. -/
theorem cmdInit_arguments_banner :
    let rest : Defun → QuietFunc Unit := fun _ _ _ s => (s.host.other, .success, [])
    ∃ v e, cmdInit rest .config = some v ∧
      matchReal v [ascii "banner", ascii "motd", ascii "file"] = .ok (.call e []) ∧
      ∃ cs, nodeCommands .config = some cs ∧ ∃ c ∈ cs, c.install rest = some e ∧
        (([] : List (List UInt8)).length < c.func.reads ↔ c.func = .bannerMotdFile ∧ 3 = 3) := by
  intro rest
  let v := ((nodeCommands .config).getD []).filterMap (CmdText.install rest)
  have hcalled : (matchReal v [ascii "banner", ascii "motd", ascii "file"]).toOption.bind
      Matched.argv = some [] := by decide +kernel
  obtain ⟨r, hr, hargv⟩ := Option.bind_eq_some_iff.mp hcalled
  cases hmatch : matchReal v [ascii "banner", ascii "motd", ascii "file"] with
  | error f =>
      rw [hmatch] at hr
      cases hr
  | ok r' =>
      rw [hmatch] at hr
      cases hr
      cases r with
      | refused ret => cases hargv
      | call e argv =>
          cases hargv
          exact ⟨v, e, rfl, hmatch, cmdInit_arguments rfl hmatch⟩

end Shipped

end SoftBts
