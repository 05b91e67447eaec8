import SoftBts.CommandComplete
import SoftBts.Lib.Loop

/-! The command tree: where a line is executed (`cmd_execute_command`, with `do` and the parent nodes),
and the commands that move a session between its levels and take and give back the configure lock.
No line makes a session leave the levels that are installed, and the lock goes with the level. -/

namespace SoftBts

open Loop

variable {H : Type}

/-- What a command does with its words, the history and the seat of the session, with what it returns
and prints. -/
abbrev CmdFunc (H : Type) := List (List UInt8) → History → Seat H → Seat H × CmdReturn × List UInt8

/-- `cmdvec`: the commands of each node, where the node is installed. -/
abbrev CmdTree (H : Type) := NodeType → Option (List (CmdElement (CmdFunc H)))

/-- The place in `enum node_type`. -/
def NodeType.rank : NodeType → ℕ
  | .auth => 0
  | .view => 1
  | .authEnable => 2
  | .enable => 3
  | .config => 4
  | .service => 5
  | .debug => 6
  | .vty => 7
  | .gsmnet => 8
  | .bts => 9
  | .trx => 10
  | .ts => 11
  | .subscr => 12
  | .mgcp => 13

/-! ### Execution -/

/-- `cmd_try_do_shortcut` -/
def cmdTryDoShortcut (node : NodeType) (firstWord : Option (List UInt8)) : Bool :=
  node ≠ .auth && node ≠ .view && node ≠ .authEnable && node ≠ .enable && firstWord = some (ascii "do")

/-- `vty_go_parent` -/
def vtyGoParent (s : Seat H) : Seat H :=
  match s.node with
  | .subscr => { s with node := .view }
  | _ => { s with node := .config }

/-- What an execution comes to. -/
structure Executed (H : Type) where
  seat : Seat H
  ret : CmdReturn
  text : List UInt8

/-- The return values that end the search for a command. -/
def CmdReturn.done (ret : CmdReturn) : Bool := ret = .success || ret = .warning

/-- `cmd_execute_command_real` -/
def cmdExecuteCommandReal (t : CmdTree H) (vline : List (List UInt8)) (history : History)
    (s : Seat H) : Except Fault (Executed H) :=
  match t s.node with
  | none => .error .overrun
  | some v =>
      (matchReal v vline).map fun
        | .refused ret => ⟨s, ret, []⟩
        | .call e argv =>
            let r := e.func argv history s
            ⟨r.1, r.2.1, r.2.2⟩

/-- One turn of the loop over the parents. -/
def tryParent (t : CmdTree H) (vline : List (List UInt8)) (history : History) (r : Executed H) :
    Except Fault (Executed H) :=
  (cmdExecuteCommandReal t vline history (vtyGoParent r.seat)).map fun r' =>
    { r' with text := r.text ++ r'.text }

/-- Whether the loop over the parents goes on. -/
def triesParent (r : Executed H) : Bool := !r.ret.done && NodeType.config.rank < r.seat.node.rank

/-- `cmd_execute_command` -/
def cmdExecuteCommand (t : CmdTree H) (turns : ℕ) (vline : List (List UInt8)) (history : History)
    (s : Seat H) : Except Fault (Executed H) :=
  if cmdTryDoShortcut s.node vline.head? then
    -- the command runs at the enable node, and the session stays where it is
    (cmdExecuteCommandReal t vline.tail history { s with node := .enable }).map fun r =>
      { r with seat := { r.seat with node := s.node } }
  else
    (cmdExecuteCommandReal t vline history s).bind fun r =>
      (loop .hang (fun r => .ok (triesParent r)) (tryParent t vline history) turns r).map fun r' =>
        if r'.ret.done then r'
        else
          { r' with
            ret := r.ret
            seat := { r'.seat with node := if triesParent r then s.node else r'.seat.node } }

/-- `cmd_complete_command` -/
def cmdCompleteCommand (t : CmdTree H) (vline : List (Option (List UInt8))) (s : Seat H) :
    Except Fault Completion :=
  let shortcut := cmdTryDoShortcut s.node vline.head?.join
  match t (if shortcut then .enable else s.node) with
  | none => .error .overrun
  | some v => .ok (cmdCompleteCommandReal (if shortcut then vline.tail else vline) v)

/-! ### Levels -/

/-- `vty_config_lock`, with what it returns. -/
def Seat.configLock (s : Seat H) : Seat H × Bool :=
  if s.host.vtyConfig then (s, s.config)
  else ({ s with config := true, host := { s.host with vtyConfig := true } }, true)

/-- `config_terminal` -/
def configTerminal : CmdFunc H := fun _ _ s =>
  let r := s.configLock
  if r.2 then ({ r.1 with node := .config }, .success, [])
  else (r.1, .warning, ascii "VTY configuration is locked by other VTY" ++ vtyNewline)

/-- `enable` -/
def enableCmd : CmdFunc H := fun _ _ s =>
  ({ s with node := if s.host.enable = none ∧ s.host.enableEncrypt = none then .enable else .authEnable },
    .success, [])

/-- `disable` -/
def disableCmd : CmdFunc H := fun _ _ s =>
  ({ s with node := if s.node = .enable then .view else s.node }, .success, [])

/-- `config_exit` as a command -/
def exitCmd : CmdFunc H := fun _ _ s => (s.configExit, .success, [])

/-- `config_end` -/
def endCmd : CmdFunc H := fun _ _ s => (s.leaveConfig, .success, [])

/-- `line_vty` -/
def lineVty : CmdFunc H := fun _ _ s => ({ s with node := .vty }, .success, [])

/-- A command that leaves the level and the lock as they are. -/
def LeavesLevel (f : CmdFunc H) : Prop := ∀ argv history s,
  (f argv history s).1.node = s.node ∧ (f argv history s).1.config = s.config ∧
    (f argv history s).1.host.vtyConfig = s.host.vtyConfig

/-- Which commands are at which node. -/
inductive LevelCommand : NodeType → CmdFunc H → Prop
  | other {n : NodeType} {f : CmdFunc H} (h : LeavesLevel f) : LevelCommand n f
  | exit {n : NodeType} : LevelCommand n exitCmd
  | endConfig {n : NodeType} : LevelCommand n endCmd
  | enable : LevelCommand .view enableCmd
  | disable : LevelCommand .enable disableCmd
  | configTerminal : LevelCommand .enable configTerminal
  | lineVty : LevelCommand .config lineVty

/-- The nodes that `cmd_init` and `vty_init` install. -/
def NodeType.installed : NodeType → Bool
  | .auth | .view | .authEnable | .enable | .config | .vty => true
  | _ => false

/-- What `cmd_init` and `vty_init` do. -/
structure CmdTree.Installed (t : CmdTree H) : Prop where
  nodes : ∀ n, n.installed = true → (t n).isSome
  level : ∀ n v, t n = some v → ∀ e ∈ v, LevelCommand n e.func
  wellFormed : ∀ n v, t n = some v → ∀ e ∈ v, e.WellFormed

/-- The level of a session and the lock, where `others` is whether another session has the lock. -/
structure Seat.Guarded (others : Bool) (s : Seat H) : Prop where
  installed : s.node.installed = true
  config : s.config = true ↔ s.node = .config ∨ s.node = .vty
  lock : s.host.vtyConfig = (s.config || others)
  alone : s.config = true → others = false

theorem Seat.configUnlock_node (s : Seat H) (n : NodeType) :
    Seat.configUnlock { s with node := n } = { s.configUnlock with node := n } := by
  rw [Seat.configUnlock, Seat.configUnlock]
  split <;> rfl

namespace Seat.Guarded

variable {others : Bool} {s : Seat H}

/-- A seat on an installed level with the same lock. -/
theorem move (h : s.Guarded others) {n : NodeType} (hn : n.installed = true)
    (hconfig : s.config = true ↔ n = .config ∨ n = .vty) : Guarded others { s with node := n } :=
  ⟨hn, hconfig, h.lock, h.alone⟩

/-- A session on a level without the lock. -/
theorem config_false (h : s.Guarded others) (hconfig : s.node ≠ .config) (hvty : s.node ≠ .vty) :
    s.config = false :=
  Bool.eq_false_iff.mpr fun hc => (h.config.mp hc).elim hconfig hvty

/-- A session that gives the lock back. -/
theorem unlock (h : s.Guarded others) (hc : s.config = true) {n : NodeType}
    (hn : n.installed = true) (hconfig : n ≠ .config) (hvty : n ≠ .vty) :
    Guarded others { s.configUnlock with node := n } := by
  have hothers := h.alone hc
  have hlock : s.host.vtyConfig = true := by rw [h.lock, hc, Bool.true_or]
  have hunlock : s.configUnlock =
      { s with config := false, host := { s.host with vtyConfig := false } } := by
    rw [configUnlock, hlock, hc]
    rfl
  rw [hunlock]
  refine ⟨hn, ?_, ?_, ?_⟩
  · exact ⟨fun hfalse => (nomatch hfalse), fun hnode => (hnode.elim hconfig hvty).elim⟩
  · rw [hothers]
    rfl
  · exact fun hfalse => (nomatch hfalse)

theorem leaveConfig (h : s.Guarded others) : s.leaveConfig.Guarded others := by
  rw [Seat.leaveConfig]
  split
  · exact h.unlock (h.config.mpr (.inl ‹_›)) rfl (by decide) (by decide)
  · exact h.unlock (h.config.mpr (.inr ‹_›)) rfl (by decide) (by decide)
  · exact h

theorem configExit (h : s.Guarded others) : s.configExit.Guarded others := by
  rw [Seat.configExit]
  split
  · rename_i hnode
    have hinstalled := h.installed
    rw [hnode] at hinstalled
    cases hinstalled
  · exact ⟨h.installed, h.config, h.lock, h.alone⟩
  · exact ⟨h.installed, h.config, h.lock, h.alone⟩
  · rename_i hnode
    rw [configUnlock_node]
    exact h.unlock (h.config.mpr (.inl hnode)) rfl (by decide) (by decide)
  · rename_i hnode
    exact h.move rfl ⟨fun _ => .inl rfl, fun _ => h.config.mpr (.inr hnode)⟩
  · exact h

theorem auth (h : s.Guarded others) (hauth : s.isAuth = true) (buf : List UInt8) :
    (s.auth buf).1.Guarded others := by
  have hnode : s.node = .auth ∨ s.node = .authEnable := by simpa [Seat.isAuth] using hauth
  have hconfig : s.config = false := by
    refine h.config_false ?_ ?_ <;> rcases hnode with hnode | hnode <;> rw [hnode] <;> decide
  have hlevel : ∀ (n : NodeType) (fail : ℕ) (status : Status), n.installed = true → n ≠ .config →
      n ≠ .vty → Guarded others { s with node := n, fail := fail, status := status } := by
    intro n fail status hn hne hne'
    refine ⟨hn, ?_, h.lock, h.alone⟩
    dsimp only
    rw [hconfig]
    exact ⟨fun hfalse => (nomatch hfalse), fun hnode => (hnode.elim hne hne').elim⟩
  have hstay : s.node ≠ .config ∧ s.node ≠ .vty := by
    rcases hnode with hnode | hnode <;> rw [hnode] <;> decide
  have hnext : ∀ n : NodeType, n = .view ∨ n = .enable →
      Guarded others { s with fail := 0, node := n } := by
    rintro n (rfl | rfl)
    · exact hlevel _ _ _ rfl (by decide) (by decide)
    · exact hlevel _ _ _ rfl (by decide) (by decide)
  have hite : ∀ {p : Prop} [Decidable p] {a b : Seat H × List UInt8}, a.1.Guarded others →
      b.1.Guarded others → (if p then a else b).1.Guarded others := by
    intro p _ a b ha hb
    split
    · exact ha
    · exact hb
  have hstay := fun (fail : ℕ) (status : Status) =>
    hlevel s.node fail status h.installed hstay.1 hstay.2
  refine hite (hnext _ ?_) (hite (hstay _ _) (hite (hstay _ _) (hnext _ (.inl rfl))))
  split
  · split
    · split
      · exact .inl rfl
      · exact .inr rfl
    · exact .inl rfl
  · exact .inr rfl

end Seat.Guarded

/-! ### Commands -/

variable {others : Bool} {s : Seat H} {f : CmdFunc H}

/-- The lock is taken where it is free. -/
theorem configTerminal_free (h : s.host.vtyConfig = false) (argv : List (List UInt8))
    (history : History) : configTerminal argv history s =
      ({ s with config := true, host := { s.host with vtyConfig := true }, node := .config },
        .success, []) := by
  rw [configTerminal, Seat.configLock, h]
  rfl

/-- Where it is not, the session stays where it is, but for the one that has it. -/
theorem configTerminal_held (h : s.host.vtyConfig = true) (argv : List (List UInt8))
    (history : History) : configTerminal argv history s =
      if s.config then ({ s with node := .config }, .success, [])
      else (s, .warning, ascii "VTY configuration is locked by other VTY" ++ vtyNewline) := by
  rw [configTerminal, Seat.configLock, h]
  rfl

/-- A command at its node keeps the lock with the level. -/
theorem LevelCommand.guarded (hf : LevelCommand s.node f) (h : s.Guarded others)
    (argv : List (List UInt8)) (history : History) : (f argv history s).1.Guarded others := by
  generalize hn : s.node = n at hf
  cases hf with
  | other hquiet =>
      obtain ⟨hnode, hconfig, hlock⟩ := hquiet argv history s
      refine ⟨?_, ?_, ?_, ?_⟩
      · rw [hnode]
        exact h.installed
      · rw [hnode, hconfig]
        exact h.config
      · rw [hconfig, hlock]
        exact h.lock
      · rw [hconfig]
        exact h.alone
  | exit => exact h.configExit
  | endConfig => exact h.leaveConfig
  | enable =>
      have hconfig := h.config_false (by rw [hn]; decide) (by rw [hn]; decide)
      refine h.move ?_ ?_
      · split <;> rfl
      · rw [hconfig]
        split <;> decide
  | disable =>
      have hconfig := h.config_false (by rw [hn]; decide) (by rw [hn]; decide)
      refine h.move ?_ ?_
      · rw [if_pos hn]
        rfl
      · rw [if_pos hn, hconfig]
        decide
  | configTerminal =>
      have hconfig := h.config_false (by rw [hn]; decide) (by rw [hn]; decide)
      have hlock := h.lock
      rw [hconfig, Bool.false_or] at hlock
      cases others with
      | true =>
          rw [configTerminal_held hlock, hconfig]
          exact h
      | false =>
          rw [configTerminal_free hlock]
          exact ⟨rfl, ⟨fun _ => .inl rfl, fun _ => rfl⟩, rfl, fun _ => rfl⟩
  | lineVty => exact h.move rfl ⟨fun _ => .inr rfl, fun _ => h.config.mpr (.inl hn)⟩

/-- What a command at the enable node does behind `do`: the lock stays where it is. -/
theorem LevelCommand.lock_kept (hf : LevelCommand .enable f) (hnode : s.node = .enable)
    (hconfig : s.config = true) (hlock : s.host.vtyConfig = true) (argv : List (List UInt8))
    (history : History) : (f argv history s).1.config = true ∧
      (f argv history s).1.host.vtyConfig = true := by
  cases hf with
  | other hquiet =>
      obtain ⟨-, hconfig', hlock'⟩ := hquiet argv history s
      exact ⟨hconfig'.trans hconfig, hlock'.trans hlock⟩
  | exit =>
      rw [exitCmd, Seat.configExit, hnode]
      exact ⟨hconfig, hlock⟩
  | endConfig =>
      rw [endCmd, Seat.leaveConfig, hnode]
      exact ⟨hconfig, hlock⟩
  | disable => exact ⟨hconfig, hlock⟩
  | configTerminal =>
      rw [configTerminal_held hlock, if_pos hconfig]
      exact ⟨hconfig, hlock⟩

/-- The level and the lock as they were. -/
structure SameLevel (s s' : Seat H) : Prop where
  node : s'.node = s.node
  config : s'.config = s.config
  lock : s'.host.vtyConfig = s.host.vtyConfig

/-- A command that fails leaves the level and the lock as they are. -/
theorem LevelCommand.failed {n : NodeType} (hf : LevelCommand n f) {argv : List (List UInt8)}
    {history : History} (hret : (f argv history s).2.1.done = false) :
    SameLevel s (f argv history s).1 := by
  cases hf with
  | other hquiet =>
      obtain ⟨hnode, hconfig, hlock⟩ := hquiet argv history s
      exact ⟨hnode, hconfig, hlock⟩
  | exit => cases hret
  | endConfig => cases hret
  | enable => cases hret
  | disable => cases hret
  | configTerminal =>
      rw [SoftBts.configTerminal] at hret
      dsimp only at hret
      split at hret
      · cases hret
      · cases hret
  | lineVty => cases hret

/-! ### Lines -/

variable {t : CmdTree H}

/-- A line at an installed node is refused, or one of the commands of the node is called. -/
theorem cmdExecuteCommandReal_cases (ht : t.Installed) (hnode : s.node.installed = true)
    (vline : List (List UInt8)) (history : History) :
    ∃ r, cmdExecuteCommandReal t vline history s = .ok r ∧
      ((∃ ret, r = ⟨s, ret, []⟩) ∨ ∃ f argv, LevelCommand s.node f ∧
        r = ⟨(f argv history s).1, (f argv history s).2.1, (f argv history s).2.2⟩) := by
  obtain ⟨v, hv⟩ := Option.isSome_iff_exists.mp (ht.nodes _ hnode)
  obtain ⟨m, hm⟩ := matchLine_total completionMatch_vararg (ht.wellFormed _ v hv) vline
  have hwithin := matchLine_within completionMatch_vararg hm
  rw [cmdExecuteCommandReal, hv]
  dsimp only
  rw [matchReal, hm]
  cases m with
  | refused ret => exact ⟨_, rfl, .inl ⟨ret, rfl⟩⟩
  | call e argv =>
      exact ⟨_, rfl, .inr ⟨e.func, argv, ht.level _ v hv e (hwithin e argv rfl).1, rfl⟩⟩

/-- **A line at one node** keeps the lock with the level, and leaves both when it fails. -/
theorem cmdExecuteCommandReal_guarded (ht : t.Installed) (h : s.Guarded others)
    (vline : List (List UInt8)) (history : History) :
    ∃ r, cmdExecuteCommandReal t vline history s = .ok r ∧ r.seat.Guarded others ∧
      (r.ret.done = false → SameLevel s r.seat) := by
  obtain ⟨r, hr, hcases⟩ := cmdExecuteCommandReal_cases ht h.installed vline history
  refine ⟨r, hr, ?_⟩
  rcases hcases with ⟨ret, rfl⟩ | ⟨f, argv, hf, rfl⟩
  · exact ⟨h, fun _ => ⟨rfl, rfl, rfl⟩⟩
  · exact ⟨hf.guarded h argv history, hf.failed⟩

/-- The levels where `do` is a word for a command at the enable node. -/
theorem shortcut_node {word : Option (List UInt8)} (h : cmdTryDoShortcut s.node word = true)
    (hnode : s.node.installed = true) : s.node = .config ∨ s.node = .vty := by
  rw [cmdTryDoShortcut] at h
  cases hn : s.node <;> rw [hn] at h hnode <;>
    first
    | exact .inl rfl
    | exact .inr rfl
    | exact absurd hnode (by decide)
    | exact absurd h (by simp)

/-- The only level under another one. -/
theorem triesParent_node {r : Executed H} (h : triesParent r = true)
    (hnode : r.seat.node.installed = true) : r.ret.done = false ∧ r.seat.node = .vty := by
  obtain ⟨hdone, hrank⟩ := Bool.and_eq_true_iff.mp h
  refine ⟨by simpa using hdone, ?_⟩
  cases hn : r.seat.node <;> rw [hn] at hrank hnode <;>
    first
    | rfl
    | exact absurd hnode (by decide)
    | exact absurd hrank (by decide)

/-- Behind `do` the session stays where it is, and it keeps the lock. -/
theorem shortcut_guarded (ht : t.Installed) (h : s.Guarded others)
    (hnode : s.node = .config ∨ s.node = .vty) (vline : List (List UInt8)) (history : History) :
    ∃ r, cmdExecuteCommandReal t vline history { s with node := .enable } = .ok r ∧
      Seat.Guarded others { r.seat with node := s.node } := by
  have hconfig := h.config.mpr hnode
  have hlock : s.host.vtyConfig = true := by rw [h.lock, hconfig, Bool.true_or]
  obtain ⟨r, hr, hcases⟩ := cmdExecuteCommandReal_cases (s := { s with node := .enable }) ht rfl
    vline history
  have hkept : r.seat.config = true ∧ r.seat.host.vtyConfig = true := by
    rcases hcases with ⟨ret, rfl⟩ | ⟨f, argv, hf, rfl⟩
    · exact ⟨hconfig, hlock⟩
    · exact hf.lock_kept (s := { s with node := .enable }) rfl hconfig hlock argv history
  refine ⟨r, hr, h.installed, ⟨fun _ => hnode, fun _ => hkept.1⟩, ?_, fun _ => h.alone hconfig⟩
  change r.seat.host.vtyConfig = (r.seat.config || others)
  rw [hkept.1, hkept.2, Bool.true_or]

/-- The parent of the only level that has one is tried, and no other. -/
theorem parents_guarded (ht : t.Installed) {r : Executed H} (h : r.seat.Guarded others) {turns : ℕ}
    (hturns : 2 ≤ turns) (vline : List (List UInt8)) (history : History) :
    ∃ r', loop .hang (fun r => .ok (triesParent r)) (tryParent t vline history) turns r = .ok r' ∧
      r'.seat.Guarded others ∧ (r'.ret.done = false → r'.seat.config = r.seat.config) := by
  obtain ⟨n, rfl⟩ : ∃ n, turns = n + 2 := ⟨turns - 2, by omega⟩
  cases htries : triesParent r with
  | false =>
      exact ⟨r, loop_stop (by rw [htries]) _, h, fun _ => rfl⟩
  | true =>
      obtain ⟨-, hnode⟩ := triesParent_node htries h.installed
      have hparent : (vtyGoParent r.seat).Guarded others ∧ vtyGoParent r.seat =
          { r.seat with node := .config } := by
        rw [vtyGoParent, hnode]
        exact ⟨h.move rfl ⟨fun _ => .inl rfl, fun _ => h.config.mpr (.inr hnode)⟩, rfl⟩
      obtain ⟨r', hr', hguarded, hfailed⟩ :=
        cmdExecuteCommandReal_guarded ht hparent.1 vline history
      have hturn : tryParent t vline history r = .ok { r' with text := r.text ++ r'.text } := by
        rw [tryParent, hr']
        rfl
      -- the parent has none itself
      have hlast : triesParent { r' with text := r.text ++ r'.text } = false := by
        by_contra hagain
        obtain ⟨hdone, hvty⟩ := triesParent_node (Bool.not_eq_false _ ▸ hagain) hguarded.installed
        have hsame := (hfailed hdone).node
        rw [hparent.2] at hsame
        cases hvty.symm.trans hsame
      refine ⟨_, (loop_turn (by rw [htries]) hturn _).trans (loop_stop (by rw [hlast]) _), hguarded,
        fun hdone => ?_⟩
      have hsame := hfailed hdone
      rw [hparent.2] at hsame
      exact hsame.config

/-- **A line**, with `do` and the parents: it comes back, at an installed level, and the lock goes with
the level. -/
theorem cmdExecuteCommand_guarded (ht : t.Installed) (h : s.Guarded others) {turns : ℕ}
    (hturns : 2 ≤ turns) (vline : List (List UInt8)) (history : History) :
    ∃ r, cmdExecuteCommand t turns vline history s = .ok r ∧ r.seat.Guarded others := by
  rw [cmdExecuteCommand]
  split
  · rename_i hdo
    obtain ⟨r, hr, hguarded⟩ :=
      shortcut_guarded ht h (shortcut_node hdo h.installed) vline.tail history
    rw [hr]
    exact ⟨_, rfl, hguarded⟩
  · obtain ⟨r, hr, hguarded, hfailed⟩ := cmdExecuteCommandReal_guarded ht h vline history
    obtain ⟨r', hr', hguarded', hfailed'⟩ := parents_guarded ht hguarded hturns vline history
    refine ⟨_, (bind_ok hr).trans (by rw [hr']; rfl), ?_⟩
    dsimp only
    split
    · exact hguarded'
    · rename_i hdone
      have hconfig' := hfailed' (Bool.eq_false_iff.mpr hdone)
      cases htries : triesParent r with
      | false => exact hguarded'
      | true =>
          have hsame := hfailed (triesParent_node htries hguarded.installed).1
          refine hguarded'.move h.installed ?_
          rw [hconfig', hsame.config]
          exact h.config

/-! ### What a line keeps -/

variable {P : Seat H → Prop}

/-- What the commands of the node keep, a line at the node keeps. -/
theorem cmdExecuteCommandReal_keeps
    (hfunc : ∀ v, t s.node = some v → ∀ e ∈ v, ∀ argv history, P (e.func argv history s).1) (h : P s)
    (vline : List (List UInt8)) (history : History) :
    Gives (cmdExecuteCommandReal t vline history s) fun r => P r.seat := by
  rw [cmdExecuteCommandReal]
  cases hv : t s.node with
  | none => exact .error _
  | some v =>
      refine Gives.map (Q := fun m => m.Within v vline)
        (fun m hm => matchLine_within completionMatch_vararg hm) fun m hm => ?_
      cases m with
      | refused ret => exact h
      | call e argv => exact hfunc v hv e (hm e argv rfl).1 argv history

/-- What the commands of the levels without parents keep, a line there keeps. -/
theorem cmdExecuteCommand_below (hbelow : ∀ s, P s → s.node.rank < NodeType.config.rank)
    (hfunc : ∀ v, t s.node = some v → ∀ e ∈ v, ∀ argv history, P (e.func argv history s).1) (h : P s)
    (turns : ℕ) (vline : List (List UInt8)) (history : History) :
    Gives (cmdExecuteCommand t turns vline history s) fun r => P r.seat := by
  have hdo : ¬ cmdTryDoShortcut s.node vline.head? = true := by
    have hrank := hbelow s h
    rw [cmdTryDoShortcut]
    cases hn : s.node <;> rw [hn] at hrank <;>
      first
      | exact absurd hrank (by decide)
      | simp
  have hstop : ∀ r : Executed H, P r.seat → triesParent r = false := by
    intro r hr
    rw [triesParent, decide_eq_false (Nat.not_lt_of_lt (hbelow r.seat hr)), Bool.and_false]
  rw [cmdExecuteCommand, if_neg hdo]
  refine Gives.bind (cmdExecuteCommandReal_keeps hfunc h vline history) fun r hr => ?_
  have hloop : Gives (loop .hang (fun r => .ok (triesParent r)) (tryParent t vline history) turns r)
      fun r' => P r'.seat := by
    cases turns with
    | zero => exact .error _
    | succ n =>
        rw [loop_stop (by rw [hstop r hr])]
        exact .ok hr
  refine hloop.map fun r' hr' => ?_
  rw [hstop r hr]
  split
  · exact hr'
  · exact hr'

/-- What every command keeps and no change of the level touches, a line keeps. -/
theorem cmdExecuteCommand_keeps (hmove : ∀ s n, n ≠ .auth → P s → P { s with node := n })
    (hfunc : ∀ s v, t s.node = some v → ∀ e ∈ v, ∀ argv history, P s → P (e.func argv history s).1)
    (hnode : s.node ≠ .auth) (h : P s) (turns : ℕ) (vline : List (List UInt8)) (history : History) :
    Gives (cmdExecuteCommand t turns vline history s) fun r => P r.seat := by
  have hreal : ∀ {s : Seat H}, P s → ∀ vline,
      Gives (cmdExecuteCommandReal t vline history s) fun r => P r.seat := fun {s} hs vline =>
    cmdExecuteCommandReal_keeps (fun v hv e he argv history => hfunc s v hv e he argv history hs) hs
      vline history
  have hparent : ∀ {s : Seat H}, P s → P (vtyGoParent s) := by
    intro s hs
    rw [vtyGoParent]
    split
    · exact hmove s _ (by decide) hs
    · exact hmove s _ (by decide) hs
  rw [cmdExecuteCommand]
  refine .ite (fun _ => ?_) fun _ => ?_
  · exact (hreal (hmove s _ (by decide) h) _).map fun r hr => hmove r.seat _ hnode hr
  · refine Gives.bind (hreal h _) fun r hr => ?_
    have hturn : ∀ r : Executed H, P r.seat → Gives (tryParent t vline history r) fun r' => P r'.seat :=
      fun r hr => Gives.map (hreal (hparent hr) vline) fun r' hr' => hr'
    have hloop : Gives (loop .hang (fun r => .ok (triesParent r)) (tryParent t vline history) turns r)
        fun r' => P r'.seat := Gives.loop (P := fun r : Executed H => P r.seat) hturn hr turns
    refine hloop.map fun r' hr' => ?_
    split
    · exact hr'
    · dsimp only
      split
      · exact hmove r'.seat _ hnode hr'
      · exact hr'

end SoftBts
