import SoftBts.ConfigLock

/-! The passwords of the telnet sessions: what gets a session past its first prompt, how often it may
fail, and the passwords that nothing that a client sends is equal to. An encrypted password is stored,
but softbts is built without the function that would check one. -/

namespace SoftBts

open Loop Reactive

variable {H : Type}

/-! ### What holds of every session -/

/-- A property of the host and one of the seats, kept wherever a seat is set, whatever the other
sessions do to the host in between. -/
structure SessionInvariant (c : Commands H) (Q : Host H → Prop) (P : Seat H → Prop) : Prop extends
    SeatInvariant c P where
  host : ∀ s, P s → Q s.host
  others : ∀ s host, P s → Q host → P { s with host := host }
  first : ∀ host, Q host → P ⟨Room.firstNode host, .normal, false, 0, host⟩
  unlock : ∀ host, Q host → Q { host with vtyConfig := false }

/-- The host and every session are as they should be. -/
structure Room.Keeps (Q : Host H → Prop) (P : Seat H → Prop) (r : Room H) : Prop where
  host : Q r.host
  seat : ∀ fd s, r.find fd = some s → P s.vty.seat
  status : ∀ fd s, r.session fd = some s → s.vty.seat.status ≠ .close

namespace Room

variable {r : Room H} {Q : Host H → Prop} {P : Seat H → Prop} {c : Commands H}

theorem Keeps.set (h : r.Keeps Q P) (hP : SessionInvariant c Q P) {host : Host H} (hhost : Q host)
    {new : Option (TelnetSession H)}
    (hnew : ∀ s, new = some s → P s.vty.seat ∧ s.vty.seat.status ≠ .close) (fd : ℕ) :
    (r.set fd host new).Keeps Q P := by
  have hcases : ∀ {fd' : ℕ} {s : TelnetSession H}, (r.set fd host new).session fd' = some s →
      new = some s ∨ r.session fd' = some s := by
    intro fd' s hs
    by_cases hfd : fd' = fd
    · rw [hfd, set_session_self] at hs
      exact .inl hs
    · rw [set_session_ne host new hfd] at hs
      exact .inr hs
  refine ⟨hhost, fun fd' s hs => ?_, fun fd' s hs => ?_⟩
  · obtain ⟨s', hs', rfl⟩ := Option.map_eq_some_iff.mp hs
    rcases hcases hs' with hs' | hs'
    · exact hP.others _ _ (hnew s' hs').1 hhost
    · have hfound : r.find fd' = some _ := Option.map_eq_some_iff.mpr ⟨s', hs', rfl⟩
      exact hP.others { s'.vty.seat with host := r.host } host (h.seat fd' _ hfound) hhost
  · rcases hcases hs with hs | hs
    · exact (hnew s hs).2
    · exact h.status fd' s hs

theorem Keeps.close (h : r.Keeps Q P) (hP : SessionInvariant c Q P) {s : TelnetSession H}
    (hs : P s.vty.seat) (fd : ℕ) : (r.close fd s).Keeps Q P := by
  refine h.set hP ?_ ?_ fd
  · rw [Seat.configUnlock]
    split
    · exact hP.unlock _ (hP.host _ hs)
    · exact hP.host _ hs
  · rintro _ ⟨⟩

/-- One event. -/
theorem Keeps.step {e : Setting H} (h : r.Keeps Q P) (hP : SessionInvariant e.toCommands Q P)
    (ev : RoomEvent) : Gives (r.step e ev) (Keeps Q P) := by
  cases ev with
  | connect fd hello =>
      refine .ite (fun _ => .ok h) fun _ => .ite (fun _ => .ok h) fun _ => .ok ?_
      refine h.set hP h.host ?_ fd
      rintro _ ⟨⟩
      exact ⟨hP.first r.host h.host, by rintro ⟨⟩⟩
  | read fd os =>
      rw [Room.step]
      cases hs : r.find fd with
      | none => exact .ok h
      | some s =>
          refine Gives.map (readOctets_at hP.toSeatInvariant os (h.seat fd s hs)) fun s' hs' => ?_
          split
          · exact h.close hP hs' fd
          · rename_i hopen
            refine h.set hP (hP.host _ hs') ?_ fd
            rintro _ ⟨⟩
            exact ⟨hs', hopen⟩
  | hangup fd =>
      rw [Room.step]
      cases hs : r.find fd with
      | none => exact .ok h
      | some s => exact .ok (h.close hP (h.seat fd s hs) fd)

/-- **Rule for sessions.** What every session keeps holds after every run. -/
theorem Keeps.run {e : Setting H} (h : r.Keeps Q P) (hP : SessionInvariant e.toCommands Q P)
    (es : List RoomEvent) : Gives (r.run e es) (Keeps Q P) :=
  Gives.foldlM (fun _ ev hr => hr.step hP ev) h es

end Room

/-! ### One password -/

namespace Seat

variable (buf : List UInt8) (s : Seat H)

/-- The password that the session is asked for. -/
def passwd : Option (List UInt8) := if s.node = .auth then s.host.password else s.host.enable

/-- What `vty_auth` can do: the password is right, it is wrong, or it is wrong once too often. -/
theorem auth_cases :
    s.passwd = some buf ∧ (∃ n, n ≠ .auth ∧ n ≠ .authEnable ∧
      (s.host.advanced = false → s.node = .auth → n = .view) ∧
      (s.auth buf).1 = { s with fail := 0, node := n }) ∨
    s.passwd ≠ some buf ∧
      (s.fail + 1 < 3 ∧ (s.auth buf).1 = { s with fail := s.fail + 1 } ∨
        3 ≤ s.fail + 1 ∧ s.node = .auth ∧
          (s.auth buf).1 = { s with fail := s.fail + 1, status := .close } ∨
        s.node ≠ .auth ∧ (s.auth buf).1 = { s with fail := 0, node := .view }) := by
  have hpasswd : s.passwd = if s.node = .auth then s.host.password else s.host.enable := rfl
  unfold auth
  dsimp only
  rw [← hpasswd]
  by_cases hright : s.passwd = some buf
  · refine .inl ⟨hright, ?_⟩
    rw [if_pos hright]
    refine ⟨_, ?_, ?_, ?_, rfl⟩
    · split
      · split
        · split <;> decide
        · decide
      · decide
    · split
      · split
        · split <;> decide
        · decide
      · decide
    · intro hadvanced hnode
      rw [if_pos hnode, hadvanced]
      rfl
  · refine .inr ⟨hright, ?_⟩
    rw [if_neg hright]
    by_cases hfail : s.fail + 1 < 3
    · rw [if_pos hfail]
      exact .inl ⟨hfail, rfl⟩
    · rw [if_neg hfail]
      by_cases hnode : s.node = .auth
      · rw [if_pos hnode]
        exact .inr (.inl ⟨Nat.not_lt.mp hfail, hnode, rfl⟩)
      · rw [if_neg hnode]
        exact .inr (.inr ⟨hnode, rfl⟩)

theorem isAuth_iff : s.isAuth = true ↔ s.node = .auth ∨ s.node = .authEnable := by
  simp [isAuth]

end Seat

/-! ### Lines of softbts -/

/-- What a line keeps where it comes back. -/
theorem Surroundings.execute_keeps {w : Surroundings H} {P : Seat H → Prop} {s : Seat H} (h : P s)
    {vline : List (List UInt8)} {history : History}
    (hr : Gives (cmdExecuteCommand (cmdInit w.rest) w.turns vline history s) fun r => P r.seat) :
    P (w.setting.execute vline history s).1 := by
  rw [Surroundings.setting]
  unfold CmdTree.commands
  dsimp only
  cases hresult : cmdExecuteCommand (cmdInit w.rest) w.turns vline history s with
  | error f => exact h
  | ok r => exact hr r hresult

/-- The functions whose effects are followed. -/
def Defun.followed : Defun → Bool
  | .configExit | .configEnd | .enable | .disable | .configTerminal | .lineVty | .configPassword
  | .configEnablePassword | .noConfigEnablePassword | .vtyLogin | .noVtyLogin | .serviceAdvancedVty
  | .noServiceAdvancedVty => true
  | _ => false

theorem Defun.run_rest {f : Defun} (h : f.followed = false) (rest : Defun → QuietFunc H) :
    f.run rest = (rest f).run := by
  cases f <;> first | rfl | cases h

theorem view_commands : ∀ cs ∈ nodeCommands .view, ∀ c ∈ cs,
    c.func.followed = false ∨ c.func = .enable ∨ c.func = .configExit := by
  decide

theorem Seat.configExit_view {s : Seat H} (h : s.node = .view) :
    s.configExit = { s with status := .close } := by
  obtain ⟨node, status, config, fail, host⟩ := s
  cases h
  rfl

/-- At the first level a session may ask for the next one, leave, or do what is not followed. -/
theorem view_keeps {rest : Defun → QuietFunc H} {P : Seat H → Prop} {s : Seat H} (hnode : s.node = .view)
    (hother : ∀ other, P { s with host := { s.host with other := other } })
    (henable : P (enableCmd [] .clear s).1) (hexit : P { s with status := .close })
    {v : List (CmdElement (CmdFunc H))} (hv : cmdInit rest s.node = some v) :
    ∀ e ∈ v, ∀ argv history, P (e.func argv history s).1 := by
  intro e he argv history
  obtain ⟨cs, hcs, c, hc, hfunc, -⟩ := mem_cmdInit hv he
  rw [hnode] at hcs
  rw [hfunc]
  rcases view_commands cs hcs c hc with hquiet | hcmd | hcmd
  · rw [Defun.run_rest hquiet]
    exact hother _
  · rw [hcmd]
    exact henable
  · rw [hcmd]
    change P s.configExit
    rw [Seat.configExit_view hnode]
    exact hexit

/-! ### Passwords that nothing is equal to -/

/-- What decides about the levels is the same. -/
structure Host.SameAccess (host host' : Host H) : Prop where
  password : host'.password = host.password
  passwordEncrypt : host'.passwordEncrypt = host.passwordEncrypt
  enable : host'.enable = host.enable
  enableEncrypt : host'.enableEncrypt = host.enableEncrypt
  advanced : host'.advanced = host.advanced
  noPasswordCheck : host'.noPasswordCheck = host.noPasswordCheck

theorem Host.SameAccess.refl (host : Host H) : host.SameAccess host := ⟨rfl, rfl, rfl, rfl, rfl, rfl⟩

/-- The levels under the enable level. -/
def Seat.Below (host : Host H) (s : Seat H) : Prop :=
  s.node.rank < NodeType.enable.rank ∧ host.SameAccess s.host

theorem rank_below {n : NodeType} (h : n.rank < NodeType.enable.rank) :
    n = .auth ∨ n = .view ∨ n = .authEnable := by
  cases n <;>
    first
    | exact .inl rfl
    | exact .inr (.inl rfl)
    | exact .inr (.inr rfl)
    | exact absurd h (by decide)

theorem Seat.configExit_below {s : Seat H} (h : s.node.rank < NodeType.enable.rank) :
    s.configExit = s ∨ s.configExit = { s with status := .close } := by
  rcases rank_below h with hnode | hnode | hnode
  · rw [configExit, hnode]
    exact .inl rfl
  · exact .inr (configExit_view hnode)
  · rw [configExit, hnode]
    exact .inl rfl

theorem Seat.leaveConfig_below {s : Seat H} (h : s.node.rank < NodeType.enable.rank) :
    s.leaveConfig = s := by
  rw [leaveConfig]
  rcases rank_below h with hnode | hnode | hnode <;> rw [hnode]

/-- Where the password of the enable level is encrypted, what any session does leaves it below. -/
theorem below_invariant (w : Surroundings H) {host : Host H} (henable : host.enable = none)
    (hencrypt : host.enableEncrypt ≠ none) (hadvanced : host.advanced = false) :
    SessionInvariant w.setting.toCommands host.SameAccess (Seat.Below host) where
  configExit s h := by
    rcases Seat.configExit_below h.1 with heq | heq <;> rw [heq]
    · exact h
    · exact h
  leaveConfig s h := by
    rw [Seat.leaveConfig_below h.1]
    exact h
  auth buf s hauth h := by
    have hview : NodeType.view.rank < NodeType.enable.rank := by decide
    rcases s.auth_cases buf with ⟨hright, n, -, -, hview', heq⟩ | ⟨-, hwrong⟩
    · rw [heq]
      rcases s.isAuth_iff.mp hauth with hnode | hnode
      · rw [hview' (h.2.advanced.trans hadvanced) hnode]
        exact ⟨hview, h.2⟩
      · rw [Seat.passwd, hnode, if_neg (by decide), h.2.enable, henable] at hright
        cases hright
    · rcases hwrong with ⟨-, heq⟩ | ⟨-, -, heq⟩ | ⟨-, heq⟩ <;> rw [heq]
      · exact h
      · exact h
      · exact ⟨hview, h.2⟩
  execute vline history s hauth h := by
    have hnode : s.node = .view := by
      rcases rank_below h.1 with hnode | hnode | hnode
      · rw [Seat.isAuth, hnode] at hauth
        cases hauth
      · exact hnode
      · rw [Seat.isAuth, hnode] at hauth
        cases hauth
    refine Surroundings.execute_keeps h (cmdExecuteCommand_below
      (fun s hs => Nat.lt_trans hs.1 (by decide)) (fun v hv => view_keeps hnode ?_ ?_ ?_ hv) h _ _ _)
    · exact fun other => ⟨h.1, h.2.1, h.2.2, h.2.3, h.2.4, h.2.5, h.2.6⟩
    · have hpassword : ¬ (s.host.enable = none ∧ s.host.enableEncrypt = none) := fun hnone =>
        hencrypt (h.2.enableEncrypt.symm.trans hnone.2)
      rw [enableCmd, if_neg hpassword]
      exact ⟨show NodeType.authEnable.rank < NodeType.enable.rank by decide, h.2⟩
    · exact h
  host s h := h.2
  others s host' h hhost := ⟨h.1, hhost⟩
  first host' h := by
    refine ⟨?_, h⟩
    dsimp only
    rw [Room.firstNode, h.advanced, hadvanced]
    split <;> decide
  unlock host' h := ⟨h.1, h.2, h.3, h.4, h.5, h.6⟩

/-- Where the first password is encrypted, what any session does leaves it at the first prompt. -/
theorem auth_invariant (w : Surroundings H) {host : Host H} (hpassword : host.password = none)
    (hcheck : host.noPasswordCheck = false) :
    SessionInvariant w.setting.toCommands host.SameAccess
      fun s => s.node = .auth ∧ host.SameAccess s.host where
  configExit s h := by
    rw [Seat.configExit, h.1]
    exact h
  leaveConfig s h := by
    rw [Seat.leaveConfig, h.1]
    exact h
  auth buf s hauth h := by
    rcases s.auth_cases buf with ⟨hright, -⟩ | ⟨-, hwrong⟩
    · rw [Seat.passwd, if_pos h.1, h.2.password, hpassword] at hright
      cases hright
    · rcases hwrong with ⟨-, heq⟩ | ⟨-, -, heq⟩ | ⟨hnode, -⟩
      · rw [heq]
        exact h
      · rw [heq]
        exact h
      · exact absurd h.1 hnode
  execute vline history s hauth h := by
    rw [Seat.isAuth, h.1] at hauth
    cases hauth
  host s h := h.2
  others s host' h hhost := ⟨h.1, hhost⟩
  first host' h := by
    refine ⟨?_, h⟩
    dsimp only
    rw [Room.firstNode, h.noPasswordCheck, hcheck]
    rfl
  unlock host' h := ⟨h.1, h.2, h.3, h.4, h.5, h.6⟩

namespace Room

variable {r r' : Room H}

/-- The enable level has an encrypted password, and no session is at that level or above it. -/
structure EnableLocked (r : Room H) : Prop where
  enable : r.host.enable = none
  encrypted : r.host.enableEncrypt ≠ none
  advanced : r.host.advanced = false
  below : ∀ fd s, r.session fd = some s → s.vty.seat.node.rank < NodeType.enable.rank
  status : ∀ fd s, r.session fd = some s → s.vty.seat.status ≠ .close

/-- There is no plain password, one is asked for, and every session is asked for it. -/
structure LoginLocked (r : Room H) : Prop where
  password : r.host.password = none
  check : r.host.noPasswordCheck = false
  asked : ∀ fd s, r.session fd = some s → s.vty.seat.node = .auth
  status : ∀ fd s, r.session fd = some s → s.vty.seat.status ≠ .close

theorem find_seat {fd : ℕ} {s : TelnetSession H} (hs : r.session fd = some s) :
    r.find fd = some
      { s with vty := { s.vty with seat := { s.vty.seat with host := r.host } } } :=
  Option.map_eq_some_iff.mpr ⟨s, hs, rfl⟩

/-- **Locked out.** Once the password of the enable level is an encrypted one and nobody is there any
more, nobody gets there again and nothing that decides about it changes, whatever the clients send;
and once the first password is an encrypted one that is asked for, no session gets past it. -/
theorem run_locked (w : Surroundings H) (es : List RoomEvent) (h : r.run w.setting es = .ok r') :
    (r.EnableLocked → r'.EnableLocked ∧ r.host.SameAccess r'.host) ∧
      (r.LoginLocked → r'.LoginLocked ∧ r.host.SameAccess r'.host) := by
  constructor
  · intro hr
    have hkeeps : r.Keeps r.host.SameAccess (Seat.Below r.host) := by
      refine ⟨.refl _, fun fd s hs => ?_, hr.status⟩
      obtain ⟨s', hs', rfl⟩ := Option.map_eq_some_iff.mp hs
      exact ⟨hr.below fd s' hs', .refl _⟩
    have hkeeps' := hkeeps.run (below_invariant w hr.enable hr.encrypted hr.advanced) es r' h
    have hsame := hkeeps'.host
    refine ⟨⟨hsame.enable.trans hr.enable, ?_, hsame.advanced.trans hr.advanced,
      fun fd s hs => (hkeeps'.seat fd _ (find_seat hs)).1, hkeeps'.status⟩, hsame⟩
    rw [hsame.enableEncrypt]
    exact hr.encrypted
  · intro hr
    have hkeeps : r.Keeps r.host.SameAccess fun s => s.node = .auth ∧ r.host.SameAccess s.host := by
      refine ⟨.refl _, fun fd s hs => ?_, hr.status⟩
      obtain ⟨s', hs', rfl⟩ := Option.map_eq_some_iff.mp hs
      exact ⟨hr.asked fd s' hs', .refl _⟩
    have hkeeps' := hkeeps.run (auth_invariant w hr.password hr.check) es r' h
    have hsame := hkeeps'.host
    exact ⟨⟨hsame.password.trans hr.password, hsame.noPasswordCheck.trans hr.check,
      fun fd s hs => (hkeeps'.seat fd _ (find_seat hs)).1, hkeeps'.status⟩, hsame⟩

/-- The sessions after a run, if it comes back. -/
theorem exists_run {e : Setting H} {es : List RoomEvent} (h : (r.run e es).isOk = true) :
    ∃ r', r.run e es = .ok r' := by
  cases hr : r.run e es with
  | error f =>
      rw [hr] at h
      cases h
  | ok r' => exact ⟨r', rfl⟩

/-- Someone guesses passwords of a host where both are encrypted. -/
theorem run_locked_guesses :
    let r : Room Unit := ⟨⟨none, some [0x78], none, some [0x78], false, false, false, ()⟩, fun _ => none⟩
    ∃ r', r.run quietSurroundings.setting [.connect 5 [], .read 5 (ascii "x\ry\r"), .connect 6 [],
        .read 6 (ascii "x\r"), .hangup 5] = .ok r' ∧ r'.EnableLocked ∧ r'.LoginLocked := by
  intro r
  have hok : (r.run quietSurroundings.setting [.connect 5 [], .read 5 (ascii "x\ry\r"), .connect 6 [],
      .read 6 (ascii "x\r"), .hangup 5]).isOk = true := by decide +kernel
  obtain ⟨r', hr⟩ := exists_run hok
  have hnone : ∀ {P : TelnetSession Unit → Prop} (_ : ℕ) (s : TelnetSession Unit), none = some s →
      P s := fun _ _ hs => nomatch hs
  have hlocked := run_locked quietSurroundings _ hr
  exact ⟨r', hr, (hlocked.1 ⟨rfl, by decide, rfl, hnone, hnone⟩).1,
    (hlocked.2 ⟨rfl, rfl, hnone, hnone⟩).1⟩

/-- How it comes to that. -/
example : ((boot firstHost).run quietSurroundings.setting [.connect 5 [],
    .read 5 (ascii "enable\rconfigure terminal\renable password 8 x\r"), .hangup 5]).toOption.map
      (fun r => (r.host.enable, r.host.enableEncrypt, r.host.vtyConfig)) =
    some (none, some [0x78], false) := by
  decide +kernel

end Room

/-! ### How often a password may be wrong -/

/-- No command counts failures. -/
theorem Defun.run_fail (f : Defun) (rest : Defun → QuietFunc H) (argv : List (List UInt8))
    (history : History) (s : Seat H) : (f.run rest argv history s).1.fail = s.fail := by
  have hpassword : ∀ plain encrypted : List UInt8 → Host H → Host H,
      (passwordFunc plain encrypted argv history s).1.fail = s.fail := by
    intro plain encrypted
    unfold passwordFunc
    split
    · rfl
    · split <;> rfl
    · split <;> rfl
  cases f with
  | configExit =>
      change s.configExit.fail = s.fail
      rw [Seat.configExit]
      split <;> first | rfl | (rw [Seat.configUnlock]; split <;> rfl)
  | configEnd =>
      change s.leaveConfig.fail = s.fail
      rw [Seat.leaveConfig]
      split <;> first | rfl | (rw [Seat.configUnlock]; split <;> rfl)
  | configTerminal =>
      change (SoftBts.configTerminal argv history s).1.fail = s.fail
      rw [SoftBts.configTerminal, Seat.configLock]
      split
      · split <;> rfl
      · rfl
  | configPassword => exact hpassword _ _
  | configEnablePassword => exact hpassword _ _
  | _ => rfl

/-- Failures are counted at the prompts only, and the third one closes the session or is the last. -/
def Seat.Counted (s : Seat H) : Prop :=
  s.fail = 0 ∨ s.isAuth = true ∧ (s.fail < 3 ∨ s.status = .close)

theorem Seat.configExit_fail (s : Seat H) : s.configExit.fail = s.fail :=
  Defun.configExit.run_fail (fun _ _ _ s => (s.host.other, .success, [])) [] .clear s

theorem Seat.leaveConfig_fail (s : Seat H) : s.leaveConfig.fail = s.fail :=
  Defun.configEnd.run_fail (fun _ _ _ s => (s.host.other, .success, [])) [] .clear s

theorem counted_invariant (w : Surroundings H) :
    SessionInvariant w.setting.toCommands (fun _ => True) Seat.Counted where
  configExit s h := by
    rcases h with hfail | ⟨hauth, hfail⟩
    · exact .inl (s.configExit_fail.trans hfail)
    · have hsame : s.configExit = s := by
        rw [Seat.configExit]
        rcases s.isAuth_iff.mp hauth with hnode | hnode <;> rw [hnode]
      rw [hsame]
      exact .inr ⟨hauth, hfail⟩
  leaveConfig s h := by
    rcases h with hfail | ⟨hauth, hfail⟩
    · exact .inl (s.leaveConfig_fail.trans hfail)
    · have hsame : s.leaveConfig = s := by
        rw [Seat.leaveConfig]
        rcases s.isAuth_iff.mp hauth with hnode | hnode <;> rw [hnode]
      rw [hsame]
      exact .inr ⟨hauth, hfail⟩
  auth buf s hauth h := by
    rcases s.auth_cases buf with ⟨-, n, -, -, -, heq⟩ | ⟨-, hwrong⟩
    · rw [heq]
      exact .inl rfl
    · rcases hwrong with ⟨hfail, heq⟩ | ⟨-, -, heq⟩ | ⟨-, heq⟩ <;> rw [heq]
      · exact .inr ⟨hauth, .inl hfail⟩
      · exact .inr ⟨hauth, .inr rfl⟩
      · exact .inl rfl
  execute vline history s hauth h := by
    have hfail : s.fail = 0 := by
      rcases h with hfail | ⟨hauth', -⟩
      · exact hfail
      · rw [hauth] at hauth'
        cases hauth'
    have hnode : s.node ≠ .auth := by
      intro hnode
      rw [Seat.isAuth, hnode] at hauth
      cases hauth
    refine .inl (Surroundings.execute_keeps (P := fun s => s.fail = 0) hfail
      (cmdExecuteCommand_keeps (P := fun s => s.fail = 0) (fun _ _ _ h => h) ?_ hnode hfail _ _ _))
    intro s v hv e he argv history hfail
    obtain ⟨cs, hcs, c, hc, hfunc, -⟩ := mem_cmdInit hv he
    rw [hfunc, Defun.run_fail]
    exact hfail
  host _ _ := trivial
  others s host h _ := h
  first _ _ := .inl rfl
  unlock _ _ := trivial

/-- **Three failures.** After every event of every run, a session that is left has failed less than
three times since its last success, and it has failed at all only if it stands at a prompt. -/
theorem Room.run_attempts (w : Surroundings H) (host : Host H) (es : List RoomEvent) (r : Room H)
    (h : (boot host).run w.setting es = .ok r) (fd : ℕ) (s : TelnetSession H)
    (hs : r.session fd = some s) :
    s.vty.seat.fail < 3 ∧ (s.vty.seat.fail ≠ 0 → s.vty.seat.isAuth = true) := by
  have hkeeps : (boot host).Keeps (fun _ => True) Seat.Counted :=
    ⟨trivial, fun _ _ hs => (nomatch hs), fun _ _ hs => (nomatch hs)⟩
  have hkeeps' := hkeeps.run (counted_invariant w) es r h
  have hseat := hkeeps'.seat fd _ (find_seat hs)
  have hcounted : s.vty.seat.fail = 0 ∨ s.vty.seat.isAuth = true ∧
      (s.vty.seat.fail < 3 ∨ s.vty.seat.status = .close) := hseat
  rcases hcounted with hfail | ⟨hauth, hfail | hclose⟩
  · exact ⟨by omega, fun hne => absurd hfail hne⟩
  · exact ⟨hfail, fun _ => hauth⟩
  · exact absurd hclose (hkeeps'.status fd s hs)

/-- Two wrong passwords. -/
theorem Room.run_attempts_two :
    let host : Host Unit := ⟨some [0x78], none, none, none, false, false, false, ()⟩
    ∃ r s, (boot host).run quietSurroundings.setting [.connect 5 [], .read 5 (ascii "y\rz\r")] = .ok r ∧
      r.session 5 = some s ∧ s.vty.seat.fail < 3 ∧
        (s.vty.seat.fail ≠ 0 → s.vty.seat.isAuth = true) := by
  intro host
  have hopen : ((boot host).run quietSurroundings.setting
      [.connect 5 [], .read 5 (ascii "y\rz\r")]).toOption.any (fun r => (r.session 5).isSome) = true := by
    decide +kernel
  cases hr : (boot host).run quietSurroundings.setting [.connect 5 [], .read 5 (ascii "y\rz\r")] with
  | error f =>
      rw [hr] at hopen
      cases hopen
  | ok r =>
      rw [hr] at hopen
      obtain ⟨s, hs⟩ := Option.isSome_iff_exists.mp hopen
      exact ⟨r, s, rfl, hs, run_attempts _ _ _ r hr 5 s hs⟩

/-! ### The first prompt -/

theorem Seat.configExit_past {s : Seat H} (h : s.node ≠ .auth) : s.configExit.node ≠ .auth := by
  rw [configExit]
  split
  · rintro ⟨⟩
  · exact h
  · exact h
  · rw [configUnlock_node]
    rintro ⟨⟩
  · rintro ⟨⟩
  · exact h

theorem Seat.leaveConfig_past {s : Seat H} (h : s.node ≠ .auth) : s.leaveConfig.node ≠ .auth := by
  rw [leaveConfig]
  split
  · rintro ⟨⟩
  · rintro ⟨⟩
  · exact h

/-- No command asks for the first password again. -/
theorem Defun.run_past (f : Defun) (rest : Defun → QuietFunc H) (argv : List (List UInt8))
    (history : History) {s : Seat H} (h : s.node ≠ .auth) :
    (f.run rest argv history s).1.node ≠ .auth := by
  have hpassword : ∀ plain encrypted : List UInt8 → Host H → Host H,
      (passwordFunc plain encrypted argv history s).1.node ≠ .auth := by
    intro plain encrypted
    unfold passwordFunc
    split
    · exact h
    · split <;> exact h
    · split <;> exact h
  cases f with
  | configExit => exact Seat.configExit_past h
  | configEnd => exact Seat.leaveConfig_past h
  | enable =>
      dsimp only [run, enableCmd]
      split <;> decide
  | disable =>
      dsimp only [run, disableCmd]
      split
      · decide
      · exact h
  | configTerminal =>
      change (SoftBts.configTerminal argv history s).1.node ≠ .auth
      cases hlock : s.host.vtyConfig with
      | false =>
          rw [configTerminal_free hlock]
          rintro ⟨⟩
      | true =>
          rw [configTerminal_held hlock]
          split
          · rintro ⟨⟩
          · exact h
  | lineVty => rintro ⟨⟩
  | configPassword => exact hpassword _ _
  | configEnablePassword => exact hpassword _ _
  | _ => exact h

namespace Desk

variable {d : Desk H}

theorem lookUp_seat (found : Option (List UInt8 × History)) : (d.lookUp found).seat = d.seat := by
  cases found <;> rfl

/-- Behind the first prompt no key leads back to it. -/
theorem act_past (w : Surroundings H) (h : d.seat.node ≠ .auth) (k : Key) :
    (d.act w.setting.toCommands k).seat.node ≠ .auth := by
  cases k with
  | stopInput => exact Seat.leaveConfig_past h
  | endConfig => exact Seat.leaveConfig_past h
  | deleteChar =>
      rw [act]
      split
      · exact h
      · split
        · exact Seat.configExit_past h
        · exact h
  | nextLine =>
      rw [act, lookUp_seat]
      exact h
  | previousLine =>
      rw [act, lookUp_seat]
      exact h
  | completeCommand =>
      rw [act]
      split <;> exact h
  | describeCommand =>
      rw [act]
      split <;> exact h
  | execute =>
      dsimp only [act, execute]
      cases hauth : d.seat.isAuth with
      | true =>
          rw [if_pos rfl]
          rcases d.seat.auth_cases d.line.text with ⟨-, n, hn, -, -, heq⟩ | ⟨-, hwrong⟩
          · rw [heq]
            exact hn
          · rcases hwrong with ⟨-, heq⟩ | ⟨-, hnode, -⟩ | ⟨-, heq⟩
            · rw [heq]
              exact h
            · exact absurd hnode h
            · rw [heq]
              rintro ⟨⟩
      | false =>
          rw [if_neg (by decide), Commands.command]
          split
          · exact h
          · refine Surroundings.execute_keeps (P := fun s => s.node ≠ .auth) h
              (cmdExecuteCommand_keeps (P := fun s => s.node ≠ .auth) (fun _ n hn _ => hn) ?_ h h _ _ _)
            intro s v hv e he argv history hs
            obtain ⟨cs, hcs, c, hc, hfunc, -⟩ := mem_cmdInit hv he
            rw [hfunc]
            exact c.func.run_past w.rest argv history hs
  | _ => exact h

/-- At the first prompt only the key that enters the line can lead away. -/
theorem act_asked (c : Commands H) (h : d.seat.node = .auth) {k : Key} (hk : k ≠ .execute) :
    (d.act c k).seat = d.seat := by
  have hauth : d.seat.isAuth = true := d.seat.isAuth_iff.mpr (.inl h)
  have hleave : d.seat.leaveConfig = d.seat := by
    rw [Seat.leaveConfig, h]
  cases k with
  | stopInput => exact hleave
  | endConfig => exact hleave
  | deleteChar => rw [act, if_pos hauth]
  | nextLine => exact lookUp_seat _
  | previousLine => exact lookUp_seat _
  | completeCommand => rw [act, if_pos hauth]
  | describeCommand =>
      rw [act, if_pos hauth]
      rfl
  | execute => exact absurd rfl hk
  | _ => rfl

end Desk

/-- A session that has begun at the first prompt, by the lines that were entered: it is there and none
was the password, or it is past it and one was. -/
def LoggedIn (p : List UInt8) (out : List (List UInt8)) (d : Desk H) : Prop :=
  d.seat.node = .auth ∧ d.seat.host.password = some p ∧ p ∉ out ∨ d.seat.node ≠ .auth ∧ p ∈ out

/-- A line that is entered at the first prompt. -/
theorem LoggedIn.entered {p buf : List UInt8} {out : List (List UInt8)} {d : Desk H}
    (hnode : d.seat.node = .auth) (hhost : d.seat.host.password = some p) (hout : p ∉ out)
    {d' : Desk H} (hseat : d'.seat = (d.seat.auth buf).1) : LoggedIn p (out ++ [buf]) d' := by
  have hpasswd : d.seat.passwd = some p := by rw [Seat.passwd, if_pos hnode, hhost]
  rw [LoggedIn, hseat, List.mem_append, List.mem_singleton]
  rcases d.seat.auth_cases buf with ⟨hright, n, hn, -, -, heq⟩ | ⟨hne, hwrong⟩
  · rw [heq]
    exact .inr ⟨hn, .inr (Option.some.inj (hpasswd.symm.trans hright))⟩
  · have hnot : ¬(p ∈ out ∨ p = buf) := fun hmem =>
      hmem.elim hout fun htext => hne (htext ▸ hpasswd)
    rcases hwrong with ⟨-, heq⟩ | ⟨-, -, heq⟩ | ⟨hother, -⟩
    · rw [heq]
      exact .inl ⟨hnode, hhost, hnot⟩
    · rw [heq]
      exact .inl ⟨hnode, hhost, hnot⟩
    · exact absurd hnode hother

theorem LoggedIn.step {w : Surroundings H} {p : List UInt8} {out : List (List UInt8)} {d : Desk H}
    {o : UInt8} (h : LoggedIn p out d) :
    LoggedIn p (out ++ ((desk w.setting.toCommands).step d o).2)
      ((desk w.setting.toCommands).step d o).1 := by
  rcases h with ⟨hnode, hhost, hout⟩ | ⟨hnode, hout⟩
  · by_cases hk : (keymap d.escape o).1 = .execute
    · have hputs : ((desk w.setting.toCommands).step d o).2 = [d.line.text] := if_pos hk
      rw [hputs]
      refine entered hnode hhost hout ?_
      change (d.act w.setting.toCommands (keymap d.escape o).1).seat = _
      rw [hk]
      dsimp only [Desk.act, Desk.execute]
      rw [if_pos (d.seat.isAuth_iff.mpr (.inl hnode))]
    · have hseat : ((desk w.setting.toCommands).step d o).1.seat = d.seat :=
        Desk.act_asked _ hnode hk
      have hputs : ((desk w.setting.toCommands).step d o).2 = [] := if_neg hk
      rw [LoggedIn, hputs, List.append_nil, hseat]
      exact .inl ⟨hnode, hhost, hout⟩
  · exact .inr ⟨Desk.act_past w hnode _, List.mem_append_left _ hout⟩

/-- **The first password.** In every run whose lines fit and in which the key that kills the word behind
the cursor is not pressed over a character of a password, a session that begins at the first prompt is
past it exactly when one of the lines that were entered is the password, however many were not. -/
theorem pressAll_login (w : Surroundings H) (host : Host H) (p : List UInt8)
    (hpassword : host.password = some p) (hello os : List UInt8)
    (hmeets : (desk w.setting.toCommands).Meets (fun d o => d.Fits w.setting.toCommands o ∧
      d.Returns (keymap d.escape o).1) (newDesk .auth host) os) :
    ∃ v', (Vty.create w.setting .auth host hello).pressAll w.setting os = .ok v' ∧
      (v'.seat.node ≠ .auth ↔
        p ∈ (desk w.setting.toCommands).outputs (newDesk .auth host) os) := by
  have hcompletes : w.setting.toCommands.Completes := commands_completes (cmdInit_printable w.rest)
  obtain ⟨v', hresult, htogether⟩ :=
    (create_follows w.setting .auth host hello).pressAll hcompletes w.enough hmeets
  refine ⟨v', hresult, ?_⟩
  have hrun : LoggedIn p ([] ++ (desk w.setting.toCommands).outputs (newDesk .auth host) os)
      ((desk w.setting.toCommands).after (newDesk .auth host) os) :=
    (desk w.setting.toCommands).run_invariant (fun _ _ _ h _ => h.step)
      (.inl ⟨rfl, hpassword, List.not_mem_nil⟩) hmeets
  rw [htogether.follows.seat]
  rw [List.nil_append] at hrun
  rcases hrun with ⟨hnode, -, hout⟩ | ⟨hnode, hout⟩
  · exact ⟨fun hne => absurd hnode hne, fun hmem => absurd hmem hout⟩
  · exact ⟨fun _ => hout, fun _ => hnode⟩

/-- The password behind four wrong ones: the third of them closes the session, but not before what has
come with it is read. -/
theorem pressAll_login_fifth :
    let host : Host Unit := ⟨some [0x78], none, none, none, false, false, false, ()⟩
    let os := ascii "a\rb\rc\rd\rx\r"
    ∃ v', (Vty.create quietSurroundings.setting .auth host []).pressAll quietSurroundings.setting os = .ok v' ∧
      (v'.seat.node ≠ .auth ↔
        [0x78] ∈ (desk quietSurroundings.setting.toCommands).outputs (newDesk .auth host) os) :=
  pressAll_login quietSurroundings _ _ rfl _ _ (by decide +kernel)

end SoftBts
