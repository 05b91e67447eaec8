import SoftBts.CmdInit
import SoftBts.Levels

/-! The telnet sessions together: they share `struct host` and the configure lock, and each of them
reads, with the others in between. At most one session is at the configuration levels, and the lock
is taken exactly while one is. -/

namespace SoftBts

open Loop Terminal

variable {H : Type}

/-! ### The commands of the sessions -/

/-- `command.c` on a command tree. A line that does not come back has no meaning here; there is none
in a tree that is installed. -/
def CmdTree.commands (t : CmdTree H) (turns : ℕ) (prompt : Seat H → List UInt8)
    (describe : List (Option (List UInt8)) → Seat H → Description) : Commands H where
  prompt := prompt
  execute vline history s :=
    match cmdExecuteCommand t turns vline history s with
    | .ok r => (r.seat, r.ret, r.text)
    | .error _ => (s, .errNoMatch, [])
  complete vline s :=
    match cmdCompleteCommand t vline s with
    | .ok completion => completion
    | .error _ => .errNoMatch
  describe := describe

variable {t : CmdTree H} {turns : ℕ} {prompt : Seat H → List UInt8}
  {describe : List (Option (List UInt8)) → Seat H → Description}

/-- What a session does keeps the lock with its level. -/
theorem commands_guarded (ht : t.Installed) (hturns : 2 ≤ turns) (others : Bool) :
    SeatInvariant (t.commands turns prompt describe) (Seat.Guarded others) where
  configExit _ h := h.configExit
  leaveConfig _ h := h.leaveConfig
  auth buf _ hauth h := h.auth hauth buf
  execute vline history s _ h := by
    obtain ⟨r, hr, hguarded⟩ := cmdExecuteCommand_guarded ht h hturns vline history
    rw [CmdTree.commands]
    dsimp only
    rw [hr]
    exact hguarded

/-- The completion of `command.c` does what the line editor needs of it. -/
theorem commands_completes (ht : t.Printable) :
    (t.commands turns prompt describe).Completes := by
  have hgoesOn : ∀ {words : List (Option (List UInt8))} {s : Seat H} {matched : List UInt8},
      (t.commands turns prompt describe).complete words s = .completeFullMatch matched ∨
        (t.commands turns prompt describe).complete words s = .completeMatch matched →
      (∀ o ∈ matched, Terminal.Printable o) ∧ ∀ w, words.getLast? = some (some w) → w <+: matched := by
    intro words s matched h
    unfold CmdTree.commands cmdCompleteCommand at h
    dsimp only at h
    generalize hshort : cmdTryDoShortcut s.node words.head?.join = short at h
    generalize hnode : (if short then NodeType.enable else s.node) = n at h
    cases hv : t n with
    | none =>
        rw [hv] at h
        rcases h with h | h <;> cases h
    | some v =>
        rw [hv] at h
        obtain ⟨hlast, e, he, ds, hds, desc, hdesc, hbegins⟩ := cmdCompleteCommandReal_goesOn h
        refine ⟨fun o ho => ht n v hv e he ds hds desc hdesc o (hbegins.subset ho), fun w hw => ?_⟩
        cases short with
        | false => exact hlast w hw
        | true =>
            -- the line is longer than the `do`, or there would be no completion
            cases words with
            | nil => cases hw
            | cons first words =>
                cases words with
                | nil =>
                    rw [if_pos rfl, List.tail_cons] at h
                    rcases h with h | h <;> cases h
                | cons second words => exact hlast w hw
  exact ⟨fun _ _ _ h => (hgoesOn h).1, fun _ _ _ h => (hgoesOn h).2⟩

/-- What the sessions of softbts find: what the commands do that are not followed here, the prompts,
the descriptions and the memory, and turns that are enough for a line. -/
structure Surroundings (H : Type) where
  rest : Defun → QuietFunc H
  prompt : Seat H → List UInt8
  describe : List (Option (List UInt8)) → Seat H → Description
  heap : Octets.Mem
  turns : ℕ
  enough : vtyBufsiz ≤ turns

/-- Where the sessions of softbts run. -/
def Surroundings.setting (w : Surroundings H) : Setting H :=
  { (cmdInit w.rest).commands w.turns w.prompt w.describe with
    heap := w.heap
    turns := w.turns }

theorem Surroundings.two_le (w : Surroundings H) : 2 ≤ w.turns := Nat.le_trans (by decide) w.enough

/-- The other commands do nothing. -/
def quietSurroundings : Surroundings Unit where
  rest _ _ _ s := (s.host.other, .success, [])
  prompt _ := [0x3e, 0x20]
  describe _ _ := .errNoMatch
  heap := Octets.Mem.blank
  turns := vtyBufsiz
  enough := Nat.le_refl _

/-- No passwords, as softbts begins. -/
def firstHost : Host Unit := ⟨none, none, none, none, false, false, true, ()⟩

/-! ### The sessions -/

/-- `vtyvec`, by the file descriptors of the sessions, and what they share. -/
structure Room (H : Type) where
  host : Host H
  session : ℕ → Option (TelnetSession H)

/-- What happens to the sessions: a client connects and is greeted, octets come, and a connection is
lost. -/
inductive RoomEvent where
  | connect (fd : ℕ) (hello : List UInt8)
  | read (fd : ℕ) (os : List UInt8)
  | hangup (fd : ℕ)

namespace Room

/-- A session, which sees what they share. -/
def find (r : Room H) (fd : ℕ) : Option (TelnetSession H) :=
  (r.session fd).map fun s =>
    { s with vty := { s.vty with seat := { s.vty.seat with host := r.host } } }

def set (fd : ℕ) (host : Host H) (s : Option (TelnetSession H)) (r : Room H) : Room H :=
  ⟨host, Function.update r.session fd s⟩

/-- `vty_close` -/
def close (fd : ℕ) (s : TelnetSession H) (r : Room H) : Room H :=
  r.set fd s.vty.seat.configUnlock.host none

/-- The first node of a session. -/
def firstNode (host : Host H) : NodeType :=
  if host.noPasswordCheck then (if host.advanced then .enable else .view) else .auth

/-- `vty_create`, `vty_read` and `vty_close` of a session. -/
def step (e : Setting H) (r : Room H) : RoomEvent → Except Fault (Room H)
  | .connect fd hello =>
      if (r.session fd).isSome then .ok r
      else if r.host.noPasswordCheck = false ∧ r.host.password = none ∧
          r.host.passwordEncrypt = none then .ok r
      else
        .ok (r.set fd r.host (some ⟨.create e (firstNode r.host) r.host hello, .clear⟩))
  | .read fd os =>
      match r.find fd with
      | none => .ok r
      | some s =>
          (readOctets e os s).map fun s' =>
            if s'.vty.seat.status = .close then r.close fd s'
            else r.set fd s'.vty.seat.host (some s')
  | .hangup fd =>
      match r.find fd with
      | none => .ok r
      | some s => .ok (r.close fd s)

/-- No session yet, and the lock is free. -/
def boot (host : Host H) : Room H := ⟨{ host with vtyConfig := false }, fun _ => none⟩

def run (e : Setting H) (es : List RoomEvent) (r : Room H) : Except Fault (Room H) :=
  es.foldlM (step e) r

end Room

/-- Whether a session has the lock. -/
def TelnetSession.config (s : TelnetSession H) : Bool := s.vty.seat.config

/-- The lock goes with the level, one session has it at most, and it is taken while one has it. -/
structure Room.Exclusive (r : Room H) : Prop where
  installed : ∀ fd s, r.session fd = some s → s.vty.seat.node.installed = true
  level : ∀ fd s, r.session fd = some s →
    (s.config = true ↔ s.vty.seat.node = .config ∨ s.vty.seat.node = .vty)
  one : ∀ fd fd' s s', r.session fd = some s → r.session fd' = some s' → s.config = true →
    s'.config = true → fd = fd'
  lock : r.host.vtyConfig = true ↔ ∃ fd s, r.session fd = some s ∧ s.config = true

/-- Another session has the lock. -/
def Room.Elsewhere (r : Room H) (fd : ℕ) : Prop :=
  ∃ fd' s, fd' ≠ fd ∧ r.session fd' = some s ∧ s.config = true

namespace Room

variable {r : Room H} {fd : ℕ} {others : Bool}

/-! ### One session among the others -/

theorem find_some {s : TelnetSession H} (hs : r.find fd = some s) :
    ∃ s', r.session fd = some s' ∧ s.config = s'.config ∧
      s.vty.seat.node = s'.vty.seat.node ∧ s.vty.seat.host = r.host := by
  obtain ⟨s', hs', rfl⟩ := Option.map_eq_some_iff.mp hs
  exact ⟨s', hs', rfl, rfl, rfl⟩

/-- A read leaves of the session what `vty_read` leaves of it. -/
theorem session_step_read (e : Setting H) {s : TelnetSession H} (hs : r.find fd = some s)
    (os : List UInt8) :
    (r.step e (.read fd os)).map (fun r' => r'.session fd) = vtyRead e os s := by
  rw [vtyRead, step]
  simp only [hs]
  cases readOctets e os s with
  | error f => rfl
  | ok s' =>
      simp only [Except.map, TelnetSession.checkStatus]
      split_ifs <;> simp only [close, set, Function.update_self]

/-- What a session sees of the lock. -/
theorem Exclusive.guarded (h : r.Exclusive) (hothers : others = true ↔ r.Elsewhere fd)
    {s : TelnetSession H} (hs : r.find fd = some s) : s.vty.seat.Guarded others := by
  obtain ⟨s', hs', hconfig, hnode, hhost⟩ := find_some hs
  refine ⟨?_, ?_, ?_, fun hc => ?_⟩
  · rw [hnode]
    exact h.installed fd s' hs'
  · rw [hnode]
    exact (iff_of_eq (congrArg (· = true) hconfig)).trans (h.level fd s' hs')
  · rw [hhost, Bool.eq_iff_iff, h.lock, Bool.or_eq_true, hothers]
    constructor
    · rintro ⟨fd', s'', hs'', hc⟩
      by_cases hfd : fd' = fd
      · subst hfd
        obtain rfl := Option.some.inj (hs''.symm.trans hs')
        exact .inl (hconfig.trans hc)
      · exact .inr ⟨fd', s'', hfd, hs'', hc⟩
    · rintro (hc | ⟨fd', s'', -, hs'', hc⟩)
      · exact ⟨fd, s', hs', hconfig.symm.trans hc⟩
      · exact ⟨fd', s'', hs'', hc⟩
  · rw [Bool.eq_false_iff, Ne, hothers]
    rintro ⟨fd', s'', hfd, hs'', hc''⟩
    exact hfd (h.one fd' fd s'' s' hs'' hs' hc'' (hconfig.symm.trans hc))

theorem set_session_self (host : Host H) (s : Option (TelnetSession H)) :
    (r.set fd host s).session fd = s := Function.update_self ..

theorem set_session_ne (host : Host H) (s : Option (TelnetSession H)) {fd' : ℕ} (h : fd' ≠ fd) :
    (r.set fd host s).session fd' = r.session fd' := Function.update_of_ne h ..

/-- A session is opened, goes on or is closed, and the lock is what it and the others have. -/
theorem Exclusive.set (h : r.Exclusive) (hothers : others = true ↔ r.Elsewhere fd) {host : Host H}
    {new : Option (TelnetSession H)}
    (hinstalled : ∀ s, new = some s → s.vty.seat.node.installed = true)
    (hlevel : ∀ s, new = some s →
      (s.config = true ↔ s.vty.seat.node = .config ∨ s.vty.seat.node = .vty))
    (hlock : host.vtyConfig = (new.any TelnetSession.config || others))
    (halone : new.any TelnetSession.config = true → others = false) :
    (r.set fd host new).Exclusive := by
  have hother : ∀ {fd' : ℕ} {s : TelnetSession H}, fd' ≠ fd → r.session fd' = some s →
      s.config = true → others = true := fun hfd hs hc => hothers.mpr ⟨_, _, hfd, hs, hc⟩
  -- the other sessions are as they were
  have hcases : ∀ {fd' : ℕ} {s : TelnetSession H}, (r.set fd host new).session fd' = some s →
      fd' = fd ∧ new = some s ∨ fd' ≠ fd ∧ r.session fd' = some s := by
    intro fd' s hs
    by_cases hfd : fd' = fd
    · subst hfd
      rw [set_session_self] at hs
      exact .inl ⟨rfl, hs⟩
    · rw [set_session_ne host new hfd] at hs
      exact .inr ⟨hfd, hs⟩
  have hholds : ∀ {s : TelnetSession H}, new = some s → s.config = true → others = false := by
    rintro s rfl hc
    exact halone hc
  refine ⟨fun fd' s hs => ?_, fun fd' s hs => ?_, fun fd1 fd2 s1 s2 hs1 hs2 hc1 hc2 => ?_, ?_⟩
  · rcases hcases hs with ⟨-, hnew⟩ | ⟨-, hs⟩
    · exact hinstalled s hnew
    · exact h.installed fd' s hs
  · rcases hcases hs with ⟨-, hnew⟩ | ⟨-, hs⟩
    · exact hlevel s hnew
    · exact h.level fd' s hs
  · rcases hcases hs1 with ⟨hfd1, hnew1⟩ | ⟨hfd1, hold1⟩ <;>
      rcases hcases hs2 with ⟨hfd2, hnew2⟩ | ⟨hfd2, hold2⟩
    · exact hfd1.trans hfd2.symm
    · exact absurd (hother hfd2 hold2 hc2) (Bool.eq_false_iff.mp (hholds hnew1 hc1))
    · exact absurd (hother hfd1 hold1 hc1) (Bool.eq_false_iff.mp (hholds hnew2 hc2))
    · exact h.one fd1 fd2 s1 s2 hold1 hold2 hc1 hc2
  · change host.vtyConfig = true ↔ _
    rw [hlock, Bool.or_eq_true, hothers]
    constructor
    · rintro (hc | ⟨fd', s, hfd, hs, hc⟩)
      · obtain ⟨s, rfl, hc⟩ := (Option.any_eq_true _ _).mp hc
        exact ⟨fd, s, set_session_self host _, hc⟩
      · exact ⟨fd', s, (set_session_ne host new hfd).trans hs, hc⟩
    · rintro ⟨fd', s, hs, hc⟩
      rcases hcases hs with ⟨-, rfl⟩ | ⟨hfd, hs⟩
      · exact .inl hc
      · exact .inr ⟨fd', s, hfd, hs, hc⟩

/-- A session that has moved. -/
theorem Exclusive.move (h : r.Exclusive) (hothers : others = true ↔ r.Elsewhere fd)
    {s : TelnetSession H} (hs : s.vty.seat.Guarded others) :
    (r.set fd s.vty.seat.host (some s)).Exclusive := by
  refine h.set hothers ?_ ?_ hs.lock hs.alone
  · rintro _ ⟨⟩
    exact hs.installed
  · rintro _ ⟨⟩
    exact hs.config

/-- The lock behind a session that is gone. -/
theorem unlocked_lock {s : Seat H} (hs : s.Guarded others) :
    s.configUnlock.host.vtyConfig = others := by
  rw [Seat.configUnlock]
  have hlock := hs.lock
  cases hc : s.config with
  | true =>
      rw [hc, Bool.true_or] at hlock
      rw [hlock]
      exact (hs.alone hc).symm
  | false =>
      rw [Bool.and_false, if_neg Bool.false_ne_true, hlock, hc, Bool.false_or]

theorem Exclusive.close (h : r.Exclusive) (hothers : others = true ↔ r.Elsewhere fd)
    {s : TelnetSession H} (hs : s.vty.seat.Guarded others) : (r.close fd s).Exclusive := by
  refine h.set hothers ?_ ?_ (unlocked_lock hs) (fun hfalse => nomatch hfalse)
  · rintro _ ⟨⟩
  · rintro _ ⟨⟩

/-! ### Runs -/

theorem firstNode_installed (host : Host H) :
    (firstNode host).installed = true ∧ firstNode host ≠ .config ∧ firstNode host ≠ .vty := by
  rw [firstNode]
  split
  · split <;> decide
  · decide

theorem exists_others (r : Room H) (fd : ℕ) : ∃ others : Bool, others = true ↔ r.Elsewhere fd :=
  ⟨_, @decide_eq_true_iff _ (Classical.propDecidable _)⟩

/-- A new session does not have the lock. -/
theorem Exclusive.connect (h : r.Exclusive) (hnone : r.session fd = none) (e : Setting H)
    (hello : List UInt8) :
    (r.set fd r.host (some ⟨.create e (firstNode r.host) r.host hello, .clear⟩)).Exclusive := by
  obtain ⟨hinstalled, hconfig, hvty⟩ := firstNode_installed r.host
  obtain ⟨others, hothers⟩ := exists_others r fd
  refine h.set hothers ?_ ?_ ?_ (fun hfalse => nomatch hfalse)
  · rintro _ ⟨⟩
    exact hinstalled
  · rintro _ ⟨⟩
    exact ⟨fun hfalse => (nomatch hfalse), fun hnode => (hnode.elim hconfig hvty).elim⟩
  · rw [Bool.eq_iff_iff, h.lock]
    change _ ↔ others = true
    rw [hothers]
    constructor
    · rintro ⟨fd', s, hs, hc⟩
      refine ⟨fd', s, fun hfd => ?_, hs, hc⟩
      rw [hfd, hnone] at hs
      cases hs
    · rintro ⟨fd', s, -, hs, hc⟩
      exact ⟨fd', s, hs, hc⟩

/-- One event keeps the lock with the levels. -/
theorem Exclusive.step (h : r.Exclusive) {e : Setting H} (ht : t.Installed) (hturns : 2 ≤ turns)
    (he : e.toCommands = t.commands turns prompt describe) (ev : RoomEvent) :
    Gives (r.step e ev) Exclusive := by
  cases ev with
  | connect fd hello =>
      refine .ite (fun _ => .ok h) fun hsome => .ite (fun _ => .ok h) fun _ => .ok ?_
      exact h.connect (Option.not_isSome_iff_eq_none.mp hsome) e hello
  | read fd os =>
      obtain ⟨others, hothers⟩ := exists_others r fd
      rw [Room.step]
      cases hs : r.find fd with
      | none => exact .ok h
      | some s =>
          have hP : SeatInvariant e.toCommands (Seat.Guarded others) :=
            he ▸ commands_guarded ht hturns others
          refine Gives.map (readOctets_at hP os (h.guarded hothers hs)) fun s' hs' => ?_
          split
          · exact h.close hothers hs'
          · exact h.move hothers hs'
  | hangup fd =>
      obtain ⟨others, hothers⟩ := exists_others r fd
      rw [Room.step]
      cases hs : r.find fd with
      | none => exact .ok h
      | some s => exact .ok (h.close hothers (h.guarded hothers hs))

theorem boot_exclusive (host : Host H) : (boot host).Exclusive := by
  refine ⟨?_, ?_, ?_, ⟨fun hfalse => (nomatch hfalse), ?_⟩⟩
  · rintro _ _ ⟨⟩
  · rintro _ _ ⟨⟩
  · rintro _ _ _ _ ⟨⟩
  · rintro ⟨_, _, ⟨⟩, _⟩

/-- **The configure lock.** Whatever the clients of softbts send, in whatever order their sessions read
it, come and go: at most one session is at the configuration levels, every session is at an installed
level, and the lock is taken exactly while a session is there. -/
theorem run_exclusive (w : Surroundings H) (host : Host H) (es : List RoomEvent) (r : Room H)
    (h : (boot host).run w.setting es = .ok r) : r.Exclusive :=
  Gives.foldlM (fun _ ev hr => Exclusive.step hr (cmdInit_installed w.rest) w.two_le rfl ev)
    (boot_exclusive host) es r h

/-- Two clients want to configure, and the first of them gets the lock. -/
theorem run_exclusive_two :
    let es : List RoomEvent := [.connect 5 [], .connect 6 [],
      .read 5 (ascii "enable\rconfigure terminal\r"), .read 6 (ascii "en\rconf t\r")]
    ∃ r, (boot firstHost).run quietSurroundings.setting es = .ok r ∧ r.host.vtyConfig = true ∧
      r.Exclusive := by
  intro es
  have hlock : ((boot firstHost).run quietSurroundings.setting es).toOption.any (fun r => r.host.vtyConfig) =
      true := by decide +kernel
  cases hr : (boot firstHost).run quietSurroundings.setting es with
  | error f =>
      rw [hr] at hlock
      cases hlock
  | ok r =>
      rw [hr] at hlock
      exact ⟨r, rfl, hlock, run_exclusive _ _ _ r hr⟩

end Room

end SoftBts
