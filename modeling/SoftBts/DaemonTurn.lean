import SoftBts.Daemon

/-! One callback of the BTS: it does not return from `receive_msg` or `vty_read`, or it takes at most its
own socket out of the list, puts new ones at its end, and leaves the list, the slots, the connections and
the descriptors in step. -/

namespace SoftBts

open IntrusiveList Reactive

/-- The list, the slots, the connections and the descriptors are in step, and the descriptors that are
still to be served are open. -/
structure Sound (registered : List ℕ) (foreign : Int → Bool) (sets : FdSets) (xs : List Socket)
    (s : Daemon) (t : TrxTable) (others : Int → Bool) : Prop where
  table : s.table = some t
  inStep : t.forget.InStep others
  listed : Represents t.links .head xs
  outside : Outside registered foreign xs s others
  set : ∀ fd, (sets fd).any = true → t.opened fd = true

/-- What a callback that returns comes to: it takes at most its own socket out of the list and puts new
ones at its end, which are not to be served; the other descriptors stay as they are; and the BTS has
received at most one message. One socket at most is counted as taken out. -/
structure Turn (registered : List ℕ) (foreign : Int → Bool) (sets : FdSets) (xs : List Socket)
    (x : Socket) (s s' : Daemon) (k : ℕ) (gone : Bool) (new : List Socket) : Prop where
  few : k ≤ 1
  counted : gone = true → k = 1
  sound : ∃ t others, Sound registered foreign (sets.clear (s.socket x).fd)
    ((if gone then xs.erase x else xs) ++ new) s' t others
  fds : ∀ y ∈ xs, (gone = true → y ≠ x) → (s'.socket y).fd = (s.socket y).fd
  fresh : ∀ y ∈ new, (sets (s'.socket y).fd).any = false
  received : s'.toSystem = s.toSystem ∨ ∃ c, s'.toSystem = (receiver.step s.toSystem c).1

/-- What the system calls and the allocator promise, and what is assumed of them: a new descriptor is not
open, and fcntl() and write() do not fail for it; memory for a new connection is not in use. -/
structure Given.Sane (g : Given) : Prop where
  attempt : ∀ s, Granted s.table (.connect (g.attempt s))
  newcomer : ∀ s t, s.table = some t → 0 ≤ (g.newcomer s).sd → t.opened (g.newcomer s).sd = false
  getfl : ∀ s, 0 ≤ (g.newcomer s).getfl
  setfl : ∀ s, 0 ≤ (g.newcomer s).setfl
  place : ∀ s xs, Represents s.links .head xs → 0 ≤ (g.newcomer s).sd →
    serverSocket < g.place s ∧ .other (g.place s) ∉ xs

section Callbacks

variable {registered : List ℕ} {foreign : Int → Bool} {sets : FdSets} {xs : List Socket} {s : Daemon}
  {t : TrxTable} {others : Int → Bool} {x : Socket}

theorem links_of_table (h : s.table = some t) : s.links = t.links := by
  rw [Daemon.links, h]

theorem fd_trx (h : s.table = some t) (slot : Fin 4) : (s.socket (.trx slot)).fd = t.fd slot := by
  rw [Daemon.socket, h]
  rfl

theorem Sound.represents (h : Sound registered foreign sets xs s t others) :
    Represents s.links .head xs := by
  rw [links_of_table h.table]
  exact h.listed

/-- There is only one list. -/
theorem Sound.unique (h : Sound registered foreign sets xs s t others) {ys : List Socket}
    (hys : Represents s.links .head ys) : xs = ys :=
  h.represents.unique hys

theorem Sound.mem_iff (h : Sound registered foreign sets xs s t others) (slot : Fin 4) :
    .trx slot ∈ xs ↔ t.fd slot ≠ -1 :=
  h.inStep.mem_iff h.listed slot

/-- The open descriptors are those of the list and the foreign ones. -/
theorem Sound.opened_iff (h : Sound registered foreign sets xs s t others) (d : Int) :
    t.opened d = true ↔ foreign d = true ∨ ∃ x ∈ xs, (s.socket x).fd = d := by
  have hopened : t.opened d = true ↔ others d = true ∨ ∃ slot, t.fd slot ≠ -1 ∧ t.fd slot = d :=
    h.inStep.opened d
  rw [hopened, h.outside.owners, or_assoc]
  refine or_congr_right ⟨?_, ?_⟩
  · rintro (⟨k, hk, hkd⟩ | ⟨slot, hslot, hd⟩)
    · exact ⟨.other k, hk, hkd⟩
    · exact ⟨.trx slot, (h.mem_iff slot).mpr hslot, (fd_trx h.table slot).trans hd⟩
  · rintro ⟨x, hx, hd⟩
    cases x with
    | head => exact absurd hx h.listed.head_not_mem
    | trx slot =>
        rw [fd_trx h.table] at hd
        exact Or.inr ⟨slot, (h.mem_iff slot).mp hx, hd⟩
    | other k => exact Or.inl ⟨k, hx, hd⟩

/-- The descriptors of the list are open. -/
theorem Sound.opened (h : Sound registered foreign sets xs s t others) (hx : x ∈ xs) :
    t.opened (s.socket x).fd = true :=
  (h.opened_iff _).mpr (Or.inr ⟨x, hx, rfl⟩)

/-- The descriptors of slots are not among the others. -/
theorem Sound.trx_own (h : Sound registered foreign sets xs s t others) {slot : Fin 4}
    (hslot : .trx slot ∈ xs) : others (t.fd slot) = false :=
  h.inStep.own slot ((h.mem_iff slot).mp hslot)

/-- The descriptors of the list are not foreign. -/
theorem Sound.own (h : Sound registered foreign sets xs s t others) (hx : x ∈ xs) :
    foreign (s.socket x).fd = false := by
  cases x with
  | head => exact absurd hx h.listed.head_not_mem
  | trx slot =>
      rw [fd_trx h.table, Bool.eq_false_iff]
      intro hforeign
      have hown := h.trx_own hx
      rw [(h.outside.owners _).mpr (Or.inl hforeign)] at hown
      cases hown
  | other k => exact h.outside.own k hx

/-- The descriptors of the list are different. -/
theorem Sound.fd_inj (h : Sound registered foreign sets xs s t others) {y : Socket} (hx : x ∈ xs)
    (hy : y ∈ xs) (hfd : (s.socket x).fd = (s.socket y).fd) : x = y := by
  have hown : ∀ slot k, .trx slot ∈ xs → .other k ∈ xs → t.fd slot ≠ s.fd k := by
    intro slot k hslot hk heq
    have hother := h.trx_own hslot
    rw [heq, h.outside.owned hk] at hother
    cases hother
  cases x with
  | head => exact absurd hx h.listed.head_not_mem
  | trx slot =>
      rw [fd_trx h.table] at hfd
      cases y with
      | head => exact absurd hy h.listed.head_not_mem
      | trx slot' =>
          rw [fd_trx h.table] at hfd
          exact congrArg _ (h.inStep.distinct slot slot' ((h.mem_iff slot).mp hx) hfd)
      | other k => exact absurd hfd (hown slot k hx hy)
  | other k =>
      cases y with
      | head => exact absurd hy h.listed.head_not_mem
      | trx slot =>
          rw [fd_trx h.table] at hfd
          exact absurd hfd.symm (hown slot k hy hx)
      | other k' => exact congrArg _ (h.outside.distinct k k' hx hy hfd)

theorem Sound.clear (h : Sound registered foreign sets xs s t others) (fd : Int) :
    Sound registered foreign (sets.clear fd) xs s t others :=
  { h with set := fun d hd => h.set d (FdSets.any_clear_iff.mp hd).2 }

/-- A callback that leaves the listed sockets as they are. -/
theorem turn_same (h : Sound registered foreign sets xs s t others) {s' : Daemon} {t' : TrxTable}
    (htable : s'.table = some t') (hlisted : Represents t'.links .head xs) (hslots : t'.fd = t.fd)
    (hopened : t'.opened = t.opened) (hfd : ∀ k, .other k ∈ xs → s'.fd k = s.fd k)
    (hconnections : s'.connections = s.connections)
    (hreceived : s'.toSystem = s.toSystem ∨ ∃ c, s'.toSystem = (receiver.step s.toSystem c).1)
    {k : ℕ} (hk : k ≤ 1) : Turn registered foreign sets xs x s s' k false [] := by
  refine ⟨hk, fun hgone => Bool.noConfusion hgone, ⟨t', others, htable, ?_, ?_, ?_, ?_⟩, ?_,
    List.forall_mem_nil _, hreceived⟩
  · exact h.inStep.relinked hslots hopened hlisted h.mem_iff
  · simpa using hlisted
  · exact h.outside.congr (by simp) hfd hconnections
  · rw [hopened]
    exact (h.clear _).set
  · intro y hy _
    cases y with
    | head => rfl
    | trx slot => rw [fd_trx htable, fd_trx h.table, hslots]
    | other k => exact hfd k hy

/-- What was open stays open when a descriptor is added. -/
theorem opened_of_update {opened : Int → Bool} {sd d : Int} (h : opened d = true) :
    Function.update opened sd true d = true := by
  rw [Function.update_apply]
  split_ifs
  · rfl
  · exact h

/-- What is still to be served stays open when the descriptor that is served is closed. -/
theorem opened_of_close {fd : Int} (hset : ∀ d, (sets d).any = true → t.opened d = true) {d : Int}
    (h : (sets.clear fd d).any = true) : Function.update t.opened fd false d = true := by
  obtain ⟨hne, hd⟩ := FdSets.any_clear_iff.mp h
  rw [Function.update_of_ne hne]
  exact hset d hd

/-- A descriptor that was not open is not to be served. -/
theorem Sound.fresh (h : Sound registered foreign sets xs s t others) {sd : Int}
    (hsd : t.opened sd = false) : (sets sd).any = false := by
  rw [Bool.eq_false_iff]
  intro hany
  rw [h.set sd hany] at hsd
  cases hsd

/-- `accept_connection` -/
theorem turn_accept (h : Sound registered foreign sets xs s t others) {a : Attempt}
    (hgranted : Granted (some t) (.connect a)) :
    ∃ u new, t.acceptConnection a = some u ∧
      Turn registered foreign sets xs x s (s.withTable u.1) 0 false new := by
  rcases TrxTable.acceptConnection_cases hgranted with ⟨u, hu, hsame⟩ | ⟨i, hi, hsd, hu⟩
  · have hlinks : u.1.links = t.links :=
      show u.1.forget.links = t.forget.links from congrArg TrxTable.links hsame
    have htable : (s.withTable u.1).table = some u.1 := rfl
    refine ⟨u, [], hu, turn_same h htable ?_ ?_ ?_ (fun _ _ => rfl) rfl (Or.inl rfl) (Nat.zero_le 1)⟩
    · rw [hlinks]
      exact h.listed
    · show u.1.forget.fd = t.forget.fd
      rw [hsame]
    · show u.1.forget.opened = t.forget.opened
      rw [hsame]
  · have hfresh := hgranted.1 hsd
    obtain ⟨links, hlinks, hrep, hstep⟩ :=
      TrxTable.inStep_filled h.inStep h.listed hsd hfresh hi
    rw [hlinks, Option.map_some] at hu
    refine ⟨_, [.trx i], hu, Nat.zero_le 1, fun hgone => Bool.noConfusion hgone,
      ⟨_, others, rfl, hstep, hrep, ?_, ?_⟩, ?_, ?_, Or.inl rfl⟩
    · exact h.outside.congr (by simp) (fun _ _ => rfl) rfl
    · exact fun d hd => opened_of_update (h.set d (FdSets.any_clear_iff.mp hd).2)
    · intro y hy _
      cases y with
      | head => rfl
      | trx slot =>
          have hne : slot ≠ i := by
            rintro rfl
            exact (h.mem_iff slot).mp hy hi
          rw [fd_trx h.table, fd_trx rfl]
          exact Function.update_of_ne hne _ _
      | other k => rfl
    · rw [List.forall_mem_singleton]
      rw [fd_trx rfl]
      show (sets (Function.update t.fd i a.sd i)).any = false
      rw [Function.update_self]
      exact h.fresh hfresh

/-- `receive_msg`, where it returns, leaves the sockets alone. -/
theorem receive_cases (g : Given) (y : Socket) (sd : Link) (s : Daemon) :
    s.receive g y sd = none ∨ ∃ r, s.receive g y sd = some r ∧ r.table = s.table ∧ r.fd = s.fd ∧
      r.connections = s.connections ∧ ∃ c, r.toSystem = (receiver.step s.toSystem c).1 := by
  rw [Daemon.receive]
  by_cases hstop : (receiver.step s.toSystem ⟨g.results y, g.env y, sd⟩).1.stop.isSome = true
  · exact Or.inl (if_pos hstop)
  · exact Or.inr ⟨_, if_neg hstop, rfl, rfl, rfl, _, rfl⟩

/-- `trx_cb` after `receive_msg`. -/
theorem turn_received (h : Sound registered foreign sets xs s t others) {slot : Fin 4}
    (hx : .trx slot ∈ xs) (rc : Int) {r : Daemon} (hfd : r.fd = s.fd)
    (hconnections : r.connections = s.connections)
    (hreceived : r.toSystem = s.toSystem ∨ ∃ c, r.toSystem = (receiver.step s.toSystem c).1) :
    ∃ t' gone, t.trxCb slot rc = some (t', rc) ∧ Turn registered foreign sets xs (.trx slot) s
      (r.withTable t') (if rc = 0 then 1 else 0) gone [] := by
  obtain ⟨t', hcb, hstep, hdone⟩ :=
    TrxTable.trxCb_cases h.inStep h.listed ((h.mem_iff slot).mp hx) rc
  by_cases hrc : rc = 0
  · rw [if_pos hrc] at hdone
    obtain ⟨hrep, hslots, hopened⟩ := hdone
    rw [if_pos hrc]
    refine ⟨t', true, hcb, Nat.le_refl 1, fun _ => rfl,
      ⟨t', others, rfl, hstep, by simpa using hrep, ?_, fun d hd => ?_⟩, fun y _ hne => ?_,
      List.forall_mem_nil _, hreceived⟩
    · exact h.outside.congr (by simp) (fun k _ => congrFun hfd k) hconnections
    · rw [fd_trx h.table] at hd
      rw [hopened]
      exact opened_of_close h.set hd
    · cases y with
      | head => rfl
      | trx slot' =>
          have hne' : slot' ≠ slot := fun heq => hne rfl (congrArg _ heq)
          rw [fd_trx h.table, fd_trx rfl, hslots, Function.update_of_ne hne']
      | other k => exact congrFun hfd k
  · rw [if_neg hrc] at hdone
    subst hdone
    rw [if_neg hrc]
    have htable : (r.withTable t').table = some t' := rfl
    exact ⟨t', false, hcb, turn_same h htable h.listed rfl rfl (fun k _ => congrFun hfd k) hconnections
      hreceived (Nat.zero_le 1)⟩

/-- `trx_cb` -/
theorem turn_trx (h : Sound registered foreign sets xs s t others) {slot : Fin 4}
    (hx : .trx slot ∈ xs) (g : Given) (f : Flags) :
    (s.trxCb g slot f t = none ∧ Stays g s (.trx slot)) ∨ ∃ s' k gone, s.trxCb g slot f t = some (s', k) ∧
      Turn registered foreign sets xs (.trx slot) s s' k gone [] := by
  rw [Daemon.trxCb]
  split_ifs
  · rcases receive_cases g (.trx slot) (.trx slot) s with hnone | ⟨r, hr, -, hfd, hconnections, hc⟩
    · exact Or.inl ⟨by rw [hnone]; rfl, .trx slot hnone⟩
    · obtain ⟨t', gone, hcb, hturn⟩ := turn_received h hx
        ((g.results (.trx slot)).reading (s.buffer (.trx slot))).rc hfd hconnections (Or.inr hc)
      refine Or.inr ⟨_, _, gone, ?_, hturn⟩
      simp only [hr, Option.bind_some, hcb, Option.map_some]
  · exact Or.inr ⟨s, 0, false, rfl, turn_same h h.table h.listed rfl rfl (fun _ _ => rfl) rfl
      (Or.inl rfl) (Nat.zero_le 1)⟩

/-- `oml_connection` and `rsl_connection` -/
theorem turn_connection (h : Sound registered foreign sets xs s t others) (g : Given) (k : ℕ)
    (sd : Link) : (s.connection g k sd = none ∧ s.receive g (.other k) sd = none) ∨
      ∃ s', s.connection g k sd = some s' ∧ Turn registered foreign sets xs x s s' 0 false [] := by
  rw [Daemon.connection]
  split_ifs
  · rcases receive_cases g (.other k) sd s with hnone | ⟨r, hr, htable, hfd, hconnections, hc⟩
    · exact Or.inl ⟨hnone, hnone⟩
    · exact Or.inr ⟨r, hr, turn_same h (htable.trans h.table) h.listed rfl rfl
        (fun k _ => congrFun hfd k) hconnections (Or.inr hc) (Nat.zero_le 1)⟩
  · exact Or.inr ⟨s, rfl, turn_same h h.table h.listed rfl rfl (fun _ _ => rfl) rfl (Or.inl rfl)
      (Nat.zero_le 1)⟩

/-- `telnet_close_client` -/
theorem turn_close (h : Sound registered foreign sets xs s t others) {k : ℕ} (hk : serverSocket < k)
    (hx : .other k ∈ xs) :
    ∃ s', s.telnetCloseClient k t = some (s', 1) ∧
      Turn registered foreign sets xs (.other k) s s' 1 true [] := by
  obtain ⟨links, hlinks, hrep⟩ := del_represents h.listed hx
  have hnodup := (List.nodup_cons.mp h.listed.nodup).2
  have hmem : ∀ slot, .trx slot ∈ xs.erase (.other k) ↔ t.fd slot ≠ -1 := by
    intro slot
    rw [List.mem_erase_of_ne Socket.noConfusion, h.mem_iff]
  refine ⟨_, congrArg (Option.map _) hlinks, Nat.le_refl 1, fun _ => rfl,
    ⟨_, Function.update others (s.fd k) false, rfl, ?_, by simpa using hrep, ?_, ?_⟩, ?_,
    List.forall_mem_nil _, Or.inl rfl⟩
  · exact (h.inStep.closedOther (h.outside.owned hx)).relinked rfl rfl hrep hmem
  · rw [if_pos rfl, List.append_nil]
    exact h.outside.closed hnodup hk hx rfl rfl
  · exact fun d hd => opened_of_close h.set hd
  · intro y _ _
    cases y with
    | head => rfl
    | trx slot => rw [fd_trx h.table, fd_trx rfl]; rfl
    | other j => rfl

/-- `client_data` -/
theorem turn_client (h : Sound registered foreign sets xs s t others) {k : ℕ} (hk : serverSocket < k)
    (hx : .other k ∈ xs) (g : Given) :
    (s.clientData g k t = none ∧ Stays g s (.other k)) ∨ ∃ s' n gone, s.clientData g k t = some (s', n) ∧
      Turn registered foreign sets xs (.other k) s s' n gone [] := by
  rw [Daemon.clientData]
  cases hsession : g.session k with
  | none => exact Or.inl ⟨rfl, .client k hk hsession⟩
  | some w =>
      right
      rw [Option.bind_some]
      split_ifs
      · obtain ⟨s', hs', hturn⟩ := turn_close h hk hx
        exact ⟨s', 1, true, hs', hturn⟩
      · let s' : Daemon := { s with type := Function.update s.type k w.type }
        have htable : s'.table = some t := h.table
        exact ⟨s', 0, false, rfl, turn_same h htable h.listed rfl rfl (fun _ _ => rfl) rfl (Or.inl rfl)
          (Nat.zero_le 1)⟩

/-- A connection that has been accepted. -/
theorem turn_opened (h : Sound registered foreign sets xs s t others) {k : ℕ} (hk : serverSocket < k)
    (hnew : .other k ∉ xs) {sd : Int} (hfresh : t.opened sd = false) {links : Links Socket}
    (hrep : Represents links .head (xs ++ [.other k])) {s' : Daemon}
    (htable : s'.table = some { t with links := links, opened := Function.update t.opened sd true })
    (hfd : s'.fd = Function.update s.fd k sd) (hconnections : s'.connections = s.connections ++ [k])
    (hreceived : s'.toSystem = s.toSystem) :
    Turn registered foreign sets xs x s s' 0 false [.other k] := by
  have hmem : ∀ slot, .trx slot ∈ xs ++ [Socket.other k] ↔ t.fd slot ≠ -1 := by
    intro slot
    rw [List.mem_append, h.mem_iff, List.mem_singleton]
    exact or_iff_left Socket.noConfusion
  refine ⟨Nat.zero_le 1, fun hgone => Bool.noConfusion hgone,
    ⟨_, Function.update others sd true, htable, ?_, hrep, ?_, ?_⟩, ?_, ?_, Or.inl hreceived⟩
  · exact (h.inStep.openedOther hfresh).relinked rfl rfl hrep hmem
  · exact h.outside.opened hk hnew (TrxTable.others_of_closed h.inStep hfresh).1 hfd hconnections
  · exact fun d hd => opened_of_update (h.set d (FdSets.any_clear_iff.mp hd).2)
  · intro y hy _
    cases y with
    | head => rfl
    | trx slot => rw [fd_trx htable, fd_trx h.table]
    | other j => exact Outside.fd_listed hnew hfd hy
  · rw [List.forall_mem_singleton]
    show (sets (s'.fd k)).any = false
    rw [hfd, Function.update_self]
    exact h.fresh hfresh

/-- A connection that is refused leaves the list, the connections and the descriptors as they were. -/
theorem turn_refused (h : Sound registered foreign sets xs s t others) {k : ℕ}
    (hnew : .other k ∉ xs) {sd : Int} (hfresh : t.opened sd = false) {links : Links Socket}
    (hrep : Represents links .head (xs ++ [.other k])) {s' : Daemon}
    (hfd : s'.fd = Function.update s.fd k sd) (hconnections : s'.connections = s.connections ++ [k])
    (hreceived : s'.toSystem = s.toSystem) :
    ∃ s'', s'.telnetCloseClient k { t with links := links, opened := Function.update t.opened sd true } =
        some (s'', 1) ∧ Turn registered foreign sets xs x s s'' 1 false [] := by
  obtain ⟨links', hlinks', hrep'⟩ :=
    del_represents hrep (List.mem_append_right xs (List.mem_singleton_self _))
  rw [List.erase_append_right _ hnew, List.erase_cons_head, List.append_nil] at hrep'
  let t' : TrxTable := { t with links := links, opened := Function.update t.opened sd true }
  let s'' : Daemon := { s' with
    table := some { t'.close (s'.fd k) with links := links' }
    connections := s'.connections.erase k }
  have htable : s''.table = some { t'.close (s'.fd k) with links := links' } := rfl
  refine ⟨s'', congrArg (Option.map _) hlinks', turn_same h htable hrep' rfl ?_ ?_ ?_
    (Or.inl hreceived) (Nat.le_refl 1)⟩
  · show Function.update (Function.update t.opened sd true) (s'.fd k) false = t.opened
    rw [hfd, Function.update_self, Function.update_idem, ← hfresh, Function.update_eq_self]
  · exact fun j hj => Outside.fd_listed hnew hfd hj
  · have hnot : k ∉ s.connections := fun hmem => hnew ((h.outside.clients k).mp hmem).2
    show s'.connections.erase k = s.connections
    rw [hconnections, List.erase_append_right _ hnot, List.erase_cons_head, List.append_nil]

/-- `telnet_new_connection` -/
theorem turn_newcomer (h : Sound registered foreign sets xs s t others) {g : Given} (hg : g.Sane) :
    ∃ s' k new, s.telnetNewConnection g t = some (s', k) ∧
      Turn registered foreign sets xs x s s' k false new := by
  rw [Daemon.telnetNewConnection]
  dsimp only
  by_cases hsd : (g.newcomer s).sd < 0
  · exact ⟨s, 0, [], if_pos hsd, turn_same h h.table h.listed rfl rfl (fun _ _ => rfl) rfl (Or.inl rfl)
      (Nat.zero_le 1)⟩
  · have hfresh := hg.newcomer s t h.table (by omega)
    obtain ⟨hk, hnew⟩ := hg.place s xs h.represents (by omega)
    have hfcntl : ¬ ((g.newcomer s).getfl < 0 ∨ (g.newcomer s).setfl < 0) :=
      not_or.mpr ⟨Int.not_lt.mpr (hg.getfl s), Int.not_lt.mpr (hg.setfl s)⟩
    have hnot : Socket.other (g.place s) ∉ Socket.head :: xs := by
      rw [List.mem_cons, not_or]
      exact ⟨Socket.noConfusion, hnew⟩
    obtain ⟨links, hlinks, hrep⟩ := addTail_represents h.listed hnot
    simp only [if_neg hsd, if_neg hfcntl, hlinks, Option.bind_some]
    split_ifs
    · let s' : Daemon := { s with
        fd := Function.update s.fd (g.place s) (g.newcomer s).sd
        type := Function.update s.type (g.place s) ⟨true, true, false⟩
        connections := s.connections ++ [g.place s] }
      obtain ⟨s'', hs'', hturn⟩ :=
        turn_refused h hnew hfresh hrep (show s'.fd = _ from rfl) rfl rfl
      exact ⟨s'', 1, [], hs'', hturn⟩
    · exact ⟨_, 0, [.other (g.place s)], rfl, turn_opened h hk hnew hfresh hrep rfl rfl rfl rfl⟩

/-- **A callback** of a socket of the list, whatever it is given, does not return from `receive_msg` or
`vty_read`, or keeps everything in step. -/
theorem cb_turn (h : Sound registered foreign sets xs s t others) (hx : x ∈ xs) {g : Given}
    (hg : g.Sane) (f : Flags) :
    (s.cb g x f = none ∧ Stays g s x) ∨ ∃ s' k gone new, s.cb g x f = some (s', k) ∧
      Turn registered foreign sets xs x s s' k gone new := by
  rw [Daemon.cb, h.table]
  cases x with
  | head => exact absurd hx h.listed.head_not_mem
  | trx slot =>
      rcases turn_trx h hx g f with hstays | ⟨s', k, gone, hcb, hturn⟩
      · exact Or.inl hstays
      · exact Or.inr ⟨s', k, gone, [], hcb, hturn⟩
  | other k =>
      simp only [Option.bind_some]
      split_ifs with homl hrsl htrx hserver
      · subst homl
        rcases turn_connection h g omlSocket .oml with ⟨hnone, hstays⟩ | ⟨s', hs', hturn⟩
        · exact Or.inl ⟨by rw [hnone]; rfl, .oml hstays⟩
        · exact Or.inr ⟨s', 0, false, [], by rw [hs']; rfl, hturn⟩
      · subst hrsl
        rcases turn_connection h g rslSocket .rsl with ⟨hnone, hstays⟩ | ⟨s', hs', hturn⟩
        · exact Or.inl ⟨by rw [hnone]; rfl, .rsl hstays⟩
        · exact Or.inr ⟨s', 0, false, [], by rw [hs']; rfl, hturn⟩
      · have hgranted := hg.attempt s
        rw [h.table] at hgranted
        obtain ⟨u, new, hu, hturn⟩ := turn_accept h hgranted
        exact Or.inr ⟨_, 0, false, new, by rw [hu]; rfl, hturn⟩
      · obtain ⟨s', n, new, hs', hturn⟩ := turn_newcomer h hg
        exact Or.inr ⟨s', n, false, new, hs', hturn⟩
      · have hk : serverSocket < k := by
          simp only [omlSocket, rslSocket, trxSocket, serverSocket] at homl hrsl htrx hserver ⊢
          omega
        rcases turn_client h hk hx g with hstays | ⟨s', n, gone, hcb, hturn⟩
        · exact Or.inl hstays
        · exact Or.inr ⟨s', n, gone, [], hcb, hturn⟩

/-- The sockets of the list are those from before, without one that was closed, and the new ones. -/
theorem Turn.mem_of_mem {s' : Daemon} {k : ℕ} {gone : Bool} {new : List Socket}
    (h : Turn registered foreign sets xs x s s' k gone new) (hxs : xs.Nodup) {y : Socket}
    (hy : y ∈ (if gone then xs.erase x else xs) ++ new) :
    y ∈ new ∨ (y ∈ xs ∧ (s'.socket y).fd = (s.socket y).fd) := by
  rcases List.mem_append.mp hy with hold | hnew
  · refine Or.inr ?_
    split_ifs at hold with hgone
    · obtain ⟨hne, hmem⟩ := hxs.mem_erase_iff.mp hold
      exact ⟨hmem, h.fds y hmem fun _ => hne⟩
    · exact ⟨hold, h.fds y hold fun hgone' => absurd hgone' hgone⟩
  · exact Or.inl hnew

theorem serve_turn (h : Sound registered foreign sets xs s t others) (hx : x ∈ xs) {g : Given}
    (hg : g.Sane) :
    ((daemon g).serve x (sets, s) = none ∧ Stays g s x) ∨ ∃ s' k gone new,
      (daemon g).serve x (sets, s) = some ((sets.clear (s.socket x).fd, s'), k) ∧
        Turn registered foreign sets xs x s s' k gone new := by
  have hserve : (daemon g).serve x (sets, s) =
      (s.cb g x ((daemon g).flags (sets, s) x)).map fun r =>
        ((sets.clear (s.socket x).fd, r.1), r.2) := rfl
  rw [hserve]
  rcases cb_turn h hx hg ((daemon g).flags (sets, s) x) with
    ⟨hnone, hstays⟩ | ⟨s', k, gone, new, hcb, hturn⟩
  · exact Or.inl ⟨by rw [hnone]; rfl, hstays⟩
  · exact Or.inr ⟨s', k, gone, new, by rw [hcb]; rfl, hturn⟩

end Callbacks

end SoftBts
