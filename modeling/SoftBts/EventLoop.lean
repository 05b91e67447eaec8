import SoftBts.DaemonTurn

/-! The main loop of the BTS. In every run of it each call of `socket_select_main` comes to its end,
unless a callback does not return, serves the sockets that select() has found ready, each once and in the
order of the list, and leaves the list, the slots, the connections and the descriptors in step. -/

namespace SoftBts

open IntrusiveList Reactive

/-! ### The loop -/

section Passes

variable {registered : List ℕ} {foreign : Int → Bool} {sets : FdSets} {xs : List Socket} {s : Daemon}
  {t : TrxTable} {others : Int → Bool} {g : Given}

/-- The callbacks are such that the loop serves them well. -/
theorem daemon_careful (hg : g.Sane) :
    (daemon g).CarefulIfBack fun sets s =>
      ∃ xs t others, Sound registered foreign sets xs s t others := by
  rintro sets s xs x ⟨xs', t, others, h⟩ hrep hx -
  obtain rfl : xs' = xs := h.unique hrep
  rcases serve_turn h hx hg with ⟨hnone, -⟩ | ⟨s', k, gone, new, hserve, hturn⟩
  · exact Or.inl hnone
  obtain ⟨t', others', hsound⟩ := hturn.sound
  refine Or.inr ⟨s', k, (if gone then xs'.erase x else xs') ++ new, hserve, ⟨_, t', others', hsound⟩,
    hsound.represents, ?_, fun y hy hany => ?_⟩
  · cases gone with
    | false => exact .kept new
    | true =>
        obtain rfl := hturn.counted rfl
        exact .own new
  · rcases hturn.mem_of_mem (List.nodup_cons.mp h.listed.nodup).2 hy with hnew | hold
    · have hready : (sets (s'.socket y).fd).any = true := (FdSets.any_clear_iff.mp hany).2
      rw [hturn.fresh y hnew] at hready
      cases hready
    · exact hold

/-- The sockets that are still to be served. -/
def toServe (sets : FdSets) (s : Daemon) (xs : List Socket) : List Socket :=
  xs.filter fun x => (sets (s.socket x).fd).any

theorem toServe_append (ys : List Socket) :
    toServe sets s (xs ++ ys) = toServe sets s xs ++ toServe sets s ys :=
  List.filter_append _ _

theorem toServe_cons {x : Socket} :
    toServe sets s (x :: xs) =
      if (sets (s.socket x).fd).any then x :: toServe sets s xs else toServe sets s xs :=
  List.filter_cons

theorem toServe_eq_nil (h : ∀ x ∈ xs, (sets (s.socket x).fd).any = false) : toServe sets s xs = [] :=
  List.filter_eq_nil_iff.mpr fun x hx => by simp [h x hx]

/-- The first socket that is ready is the first to be served. -/
theorem toServe_first {before after : List Socket} {x : Socket}
    (hbefore : ∀ y ∈ before, (sets (s.socket y).fd).any = false)
    (hx : (sets (s.socket x).fd).any = true) :
    toServe sets s (before ++ x :: after) = x :: toServe sets s after := by
  rw [toServe_append, toServe_eq_nil hbefore, toServe_cons, if_pos hx, List.nil_append]

/-- A service takes the first socket off those that are to be served. -/
theorem toServe_turn {before after : List Socket} {x : Socket} {s' : Daemon} {k : ℕ} {gone : Bool}
    {new : List Socket} (h : Sound registered foreign sets (before ++ x :: after) s t others)
    (hbefore : ∀ y ∈ before, (sets (s.socket y).fd).any = false)
    (hx : (sets (s.socket x).fd).any = true)
    (hturn : Turn registered foreign sets (before ++ x :: after) x s s' k gone new) :
    toServe sets s (before ++ x :: after) = x :: toServe (sets.clear (s.socket x).fd) s'
      ((if gone then (before ++ x :: after).erase x else before ++ x :: after) ++ new) := by
  set sets' := sets.clear (s.socket x).fd with hsets
  have hnodup := (List.nodup_cons.mp h.listed.nodup).2
  have hxbefore : x ∉ before := fun hmem =>
    List.disjoint_of_nodup_append hnodup hmem List.mem_cons_self
  have hxafter : x ∉ after := (List.nodup_cons.mp (List.nodup_append.mp hnodup).2.1).1
  have hxmem : x ∈ before ++ x :: after := List.mem_append_right before List.mem_cons_self
  -- the sockets that stay are ready as before
  have hsame : ∀ y ∈ before ++ x :: after, y ≠ x →
      (sets' (s'.socket y).fd).any = (sets (s.socket y).fd).any := by
    intro y hy hne
    rw [hturn.fds y hy fun _ => hne, Bool.eq_iff_iff, hsets, FdSets.any_clear_iff]
    exact and_iff_right fun heq => hne (h.fd_inj hy hxmem heq)
  have hfilterBefore : toServe sets' s' before = [] := by
    refine toServe_eq_nil fun y hy => ?_
    rw [hsame y (List.mem_append_left _ hy) fun heq => hxbefore (heq ▸ hy), hbefore y hy]
  have hfilterAfter : toServe sets' s' after = toServe sets s after := by
    refine List.filter_congr fun y hy => ?_
    exact hsame y (List.mem_append_right _ (List.mem_cons_of_mem x hy)) fun heq => hxafter (heq ▸ hy)
  have hfilterNew : toServe sets' s' new = [] := by
    refine toServe_eq_nil fun y hy => ?_
    rw [Bool.eq_false_iff]
    intro hany
    have hready := (FdSets.any_clear_iff.mp hany).2
    rw [hturn.fresh y hy] at hready
    cases hready
  rw [toServe_first hbefore hx]
  congr 1
  cases gone with
  | true =>
      rw [if_pos rfl, List.erase_append_right _ hxbefore, List.erase_cons_head, toServe_append,
        toServe_append, hfilterBefore, hfilterAfter, hfilterNew, List.nil_append, List.append_nil]
  | false =>
      have hfd := hturn.fds x hxmem fun hgone => Bool.noConfusion hgone
      have hdone : ¬ (sets' (s'.socket x).fd).any = true := by
        rw [hfd]
        exact fun hany => (FdSets.any_clear_iff.mp hany).1 rfl
      rw [if_neg Bool.false_ne_true, toServe_append, toServe_append, toServe_cons, if_neg hdone,
        hfilterBefore, hfilterAfter, hfilterNew, List.nil_append, List.append_nil]

/-- The descriptors that select() finds ready are open. -/
theorem Sound.ready (h : Sound registered foreign sets xs s t others) (c : SelectCall) :
    Sound registered foreign ((daemon g).readySets c s xs) xs s t others := by
  refine { h with set := fun fd hfd => ?_ }
  obtain ⟨x, hx, rfl⟩ := List.mem_map.mp (Program.fd_mem_of_ready hfd)
  exact h.opened hx

/-- What a call has done so far: everything is in step, it has served the first of the sockets that were
to be served, and the BTS has received messages. -/
def SoFar (registered : List ℕ) (foreign : Int → Bool) (sets : FdSets) (s : Daemon)
    (xs served : List Socket) (q : FdSets × Daemon) : Prop :=
  ∃ ys t others, Sound registered foreign q.1 ys q.2 t others ∧
    served ++ toServe q.1 q.2 ys = toServe sets s xs ∧
    ∃ cs, q.2.toSystem = receiver.after s.toSystem cs

theorem soFar_step (hg : g.Sane) {served : List Socket} {q q' : FdSets × Daemon}
    {before after : List Socket} {x : Socket} (h : SoFar registered foreign sets s xs served q)
    (hrep : Represents q.2.links .head (before ++ x :: after))
    (hbefore : ∀ y ∈ before, ((daemon g).flags q y).any = false)
    (hx : ((daemon g).flags q x).any = true)
    (hserve : ((daemon g).serve x q).map Prod.fst = some q') :
    SoFar registered foreign sets s xs (served ++ [x]) q' := by
  obtain ⟨ys, t, others, hsound, hserved, cs, hcs⟩ := h
  obtain rfl : ys = before ++ x :: after := hsound.unique hrep
  rw [show q = (q.1, q.2) from rfl] at hserve
  rcases serve_turn hsound (List.mem_append_right before List.mem_cons_self) hg with
    ⟨hnone, -⟩ | ⟨s', k, gone, new, hresult, hturn⟩
  · rw [hnone] at hserve
    cases hserve
  obtain ⟨t', others', hsound'⟩ := hturn.sound
  rw [hresult, Option.map_some, Option.some_inj] at hserve
  subst hserve
  refine ⟨_, t', others', hsound', ?_, ?_⟩
  · rw [List.append_assoc, ← hserved]
    exact congrArg (served ++ ·) (toServe_turn hsound hbefore hx hturn).symm
  · rcases hturn.received with hsame | ⟨c, hc⟩
    · exact ⟨cs, hsame.trans hcs⟩
    · refine ⟨cs ++ [c], hc.trans ?_⟩
      rw [hcs, Machine.after_append]
      rfl

/-- When no socket is ready any more, all that were to be served have been. -/
theorem SoFar.drained {served ys : List Socket} {q : FdSets × Daemon}
    (h : SoFar registered foreign sets s xs served q) (hys : Represents q.2.links .head ys)
    (hquiet : ∀ y ∈ ys, ((daemon g).flags q y).any = false) :
    served = toServe sets s xs ∧ (∃ t others, Sound registered foreign q.1 ys q.2 t others) ∧
      ∃ cs, q.2.toSystem = receiver.after s.toSystem cs := by
  obtain ⟨zs, t, others, hsound, hserved, hreceived⟩ := h
  obtain rfl : zs = ys := hsound.unique hys
  rw [toServe_eq_nil hquiet, List.append_nil] at hserved
  exact ⟨hserved, ⟨t, others, hsound⟩, hreceived⟩

/-- A socket whose callback does not return is the next of those that were to be served. -/
theorem SoFar.stuck (hg : g.Sane) {served : List Socket} {q : FdSets × Daemon} {x : Socket}
    (h : SoFar registered foreign sets s xs served q) (hstuck : (daemon g).StuckAt q x) :
    (∃ rest, toServe sets s xs = served ++ x :: rest) ∧ Stays g q.2 x := by
  obtain ⟨ys, t, others, hsound, hserved, -⟩ := h
  obtain ⟨⟨before, after, hrep, hbefore⟩, hx, hnone⟩ := hstuck
  obtain rfl : ys = before ++ x :: after := hsound.unique hrep
  rcases serve_turn hsound (List.mem_append_right before List.mem_cons_self) hg with
    ⟨-, hstays⟩ | ⟨s', k, gone, new, hserve, -⟩
  · refine ⟨⟨toServe q.1 q.2 after, ?_⟩, hstays⟩
    rw [← hserved, toServe_first hbefore hx]
  · rw [show q = (q.1, q.2) from rfl, hserve] at hnone
    cases hnone

/-- A call of `socket_select_main` does not come to its end: it has served some of the sockets that were
ready, and the callback of the next one does not return. -/
def StuckIn (i : SelectCall × Given) (s : Daemon) (xs : List Socket) : Prop :=
  ∃ served q x rest, (daemon i.2).HasServed ((daemon i.2).readySets i.1 s xs, s) served q ∧
    toServe ((daemon i.2).readySets i.1 s xs) s xs = served ++ x :: rest ∧ Stays i.2 q.2 x ∧
    ∀ m, xs.length ≤ m → (daemon i.2).socketSelectMain m i.1 s = none

/-- A call of `socket_select_main` serves the sockets that are ready in the order of the list, up to one
whose callback does not return. -/
theorem pass_serves (h : Sound registered foreign sets xs s t others) (hg : g.Sane) {c : SelectCall}
    (hrc : 0 ≤ c.rc) :
    (∃ n q ys t' others',
      (daemon g).HasServed ((daemon g).readySets c s xs, s)
        (toServe ((daemon g).readySets c s xs) s xs) q ∧
      Sound registered foreign q.1 ys q.2 t' others' ∧
      (∃ cs, q.2.toSystem = receiver.after s.toSystem cs) ∧
      ∀ m, n ≤ m → (daemon g).socketSelectMain m c s =
        some (q.2, decide (toServe ((daemon g).readySets c s xs) s xs ≠ []))) ∨
    StuckIn (c, g) s xs := by
  have hsoFar : ∀ {served q}, (daemon g).HasServed ((daemon g).readySets c s xs, s) served q →
      SoFar registered foreign ((daemon g).readySets c s xs) s xs served q := fun hserved =>
    hserved.invariant ⟨xs, t, others, h.ready c, rfl, [], rfl⟩
      fun _ _ _ _ _ _ hP hrep hbefore hx hserve => soFar_step hg hP hrep hbefore hx hserve
  have hmain : ∀ m, xs.length ≤ m → (daemon g).socketSelectMain m c s =
      (daemon g).callCallbacks m ((daemon g).readySets c s xs) s := fun m hm =>
    Program.socketSelectMain_of_ready hrc h.represents rfl hm
  rcases Program.callCallbacks_comesOut (daemon_careful hg) h.represents ⟨xs, t, others, h.ready c⟩
    fun _ => Program.fd_mem_of_ready with
    ⟨n, sets', served, s', hdrained, -, hrun⟩ | ⟨served, q, x, hserved, -, hstuck, hrun⟩
  · obtain ⟨ys, hys, hquiet⟩ := hdrained.listed
    obtain ⟨rfl, ⟨t', others', hsound⟩, hreceived⟩ := (hsoFar hdrained.serves).drained hys hquiet
    refine Or.inl ⟨max n xs.length, (sets', s'), ys, t', others', hdrained.serves, hsound, hreceived,
      fun m hm => ?_⟩
    rw [hmain m (by omega)]
    exact hrun m (by omega)
  · obtain ⟨⟨rest, hrest⟩, hstays⟩ := (hsoFar hserved).stuck hg hstuck
    exact Or.inr ⟨served, q, x, rest, hserved, hrest, hstays, fun m hm => (hmain m hm).trans (hrun m)⟩

end Passes

/-! ### Runs -/

/-- `while(1) socket_select_main(0)` in `main`, for the calls that are listed; the number bounds the
steps of each. -/
def mainLoop (n : ℕ) : List (SelectCall × Given) → Daemon → Option Daemon
  | [], s => some s
  | (c, g) :: is, s => ((daemon g).socketSelectMain n c s).bind fun r => mainLoop n is r.1

theorem mainLoop_append (n : ℕ) (is js : List (SelectCall × Given)) (s : Daemon) :
    mainLoop n (is ++ js) s = (mainLoop n is s).bind (mainLoop n js) := by
  induction is generalizing s with
  | nil => rfl
  | cons i is ih =>
      simp only [List.cons_append, mainLoop, Option.bind_assoc, ih]

/-- A descriptor is open. -/
def Daemon.opened (s : Daemon) (fd : Int) : Bool := (s.table.map fun t => t.opened fd).getD false

/-- The list, the slots, the connections and the descriptors between two calls. The list has each socket
once: those of the first four that were registered, the slots that are occupied, and the active
connections, each of which is noted once. The open descriptors are those of the list, each of which
belongs to one socket, and the foreign ones. -/
structure Orderly (registered : List ℕ) (foreign : Int → Bool) (s : Daemon) (xs : List Socket) :
    Prop where
  listed : Represents s.links .head xs
  first : ∀ k ≤ serverSocket, .other k ∈ xs ↔ k ∈ registered
  slots : ∀ slot, .trx slot ∈ xs ↔ (s.socket (.trx slot)).fd ≠ -1
  clients : ∀ k, k ∈ s.connections ↔ serverSocket < k ∧ .other k ∈ xs
  nodup : s.connections.Nodup
  opened : ∀ d, s.opened d = true ↔ foreign d = true ∨ ∃ x ∈ xs, (s.socket x).fd = d
  distinct : ∀ x ∈ xs, ∀ y ∈ xs, (s.socket x).fd = (s.socket y).fd → x = y
  own : ∀ x ∈ xs, foreign (s.socket x).fd = false

/-- The BTS before the first call: some of the first four sockets are registered, with open descriptors
of their own, and nothing is connected. -/
structure Booted (s : Daemon) (registered : List ℕ) (foreign : Int → Bool) : Prop where
  table : ∃ links, s.table = some (.start links fun d =>
      foreign d || registered.any fun k => s.fd k = d) ∧
    Represents links .head (registered.map .other)
  first : ∀ k ∈ registered, k ≤ serverSocket
  distinct : ∀ j ∈ registered, ∀ k ∈ registered, s.fd j = s.fd k → j = k
  own : ∀ k ∈ registered, foreign (s.fd k) = false
  connections : s.connections = []

/-- The sockets in the order in which `telnet_init`, `socket_init` for the two links, and
`trx_socket_init` register them. -/
def bootSockets : List ℕ := [serverSocket, omlSocket, rslSocket, trxSocket]

/-- The BTS before the first call, when everything before it in `main` has succeeded. -/
def boot (fd : ℕ → Int) (foreign : Int → Bool) : Option Daemon :=
  ((bootSockets.map Socket.other).foldlM (fun links x => Links.addTail links x Socket.head)
      (Links.init Socket.head)).map fun links =>
    { System.init with
      table := some (.start links fun d => foreign d || bootSockets.any fun k => fd k = d)
      fd := fd
      type := fun _ => ⟨true, false, false⟩
      connections := [] }

theorem boot_booted {fd : ℕ → Int} {foreign : Int → Bool}
    (hfd : ∀ j ∈ bootSockets, ∀ k ∈ bootSockets, fd j = fd k → j = k)
    (hown : ∀ k ∈ bootSockets, foreign (fd k) = false) :
    ∃ s, boot fd foreign = some s ∧ Booted s bootSockets foreign := by
  have hnodup : (Socket.head :: ([] ++ bootSockets.map Socket.other)).Nodup := by decide
  obtain ⟨links, hlinks, hrep⟩ :=
    foldlM_addTail_represents (init_represents Socket.head) hnodup
  exact ⟨_, congrArg (Option.map _) hlinks, ⟨links, rfl, hrep⟩, by decide, hfd, hown, rfl⟩

section Runs

variable {registered : List ℕ} {foreign : Int → Bool} {sets : FdSets} {xs : List Socket} {s : Daemon}
  {t : TrxTable} {others : Int → Bool}

theorem Sound.orderly (h : Sound registered foreign sets xs s t others) :
    Orderly registered foreign s xs where
  listed := h.represents
  first := h.outside.first
  slots slot := by
    rw [fd_trx h.table]
    exact h.mem_iff slot
  clients := h.outside.clients
  nodup := h.outside.nodup
  opened d := by
    rw [Daemon.opened, h.table]
    exact h.opened_iff d
  distinct x hx y hy := h.fd_inj hx hy
  own x hx := h.own hx

theorem Booted.sound (h : Booted s registered foreign) :
    ∃ t others, Sound registered foreign (fun _ => Flags.none) (registered.map .other) s t others := by
  obtain ⟨links, htable, hlinks⟩ := h.table
  have hmem : ∀ k, Socket.other k ∈ registered.map Socket.other ↔ k ∈ registered := by simp
  refine ⟨_, _, htable, (TrxTable.inStep_start hlinks _).forget, hlinks, ?_,
    fun _ hfd => Bool.noConfusion hfd⟩
  refine ⟨fun k _ => hmem k, fun k => ?_, ?_, fun j k hj hk => ?_, fun d => ?_, fun k hk => ?_⟩
  · rw [h.connections, hmem]
    exact iff_of_false List.not_mem_nil fun hk => absurd (h.first k hk.2) (Nat.not_le.mpr hk.1)
  · rw [h.connections]
    exact List.nodup_nil
  · exact h.distinct j ((hmem j).mp hj) k ((hmem k).mp hk)
  · rw [Bool.or_eq_true, List.any_eq_true]
    refine or_congr_right (exists_congr fun k => ?_)
    rw [hmem, decide_eq_true_iff]
  · exact h.own k ((hmem k).mp hk)

/-- One call keeps everything in step, whether select() fails or not, or a callback does not return. -/
theorem pass_sound (h : Sound registered foreign sets xs s t others) {i : SelectCall × Given}
    (hg : i.2.Sane) :
    (∃ n s' sets' ys t' others', Sound registered foreign sets' ys s' t' others' ∧
      (∃ cs, s'.toSystem = receiver.after s.toSystem cs) ∧
      ∀ m, n ≤ m → mainLoop m [i] s = some s') ∨ StuckIn i s xs := by
  by_cases hrc : i.1.rc < 0
  · refine Or.inl ⟨0, s, sets, xs, t, others, h, ⟨[], rfl⟩, fun m _ => ?_⟩
    rw [mainLoop, Program.socketSelectMain, if_pos hrc]
    rfl
  · rcases pass_serves h hg (Int.not_lt.mp hrc) with
      ⟨n, q, ys, t', others', -, hsound, hreceived, hrun⟩ | hstuck
    · refine Or.inl ⟨n, q.2, q.1, ys, t', others', hsound, hreceived, fun m hm => ?_⟩
      rw [mainLoop, hrun m hm]
      rfl
    · exact Or.inr hstuck

theorem mainLoop_sound (is : List (SelectCall × Given)) (hg : ∀ i ∈ is, i.2.Sane)
    (h : Sound registered foreign sets xs s t others) :
    ∃ pre post n s' sets' ys t' others', is = pre ++ post ∧
      Sound registered foreign sets' ys s' t' others' ∧
      (∃ cs, s'.toSystem = receiver.after s.toSystem cs) ∧
      (∀ m, n ≤ m → mainLoop m pre s = some s') ∧ ∀ i ∈ post.head?, StuckIn i s' ys := by
  induction is generalizing sets xs s t others with
  | nil =>
      exact ⟨[], [], 0, s, sets, xs, t, others, rfl, h, ⟨[], rfl⟩, fun _ _ => rfl,
        fun _ hi => by cases hi⟩
  | cons i is ih =>
      obtain ⟨hi, his⟩ := List.forall_mem_cons.mp hg
      rcases pass_sound h hi with ⟨n₁, s₁, sets₁, ys, t₁, others₁, h₁, ⟨cs, hcs⟩, hrun₁⟩ | hstuck
      · obtain ⟨pre, post, n₂, s₂, sets₂, zs, t₂, others₂, rfl, h₂, ⟨ds, hds⟩, hrun₂, hstuck⟩ :=
          ih his h₁
        refine ⟨i :: pre, post, max n₁ n₂, s₂, sets₂, zs, t₂, others₂, rfl, h₂, ⟨cs ++ ds, ?_⟩,
          fun m hm => ?_, hstuck⟩
        · rw [Machine.after_append, ← hcs, hds]
        · rw [← List.singleton_append, mainLoop_append, hrun₁ m (by omega)]
          exact hrun₂ m (by omega)
      · refine ⟨[], i :: is, 0, s, sets, xs, t, others, rfl, h, ⟨[], rfl⟩, fun _ _ => rfl,
          fun j hj => ?_⟩
        obtain rfl := Option.some.inj hj
        exact hstuck

/-- A transceiver connects, a telnet session is opened when there is memory for it, and PINGs are
received. -/
def Given.plain : Given where
  env := fun _ => .plain
  results := fun _ => ⟨.octets 0x00 [0x01, protoSoftbts], .octets msgPing []⟩
  attempt := fun s => ⟨if s.opened 9 then -1 else 9, 0, 0, 0⟩
  newcomer := fun s =>
    ⟨if s.opened 10 = true ∨ (s.links.next (.other 4)).isSome = true then -1 else 10, 0, 0, 0⟩
  place := fun _ => 4
  refused := false
  session := fun _ => some ⟨true, Flags.none⟩

theorem Given.plain_sane : Given.plain.Sane where
  attempt := by
    intro s
    cases htable : s.table with
    | none => trivial
    | some t =>
        refine ⟨fun hsd => ?_, Int.le_refl 0, Int.le_refl 0, Int.le_refl 0⟩
        have hopened : s.opened = t.opened := by
          funext d
          rw [Daemon.opened, htable]
          rfl
        simp only [Given.plain, hopened] at hsd ⊢
        split_ifs at hsd ⊢ with hopen
        · omega
        · simpa using hopen
  newcomer := by
    intro s t htable hsd
    have hopened : s.opened = t.opened := by
      funext d
      rw [Daemon.opened, htable]
      rfl
    simp only [Given.plain, hopened] at hsd ⊢
    split_ifs at hsd ⊢ with hopen
    · omega
    · simpa using (not_or.mp hopen).1
  getfl _ := Int.le_refl 0
  setfl _ := Int.le_refl 0
  place := by
    intro s xs hrep hsd
    refine ⟨show 3 < 4 by decide, fun hmem => ?_⟩
    obtain ⟨ys, zs, rfl⟩ := List.append_of_mem hmem
    have hnext : (s.links.next (.other 4)).isSome = true := by
      rw [show s.links.next (.other 4) = _ from hrep.next]
      cases zs <;> rfl
    simp only [Given.plain, hnext, or_true, if_true] at hsd
    omega

/-- The BTS with its sockets on the first descriptors behind the standard ones. -/
theorem boot_plain :
    ∃ s, boot (fun k => k + 3) (fun d => d < 3) = some s ∧ Booted s bootSockets fun d => d < 3 := by
  have hfd : ∀ j ∈ bootSockets, ∀ k ∈ bootSockets, (j : Int) + 3 = k + 3 → j = k := by decide
  exact boot_booted hfd (by decide)

end Runs

end SoftBts
