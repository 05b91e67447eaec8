import SoftBts.SelectLoop
import SoftBts.SlotRelease

/-! The BTS as its main loop sees it: the sockets of the two links, of the transceivers and of the telnet
sessions with the callbacks that are registered for them, and what is in step about their descriptors:
the slots with the list of sockets, and the sockets outside the slots with the active connections. -/

namespace SoftBts

open IntrusiveList Reactive

/-! ### The program -/

/-- The sockets outside `trx`; the connections of telnet sessions come behind them. -/
def omlSocket : ℕ := 0
def rslSocket : ℕ := 1
def trxSocket : ℕ := 2
def serverSocket : ℕ := 3

/-- The BTS with the sockets outside `trx` and `active_connections`. -/
structure Daemon extends Station where
  fd : ℕ → Int
  type : ℕ → Flags
  connections : List ℕ

/-- What a telnet session comes to in `client_data`: it is closed, or its socket waits for something. -/
structure Session where
  closed : Bool
  type : Flags

/-- What the callbacks are given from outside: what recv() reports, what the system calls of
`accept_connection` and of `telnet_new_connection` give, the memory for a new session and whether
`vty_create` refuses it, and what the sessions come to, where `vty_read` returns. -/
structure Given where
  env : Socket → Env
  results : Socket → Results
  attempt : Daemon → Attempt
  newcomer : Daemon → Attempt
  place : Daemon → ℕ
  refused : Bool
  session : ℕ → Option Session

namespace Daemon

def links (s : Daemon) : Links Socket :=
  match s.table with
  | some t => t.links
  | none => Links.init .head

/-- The sockets of the slots wait for data to read. -/
def socket (s : Daemon) : Socket → SocketFd
  | .head => ⟨-1, Flags.none⟩
  | .trx slot => ⟨(s.table.map fun t => t.fd slot).getD (-1), ⟨true, false, false⟩⟩
  | .other k => ⟨s.fd k, s.type k⟩

def withTable (s : Daemon) (t : TrxTable) : Daemon := { s with table := some t }

/-- `receive_msg` for a socket. There is no result where it does not return: it hangs, ends the program,
or goes beyond an array. -/
def receive (g : Given) (x : Socket) (sd : Link) (s : Daemon) : Option Daemon :=
  let r := (receiver.step s.toSystem ⟨g.results x, g.env x, sd⟩).1
  if r.stop.isSome then none else some { s with toSystem := r }

/-- `oml_connection` and `rsl_connection` -/
def connection (g : Given) (k : ℕ) (sd : Link) (s : Daemon) : Option Daemon :=
  if (s.type k).read then s.receive g (.other k) sd else some s

/-- `trx_cb`, with the number of sockets it takes out of the list. -/
def trxCb (g : Given) (slot : Fin 4) (f : Flags) (t : TrxTable) (s : Daemon) : Option (Daemon × ℕ) :=
  if f = ⟨true, false, false⟩ then
    (s.receive g (.trx slot) (.trx slot)).bind fun r =>
      let rc := ((g.results (.trx slot)).reading (s.buffer (.trx slot))).rc
      (t.trxCb slot rc).map fun u => (r.withTable u.1, if rc = 0 then 1 else 0)
  else some (s, 0)

/-- `vty_close`, which calls `telnet_close_client`; both close the descriptor. The connection is freed,
but its callers still find there that its session is gone. -/
def telnetCloseClient (k : ℕ) (t : TrxTable) (s : Daemon) : Option (Daemon × ℕ) :=
  (t.links.del (.other k)).map fun links =>
    ({ s with
        table := some { t.close (s.fd k) with links := links }
        connections := s.connections.erase k }, 1)

/-- `telnet_new_connection`, which does not look at what `socket_register_fd` returns. A session that
`vty_create` refuses is closed by it. -/
def telnetNewConnection (g : Given) (t : TrxTable) (s : Daemon) : Option (Daemon × ℕ) :=
  let a := g.newcomer s
  let k := g.place s
  if a.sd < 0 then some (s, 0)
  else
    (if a.getfl < 0 ∨ a.setfl < 0 then some t.links else t.links.addTail (.other k) .head).bind
      fun links =>
        let t' : TrxTable := { t with links := links, opened := Function.update t.opened a.sd true }
        let s' : Daemon := { s with
          fd := Function.update s.fd k a.sd
          type := Function.update s.type k ⟨true, true, false⟩
          connections := s.connections ++ [k] }
        if g.refused then s'.telnetCloseClient k t' else some (s'.withTable t', 0)

/-- `client_data` -/
def clientData (g : Given) (k : ℕ) (t : TrxTable) (s : Daemon) : Option (Daemon × ℕ) :=
  (g.session k).bind fun w =>
    if w.closed then s.telnetCloseClient k t
    else some ({ s with type := Function.update s.type k w.type }, 0)

/-- The callback of a socket, with the number of sockets it takes out of the list. -/
def cb (g : Given) (x : Socket) (f : Flags) (s : Daemon) : Option (Daemon × ℕ) :=
  s.table.bind fun t =>
    match x with
    | .head => none
    | .trx slot => s.trxCb g slot f t
    | .other k =>
        if k = omlSocket then (s.connection g k .oml).map fun s => (s, 0)
        else if k = rslSocket then (s.connection g k .rsl).map fun s => (s, 0)
        else if k = trxSocket then
          (t.acceptConnection (g.attempt s)).map fun u => (s.withTable u.1, 0)
        else if k = serverSocket then s.telnetNewConnection g t
        else s.clientData g k t

end Daemon

/-- A callback that does not return: it is in `receive_msg` or in `vty_read`. -/
inductive Stays (g : Given) (s : Daemon) : Socket → Prop where
  | oml (h : s.receive g (.other omlSocket) .oml = none) : Stays g s (.other omlSocket)
  | rsl (h : s.receive g (.other rslSocket) .rsl = none) : Stays g s (.other rslSocket)
  | trx (slot : Fin 4) (h : s.receive g (.trx slot) (.trx slot) = none) : Stays g s (.trx slot)
  | client (k : ℕ) (hk : serverSocket < k) (h : g.session k = none) : Stays g s (.other k)

/-- What `socket_select_main` works on. The program adds no timer. -/
def daemon (g : Given) : Program Daemon Socket where
  head := .head
  links := Daemon.links
  socket := Daemon.socket
  cb := Daemon.cb g
  updateTimers := some

/-! ### The table, whatever was accepted before -/

namespace TrxTable

/-- The table without the descriptors that were accepted so far. -/
def forget (t : TrxTable) : TrxTable := { t with accepted := [] }

variable {others : Int → Bool} {t t' : TrxTable} {xs : List Socket}

theorem InStep.forget (h : t.InStep others) : t.forget.InStep others :=
  ⟨h.listed, h.distinct, h.opened, h.own, List.forall_mem_nil _⟩

/-- The slots of the list are the occupied ones. -/
theorem InStep.mem_iff (h : t.forget.InStep others) (hxs : Represents t.links .head xs)
    (slot : Fin 4) : .trx slot ∈ xs ↔ t.fd slot ≠ -1 := by
  obtain ⟨ys, hys, hmem⟩ := h.listed
  rw [hxs.unique hys]
  exact hmem slot

/-- Links that list other sockets than before, but the same ones of the slots. -/
theorem InStep.relinked (h : t.forget.InStep others) (hfd : t'.fd = t.fd)
    (hopened : t'.opened = t.opened) (hxs : Represents t'.links .head xs)
    (hmem : ∀ slot, .trx slot ∈ xs ↔ t.fd slot ≠ -1) : t'.forget.InStep others := by
  refine ⟨⟨xs, hxs, fun slot => ?_⟩, fun i j => ?_, fun d => ?_, fun slot => ?_, List.forall_mem_nil _⟩
  · show _ ↔ t'.fd slot ≠ -1
    rw [hfd]
    exact hmem slot
  · show t'.fd i ≠ -1 → t'.fd i = t'.fd j → i = j
    rw [hfd]
    exact h.distinct i j
  · show t'.opened d = true ↔ others d = true ∨ ∃ slot, t'.fd slot ≠ -1 ∧ t'.fd slot = d
    rw [hopened, hfd]
    exact h.opened d
  · show t'.fd slot ≠ -1 → others (t'.fd slot) = false
    rw [hfd]
    exact h.own slot

/-- A descriptor that is opened outside the slots. -/
theorem InStep.openedOther (h : t.forget.InStep others) {sd : Int} (hfresh : t.opened sd = false) :
    ({ t with opened := Function.update t.opened sd true } : TrxTable).forget.InStep
      (Function.update others sd true) := by
  obtain ⟨-, hslots⟩ := others_of_closed h hfresh
  refine ⟨h.listed, h.distinct, fun d => ?_, fun slot hslot => ?_, List.forall_mem_nil _⟩
  · show Function.update t.opened sd true d = true ↔ _
    by_cases hd : d = sd
    · subst hd
      simp
    · rw [Function.update_of_ne hd, Function.update_of_ne hd]
      exact h.opened d
  · show Function.update others sd true (t.forget.fd slot) = false
    rw [Function.update_of_ne (hslots slot hslot)]
    exact h.own slot hslot

/-- A descriptor outside the slots that is closed. -/
theorem InStep.closedOther (h : t.forget.InStep others) {sd : Int} (hsd : others sd = true) :
    (t.close sd).forget.InStep (Function.update others sd false) := by
  have hslots : ∀ slot, t.fd slot ≠ -1 → t.fd slot ≠ sd := by
    rintro slot hslot rfl
    have hown : others (t.fd slot) = false := h.own slot hslot
    rw [hsd] at hown
    cases hown
  refine ⟨h.listed, h.distinct, fun d => ?_, fun slot hslot => ?_, List.forall_mem_nil _⟩
  · show Function.update t.opened sd false d = true ↔ _
    by_cases hd : d = sd
    · subst hd
      rw [Function.update_self, Function.update_self]
      refine iff_of_false Bool.false_ne_true ?_
      rintro (hfalse | ⟨slot, hslot, heq⟩)
      · cases hfalse
      · exact hslots slot hslot heq
    · rw [Function.update_of_ne hd, Function.update_of_ne hd]
      exact h.opened d
  · show Function.update others sd false (t.fd slot) = false
    rw [Function.update_of_ne (hslots slot hslot)]
    exact h.own slot hslot

/-- A connection attempt that is granted what it asks for changes nothing but what was accepted, or
fills a free slot and puts its socket at the end of the list. -/
theorem acceptConnection_cases {a : Attempt} (hgranted : Granted (some t) (.connect a)) :
    (∃ u, t.acceptConnection a = some u ∧ u.1.forget = t.forget) ∨
      ∃ i, t.fd i = -1 ∧ 0 ≤ a.sd ∧ t.acceptConnection a =
        (t.links.addTail (.trx i) .head).map fun links =>
          ({ (t.accept a.sd |>.setFd i a.sd) with links := links }, 0) := by
  obtain ⟨hfresh, hgetfl, hsetfl, hwritten⟩ := hgranted
  rw [acceptConnection]
  by_cases hsd : a.sd < 0
  · refine Or.inl ⟨(t, a.sd), ?_, rfl⟩
    cases t.findEmptyRecord <;> exact if_pos hsd
  · cases hempty : t.findEmptyRecord with
    | none =>
        refine Or.inl ⟨_, if_neg hsd, ?_⟩
        simp only [forget, accept, close, Function.update_idem]
        rw [← hfresh (by omega), Function.update_eq_self]
    | some i =>
        refine Or.inr ⟨i, fd_of_findIndex hempty, by omega, ?_⟩
        simp only [if_neg hsd, socketRegisterFd, if_neg (Int.not_lt.mpr hgetfl),
          if_neg (Int.not_lt.mpr hsetfl), Option.map_map]
        show Option.map _ (t.links.addTail (.trx i) .head) = _
        congr 1
        funext links
        simp [Int.not_lt.mpr hwritten]

/-- The table that a free slot of an accepted transceiver makes. -/
theorem inStep_filled (h : t.forget.InStep others) (hxs : Represents t.links .head xs) {sd : Int}
    (hsd : 0 ≤ sd) (hfresh : t.opened sd = false) {i : Fin 4} (hi : t.fd i = -1) :
    ∃ links, t.links.addTail (.trx i) .head = some links ∧
      Represents links .head (xs ++ [.trx i]) ∧
      ({ (t.accept sd |>.setFd i sd) with links := links } : TrxTable).forget.InStep others := by
  have hnot : Socket.trx i ∉ Socket.head :: xs := by
    rw [List.mem_cons, not_or, h.mem_iff hxs]
    exact ⟨Socket.noConfusion, not_not.mpr hi⟩
  obtain ⟨links, hlinks, hrep⟩ := addTail_represents hxs hnot
  refine ⟨links, hlinks, hrep, ?_⟩
  obtain ⟨t', ht', hstep⟩ := inStep_register h hsd hfresh hi (Int.le_refl 0) (Int.le_refl 0)
  rw [socketRegisterFd, if_neg (by decide), if_neg (by decide)] at ht'
  have hadd : (t.forget.accept sd |>.setFd i sd).links.addTail (.trx i) .head = some links := hlinks
  rw [hadd, Option.map_some, Option.some_inj, Prod.mk.injEq] at ht'
  obtain ⟨rfl, -⟩ := ht'
  exact hstep.forget

/-- `trx_cb` for an occupied slot, with what it does to the list. -/
theorem trxCb_cases (h : t.forget.InStep others) (hxs : Represents t.links .head xs) {slot : Fin 4}
    (hslot : t.fd slot ≠ -1) (rc : Int) :
    ∃ t', t.trxCb slot rc = some (t', rc) ∧ t'.forget.InStep others ∧
      if rc = 0 then
        Represents t'.links .head (xs.erase (.trx slot)) ∧
          t'.fd = Function.update t.fd slot (-1) ∧
          t'.opened = Function.update t.opened (t.fd slot) false
      else t' = t := by
  have hindex : t.findIndex (t.fd slot) = some slot := findIndex_of_inStep h hslot
  rw [trxCb, hindex]
  split_ifs with hrc
  · obtain ⟨links, hlinks, hrep⟩ := del_represents hxs ((h.mem_iff hxs slot).mpr hslot)
    obtain ⟨t', ht', hstep, -⟩ := inStep_release h hslot
    have hmap : Option.map _ (t.links.del (.trx slot)) = some t' := ht'
    rw [hlinks] at hmap
    obtain rfl := Option.some.inj hmap
    refine ⟨{ (t.close (t.fd slot) |>.setFd slot (-1)) with links := links }, ?_, hstep.forget, hrep,
      rfl, rfl⟩
    show Option.map _ (Option.map _ (t.links.del (.trx slot))) = _
    rw [hlinks]
    rfl
  · exact ⟨t, rfl, h, rfl⟩

end TrxTable

/-! ### The sockets outside the slots -/

/-- The listed sockets outside the slots: the first four are those that were registered before the loop,
the others are the active connections; and each has a descriptor of its own. These, and some that the
loop has nothing to do with, are the open descriptors outside the slots. -/
structure Outside (registered : List ℕ) (foreign : Int → Bool) (xs : List Socket) (s : Daemon)
    (others : Int → Bool) : Prop where
  first : ∀ k ≤ serverSocket, .other k ∈ xs ↔ k ∈ registered
  clients : ∀ k, k ∈ s.connections ↔ serverSocket < k ∧ .other k ∈ xs
  nodup : s.connections.Nodup
  distinct : ∀ j k, .other j ∈ xs → .other k ∈ xs → s.fd j = s.fd k → j = k
  owners : ∀ d, others d = true ↔ foreign d = true ∨ ∃ k, .other k ∈ xs ∧ s.fd k = d
  own : ∀ k, .other k ∈ xs → foreign (s.fd k) = false

namespace Outside

variable {registered : List ℕ} {foreign : Int → Bool} {xs ys : List Socket} {s s' : Daemon}
  {others : Int → Bool}

theorem owned (h : Outside registered foreign xs s others) {k : ℕ} (hk : .other k ∈ xs) :
    others (s.fd k) = true :=
  (h.owners _).mpr (Or.inr ⟨k, hk, rfl⟩)

/-- Only the sockets of the list matter. -/
theorem congr (h : Outside registered foreign xs s others)
    (hmem : ∀ k, Socket.other k ∈ ys ↔ Socket.other k ∈ xs)
    (hfd : ∀ k, .other k ∈ xs → s'.fd k = s.fd k) (hconnections : s'.connections = s.connections) :
    Outside registered foreign ys s' others where
  first k hk := (hmem k).trans (h.first k hk)
  clients k := by rw [hconnections, hmem, h.clients]
  nodup := hconnections ▸ h.nodup
  distinct j k hj hk heq := by
    rw [hfd j ((hmem j).mp hj), hfd k ((hmem k).mp hk)] at heq
    exact h.distinct j k ((hmem j).mp hj) ((hmem k).mp hk) heq
  owners d := by
    rw [h.owners]
    refine or_congr_right (exists_congr fun k => ?_)
    rw [hmem]
    exact and_congr_right fun hk => by rw [hfd k hk]
  own k hk := by
    rw [hfd k ((hmem k).mp hk)]
    exact h.own k ((hmem k).mp hk)

/-- A new connection leaves the descriptors of the list as they are. -/
theorem fd_listed {k : ℕ} (hnew : .other k ∉ xs) {sd : Int} (hfd : s'.fd = Function.update s.fd k sd)
    {j : ℕ} (hj : .other j ∈ xs) : s'.fd j = s.fd j := by
  rw [hfd]
  refine Function.update_of_ne ?_ _ _
  rintro rfl
  exact hnew hj

/-- A new connection with a descriptor that was not open. -/
theorem opened (h : Outside registered foreign xs s others) {k : ℕ} (hk : serverSocket < k)
    (hnew : .other k ∉ xs) {sd : Int} (hsd : others sd = false)
    (hfd : s'.fd = Function.update s.fd k sd) (hconnections : s'.connections = s.connections ++ [k]) :
    Outside registered foreign (xs ++ [.other k]) s' (Function.update others sd true) := by
  have hmem : ∀ j, .other j ∈ xs ++ [Socket.other k] ↔ .other j ∈ xs ∨ j = k := by
    intro j
    rw [List.mem_append, List.mem_singleton, Socket.other.injEq]
  have hfdk : s'.fd k = sd := by rw [hfd, Function.update_self]
  have hold : ∀ j, .other j ∈ xs → s'.fd j = s.fd j := fun j hj => fd_listed hnew hfd hj
  have hother : ∀ j, .other j ∈ xs → s.fd j ≠ sd := by
    rintro j hj rfl
    rw [h.owned hj] at hsd
    cases hsd
  refine ⟨fun j hj => ?_, fun j => ?_, ?_, fun i j hi hj heq => ?_, fun d => ?_, fun j hj => ?_⟩
  · rw [hmem, ← h.first j hj]
    exact or_iff_left (Nat.ne_of_lt (Nat.lt_of_le_of_lt hj hk))
  · rw [hconnections, List.mem_append, List.mem_singleton, h.clients, hmem, and_or_left]
    exact or_congr_right ⟨fun hj => ⟨hj ▸ hk, hj⟩, And.right⟩
  · rw [hconnections]
    refine List.nodup_append.mpr ⟨h.nodup, List.nodup_singleton k, fun i hi j hj heq => ?_⟩
    rw [List.mem_singleton.mp hj] at heq
    exact hnew (heq ▸ ((h.clients i).mp hi).2)
  · rcases (hmem i).mp hi with hi | hik <;> rcases (hmem j).mp hj with hj | hjk
    · rw [hold i hi, hold j hj] at heq
      exact h.distinct i j hi hj heq
    · rw [hold i hi, hjk, hfdk] at heq
      exact absurd heq (hother i hi)
    · rw [hold j hj, hik, hfdk] at heq
      exact absurd heq.symm (hother j hj)
    · exact hik.trans hjk.symm
  · by_cases hd : d = sd
    · subst hd
      rw [Function.update_self]
      exact iff_of_true rfl (Or.inr ⟨k, (hmem k).mpr (Or.inr rfl), hfdk⟩)
    · rw [Function.update_of_ne hd, h.owners]
      refine or_congr_right ⟨fun ⟨j, hj, hjd⟩ => ?_, fun ⟨j, hj, hjd⟩ => ?_⟩
      · exact ⟨j, (hmem j).mpr (Or.inl hj), (hold j hj).trans hjd⟩
      · rcases (hmem j).mp hj with hj | rfl
        · exact ⟨j, hj, (hold j hj).symm.trans hjd⟩
        · exact absurd (hjd.symm.trans hfdk) hd
  · rcases (hmem j).mp hj with hj | rfl
    · rw [hold j hj]
      exact h.own j hj
    · rw [hfdk, Bool.eq_false_iff]
      intro hforeign
      rw [(h.owners sd).mpr (Or.inl hforeign)] at hsd
      cases hsd

/-- A connection that is closed. -/
theorem closed (h : Outside registered foreign xs s others) (hxs : xs.Nodup) {k : ℕ}
    (hk : serverSocket < k) (hlisted : .other k ∈ xs) (hfd : s'.fd = s.fd)
    (hconnections : s'.connections = s.connections.erase k) :
    Outside registered foreign (xs.erase (.other k)) s' (Function.update others (s.fd k) false) := by
  have hmem : ∀ j, .other j ∈ xs.erase (.other k) ↔ j ≠ k ∧ .other j ∈ xs := by
    intro j
    rw [hxs.mem_erase_iff, Ne, Socket.other.injEq]
  refine ⟨fun j hj => ?_, fun j => ?_, ?_, fun i j hi hj heq => ?_, fun d => ?_, fun j hj => ?_⟩
  · rw [hmem, ← h.first j hj]
    exact and_iff_right (Nat.ne_of_lt (Nat.lt_of_le_of_lt hj hk))
  · rw [hconnections, h.nodup.mem_erase_iff, h.clients, hmem]
    exact and_left_comm
  · rw [hconnections]
    exact h.nodup.erase k
  · rw [hfd] at heq
    exact h.distinct i j ((hmem i).mp hi).2 ((hmem j).mp hj).2 heq
  · rw [hfd]
    by_cases hd : d = s.fd k
    · subst hd
      rw [Function.update_self]
      refine iff_of_false Bool.false_ne_true ?_
      rintro (hforeign | ⟨j, hj, heq⟩)
      · rw [h.own k hlisted] at hforeign
        cases hforeign
      · exact ((hmem j).mp hj).1 (h.distinct j k ((hmem j).mp hj).2 hlisted heq)
    · rw [Function.update_of_ne hd, h.owners]
      refine or_congr_right (exists_congr fun j => ?_)
      rw [hmem]
      refine ⟨fun ⟨hj, hjd⟩ => ⟨⟨?_, hj⟩, hjd⟩, fun ⟨⟨_, hj⟩, hjd⟩ => ⟨hj, hjd⟩⟩
      rintro rfl
      exact hd hjd.symm
  · rw [hfd]
    exact h.own j ((hmem j).mp hj).2

end Outside

end SoftBts
