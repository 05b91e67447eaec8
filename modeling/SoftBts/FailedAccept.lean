import SoftBts.TrxTable

/-! A call of `accept_connection` that fails (`trx_init.c`), in any table whose occupied slots are the
registered ones. The slot is filled before the socket is registered and before the greeting is
written, and neither exit gives it back. -/

namespace SoftBts

open IntrusiveList

/-- fcntl() lets the socket be registered, and write() takes the greeting. -/
def Attempt.Welcome (a : Attempt) : Prop := 0 ≤ a.getfl ∧ 0 ≤ a.setfl ∧ 0 ≤ a.written

namespace TrxTable

/-- The occupied slots are the ones whose sockets are in the list. -/
def Registered (t : TrxTable) : Prop :=
  ∃ sockets, Represents t.links .head sockets ∧ ∀ slot, .trx slot ∈ sockets ↔ t.fd slot ≠ -1

/-- If the call fails, the slots and the list are as before, and the descriptor that was accepted is
closed and in no slot. -/
def LeavesNoTrace (t : TrxTable) (a : Attempt) : Prop :=
  ∀ t' rc, t.acceptConnection a = some (t', rc) → rc < 0 →
    t'.fd = t.fd ∧ t'.links = t.links ∧
      (0 ≤ a.sd → t'.opened a.sd = false ∧ ∀ slot, t'.fd slot ≠ a.sd)

variable {t : TrxTable} {a : Attempt} {i : Fin 4}

theorem findEmptyRecord_eq_none_iff : t.findEmptyRecord = none ↔ ∀ slot, t.fd slot ≠ -1 := by
  simp [findEmptyRecord, List.find?_eq_none]

/-! ### What each exit leaves -/

/-- No slot is free. -/
theorem acceptConnection_full (hfull : t.findEmptyRecord = none) :
    t.acceptConnection a =
      if a.sd < 0 then some (t, a.sd) else some (t.accept a.sd |>.close a.sd, 0) := by
  rw [acceptConnection, hfull]

theorem acceptConnection_refused (hsd : a.sd < 0) : t.acceptConnection a = some (t, a.sd) := by
  rw [acceptConnection]
  cases t.findEmptyRecord with
  | none => exact if_pos hsd
  | some i => exact if_pos hsd

/-- A slot is free, and `socket_register_fd` has returned. -/
theorem acceptConnection_free (hi : t.findEmptyRecord = some i) (hsd : 0 ≤ a.sd) {t' : TrxTable}
    {rc : Int}
    (hregister : (t.accept a.sd |>.setFd i a.sd |>.socketRegisterFd i a.getfl a.setfl) =
      some (t', rc)) :
    t.acceptConnection a =
      if rc < 0 then some (t'.close a.sd, rc)
      else if a.written < 0 then some (t'.close a.sd, a.written)
      else some (t', 0) := by
  rw [acceptConnection, hi]
  simp only [if_neg (Int.not_lt.mpr hsd), hregister, Option.map_some]
  split_ifs <;> rfl

/-- The socket is not registered: its slot holds a descriptor that is closed, and nothing will give
the slot back. -/
theorem acceptConnection_unregistered (hi : t.findEmptyRecord = some i) (hsd : 0 ≤ a.sd)
    (hfcntl : a.getfl < 0 ∨ a.setfl < 0) :
    ∃ rc < 0, t.acceptConnection a = some (t.accept a.sd |>.setFd i a.sd |>.close a.sd, rc) := by
  by_cases hgetfl : a.getfl < 0
  · refine ⟨a.getfl, hgetfl, ?_⟩
    rw [acceptConnection_free hi hsd (if_pos hgetfl), if_pos hgetfl]
  · have hsetfl : a.setfl < 0 := hfcntl.resolve_left hgetfl
    refine ⟨a.setfl, hsetfl, ?_⟩
    rw [acceptConnection_free hi hsd ((if_neg hgetfl).trans (if_pos hsetfl)), if_pos hsetfl]

/-- The socket is registered: it stays in the list, whatever becomes of the greeting. -/
theorem acceptConnection_registered (ht : t.Registered) (hi : t.findEmptyRecord = some i)
    (hsd : 0 ≤ a.sd) (hgetfl : 0 ≤ a.getfl) (hsetfl : 0 ≤ a.setfl) :
    ∃ links sockets, Represents links .head sockets ∧ .trx i ∈ sockets ∧
      t.acceptConnection a =
        let t' := { (t.accept a.sd |>.setFd i a.sd) with links := links }
        if a.written < 0 then some (t'.close a.sd, a.written) else some (t', 0) := by
  obtain ⟨links, sockets, hrep, -, hregister⟩ :=
    socketRegisterFd_free ht (fd_of_findIndex hi) a.sd hgetfl hsetfl
  refine ⟨links, sockets ++ [.trx i], hrep, List.mem_append_right _ (List.mem_singleton_self _), ?_⟩
  rw [acceptConnection_free hi hsd hregister, if_neg (lt_irrefl 0)]

/-! ### Failures without a trace -/

theorem leavesNoTrace_full (hfull : t.findEmptyRecord = none) : t.LeavesNoTrace a := by
  intro t' rc hcall hrc
  rw [acceptConnection_full hfull] at hcall
  by_cases hsd : a.sd < 0
  · rw [if_pos hsd] at hcall
    cases hcall
    exact ⟨rfl, rfl, fun hnonneg => absurd hsd (Int.not_lt.mpr hnonneg)⟩
  · rw [if_neg hsd] at hcall
    cases hcall
    exact absurd hrc (lt_irrefl 0)

theorem leavesNoTrace_refused (hsd : a.sd < 0) : t.LeavesNoTrace a := by
  intro t' rc hcall _
  rw [acceptConnection_refused hsd] at hcall
  cases hcall
  exact ⟨rfl, rfl, fun hnonneg => absurd hsd (Int.not_lt.mpr hnonneg)⟩

theorem leavesNoTrace_welcome (ht : t.Registered) (hi : t.findEmptyRecord = some i)
    (hsd : 0 ≤ a.sd) (hwelcome : a.Welcome) : t.LeavesNoTrace a := by
  intro t' rc hcall hrc
  obtain ⟨hgetfl, hsetfl, hwritten⟩ := hwelcome
  obtain ⟨links, sockets, -, -, hresult⟩ := acceptConnection_registered ht hi hsd hgetfl hsetfl
  rw [hresult, if_neg (Int.not_lt.mpr hwritten)] at hcall
  cases hcall
  exact absurd hrc (lt_irrefl 0)

/-- A call that fails with the descriptor in the slot. -/
theorem not_leavesNoTrace_of_filled (hi : t.findEmptyRecord = some i) (hsd : 0 ≤ a.sd)
    {t' : TrxTable} {rc : Int} (hcall : t.acceptConnection a = some (t', rc)) (hrc : rc < 0)
    (hslot : t'.fd i = a.sd) : ¬ t.LeavesNoTrace a := by
  intro hnone
  obtain ⟨hfd, -, -⟩ := hnone t' rc hcall hrc
  have hfree : t.fd i = -1 := fd_of_findIndex hi
  rw [hfd, hfree] at hslot
  omega

theorem not_leavesNoTrace (ht : t.Registered) (hi : t.findEmptyRecord = some i) (hsd : 0 ≤ a.sd)
    (hwelcome : ¬ a.Welcome) : ¬ t.LeavesNoTrace a := by
  have hslot : Function.update t.fd i a.sd i = a.sd := Function.update_self i a.sd t.fd
  by_cases hfcntl : a.getfl < 0 ∨ a.setfl < 0
  · obtain ⟨rc, hrc, hcall⟩ := acceptConnection_unregistered hi hsd hfcntl
    exact not_leavesNoTrace_of_filled hi hsd hcall hrc hslot
  · obtain ⟨hgetfl, hsetfl⟩ := not_or.mp hfcntl
    obtain ⟨links, sockets, -, -, hresult⟩ :=
      acceptConnection_registered ht hi hsd (Int.not_lt.mp hgetfl) (Int.not_lt.mp hsetfl)
    have hwritten : a.written < 0 := by
      by_contra hnonneg
      exact hwelcome ⟨Int.not_lt.mp hgetfl, Int.not_lt.mp hsetfl, Int.not_lt.mp hnonneg⟩
    rw [if_pos hwritten] at hresult
    exact not_leavesNoTrace_of_filled hi hsd hresult hwritten hslot

/-- **Failed calls.** In a table whose occupied slots are the registered ones, a call leaves no trace
when it fails if and only if every slot is occupied, accept() itself fails, or nothing fails after
it. -/
theorem leavesNoTrace_iff (t : TrxTable) (a : Attempt) (ht : t.Registered) :
    t.LeavesNoTrace a ↔ (∀ slot, t.fd slot ≠ -1) ∨ a.sd < 0 ∨ a.Welcome := by
  rw [← findEmptyRecord_eq_none_iff]
  cases hempty : t.findEmptyRecord with
  | none => exact iff_of_true (leavesNoTrace_full hempty) (Or.inl rfl)
  | some i =>
      by_cases hsd : a.sd < 0
      · exact iff_of_true (leavesNoTrace_refused hsd) (Or.inr (Or.inl hsd))
      · have hnonneg : 0 ≤ a.sd := Int.not_lt.mp hsd
        by_cases hwelcome : a.Welcome
        · exact iff_of_true (leavesNoTrace_welcome ht hempty hnonneg hwelcome)
            (Or.inr (Or.inr hwelcome))
        · refine iff_of_false (not_leavesNoTrace ht hempty hnonneg hwelcome) ?_
          rintro (hnone | hneg | hall)
          · cases hnone
          · exact hsd hneg
          · exact hwelcome hall

theorem registered_start (others : Int → Bool) :
    (TrxTable.start (Links.init Socket.head) others).Registered :=
  ⟨[], init_represents Socket.head, fun slot => by simp [start]⟩

/-- The first connection, whose greeting cannot be written. -/
theorem leavesNoTrace_iff_unwritten :
    let start := TrxTable.start (Links.init Socket.head) fun _ => false
    start.LeavesNoTrace ⟨5, 0, 0, -1⟩ ↔
      (∀ slot, start.fd slot ≠ -1) ∨ (5 : Int) < 0 ∨ Attempt.Welcome ⟨5, 0, 0, -1⟩ :=
  leavesNoTrace_iff (TrxTable.start (Links.init Socket.head) fun _ => false) ⟨5, 0, 0, -1⟩
    (registered_start fun _ => false)

/-- The greeting of the first connection is not written: the closed descriptor is in the first slot,
and its socket is the first one that select() is given. When it cannot be registered, the slot is
lost. -/
theorem leavesTrace_first :
    let start := TrxTable.start (Links.init Socket.head) fun _ => false
    start.Registered ∧
      (∃ t', start.acceptConnection ⟨5, 0, 0, -1⟩ = some (t', -1) ∧
        t'.fd 0 = 5 ∧ t'.opened 5 = false ∧ t'.socketAt 0 = some (.trx 0)) ∧
      (∃ t', start.acceptConnection ⟨5, -1, 0, 0⟩ = some (t', -1) ∧
        t'.fd 0 = 5 ∧ t'.opened 5 = false ∧ t'.socketAt 0 = none) ∧
      ¬ start.LeavesNoTrace ⟨5, 0, 0, -1⟩ ∧ ¬ start.LeavesNoTrace ⟨5, -1, 0, 0⟩ := by
  have hwritten : ¬ Attempt.Welcome ⟨5, 0, 0, -1⟩ := fun h => absurd h.2.2 (by decide)
  have hgetfl : ¬ Attempt.Welcome ⟨5, -1, 0, 0⟩ := fun h => absurd h.1 (by decide)
  have hregistered := registered_start fun _ => false
  exact ⟨hregistered, ⟨_, rfl, rfl, rfl, rfl⟩, ⟨_, rfl, rfl, rfl, rfl⟩,
    not_leavesNoTrace hregistered rfl (by decide) hwritten,
    not_leavesNoTrace hregistered rfl (by decide) hgetfl⟩

end TrxTable

end SoftBts
