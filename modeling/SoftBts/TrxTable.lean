import Mathlib.Data.Fintype.Basic
import SoftBts.Lib.IntrusiveList
import SoftBts.Lib.Machine

/-! The connections of transceivers (`trx_init.c`): the slots of `trx`, the descriptors that the
system gives out and takes back, and the list of sockets that `select.c` works on, kept in step over
every run of connection attempts and of sockets that become readable. -/

namespace SoftBts

open IntrusiveList Reactive

/-- A socket of the list `socket_fds`, or its head. The sockets of the slots are in the slots. -/
inductive Socket where
  | head
  | trx (slot : Fin 4)
  | other (k : Nat)
  deriving DecidableEq

/-- The slots of `trx` with `socket.fd`, the list of sockets, which descriptors are open, and those
that accept() has returned so far. -/
structure TrxTable where
  fd : Fin 4 → Int
  links : Links Socket
  opened : Int → Bool
  accepted : List Int

/-- What the system calls give in a call of `accept_connection`: accept(), fcntl() twice, write(). -/
structure Attempt where
  sd : Int
  getfl : Int
  setfl : Int
  written : Int

namespace TrxTable

def setFd (i : Fin 4) (sd : Int) (t : TrxTable) : TrxTable :=
  { t with fd := Function.update t.fd i sd }

/-- accept() has returned a descriptor. -/
def accept (sd : Int) (t : TrxTable) : TrxTable :=
  { t with opened := Function.update t.opened sd true, accepted := sd :: t.accepted }

def close (sd : Int) (t : TrxTable) : TrxTable :=
  { t with opened := Function.update t.opened sd false }

/-- `find_index`; there is no index where it returns -1. -/
def findIndex (sd : Int) (t : TrxTable) : Option (Fin 4) :=
  (List.finRange 4).find? fun i => t.fd i = sd

def findEmptyRecord (t : TrxTable) : Option (Fin 4) :=
  (List.finRange 4).find? fun i => t.fd i = -1

/-- `socket_register_fd`. There is no result where a poisoned pointer is followed. -/
def socketRegisterFd (i : Fin 4) (getfl setfl : Int) (t : TrxTable) : Option (TrxTable × Int) :=
  if getfl < 0 then some (t, getfl)
  else if setfl < 0 then some (t, setfl)
  else (t.links.addTail (.trx i) .head).map fun links => ({ t with links := links }, 0)

/-- `socket_unregister_fd` -/
def socketUnregisterFd (i : Fin 4) (t : TrxTable) : Option TrxTable :=
  (t.links.del (.trx i)).map fun links => { t with links := links }

/-- `accept_connection`, with what it returns. -/
def acceptConnection (a : Attempt) (t : TrxTable) : Option (TrxTable × Int) :=
  match t.findEmptyRecord with
  | none =>
      if a.sd < 0 then some (t, a.sd)
      else some (t.accept a.sd |>.close a.sd, 0)
  | some i =>
      if a.sd < 0 then some (t, a.sd)
      else
        (t.accept a.sd |>.setFd i a.sd |>.socketRegisterFd i a.getfl a.setfl).map fun (t, rc) =>
          if rc < 0 then (t.close a.sd, rc)
          else if a.written < 0 then (t.close a.sd, a.written)
          else (t, 0)

/-- `trx_cb` for the socket of a slot, when `receive_msg` returns `rc`. There is no result where it
works on `trx[-1]`. -/
def trxCb (slot : Fin 4) (rc : Int) (t : TrxTable) : Option (TrxTable × Int) :=
  match t.findIndex (t.fd slot) with
  | none => none
  | some i =>
      if rc = 0 then
        (t.close (t.fd i) |>.setFd i (-1) |>.socketUnregisterFd i).map fun t => (t, rc)
      else some (t, rc)

/-- The socket at a place of the list, as the loop of `socket_select_main` comes to it. -/
def socketAt (n : Nat) (t : TrxTable) : Option Socket :=
  (t.links.walk .head (n + 1) .head)[n]?

end TrxTable

/-- A connection attempt, or a socket of the list that is readable. -/
inductive TrxEvent where
  | connect (a : Attempt)
  | readable (place : Nat) (rc : Int)

/-- A call of `find_index` in `trx_cb`: the slot whose socket fired, and the index found. -/
structure Lookup where
  fired : Fin 4
  found : Option (Fin 4)
  deriving DecidableEq

/-- The table after one event after another, with the lookups made; there is none after an access
that C leaves undefined. -/
def trxTable : Machine (Option TrxTable) TrxEvent Lookup where
  step s e :=
    match s with
    | none => (none, [])
    | some t =>
        match e with
        | .connect a => ((t.acceptConnection a).map Prod.fst, [])
        | .readable place rc =>
            match t.socketAt place with
            | some (.trx slot) =>
                ((t.trxCb slot rc).map Prod.fst, [⟨slot, t.findIndex (t.fd slot)⟩])
            | _ => (some t, [])

/-- accept() returns a descriptor that is not open, if it returns one, and fcntl() and write() do not
fail. -/
def Granted : Option TrxTable → TrxEvent → Prop
  | some t, .connect a =>
      (0 ≤ a.sd → t.opened a.sd = false) ∧ 0 ≤ a.getfl ∧ 0 ≤ a.setfl ∧ 0 ≤ a.written
  | _, _ => True

/-- The table before the first connection: `others` are the open descriptors. -/
def TrxTable.start (links : Links Socket) (others : Int → Bool) : TrxTable where
  fd := fun _ => -1
  links := links
  opened := others
  accepted := []

/-! ### The invariant -/

namespace TrxTable

/-- The slots, the list and the descriptors are in step. -/
structure InStep (others : Int → Bool) (t : TrxTable) : Prop where
  listed : ∃ sockets, Represents t.links .head sockets ∧
    ∀ slot, .trx slot ∈ sockets ↔ t.fd slot ≠ -1
  distinct : ∀ i j, t.fd i ≠ -1 → t.fd i = t.fd j → i = j
  opened : ∀ d, t.opened d = true ↔ others d = true ∨ ∃ slot, t.fd slot ≠ -1 ∧ t.fd slot = d
  own : ∀ slot, t.fd slot ≠ -1 → others (t.fd slot) = false
  accepted : ∀ d ∈ t.accepted, others d = false

variable {others : Int → Bool} {t : TrxTable}

theorem fd_of_findIndex {sd : Int} {i : Fin 4} (h : t.findIndex sd = some i) : t.fd i = sd := by
  rw [findIndex] at h
  simpa using List.find?_some h

theorem findIndex_of_inStep (h : t.InStep others) {slot : Fin 4} (hslot : t.fd slot ≠ -1) :
    t.findIndex (t.fd slot) = some slot := by
  have hsome : (t.findIndex (t.fd slot)).isSome = true := by
    rw [findIndex, List.find?_isSome]
    exact ⟨slot, List.mem_finRange slot, decide_eq_true rfl⟩
  obtain ⟨i, hi⟩ := Option.isSome_iff_exists.mp hsome
  rw [hi, h.distinct slot i hslot (fd_of_findIndex hi).symm]

/-- The descriptors in the slots after a slot is assigned. -/
theorem exists_update_iff {fd : Fin 4 → Int} {i : Fin 4} {sd d : Int} :
    (∃ slot, Function.update fd i sd slot ≠ -1 ∧ Function.update fd i sd slot = d) ↔
      (sd ≠ -1 ∧ sd = d) ∨ ∃ slot, slot ≠ i ∧ fd slot ≠ -1 ∧ fd slot = d := by
  constructor
  · rintro ⟨slot, hne, heq⟩
    by_cases hslot : slot = i
    · subst hslot
      rw [Function.update_self] at hne heq
      exact Or.inl ⟨hne, heq⟩
    · rw [Function.update_of_ne hslot] at hne heq
      exact Or.inr ⟨slot, hslot, hne, heq⟩
  · rintro (⟨hne, heq⟩ | ⟨slot, hslot, hne, heq⟩)
    · exact ⟨i, by rwa [Function.update_self], by rwa [Function.update_self]⟩
    · exact ⟨slot, by rwa [Function.update_of_ne hslot], by rwa [Function.update_of_ne hslot]⟩

theorem others_of_closed (h : t.InStep others) {sd : Int} (hfresh : t.opened sd = false) :
    others sd = false ∧ ∀ slot, t.fd slot ≠ -1 → t.fd slot ≠ sd := by
  constructor
  · by_contra hother
    have hopen := (h.opened sd).mpr (Or.inl (Bool.eq_true_of_not_eq_false hother))
    rw [hfresh] at hopen
    cases hopen
  · intro slot hslot heq
    have hopen := (h.opened sd).mpr (Or.inr ⟨slot, hslot, heq⟩)
    rw [hfresh] at hopen
    cases hopen

/-- The occupied slots hold different descriptors after one is assigned. -/
theorem distinct_update (h : t.InStep others) {i : Fin 4} {sd : Int}
    (hnew : ∀ slot, t.fd slot ≠ -1 → t.fd slot = sd → sd = -1) :
    ∀ j k, Function.update t.fd i sd j ≠ -1 →
      Function.update t.fd i sd j = Function.update t.fd i sd k → j = k := by
  intro j k hj hjk
  simp only [Function.update_apply] at hj hjk
  split_ifs at hj hjk with hji hki hki
  · rw [hji, hki]
  · exact absurd (hnew k (fun hk => hj (hjk.trans hk)) hjk.symm) hj
  · exact absurd (hjk.trans (hnew j hj hjk)) hj
  · exact h.distinct j k hj hjk

theorem own_update (h : t.InStep others) {i : Fin 4} {sd : Int}
    (hother : sd ≠ -1 → others sd = false) :
    ∀ slot, Function.update t.fd i sd slot ≠ -1 → others (Function.update t.fd i sd slot) = false := by
  intro slot hslot
  simp only [Function.update_apply] at hslot ⊢
  split_ifs at hslot ⊢
  · exact hother hslot
  · exact h.own slot hslot

/-- A descriptor that is given back before anything was done with it. -/
theorem inStep_accept_close (h : t.InStep others) {sd : Int} (hfresh : t.opened sd = false) :
    (t.accept sd |>.close sd).opened = t.opened ∧ (t.accept sd |>.close sd).InStep others := by
  have hopened : (t.accept sd |>.close sd).opened = t.opened := by
    rw [accept, close]
    simp only [Function.update_idem]
    rw [← hfresh, Function.update_eq_self]
  refine ⟨hopened, h.listed, h.distinct, fun d => ?_, h.own, ?_⟩
  · rw [hopened]
    exact h.opened d
  · exact List.forall_mem_cons.mpr ⟨(others_of_closed h hfresh).1, h.accepted⟩

/-- A free slot is filled, and its socket is put at the end of the list. -/
theorem socketRegisterFd_free (h : ∃ sockets, Represents t.links .head sockets ∧
    ∀ slot, .trx slot ∈ sockets ↔ t.fd slot ≠ -1) {i : Fin 4} (hi : t.fd i = -1) (sd : Int)
    {getfl setfl : Int} (hgetfl : 0 ≤ getfl) (hsetfl : 0 ≤ setfl) :
    ∃ links sockets, Represents links .head (sockets ++ [.trx i]) ∧
      (∀ slot, .trx slot ∈ sockets ↔ t.fd slot ≠ -1) ∧
      (t.accept sd |>.setFd i sd |>.socketRegisterFd i getfl setfl) =
        some ({ (t.accept sd |>.setFd i sd) with links := links }, 0) := by
  obtain ⟨sockets, hrep, hmem⟩ := h
  have hnot : Socket.trx i ∉ Socket.head :: sockets := by
    rw [List.mem_cons, not_or, hmem]
    exact ⟨Socket.noConfusion, not_not.mpr hi⟩
  obtain ⟨links, hlinks, hrep'⟩ := addTail_represents hrep hnot
  refine ⟨links, sockets, hrep', hmem, ?_⟩
  rw [socketRegisterFd, if_neg (Int.not_lt.mpr hgetfl), if_neg (Int.not_lt.mpr hsetfl)]
  show Option.map _ (t.links.addTail (.trx i) .head) = _
  rw [hlinks]
  rfl

/-- The sockets of the occupied slots, with that of one more slot. -/
theorem mem_append_iff {sockets : List Socket} (hmem : ∀ slot, .trx slot ∈ sockets ↔ t.fd slot ≠ -1)
    {i : Fin 4} {sd : Int} (hsd : sd ≠ -1) (slot : Fin 4) :
    .trx slot ∈ sockets ++ [.trx i] ↔ Function.update t.fd i sd slot ≠ -1 := by
  by_cases hslot : slot = i
  · subst hslot
    rw [Function.update_self]
    exact iff_of_true (by simp) hsd
  · rw [Function.update_of_ne hslot, ← hmem]
    simp [hslot]

/-- The sockets of the occupied slots, without that of a slot. -/
theorem mem_erase_iff {sockets : List Socket} (hmem : ∀ slot, .trx slot ∈ sockets ↔ t.fd slot ≠ -1)
    (hnodup : sockets.Nodup) {i : Fin 4} (slot : Fin 4) :
    .trx slot ∈ sockets.erase (.trx i) ↔ Function.update t.fd i (-1) slot ≠ -1 := by
  rw [hnodup.mem_erase_iff, hmem]
  by_cases hslot : slot = i
  · subst hslot
    rw [Function.update_self]
    exact iff_of_false (fun hboth => hboth.1 rfl) (not_not.mpr rfl)
  · rw [Function.update_of_ne hslot]
    exact and_iff_right fun heq => hslot (Socket.trx.inj heq)

theorem opened_register (h : t.InStep others) {i : Fin 4} (hi : t.fd i = -1) {sd : Int}
    (hsd : sd ≠ -1) (d : Int) : Function.update t.opened sd true d = true ↔
      others d = true ∨ ∃ slot, Function.update t.fd i sd slot ≠ -1 ∧
        Function.update t.fd i sd slot = d := by
  rw [exists_update_iff, and_iff_right hsd]
  by_cases hd : d = sd
  · subst hd
    rw [Function.update_self]
    exact iff_of_true rfl (Or.inr (Or.inl rfl))
  · rw [Function.update_of_ne hd, h.opened d]
    refine or_congr_right ⟨?_, ?_⟩
    · rintro ⟨slot, hslot, heq⟩
      exact Or.inr ⟨slot, fun hsame => hslot (hsame ▸ hi), hslot, heq⟩
    · rintro (heq | ⟨slot, -, hslot, heq⟩)
      · exact absurd heq.symm hd
      · exact ⟨slot, hslot, heq⟩

theorem opened_release (h : t.InStep others) {i : Fin 4} (hi : t.fd i ≠ -1) (d : Int) :
    Function.update t.opened (t.fd i) false d = true ↔
      others d = true ∨ ∃ slot, Function.update t.fd i (-1) slot ≠ -1 ∧
        Function.update t.fd i (-1) slot = d := by
  rw [exists_update_iff]
  by_cases hd : d = t.fd i
  · subst hd
    rw [Function.update_self]
    refine iff_of_false Bool.false_ne_true ?_
    rintro (hother | ⟨hne, -⟩ | ⟨slot, hslot, hne, heq⟩)
    · rw [h.own i hi] at hother
      cases hother
    · exact hne rfl
    · exact hslot (h.distinct slot i hne heq)
  · rw [Function.update_of_ne hd, h.opened d]
    refine or_congr_right ⟨?_, ?_⟩
    · rintro ⟨slot, hslot, heq⟩
      exact Or.inr ⟨slot, fun hsame => hd (by rw [← heq, hsame]), hslot, heq⟩
    · rintro (⟨hne, -⟩ | ⟨slot, -, hslot, heq⟩)
      · exact absurd rfl hne
      · exact ⟨slot, hslot, heq⟩

/-- A descriptor that is put into a free slot whose socket is added to the list. -/
theorem inStep_register (h : t.InStep others) {sd : Int} (hsd : 0 ≤ sd)
    (hfresh : t.opened sd = false) {i : Fin 4} (hi : t.fd i = -1) {getfl setfl : Int}
    (hgetfl : 0 ≤ getfl) (hsetfl : 0 ≤ setfl) :
    ∃ t', (t.accept sd |>.setFd i sd |>.socketRegisterFd i getfl setfl) = some (t', 0) ∧
      t'.InStep others := by
  obtain ⟨links, sockets, hrep, hmem, hregister⟩ :=
    socketRegisterFd_free h.listed hi sd hgetfl hsetfl
  obtain ⟨hother, hnew⟩ := others_of_closed h hfresh
  have hne : sd ≠ -1 := by omega
  refine ⟨_, hregister, ⟨_, hrep, mem_append_iff hmem hne⟩, ?_, opened_register h hi hne, ?_, ?_⟩
  · exact distinct_update h fun slot hslot heq => absurd heq (hnew slot hslot)
  · exact own_update h fun _ => hother
  · exact List.forall_mem_cons.mpr ⟨hother, h.accepted⟩

/-- A slot whose socket is closed and taken out of the list. -/
theorem inStep_release (h : t.InStep others) {i : Fin 4} (hi : t.fd i ≠ -1) :
    ∃ t', (t.close (t.fd i) |>.setFd i (-1) |>.socketUnregisterFd i) = some t' ∧
      t'.InStep others ∧ t'.fd = Function.update t.fd i (-1) ∧
      t'.opened = Function.update t.opened (t.fd i) false := by
  obtain ⟨sockets, hrep, hmem⟩ := h.listed
  obtain ⟨links, hlinks, hrep'⟩ := del_represents hrep ((hmem i).mpr hi)
  have hnodup : sockets.Nodup := (List.nodup_cons.mp hrep.nodup).2
  refine ⟨{ (t.close (t.fd i) |>.setFd i (-1)) with links := links }, ?_,
    ⟨⟨_, hrep', mem_erase_iff hmem hnodup⟩, ?_, opened_release h hi, ?_, h.accepted⟩, rfl, rfl⟩
  · rw [socketUnregisterFd]
    show Option.map _ (t.links.del (.trx i)) = _
    rw [hlinks]
    rfl
  · exact distinct_update h fun _ _ _ => rfl
  · exact own_update h fun hne => absurd rfl hne

/-! ### Steps -/

/-- A connection attempt; when no slot is free, the connection is closed and no slot changes. -/
theorem acceptConnection_inStep (h : t.InStep others) {a : Attempt}
    (hgranted : Granted (some t) (.connect a)) :
    ∃ t' rc, t.acceptConnection a = some (t', rc) ∧ t'.InStep others ∧
      ((∀ i, t.fd i ≠ -1) → t'.fd = t.fd ∧ t'.links = t.links ∧ t'.opened = t.opened) := by
  obtain ⟨hfresh, hgetfl, hsetfl, hwritten⟩ := hgranted
  rw [acceptConnection]
  cases hempty : t.findEmptyRecord with
  | none =>
      by_cases hsd : a.sd < 0
      · exact ⟨t, a.sd, if_pos hsd, h, fun _ => ⟨rfl, rfl, rfl⟩⟩
      · obtain ⟨hopened, hstep⟩ := inStep_accept_close h (hfresh (by omega))
        exact ⟨_, 0, if_neg hsd, hstep, fun _ => ⟨rfl, rfl, hopened⟩⟩
  | some i =>
      have hi : t.fd i = -1 := fd_of_findIndex hempty
      have hnotFull : ¬ ∀ i, t.fd i ≠ -1 := fun hfull => hfull i hi
      by_cases hsd : a.sd < 0
      · exact ⟨t, a.sd, if_pos hsd, h, fun hfull => absurd hfull hnotFull⟩
      · obtain ⟨t', hregister, hstep⟩ :=
          inStep_register h (by omega) (hfresh (by omega)) hi hgetfl hsetfl
        refine ⟨t', 0, ?_, hstep, fun hfull => absurd hfull hnotFull⟩
        simp only [if_neg hsd, hregister, Option.map_some, lt_irrefl, if_false,
          if_neg (Int.not_lt.mpr hwritten)]

/-- A readable socket of an occupied slot. -/
theorem trxCb_inStep (h : t.InStep others) {slot : Fin 4} (hslot : t.fd slot ≠ -1) (rc : Int) :
    ∃ t', t.trxCb slot rc = some (t', rc) ∧ t'.InStep others := by
  rw [trxCb, findIndex_of_inStep h hslot]
  by_cases hrc : rc = 0
  · obtain ⟨t', hrelease, hstep, -⟩ := inStep_release h hslot
    refine ⟨t', ?_, hstep⟩
    simp only [if_pos hrc, hrelease, Option.map_some]
  · exact ⟨t, if_neg hrc, h⟩

theorem fd_of_socketAt (h : t.InStep others) {place : Nat} {slot : Fin 4}
    (hat : t.socketAt place = some (.trx slot)) : t.fd slot ≠ -1 := by
  obtain ⟨sockets, hrep, hmem⟩ := h.listed
  rw [socketAt, walk_represents hrep] at hat
  exact (hmem slot).mp (List.mem_of_mem_take (List.mem_of_getElem? hat))

/-- Every event keeps the table in step, and the index that is looked up is the slot's. -/
theorem inStep_event (h : t.InStep others) {e : TrxEvent} (hgranted : Granted (some t) e) :
    (∃ t', (trxTable.step (some t) e).1 = some t' ∧ t'.InStep others) ∧
      ∀ o ∈ (trxTable.step (some t) e).2, o.found = some o.fired := by
  cases e with
  | connect a =>
      obtain ⟨t', rc, haccept, hstep, -⟩ := acceptConnection_inStep h hgranted
      exact ⟨⟨t', by simp only [trxTable, haccept, Option.map_some], hstep⟩, List.forall_mem_nil _⟩
  | readable place rc =>
      cases hat : t.socketAt place with
      | none => exact ⟨⟨t, by simp only [trxTable, hat], h⟩, by simp [trxTable, hat]⟩
      | some socket =>
          cases socket with
          | head => exact ⟨⟨t, by simp only [trxTable, hat], h⟩, by simp [trxTable, hat]⟩
          | other k => exact ⟨⟨t, by simp only [trxTable, hat], h⟩, by simp [trxTable, hat]⟩
          | trx slot =>
              have hslot := fd_of_socketAt h hat
              obtain ⟨t', hcb, hstep⟩ := trxCb_inStep h hslot rc
              refine ⟨⟨t', by simp only [trxTable, hat, hcb, Option.map_some], hstep⟩, ?_⟩
              simp only [trxTable, hat, List.forall_mem_singleton]
              exact findIndex_of_inStep h hslot

/-! ### Runs -/

/-- What holds of the table: a slot is occupied if and only if its socket is in the list, and is then
in it once; the descriptors of the occupied slots are open and different, and every other descriptor
that was accepted is closed; and an attempt while all slots are occupied is closed and changes
nothing. -/
structure WellKept (t : TrxTable) : Prop where
  listed : ∃ sockets, Represents t.links .head sockets ∧
    ∀ slot, sockets.count (.trx slot) = if t.fd slot = -1 then 0 else 1
  opened : ∀ slot, t.fd slot ≠ -1 → t.opened (t.fd slot) = true
  distinct : ∀ i j, t.fd i ≠ -1 → i ≠ j → t.fd i ≠ t.fd j
  closed : ∀ d ∈ t.accepted, (∀ slot, t.fd slot ≠ -1 → t.fd slot ≠ d) → t.opened d = false
  full : (∀ slot, t.fd slot ≠ -1) → ∀ a, Granted (some t) (.connect a) →
    ∃ t' rc, t.acceptConnection a = some (t', rc) ∧ t'.fd = t.fd ∧ t'.links = t.links ∧
      t'.opened = t.opened

theorem InStep.wellKept (h : t.InStep others) : t.WellKept where
  listed := by
    obtain ⟨sockets, hrep, hmem⟩ := h.listed
    have hnodup := (List.nodup_cons.mp hrep.nodup).2
    refine ⟨sockets, hrep, fun slot => ?_⟩
    split_ifs with hslot
    · exact List.count_eq_zero_of_not_mem fun hin => (hmem slot).mp hin hslot
    · exact List.count_eq_one_of_mem hnodup ((hmem slot).mpr hslot)
  opened := fun slot hslot => (h.opened _).mpr (Or.inr ⟨slot, hslot, rfl⟩)
  distinct := fun i j hi hij heq => hij (h.distinct i j hi heq)
  closed := by
    intro d hd hslots
    apply Bool.eq_false_of_not_eq_true
    intro hopen
    rcases (h.opened d).mp hopen with hother | ⟨slot, hslot, heq⟩
    · rw [h.accepted d hd] at hother
      cases hother
    · exact hslots slot hslot heq
  full := by
    intro hfull a hgranted
    obtain ⟨t', rc, haccept, -, hsame⟩ := acceptConnection_inStep h hgranted
    exact ⟨t', rc, haccept, hsame hfull⟩

theorem inStep_start {links : Links Socket} {registered : List Nat}
    (hlinks : Represents links .head (registered.map .other)) (others : Int → Bool) :
    (TrxTable.start links others).InStep others where
  listed := ⟨registered.map .other, hlinks, fun slot => by simp [start]⟩
  distinct := fun i _ hi => absurd rfl hi
  opened := by simp [start]
  own := fun slot hslot => absurd rfl hslot
  accepted := List.forall_mem_nil _

/-- The table is in step, and the lookups so far found the slots. -/
def Tracked (others : Int → Bool) (out : List Lookup) (s : Option TrxTable) : Prop :=
  (∃ t, s = some t ∧ t.InStep others) ∧ ∀ o ∈ out, o.found = some o.fired

theorem tracked_start {links : Links Socket} {registered : List Nat}
    (hlinks : Represents links .head (registered.map .other)) (others : Int → Bool) :
    Tracked others [] (some (.start links others)) :=
  ⟨⟨_, rfl, inStep_start hlinks others⟩, List.forall_mem_nil _⟩

theorem tracked_step {out : List Lookup} {s : Option TrxTable} {e : TrxEvent}
    (h : Tracked others out s) (hgranted : Granted s e) :
    Tracked others (out ++ (trxTable.step s e).2) (trxTable.step s e).1 := by
  obtain ⟨⟨t, rfl, ht⟩, hout⟩ := h
  obtain ⟨hnext, hfound⟩ := inStep_event ht hgranted
  exact ⟨hnext, List.forall_mem_append.mpr ⟨hout, hfound⟩⟩

/-- **The connection table.** After every run of connection attempts and of sockets that become
readable, with any results of `receive_msg`, the table is well kept, and every lookup of a descriptor
that was made has found the slot whose socket fired. -/
theorem trxTable_wellKept (links : Links Socket) (registered : List Nat) (others : Int → Bool)
    (hlinks : Represents links .head (registered.map .other)) (es : List TrxEvent)
    (hgranted : trxTable.Meets Granted (some (.start links others)) es) :
    (∃ t, trxTable.after (some (.start links others)) es = some t ∧ t.WellKept) ∧
      ∀ o ∈ trxTable.outputs (some (.start links others)) es, o.found = some o.fired := by
  obtain ⟨⟨t, ht, hstep⟩, hfound⟩ := trxTable.run_invariant (R := Tracked others)
    (fun out s e h hP => tracked_step h hP) (tracked_start hlinks others) hgranted
  exact ⟨⟨t, ht, hstep.wellKept⟩, hfound⟩

/-- Two transceivers connect, the first one goes, and its descriptor is given out again. -/
theorem trxTable_wellKept_reused :
    let start := TrxTable.start (Links.init Socket.head) fun _ => false
    let es : List TrxEvent := [.connect ⟨5, 0, 0, 0⟩, .connect ⟨6, 0, 0, 0⟩, .readable 0 0,
      .connect ⟨5, 0, 0, 0⟩]
    (∃ t, trxTable.after (some start) es = some t ∧ t.WellKept) ∧
      ∀ o ∈ trxTable.outputs (some start) es, o.found = some o.fired :=
  trxTable_wellKept (Links.init Socket.head) [] (fun _ => false) (init_represents Socket.head)
    [.connect ⟨5, 0, 0, 0⟩, .connect ⟨6, 0, 0, 0⟩, .readable 0 0, .connect ⟨5, 0, 0, 0⟩]
    ⟨⟨fun _ => rfl, by decide, by decide, by decide⟩, ⟨fun _ => rfl, by decide, by decide, by decide⟩,
      trivial, ⟨fun _ => by decide, by decide, by decide, by decide⟩, trivial⟩

end TrxTable

end SoftBts
