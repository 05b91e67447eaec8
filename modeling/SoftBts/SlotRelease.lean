import SoftBts.ReceiveResults
import SoftBts.TrxTable

/-! The slots of the transceivers over the results of recv(): the callbacks of the BTS with the
connection table. `trx_cb` takes a zero from `receive_msg` for the end of the connection, and that is
what the second call of recv() gave, whatever it was asked for and whatever the first one found. -/

namespace SoftBts

open Octets Reactive

/-! ### Connections that are gone -/

namespace RecvResult

/-- A call for `n` octets has found the end of the connection, or that it is gone. -/
def gone (n : Nat) : RecvResult → Bool
  | octets _ _ => false
  | zero => n ≠ 0
  | error e => n ≠ 0 ∧ e = .fatal

def isError : RecvResult → Bool
  | error _ => true
  | _ => false

end RecvResult

/-- A call of recv() in `receive_msg` has found that the connection is gone. -/
def Results.gone (x : Results) (m : Mem) : Bool :=
  x.head.gone 3 || x.body.gone (declaredLen (x.header m))

/-- The calls that `trx_cb` misjudges. -/
inductive Misjudged (x : Results) (m : Mem) : Prop where
  /-- A message without a body, on a live connection. -/
  | bodiless (hlive : x.head.gone 3 = false) (hlen : declaredLen (x.header m) = 0)
      (hbody : x.body.isError = false)
  /-- The first call finds the connection gone, and the second one delivers octets or fails. -/
  | headerLost (hgone : x.head.gone 3 = true) (hbody : x.body.isError = true ∨
      (declaredLen (x.header m) ≠ 0 ∧ x.body ≠ .zero))
  /-- The connection is reset between the header and the body. -/
  | reset (hlen : declaredLen (x.header m) ≠ 0) (hbody : x.body = .error .fatal)

section Judgement

variable {x : Results} {m : Mem}

theorem misjudged_octets {first : UInt8} {rest : List UInt8} (hbody : x.body = .octets first rest) :
    Misjudged x m ↔ ¬ (declaredLen (x.header m) = 0 ↔ x.head.gone 3 = true) := by
  constructor
  · rintro (⟨hhead, hlen, -⟩ | ⟨hhead, herror | ⟨hlen, -⟩⟩ | ⟨-, hreset⟩) hiff
    · rw [hiff.mp hlen] at hhead
      cases hhead
    · rw [hbody] at herror
      cases herror
    · exact hlen (hiff.mpr hhead)
    · rw [hbody] at hreset
      cases hreset
  · intro hnot
    by_cases hlen : declaredLen (x.header m) = 0
    · have hhead : ¬ x.head.gone 3 = true := fun hhead => hnot (iff_of_true hlen hhead)
      exact .bodiless (Bool.eq_false_of_not_eq_true hhead) hlen (by rw [hbody]; rfl)
    · have hhead : x.head.gone 3 = true := by
        by_contra hhead
        exact hnot (iff_of_false hlen hhead)
      exact .headerLost hhead (Or.inr ⟨hlen, by rw [hbody]; exact RecvResult.noConfusion⟩)

theorem misjudged_zero (hbody : x.body = .zero) :
    Misjudged x m ↔ ¬ (x.head.gone 3 = true ∨ declaredLen (x.header m) ≠ 0) := by
  constructor
  · rintro (⟨hhead, hlen, -⟩ | ⟨-, herror | ⟨-, hne⟩⟩ | ⟨-, hreset⟩) hgone
    · rcases hgone with hgone | hgone
      · rw [hgone] at hhead
        cases hhead
      · exact hgone hlen
    · rw [hbody] at herror
      cases herror
    · exact hne hbody
    · rw [hbody] at hreset
      cases hreset
  · intro hnot
    obtain ⟨hhead, hlen⟩ := not_or.mp hnot
    exact .bodiless (Bool.eq_false_of_not_eq_true hhead) (not_not.mp hlen) (by rw [hbody]; rfl)

theorem misjudged_error {e : Errno} (hbody : x.body = .error e) :
    Misjudged x m ↔
      x.head.gone 3 = true ∨ (declaredLen (x.header m) ≠ 0 ∧ e = .fatal) := by
  constructor
  · rintro (⟨-, -, herror⟩ | ⟨hhead, -⟩ | ⟨hlen, hreset⟩)
    · rw [hbody] at herror
      cases herror
    · exact Or.inl hhead
    · rw [hbody] at hreset
      exact Or.inr ⟨hlen, RecvResult.error.inj hreset⟩
  · rintro (hhead | ⟨hlen, rfl⟩)
    · exact .headerLost hhead (Or.inl (by rw [hbody]; rfl))
    · exact .reset hlen hbody

theorem rc_reading (x : Results) (m : Mem) :
    (x.reading m).rc = (x.body.recv (declaredLen (x.header m))).rc := by
  show (x.body.recv (x.reading m).len).rc = _
  rw [x.len_reading]

/-- What `receive_msg` returns is zero exactly for a connection that is gone, but for the calls that
are misjudged. -/
theorem rc_eq_zero_iff_gone (x : Results) (m : Mem) :
    ((x.reading m).rc = 0 ↔ x.gone m = true) ↔ ¬ Misjudged x m := by
  rw [rc_reading, Results.gone, Bool.or_eq_true]
  cases hbody : x.body with
  | octets first rest =>
      have hrc : ((RecvResult.octets first rest).recv (declaredLen (x.header m))).rc = 0 ↔
          declaredLen (x.header m) = 0 := by
        show (((first :: rest).take (declaredLen (x.header m))).length : Int) = 0 ↔ _
        rw [List.length_take, List.length_cons]
        omega
      have hlive : ¬ (RecvResult.octets first rest).gone (declaredLen (x.header m)) = true :=
        Bool.false_ne_true
      rw [misjudged_octets hbody, not_not, hrc, or_iff_left hlive]
  | zero =>
      have hrc : (RecvResult.zero.recv (declaredLen (x.header m))).rc = 0 := rfl
      rw [misjudged_zero hbody, not_not, iff_true_left hrc, RecvResult.gone, decide_eq_true_iff]
  | error e =>
      have hrc : ¬ ((RecvResult.error e).recv (declaredLen (x.header m))).rc = 0 := by
        simp [RecvResult.recv]
      rw [misjudged_error hbody, iff_false_left hrc, RecvResult.gone, decide_eq_true_iff]

end Judgement

/-! ### The callbacks -/

/-- The BTS with the connection table. -/
structure Station extends System where
  table : Option TrxTable

/-- A callback: a connection attempt, or a connection that is readable, with what its calls of recv()
report. -/
inductive Callback where
  | accept (a : Attempt)
  | oml (env : Env) (x : Results)
  | rsl (env : Env) (x : Results)
  | trx (place : Nat) (env : Env) (x : Results)

/-- The slot of the socket at a place of the list. -/
def Station.slotAt (s : Station) (place : Nat) : Option (Fin 4) :=
  match s.table.bind (TrxTable.socketAt place) with
  | some (.trx slot) => some slot
  | _ => none

/-- `accept_connection`, `oml_connection`, `rsl_connection` and `trx_cb`, one after another. -/
def callbacks : Machine Station Callback Sent where
  step s i :=
    match s.stop with
    | some _ => (s, [])
    | none =>
        match i with
        | .accept a => ({ s with table := (trxTable.step s.table (.connect a)).1 }, [])
        | .oml env x =>
            let r := receiver.step s.toSystem ⟨x, env, .oml⟩
            ({ s with toSystem := r.1 }, r.2)
        | .rsl env x =>
            let r := receiver.step s.toSystem ⟨x, env, .rsl⟩
            ({ s with toSystem := r.1 }, r.2)
        | .trx place env x =>
            match s.slotAt place with
            | none => (s, [])
            | some slot =>
                let r := receiver.step s.toSystem ⟨x, env, .trx slot⟩
                let rc := (x.reading (s.buffer (.trx slot))).rc
                ({ toSystem := r.1
                   table := match r.1.stop with
                     | none => (trxTable.step s.table (.readable place rc)).1
                     | some _ => s.table }, r.2)

/-- What `accept_connection` is granted. -/
def Station.Grants (s : Station) : Callback → Prop
  | .accept a => Granted s.table (.connect a)
  | _ => True

/-- The slot is free, and its descriptor is closed. -/
structure Released (t t' : TrxTable) (slot : Fin 4) : Prop where
  free : t'.fd slot = -1
  closed : t'.opened (t.fd slot) = false

/-- `trx_cb` is called for a slot, and `receive_msg` returns. -/
structure Served (s : Station) (i : Callback) (t : TrxTable) (slot : Fin 4) (x : Results) : Prop where
  running : s.stop = none
  table : s.table = some t
  fired : ∃ place env, i = .trx place env x ∧ s.slotAt place = some slot
  returns : (callbacks.step s i).1.stop = none

/-- The slot is released exactly when its connection is gone. -/
def ReleasedWhenGone (s : Station) (i : Callback) : Prop :=
  ∀ t slot x, Served s i t slot x → ∃ t', (callbacks.step s i).1.table = some t' ∧
    (Released t t' slot ↔ x.gone (s.buffer (.trx slot)) = true)

/-- The callback is one that `trx_cb` judges right. -/
def WellJudged (s : Station) (i : Callback) : Prop :=
  ∀ t slot x, Served s i t slot x → ¬ Misjudged x (s.buffer (.trx slot))

/-! ### The table under the callbacks -/

variable {others : Int → Bool} {s : Station} {i : Callback} {t : TrxTable} {slot : Fin 4}

/-- `trx_cb` releases the slot when `receive_msg` returns zero. -/
theorem trxCb_released_iff (h : t.InStep others) (hslot : t.fd slot ≠ -1) (rc : Int) :
    ∃ t', t.trxCb slot rc = some (t', rc) ∧ (Released t t' slot ↔ rc = 0) := by
  rw [TrxTable.trxCb, TrxTable.findIndex_of_inStep h hslot]
  by_cases hrc : rc = 0
  · obtain ⟨t', hrelease, -, hfd, hopened⟩ := TrxTable.inStep_release h hslot
    refine ⟨t', ?_, iff_of_true ⟨?_, ?_⟩ hrc⟩
    · simp only [if_pos hrc, hrelease, Option.map_some]
    · rw [hfd]
      exact Function.update_self slot (-1) t.fd
    · rw [hopened]
      exact Function.update_self (t.fd slot) false t.opened
  · exact ⟨t, if_neg hrc, iff_of_false (fun hreleased => hslot hreleased.free) hrc⟩

/-- The slots, the list and the descriptors of a station are in step. -/
def Kept (others : Int → Bool) (s : Station) : Prop := ∃ t, s.table = some t ∧ t.InStep others

theorem granted_readable (s : Option TrxTable) (place : Nat) (rc : Int) :
    Granted s (.readable place rc) := by
  cases s <;> trivial

theorem kept_event {e : TrxEvent} (h : Kept others s) (hgranted : Granted s.table e) :
    ∃ t, (trxTable.step s.table e).1 = some t ∧ t.InStep others := by
  obtain ⟨t, ht, hstep⟩ := h
  rw [ht] at hgranted ⊢
  exact (TrxTable.inStep_event hstep hgranted).1

theorem slotAt_eq_some_iff {place : Nat} :
    s.slotAt place = some slot ↔ s.table.bind (TrxTable.socketAt place) = some (.trx slot) := by
  rw [Station.slotAt]
  split
  · next heq => rw [heq, Option.some_inj, Option.some_inj, Socket.trx.injEq]
  · next hother => exact iff_of_false (by simp) fun h => hother slot h

/-- `trx_cb` for a slot. -/
theorem callbacks_step_trx {place : Nat} (hs : s.stop = none) (hslot : s.slotAt place = some slot)
    (env : Env) (x : Results) :
    (callbacks.step s (.trx place env x)).1.stop =
        (receiver.step s.toSystem ⟨x, env, .trx slot⟩).1.stop ∧
      (callbacks.step s (.trx place env x)).1.table =
        match (receiver.step s.toSystem ⟨x, env, .trx slot⟩).1.stop with
        | none =>
            (trxTable.step s.table (.readable place (x.reading (s.buffer (.trx slot))).rc)).1
        | some _ => s.table := by
  simp only [callbacks, hs, hslot]
  exact ⟨trivial, trivial⟩

theorem kept_step (h : Kept others s) (hgranted : s.Grants i) :
    Kept others (callbacks.step s i).1 := by
  cases hs : s.stop with
  | some why =>
      simp only [callbacks, hs]
      exact h
  | none =>
      cases i with
      | accept a =>
          simp only [callbacks, hs]
          exact kept_event h hgranted
      | oml env x =>
          simp only [callbacks, hs]
          exact h
      | rsl env x =>
          simp only [callbacks, hs]
          exact h
      | trx place env x =>
          cases hslot : s.slotAt place with
          | none =>
              simp only [callbacks, hs, hslot]
              exact h
          | some slot =>
              have htable := (callbacks_step_trx hs hslot env x).2
              rw [Kept, htable]
              split
              · exact kept_event h (granted_readable _ _ _)
              · exact h

theorem releasedWhenGone_iff (h : Kept others s) : ReleasedWhenGone s i ↔ WellJudged s i := by
  obtain ⟨t₀, ht₀, hstep⟩ := h
  refine forall_congr' fun t => forall_congr' fun slot => forall_congr' fun x =>
    forall_congr' fun hserved => ?_
  obtain ⟨hs, ht, ⟨place, env, rfl, hslot⟩, hreturns⟩ := hserved
  obtain rfl : t₀ = t := Option.some.inj (ht₀.symm.trans ht)
  have hat : t₀.socketAt place = some (.trx slot) := by
    rw [slotAt_eq_some_iff, ht] at hslot
    exact hslot
  obtain ⟨t', hcb, hreleased⟩ := trxCb_released_iff hstep (TrxTable.fd_of_socketAt hstep hat)
    (x.reading (s.buffer (.trx slot))).rc
  have htable : (callbacks.step s (.trx place env x)).1.table = some t' := by
    obtain ⟨hstop', htable⟩ := callbacks_step_trx hs hslot env x
    rw [htable, ← hstop', hreturns]
    simp only [trxTable, ht, hat, hcb, Option.map_some]
  rw [← rc_eq_zero_iff_gone, ← hreleased]
  constructor
  · rintro ⟨t'', ht'', hiff⟩
    obtain rfl : t' = t'' := Option.some.inj (htable.symm.trans ht'')
    exact hiff
  · intro hiff
    exact ⟨t', htable, hiff⟩

/-- **Slots and connections.** In every run of callbacks, each call of `trx_cb` in which `receive_msg`
returns closes the descriptor and frees the slot exactly when the connection is gone, if and only if
none of these calls is one that `trx_cb` misjudges. -/
theorem slots_released_iff (s : System) (links : IntrusiveList.Links Socket) (registered : List Nat)
    (others : Int → Bool) (hlinks : IntrusiveList.Represents links .head (registered.map .other))
    (is : List Callback)
    (hgranted : callbacks.Meets Station.Grants ⟨s, some (.start links others)⟩ is) :
    callbacks.Meets ReleasedWhenGone ⟨s, some (.start links others)⟩ is ↔
      callbacks.Meets WellJudged ⟨s, some (.start links others)⟩ is := by
  apply callbacks.meets_congr_of (I := Kept others) (fun s i h hA => kept_step h hA) ?_
    ⟨_, rfl, TrxTable.inStep_start hlinks others⟩ hgranted
  intro s i h _
  exact releasedWhenGone_iff h

/-- The station before the first connection. -/
def Station.init : Station :=
  ⟨System.init, some (.start (IntrusiveList.Links.init Socket.head) fun _ => false)⟩

/-- A transceiver connects, and sends an octet that is no message for the BTS; then it goes. -/
theorem slots_released_iff_gone :
    let is : List Callback := [.accept ⟨5, 0, 0, 0⟩,
      .trx 0 .plain ⟨.octets 0x00 [0x01, 0x01], .octets 0x00 []⟩, .trx 0 .plain ⟨.zero, .zero⟩]
    callbacks.Meets ReleasedWhenGone Station.init is ↔ callbacks.Meets WellJudged Station.init is :=
  slots_released_iff System.init (IntrusiveList.Links.init Socket.head) [] (fun _ => false)
    (IntrusiveList.init_represents Socket.head)
    [.accept ⟨5, 0, 0, 0⟩, .trx 0 .plain ⟨.octets 0x00 [0x01, 0x01], .octets 0x00 []⟩,
      .trx 0 .plain ⟨.zero, .zero⟩]
    ⟨⟨fun _ => rfl, by decide, by decide, by decide⟩, trivial, trivial, trivial⟩

/-- The station with a transceiver in the first slot. -/
def Station.connected : Station := (callbacks.step Station.init (.accept ⟨5, 0, 0, 0⟩)).1

theorem kept_init : Kept (fun _ => false) Station.init := by
  have hlinks : IntrusiveList.Represents (IntrusiveList.Links.init Socket.head) Socket.head
      (([] : List Nat).map Socket.other) := IntrusiveList.init_represents Socket.head
  exact ⟨_, rfl, TrxTable.inStep_start hlinks _⟩

theorem kept_connected : Kept (fun _ => false) Station.connected :=
  kept_step kept_init ⟨fun _ => rfl, by decide, by decide, by decide⟩

/-- A transceiver connects, and then: it sends a header without a body and stays; or it sends a header
that announces a body, and the connection is reset before the body. -/
theorem slots_misjudged :
    ¬ callbacks.Meets ReleasedWhenGone Station.init
        [.accept ⟨5, 0, 0, 0⟩, .trx 0 .plain ⟨.octets 0x00 [0x00, 0x01], .zero⟩] ∧
      ¬ callbacks.Meets ReleasedWhenGone Station.init
        [.accept ⟨5, 0, 0, 0⟩, .trx 0 .plain ⟨.octets 0x00 [0x05, 0x01], .error .fatal⟩] := by
  obtain ⟨t, ht, -⟩ := kept_connected
  have hslot : Station.connected.slotAt 0 = some 0 := by rfl
  constructor
  · intro h
    have hjudged := (releasedWhenGone_iff kept_connected).mp h.2.1
    exact hjudged t 0 _ ⟨rfl, ht, ⟨0, .plain, rfl, hslot⟩, by decide⟩
      (.bodiless rfl rfl rfl)
  · intro h
    have hjudged := (releasedWhenGone_iff kept_connected).mp h.2.1
    exact hjudged t 0 _ ⟨rfl, ht, ⟨0, .plain, rfl, hslot⟩, by decide⟩
      (.reset (by decide) rfl)

end SoftBts
