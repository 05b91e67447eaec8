import SoftBts.Leftovers

/-! The BTS with its connections: complete frames arrive on the O&M link, the radio link and the
links of transceivers, in any interleaving. No handler looks at the socket a message came from, the
first two links share a buffer, and so the O&M link is separate from the others only as far as these
keep to messages that have nothing to do with management. -/

namespace SoftBts

open Octets Reactive

/-! ### The system -/

/-- The BTS between messages: its state, how it has ended if it has, and the two message buffers. -/
structure System where
  bts : Bts
  stop : Option Stop
  pmsg : Mem
  pmsgTrx : Mem

/-- The buffer that the callback of a connection passes to `receive_msg`. -/
def System.buffer (s : System) : Link → Mem
  | .trx _ => s.pmsgTrx
  | _ => s.pmsg

/-- The system after `receive_msg` has come to an end. -/
def System.received (s : System) (sd : Link) (r : Outcome) : System :=
  match sd with
  | .trx _ => { s with bts := r.handling.bts, stop := r.stop, pmsgTrx := r.handling.mem }
  | _ => { s with bts := r.handling.bts, stop := r.stop, pmsg := r.handling.mem }

/-- A frame that arrives on a connection, and what its handling takes from outside. -/
structure Arrival where
  env : Env
  sd : Link
  frame : Frame

/-- The callbacks `oml_connection`, `rsl_connection` and `trx_cb`, each called when a frame has
arrived on its connection. -/
def system : Machine System Arrival Sent where
  step s i :=
    match s.stop with
    | some _ => (s, [])
    | none =>
        let r := i.frame.received i.env i.sd (s.buffer i.sd) s.bts
        (s.received i.sd r, r.handling.sent)

/-- What an arrival does. -/
def System.effect (s : System) (i : Arrival) : Effect :=
  (i.frame.message i.env i.sd (s.buffer i.sd)).effect s.bts

variable {s t : System} {i : Arrival}

theorem system_step_stopped {why : Stop} (hs : s.stop = some why) : system.step s i = (s, []) := by
  simp [system, hs]

theorem system_step_running (hs : s.stop = none) :
    (system.step s i).1.bts = (s.effect i).bts ∧ (system.step s i).1.stop = (s.effect i).stop ∧
      (system.step s i).2 = (s.effect i).sent := by
  rw [System.effect, ← received_effect]
  simp only [system, hs, Outcome.effect]
  cases i.sd <;> exact ⟨rfl, rfl, trivial⟩

/-! ### The links -/

/-- The arrival is on the O&M link. -/
def Arrival.onOml (i : Arrival) : Bool := i.sd = .oml

/-- The octet string is sent on the O&M link. -/
def Sent.onOml (s : Sent) : Bool := s.sd = .oml

/-- What keeps the O&M link separate, after some arrivals: a frame on it is filled up with nothing
that the radio link left in the buffer, if a frame has come there; a frame on another link is no O&M
message, and no MSG_ID_GET before the first one was answered, and its handling returns. -/
structure Separate (past : List Arrival) (s : System) (i : Arrival) : Prop where
  own : i.sd = .oml → (∃ j ∈ past, j.sd = .rsl) → SelfContained i.frame
  proto : i.sd ≠ .oml → i.frame.proto ≠ protoOml
  idGet : i.sd ≠ .oml → i.frame.proto = protoSoftbts →
    (i.frame.message i.env i.sd (s.buffer i.sd)).cmd = msgIdGet → s.bts.btsIdResp = true
  returns : i.sd ≠ .oml → s.stop = none → (system.step s i).1.stop = none

/-- A self-contained frame does the same in two systems that differ in their buffers. -/
theorem effect_eq_of_own (hown : SelfContained i.frame) (hbts : s.bts = t.bts) :
    s.effect i = t.effect i := by
  rw [System.effect, System.effect, effect_of_selfContained hown,
    effect_of_selfContained hown _ _ (t.buffer i.sd), hbts]

/-- What is not management changes nothing and is answered where it came from, if at all. -/
theorem Separate.effect_high {past : List Arrival} (h : Separate past s i) (hsd : i.sd ≠ .oml) :
    (s.effect i).bts = s.bts ∧ ∀ x ∈ (s.effect i).sent, x.sd = i.sd := by
  have hproto := i.frame.proto_message i.env i.sd (s.buffer i.sd)
  have homl := h.proto hsd
  by_cases hsoftbts : i.frame.proto = protoSoftbts
  · rw [System.effect, Message.effect_softbts (hproto.trans hsoftbts), Effect.softbts]
    split_ifs with hping hget hfirst
    · exact ⟨rfl, by simp [Frame.message]⟩
    · rw [h.idGet hsd hsoftbts hget] at hfirst
      exact absurd hfirst.2 (by decide)
    · exact ⟨rfl, by simp [Frame.message]⟩
    · exact ⟨rfl, List.forall_mem_nil _⟩
  · obtain ⟨stop, he⟩ := Message.effect_other (hproto.trans_ne hsoftbts) (hproto.trans_ne homl) s.bts
    rw [System.effect, he]
    exact ⟨rfl, List.forall_mem_nil _⟩

/-! ### Runs -/

/-- Two systems in the same management state that both go on, or have both ended the same way; and
with the same in the buffer of the O&M link, as long as nothing has come on the radio link. -/
structure SameState (past : List Arrival) (s t : System) : Prop where
  bts : s.bts = t.bts
  stop : s.stop = t.stop
  buffer : (∀ j ∈ past, j.sd ≠ .rsl) → s.pmsg = t.pmsg

variable {past : List Arrival}

theorem pmsg_step_trx (hsd : i.sd ≠ .oml) (hrsl : i.sd ≠ .rsl) : (system.step s i).1.pmsg = s.pmsg := by
  cases hs : s.stop with
  | some why => rw [system_step_stopped hs]
  | none =>
      simp only [system, hs, System.received]
      split
      · rfl
      · rename_i hno
        cases hlink : i.sd with
        | oml => exact absurd hlink hsd
        | rsl => exact absurd hlink hrsl
        | trx k => exact absurd hlink (hno k)

/-- On the O&M link the same is done in two systems with the same in its buffer. -/
theorem step_eq_of_buffer (hsd : i.sd = .oml) (hst : SameState past s t) (hpmsg : s.pmsg = t.pmsg) :
    (system.step s i).2 = (system.step t i).2 ∧
      (system.step s i).1.bts = (system.step t i).1.bts ∧
      (system.step s i).1.stop = (system.step t i).1.stop ∧
      (system.step s i).1.pmsg = (system.step t i).1.pmsg := by
  cases hs : s.stop with
  | some why =>
      rw [system_step_stopped hs, system_step_stopped (hst.stop ▸ hs)]
      exact ⟨rfl, hst.bts, hst.stop, hpmsg⟩
  | none =>
      have ht : t.stop = none := hst.stop ▸ hs
      simp only [system, hs, ht, hsd, System.buffer, System.received, hst.bts, hpmsg]
      exact ⟨trivial, trivial, trivial, trivial⟩

theorem sameState_low (hst : SameState past s t) (hlow : i.onOml = true) (h : Separate past s i) :
    SameState (past ++ [i]) (system.step s i).1 (system.step t i).1 ∧
      (system.step s i).2.filter Sent.onOml = (system.step t i).2.filter Sent.onOml := by
  have hsd : i.sd = .oml := of_decide_eq_true hlow
  by_cases hrsl : ∃ j ∈ past, j.sd = .rsl
  · have hbuffer : ¬ ∀ j ∈ past ++ [i], j.sd ≠ .rsl := fun hnone =>
      hrsl.elim fun j hj => hnone j (List.mem_append_left _ hj.1) hj.2
    cases hs : s.stop with
    | some why =>
        rw [system_step_stopped hs, system_step_stopped (hst.stop ▸ hs)]
        exact ⟨⟨hst.bts, hst.stop, fun hnone => absurd hnone hbuffer⟩, rfl⟩
    | none =>
        have he := effect_eq_of_own (h.own hsd hrsl) hst.bts
        obtain ⟨hbts', hstop', hsent'⟩ := system_step_running (i := i) hs
        obtain ⟨hbts'', hstop'', hsent''⟩ := system_step_running (i := i) (hst.stop ▸ hs)
        refine ⟨⟨?_, ?_, fun hnone => absurd hnone hbuffer⟩, ?_⟩
        · rw [hbts', hbts'', he]
        · rw [hstop', hstop'', he]
        · rw [hsent', hsent'', he]
  · have hpmsg := hst.buffer fun j hj heq => hrsl ⟨j, hj, heq⟩
    obtain ⟨hsent, hbts, hstop, hpmsg'⟩ := step_eq_of_buffer hsd hst hpmsg
    exact ⟨⟨hbts, hstop, fun _ => hpmsg'⟩, by rw [hsent]⟩

theorem sameState_high (hst : SameState past s t) (hhigh : i.onOml = false)
    (h : Separate past s i) :
    SameState (past ++ [i]) (system.step s i).1 t ∧ (system.step s i).2.filter Sent.onOml = [] := by
  have hsd : i.sd ≠ .oml := of_decide_eq_false hhigh
  have hbuffer : (∀ j ∈ past ++ [i], j.sd ≠ .rsl) → (system.step s i).1.pmsg = t.pmsg := by
    intro hnone
    rw [pmsg_step_trx hsd (hnone i (List.mem_append_right past List.mem_cons_self))]
    exact hst.buffer fun j hj => hnone j (List.mem_append_left _ hj)
  cases hs : s.stop with
  | some why =>
      rw [system_step_stopped hs] at hbuffer ⊢
      exact ⟨⟨hst.bts, hst.stop, hbuffer⟩, rfl⟩
  | none =>
      obtain ⟨hkept, hlinks⟩ := h.effect_high hsd
      obtain ⟨hbts', -, hsent'⟩ := system_step_running (i := i) hs
      refine ⟨⟨?_, ?_, hbuffer⟩, ?_⟩
      · rw [hbts', hkept, hst.bts]
      · rw [h.returns hsd hs, ← hst.stop, hs]
      · rw [hsent', List.filter_eq_nil_iff]
        intro x hx honoml
        exact hsd ((hlinks x hx).symm.trans (of_decide_eq_true honoml))

/-- **Link separation.** In a run whose steps all keep the O&M link separate, the management state
reached and the octet strings sent on the O&M link are those of the run of the frames on the O&M
link alone. -/
theorem system_linkSeparation (s : System) (is : List Arrival)
    (hsep : ∀ pre i post, is = pre ++ i :: post → Separate pre (system.after s pre) i) :
    (system.after s is).bts = (system.after s (is.filter Arrival.onOml)).bts ∧
      (system.outputs s is).filter Sent.onOml =
        (system.outputs s (is.filter Arrival.onOml)).filter Sent.onOml := by
  have hstart : SameState [] s s := ⟨rfl, rfl, fun _ => rfl⟩
  obtain ⟨hstate, hsent⟩ := system.unwinding (fun _ _ _ _ hst hlow h => sameState_low hst hlow h)
    (fun _ _ _ _ hst hhigh h => sameState_high hst hhigh h) hstart
    fun pre i post his => hsep pre i post his
  exact ⟨hstate.bts, hsent⟩

def idGetFrame : Frame := ⟨protoSoftbts, [msgIdGet], by decide⟩

/-- MSG_ID_GET on a link. -/
def idGet (sd : Link) : Arrival := ⟨.plain, sd, idGetFrame⟩

theorem selfContained_idGet : SelfContained idGetFrame :=
  ⟨fun _ => by decide, fun h => absurd h (by decide), fun h => absurd h (by decide)⟩

/-- The system when it starts. -/
def System.init : System := ⟨startup, none, Mem.blank, Mem.blank⟩

/-- The radio link asks for the identity after the O&M link, and a frame on the O&M link before them is
filled up with what the buffer holds. -/
theorem idGet_oml_first :
    let is : List Arrival := [⟨.plain, .oml, bareChgAdmState⟩, idGet .oml, idGet .rsl]
    (system.after System.init is).bts =
        (system.after System.init (is.filter Arrival.onOml)).bts ∧
      (system.outputs System.init is).filter Sent.onOml =
        (system.outputs System.init (is.filter Arrival.onOml)).filter Sent.onOml := by
  refine system_linkSeparation System.init _ fun pre i post his => ?_
  rcases pre with _ | ⟨_, _ | ⟨_, _ | ⟨_, pre⟩⟩⟩
  · obtain ⟨rfl, -⟩ := List.cons.inj his
    exact ⟨by simp, fun h => absurd rfl h, fun h => absurd rfl h, fun h => absurd rfl h⟩
  · cases his
    exact ⟨fun _ _ => selfContained_idGet, fun h => absurd rfl h, fun h => absurd rfl h,
      fun h => absurd rfl h⟩
  · cases his
    exact ⟨fun h => absurd h (by decide), fun _ => by decide, fun _ _ _ => by decide,
      fun _ _ => by decide⟩
  · simp at his

/-- A frame of no protocol of the BTS, with the code of UNLOCKED where an administrative state is in
an O&M message. -/
def strayFrame : Frame := ⟨0x01, List.replicate 10 0x00 ++ [nmStateUnlocked], by decide⟩

/-- The radio link asks first: it is sent the initial state report, and the O&M link is not. And what
the radio link leaves in the buffer gives the BTS an administrative state. -/
theorem idGet_rsl_first :
    ((system.outputs System.init [idGet .rsl, idGet .oml]).filter Sent.onOml ≠
      (system.outputs System.init ([idGet .rsl, idGet .oml].filter Arrival.onOml)).filter
        Sent.onOml) ∧
    (system.after System.init [⟨.plain, .rsl, strayFrame⟩, ⟨.plain, .oml, bareChgAdmState⟩]).bts ≠
      (system.after System.init ([⟨.plain, .rsl, strayFrame⟩,
        ⟨.plain, .oml, bareChgAdmState⟩].filter Arrival.onOml)).bts := by
  refine ⟨fun h => ?_, by decide⟩
  have hreport : ⟨.oml, initialReport .siteManager, startup⟩ ∈
      (system.outputs System.init ([idGet .rsl, idGet .oml].filter Arrival.onOml)).filter
        Sent.onOml := by decide
  rw [← h] at hreport
  exact absurd hreport (by decide)

end SoftBts
