import SoftBts.LegalStates

/-! Whether State Changed Event Reports carry the state the BTS holds. -/

namespace SoftBts

open Octets Reactive

/-- A report carries the operational and administrative state held when it is sent. -/
def Truthful (s : Sent) : Prop :=
  ∀ (o : Obj) (opState avStatus admState : UInt8),
    s.octets = reportFrame o.inst opState avStatus admState →
      opState = s.held.stateVar (.opstate o) ∧ admState = s.held.stateVar (.adminState o)

/-- The object is in the operational and administrative state given. -/
def Bts.InState (b : Bts) (o : Obj) (opState admState : UInt8) : Prop :=
  opState = b.stateVar (.opstate o) ∧ admState = b.stateVar (.adminState o)

/-- The two states are those of the object. -/
def IsHeld (b : Bts) (inst : ObjInst) (opState admState : UInt8) : Prop :=
  ∀ o : Obj, o.inst = inst → b.InState o opState admState

theorem truthful_iff_reporting (s : Sent) : Truthful s ↔ Reporting IsHeld s := by
  constructor
  · rintro h _ opState avStatus admState hs o rfl
    exact h o opState avStatus admState hs
  · intro h o opState avStatus admState hs
    exact h o.inst opState avStatus admState hs o rfl

theorem isHeld_inst_iff {b : Bts} {o : Obj} {opState admState : UInt8} :
    IsHeld b o.inst opState admState ↔ b.InState o opState admState :=
  ⟨fun h => h o rfl, fun h _ ho => Obj.inst_injective ho ▸ h⟩

theorem storedReports_isHeld (b : Bts) : StoredReports IsHeld b :=
  fun _ => isHeld_inst_iff.mpr ⟨rfl, rfl⟩

/-- The constants that a message makes the BTS report are the state it holds: in the handling of the
first MSG_ID_GET all objects are DISABLED and LOCKED, and an object that is activated is in the state
that is reported on activation. -/
def ReportsHeld (w : World) (i : Message) : Prop :=
  w.stop = none →
    (i.proto = protoSoftbts → i.cmd = msgIdGet → killed i.env (i.env.send 0) = none →
      w.bts.btsIdResp = false → ∀ o, w.bts.InState o nmOpstateDisabled nmStateLocked) ∧
    (i.proto = protoOml → i.request.msgType = nmMtActivateSw →
      ∀ o state, i.request.obj = some o → activationReport o = some state →
        w.bts.InState o state.1 state.2)

theorem constantReports_isHeld_iff (b : Bts) (i : Message) :
    ConstantReports IsHeld b i ↔
      (i.proto = protoSoftbts → i.cmd = msgIdGet → killed i.env (i.env.send 0) = none →
        b.btsIdResp = false → ∀ o, b.InState o nmOpstateDisabled nmStateLocked) ∧
      (i.proto = protoOml → i.request.msgType = nmMtActivateSw →
        ∀ o state, i.request.obj = some o → activationReport o = some state →
          b.InState o state.1 state.2) := by
  simp only [ConstantReports, ActivationReports, isHeld_inst_iff, Bts.InState,
    Bts.stateVar_activate]
  refine and_congr Iff.rfl (forall_congr' fun _ => forall_congr' fun _ => and_iff_left ?_)
  -- a report under a channel number that is no object's
  intro hnone hclass o hinst
  have hnamed := Obj.named_inst o
  rw [hinst] at hnamed
  rw [Request.obj, hclass] at hnone
  rw [hnone] at hnamed
  cases hnamed

theorem step_truthful_iff (w : World) (i : Message) :
    (∀ s ∈ (handler.step w i).2, Truthful s) ↔ ReportsHeld w i := by
  rw [ReportsHeld]
  cases hstop : w.stop with
  | some why =>
      rw [handler_step_stopped hstop]
      exact iff_of_true (List.forall_mem_nil _) nofun
  | none =>
      rw [handler_step_running hstop, ← constantReports_isHeld_iff,
        ← reporting_effect (storedReports_isHeld _)]
      simp only [truthful_iff_reporting, forall_const]

/-- **Reports tell the truth** in a run from start-up if and only if in each of its steps the
constants that are reported are the state held. -/
theorem reports_truthful_iff (is : List Message) :
    (∀ s ∈ handler.outputs World.init is, Truthful s) ↔
      handler.Meets ReportsHeld World.init is := by
  rw [Machine.forall_outputs_iff]
  exact handler.meets_congr step_truthful_iff

/-! ### The condition read off the messages -/

/-- The messages have left an object as it is initialised: it has not been started, and the
administrative state given last is LOCKED. -/
structure LeftAlone (is : List Message) (o : Obj) : Prop where
  started : ∀ i ∈ is, ¬ i.Starts o
  locked : ∀ v, lastAdminState is o = some v → v = nmStateLocked

/-- After a run from start-up an object is held DISABLED and LOCKED if it is initialised so and the
messages have left it so. -/
theorem inState_disabled_iff (is : List Message) (o : Obj) :
    (handler.after World.init is).bts.InState o nmOpstateDisabled nmStateLocked ↔
      Initialised o ∧ LeftAlone (handled World.init is) o := by
  classical
  have hstartup : (startup.stateVar (.opstate o) = nmOpstateDisabled ↔ Initialised o) ∧
      (startup.stateVar (.adminState o) = nmStateLocked ↔ Initialised o) := by
    cases o with
    | channel ts =>
        simp only [Initialised, Obj.channel.injEq, forall_eq']
        revert ts
        decide
    | _ => exact ⟨iff_of_true rfl (by rintro ts ⟨⟩), iff_of_true rfl (by rintro ts ⟨⟩)⟩
  rw [Bts.InState, opstate_after, adminState_after, getLast?_opstateFor]
  by_cases hstarts : ∃ i ∈ handled World.init is, i.Starts o
  · rw [if_pos hstarts, Option.getD_some]
    refine iff_of_false (fun h => absurd h.1 (by decide)) ?_
    rintro ⟨-, halone⟩
    exact hstarts.elim fun i hi => halone.started i hi.1 hi.2
  · have hstarted : ∀ i ∈ handled World.init is, ¬ i.Starts o := fun i hi h => hstarts ⟨i, hi, h⟩
    rw [if_neg hstarts, Option.getD_none, eq_comm, hstartup.1]
    refine and_congr_right fun hinit => ?_
    cases hlast : lastAdminState (handled World.init is) o with
    | none =>
        refine iff_of_true (hstartup.2.mpr hinit).symm ⟨hstarted, fun v hv => ?_⟩
        rw [hlast] at hv
        cases hv
    | some v =>
        refine ⟨fun h => ⟨hstarted, fun v' hv => ?_⟩, fun h => (h.locked v hlast).symm⟩
        rw [hlast] at hv
        exact (Option.some.inj hv).symm.trans h.symm

/-- The SITE MANAGER is UNLOCKED as soon as it is ENABLED. -/
theorem not_inState_siteManager (is : List Message) :
    ¬ (handler.after World.init is).bts.InState .siteManager nmOpstateEnabled nmStateLocked := by
  classical
  rw [Bts.InState, opstate_after, adminState_after, getLast?_opstateFor]
  rintro ⟨hopstate, hadmin⟩
  have hsame : ∀ i : Message, i.Starts .siteManager →
      i.adminStateFor .siteManager = some nmStateUnlocked := by
    rintro i ⟨homl, hobj, hopstart⟩
    rw [Message.adminStateFor, if_pos ⟨homl, hobj⟩, if_pos rfl, if_pos hopstart]
  by_cases hstarts : ∃ i ∈ handled World.init is, i.Starts .siteManager
  · obtain ⟨i, hi, hstart⟩ := hstarts
    have hne : (handled World.init is).filterMap (·.adminStateFor .siteManager) ≠ [] :=
      List.ne_nil_of_mem (List.mem_filterMap.mpr ⟨i, hi, hsame i hstart⟩)
    obtain ⟨j, -, hj⟩ := List.mem_filterMap.mp (List.getLast_mem hne)
    rw [lastAdminState, List.getLast?_eq_some_getLast hne, Option.getD_some] at hadmin
    rw [Message.adminStateFor, if_pos rfl] at hj
    split_ifs at hj
    rw [← hadmin] at hj
    exact absurd hj (by decide)
  · rw [if_neg hstarts] at hopstate
    exact absurd hopstate (by decide)

/-- **Where the constants are the states held.** After a run from start-up the constants that a
message makes the BTS report are the states held if and only if it is not the first MSG_ID_GET that is
answered, and no activation of the SITE MANAGER, nor one of the BTS or a channel that the messages
have not left DISABLED and LOCKED. -/
theorem reportsHeld_after_iff (is : List Message) (i : Message) :
    ReportsHeld (handler.after World.init is) i ↔
      ((handler.after World.init is).stop = none →
        ¬ (i.proto = protoSoftbts ∧ i.cmd = msgIdGet ∧ killed i.env (i.env.send 0) = none ∧
          (handler.after World.init is).bts.btsIdResp = false) ∧
        (i.proto = protoOml → i.request.msgType = nmMtActivateSw →
          ∀ o, i.request.obj = some o → activationReport o ≠ none →
            o ≠ .siteManager ∧ Initialised o ∧ LeftAlone (handled World.init is) o)) := by
  refine imp_congr_right fun _ => and_congr ?_ ?_
  · constructor
    · rintro h ⟨hproto, hcmd, hkilled, hresp⟩
      have hchannel := (inState_disabled_iff is (.channel 1)).mp (h hproto hcmd hkilled hresp _)
      exact absurd (hchannel.1 1 rfl) (by decide)
    · intro h hproto hcmd hkilled hresp
      exact absurd ⟨hproto, hcmd, hkilled, hresp⟩ h
  · refine forall_congr' fun _ => forall_congr' fun _ => forall_congr' fun o => ?_
    have hdisabled := inState_disabled_iff is o
    cases o with
    | siteManager =>
        refine ⟨fun h hobj _ => ?_, fun h state hobj _ => ?_⟩
        · exact absurd (h _ hobj rfl) (not_inState_siteManager is)
        · exact absurd rfl (h hobj (by decide)).1
    | radioCarrier => exact iff_of_true (fun _ _ hnone => by cases hnone) fun _ hne => absurd rfl hne
    | basebTransc => exact iff_of_true (fun _ _ hnone => by cases hnone) fun _ hne => absurd rfl hne
    | _ =>
        refine ⟨fun h hobj _ => ⟨Obj.noConfusion, hdisabled.mp (h _ hobj rfl)⟩, ?_⟩
        rintro h _ hobj ⟨⟩
        exact hdisabled.mpr (h hobj (by simp [activationReport])).2

/-- The first MSG_ID_GET after start-up: channel 1 is reported DISABLED and LOCKED while its states
are zero, which C put into the entries that the initialisers of the arrays leave out. -/
theorem first_idGet_reports_untruly :
    ∃ s ∈ handler.outputs World.init [Message.onOml [0x00, 0x01, protoSoftbts, msgIdGet]],
      ¬ Truthful s := by
  refine ⟨⟨.oml, initialReport (.channel 1), startup⟩, by decide, fun h => ?_⟩
  exact absurd (h (.channel 1) _ _ _ rfl) (by decide)

end SoftBts
