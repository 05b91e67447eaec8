import SoftBts.Reports
import SoftBts.StateHistory

/-! Which runs leave legal values in the state variables. The initialisers of the channel arrays
leave zeros for the channels from 1 on, and CHANGE ADMINISTRATIVE STATE copies whatever octet it
finds. -/

namespace SoftBts

open Octets Reactive LastWrite

/-- The values of `abis_nm_op_state`. -/
def LegalOpstate (v : UInt8) : Prop := v ∈ [nmOpstateDisabled, nmOpstateEnabled, nmOpstateNull]

/-- The values of `abis_nm_adm_state`. -/
def LegalAdminState (v : UInt8) : Prop :=
  v ∈ [nmStateLocked, nmStateUnlocked, nmStateShutdown, nmStateNull]

instance : DecidablePred LegalOpstate := fun v => inferInstanceAs (Decidable (v ∈ _))

instance : DecidablePred LegalAdminState := fun v => inferInstanceAs (Decidable (v ∈ _))

/-- Every state variable holds a legal value. -/
def Bts.Legal (b : Bts) : Prop :=
  ∀ o, LegalOpstate (b.stateVar (.opstate o)) ∧ LegalAdminState (b.stateVar (.adminState o))

/-- A report carries legal values. -/
def LegalReport (s : Sent) : Prop :=
  ∀ (o : ObjInst) (opState avStatus admState : UInt8),
    s.octets = reportFrame o opState avStatus admState →
      LegalOpstate opState ∧ LegalAdminState admState

/-! ### The history of an object -/

namespace Message

/-- The message starts the object. -/
def Starts (i : Message) (o : Obj) : Prop :=
  i.proto = protoOml ∧ i.request.obj = some o ∧ i.request.msgType = nmMtOpstart

/-- The operational state the message gives the object. -/
def opstateFor (i : Message) (o : Obj) : Option UInt8 :=
  if i.proto = protoOml ∧ i.request.obj = some o then
    if i.request.msgType = nmMtOpstart then some nmOpstateEnabled else none
  else none

/-- The administrative state the message gives the object. -/
def adminStateFor (i : Message) (o : Obj) : Option UInt8 :=
  if i.proto = protoOml ∧ i.request.obj = some o then
    if o = .siteManager then
      if i.request.msgType = nmMtOpstart then some nmStateUnlocked else none
    else if i.request.msgType = nmMtChgAdmState then some i.request.adminState
    else none
  else none

end Message

/-- The administrative state that the last message of the run to give the object one gave it. -/
def lastAdminState (is : List Message) (o : Obj) : Option UInt8 :=
  (is.filterMap (·.adminStateFor o)).getLast?

theorem lastWrite_startWrites_opstate (p o : Obj) :
    lastWrite (.opstate o) (startWrites p) = if p = o then some nmOpstateEnabled else none := by
  cases p <;> simp [startWrites, lastWrite]

theorem lastWrite_startWrites_adminState (p o : Obj) :
    lastWrite (.adminState o) (startWrites p) =
      if p = o ∧ o = .siteManager then some nmStateUnlocked else none := by
  cases p <;> cases o <;> simp [startWrites, lastWrite]

theorem lastWrite_adminWrites_opstate (v : UInt8) (p o : Obj) :
    lastWrite (.opstate o) (adminWrites v p) = none := by
  cases p <;> simp [adminWrites, lastWrite]

theorem lastWrite_adminWrites_adminState (v : UInt8) (p o : Obj) :
    lastWrite (.adminState o) (adminWrites v p) =
      if p = o ∧ o ≠ .siteManager then some v else none := by
  cases p <;> cases o <;> simp [adminWrites, lastWrite]

theorem lastWrite_opstate (i : Message) (o : Obj) :
    lastWrite (.opstate o) i.writes = i.opstateFor o := by
  simp only [Message.writes, Request.writes, Message.opstateFor]
  by_cases homl : i.proto = protoOml
  · cases i.request.obj with
    | some p =>
        simp only [homl, if_true, true_and, Option.toList_some, List.flatMap_singleton,
          Option.some.injEq]
        split_ifs <;>
          simp_all [lastWrite_startWrites_opstate, lastWrite_adminWrites_opstate, lastWrite]
    | none =>
        simp only [homl, Option.toList_none, List.flatMap_nil, ite_self]
        rfl
  · rw [if_neg homl, if_neg (fun h => homl h.1)]
    rfl

theorem lastWrite_adminState (i : Message) (o : Obj) :
    lastWrite (.adminState o) i.writes = i.adminStateFor o := by
  simp only [Message.writes, Request.writes, Message.adminStateFor]
  by_cases homl : i.proto = protoOml
  · cases i.request.obj with
    | some p =>
        simp only [homl, if_true, true_and, Option.toList_some, List.flatMap_singleton,
          Option.some.injEq]
        split_ifs <;>
          simp_all [lastWrite_startWrites_adminState, lastWrite_adminWrites_adminState, lastWrite]
    | none =>
        simp only [homl, Option.toList_none, List.flatMap_nil, ite_self]
        rfl
  · rw [if_neg homl, if_neg (fun h => homl h.1)]
    rfl

/-- The operational state of an object after a run from start-up. -/
theorem opstate_after (is : List Message) (o : Obj) :
    (handler.after World.init is).bts.stateVar (.opstate o) =
      ((handled World.init is).filterMap (·.opstateFor o)).getLast?.getD
        (startup.stateVar (.opstate o)) := by
  rw [stateVar_after, applyWrites_apply, lastWrite_flatMap]
  simp only [lastWrite_opstate]
  rfl

/-- The administrative state of an object after a run from start-up. -/
theorem adminState_after (is : List Message) (o : Obj) :
    (handler.after World.init is).bts.stateVar (.adminState o) =
      (lastAdminState (handled World.init is) o).getD (startup.stateVar (.adminState o)) := by
  rw [stateVar_after, applyWrites_apply, lastWrite_flatMap]
  simp only [lastWrite_adminState]
  rfl

theorem opstateFor_eq_some {i : Message} {o : Obj} {v : UInt8} (h : i.opstateFor o = some v) :
    i.Starts o ∧ v = nmOpstateEnabled := by
  rw [Message.opstateFor] at h
  split_ifs at h with hnamed hopstart
  exact ⟨⟨hnamed.1, hnamed.2, hopstart⟩, (Option.some.inj h).symm⟩

theorem opstateFor_of_starts {i : Message} {o : Obj} (h : i.Starts o) :
    i.opstateFor o = some nmOpstateEnabled := by
  obtain ⟨homl, hobj, hopstart⟩ := h
  rw [Message.opstateFor, if_pos ⟨homl, hobj⟩, if_pos hopstart]

/-- The value the last start of an object gave it. -/
theorem getLast?_opstateFor (is : List Message) (o : Obj) [Decidable (∃ i ∈ is, i.Starts o)] :
    (is.filterMap (·.opstateFor o)).getLast? =
      if ∃ i ∈ is, i.Starts o then some nmOpstateEnabled else none := by
  split_ifs with hstarts
  · obtain ⟨i, hi, hi'⟩ := hstarts
    have hne : is.filterMap (·.opstateFor o) ≠ [] :=
      List.ne_nil_of_mem (List.mem_filterMap.mpr ⟨i, hi, opstateFor_of_starts hi'⟩)
    obtain ⟨j, -, hj⟩ := List.mem_filterMap.mp (List.getLast_mem hne)
    rw [List.getLast?_eq_some_getLast hne, (opstateFor_eq_some hj).2]
  · rw [List.getLast?_eq_none_iff, List.filterMap_eq_nil_iff]
    intro i hi
    cases hv : i.opstateFor o with
    | none => rfl
    | some v => exact absurd ⟨i, hi, (opstateFor_eq_some hv).1⟩ hstarts

/-! ### Legal states -/

/-- An object whose states have initialisers: all but the channels from 1 on. -/
def Initialised (o : Obj) : Prop := ∀ ts, o = .channel ts → ts.val = 0

theorem legal_startup_iff (o : Obj) :
    (LegalOpstate (startup.stateVar (.opstate o)) ↔ Initialised o) ∧
      (LegalAdminState (startup.stateVar (.adminState o)) ↔ Initialised o) := by
  cases o with
  | channel ts =>
      simp only [Initialised, Obj.channel.injEq, forall_eq']
      revert ts
      decide
  | _ => exact ⟨iff_of_true (by decide) nofun, iff_of_true (by decide) nofun⟩

/-- What the messages must have done for the states of an object to be legal: both are initialised or
have been written, and the administrative state written last is a legal one. -/
def LegalHistory (is : List Message) (o : Obj) : Prop :=
  (Initialised o ∨ ∃ i ∈ is, i.Starts o) ∧
    (Initialised o ∨ lastAdminState is o ≠ none) ∧
      ∀ v, lastAdminState is o = some v → LegalAdminState v

theorem legalOpstate_after_iff (is : List Message) (o : Obj) :
    LegalOpstate ((handler.after World.init is).bts.stateVar (.opstate o)) ↔
      Initialised o ∨ ∃ i ∈ handled World.init is, i.Starts o := by
  classical
  rw [opstate_after, getLast?_opstateFor]
  split_ifs with hstarts
  · have hlegal : LegalOpstate nmOpstateEnabled := by decide
    exact iff_of_true hlegal (Or.inr hstarts)
  · rw [Option.getD_none, (legal_startup_iff o).1, or_iff_left hstarts]

theorem legalAdminState_after_iff (is : List Message) (o : Obj) :
    LegalAdminState ((handler.after World.init is).bts.stateVar (.adminState o)) ↔
      (Initialised o ∨ lastAdminState (handled World.init is) o ≠ none) ∧
        ∀ v, lastAdminState (handled World.init is) o = some v → LegalAdminState v := by
  rw [adminState_after]
  cases lastAdminState (handled World.init is) o with
  | none => simp [legal_startup_iff o]
  | some v => simp

/-- The report of an object carries legal values if the messages have given the object legal ones. -/
def HistoryReport (is : List Message) (_ : Bts) (inst : ObjInst) (opState admState : UInt8) : Prop :=
  ∀ o : Obj, o.inst = inst → LegalHistory is o → LegalOpstate opState ∧ LegalAdminState admState

/-- The constants that are reported are legal. -/
theorem constantReports_of_legal {Q : Bts → ObjInst → UInt8 → UInt8 → Prop} {b : Bts} {i : Message}
    (h : ∀ held inst opState admState, LegalOpstate opState ∧ LegalAdminState admState →
      Q held inst opState admState) : ConstantReports Q b i := by
  refine ⟨fun _ _ _ _ _ => h _ _ _ _ (by decide), fun _ _ => ⟨?_, fun _ _ => h _ _ _ _ (by decide)⟩⟩
  intro o state _ hstate
  refine h _ _ _ _ ?_
  cases o <;> cases hstate <;> decide

/-- A report sent while all states are legal carries legal values: the constants are legal, and what
is not a constant is held. -/
theorem legalReport_effect (i : Message) (b : Bts) :
    ∀ s ∈ (i.effect b).sent, s.held.Legal → LegalReport s := by
  have hstored : StoredReports (fun held _ opState admState =>
      held.Legal → LegalOpstate opState ∧ LegalAdminState admState) (i.effect b).bts :=
    fun o hlegal => hlegal o
  intro s hs hlegal o opState avStatus admState hreport
  exact (reporting_effect hstored).mpr (constantReports_of_legal fun _ _ _ _ hlegal _ => hlegal) s hs o
    opState avStatus admState hreport hlegal

theorem legal_after_iff_history (is : List Message) :
    (handler.after World.init is).bts.Legal ↔ ∀ o, LegalHistory (handled World.init is) o := by
  apply forall_congr'
  intro o
  rw [legalOpstate_after_iff, legalAdminState_after_iff, LegalHistory]

/-- The report of an object that is sent in the handling of a message carries legal values, if the
messages up to this one have given the object legal ones. -/
theorem legalReport_of_history {pre : List Message} {i : Message} {s : Sent}
    (hs : s ∈ (handler.step (handler.after World.init pre) i).2) {o : Obj}
    {opState avStatus admState : UInt8} (hreport : s.octets = reportFrame o.inst opState avStatus admState)
    (hlegal : LegalHistory (handled World.init (pre ++ [i])) o) :
    LegalOpstate opState ∧ LegalAdminState admState := by
  cases hstop : (handler.after World.init pre).stop with
  | some why =>
      rw [handler_step_stopped hstop] at hs
      cases hs
  | none =>
      have hafter : (i.effect (handler.after World.init pre).bts).bts =
          (handler.after World.init (pre ++ [i])).bts := by
        rw [Machine.after_append, Machine.after_cons, Machine.after_nil, handler_step_running hstop]
      have hstored : StoredReports (HistoryReport (handled World.init (pre ++ [i])))
          (i.effect (handler.after World.init pre).bts).bts := by
        rintro p p' hp hlegal
        obtain rfl := Obj.inst_injective hp
        rw [hafter, legalOpstate_after_iff, legalAdminState_after_iff]
        exact hlegal
      rw [handler_step_running hstop] at hs
      exact (reporting_effect hstored).mpr (constantReports_of_legal fun _ _ _ _ hlegal _ _ _ => hlegal)
        s hs o.inst opState avStatus admState hreport o rfl hlegal

/-- **Legal states.** The states reached by a run from start-up are legal if and only if the
messages handled in it have given every object legal ones; and whenever they are legal, so are the
states that a report carries. -/
theorem legal_after_iff (is : List Message) :
    ((handler.after World.init is).bts.Legal ↔ ∀ o, LegalHistory (handled World.init is) o) ∧
      ∀ s ∈ handler.outputs World.init is, s.held.Legal → LegalReport s := by
  constructor
  · exact legal_after_iff_history is
  · rw [Machine.forall_outputs_iff, Machine.meets_iff]
    intro pre i post _
    cases hstop : (handler.after World.init pre).stop with
    | some why =>
        rw [handler_step_stopped hstop]
        exact List.forall_mem_nil _
    | none =>
        rw [handler_step_running hstop]
        exact legalReport_effect i _

/-- Two messages after start-up: OPSTART of channel 7 has channel 1 reported in the states 0 and 0,
in which it has been from the start. -/
theorem opstart_channel_seven_illegal :
    ¬ startup.Legal ∧
      ∃ s ∈ handler.outputs World.init
          [Message.onOml (bscRequest nmMtOpstart (Obj.channel 7).inst [])], ¬ LegalReport s := by
  refine ⟨fun h => absurd (h (.channel 1)).1 (by decide), ?_⟩
  refine ⟨⟨.oml, stateReport (startup.start (.channel 7)) (.channel 1) nmAvstateOk,
    startup.start (.channel 7)⟩, by decide, fun h => ?_⟩
  exact absurd (h (Obj.channel 1).inst _ _ _ rfl).1 (by decide)

end SoftBts
