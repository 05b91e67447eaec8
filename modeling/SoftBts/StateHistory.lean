import SoftBts.Run
import SoftBts.Lib.LastWrite

/-! The state variables as a function of the messages received: OPSTART and CHANGE ADMINISTRATIVE
STATE write them, nothing else does, so a variable holds what the last message that writes it
says. -/

namespace SoftBts

open Octets Reactive LastWrite

/-- What the start of an object writes. -/
def startWrites : Obj → List (StateVar × UInt8)
  | .siteManager =>
      [(.opstate .siteManager, nmOpstateEnabled), (.adminState .siteManager, nmStateUnlocked)]
  | o => [(.opstate o, nmOpstateEnabled)]

/-- What a change of the administrative state of an object writes. -/
def adminWrites (state : UInt8) : Obj → List (StateVar × UInt8)
  | .siteManager => []
  | o => [(.adminState o, state)]

def Request.writes (q : Request) : List (StateVar × UInt8) :=
  if q.msgType = nmMtOpstart then q.obj.toList.flatMap startWrites
  else if q.msgType = nmMtChgAdmState then q.obj.toList.flatMap (adminWrites q.adminState)
  else []

/-- What a message writes to the state variables. -/
def Message.writes (i : Message) : List (StateVar × UInt8) :=
  if i.proto = protoOml then i.request.writes else []

theorem stateVar_setOpstate_eq (b : Bts) (v : UInt8) (o : Obj) :
    (b.setOpstate v o).stateVar = applyWrites b.stateVar [(.opstate o, v)] := by
  funext x
  rw [b.stateVar_setOpstate]
  simp [Function.update_apply]

theorem stateVar_setAdminState_eq (b : Bts) (v : UInt8) (o : Obj) :
    (b.setAdminState v o).stateVar = applyWrites b.stateVar [(.adminState o, v)] := by
  funext x
  rw [b.stateVar_setAdminState]
  simp [Function.update_apply]

theorem stateVar_start_eq (b : Bts) (o : Obj) :
    (b.start o).stateVar = applyWrites b.stateVar (startWrites o) := by
  cases o with
  | siteManager =>
      rw [Bts.start, stateVar_setAdminState_eq, stateVar_setOpstate_eq, ← applyWrites_append]
      rfl
  | _ => exact stateVar_setOpstate_eq b _ _

theorem stateVar_setSwBts (b : Bts) (v : Int) : { b with swBts := v }.stateVar = b.stateVar := by
  funext x
  cases x with
  | opstate o => cases o <;> rfl
  | adminState o => cases o <;> rfl

theorem stateVar_activateSw (sd : Link) (q : Request) (b : Bts) :
    (Effect.activateSw sd q b).bts.stateVar = b.stateVar := by
  rw [Effect.activateSw]
  cases q.obj with
  | some o => exact funext (b.stateVar_activate o)
  | none => rfl

theorem stateVar_setBtsAttr (sd : Link) (q : Request) (b : Bts) :
    (Effect.setBtsAttr sd q b).bts.stateVar = b.stateVar := by
  rw [Effect.setBtsAttr]
  split_ifs
  · exact stateVar_setSwBts b _
  · rfl

theorem stateVar_msgType_eq (sd : Link) (q : Request) (b : Bts) :
    (Effect.msgType sd q b).bts.stateVar = applyWrites b.stateVar q.writes := by
  by_cases hopstart : q.msgType = nmMtOpstart
  · rw [Effect.msgType_of_opstart hopstart, Effect.opstart, Request.writes, if_pos hopstart]
    cases q.obj with
    | some o =>
        rw [Option.toList_some, List.flatMap_singleton]
        exact stateVar_start_eq b o
    | none => rfl
  by_cases hadm : q.msgType = nmMtChgAdmState
  · rw [Effect.msgType_of_chgAdmState hadm, Effect.chgAdmState, Request.writes, if_neg hopstart, if_pos hadm]
    cases q.obj with
    | some o =>
        cases o with
        | siteManager => rfl
        | _ => exact stateVar_setAdminState_eq b _ _
    | none => rfl
  · rw [Request.writes, if_neg hopstart, if_neg hadm, Effect.msgType, if_neg hopstart, if_neg hadm]
    split_ifs
    · exact funext (b.stateVar_acknowledgeActReq _)
    · exact stateVar_activateSw sd q b
    · exact stateVar_setBtsAttr sd q b
    · rfl
    · rfl
    · rfl

theorem stateVar_softbts (env : Env) (sd : Link) (cmd : UInt8) (b : Bts) :
    (Effect.softbts env sd cmd b).bts.stateVar = b.stateVar := by
  funext x
  unfold Effect.softbts
  split_ifs
  · rfl
  · cases x with
    | opstate o => cases o <;> rfl
    | adminState o => cases o <;> rfl
  · rfl
  · rfl

/-- A message writes what it says to the state variables, and nothing else. -/
theorem stateVar_effect (i : Message) (b : Bts) :
    (i.effect b).bts.stateVar = applyWrites b.stateVar i.writes := by
  rw [Message.writes]
  by_cases homl : i.proto = protoOml
  · rw [if_pos homl, Message.effect_oml homl, Effect.oml, bts_thenManuf, stateVar_msgType_eq]
  · rw [if_neg homl, applyWrites_nil]
    by_cases hsoftbts : i.proto = protoSoftbts
    · rw [Message.effect_softbts hsoftbts, stateVar_softbts]
    · obtain ⟨stop, he⟩ := Message.effect_other hsoftbts homl b
      rw [he]

/-- The messages of a run that are handled: all up to the one that stops the BTS. -/
def handled (w : World) : List Message → List Message
  | [] => []
  | i :: is =>
      match w.stop with
      | some _ => []
      | none => i :: handled (handler.step w i).1 is

theorem handled_stopped {w : World} {why : Stop} (hw : w.stop = some why) (is : List Message) :
    handled w is = [] := by
  cases is with
  | nil => rfl
  | cons i is => rw [handled, hw]

/-- A stop is for good. -/
theorem after_stopped {w : World} {why : Stop} (hw : w.stop = some why) (is : List Message) :
    handler.after w is = w := by
  induction is with
  | nil => rfl
  | cons i is ih => rw [Machine.after_cons, handler_step_stopped hw, ih]

/-- **State and history.** After every run the state variables are as the messages handled in it
have written them. -/
theorem stateVar_after (w : World) (is : List Message) :
    (handler.after w is).bts.stateVar =
      applyWrites w.bts.stateVar ((handled w is).flatMap Message.writes) := by
  induction is generalizing w with
  | nil => rfl
  | cons i is ih =>
      cases hw : w.stop with
      | some why =>
          rw [after_stopped hw, handled_stopped hw]
          rfl
      | none =>
          rw [Machine.after_cons, ih, handled, hw]
          simp only [List.flatMap_cons, applyWrites_append]
          rw [handler_step_running hw, stateVar_effect]

end SoftBts
