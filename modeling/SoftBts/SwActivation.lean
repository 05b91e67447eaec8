import SoftBts.Run

/-! When SW Activated Reports are sent. The code keeps no record of software activation and asks for
none: the reports go out with the start of the SITE MANAGER, of the BTS and of channel 7, and with
the activation of channel 7. -/

namespace SoftBts

open Octets Reactive

/-- The objects that a request for an object makes the BTS report as activated. -/
def swActivated (msgType : UInt8) (o : Obj) : List Obj :=
  if msgType = nmMtOpstart then
    match o with
    | .siteManager => [.siteManager]
    | .bts => [.bts]
    | .channel ts => if ts.val = 7 then [.radioCarrier, .basebTransc] else []
    | _ => []
  else if msgType = nmMtActivateSw then
    match o with
    | .channel ts => if ts.val = 7 then (List.finRange 8).map .channel else []
    | _ => []
  else []

/-- The object of a SW Activated Report. -/
def activatedRep (octets : List UInt8) : Option ObjInst :=
  (fomIn [nmMtSwActivatedRep] octets).map Prod.snd

/-- The objects of the SW Activated Reports among the octet strings sent. -/
def activatedReps (sent : List Sent) : List ObjInst := sent.filterMap (activatedRep ·.octets)

theorem activatedReps_map (sd : Link) (b : Bts) (replies : List (List UInt8)) :
    activatedReps (replies.map (⟨sd, ·, b⟩)) =
      (replies.filterMap (fomIn [nmMtSwActivatedRep])).map Prod.snd := by
  rw [activatedReps, List.filterMap_map, List.map_filterMap]
  rfl

theorem activatedReps_answer (sd : Link) (b : Bts) (replies : List (List UInt8)) :
    activatedReps (Effect.answer sd b replies).sent =
      (replies.filterMap (fomIn [nmMtSwActivatedRep])).map Prod.snd :=
  activatedReps_map sd b replies

/-- Other requests make the BTS report nothing as activated. -/
theorem flatMap_swActivated {msgType : UInt8} (hopstart : msgType ≠ nmMtOpstart)
    (hactivate : msgType ≠ nmMtActivateSw) (o : Option Obj) :
    (o.toList.flatMap (swActivated msgType)).map Obj.inst = [] := by
  have hnil : ∀ o, swActivated msgType o = [] := fun o => by
    unfold swActivated
    rw [if_neg hopstart, if_neg hactivate]
  cases o with
  | some o => simp [hnil o]
  | none => rfl

theorem activatedReps_perChannel :
    (perChannel fun o => fomFrame nmMtSwActivatedRep o.inst).filterMap (fomIn [nmMtSwActivatedRep]) =
      (List.finRange 8).map fun ts => (nmMtSwActivatedRep, (Obj.channel ts).inst) := by
  rw [perChannel, List.filterMap_map]
  simp [Function.comp_def]

variable (sd : Link) (b : Bts)

theorem activatedReps_activateSwReplies (o : Obj) :
    ((activateSwReplies o).filterMap (fomIn [nmMtSwActivatedRep])).map Prod.snd =
      (swActivated nmMtActivateSw o).map Obj.inst := by
  cases o with
  | radioCarrier => simp [activateSwReplies, swActivated, filterMap_perChannel]
  | channel ts =>
      by_cases h7 : ts = 7
      · simp only [activateSwReplies, if_pos h7, List.filterMap_append, activatedReps_perChannel]
        simp [swActivated, h7, Function.comp_def]
      · have hval : ts.val ≠ 7 := fun hval => h7 (Fin.ext hval)
        simp [activateSwReplies, swActivated, h7, hval]
  | _ => simp [activateSwReplies, swActivated]

theorem activatedReps_opstartReplies (o : Obj) :
    ((opstartReplies b o).filterMap (fomIn [nmMtSwActivatedRep])).map Prod.snd =
      (swActivated nmMtOpstart o).map Obj.inst := by
  cases o with
  | channel ts =>
      by_cases h7 : ts = 7
      · simp [opstartReplies, h7, batchReplies, stateReport, swActivated, filterMap_perChannel]
      · have hval : ts.val ≠ 7 := fun hval => h7 (Fin.ext hval)
        simp [opstartReplies, h7, swActivated, hval]
  | _ => simp [opstartReplies, swActivated]

theorem activatedReps_activateSw (q : Request) :
    activatedReps (Effect.activateSw sd q b).sent =
      (q.obj.toList.flatMap (swActivated nmMtActivateSw)).map Obj.inst := by
  rw [Effect.activateSw]
  cases q.obj with
  | some o =>
      simp only [activatedReps_answer, activatedReps_activateSwReplies]
      simp
  | none =>
      simp only [activatedReps_answer]
      split_ifs <;> simp

theorem activatedReps_opstart (q : Request) :
    activatedReps (Effect.opstart sd q b).sent =
      (q.obj.toList.flatMap (swActivated nmMtOpstart)).map Obj.inst := by
  rw [Effect.opstart]
  cases q.obj with
  | some o =>
      simp only [activatedReps_answer, activatedReps_opstartReplies]
      simp
  | none => rfl

theorem activatedReps_setBtsAttr (q : Request) :
    activatedReps (Effect.setBtsAttr sd q b).sent = [] := by
  rw [Effect.setBtsAttr]
  split_ifs <;> simp [activatedReps, activatedRep]

theorem activatedReps_chgAdmState (q : Request) :
    activatedReps (Effect.chgAdmState sd q b).sent = [] := by
  rw [Effect.chgAdmState]
  cases q.obj with
  | some o => cases o <;> simp [activatedReps_answer]
  | none => rfl

theorem activatedReps_msgType (q : Request) :
    activatedReps (Effect.msgType sd q b).sent =
      (q.obj.toList.flatMap (swActivated q.msgType)).map Obj.inst := by
  by_cases hactivate : q.msgType = nmMtActivateSw
  · rw [Effect.msgType_of_activateSw hactivate, hactivate]
    exact activatedReps_activateSw sd b q
  by_cases hopstart : q.msgType = nmMtOpstart
  · rw [Effect.msgType_of_opstart hopstart, hopstart]
    exact activatedReps_opstart sd b q
  · rw [flatMap_swActivated hopstart hactivate, Effect.msgType, if_neg hactivate, if_neg hopstart]
    split_ifs
    · rfl
    · exact activatedReps_setBtsAttr sd b q
    · simp [activatedReps_answer]
    · simp [activatedReps_answer]
    · exact activatedReps_chgAdmState sd b q
    · rfl

theorem activatedReps_manufReplies (rc : Int) : activatedReps (manufReplies rc sd b) = [] := by
  have hinit : fomOf Handling.initRslLink = none := rfl
  have hack : fomOf Handling.idAck = none := rfl
  have hnull : fomOf Handling.nullMsg = none := rfl
  unfold manufReplies
  split_ifs <;>
    simp [activatedReps, activatedRep, fomIn, stateReport, hinit, hack, hnull, Option.filter]

theorem activatedReps_oml (env : Env) (q : Request) :
    activatedReps (Effect.oml env sd q b).sent =
      (q.obj.toList.flatMap (swActivated q.msgType)).map Obj.inst := by
  rw [← activatedReps_msgType sd b, Effect.oml, Effect.thenManuf]
  split_ifs with hmanuf
  · rw [hmanuf.2.1]
    exact activatedReps_manufReplies sd _ _
  · rfl

theorem activatedReps_softbts (env : Env) (cmd : UInt8) :
    activatedReps (Effect.softbts env sd cmd b).sent = [] := by
  have hpong : fomOf pong = none := rfl
  have hresp : fomOf idResp = none := rfl
  have hinitial : initialReplies.filterMap (fomIn [nmMtSwActivatedRep]) = [] := by
    simp [initialReplies, initialReport, filterMap_perChannel]
  have hidentify : activatedReps (identify sd b).sent = [] := by
    rw [identify, activatedReps, List.filterMap_append]
    show activatedReps (initialReplies.map (⟨sd, ·, b⟩)) ++ _ = []
    rw [activatedReps_map, hinitial]
    simp [activatedRep]
  unfold Effect.softbts
  split_ifs
  · simp [activatedReps, activatedRep, fomIn, hpong]
  · rw [activatedReps, List.filterMap_cons]
    simp only [activatedRep, fomIn, hresp]
    exact hidentify
  · simp [activatedReps, activatedRep, fomIn, hresp]
  · rfl

/-! ### Runs -/

/-- The message makes the BTS report the object as activated. -/
def Triggers (i : Message) (o : Obj) : Prop :=
  i.proto = protoOml ∧ ∃ p, i.request.obj = some p ∧ o ∈ swActivated i.request.msgType p

/-- The message is an ACTIVATE SW request for the object. -/
def Activates (i : Message) (o : ObjInst) : Prop :=
  i.proto = protoOml ∧ i.mem fomMsgType = nmMtActivateSw ∧
    (⟨i.mem fomObjClass, i.mem fomBtsNr, i.mem fomTrxNr, i.mem fomTsNr⟩ : ObjInst) = o

/-- The objects reported as activated in a step are those its message triggers. -/
theorem mem_activatedReps_step {w : World} {i : Message} {inst : ObjInst} :
    inst ∈ activatedReps (handler.step w i).2 ↔
      w.stop = none ∧ ∃ o, inst = Obj.inst o ∧ Triggers i o := by
  cases hstop : w.stop with
  | some why =>
      rw [handler_step_stopped hstop]
      simp [activatedReps]
  | none =>
      rw [handler_step_running hstop]
      simp only [true_and, Triggers]
      by_cases homl : i.proto = protoOml
      · rw [Message.effect_oml homl, activatedReps_oml]
        cases i.request.obj with
        | none => simp [homl]
        | some p => simp [homl, eq_comm, and_comm]
      · have hnone : activatedReps (i.effect w.bts).sent = [] := by
          by_cases hsoftbts : i.proto = protoSoftbts
          · rw [Message.effect_softbts hsoftbts, activatedReps_softbts]
          · obtain ⟨stop, he⟩ := Message.effect_other hsoftbts homl w.bts
            rw [he]
            rfl
        rw [hnone]
        exact iff_of_false (List.not_mem_nil) fun ⟨_, _, hproto, _⟩ => homl hproto

/-- Every SW Activated Report of the run comes after an ACTIVATE SW request for the same object. -/
def ReportsPreceded (is : List Message) : Prop :=
  ∀ pre i post, is = pre ++ i :: post →
    ∀ inst ∈ activatedReps (handler.step (handler.after World.init pre) i).2,
      ∃ j ∈ pre ++ [i], Activates j inst

/-- Every message of the run that triggers a SW Activated Report comes after, or is, an ACTIVATE SW
request for the object reported. -/
def TriggersPreceded (is : List Message) : Prop :=
  ∀ pre i post, is = pre ++ i :: post → (handler.after World.init pre).stop = none →
    ∀ o, Triggers i o → ∃ j ∈ pre ++ [i], Activates j o.inst

/-- **SW Activated Reports.** In every run from start-up, a SW Activated Report is sent for an
object exactly in the handling of a message that triggers it: OPSTART of the SITE MANAGER and of the
BTS for themselves, OPSTART of channel 7 for the RADIO CARRIER and the BASEBAND TRANSCEIVER, and
ACTIVATE SW of channel 7 for all channels. The reports of a run are preceded by ACTIVATE SW requests
for their objects if and only if the triggers are. -/
theorem swActivatedReps_of_run (is : List Message) :
    (∀ pre i post, is = pre ++ i :: post →
      ∀ inst, inst ∈ activatedReps (handler.step (handler.after World.init pre) i).2 ↔
        (handler.after World.init pre).stop = none ∧ ∃ o, inst = Obj.inst o ∧ Triggers i o) ∧
    (ReportsPreceded is ↔ TriggersPreceded is) := by
  refine ⟨fun pre i post _ inst => mem_activatedReps_step, ?_, ?_⟩
  · intro h pre i post heq hstop o ho
    exact h pre i post heq o.inst (mem_activatedReps_step.mpr ⟨hstop, o, rfl, ho⟩)
  · intro h pre i post heq inst hinst
    obtain ⟨hstop, o, rfl, ho⟩ := mem_activatedReps_step.mp hinst
    exact h pre i post heq hstop o ho

/-- OPSTART of the SITE MANAGER is the first message: its software is reported as activated, with no
ACTIVATE SW before. -/
theorem opstart_siteManager_not_preceded :
    ¬ ReportsPreceded [Message.onOml (bscRequest nmMtOpstart Obj.siteManager.inst [])] := by
  intro h
  obtain ⟨j, hj, hactivates⟩ := h [] _ [] rfl Obj.siteManager.inst (by decide)
  rw [List.nil_append, List.mem_singleton] at hj
  subst hj
  exact absurd hactivates.2.1 (by decide)

end SoftBts
