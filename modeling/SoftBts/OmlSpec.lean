import SoftBts.OmlMsg

/-! What an O&M message does, by the object it names: the abstract state machine of the management,
and `oml_msg` refining it. Of the buffer, `oml_msg` uses the six parts of a `Request`. -/

namespace SoftBts

open Octets

/-! ### Operations on the management state -/

namespace Bts

def setOpstate (b : Bts) (v : UInt8) : Obj → Bts
  | .siteManager => { b with managerOpstate := v }
  | .bts => { b with btsOpstate := v }
  | .radioCarrier => { b with radioCarrierOpstate := v }
  | .channel ts => { b with channelOpstate := Function.update b.channelOpstate ts v }
  | .basebTransc => { b with basebTranscOpstate := v }

def setAdminState (b : Bts) (v : UInt8) : Obj → Bts
  | .siteManager => { b with managerAdminState := v }
  | .bts => { b with btsAdminState := v }
  | .radioCarrier => { b with radioCarrierAdminState := v }
  | .channel ts => { b with channelAdminState := Function.update b.channelAdminState ts v }
  | .basebTransc => { b with basebTranscAdminState := v }

/-- Software activation leaves a trace in the state only for the SITE MANAGER. -/
def activate (b : Bts) : Obj → Bts
  | .siteManager => { b with swSiteManager := nmMtActivateSw.toNat }
  | _ => b

/-- The start of an object; the SITE MANAGER is unlocked with it. -/
def start (b : Bts) : Obj → Bts
  | .siteManager =>
      (b.setOpstate nmOpstateEnabled .siteManager).setAdminState nmStateUnlocked .siteManager
  | o => b.setOpstate nmOpstateEnabled o

def acknowledgeActReq (b : Bts) (objClass : UInt8) : Bts :=
  if objClass = nmOcSiteManager then { b with swSiteManager := nmMtSwActReqAck.toNat }
  else if objClass = nmOcBts then { b with swBts := nmMtSwActReqAck.toNat }
  else b

theorem stateVar_setOpstate (b : Bts) (v : UInt8) (o : Obj) (x : StateVar) :
    (b.setOpstate v o).stateVar x = if x = .opstate o then v else b.stateVar x := by
  cases x with
  | adminState o' => cases o' <;> cases o <;> rfl
  | opstate o' =>
      cases o' <;> cases o <;>
        simp [setOpstate, stateVar, Function.update_apply]

theorem stateVar_setAdminState (b : Bts) (v : UInt8) (o : Obj) (x : StateVar) :
    (b.setAdminState v o).stateVar x = if x = .adminState o then v else b.stateVar x := by
  cases x with
  | opstate o' => cases o' <;> cases o <;> rfl
  | adminState o' =>
      cases o' <;> cases o <;>
        simp [setAdminState, stateVar, Function.update_apply]

@[simp] theorem stateVar_activate (b : Bts) (o : Obj) (x : StateVar) :
    (b.activate o).stateVar x = b.stateVar x := by
  cases o <;> rfl

@[simp] theorem stateVar_acknowledgeActReq (b : Bts) (objClass : UInt8) (x : StateVar) :
    (b.acknowledgeActReq objClass).stateVar x = b.stateVar x := by
  unfold acknowledgeActReq
  split_ifs <;> rfl

end Bts

/-! ### Replies -/

/-- The report of an object with the state the BTS holds for it. -/
def stateReport (b : Bts) (o : Obj) (avStatus : UInt8) : List UInt8 :=
  reportFrame o.inst (b.stateVar (.opstate o)) avStatus (b.stateVar (.adminState o))

/-- One octet string for each channel. -/
def perChannel (frame : Obj → List UInt8) : List (List UInt8) :=
  (List.finRange 8).map fun ts => frame (.channel ts)

theorem filterMap_perChannel {types : List UInt8} {frame : Obj → List UInt8}
    (h : ∀ o, fomIn types (frame o) = none) : (perChannel frame).filterMap (fomIn types) = [] := by
  rw [perChannel, List.filterMap_map, List.filterMap_eq_nil_iff]
  exact fun ts _ => h (.channel ts)

def activateSwReplies : Obj → List (List UInt8)
  | .siteManager =>
      [fomFrame nmMtActivateSwAck Obj.siteManager.inst,
        reportFrame Obj.siteManager.inst nmOpstateEnabled nmAvstateOk nmStateLocked]
  | .bts =>
      [fomFrame nmMtActivateSwAck Obj.bts.inst,
        reportFrame Obj.bts.inst nmOpstateDisabled nmAvstateDependency nmStateLocked]
  | .basebTransc =>
      [fomFrame nmMtActivateSwAck Obj.basebTransc.inst, swActReqFrame Obj.radioCarrier.inst]
  | .radioCarrier =>
      fomFrame nmMtActivateSwAck Obj.radioCarrier.inst :: perChannel fun o => swActReqFrame o.inst
  | .channel ts =>
      [fomFrame nmMtActivateSwAck (Obj.channel ts).inst,
        reportFrame (Obj.channel ts).inst nmOpstateDisabled nmAvstateDependency nmStateLocked] ++
      if ts = 7 then perChannel fun o => fomFrame nmMtSwActivatedRep o.inst else []

/-- What the start of channel 7 sets off, from the state after it. -/
def batchReplies (b : Bts) : List (List UInt8) :=
  [fomFrame nmMtSwActivatedRep Obj.radioCarrier.inst,
    stateReport b .siteManager nmAvstateOk, stateReport b .bts nmAvstateOk] ++
  perChannel (fun o => stateReport b o nmAvstateOk) ++
  [fomFrame nmMtSwActivatedRep Obj.basebTransc.inst]

/-- The replies to the start of an object, in the state after it. -/
def opstartReplies (b : Bts) : Obj → List (List UInt8)
  | .siteManager =>
      [fomFrame nmMtOpstartAck Obj.siteManager.inst,
        fomFrame nmMtSwActivatedRep Obj.siteManager.inst, swActReqFrame Obj.bts.inst]
  | .bts =>
      [fomFrame nmMtOpstartAck Obj.bts.inst, fomFrame nmMtSwActivatedRep Obj.bts.inst,
        swActReqFrame Obj.basebTransc.inst]
  | .basebTransc => [fomFrame nmMtOpstartAck Obj.basebTransc.inst]
  | .radioCarrier => [fomFrame nmMtOpstartAck Obj.radioCarrier.inst]
  | .channel ts =>
      fomFrame nmMtOpstartAck (Obj.channel ts).inst :: if ts = 7 then batchReplies b else []

/-! ### The state machine -/

/-- The parts of the buffer that `oml_msg` works from. The last one is whether the attribute loop
ends within the turns it is given. -/
structure Request where
  mdisc : UInt8
  msgType : UInt8
  objClass : UInt8
  tsNr : UInt8
  adminState : UInt8
  attrsEnd : Bool

def Handling.request (env : Env) (h : Handling) : Request where
  mdisc := h.mdisc
  msgType := h.msgType
  objClass := h.objClass
  tsNr := h.tsNr
  adminState := h.adminState
  attrsEnd := (btsGetAttr env.turns h.mem).isSome

/-- The object a request names. -/
def Request.obj (q : Request) : Option Obj := Obj.named q.objClass q.tsNr

/-- What the handling of a message comes to: the state after it, the calls of send(), and how it
ended. -/
structure Effect where
  bts : Bts
  sent : List Sent
  stop : Option Stop

def Outcome.effect (r : Outcome) : Effect := ⟨r.handling.bts, r.handling.sent, r.stop⟩

namespace Effect

/-- The state is changed first, then the replies are sent. -/
def answer (sd : Link) (b : Bts) (replies : List (List UInt8)) : Effect :=
  ⟨b, replies.map (⟨sd, ·, b⟩), none⟩

/-- A message for a channel number outside the arrays, or for no object of this BTS. -/
def unnamed (q : Request) (b : Bts) : Effect :=
  ⟨b, [], if q.objClass = nmOcChannel then some .fault else none⟩

def activateSw (sd : Link) (q : Request) (b : Bts) : Effect :=
  match q.obj with
  | some o => answer sd (b.activate o) (activateSwReplies o)
  | none =>
      answer sd b (if q.objClass = nmOcChannel then
        [fomFrame nmMtActivateSwAck ⟨nmOcChannel, 0x00, 0x00, q.tsNr⟩,
          reportFrame ⟨nmOcChannel, 0x00, 0x00, q.tsNr⟩
            nmOpstateDisabled nmAvstateDependency nmStateLocked]
        else [])

def opstart (sd : Link) (q : Request) (b : Bts) : Effect :=
  match q.obj with
  | some o => answer sd (b.start o) (opstartReplies (b.start o) o)
  | none => unnamed q b

def setBtsAttr (sd : Link) (q : Request) (b : Bts) : Effect :=
  if q.attrsEnd = true then
    ⟨{ b with swBts := nmMtSetBtsAttrAck.toNat },
      [⟨sd, fomFrame nmMtSetBtsAttrAck Obj.bts.inst, b⟩], none⟩
  else ⟨b, [], some .hang⟩

/-- `oml_msg` has no branch for the SITE MANAGER here. -/
def chgAdmState (sd : Link) (q : Request) (b : Bts) : Effect :=
  match q.obj with
  | some .siteManager => answer sd b []
  | some o => answer sd (b.setAdminState q.adminState o) [fomFrame nmMtChgAdmStateAck o.inst]
  | none => unnamed q b

/-- The effect of the switch on the message type. -/
def msgType (sd : Link) (q : Request) (b : Bts) : Effect :=
  if q.msgType = nmMtSwActReqAck then answer sd (b.acknowledgeActReq q.objClass) []
  else if q.msgType = nmMtActivateSw then activateSw sd q b
  else if q.msgType = nmMtOpstart then opstart sd q b
  else if q.msgType = nmMtSetBtsAttr then setBtsAttr sd q b
  else if q.msgType = nmMtSetChanAttr then
    answer sd b [fomFrame nmMtSetBtsAttrAck ⟨nmOcChannel, 0x00, 0x00, q.tsNr⟩]
  else if q.msgType = nmMtSetRadioAttr then
    answer sd b [fomFrame nmMtSetBtsAttrAck Obj.radioCarrier.inst]
  else if q.msgType = nmMtChgAdmState then chgAdmState sd q b
  else answer sd b []

/-! ### The branches one by one -/

variable {sd : Link} {q : Request} {b : Bts} {o : Obj}

theorem msgType_of_swActReqAck (h : q.msgType = nmMtSwActReqAck) :
    msgType sd q b = answer sd (b.acknowledgeActReq q.objClass) [] := by
  rw [msgType, if_pos h]

theorem msgType_of_activateSw (h : q.msgType = nmMtActivateSw) :
    msgType sd q b = activateSw sd q b := by
  simp [msgType, h]

theorem msgType_of_opstart (h : q.msgType = nmMtOpstart) : msgType sd q b = opstart sd q b := by
  simp [msgType, h]

theorem msgType_of_setBtsAttr (h : q.msgType = nmMtSetBtsAttr) :
    msgType sd q b = setBtsAttr sd q b := by
  simp [msgType, h]

theorem msgType_of_setChanAttr (h : q.msgType = nmMtSetChanAttr) :
    msgType sd q b =
      answer sd b [fomFrame nmMtSetBtsAttrAck ⟨nmOcChannel, 0x00, 0x00, q.tsNr⟩] := by
  simp [msgType, h]

theorem msgType_of_setRadioAttr (h : q.msgType = nmMtSetRadioAttr) :
    msgType sd q b = answer sd b [fomFrame nmMtSetBtsAttrAck Obj.radioCarrier.inst] := by
  simp [msgType, h]

theorem msgType_of_chgAdmState (h : q.msgType = nmMtChgAdmState) :
    msgType sd q b = chgAdmState sd q b := by
  simp [msgType, h]

theorem activateSw_of_obj (ho : q.obj = some o) :
    activateSw sd q b = answer sd (b.activate o) (activateSwReplies o) := by
  rw [activateSw, ho]

theorem opstart_of_obj (ho : q.obj = some o) :
    opstart sd q b = answer sd (b.start o) (opstartReplies (b.start o) o) := by
  rw [opstart, ho]

theorem chgAdmState_of_siteManager (ho : q.obj = some .siteManager) :
    chgAdmState sd q b = answer sd b [] := by
  rw [chgAdmState, ho]

theorem chgAdmState_of_obj (ho : q.obj = some o) (hsite : o ≠ .siteManager) :
    chgAdmState sd q b =
      answer sd (b.setAdminState q.adminState o) [fomFrame nmMtChgAdmStateAck o.inst] := by
  rw [chgAdmState, ho]
  cases o with
  | siteManager => exact absurd rfl hsite
  | _ => rfl

end Effect

/-- What a manufacturer-defined message is answered with, when the send of the first string gives
`rc`. -/
def manufReplies (rc : Int) (sd : Link) (b : Bts) : List Sent :=
  ⟨sd, Handling.initRslLink, b⟩ ::
    if rc < 0 then []
    else [⟨sd, stateReport b .basebTransc nmAvstateOk, b⟩,
      ⟨sd, stateReport b .radioCarrier nmAvstateOk, b⟩,
      ⟨.rsl, Handling.idAck, b⟩, ⟨.rsl, Handling.nullMsg, b⟩]

/-- The second switch finds the discriminator of the request only where the first one built no
reply over it. -/
def Effect.thenManuf (env : Env) (sd : Link) (mdisc : UInt8) (e : Effect) : Effect :=
  if e.stop = none ∧ e.sent = [] ∧ mdisc = abisOmMdiscManuf then
    { e with sent := manufReplies (env.send 0) sd e.bts }
  else e

theorem stop_thenManuf (env : Env) (sd : Link) (mdisc : UInt8) (e : Effect) :
    (e.thenManuf env sd mdisc).stop = e.stop := by
  unfold Effect.thenManuf
  split_ifs <;> rfl

/-- **The O&M state machine.** -/
def Effect.oml (env : Env) (sd : Link) (q : Request) (b : Bts) : Effect :=
  (Effect.msgType sd q b).thenManuf env sd q.mdisc

/-! ### `oml_msg` refines it -/

/-- A handling that goes as an effect says. -/
structure Refines (h : Handling) (r : Outcome) (e : Effect) : Prop where
  bts : r.handling.bts = e.bts
  sent : r.handling.sent = h.sent ++ e.sent
  stop : r.stop = e.stop
  mdisc : e.stop = none → r.handling.mdisc = if e.sent = [] then h.mdisc else abisOmMdiscFom

namespace Handling

@[simp] theorem objClass_setBts (f : Bts → Bts) (h : Handling) :
    (h.setBts f).objClass = h.objClass := rfl

@[simp] theorem tsNr_setBts (f : Bts → Bts) (h : Handling) : (h.setBts f).tsNr = h.tsNr := rfl

@[simp] theorem bts_setBts (f : Bts → Bts) (h : Handling) : (h.setBts f).bts = f h.bts := rfl

/-- The state is changed first, then the replies are built and sent. -/
def answered (sd : Link) (b : Bts) (replies : List (List UInt8)) (h : Handling) : Handling :=
  ({ h with bts := b } : Handling).deliverAll sd replies

variable (sd : Link) (h : Handling)

theorem swActReqAck_eq :
    h.swActReqAck = { h with bts := h.bts.acknowledgeActReq h.objClass } := by
  by_cases h0 : h.objClass = nmOcSiteManager
  · simp [swActReqAck, h0, Bts.acknowledgeActReq]
    rfl
  · simp only [swActReqAck, if_neg h0, Bts.acknowledgeActReq]
    split_ifs <;> rfl

theorem activateSw_eq :
    h.activateSw sd = match Obj.named h.objClass h.tsNr with
      | some o => h.answered sd (h.bts.activate o) (activateSwReplies o)
      | none => h.answered sd h.bts (if h.objClass = nmOcChannel then
          [fomFrame nmMtActivateSwAck ⟨nmOcChannel, 0x00, 0x00, h.tsNr⟩,
            reportFrame ⟨nmOcChannel, 0x00, 0x00, h.tsNr⟩
              nmOpstateDisabled nmAvstateDependency nmStateLocked]
          else []) := by
  rcases class_cases h.objClass with h0 | h1 | h2 | h3 | h4 | hother
  · simp [activateSw, h0, Obj.named, answered, activateSwReplies, setBts, Obj.inst, Bts.activate,
      fomReply_eq, stateChangedEventReport_eq]
  · simp [activateSw, h1, Obj.named, answered, activateSwReplies, Obj.inst, Bts.activate,
      fomReply_eq, stateChangedEventReport_eq]
  · simp [activateSw, h2, Obj.named, answered, activateSwReplies, Obj.inst, Bts.activate,
      fomReply_eq, perChannel]
  · by_cases hts : h.tsNr.toNat < 8
    · simp only [h3, Obj.named_channel hts, activateSwReplies, Obj.inst, tsOctet_of_toNat hts,
        ← eq_seven_iff hts]
      simp only [activateSw, forChannels_fomReply]
      simp [h3, fomReply_eq, stateChangedEventReport_eq, answered, Bts.activate, perChannel]
      split_ifs <;> rfl
    · have h7 := ne_seven_of_outside hts
      simp [activateSw, h3, h7, Obj.named, hts, answered, fomReply_eq, stateChangedEventReport_eq]
  · simp [activateSw, h4, Obj.named, answered, activateSwReplies, Obj.inst, Bts.activate,
      fomReply_eq, swActivateRequest_eq]
  · simp only [nmOcSiteManager, nmOcBts, nmOcRadioCarrier, nmOcChannel, nmOcBasebTransc] at hother
    simp [activateSw, hother, Obj.named, answered]

theorem channelBatch_eq : h.channelBatch sd = h.deliverAll sd (batchReplies h.bts) := by
  simp only [channelBatch, forChannels_stateReport]
  simp [batchReplies, stateReport, perChannel, Obj.inst, Bts.stateVar, fomReply_eq,
    stateChangedEventReport_eq, deliverAll_append]

theorem opstart_eq :
    h.opstart sd = match Obj.named h.objClass h.tsNr with
      | some o => .returned (h.answered sd (h.bts.start o) (opstartReplies (h.bts.start o) o))
      | none => ⟨h, if h.objClass = nmOcChannel then some .fault else none⟩ := by
  rcases class_cases h.objClass with h0 | h1 | h2 | h3 | h4 | hother
  · simp [opstart, h0, Obj.named, answered, setBts, opstartReplies, Bts.start, Bts.setOpstate,
      Bts.setAdminState, Obj.inst, fomReply_eq, swActivateRequest_eq]
  · simp [opstart, h1, Obj.named, answered, setBts, opstartReplies, Bts.start, Bts.setOpstate,
      Obj.inst, fomReply_eq, swActivateRequest_eq]
  · simp [opstart, h2, Obj.named, answered, setBts, opstartReplies, Bts.start, Bts.setOpstate,
      Obj.inst, fomReply_eq]
  · by_cases hts : h.tsNr.toNat < 8
    · simp only [h3, Obj.named_channel hts, opstartReplies, Obj.inst, tsOctet_of_toNat hts,
        ← eq_seven_iff hts]
      simp [opstart, h3, hts, fomReply_eq, channelBatch_eq]
      split_ifs <;> rfl
    · simp [opstart, h3, Obj.named, hts, Outcome.stopped]
  · simp [opstart, h4, Obj.named, answered, setBts, opstartReplies, Bts.start, Bts.setOpstate,
      Obj.inst, fomReply_eq]
  · simp only [nmOcSiteManager, nmOcBts, nmOcRadioCarrier, nmOcChannel, nmOcBasebTransc] at hother
    simp [opstart, hother, Obj.named, Outcome.returned]

theorem chgAdmState_eq :
    h.chgAdmState sd = match Obj.named h.objClass h.tsNr with
      | some .siteManager => .returned h
      | some o => .returned (h.answered sd (h.bts.setAdminState h.adminState o)
          [fomFrame nmMtChgAdmStateAck o.inst])
      | none => ⟨h, if h.objClass = nmOcChannel then some .fault else none⟩ := by
  rcases class_cases h.objClass with h0 | h1 | h2 | h3 | h4 | hother
  · simp [chgAdmState, h0, Obj.named]
  · simp [chgAdmState, h1, Obj.named, answered, setBts, Bts.setAdminState, Obj.inst, fomReply_eq]
  · simp [chgAdmState, h2, Obj.named, answered, setBts, Bts.setAdminState, Obj.inst, fomReply_eq]
  · by_cases hts : h.tsNr.toNat < 8
    · simp only [h3, Obj.named_channel hts, Obj.inst, tsOctet_of_toNat hts]
      simp [chgAdmState, h3, hts, fomReply_eq, answered, setBts, Bts.setAdminState]
      rfl
    · simp [chgAdmState, h3, Obj.named, hts, Outcome.stopped]
  · simp [chgAdmState, h4, Obj.named, answered, setBts, Bts.setAdminState, Obj.inst, fomReply_eq]
  · simp only [nmOcSiteManager, nmOcBts, nmOcRadioCarrier, nmOcChannel, nmOcBasebTransc] at hother
    simp [chgAdmState, hother, Obj.named, Outcome.returned]

/-- A reply of which the discriminator says that it is a formatted O&M message. -/
def Formatted (frame : List UInt8) : Prop := frame[omMdisc]? = some abisOmMdiscFom

@[simp] theorem formatted_fomFrame (msgType : UInt8) (o : ObjInst) :
    Formatted (fomFrame msgType o) := rfl

@[simp] theorem formatted_reportFrame (o : ObjInst) (opState avStatus admState : UInt8) :
    Formatted (reportFrame o opState avStatus admState) := rfl

@[simp] theorem formatted_swActReqFrame (o : ObjInst) : Formatted (swActReqFrame o) := rfl

theorem formatted_perChannel {frame : Obj → List UInt8} (hframe : ∀ o, Formatted (frame o)) :
    ∀ f ∈ perChannel frame, Formatted f := by
  intro f hf
  obtain ⟨ts, -, rfl⟩ := List.mem_map.mp hf
  exact hframe _

theorem formatted_activateSwReplies (o : Obj) : ∀ f ∈ activateSwReplies o, Formatted f := by
  cases o with
  | radioCarrier =>
      simp only [activateSwReplies, List.forall_mem_cons, formatted_fomFrame, true_and]
      exact formatted_perChannel fun o => formatted_swActReqFrame _
  | channel ts =>
      simp only [activateSwReplies, List.forall_mem_append, List.forall_mem_cons]
      refine ⟨by simp, ?_⟩
      split_ifs
      · exact formatted_perChannel fun o => formatted_fomFrame _ _
      · exact List.forall_mem_nil _
  | _ => simp [activateSwReplies]

theorem formatted_batchReplies (b : Bts) : ∀ f ∈ batchReplies b, Formatted f := by
  simp only [batchReplies, List.forall_mem_append]
  exact ⟨⟨by simp [stateReport], formatted_perChannel fun o => formatted_reportFrame _ _ _ _⟩,
    by simp⟩

theorem formatted_opstartReplies (b : Bts) (o : Obj) :
    ∀ f ∈ opstartReplies b o, Formatted f := by
  cases o with
  | channel ts =>
      rw [opstartReplies, List.forall_mem_cons]
      refine ⟨formatted_fomFrame _ _, ?_⟩
      split_ifs
      · exact formatted_batchReplies b
      · exact List.forall_mem_nil _
  | _ => simp [opstartReplies]

theorem refines_answered (b : Bts) {replies : List (List UInt8)}
    (hreplies : ∀ frame ∈ replies, Formatted frame) :
    Refines h (.returned (h.answered sd b replies)) (.answer sd b replies) where
  bts := by simp [Outcome.returned, answered, Effect.answer]
  sent := by simp [Outcome.returned, answered, Effect.answer]
  stop := rfl
  mdisc := by
    intro _
    cases replies with
    | nil => rfl
    | cons frame frames =>
        rw [List.forall_mem_cons] at hreplies
        rw [Effect.answer, if_neg (by simp)]
        show ((({ h with bts := b } : Handling).deliver sd frame).deliverAll sd frames).mem _ = _
        apply deliverAll_mem_apply sd _ hreplies.2
        rw [deliver_mem_apply, hreplies.1, Option.getD_some]

theorem refines_nothing : Refines h (.returned h) (.answer sd h.bts []) :=
  h.refines_answered sd h.bts (List.forall_mem_nil _)

variable (env : Env)

theorem refines_unnamed :
    Refines h ⟨h, if h.objClass = nmOcChannel then some .fault else none⟩
      (.unnamed (h.request env) h.bts) where
  bts := rfl
  sent := by simp [Effect.unnamed]
  stop := rfl
  mdisc := fun _ => rfl

theorem activateSw_refines :
    Refines h (.returned (h.activateSw sd)) (.activateSw sd (h.request env) h.bts) := by
  rw [activateSw_eq, Effect.activateSw, Request.obj]
  show Refines h _ (match Obj.named h.objClass h.tsNr with | some o => _ | none => _)
  cases Obj.named h.objClass h.tsNr with
  | some o => exact h.refines_answered sd _ (formatted_activateSwReplies o)
  | none =>
      apply h.refines_answered sd _
      split_ifs <;> simp

theorem opstart_refines : Refines h (h.opstart sd) (.opstart sd (h.request env) h.bts) := by
  rw [opstart_eq, Effect.opstart, Request.obj]
  show Refines h _ (match Obj.named h.objClass h.tsNr with | some o => _ | none => _)
  cases Obj.named h.objClass h.tsNr with
  | some o => exact h.refines_answered sd _ (formatted_opstartReplies _ o)
  | none => exact h.refines_unnamed env

theorem chgAdmState_refines :
    Refines h (h.chgAdmState sd) (.chgAdmState sd (h.request env) h.bts) := by
  rw [chgAdmState_eq, Effect.chgAdmState, Request.obj]
  show Refines h _ (match Obj.named h.objClass h.tsNr with
    | some .siteManager => _ | some o => _ | none => _)
  cases Obj.named h.objClass h.tsNr with
  | some o =>
      cases o with
      | siteManager => exact h.refines_nothing sd
      | _ => exact h.refines_answered sd _ (by simp)
  | none => exact h.refines_unnamed env

theorem setBtsAttr_refines :
    Refines h (h.setBtsAttr env sd) (.setBtsAttr sd (h.request env) h.bts) := by
  rw [setBtsAttr, Effect.setBtsAttr, request]
  cases btsGetAttr env.turns h.mem with
  | none => exact ⟨rfl, (List.append_nil _).symm, rfl, nofun⟩
  | some steps =>
      simp only [btsSetAttrAck, fomReply_eq]
      exact ⟨rfl, rfl, rfl, fun _ => mdisc_fomFrame sd Obj.bts.inst h nmMtSetBtsAttrAck⟩

theorem msgTypeSwitch_refines :
    Refines h (h.msgTypeSwitch env sd) (.msgType sd (h.request env) h.bts) := by
  have hack : Refines h (.returned h.swActReqAck)
      (.answer sd (h.bts.acknowledgeActReq h.objClass) []) := by
    rw [swActReqAck_eq]
    exact h.refines_answered sd _ (List.forall_mem_nil _)
  have hchan : Refines h (.returned (h.setChanAttr sd))
      (.answer sd h.bts [fomFrame nmMtSetBtsAttrAck ⟨nmOcChannel, 0x00, 0x00, h.tsNr⟩]) := by
    rw [setChanAttr, btsSetAttrAck, fomReply_eq]
    exact h.refines_answered sd h.bts (List.forall_mem_singleton.mpr (formatted_fomFrame _ _))
  have hradio : Refines h (.returned (h.setRadioAttr sd))
      (.answer sd h.bts [fomFrame nmMtSetBtsAttrAck Obj.radioCarrier.inst]) := by
    rw [setRadioAttr, btsSetAttrAck, fomReply_eq]
    exact h.refines_answered sd h.bts (List.forall_mem_singleton.mpr (formatted_fomFrame _ _))
  rw [msgTypeSwitch, Effect.msgType]
  show Refines h _ (if h.msgType = _ then _ else if h.msgType = _ then _ else
    if h.msgType = _ then _ else if h.msgType = _ then _ else if h.msgType = _ then _ else
    if h.msgType = _ then _ else if h.msgType = _ then _ else _)
  split_ifs
  · exact hack
  · exact h.activateSw_refines sd env
  · exact h.opstart_refines sd env
  · exact h.setBtsAttr_refines sd env
  · exact hchan
  · exact hradio
  · exact h.chgAdmState_refines sd env
  · exact h.refines_nothing sd

theorem mdiscSwitch_of_manuf (hmanuf : h.mdisc = abisOmMdiscManuf) :
    (h.mdiscSwitch env sd).bts = h.bts ∧
      (h.mdiscSwitch env sd).sent = h.sent ++ manufReplies (env.send h.sent.length) sd h.bts := by
  simp only [mdiscSwitch, if_pos hmanuf, stateChangedEventReport_eq]
  split_ifs with hrc
  · simp [sendArray, manufReplies, hrc]
  · simp [sendArray, manufReplies, hrc, stateReport, Bts.stateVar, Obj.inst]

/-- The handling of a message at its start. -/
def start (m : Mem) (b : Bts) : Handling := ⟨m, b, []⟩

end Handling

theorem Refines.thenManuf {h : Handling} {r : Outcome} {e : Effect} (href : Refines h r e)
    (hstart : h.sent = []) (env : Env) (sd : Link) :
    (r.andThen fun h => .returned (h.mdiscSwitch env sd)).effect =
      e.thenManuf env sd h.mdisc := by
  obtain ⟨h', stop⟩ := r
  obtain ⟨bts, sent, stop'⟩ := e
  obtain ⟨hbts, hsent, hstop, hmdisc⟩ := href
  simp only [hstart, List.nil_append] at hbts hsent hstop hmdisc
  subst hbts hsent hstop
  cases stop with
  | some why => simp [Outcome.andThen, Outcome.effect, Effect.thenManuf]
  | none =>
      have hmdisc := hmdisc rfl
      simp only [Outcome.andThen, Outcome.returned, Outcome.effect, Effect.thenManuf, true_and]
      by_cases hmanuf : h'.mdisc = abisOmMdiscManuf
      · have hsent : h'.sent = [] := by
          by_contra hne
          rw [if_neg hne, hmanuf] at hmdisc
          exact absurd hmdisc (by decide)
        rw [if_pos hsent, hmanuf] at hmdisc
        obtain ⟨hb, hs⟩ := h'.mdiscSwitch_of_manuf sd env hmanuf
        rw [if_pos ⟨hsent, hmdisc.symm⟩, hb, hs, hsent]
        rfl
      · rw [Handling.mdiscSwitch, if_neg hmanuf, if_neg]
        rintro ⟨hsent, hm⟩
        rw [if_pos hsent, hm] at hmdisc
        exact hmanuf hmdisc

theorem bts_thenManuf (env : Env) (sd : Link) (mdisc : UInt8) (e : Effect) :
    (e.thenManuf env sd mdisc).bts = e.bts := by
  unfold Effect.thenManuf
  split_ifs <;> rfl

/-- **`oml_msg` refines the O&M state machine.** -/
theorem omlMsg_effect (env : Env) (sd : Link) (m : Mem) (b : Bts) :
    (omlMsg env sd (.start m b)).effect =
      .oml env sd ((Handling.start m b).request env) b :=
  ((Handling.start m b).msgTypeSwitch_refines sd env).thenManuf rfl env sd

/-- A formatted O&M message has no part in the switch on the discriminator. -/
theorem oml_effect_of_fom {env : Env} {q : Request} {b : Bts} (sd : Link)
    (hmdisc : q.mdisc = abisOmMdiscFom) :
    Effect.oml env sd q b = .msgType sd q b := by
  rw [Effect.oml, Effect.thenManuf, if_neg]
  rintro ⟨-, -, hmanuf⟩
  rw [hmdisc] at hmanuf
  exact absurd hmanuf (by decide)

end SoftBts
