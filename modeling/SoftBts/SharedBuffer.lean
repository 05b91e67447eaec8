import SoftBts.Run

/-! The replies of `oml_msg` are built over the request, and the chain of `if`s on the object class
goes on after some of them. Here `oml_msg` has where it reads the request from as a parameter: a
reply changes what is read only to what it puts there, and that is enough for the handler to do the
same as one that reads a copy of the request and has a buffer of its own for the replies. -/

namespace SoftBts

open Octets

/-! ### `oml_msg` over a source -/

/-- Where a handling reads the request from. -/
abbrev Source := Handling → Mem

/-- The buffer that the replies are built in. -/
def Source.shared : Source := Handling.mem

/-- A copy of the request that nothing writes to. -/
def Source.copy (m : Mem) : Source := fun _ => m

/-- `if(fom_hdr->obj_class == …){ … }`, with or without a break at the end. -/
structure Branch where
  objClass : UInt8
  body : Handling → Outcome
  exits : Bool

/-- The outcome of a handling, and the classes of the branches it took. -/
structure Traced where
  outcome : Outcome
  taken : List UInt8

variable (src : Source)

/-- The branches of a case, in order. -/
def runBranches : List Branch → Handling → Traced
  | [], h => ⟨.returned h, []⟩
  | branch :: branches, h =>
      if src h fomObjClass = branch.objClass then
        let r := branch.body h
        if branch.exits = true ∨ r.stop ≠ none then ⟨r, [branch.objClass]⟩
        else
          let rest := runBranches branches r.handling
          ⟨rest.outcome, branch.objClass :: rest.taken⟩
      else runBranches branches h

def swActReqAckBranches : List Branch :=
  [⟨nmOcSiteManager, fun h =>
      .returned (h.setBts fun b => { b with swSiteManager := nmMtSwActReqAck.toNat }), false⟩,
    ⟨nmOcBts, fun h => .returned (h.setBts fun b => { b with swBts := nmMtSwActReqAck.toNat }),
      false⟩,
    ⟨nmOcBasebTransc, fun h => .returned h, false⟩]

def activateSwBranches (sd : Link) : List Branch :=
  [⟨nmOcSiteManager, fun h =>
      .returned (h.setBts (fun b => { b with swSiteManager := nmMtActivateSw.toNat })
        |>.swActivateAck sd ⟨nmOcSiteManager, nmOcNull, nmOcNull, nmOcNull⟩
        |>.stateChangedEventReport sd ⟨nmOcSiteManager, nmOcNull, nmOcNull, nmOcNull⟩
            nmOpstateEnabled nmAvstateOk nmStateLocked), false⟩,
    ⟨nmOcBts, fun h =>
      .returned (h.swActivateAck sd ⟨nmOcBts, 0x00, nmOcNull, nmOcNull⟩
        |>.stateChangedEventReport sd ⟨nmOcBts, 0x00, nmOcNull, nmOcNull⟩
            nmOpstateDisabled nmAvstateDependency nmStateLocked), false⟩,
    ⟨nmOcBasebTransc, fun h =>
      .returned (h.swActivateAck sd ⟨nmOcBasebTransc, 0x00, 0x00, nmOcNull⟩
        |>.swActivateRequest sd ⟨nmOcRadioCarrier, 0x00, 0x00, nmOcNull⟩), true⟩,
    ⟨nmOcRadioCarrier, fun h =>
      .returned (h.swActivateAck sd ⟨nmOcRadioCarrier, 0x00, 0x00, nmOcNull⟩
        |>.forChannels fun channel h =>
            h.swActivateRequest sd ⟨nmOcChannel, 0x00, 0x00, tsOctet channel⟩), true⟩,
    ⟨nmOcChannel, fun h =>
      let h := h.swActivateAck sd ⟨nmOcChannel, 0x00, 0x00, src h fomTsNr⟩
      let h := h.stateChangedEventReport sd ⟨nmOcChannel, 0x00, 0x00, src h fomTsNr⟩
        nmOpstateDisabled nmAvstateDependency nmStateLocked
      .returned (if src h fomTsNr = 0x07 then
        h.forChannels fun channel h =>
          h.swActivatedReport sd ⟨nmOcChannel, 0x00, 0x00, tsOctet channel⟩
      else h), true⟩]

def opstartBranches (sd : Link) : List Branch :=
  [⟨nmOcSiteManager, fun h =>
      .returned (h.setBts (fun b =>
          { b with managerOpstate := nmOpstateEnabled, managerAdminState := nmStateUnlocked })
        |>.opstartAck sd ⟨nmOcSiteManager, nmOcNull, nmOcNull, nmOcNull⟩
        |>.swActivatedReport sd ⟨nmOcSiteManager, nmOcNull, nmOcNull, nmOcNull⟩
        |>.swActivateRequest sd ⟨nmOcBts, 0x00, nmOcNull, nmOcNull⟩), true⟩,
    ⟨nmOcBts, fun h =>
      .returned (h.setBts (fun b => { b with btsOpstate := nmOpstateEnabled })
        |>.opstartAck sd ⟨nmOcBts, 0x00, nmOcNull, nmOcNull⟩
        |>.swActivatedReport sd ⟨nmOcBts, 0x00, nmOcNull, nmOcNull⟩
        |>.swActivateRequest sd ⟨nmOcBasebTransc, 0x00, 0x00, nmOcNull⟩), true⟩,
    ⟨nmOcBasebTransc, fun h =>
      .returned (h.setBts (fun b => { b with basebTranscOpstate := nmOpstateEnabled })
        |>.opstartAck sd ⟨nmOcBasebTransc, 0x00, 0x00, nmOcNull⟩), true⟩,
    ⟨nmOcRadioCarrier, fun h =>
      .returned (h.setBts (fun b => { b with radioCarrierOpstate := nmOpstateEnabled })
        |>.opstartAck sd ⟨nmOcRadioCarrier, 0x00, 0x00, nmOcNull⟩), true⟩,
    ⟨nmOcChannel, fun h =>
      if hts : (src h fomTsNr).toNat < 8 then
        let h := h.setBts fun b => { b with
          channelOpstate :=
            Function.update b.channelOpstate ⟨(src h fomTsNr).toNat, hts⟩ nmOpstateEnabled }
        let h := h.opstartAck sd ⟨nmOcChannel, 0x00, 0x00, src h fomTsNr⟩
        .returned (if src h fomTsNr = 0x07 then h.channelBatch sd else h)
      else .stopped .fault h, true⟩]

def chgAdmStateBranches (sd : Link) : List Branch :=
  [⟨nmOcBts, fun h =>
      .returned (h.setBts (fun b => { b with btsAdminState := src h (fomData + 1) })
        |>.chgAdmStateAck sd ⟨nmOcBts, 0x00, nmOcNull, nmOcNull⟩), true⟩,
    ⟨nmOcBasebTransc, fun h =>
      .returned (h.setBts (fun b => { b with basebTranscAdminState := src h (fomData + 1) })
        |>.chgAdmStateAck sd ⟨nmOcBasebTransc, 0x00, 0x00, nmOcNull⟩), true⟩,
    ⟨nmOcRadioCarrier, fun h =>
      .returned (h.setBts (fun b => { b with radioCarrierAdminState := src h (fomData + 1) })
        |>.chgAdmStateAck sd ⟨nmOcRadioCarrier, 0x00, 0x00, nmOcNull⟩), true⟩,
    ⟨nmOcChannel, fun h =>
      if hts : (src h fomTsNr).toNat < 8 then
        let h := h.setBts fun b => { b with
          channelAdminState := Function.update b.channelAdminState
            ⟨(src h fomTsNr).toNat, hts⟩ (src h (fomData + 1)) }
        .returned (h.chgAdmStateAck sd ⟨nmOcChannel, 0x00, 0x00, src h fomTsNr⟩)
      else .stopped .fault h, true⟩]

def setBtsAttrFrom (env : Env) (sd : Link) (h : Handling) : Outcome :=
  match btsGetAttr env.turns (src h) with
  | none => .stopped .hang h
  | some _ =>
      .returned (h.btsSetAttrAck sd ⟨nmOcBts, 0x00, nmOcNull, nmOcNull⟩
        |>.setBts fun b => { b with swBts := nmMtSetBtsAttrAck.toNat })

/-- `switch (fom_hdr->msg_type)` -/
def msgTypeSwitchFrom (env : Env) (sd : Link) (h : Handling) : Traced :=
  let msgType := src h fomMsgType
  if msgType = nmMtSwActReqAck then runBranches src swActReqAckBranches h
  else if msgType = nmMtActivateSw then runBranches src (activateSwBranches src sd) h
  else if msgType = nmMtOpstart then runBranches src (opstartBranches src sd) h
  else if msgType = nmMtSetBtsAttr then ⟨setBtsAttrFrom src env sd h, []⟩
  else if msgType = nmMtSetChanAttr then
    ⟨.returned (h.btsSetAttrAck sd ⟨nmOcChannel, 0x00, 0x00, src h fomTsNr⟩), []⟩
  else if msgType = nmMtSetRadioAttr then
    ⟨.returned (h.btsSetAttrAck sd ⟨nmOcRadioCarrier, 0x00, 0x00, nmOcNull⟩), []⟩
  else if msgType = nmMtChgAdmState then runBranches src (chgAdmStateBranches src sd) h
  else ⟨.returned h, []⟩

/-- `switch (om_hdr->mdisc)` -/
def mdiscSwitchFrom (env : Env) (sd : Link) (h : Handling) : Handling :=
  if src h omMdisc = abisOmMdiscManuf then
    let rc := env.send h.sent.length
    let h := h.sendArray sd Handling.initRslLink
    if rc < 0 then h
    else
      let h := h.stateChangedEventReport sd ⟨nmOcBasebTransc, 0x00, 0x00, nmOcNull⟩
        h.bts.basebTranscOpstate nmAvstateOk h.bts.basebTranscAdminState
      let h := h.stateChangedEventReport sd ⟨nmOcRadioCarrier, 0x00, 0x00, nmOcNull⟩
        h.bts.radioCarrierOpstate nmAvstateOk h.bts.radioCarrierAdminState
      h.sendArray .rsl Handling.idAck |>.sendArray .rsl Handling.nullMsg
  else h

/-- `oml_msg` with the request read from a source. -/
def omlMsgFrom (env : Env) (sd : Link) (h : Handling) : Traced :=
  let r := msgTypeSwitchFrom src env sd h
  ⟨r.outcome.andThen fun h => .returned (mdiscSwitchFrom src env sd h), r.taken⟩

theorem Outcome.returned_handling {r : Outcome} (hstop : r.stop = none) :
    .returned r.handling = r := by
  rw [Outcome.returned, ← hstop]

/-- What is read of the request. -/
def Source.request (src : Source) (env : Env) (h : Handling) : Request :=
  (Handling.start (src h) h.bts).request env

/-! ### Chains of branches -/

variable {src} {h : Handling} {branch : Branch} {branches : List Branch}

theorem runBranches_nil : (runBranches src [] h).outcome = .returned h := rfl

theorem outcome_exits (objClass : UInt8) (body : Handling → Outcome) :
    (runBranches src (⟨objClass, body, true⟩ :: branches) h).outcome =
      if src h fomObjClass = objClass then body h else (runBranches src branches h).outcome := by
  rw [runBranches]
  split_ifs <;> rfl

theorem outcome_goesOn (objClass : UInt8) (f : Handling → Handling) :
    (runBranches src (⟨objClass, fun h => .returned (f h), false⟩ :: branches) h).outcome =
      (runBranches src branches (if src h fomObjClass = objClass then f h else h)).outcome := by
  rw [runBranches]
  split_ifs <;> rfl

theorem outcome_returned (objClass : UInt8) (f : Handling → Handling) {h' : Handling}
    (hrest : (runBranches src branches h).outcome = .returned h') :
    (runBranches src (⟨objClass, fun h => .returned (f h), true⟩ :: branches) h).outcome =
      .returned (if src h fomObjClass = objClass then f h else h') := by
  rw [outcome_exits, hrest, apply_ite Outcome.returned]

/-! ### Over the shared buffer it is `oml_msg` -/

section Shared

variable (env : Env) (sd : Link) (h : Handling)

theorem swActReqAck_shared :
    (runBranches .shared swActReqAckBranches h).outcome = .returned h.swActReqAck := by
  rw [swActReqAckBranches, outcome_goesOn, outcome_goesOn, outcome_goesOn nmOcBasebTransc fun h => h,
    ite_self]
  rfl

theorem activateSw_shared :
    (runBranches .shared (activateSwBranches .shared sd) h).outcome =
      .returned (h.activateSw sd) := by
  rw [activateSwBranches, outcome_goesOn, outcome_goesOn]
  exact outcome_returned _ _ (outcome_returned _ _ (outcome_returned _ _ runBranches_nil))

theorem opstart_shared :
    (runBranches .shared (opstartBranches .shared sd) h).outcome = h.opstart sd := by
  rw [opstartBranches, outcome_exits, outcome_exits, outcome_exits, outcome_exits, outcome_exits]
  rfl

theorem chgAdmState_shared :
    (runBranches .shared (chgAdmStateBranches .shared sd) h).outcome = h.chgAdmState sd := by
  rw [chgAdmStateBranches, outcome_exits, outcome_exits, outcome_exits, outcome_exits]
  rfl

theorem omlMsgFrom_shared : (omlMsgFrom .shared env sd h).outcome = omlMsg env sd h := by
  rw [omlMsgFrom, omlMsg]
  have hswitch : (msgTypeSwitchFrom .shared env sd h).outcome = h.msgTypeSwitch env sd := by
    simp only [msgTypeSwitchFrom, apply_ite Traced.outcome, swActReqAck_shared, activateSw_shared,
      opstart_shared, chgAdmState_shared]
    rfl
  rw [← hswitch]
  rfl

end Shared

/-! ### Sound sources -/

/-- A reply changes what is read only to what it puts there. -/
structure Source.Sound (src : Source) : Prop where
  setBts : ∀ f h, src (h.setBts f) = src h
  deliver : ∀ sd frame h i, src (h.deliver sd frame) i = src h i ∨
    frame[i]? = some (src (h.deliver sd frame) i)

theorem Source.sound_shared : Source.shared.Sound where
  setBts := fun _ _ => rfl
  deliver := by
    intro sd frame h i
    show (h.deliver sd frame).mem i = h.mem i ∨ frame[i]? = some ((h.deliver sd frame).mem i)
    rw [Handling.deliver_mem_apply]
    cases frame[i]? with
    | none => exact Or.inl rfl
    | some v => exact Or.inr rfl

theorem Source.sound_copy (m : Mem) : (Source.copy m).Sound where
  setBts := fun _ _ => rfl
  deliver := fun _ _ _ _ => Or.inl rfl

namespace Source.Sound

variable (hsrc : src.Sound) (sd : Link)

include hsrc

/-- What a reply puts back as it was is read as before. -/
theorem deliver_eq {frame : List UInt8} {i : Nat} {v : UInt8} (hread : src h i = v)
    (hframe : frame[i]? = some v) : src (h.deliver sd frame) i = v := by
  rcases hsrc.deliver sd frame h i with hkept | hput
  · rw [hkept, hread]
  · rw [hframe] at hput
    exact (Option.some.inj hput).symm

theorem setBts_apply (f : Bts → Bts) (i : Nat) : src (h.setBts f) i = src h i := by
  rw [hsrc.setBts]

end Source.Sound

/-- The branch leaves the class to be read as before, if the chain goes on after it. -/
def Branch.KeepsClass (src : Source) (branch : Branch) : Prop :=
  branch.exits = false → ∀ h, src h fomObjClass = branch.objClass →
    src (branch.body h).handling fomObjClass = branch.objClass

theorem runBranches_of_not_mem (hnot : ∀ branch ∈ branches, src h fomObjClass ≠ branch.objClass) :
    runBranches src branches h = ⟨.returned h, []⟩ := by
  induction branches with
  | nil => rfl
  | cons branch branches ih =>
      rw [List.forall_mem_cons] at hnot
      rw [runBranches, if_neg hnot.1, ih hnot.2]

/-- What the branch for a class does, if there is one. -/
def Traced.ofBranch (h : Handling) : Option Branch → Traced
  | some branch => ⟨branch.body h, [branch.objClass]⟩
  | none => ⟨.returned h, []⟩

/-- **A chain of branches is a switch**: of branches for different classes that keep the class, the one
for the class is taken, and no other. -/
theorem runBranches_eq (hdistinct : (branches.map Branch.objClass).Nodup)
    (hkeeps : ∀ branch ∈ branches, branch.KeepsClass src) :
    runBranches src branches h =
      .ofBranch h (branches.find? fun branch => src h fomObjClass = branch.objClass) := by
  induction branches with
  | nil => rfl
  | cons branch branches ih =>
      rw [List.map_cons, List.nodup_cons] at hdistinct
      rw [List.forall_mem_cons] at hkeeps
      obtain ⟨hfirst, hdistinct⟩ := hdistinct
      by_cases hclass : src h fomObjClass = branch.objClass
      · rw [runBranches, if_pos hclass, List.find?_cons_of_pos (by simpa using hclass)]
        by_cases hexits : branch.exits = true ∨ (branch.body h).stop ≠ none
        · rw [if_pos hexits]
          rfl
        · obtain ⟨hexits', hstop⟩ := not_or.mp hexits
          have hkept := hkeeps.1 (Bool.eq_false_of_not_eq_true hexits') h hclass
          have hrest : runBranches src branches (branch.body h).handling =
              ⟨.returned (branch.body h).handling, []⟩ := by
            apply runBranches_of_not_mem
            intro b hb heq
            apply hfirst
            rw [← hkept, heq]
            exact List.mem_map_of_mem hb
          rw [if_neg hexits, hrest, Outcome.returned_handling (not_not.mp hstop)]
          rfl
      · rw [runBranches, if_neg hclass, ih hdistinct hkeeps.2,
          List.find?_cons_of_neg (by simpa using hclass)]

theorem length_taken_ofBranch (found : Option Branch) :
    (Traced.ofBranch h found).taken.length ≤ 1 := by
  cases found with
  | none => exact Nat.zero_le 1
  | some branch => exact le_rfl

theorem keepsClass_of_exits (hexits : branch.exits = true) : branch.KeepsClass src := by
  intro hgoes
  rw [hexits] at hgoes
  cases hgoes

theorem keepsClass_returned {objClass : UInt8} {exits : Bool} {f : Handling → Handling}
    (hkeeps : ∀ h, src h fomObjClass = objClass → src (f h) fomObjClass = objClass) :
    (⟨objClass, fun h => .returned (f h), exits⟩ : Branch).KeepsClass src :=
  fun _ => hkeeps

/-! ### What the branches do -/

section Sound

variable (hsrc : src.Sound) (env : Env) (sd : Link) (h : Handling)

theorem runBranches_opstart :
    runBranches src (opstartBranches src sd) h = .ofBranch h
      ((opstartBranches src sd).find? fun branch => src h fomObjClass = branch.objClass) := by
  apply runBranches_eq
  · show [nmOcSiteManager, nmOcBts, nmOcBasebTransc, nmOcRadioCarrier, nmOcChannel].Nodup
    decide
  · simp only [opstartBranches, List.forall_mem_cons]
    exact ⟨keepsClass_of_exits rfl, keepsClass_of_exits rfl, keepsClass_of_exits rfl,
      keepsClass_of_exits rfl, keepsClass_of_exits rfl, List.forall_mem_nil _⟩

theorem runBranches_chgAdmState :
    runBranches src (chgAdmStateBranches src sd) h = .ofBranch h
      ((chgAdmStateBranches src sd).find? fun branch => src h fomObjClass = branch.objClass) := by
  apply runBranches_eq
  · show [nmOcBts, nmOcBasebTransc, nmOcRadioCarrier, nmOcChannel].Nodup
    decide
  · simp only [chgAdmStateBranches, List.forall_mem_cons]
    exact ⟨keepsClass_of_exits rfl, keepsClass_of_exits rfl, keepsClass_of_exits rfl,
      keepsClass_of_exits rfl, List.forall_mem_nil _⟩

include hsrc

theorem runBranches_swActReqAck :
    runBranches src swActReqAckBranches h = .ofBranch h
      (swActReqAckBranches.find? fun branch => src h fomObjClass = branch.objClass) := by
  apply runBranches_eq (by decide)
  simp only [swActReqAckBranches, List.forall_mem_cons]
  refine ⟨?_, ?_, ?_, List.forall_mem_nil _⟩
  · exact keepsClass_returned fun h hclass => (hsrc.setBts_apply _ _).trans hclass
  · exact keepsClass_returned fun h hclass => (hsrc.setBts_apply _ _).trans hclass
  · exact keepsClass_returned fun h hclass => hclass

theorem runBranches_activateSw :
    runBranches src (activateSwBranches src sd) h = .ofBranch h
      ((activateSwBranches src sd).find? fun branch => src h fomObjClass = branch.objClass) := by
  apply runBranches_eq
  · show [nmOcSiteManager, nmOcBts, nmOcBasebTransc, nmOcRadioCarrier, nmOcChannel].Nodup
    decide
  · simp only [activateSwBranches, List.forall_mem_cons, Handling.fomReply_eq,
      Handling.stateChangedEventReport_eq]
    refine ⟨?_, ?_, keepsClass_of_exits rfl, keepsClass_of_exits rfl, keepsClass_of_exits rfl,
      List.forall_mem_nil _⟩
    · refine keepsClass_returned fun h hclass => ?_
      refine hsrc.deliver_eq sd (hsrc.deliver_eq sd ?_ rfl) rfl
      rw [hsrc.setBts_apply, hclass]
    · refine keepsClass_returned fun h hclass => ?_
      exact hsrc.deliver_eq sd (hsrc.deliver_eq sd hclass rfl) rfl

/-- The branch for a channel: the timeslot is read again after each reply that carries it. -/
theorem activateSwFrom_channel (hclass : src h fomObjClass = nmOcChannel) :
    (runBranches src (activateSwBranches src sd) h).outcome =
      .returned (match Obj.named nmOcChannel (src h fomTsNr) with
        | some o => h.answered sd (h.bts.activate o) (activateSwReplies o)
        | none => h.answered sd h.bts
            [fomFrame nmMtActivateSwAck ⟨nmOcChannel, 0x00, 0x00, src h fomTsNr⟩,
              reportFrame ⟨nmOcChannel, 0x00, 0x00, src h fomTsNr⟩
                nmOpstateDisabled nmAvstateDependency nmStateLocked]) := by
  have hack : src (h.deliver sd (fomFrame nmMtActivateSwAck
      ⟨nmOcChannel, 0x00, 0x00, src h fomTsNr⟩)) fomTsNr = src h fomTsNr :=
    hsrc.deliver_eq sd rfl rfl
  have hreport := hsrc.deliver_eq sd hack (show (reportFrame
    ⟨nmOcChannel, 0x00, 0x00, src h fomTsNr⟩ nmOpstateDisabled nmAvstateDependency
      nmStateLocked)[fomTsNr]? = some (src h fomTsNr) from rfl)
  rw [runBranches_activateSw hsrc, hclass]
  show Outcome.returned (if src _ fomTsNr = 0x07 then _ else _) = _
  simp only [Handling.swActivateAck, Handling.fomReply_eq, hack,
    Handling.stateChangedEventReport_eq, hreport]
  by_cases hts : (src h fomTsNr).toNat < 8
  · simp only [Obj.named_channel hts, activateSwReplies, Obj.inst, tsOctet_of_toNat hts,
      ← eq_seven_iff hts]
    simp [Handling.answered, Bts.activate, perChannel, ← Handling.fomReply_eq]
    split_ifs <;> rfl
  · have h7 := ne_seven_of_outside hts
    simp [h7, Obj.named, hts, Handling.answered]

theorem activateSwFrom_eq :
    (runBranches src (activateSwBranches src sd) h).outcome =
      .returned (match Obj.named (src h fomObjClass) (src h fomTsNr) with
        | some o => h.answered sd (h.bts.activate o) (activateSwReplies o)
        | none => h.answered sd h.bts (if src h fomObjClass = nmOcChannel then
            [fomFrame nmMtActivateSwAck ⟨nmOcChannel, 0x00, 0x00, src h fomTsNr⟩,
              reportFrame ⟨nmOcChannel, 0x00, 0x00, src h fomTsNr⟩
                nmOpstateDisabled nmAvstateDependency nmStateLocked]
            else [])) := by
  by_cases hchannel : src h fomObjClass = nmOcChannel
  · rw [activateSwFrom_channel hsrc sd h hchannel, hchannel]
    rfl
  rw [runBranches_activateSw hsrc]
  rcases class_cases (src h fomObjClass) with h0 | h1 | h2 | h3 | h4 | hother
  · simp [activateSwBranches, h0, Traced.ofBranch, Obj.named, Handling.answered, activateSwReplies,
      Handling.setBts, Obj.inst, Bts.activate, Handling.fomReply_eq,
      Handling.stateChangedEventReport_eq]
  · simp [activateSwBranches, h1, Traced.ofBranch, Obj.named, Handling.answered, activateSwReplies,
      Obj.inst, Bts.activate, Handling.fomReply_eq, Handling.stateChangedEventReport_eq]
  · simp [activateSwBranches, h2, Traced.ofBranch, Obj.named, Handling.answered, activateSwReplies,
      Obj.inst, Bts.activate, Handling.fomReply_eq, perChannel]
  · exact absurd h3 hchannel
  · simp [activateSwBranches, h4, Traced.ofBranch, Obj.named, Handling.answered, activateSwReplies,
      Obj.inst, Bts.activate, Handling.fomReply_eq, Handling.swActivateRequest_eq]
  · simp only [nmOcSiteManager, nmOcBts, nmOcRadioCarrier, nmOcChannel, nmOcBasebTransc] at hother
    simp [activateSwBranches, hother, Traced.ofBranch, Obj.named, Handling.answered]

theorem swActReqAckFrom_eq :
    (runBranches src swActReqAckBranches h).outcome =
      .returned (h.answered sd (h.bts.acknowledgeActReq (src h fomObjClass)) []) := by
  rw [runBranches_swActReqAck hsrc]
  by_cases h0 : src h fomObjClass = nmOcSiteManager
  · rw [h0]
    rfl
  by_cases h1 : src h fomObjClass = nmOcBts
  · rw [h1]
    rfl
  by_cases h4 : src h fomObjClass = nmOcBasebTransc
  · rw [h4]
    rfl
  · simp only [nmOcSiteManager, nmOcBts, nmOcBasebTransc] at h0 h1 h4
    simp [swActReqAckBranches, h0, h1, h4, Traced.ofBranch, Bts.acknowledgeActReq,
      Handling.answered]

theorem opstartFrom_channel (hclass : src h fomObjClass = nmOcChannel) :
    (runBranches src (opstartBranches src sd) h).outcome =
      match Obj.named nmOcChannel (src h fomTsNr) with
      | some o => .returned (h.answered sd (h.bts.start o) (opstartReplies (h.bts.start o) o))
      | none => ⟨h, some .fault⟩ := by
  have hack : ∀ f, src ((h.setBts f).deliver sd (fomFrame nmMtOpstartAck
      ⟨nmOcChannel, 0x00, 0x00, src h fomTsNr⟩)) fomTsNr = src h fomTsNr :=
    fun f => hsrc.deliver_eq sd (hsrc.setBts_apply f _) rfl
  rw [runBranches_opstart, hclass]
  show (if hts : (src h fomTsNr).toNat < 8 then _ else _ : Outcome) = _
  by_cases hts : (src h fomTsNr).toNat < 8
  · simp only [dif_pos hts, Handling.opstartAck, Handling.fomReply_eq, hsrc.setBts, hack,
      Obj.named_channel hts, opstartReplies, Obj.inst, tsOctet_of_toNat hts, ← eq_seven_iff hts]
    split_ifs
    · simp [Handling.channelBatch_eq, Handling.answered]
      rfl
    · rfl
  · simp [Obj.named, hts, Outcome.stopped]

theorem opstartFrom_eq :
    (runBranches src (opstartBranches src sd) h).outcome =
      match Obj.named (src h fomObjClass) (src h fomTsNr) with
      | some o => .returned (h.answered sd (h.bts.start o) (opstartReplies (h.bts.start o) o))
      | none => ⟨h, if src h fomObjClass = nmOcChannel then some .fault else none⟩ := by
  by_cases hchannel : src h fomObjClass = nmOcChannel
  · rw [opstartFrom_channel hsrc sd h hchannel, hchannel]
    rfl
  rw [runBranches_opstart]
  rcases class_cases (src h fomObjClass) with h0 | h1 | h2 | h3 | h4 | hother
  · simp [opstartBranches, h0, Traced.ofBranch, Obj.named, Handling.answered, Handling.setBts,
      opstartReplies, Bts.start, Bts.setOpstate, Bts.setAdminState, Obj.inst, Handling.fomReply_eq,
      Handling.swActivateRequest_eq]
  · simp [opstartBranches, h1, Traced.ofBranch, Obj.named, Handling.answered, Handling.setBts,
      opstartReplies, Bts.start, Bts.setOpstate, Obj.inst, Handling.fomReply_eq,
      Handling.swActivateRequest_eq]
  · simp [opstartBranches, h2, Traced.ofBranch, Obj.named, Handling.answered, Handling.setBts,
      opstartReplies, Bts.start, Bts.setOpstate, Obj.inst, Handling.fomReply_eq]
  · exact absurd h3 hchannel
  · simp [opstartBranches, h4, Traced.ofBranch, Obj.named, Handling.answered, Handling.setBts,
      opstartReplies, Bts.start, Bts.setOpstate, Obj.inst, Handling.fomReply_eq]
  · simp only [nmOcSiteManager, nmOcBts, nmOcRadioCarrier, nmOcChannel, nmOcBasebTransc] at hother
    simp [opstartBranches, hother, Traced.ofBranch, Obj.named, Outcome.returned]

theorem chgAdmStateFrom_eq :
    (runBranches src (chgAdmStateBranches src sd) h).outcome =
      match Obj.named (src h fomObjClass) (src h fomTsNr) with
      | some .siteManager => .returned h
      | some o => .returned (h.answered sd (h.bts.setAdminState (src h (fomData + 1)) o)
          [fomFrame nmMtChgAdmStateAck o.inst])
      | none => ⟨h, if src h fomObjClass = nmOcChannel then some .fault else none⟩ := by
  rw [runBranches_chgAdmState]
  rcases class_cases (src h fomObjClass) with h0 | h1 | h2 | h3 | h4 | hother
  · simp [chgAdmStateBranches, h0, Traced.ofBranch, Obj.named]
  · simp [chgAdmStateBranches, h1, Traced.ofBranch, Obj.named, Handling.answered, Handling.setBts,
      Bts.setAdminState, Obj.inst, Handling.fomReply_eq]
  · simp [chgAdmStateBranches, h2, Traced.ofBranch, Obj.named, Handling.answered, Handling.setBts,
      Bts.setAdminState, Obj.inst, Handling.fomReply_eq]
  · rw [h3]
    by_cases hts : (src h fomTsNr).toNat < 8
    · show (if hts : (src h fomTsNr).toNat < 8 then _ else _ : Outcome) = _
      simp only [dif_pos hts, Handling.chgAdmStateAck, Handling.fomReply_eq, hsrc.setBts,
        Obj.named_channel hts, Obj.inst, tsOctet_of_toNat hts]
      rfl
    · show (if hts : (src h fomTsNr).toNat < 8 then _ else _ : Outcome) = _
      simp [Obj.named, hts, Outcome.stopped]
  · simp [chgAdmStateBranches, h4, Traced.ofBranch, Obj.named, Handling.answered, Handling.setBts,
      Bts.setAdminState, Obj.inst, Handling.fomReply_eq]
  · simp only [nmOcSiteManager, nmOcBts, nmOcRadioCarrier, nmOcChannel, nmOcBasebTransc] at hother
    simp [chgAdmStateBranches, hother, Traced.ofBranch, Obj.named, Outcome.returned]

/-! ### The handler over a sound source -/

/-- A handling that goes as an effect says and does not come to read ABIS_OM_MDISC_MANUF. -/
structure RefinesFrom (src : Source) (h : Handling) (r : Outcome) (e : Effect) : Prop where
  bts : r.handling.bts = e.bts
  sent : r.handling.sent = h.sent ++ e.sent
  stop : r.stop = e.stop
  mdisc : src h omMdisc ≠ abisOmMdiscManuf → src r.handling omMdisc ≠ abisOmMdiscManuf

theorem mdisc_deliverAll {replies : List (List UInt8)}
    (hreplies : ∀ frame ∈ replies, Handling.Formatted frame) (hmdisc : src h omMdisc ≠ abisOmMdiscManuf) :
    src (h.deliverAll sd replies) omMdisc ≠ abisOmMdiscManuf := by
  induction replies generalizing h with
  | nil => exact hmdisc
  | cons frame frames ih =>
      rw [List.forall_mem_cons] at hreplies
      rw [Handling.deliverAll_cons]
      apply ih _ hreplies.2
      rcases hsrc.deliver sd frame h omMdisc with hkept | hput
      · rw [hkept]
        exact hmdisc
      · rw [hreplies.1] at hput
        rw [← Option.some.inj hput]
        decide

theorem refinesFrom_answered (b : Bts) {replies : List (List UInt8)}
    (hreplies : ∀ frame ∈ replies, Handling.Formatted frame) :
    RefinesFrom src h (.returned (h.answered sd b replies)) (.answer sd b replies) where
  bts := (h.refines_answered sd b hreplies).bts
  sent := (h.refines_answered sd b hreplies).sent
  stop := rfl
  mdisc := by
    intro hmdisc
    apply mdisc_deliverAll hsrc sd _ hreplies
    rw [← hsrc.setBts fun _ => b] at hmdisc
    exact hmdisc

omit hsrc in
theorem refinesFrom_unnamed (q : Request) (hclass : q.objClass = src h fomObjClass) :
    RefinesFrom src h ⟨h, if src h fomObjClass = nmOcChannel then some .fault else none⟩
      (.unnamed q h.bts) where
  bts := rfl
  sent := by simp [Effect.unnamed]
  stop := by rw [Effect.unnamed, hclass]
  mdisc := id

theorem setBtsAttrFrom_refines :
    RefinesFrom src h (setBtsAttrFrom src env sd h)
      (.setBtsAttr sd (src.request env h) h.bts) := by
  rw [setBtsAttrFrom, Effect.setBtsAttr, Source.request, Handling.request, Handling.start]
  cases btsGetAttr env.turns (src h) with
  | none => exact ⟨rfl, (List.append_nil _).symm, rfl, id⟩
  | some steps =>
      simp only [Handling.btsSetAttrAck, Handling.fomReply_eq]
      refine ⟨rfl, rfl, rfl, fun hmdisc => ?_⟩
      rw [Outcome.returned, hsrc.setBts]
      exact mdisc_deliverAll (h := h) hsrc sd
        (List.forall_mem_singleton.mpr (Handling.formatted_fomFrame _ Obj.bts.inst)) hmdisc

theorem activateSwFrom_refines :
    RefinesFrom src h (runBranches src (activateSwBranches src sd) h).outcome
      (.activateSw sd (src.request env h) h.bts) := by
  rw [activateSwFrom_eq hsrc, Effect.activateSw, Request.obj]
  show RefinesFrom src h _ (match Obj.named (src h fomObjClass) (src h fomTsNr) with
    | some o => _ | none => _)
  cases Obj.named (src h fomObjClass) (src h fomTsNr) with
  | some o => exact refinesFrom_answered hsrc sd h _ (Handling.formatted_activateSwReplies o)
  | none =>
      apply refinesFrom_answered hsrc sd h
      split_ifs <;> simp

theorem opstartFrom_refines :
    RefinesFrom src h (runBranches src (opstartBranches src sd) h).outcome
      (.opstart sd (src.request env h) h.bts) := by
  rw [opstartFrom_eq hsrc, Effect.opstart, Request.obj]
  show RefinesFrom src h _ (match Obj.named (src h fomObjClass) (src h fomTsNr) with
    | some o => _ | none => _)
  cases Obj.named (src h fomObjClass) (src h fomTsNr) with
  | some o => exact refinesFrom_answered hsrc sd h _ (Handling.formatted_opstartReplies _ o)
  | none => exact refinesFrom_unnamed h _ rfl

theorem chgAdmStateFrom_refines :
    RefinesFrom src h (runBranches src (chgAdmStateBranches src sd) h).outcome
      (.chgAdmState sd (src.request env h) h.bts) := by
  rw [chgAdmStateFrom_eq hsrc, Effect.chgAdmState, Request.obj]
  show RefinesFrom src h _ (match Obj.named (src h fomObjClass) (src h fomTsNr) with
    | some .siteManager => _ | some o => _ | none => _)
  cases Obj.named (src h fomObjClass) (src h fomTsNr) with
  | some o =>
      cases o with
      | siteManager => exact refinesFrom_answered hsrc sd h h.bts (List.forall_mem_nil _)
      | _ => exact refinesFrom_answered hsrc sd h _ (by simp)
  | none => exact refinesFrom_unnamed h _ rfl

theorem msgTypeSwitchFrom_refines :
    RefinesFrom src h (msgTypeSwitchFrom src env sd h).outcome
      (.msgType sd (src.request env h) h.bts) := by
  have hreply : ∀ o, RefinesFrom src h (.returned (h.btsSetAttrAck sd o))
      (.answer sd h.bts [fomFrame nmMtSetBtsAttrAck o]) := by
    intro o
    rw [Handling.btsSetAttrAck, Handling.fomReply_eq]
    exact refinesFrom_answered hsrc sd h h.bts
      (List.forall_mem_singleton.mpr (Handling.formatted_fomFrame _ o))
  simp only [msgTypeSwitchFrom, apply_ite Traced.outcome]
  rw [Effect.msgType]
  show RefinesFrom src h _ (if src h fomMsgType = _ then _ else if src h fomMsgType = _ then _ else
    if src h fomMsgType = _ then _ else if src h fomMsgType = _ then _ else
    if src h fomMsgType = _ then _ else if src h fomMsgType = _ then _ else
    if src h fomMsgType = _ then _ else _)
  split_ifs
  · rw [swActReqAckFrom_eq hsrc]
    exact refinesFrom_answered hsrc sd h _ (List.forall_mem_nil _)
  · exact activateSwFrom_refines hsrc env sd h
  · exact opstartFrom_refines hsrc env sd h
  · exact setBtsAttrFrom_refines hsrc env sd h
  · exact hreply _
  · exact hreply _
  · exact chgAdmStateFrom_refines hsrc env sd h
  · exact refinesFrom_answered hsrc sd h h.bts (List.forall_mem_nil _)

/-- Over a sound source that does not give ABIS_OM_MDISC_MANUF, `oml_msg` does what the first switch
of the state machine says of the request that was read. -/
theorem omlMsgFrom_effect (hmdisc : src h omMdisc ≠ abisOmMdiscManuf) (hstart : h.sent = []) :
    (omlMsgFrom src env sd h).outcome.effect =
      .msgType sd (src.request env h) h.bts := by
  obtain ⟨hbts, hsent, hstop, hkept⟩ := msgTypeSwitchFrom_refines hsrc env sd h
  have hmdisc' := hkept hmdisc
  rw [hstart, List.nil_append] at hsent
  have hend : (omlMsgFrom src env sd h).outcome = (msgTypeSwitchFrom src env sd h).outcome := by
    rw [omlMsgFrom, Outcome.andThen]
    cases hs : (msgTypeSwitchFrom src env sd h).outcome.stop with
    | some why => rfl
    | none =>
        simp only [mdiscSwitchFrom, if_neg hmdisc']
        exact Outcome.returned_handling hs
  rw [hend, Outcome.effect, hbts, hsent, hstop]

theorem length_taken_omlMsgFrom : (omlMsgFrom src env sd h).taken.length ≤ 1 := by
  show (msgTypeSwitchFrom src env sd h).taken.length ≤ 1
  rw [msgTypeSwitchFrom, runBranches_swActReqAck hsrc, runBranches_activateSw hsrc,
    runBranches_opstart, runBranches_chgAdmState]
  split_ifs
  · exact length_taken_ofBranch _
  · exact length_taken_ofBranch _
  · exact length_taken_ofBranch _
  · exact Nat.zero_le 1
  · exact Nat.zero_le 1
  · exact Nat.zero_le 1
  · exact length_taken_ofBranch _
  · exact Nat.zero_le 1

end Sound

/-- **Replies over the request.** For a message that is not manufacturer-defined, `oml_msg` leaves the
same state, sends the same frames and ends the same way as over a copy of the request, with the
replies built in any other buffer; and it takes at most one branch for an object class. -/
theorem omlMsg_on_copy (env : Env) (sd : Link) (m reply : Mem) (b : Bts)
    (hmdisc : m omMdisc ≠ abisOmMdiscManuf) :
    let shared := omlMsgFrom .shared env sd (.start m b)
    let copied := omlMsgFrom (.copy m) env sd (.start reply b)
    shared.outcome = omlMsg env sd (.start m b) ∧
      shared.outcome.effect = copied.outcome.effect ∧ shared.taken.length ≤ 1 := by
  refine ⟨omlMsgFrom_shared env sd _, ?_, length_taken_omlMsgFrom Source.sound_shared env sd _⟩
  calc (omlMsgFrom .shared env sd (.start m b)).outcome.effect
    _ = .msgType sd (Source.shared.request env (.start m b)) b :=
        omlMsgFrom_effect Source.sound_shared env sd (.start m b) hmdisc rfl
    _ = .msgType sd ((Source.copy m).request env (.start reply b)) b := rfl
    _ = (omlMsgFrom (.copy m) env sd (.start reply b)).outcome.effect :=
        (omlMsgFrom_effect (Source.sound_copy m) env sd (.start reply b) hmdisc rfl).symm

/-- Activate SW for the baseband transceiver, of which the last reply names the radio carrier. -/
theorem omlMsg_on_copy_activateSw :
    let m := Mem.blank.store 0 (fomFrame nmMtActivateSw Obj.basebTransc.inst)
    m omMdisc ≠ abisOmMdiscManuf ∧
      let shared := omlMsgFrom .shared .plain .oml (.start m startup)
      let copied := omlMsgFrom (.copy m) .plain .oml
        (.start Mem.blank startup)
      shared.outcome = omlMsg .plain .oml (.start m startup) ∧
        shared.outcome.effect = copied.outcome.effect ∧ shared.taken.length ≤ 1 :=
  ⟨by decide, omlMsg_on_copy _ _ _ _ _ (by decide)⟩

end SoftBts
