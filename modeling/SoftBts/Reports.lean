import SoftBts.Run

/-! Where State Changed Event Reports come from. The reports of OPSTART and of the
manufacturer-defined message carry the state variables; those of the first MSG_ID_GET and of
ACTIVATE SW carry constants. The results are for any property `Q` of a report: of the state held when
it is sent, the object, and the two states it carries. -/

namespace SoftBts

open Octets Reactive

variable (Q : Bts → ObjInst → UInt8 → UInt8 → Prop)

/-- If the octet string sent is a report, the report has the property. -/
def Reporting (s : Sent) : Prop :=
  ∀ (o : ObjInst) (opState avStatus admState : UInt8),
    s.octets = reportFrame o opState avStatus admState → Q s.held o opState admState

/-- The reports of the state held have the property. -/
def StoredReports (b : Bts) : Prop :=
  ∀ o : Obj, Q b o.inst (b.stateVar (.opstate o)) (b.stateVar (.adminState o))

theorem reportFrame_inj {o o' : ObjInst} {opState avStatus admState opState' avStatus' admState' : UInt8}
    (h : reportFrame o opState avStatus admState = reportFrame o' opState' avStatus' admState') :
    o = o' ∧ opState = opState' ∧ avStatus = avStatus' ∧ admState = admState' := by
  obtain ⟨c, x, y, z⟩ := o
  obtain ⟨c', x', y', z'⟩ := o'
  simp only [reportFrame, List.cons.injEq] at h
  obtain ⟨-, -, -, -, -, -, -, -, h1, h2, h3, h4, -, h5, -, -, -, h6, -, h7, -⟩ := h
  exact ⟨by rw [h1, h2, h3, h4], h5, h6, h7⟩

variable {Q}

/-- What is no report has every property of reports. -/
theorem reporting_of_fomOf {s : Sent} (h : ∀ o, fomOf s.octets ≠ some (nmMtStatechgEventRep, o)) :
    Reporting Q s := by
  intro o opState avStatus admState hs
  exact absurd (by rw [hs, fomOf_reportFrame]) (h o)

theorem reporting_of_fomOf_eq_none {s : Sent} (h : fomOf s.octets = none) : Reporting Q s :=
  reporting_of_fomOf fun o => by rw [h]; nofun

theorem reporting_report_iff {sd : Link} {b : Bts} {o : ObjInst}
    {opState avStatus admState : UInt8} :
    Reporting Q ⟨sd, reportFrame o opState avStatus admState, b⟩ ↔ Q b o opState admState := by
  constructor
  · intro h
    exact h o opState avStatus admState rfl
  · rintro h o' op' av' adm' hs
    obtain ⟨rfl, rfl, -, rfl⟩ := reportFrame_inj hs
    exact h

variable {sd : Link} {b : Bts}

@[simp] theorem reporting_swActReqFrame (o : ObjInst) : Reporting Q ⟨sd, swActReqFrame o, b⟩ :=
  reporting_of_fomOf fun o' => by simp

@[simp] theorem reporting_fomFrame {msgType : UInt8} (h : ¬ msgType = 0x61) (o : ObjInst) :
    Reporting Q ⟨sd, fomFrame msgType o, b⟩ :=
  reporting_of_fomOf fun o' => by
    rw [fomOf_fomFrame]
    rintro heq
    exact h (Prod.mk.inj (Option.some.inj heq)).1

theorem reporting_stateReport (h : StoredReports Q b) (o : Obj) (avStatus : UInt8) :
    Reporting Q ⟨sd, stateReport b o avStatus, b⟩ :=
  reporting_report_iff.mpr (h o)

/-! ### The reports of one message -/

/-- The state that ACTIVATE SW reports. -/
def activationReport : Obj → Option (UInt8 × UInt8)
  | .siteManager => some (nmOpstateEnabled, nmStateLocked)
  | .bts => some (nmOpstateDisabled, nmStateLocked)
  | .channel _ => some (nmOpstateDisabled, nmStateLocked)
  | _ => none

theorem reporting_answer {replies : List (List UInt8)} :
    (∀ s ∈ (Effect.answer sd b replies).sent, Reporting Q s) ↔
      ∀ frame ∈ replies, Reporting Q ⟨sd, frame, b⟩ := by
  simp [Effect.answer]

theorem reporting_perChannel {frame : Obj → List UInt8}
    (h : ∀ o, Reporting Q ⟨sd, frame o, b⟩) :
    ∀ f ∈ perChannel frame, Reporting Q ⟨sd, f, b⟩ := by
  intro f hf
  obtain ⟨ts, -, rfl⟩ := List.mem_map.mp hf
  exact h _

theorem reporting_activateSwReplies (o : Obj) :
    (∀ f ∈ activateSwReplies o, Reporting Q ⟨sd, f, b⟩) ↔
      ∀ state, activationReport o = some state → Q b o.inst state.1 state.2 := by
  cases o with
  | radioCarrier =>
      refine iff_of_true ?_ fun _ h => by cases h
      rw [activateSwReplies, List.forall_mem_cons]
      exact ⟨by simp, reporting_perChannel fun o => reporting_swActReqFrame _⟩
  | basebTransc =>
      refine iff_of_true ?_ fun _ h => by cases h
      simp [activateSwReplies]
  | channel ts =>
      have hbatch : ∀ f ∈ (if ts = 7 then perChannel fun o => fomFrame nmMtSwActivatedRep o.inst
          else []), Reporting Q ⟨sd, f, b⟩ := by
        split_ifs
        · exact reporting_perChannel fun o => by simp
        · exact List.forall_mem_nil _
      rw [activateSwReplies, List.forall_mem_append, and_iff_left hbatch]
      simp [reporting_report_iff, activationReport]
  | _ => simp [activateSwReplies, reporting_report_iff, activationReport]

theorem reporting_batchReplies (h : StoredReports Q b) :
    ∀ f ∈ batchReplies b, Reporting Q ⟨sd, f, b⟩ := by
  simp only [batchReplies, List.forall_mem_append]
  refine ⟨⟨?_, reporting_perChannel fun o => reporting_stateReport h o _⟩, by simp⟩
  simp [reporting_stateReport h]

theorem reporting_opstartReplies (h : StoredReports Q b) (o : Obj) :
    ∀ f ∈ opstartReplies b o, Reporting Q ⟨sd, f, b⟩ := by
  cases o with
  | channel ts =>
      rw [opstartReplies, List.forall_mem_cons]
      refine ⟨by simp, ?_⟩
      split_ifs
      · exact reporting_batchReplies h
      · exact List.forall_mem_nil _
  | _ => simp [opstartReplies]

theorem reporting_initialReplies (sd : Link) :
    (∀ f ∈ initialReplies, Reporting Q ⟨sd, f, b⟩) ↔
      ∀ o : Obj, Q b o.inst nmOpstateDisabled nmStateLocked := by
  have hinitial : ∀ o : Obj, Reporting Q ⟨sd, initialReport o, b⟩ ↔
      Q b o.inst nmOpstateDisabled nmStateLocked := fun o => reporting_report_iff
  simp only [initialReplies, List.forall_mem_append, List.forall_mem_cons, hinitial]
  constructor
  · rintro ⟨⟨⟨hsite, hbts, hbaseb, -⟩, hchannels⟩, hradio, -⟩ o
    cases o with
    | siteManager => exact hsite
    | bts => exact hbts
    | basebTransc => exact hbaseb
    | radioCarrier => exact hradio
    | channel ts =>
        exact (hinitial _).mp (hchannels _ (List.mem_map_of_mem (List.mem_finRange ts)))
  · intro h
    refine ⟨⟨⟨h _, h _, h _, List.forall_mem_nil _⟩, ?_⟩, h _, List.forall_mem_nil _⟩
    exact reporting_perChannel fun o => (hinitial o).mpr (h o)

theorem reporting_manufReplies (h : StoredReports Q b) (rc : Int) :
    ∀ s ∈ manufReplies rc sd b, Reporting Q s := by
  have hinit : Reporting Q ⟨sd, Handling.initRslLink, b⟩ := reporting_of_fomOf_eq_none rfl
  have hack : Reporting Q ⟨.rsl, Handling.idAck, b⟩ := reporting_of_fomOf_eq_none rfl
  have hnull : Reporting Q ⟨.rsl, Handling.nullMsg, b⟩ := reporting_of_fomOf_eq_none rfl
  rw [manufReplies, List.forall_mem_cons]
  refine ⟨hinit, ?_⟩
  split_ifs
  · exact List.forall_mem_nil _
  · simp [hack, hnull, reporting_stateReport h]

/-- The reports of an activation have the property. -/
def ActivationReports (Q : Bts → ObjInst → UInt8 → UInt8 → Prop) (q : Request) (b : Bts) : Prop :=
  (∀ o state, q.obj = some o → activationReport o = some state →
    Q (b.activate o) o.inst state.1 state.2) ∧
  (q.obj = none → q.objClass = nmOcChannel →
    Q b ⟨nmOcChannel, 0x00, 0x00, q.tsNr⟩ nmOpstateDisabled nmStateLocked)

theorem reporting_activateSw {q : Request} :
    (∀ s ∈ (Effect.activateSw sd q b).sent, Reporting Q s) ↔ ActivationReports Q q b := by
  rw [Effect.activateSw, ActivationReports]
  cases ho : q.obj with
  | some o =>
      simp only [reporting_answer, reporting_activateSwReplies, Option.some.injEq]
      refine ⟨fun h => ⟨fun o' state heq => heq ▸ h state, fun h => ?_⟩, fun h state => h.1 o state rfl⟩
      cases h
  | none =>
      simp only [reporting_answer]
      split_ifs with hclass
      · simp [hclass, reporting_report_iff]
      · exact iff_of_true (List.forall_mem_nil _) ⟨fun _ _ h => (by cases h), fun _ h => absurd h hclass⟩

theorem reporting_msgType {q : Request} (hstored : StoredReports Q (Effect.msgType sd q b).bts) :
    (∀ s ∈ (Effect.msgType sd q b).sent, Reporting Q s) ↔
      (q.msgType = nmMtActivateSw → ActivationReports Q q b) := by
  by_cases hactivate : q.msgType = nmMtActivateSw
  · rw [Effect.msgType_of_activateSw hactivate, reporting_activateSw]
    simp only [hactivate, forall_const]
  refine iff_of_true ?_ fun h => absurd h hactivate
  by_cases hopstart : q.msgType = nmMtOpstart
  · rw [Effect.msgType_of_opstart hopstart, Effect.opstart] at hstored ⊢
    cases ho : q.obj with
    | some o =>
        rw [ho] at hstored
        exact reporting_answer.mpr (reporting_opstartReplies hstored o)
    | none => exact List.forall_mem_nil _
  · rw [Effect.msgType, if_neg hactivate, if_neg hopstart]
    split_ifs
    · simp [reporting_answer]
    · unfold Effect.setBtsAttr
      split_ifs <;> simp
    · simp [reporting_answer]
    · simp [reporting_answer]
    · rw [Effect.chgAdmState]
      cases q.obj with
      | some o => cases o <;> simp [reporting_answer]
      | none => exact List.forall_mem_nil _
    · simp [reporting_answer]

theorem reporting_oml {env : Env} {q : Request}
    (hstored : StoredReports Q (Effect.oml env sd q b).bts) :
    (∀ s ∈ (Effect.oml env sd q b).sent, Reporting Q s) ↔
      (q.msgType = nmMtActivateSw → ActivationReports Q q b) := by
  rw [Effect.oml, bts_thenManuf] at hstored
  rw [← reporting_msgType hstored, Effect.oml, Effect.thenManuf]
  split_ifs with hmanuf
  · apply iff_of_true (reporting_manufReplies hstored _)
    rw [hmanuf.2.1]
    exact List.forall_mem_nil _
  · rfl

theorem reporting_softbts {env : Env} {cmd : UInt8} :
    (∀ s ∈ (Effect.softbts env sd cmd b).sent, Reporting Q s) ↔
      (cmd = msgIdGet → killed env (env.send 0) = none → b.btsIdResp = false →
        ∀ o : Obj, Q b o.inst nmOpstateDisabled nmStateLocked) := by
  have hpong : Reporting Q ⟨sd, pong, b⟩ := reporting_of_fomOf_eq_none rfl
  have hresp : Reporting Q ⟨sd, idResp, b⟩ := reporting_of_fomOf_eq_none rfl
  unfold Effect.softbts
  split_ifs with hping hget hfirst
  · refine iff_of_true ?_ fun h => absurd (hping.symm.trans h) (by decide)
    simp [hpong]
  · rw [← reporting_initialReplies sd]
    simp only [identify, List.forall_mem_cons, List.forall_mem_append, List.forall_mem_map, hget,
      hfirst, hresp, reporting_swActReqFrame]
    simp
  · refine iff_of_true ?_ fun _ hk hr => absurd ⟨hk, hr⟩ hfirst
    simp [hresp]
  · refine iff_of_true ?_ fun h => absurd h hget
    simp

/-! ### The reports of a step -/

/-- The reports of constants that a message makes the BTS send have the property. -/
def ConstantReports (Q : Bts → ObjInst → UInt8 → UInt8 → Prop) (b : Bts) (i : Message) : Prop :=
  (i.proto = protoSoftbts → i.cmd = msgIdGet → killed i.env (i.env.send 0) = none →
    b.btsIdResp = false → ∀ o : Obj, Q b o.inst nmOpstateDisabled nmStateLocked) ∧
  (i.proto = protoOml → i.request.msgType = nmMtActivateSw → ActivationReports Q i.request b)

/-- **Reports.** Where the reports of the state held after a message have the property, all reports
sent in its handling have it if and only if the reports of constants do. -/
theorem reporting_effect {i : Message} (hstored : StoredReports Q (i.effect b).bts) :
    (∀ s ∈ (i.effect b).sent, Reporting Q s) ↔ ConstantReports Q b i := by
  by_cases hsoftbts : i.proto = protoSoftbts
  · have hne : i.proto ≠ protoOml := by rw [hsoftbts]; decide
    rw [Message.effect_softbts hsoftbts, reporting_softbts]
    exact ⟨fun h => ⟨fun _ => h, (absurd · hne)⟩, fun h => h.1 hsoftbts⟩
  by_cases homl : i.proto = protoOml
  · rw [Message.effect_oml homl] at hstored ⊢
    rw [reporting_oml hstored]
    exact ⟨fun h => ⟨(absurd · hsoftbts), fun _ => h⟩, fun h => h.2 homl⟩
  · obtain ⟨stop, he⟩ := Message.effect_other hsoftbts homl b
    rw [he]
    exact iff_of_true (List.forall_mem_nil _) ⟨(absurd · hsoftbts), (absurd · homl)⟩

end SoftBts
