import SoftBts.Run

/-! Which management variables a formatted O&M message changes. Of all messages, only SET BTS
ATTRIBUTES writes a variable without a look at the object class, and OPSTART and CHANGE
ADMINISTRATIVE STATE index the channel arrays with the timeslot octet as it came. -/

namespace SoftBts

open Octets

/-- The management variables of `softbts.c`. -/
inductive Variable where
  | state (v : StateVar)
  | swSiteManager
  | swBts
  | btsIdResp
  deriving DecidableEq

/-- The object a variable belongs to. -/
def Variable.owner : Variable → Option Obj
  | .state v => some v.obj
  | .swSiteManager => some .siteManager
  | .swBts => some .bts
  | .btsIdResp => none

/-- The value of a variable. -/
def Bts.value (b : Bts) : Variable → Int
  | .state v => (b.stateVar v).toNat
  | .swSiteManager => b.swSiteManager
  | .swBts => b.swBts
  | .btsIdResp => if b.btsIdResp then 1 else 0

/-- At most the variables of the object differ; none does when there is no object. -/
def FrameOf (o : Option Obj) (b b' : Bts) : Prop :=
  ∀ x : Variable, (∀ p, o = some p → x.owner ≠ some p) → b'.value x = b.value x

theorem FrameOf.refl (o : Option Obj) (b : Bts) : FrameOf o b b := fun _ _ => rfl

theorem FrameOf.setOpstate (b : Bts) (v : UInt8) (o : Obj) :
    FrameOf (some o) b (b.setOpstate v o) := by
  intro x hx
  have howner := hx o rfl
  cases x with
  | state x =>
      have hne : x ≠ .opstate o := by
        rintro rfl
        exact howner rfl
      simp only [Bts.value, Bts.stateVar_setOpstate, if_neg hne]
  | _ => cases o <;> rfl

theorem FrameOf.setAdminState (b : Bts) (v : UInt8) (o : Obj) :
    FrameOf (some o) b (b.setAdminState v o) := by
  intro x hx
  have howner := hx o rfl
  cases x with
  | state x =>
      have hne : x ≠ .adminState o := by
        rintro rfl
        exact howner rfl
      simp only [Bts.value, Bts.stateVar_setAdminState, if_neg hne]
  | _ => cases o <;> rfl

theorem FrameOf.trans {o : Option Obj} {b b' b'' : Bts} (h : FrameOf o b b')
    (h' : FrameOf o b' b'') : FrameOf o b b'' :=
  fun x hx => (h' x hx).trans (h x hx)

theorem FrameOf.start (b : Bts) (o : Obj) : FrameOf (some o) b (b.start o) := by
  cases o with
  | siteManager => exact (FrameOf.setOpstate b _ _).trans (FrameOf.setAdminState _ _ _)
  | _ => exact FrameOf.setOpstate b _ _

theorem FrameOf.activate (b : Bts) (o : Obj) : FrameOf (some o) b (b.activate o) := by
  intro x hx
  have howner := hx o rfl
  cases x with
  | state x => simp only [Bts.value, Bts.stateVar_activate]
  | swSiteManager =>
      cases o with
      | siteManager => exact absurd rfl howner
      | _ => rfl
  | _ => cases o <;> rfl

theorem named_siteManager (tsNr : UInt8) :
    Obj.named nmOcSiteManager tsNr = some .siteManager := rfl

theorem named_eq_bts_iff {objClass tsNr : UInt8} :
    Obj.named objClass tsNr = some .bts ↔ objClass = nmOcBts := by
  rcases class_cases objClass with h | h | h | h | h | h
  all_goals simp_all [Obj.named]

theorem FrameOf.acknowledgeActReq (b : Bts) (objClass tsNr : UInt8) :
    FrameOf (Obj.named objClass tsNr) b (b.acknowledgeActReq objClass) := by
  intro x hx
  unfold Bts.acknowledgeActReq
  split_ifs with h0 h1
  · subst h0
    have howner := hx .siteManager (named_siteManager tsNr)
    cases x with
    | swSiteManager => exact absurd rfl howner
    | _ => rfl
  · have howner := hx .bts (named_eq_bts_iff.mpr h1)
    cases x with
    | swBts => exact absurd rfl howner
    | _ => rfl
  · rfl

/-- The assignment to `sw_bts` stays in the frame of an object only if the object is the BTS, or
if it changes nothing. -/
theorem frameOf_swBts_iff {o : Option Obj} {b : Bts} {v : Int} :
    FrameOf o b { b with swBts := v } ↔ o = some .bts ∨ b.swBts = v := by
  constructor
  · intro h
    by_contra hne
    rw [not_or] at hne
    refine hne.2 (h .swBts ?_).symm
    rintro p rfl hp
    exact hne.1 hp.symm
  · rintro (rfl | hv) x hx
    · cases x with
      | swBts => exact absurd rfl (hx .bts rfl)
      | _ => rfl
    · rw [← hv]

/-! ### The frame of a message -/

/-- The handling of a request indexes no array out of range and changes at most the variables of
the object the request names. -/
def KeepsFrame (q : Request) (b : Bts) (e : Effect) : Prop :=
  e.stop ≠ some .fault ∧ FrameOf q.obj b e.bts

variable {q : Request} {b : Bts} (sd : Link)

/-- A channel number outside the arrays. -/
def OutOfRange (q : Request) : Prop := q.objClass = nmOcChannel ∧ 8 ≤ q.tsNr.toNat

theorem obj_ne_none_of_outOfRange {o : Obj} (ho : q.obj = some o) : ¬ OutOfRange q := by
  rintro ⟨hclass, hts⟩
  rw [Request.obj, hclass] at ho
  simp [Obj.named, Nat.not_lt.mpr hts] at ho

theorem objClass_eq_channel_iff (ho : q.obj = none) : q.objClass = nmOcChannel ↔ OutOfRange q := by
  constructor
  · intro hclass
    refine ⟨hclass, ?_⟩
    by_contra hts
    rw [Request.obj, hclass, Obj.named_channel (by omega)] at ho
    cases ho
  · exact And.left

theorem keepsFrame_answer (b' : Bts) (replies : List (List UInt8)) (h : FrameOf q.obj b b') :
    KeepsFrame q b (.answer sd b' replies) :=
  ⟨(Option.some_ne_none _).symm, h⟩

theorem keepsFrame_unnamed (ho : q.obj = none) :
    KeepsFrame q b (.unnamed q b) ↔ ¬ OutOfRange q := by
  rw [← objClass_eq_channel_iff ho, KeepsFrame, Effect.unnamed]
  split_ifs with hclass
  · simp [hclass]
  · simp only [hclass, not_false_eq_true, iff_true]
    exact ⟨(Option.some_ne_none _).symm, FrameOf.refl _ _⟩

theorem keepsFrame_activateSw : KeepsFrame q b (.activateSw sd q b) := by
  rw [Effect.activateSw]
  cases ho : q.obj with
  | some o => exact keepsFrame_answer sd _ _ (ho ▸ FrameOf.activate b o)
  | none => exact keepsFrame_answer sd _ _ (FrameOf.refl _ _)

theorem keepsFrame_opstart : KeepsFrame q b (.opstart sd q b) ↔ ¬ OutOfRange q := by
  rw [Effect.opstart]
  cases ho : q.obj with
  | some o =>
      exact iff_of_true (keepsFrame_answer sd _ _ (ho ▸ FrameOf.start b o))
        (obj_ne_none_of_outOfRange ho)
  | none => exact keepsFrame_unnamed ho

theorem keepsFrame_chgAdmState : KeepsFrame q b (.chgAdmState sd q b) ↔ ¬ OutOfRange q := by
  rw [Effect.chgAdmState]
  cases ho : q.obj with
  | some o =>
      refine iff_of_true ?_ (obj_ne_none_of_outOfRange ho)
      cases o with
      | siteManager => exact keepsFrame_answer sd _ _ (FrameOf.refl _ _)
      | _ => exact keepsFrame_answer sd _ _ (ho ▸ FrameOf.setAdminState b _ _)
  | none => exact keepsFrame_unnamed ho

theorem keepsFrame_setBtsAttr (hattrs : q.attrsEnd = true) :
    KeepsFrame q b (.setBtsAttr sd q b) ↔
      q.objClass = nmOcBts ∨ b.swBts = nmMtSetBtsAttrAck.toNat := by
  rw [Effect.setBtsAttr, if_pos hattrs, KeepsFrame, frameOf_swBts_iff, Request.obj,
    named_eq_bts_iff]
  exact and_iff_right (Option.some_ne_none _).symm

/-- The messages that leave the frame of the object they name. -/
def LeavesFrame (q : Request) (b : Bts) : Prop :=
  (q.msgType = nmMtSetBtsAttr ∧ q.objClass ≠ nmOcBts ∧ b.swBts ≠ nmMtSetBtsAttrAck.toNat) ∨
    ((q.msgType = nmMtOpstart ∨ q.msgType = nmMtChgAdmState) ∧ OutOfRange q)

theorem keepsFrame_msgType (hhang : (Effect.msgType sd q b).stop ≠ some .hang) :
    KeepsFrame q b (.msgType sd q b) ↔ ¬ LeavesFrame q b := by
  rw [Effect.msgType] at hhang ⊢
  split_ifs at hhang ⊢ with hack hactivate hopstart hattr hchan hradio hadm
  · apply iff_of_true (keepsFrame_answer sd _ _ (FrameOf.acknowledgeActReq b _ _))
    simp [LeavesFrame, hack]
  · apply iff_of_true (keepsFrame_activateSw sd)
    simp [LeavesFrame, hactivate]
  · rw [keepsFrame_opstart]
    simp [LeavesFrame, hopstart]
  · have hattrs : q.attrsEnd = true := by
      by_contra hne
      rw [Effect.setBtsAttr, if_neg hne] at hhang
      exact hhang rfl
    rw [keepsFrame_setBtsAttr sd hattrs]
    simp [LeavesFrame, hattr]
    tauto
  · apply iff_of_true (keepsFrame_answer sd _ _ (FrameOf.refl _ _))
    simp [LeavesFrame, hchan]
  · apply iff_of_true (keepsFrame_answer sd _ _ (FrameOf.refl _ _))
    simp [LeavesFrame, hradio]
  · rw [keepsFrame_chgAdmState]
    simp [LeavesFrame, hadm]
  · apply iff_of_true (keepsFrame_answer sd _ _ (FrameOf.refl _ _))
    simp only [LeavesFrame, hattr, hopstart, hadm, false_and, or_self, not_false_eq_true]

/-- **Frame law.** The handling of a formatted O&M message that comes to an end changes at most the
variables of the object the message names, and indexes no array out of range, if and only if the
message is no SET BTS ATTRIBUTES for another class than BTS (where `sw_bts` has another value than
it is given) and no OPSTART or CHANGE ADMINISTRATIVE STATE for a channel number from 8 on. -/
theorem omlMsg_keepsFrame_iff (env : Env) (m : Mem) (b : Bts) (hmdisc : m omMdisc = abisOmMdiscFom)
    (hreturns : (omlMsg env sd (.start m b)).stop ≠ some .hang) :
    ((omlMsg env sd (.start m b)).stop ≠ some .fault ∧
        FrameOf (Obj.named (m fomObjClass) (m fomTsNr)) b (omlMsg env sd (.start m b)).handling.bts) ↔
      ¬ (m fomMsgType = nmMtSetBtsAttr ∧ m fomObjClass ≠ nmOcBts ∧
          b.swBts ≠ nmMtSetBtsAttrAck.toNat) ∧
        ¬ ((m fomMsgType = nmMtOpstart ∨ m fomMsgType = nmMtChgAdmState) ∧
          m fomObjClass = nmOcChannel ∧ 8 ≤ (m fomTsNr).toNat) := by
  have heffect := omlMsg_effect env sd m b
  rw [oml_effect_of_fom sd hmdisc] at heffect
  have hhang : (Effect.msgType sd ((Handling.start m b).request env) b).stop ≠ some .hang := by
    rw [← heffect]
    exact hreturns
  have hframe := keepsFrame_msgType sd hhang
  rw [← heffect, LeavesFrame, not_or] at hframe
  exact hframe

/-- OPSTART of channel 7 in the state after start-up stays in the frame of channel 7. -/
theorem opstart_channel_seven_keepsFrame :
    let m := Mem.blank.store 0 (bscRequest nmMtOpstart (Obj.channel 7).inst [])
    (omlMsg .plain .oml (.start m startup)).stop ≠ some .fault ∧
      FrameOf (Obj.named (m fomObjClass) (m fomTsNr)) startup
        (omlMsg .plain .oml (.start m startup)).handling.bts :=
  (omlMsg_keepsFrame_iff .oml .plain _ startup (by decide) (by decide)).mpr (by decide)

/-- SET BTS ATTRIBUTES for the RADIO CARRIER writes `sw_bts`, and OPSTART of channel 8 writes past
the end of `channel_opstate`. -/
theorem setBtsAttr_radioCarrier_leavesFrame :
    let m := Mem.blank.store 0 (bscRequest nmMtSetBtsAttr Obj.radioCarrier.inst [])
    let m' := Mem.blank.store 0 (bscRequest nmMtOpstart ⟨nmOcChannel, 0x00, 0x00, 0x08⟩ [])
    (m omMdisc = abisOmMdiscFom ∧ (omlMsg .plain .oml (.start m startup)).stop = none ∧
        ¬ FrameOf (Obj.named (m fomObjClass) (m fomTsNr)) startup
          (omlMsg .plain .oml (.start m startup)).handling.bts) ∧
      m' omMdisc = abisOmMdiscFom ∧
        (omlMsg .plain .oml (.start m' startup)).stop = some .fault := by
  refine ⟨⟨by decide, by decide, fun hframe => ?_⟩, by decide, by decide⟩
  have hkept := hframe .swBts fun p hp => by
    obtain rfl : Obj.radioCarrier = p := Option.some.inj hp
    decide
  exact absurd hkept (by decide)

end SoftBts
