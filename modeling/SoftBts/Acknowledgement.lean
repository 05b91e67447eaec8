import SoftBts.Run

/-! Which requests are acknowledged, and as what. The builder for the acknowledgement of SET BTS
ATTRIBUTES also answers the other two SET requests, and CHANGE ADMINISTRATIVE STATE has no branch for
the SITE MANAGER. -/

namespace SoftBts

open Octets

/-- The acknowledgements of `abis_nm_msgtype` for the requests of a BSC. -/
def ackTypes : List UInt8 :=
  [nmMtActivateSwAck, nmMtOpstartAck, nmMtChgAdmStateAck, nmMtSetBtsAttrAck, nmMtSetRadioAttrAck,
    nmMtSetChanAttrAck]

/-- The acknowledgements among the octet strings sent, each with its socket. -/
def acks (sent : List Sent) : List (Link × UInt8 × ObjInst) :=
  sent.filterMap fun s => (fomIn ackTypes s.octets).map (s.sd, ·)

/-- A request of one of the six types, about an object it can be about. -/
def IsRequest (msgType : UInt8) (o : Obj) : Prop :=
  msgType = nmMtActivateSw ∨ msgType = nmMtOpstart ∨ msgType = nmMtChgAdmState ∨
    (msgType = nmMtSetBtsAttr ∧ o = .bts) ∨ (msgType = nmMtSetRadioAttr ∧ o = .radioCarrier) ∨
    (msgType = nmMtSetChanAttr ∧ ∃ ts, o = .channel ts)

/-- The class and instance in a message. -/
def instOf (m : Mem) : ObjInst := ⟨m fomObjClass, m fomBtsNr, m fomTrxNr, m fomTsNr⟩

/-! ### The acknowledgements of a reply -/

variable (sd : Link) (b : Bts)

theorem acks_answer (b' : Bts) (replies : List (List UInt8)) :
    acks (Effect.answer sd b' replies).sent = (replies.filterMap (fomIn ackTypes)).map (sd, ·) := by
  rw [acks, Effect.answer, List.filterMap_map, List.map_filterMap]
  rfl

/-- Software activation is acknowledged once. -/
theorem acks_activateSwReplies (o : Obj) :
    (activateSwReplies o).filterMap (fomIn ackTypes) = [(nmMtActivateSwAck, o.inst)] := by
  cases o with
  | radioCarrier =>
      simp [activateSwReplies, filterMap_perChannel, ackTypes]
  | channel ts =>
      rw [activateSwReplies]
      split_ifs
      · simp [filterMap_perChannel, ackTypes]
      · simp [ackTypes]
  | _ => simp [activateSwReplies, ackTypes]

theorem acks_batchReplies : (batchReplies b).filterMap (fomIn ackTypes) = [] := by
  simp [batchReplies, stateReport, filterMap_perChannel, ackTypes]

/-- The start of an object is acknowledged once. -/
theorem acks_opstartReplies (o : Obj) :
    (opstartReplies b o).filterMap (fomIn ackTypes) = [(nmMtOpstartAck, o.inst)] := by
  cases o with
  | channel ts =>
      rw [opstartReplies]
      split_ifs
      · rw [List.filterMap_cons, acks_batchReplies]
        rfl
      · simp [ackTypes]
  | _ => simp [opstartReplies, ackTypes]

/-! ### The acknowledgement of a request -/

/-- The requests that are acknowledged as what they are. -/
def Acknowledged (msgType : UInt8) (o : Obj) : Prop :=
  msgType ≠ nmMtSetRadioAttr ∧ msgType ≠ nmMtSetChanAttr ∧
    ¬ (msgType = nmMtChgAdmState ∧ o = .siteManager)

variable {b}

theorem acks_msgType_iff {q : Request} {o : Obj} (ho : q.obj = some o)
    (hreq : IsRequest q.msgType o) (hreturns : (Effect.msgType sd q b).stop = none) :
    acks (Effect.msgType sd q b).sent = [(sd, q.msgType + 1, o.inst)] ↔
      Acknowledged q.msgType o := by
  rcases hreq with ht | ht | ht | ⟨ht, rfl⟩ | ⟨ht, rfl⟩ | ⟨ht, ts, rfl⟩
  · rw [Effect.msgType_of_activateSw ht, Effect.activateSw_of_obj ho, acks_answer,
      acks_activateSwReplies, ht]
    simp [Acknowledged]
  · rw [Effect.msgType_of_opstart ht, Effect.opstart_of_obj ho, acks_answer, acks_opstartReplies, ht]
    simp [Acknowledged]
  · rw [Effect.msgType_of_chgAdmState ht]
    by_cases hsite : o = .siteManager
    · subst hsite
      rw [Effect.chgAdmState_of_siteManager ho, acks_answer]
      simp [Acknowledged, ht]
    · rw [Effect.chgAdmState_of_obj ho hsite, acks_answer, ht]
      simp [Acknowledged, hsite, ackTypes]
  · rw [Effect.msgType_of_setBtsAttr ht] at hreturns ⊢
    have hattrs : q.attrsEnd = true := by
      by_contra hne
      rw [Effect.setBtsAttr, if_neg hne] at hreturns
      cases hreturns
    rw [Effect.setBtsAttr, if_pos hattrs, ht]
    simp [Acknowledged, acks, ackTypes]
  · rw [Effect.msgType_of_setRadioAttr ht, acks_answer, ht]
    simp [Acknowledged, ackTypes]
  · rw [Effect.msgType_of_setChanAttr ht, acks_answer, ht]
    simp [Acknowledged, ackTypes]

/-- **Request and acknowledgement.** A formatted request that names an object of this BTS, and whose
handling returns, is answered by exactly one acknowledgement, sent on the socket the request came
from, of the type that acknowledges the request's and with the request's class and instance, if and
only if it is no SET RADIO CARRIER ATTRIBUTES, no SET CHANNEL ATTRIBUTES and no CHANGE ADMINISTRATIVE
STATE of the SITE MANAGER. -/
theorem omlMsg_acknowledges_iff (env : Env) (m : Mem) (b : Bts) (o : Obj)
    (hmdisc : m omMdisc = abisOmMdiscFom) (hinst : instOf m = o.inst)
    (hreq : IsRequest (m fomMsgType) o) (hreturns : (omlMsg env sd (.start m b)).stop = none) :
    acks (omlMsg env sd (.start m b)).handling.sent = [(sd, m fomMsgType + 1, instOf m)] ↔
      m fomMsgType ≠ nmMtSetRadioAttr ∧ m fomMsgType ≠ nmMtSetChanAttr ∧
        ¬ (m fomMsgType = nmMtChgAdmState ∧ o = .siteManager) := by
  have heffect := omlMsg_effect env sd m b
  rw [oml_effect_of_fom sd hmdisc] at heffect
  have hobj : ((Handling.start m b).request env).obj = some o := by
    rw [← Obj.named_inst o, ← hinst]
    rfl
  rw [hinst]
  have hacks := acks_msgType_iff sd (b := b) hobj hreq (by rw [← heffect]; exact hreturns)
  rw [← heffect] at hacks
  exact hacks

/-- OPSTART of the BTS is acknowledged. -/
theorem opstart_bts_acknowledged :
    let m := Mem.blank.store 0 (bscRequest nmMtOpstart Obj.bts.inst [])
    acks (omlMsg .plain .oml (.start m startup)).handling.sent =
      [(.oml, m fomMsgType + 1, instOf m)] :=
  (omlMsg_acknowledges_iff .oml .plain _ startup .bts (by decide) (by decide)
    (Or.inr (Or.inl (by decide))) (by decide)).mpr (by decide)

/-- SET RADIO CARRIER ATTRIBUTES is not acknowledged as such. -/
theorem setRadioAttr_not_acknowledged :
    let m := Mem.blank.store 0 (bscRequest nmMtSetRadioAttr Obj.radioCarrier.inst [])
    m omMdisc = abisOmMdiscFom ∧ instOf m = Obj.radioCarrier.inst ∧
      IsRequest (m fomMsgType) .radioCarrier ∧
      (omlMsg .plain .oml (.start m startup)).stop = none ∧
      acks (omlMsg .plain .oml (.start m startup)).handling.sent ≠
        [(.oml, m fomMsgType + 1, instOf m)] :=
  ⟨by decide, by decide, Or.inr (Or.inr (Or.inr (Or.inr (Or.inl ⟨by decide, rfl⟩)))), by decide,
    by decide⟩

/-- Two kinds of requests are answered by the wrong acknowledgement, the third by none. -/
example :
    let radio := Mem.blank.store 0 (bscRequest nmMtSetRadioAttr Obj.radioCarrier.inst [])
    let chan := Mem.blank.store 0 (bscRequest nmMtSetChanAttr (Obj.channel 3).inst [])
    let site := Mem.blank.store 0
      (bscRequest nmMtChgAdmState Obj.siteManager.inst [nmAttAdmState, nmStateUnlocked])
    acks (omlMsg .plain .oml (.start radio startup)).handling.sent =
        [(.oml, nmMtSetBtsAttrAck, Obj.radioCarrier.inst)] ∧
      acks (omlMsg .plain .oml (.start chan startup)).handling.sent =
        [(.oml, nmMtSetBtsAttrAck, (Obj.channel 3).inst)] ∧
      acks (omlMsg .plain .oml (.start site startup)).handling.sent = [] := by
  decide

end SoftBts
