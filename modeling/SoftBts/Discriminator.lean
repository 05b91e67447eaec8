import SoftBts.Acknowledgement
import SoftBts.AttrBounds

/-! What the discriminator of an O&M message decides. The switch on the message type does not look
at it, and what stands where a formatted header would be can be anything in a message of another
kind; the switch on the discriminator does not look at the message type of a manufacturer-defined
message. -/

namespace SoftBts

open Octets

/-! ### What belongs to formatted messages -/

/-- What only a formatted O&M message is answered with. -/
def fomAnswers : List UInt8 := ackTypes ++ [nmMtSwActReq, nmMtSwActivatedRep]

/-- The classes of the objects of this BTS. -/
def objClasses : List UInt8 :=
  [nmOcSiteManager, nmOcBts, nmOcRadioCarrier, nmOcChannel, nmOcBasebTransc]

/-- The octets where a formatted header would be, if they are taken for one: what is acknowledged or
sent, and what changes the state. -/
def Takes (msgType objClass : UInt8) (attrsEnd : Prop) (b : Bts) : Prop :=
  (msgType = nmMtSwActReqAck ∧
    ((objClass = nmOcSiteManager ∧ b.swSiteManager ≠ nmMtSwActReqAck.toNat) ∨
      (objClass = nmOcBts ∧ b.swBts ≠ nmMtSwActReqAck.toNat))) ∨
  (msgType = nmMtActivateSw ∧ objClass ∈ objClasses) ∨
  (msgType = nmMtOpstart ∧ objClass ∈ objClasses) ∨
  (msgType = nmMtChgAdmState ∧ objClass ∈ objClasses ∧ objClass ≠ nmOcSiteManager) ∨
  (msgType = nmMtSetBtsAttr ∧ attrsEnd) ∨
  msgType = nmMtSetRadioAttr ∨ msgType = nmMtSetChanAttr

theorem Takes.imp {msgType objClass : UInt8} {p q : Prop} {b : Bts} (hpq : p → q)
    (h : Takes msgType objClass p b) : Takes msgType objClass q b :=
  h.imp_right (Or.imp_right (Or.imp_right (Or.imp_right (Or.imp_left (And.imp_right hpq)))))

namespace Effect

/-- The management state stays as it is, nothing is sent that belongs to formatted messages, and
nothing is stored outside the arrays. -/
structure Quiet (e : Effect) (b : Bts) : Prop where
  bts : e.bts = b
  sent : ∀ s ∈ e.sent, fomIn fomAnswers s.octets = none
  stop : e.stop ≠ some .fault

variable {sd : Link} {q : Request} {b : Bts}

theorem quiet_nothing {stop : Option Stop} (hstop : stop ≠ some .fault) :
    Quiet ⟨b, [], stop⟩ b :=
  ⟨rfl, List.forall_mem_nil _, hstop⟩

theorem not_quiet_answer {b' : Bts} {frame : List UInt8} {frames : List (List UInt8)}
    (hframe : fomIn fomAnswers frame ≠ none) : ¬ (answer sd b' (frame :: frames)).Quiet b :=
  fun h => hframe (h.sent _ List.mem_cons_self)

theorem not_quiet_fomFrame {b' : Bts} {msgType : UInt8} {o : ObjInst} {frames : List (List UInt8)}
    (htype : msgType ∈ fomAnswers) :
    ¬ (answer sd b' (fomFrame msgType o :: frames)).Quiet b := by
  apply not_quiet_answer
  rw [fomIn_fomFrame, if_pos htype]
  exact Option.some_ne_none _

theorem activateSwReplies_cons (o : Obj) :
    ∃ frames, activateSwReplies o = fomFrame nmMtActivateSwAck o.inst :: frames := by
  cases o <;> exact ⟨_, rfl⟩

theorem opstartReplies_cons (o : Obj) :
    ∃ frames, opstartReplies b o = fomFrame nmMtOpstartAck o.inst :: frames := by
  cases o <;> exact ⟨_, rfl⟩

/-- A class and a timeslot name an object, or a channel outside the arrays, or nothing here. -/
theorem named_cases (objClass tsNr : UInt8) :
    (∃ o, Obj.named objClass tsNr = some o ∧ o.inst.objClass = objClass) ∨
      (Obj.named objClass tsNr = none ∧ (objClass = nmOcChannel ∨ objClass ∉ objClasses)) := by
  rcases class_cases objClass with rfl | rfl | rfl | rfl | rfl | hother
  · exact Or.inl ⟨.siteManager, rfl, rfl⟩
  · exact Or.inl ⟨.bts, rfl, rfl⟩
  · exact Or.inl ⟨.radioCarrier, rfl, rfl⟩
  · by_cases hts : tsNr.toNat < 8
    · exact Or.inl ⟨_, Obj.named_channel hts, rfl⟩
    · exact Or.inr ⟨by simp [Obj.named, hts], Or.inl rfl⟩
  · exact Or.inl ⟨.basebTransc, rfl, rfl⟩
  · obtain ⟨h0, h1, h2, h3, h4⟩ := hother
    refine Or.inr ⟨?_, Or.inr ?_⟩
    · rw [Obj.named, if_neg h0, if_neg h1, if_neg h2, if_neg h3, if_neg h4]
    · simp [objClasses] at h0 h1 h2 h3 h4 ⊢
      exact ⟨h0, h1, h2, h3, h4⟩

theorem objClass_mem (o : Obj) : o.inst.objClass ∈ objClasses := by
  cases o <;> simp [Obj.inst, objClasses]

theorem quiet_activateSw_iff :
    (activateSw sd q b).Quiet b ↔ q.objClass ∉ objClasses := by
  rcases named_cases q.objClass q.tsNr with ⟨o, ho, hclass⟩ | ⟨ho, hclass⟩
  · rw [activateSw_of_obj ho]
    obtain ⟨frames, hframes⟩ := activateSwReplies_cons o
    rw [hframes]
    exact iff_of_false (not_quiet_fomFrame (by decide)) (fun h => h (hclass ▸ objClass_mem o))
  · have hobj : q.obj = none := ho
    rw [activateSw, hobj]
    rcases hclass with hclass | hclass
    · simp only [hclass, if_true]
      exact iff_of_false (not_quiet_fomFrame (by decide)) (fun h => h (by decide))
    · have hchannel : q.objClass ≠ nmOcChannel := fun h => hclass (h ▸ by decide)
      simp only [if_neg hchannel]
      exact iff_of_true (quiet_nothing (Option.some_ne_none _).symm) hclass

theorem quiet_unnamed_iff (hclass : q.objClass = nmOcChannel ∨ q.objClass ∉ objClasses) :
    (unnamed q b).Quiet b ↔ q.objClass ∉ objClasses := by
  rw [unnamed]
  rcases hclass with hclass | hclass
  · rw [if_pos hclass, hclass]
    exact iff_of_false (fun h => h.stop rfl) (fun h => h (by decide))
  · have hchannel : q.objClass ≠ nmOcChannel := fun h => hclass (h ▸ by decide)
    rw [if_neg hchannel]
    exact iff_of_true (quiet_nothing (Option.some_ne_none _).symm) hclass

theorem quiet_opstart_iff : (opstart sd q b).Quiet b ↔ q.objClass ∉ objClasses := by
  rcases named_cases q.objClass q.tsNr with ⟨o, ho, hclass⟩ | ⟨ho, hclass⟩
  · rw [opstart_of_obj ho]
    obtain ⟨frames, hframes⟩ := opstartReplies_cons (b := b.start o) o
    rw [hframes]
    exact iff_of_false (not_quiet_fomFrame (by decide)) (fun h => h (hclass ▸ objClass_mem o))
  · have hobj : q.obj = none := ho
    rw [opstart, hobj]
    exact quiet_unnamed_iff hclass

theorem quiet_chgAdmState_iff :
    (chgAdmState sd q b).Quiet b ↔
      ¬ (q.objClass ∈ objClasses ∧ q.objClass ≠ nmOcSiteManager) := by
  rcases named_cases q.objClass q.tsNr with ⟨o, ho, hclass⟩ | ⟨ho, hclass⟩
  · by_cases hsite : o = .siteManager
    · subst hsite
      rw [chgAdmState_of_siteManager ho]
      exact iff_of_true (quiet_nothing (Option.some_ne_none _).symm) fun h => h.2 hclass.symm
    · rw [chgAdmState_of_obj ho hsite]
      refine iff_of_false (not_quiet_fomFrame (by decide)) (fun h => h ⟨hclass ▸ objClass_mem o, ?_⟩)
      rw [← hclass]
      cases o with
      | siteManager => exact absurd rfl hsite
      | _ => simp [Obj.inst]
  · have hobj : q.obj = none := ho
    have hne : q.objClass ≠ nmOcSiteManager := by
      intro h
      rw [h] at ho
      cases ho
    rw [chgAdmState, hobj]
    refine (quiet_unnamed_iff hclass).trans (not_congr ?_)
    exact ⟨fun h => ⟨h, hne⟩, And.left⟩

theorem setSwSiteManager_eq_iff {v : Int} : { b with swSiteManager := v } = b ↔ b.swSiteManager = v := by
  constructor
  · intro h
    exact (congrArg Bts.swSiteManager h).symm
  · rintro rfl
    rfl

theorem setSwBts_eq_iff {v : Int} : { b with swBts := v } = b ↔ b.swBts = v := by
  constructor
  · intro h
    exact (congrArg Bts.swBts h).symm
  · rintro rfl
    rfl

theorem quiet_acknowledgeActReq_iff {objClass : UInt8} :
    (answer sd (b.acknowledgeActReq objClass) []).Quiet b ↔
      ¬ ((objClass = nmOcSiteManager ∧ b.swSiteManager ≠ nmMtSwActReqAck.toNat) ∨
        (objClass = nmOcBts ∧ b.swBts ≠ nmMtSwActReqAck.toNat)) := by
  have hquiet : (answer sd (b.acknowledgeActReq objClass) []).Quiet b ↔
      b.acknowledgeActReq objClass = b :=
    ⟨Quiet.bts, fun h => ⟨h, List.forall_mem_nil _, (Option.some_ne_none _).symm⟩⟩
  rw [hquiet, Bts.acknowledgeActReq]
  split_ifs with h0 h1
  · rw [setSwSiteManager_eq_iff, h0]
    simp
  · rw [setSwBts_eq_iff, h1]
    simp
  · refine iff_of_true rfl ?_
    rintro (⟨h, -⟩ | ⟨h, -⟩)
    · exact h0 h
    · exact h1 h

theorem quiet_setBtsAttr_iff : (setBtsAttr sd q b).Quiet b ↔ ¬ q.attrsEnd = true := by
  rw [setBtsAttr]
  split_ifs with hends
  · refine iff_of_false (fun h => ?_) (not_not.mpr hends)
    have hack := h.sent _ List.mem_cons_self
    rw [fomIn_fomFrame, if_pos (by decide)] at hack
    cases hack
  · exact iff_of_true (quiet_nothing fun h => Stop.noConfusion (Option.some.inj h)) hends

/-- **The switch on the message type** does nothing exactly when it takes nothing. -/
theorem quiet_msgType_iff :
    (msgType sd q b).Quiet b ↔ ¬ Takes q.msgType q.objClass (q.attrsEnd = true) b := by
  rw [msgType, Takes]
  split_ifs with h1 h2 h3 h4 h5 h6 h7
  · rw [quiet_acknowledgeActReq_iff, h1]
    simp
  · rw [quiet_activateSw_iff, h2]
    simp
  · rw [quiet_opstart_iff, h3]
    simp
  · rw [quiet_setBtsAttr_iff, h4]
    simp
  · rw [h5]
    exact iff_of_false (not_quiet_fomFrame (by decide)) (by simp)
  · rw [h6]
    exact iff_of_false (not_quiet_fomFrame (by decide)) (by simp)
  · rw [quiet_chgAdmState_iff, h7]
    simp
  · refine iff_of_true (quiet_nothing (Option.some_ne_none _).symm) ?_
    simp only [h1, h2, h3, h4, h5, h6, h7, false_and, or_false, not_false_eq_true]

/-! ### The switch on the discriminator -/

/-- What a manufacturer-defined message is answered with belongs to no formatted message. -/
theorem quiet_manufReplies (rc : Int) (sd : Link) (b : Bts) :
    ∀ s ∈ manufReplies rc sd b, fomIn fomAnswers s.octets = none := by
  rw [manufReplies, List.forall_mem_cons]
  refine ⟨rfl, ?_⟩
  split_ifs
  · exact List.forall_mem_nil _
  · simp only [List.forall_mem_cons, stateReport, fomIn_reportFrame]
    exact ⟨rfl, rfl, rfl, rfl, List.forall_mem_nil _⟩

theorem quiet_thenManuf_iff {env : Env} {mdisc : UInt8} {e : Effect} :
    (e.thenManuf env sd mdisc).Quiet b ↔ e.Quiet b := by
  rw [thenManuf]
  split_ifs with hmanuf
  · obtain ⟨hstop, hsent, -⟩ := hmanuf
    constructor
    · rintro ⟨hbts, -, hfault⟩
      exact ⟨hbts, hsent ▸ List.forall_mem_nil _, hfault⟩
    · rintro ⟨hbts, -, hfault⟩
      exact ⟨hbts, quiet_manufReplies _ sd _, hfault⟩
  · rfl

/-- Nothing is sent, or formatted messages of which the first one answers. -/
def AnswersFirst (e : Effect) : Prop :=
  e.sent = [] ∨ ∃ sd b' type o frames,
    e.sent = (answer sd b' (fomFrame type o :: frames)).sent ∧ type ∈ fomAnswers ∧
      ∀ frame ∈ frames, Handling.Formatted frame

theorem answersFirst_answer {b' : Bts} {type : UInt8} {o : ObjInst} {frames : List (List UInt8)}
    (htype : type ∈ fomAnswers) (hframes : ∀ frame ∈ frames, Handling.Formatted frame) :
    (answer sd b' (fomFrame type o :: frames)).AnswersFirst :=
  Or.inr ⟨sd, b', type, o, frames, rfl, htype, hframes⟩

theorem answersFirst_activateSw : (activateSw sd q b).AnswersFirst := by
  cases ho : q.obj with
  | some o =>
      obtain ⟨frames, hframes⟩ := activateSwReplies_cons o
      have hformatted := Handling.formatted_activateSwReplies o
      rw [hframes, List.forall_mem_cons] at hformatted
      rw [activateSw_of_obj ho, hframes]
      exact answersFirst_answer (by decide) hformatted.2
  | none =>
      rw [activateSw, ho]
      simp only
      split_ifs
      · exact answersFirst_answer (by decide) (by simp)
      · exact Or.inl rfl

theorem answersFirst_opstart : (opstart sd q b).AnswersFirst := by
  cases ho : q.obj with
  | some o =>
      obtain ⟨frames, hframes⟩ := opstartReplies_cons (b := b.start o) o
      have hformatted := Handling.formatted_opstartReplies (b.start o) o
      rw [hframes, List.forall_mem_cons] at hformatted
      rw [opstart_of_obj ho, hframes]
      exact answersFirst_answer (by decide) hformatted.2
  | none =>
      rw [opstart, ho]
      exact Or.inl rfl

theorem answersFirst_setBtsAttr : (setBtsAttr sd q b).AnswersFirst := by
  rw [setBtsAttr]
  split_ifs
  · exact Or.inr ⟨sd, b, nmMtSetBtsAttrAck, Obj.bts.inst, [], rfl, by decide, List.forall_mem_nil _⟩
  · exact Or.inl rfl

theorem answersFirst_chgAdmState : (chgAdmState sd q b).AnswersFirst := by
  cases ho : q.obj with
  | some o =>
      by_cases hsite : o = .siteManager
      · subst hsite
        rw [chgAdmState_of_siteManager ho]
        exact Or.inl rfl
      · rw [chgAdmState_of_obj ho hsite]
        exact answersFirst_answer (by decide) (List.forall_mem_nil _)
  | none =>
      rw [chgAdmState, ho]
      exact Or.inl rfl

theorem answersFirst_msgType : (msgType sd q b).AnswersFirst := by
  rw [msgType]
  split_ifs
  · exact Or.inl rfl
  · exact answersFirst_activateSw
  · exact answersFirst_opstart
  · exact answersFirst_setBtsAttr
  · exact answersFirst_answer (by decide) (List.forall_mem_nil _)
  · exact answersFirst_answer (by decide) (List.forall_mem_nil _)
  · exact answersFirst_chgAdmState
  · exact Or.inl rfl

theorem AnswersFirst.formatted {e : Effect} (h : e.AnswersFirst) :
    ∀ s ∈ e.sent, Handling.Formatted s.octets := by
  rcases h with hnil | ⟨sd, b', type, o, frames, hsent, -, hframes⟩
  · rw [hnil]
    exact List.forall_mem_nil _
  · rw [hsent]
    intro s hs
    obtain ⟨frame, hframe, rfl⟩ := List.mem_map.mp hs
    exact List.forall_mem_cons.mpr ⟨Handling.formatted_fomFrame type o, hframes⟩ frame hframe

theorem AnswersFirst.sent_of_quiet {e : Effect} (h : e.AnswersFirst) (hquiet : e.Quiet b) :
    e.sent = [] := by
  rcases h with hnil | ⟨sd, b', type, o, frames, hsent, htype, -⟩
  · exact hnil
  · have hanswer := hquiet.sent ⟨sd, fomFrame type o, b'⟩ (by rw [hsent]; exact List.mem_cons_self)
    rw [fomIn_fomFrame, if_pos htype] at hanswer
    cases hanswer

/-- The RSL Connect ACK is among the octet strings sent. -/
def ConnectsRsl (e : Effect) : Prop := ∃ s ∈ e.sent, s.octets = Handling.initRslLink

theorem connectsRsl_thenManuf_iff {env : Env} {mdisc : UInt8} {e : Effect}
    (hformatted : ∀ s ∈ e.sent, Handling.Formatted s.octets) :
    (e.thenManuf env sd mdisc).ConnectsRsl ↔
      e.stop = none ∧ e.sent = [] ∧ mdisc = abisOmMdiscManuf := by
  rw [thenManuf]
  split_ifs with hmanuf
  · exact iff_of_true ⟨_, List.mem_cons_self, rfl⟩ hmanuf
  · refine iff_of_false ?_ hmanuf
    rintro ⟨s, hs, hinit⟩
    have hmdisc : s.octets[omMdisc]? = some abisOmMdiscFom := hformatted s hs
    rw [hinit] at hmdisc
    exact absurd hmdisc (by decide)

end Effect

/-! ### Messages -/

/-- The message type of a manufacturer-defined message, which comes after the manufacturer identifier
and its length. -/
def manufMsgType (m : Mem) : UInt8 := m (omData + 1 + (m omData).toNat)

/-- The discriminator decides: a message of another kind does not do what belongs to formatted ones,
and the RSL Connect ACK is sent for the manufacturer's RSL Connect and nothing else. -/
def Discriminates (env : Env) (sd : Link) (m : Mem) (b : Bts) : Prop :=
  let e := (omlMsg env sd (.start m b)).effect
  (m omMdisc ≠ abisOmMdiscFom → e.Quiet b) ∧
    (e.ConnectsRsl ↔
      m omMdisc = abisOmMdiscManuf ∧ manufMsgType m = nmMtSoftbtsRslConnect)

variable (env : Env) (sd : Link) (m : Mem) (b : Bts)

theorem quiet_omlMsg_iff :
    (omlMsg env sd (.start m b)).effect.Quiet b ↔
      ¬ Takes (m fomMsgType) (m fomObjClass) ((btsGetAttr env.turns m).isSome = true) b := by
  rw [omlMsg_effect, Effect.oml, Effect.quiet_thenManuf_iff]
  exact Effect.quiet_msgType_iff

theorem connectsRsl_omlMsg_iff :
    (omlMsg env sd (.start m b)).effect.ConnectsRsl ↔
      (Effect.msgType sd ((Handling.start m b).request env) b).stop = none ∧
        (Effect.msgType sd ((Handling.start m b).request env) b).sent = [] ∧
          m omMdisc = abisOmMdiscManuf := by
  rw [omlMsg_effect, Effect.oml, Effect.connectsRsl_thenManuf_iff Effect.answersFirst_msgType.formatted]
  rfl

/-- What takes nothing returns, but for an attribute loop that goes on. -/
theorem stop_of_quiet_iff {q : Request} (hquiet : (Effect.msgType sd q b).Quiet b) :
    (Effect.msgType sd q b).stop = none ↔ q.msgType ≠ nmMtSetBtsAttr := by
  by_cases hset : q.msgType = nmMtSetBtsAttr
  · refine iff_of_false (fun hstop => ?_) (not_not.mpr hset)
    rw [Effect.msgType_of_setBtsAttr hset] at hquiet hstop
    rw [Effect.setBtsAttr, if_neg (Effect.quiet_setBtsAttr_iff.mp hquiet)] at hstop
    cases hstop
  · refine iff_of_true ?_ hset
    rcases stop_msgType hset sd b with hstop | hstop
    · exact hstop
    · exact absurd hstop hquiet.stop

/-- Some number of turns for the attribute loop lets the octets take what they can take. -/
theorem takes_iff_exists_turns :
    Takes (m fomMsgType) (m fomObjClass) (StridesMeetEnd m) b ↔
      ∃ turns, Takes (m fomMsgType) (m fomObjClass) ((btsGetAttr turns m).isSome = true) b := by
  rw [← btsGetAttr_ends_iff]
  constructor
  · intro h
    by_cases hends : ∃ turns, (btsGetAttr turns m).isSome = true
    · obtain ⟨turns, hturns⟩ := hends
      exact ⟨turns, h.imp fun _ => hturns⟩
    · exact ⟨0, h.imp fun hsome => absurd hsome hends⟩
  · rintro ⟨turns, h⟩
    exact h.imp fun hends => ⟨turns, hends⟩

/-- Octets that are not taken for a formatted header let the second switch decide. -/
theorem connectsRsl_of_not_takes_iff
    (hnot : ¬ Takes (m fomMsgType) (m fomObjClass) (StridesMeetEnd m) b) :
    (omlMsg env sd (.start m b)).effect.ConnectsRsl ↔
      m fomMsgType ≠ nmMtSetBtsAttr ∧ m omMdisc = abisOmMdiscManuf := by
  have hquiet : (Effect.msgType sd ((Handling.start m b).request env) b).Quiet b := by
    apply Effect.quiet_msgType_iff.mpr
    intro htakes
    exact hnot ((takes_iff_exists_turns m b).mpr ⟨env.turns, htakes⟩)
  have hreturns : _ ↔ m fomMsgType ≠ nmMtSetBtsAttr := stop_of_quiet_iff sd b hquiet
  rw [connectsRsl_omlMsg_iff, hreturns, Effect.answersFirst_msgType.sent_of_quiet hquiet]
  exact and_congr_right fun _ => and_iff_right rfl

theorem discriminates_of_fom (hfom : m omMdisc = abisOmMdiscFom) : Discriminates env sd m b := by
  have hne : m omMdisc ≠ abisOmMdiscManuf := by
    rw [hfom]
    decide
  refine ⟨fun hother => absurd hfom hother, ?_⟩
  rw [connectsRsl_omlMsg_iff]
  exact iff_of_false (fun h => hne h.2.2) (fun h => hne h.1)

/-- **The discriminator** decides, whatever comes from outside, if and only if the message is a
formatted one, or nothing is taken of the octets where a formatted header would be and, of a
manufacturer-defined message, the type is RSL Connect exactly when the octet where the formatted type
would be does not send it into the attribute loop. -/
theorem omlMsg_discriminates_iff :
    (∀ (env : Env) (sd : Link), Discriminates env sd m b) ↔
      m omMdisc = abisOmMdiscFom ∨
        (¬ Takes (m fomMsgType) (m fomObjClass) (StridesMeetEnd m) b ∧
          (m omMdisc = abisOmMdiscManuf →
            (manufMsgType m = nmMtSoftbtsRslConnect ↔ m fomMsgType ≠ nmMtSetBtsAttr))) := by
  constructor
  · intro h
    by_cases hfom : m omMdisc = abisOmMdiscFom
    · exact Or.inl hfom
    have hnot : ¬ Takes (m fomMsgType) (m fomObjClass) (StridesMeetEnd m) b := by
      intro htakes
      obtain ⟨turns, hturns⟩ := (takes_iff_exists_turns m b).mp htakes
      have hquiet := (h { Env.plain with turns := turns } .oml).1 hfom
      exact (quiet_omlMsg_iff _ .oml m b).mp hquiet hturns
    refine Or.inr ⟨hnot, fun hmanuf => ?_⟩
    have hiff := (connectsRsl_of_not_takes_iff .plain .oml m b hnot).symm.trans (h .plain .oml).2
    rw [and_iff_left hmanuf, and_iff_right hmanuf] at hiff
    exact hiff.symm
  · rintro (hfom | ⟨hnot, htype⟩) env sd
    · exact discriminates_of_fom env sd m b hfom
    · constructor
      · intro _
        apply (quiet_omlMsg_iff env sd m b).mpr
        intro htakes
        exact hnot ((takes_iff_exists_turns m b).mpr ⟨env.turns, htakes⟩)
      · rw [connectsRsl_of_not_takes_iff env sd m b hnot, and_comm]
        exact and_congr_right fun hmanuf => (htype hmanuf).symm

/-- RSL Connect with an identifier of thirteen octets, the number of ACTIVATE SW, of which the first is
the class of the SITE MANAGER, is taken for ACTIVATE SW; and a manufacturer-defined message of no known
type is answered with the RSL Connect ACK. -/
theorem manuf_not_discriminated :
    let connect : List UInt8 := [0x00, 0x13, protoOml, abisOmMdiscManuf, abisOmPlacementOnly, 0x00,
      0x0f, 0x0d] ++ List.replicate 13 0x00 ++ [nmMtSoftbtsRslConnect]
    let other : List UInt8 := [0x00, 0x06, protoOml, abisOmMdiscManuf, abisOmPlacementOnly, 0x00, 0x02,
      0x00, 0x00]
    ¬ Discriminates .plain .oml (Mem.blank.store 0 connect) startup ∧
      ¬ Discriminates .plain .oml (Mem.blank.store 0 other) startup := by
  intro connect other
  constructor
  · intro h
    have hbts := (h.1 (by decide)).bts
    exact absurd (congrArg Bts.swSiteManager hbts) (by decide)
  · intro h
    have hconnect := h.2.mp ⟨⟨.oml, Handling.initRslLink, startup⟩, by decide, rfl⟩
    exact absurd hconnect.2 (by decide)

end SoftBts
