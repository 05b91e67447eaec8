import SoftBts.AttrLoop
import SoftBts.Receive

/-! Which frames are handled the same whatever the buffer held before. The handlers read the fields of
their structs without a look at the length of the message, so a frame that is too short for what it
says is filled up with octets of an earlier message. -/

namespace SoftBts

open Octets Elements

/-! ### What is read of a message -/

namespace Request

/-- The object class is looked at. -/
def UsesClass (q : Request) : Prop :=
  q.msgType = nmMtSwActReqAck ∨ q.msgType = nmMtActivateSw ∨ q.msgType = nmMtOpstart ∨
    q.msgType = nmMtChgAdmState

/-- The timeslot octet is looked at. -/
def UsesTsNr (q : Request) : Prop :=
  q.msgType = nmMtSetChanAttr ∨
    (q.msgType = nmMtActivateSw ∨ q.msgType = nmMtOpstart ∨ q.msgType = nmMtChgAdmState) ∧
      q.objClass = nmOcChannel

/-- The administrative state is copied. -/
def UsesAdminState (q : Request) : Prop :=
  q.msgType = nmMtChgAdmState ∧ ∃ o, q.obj = some o ∧ o ≠ .siteManager

end Request

/-- The message is sent to `rsl_mg_cch`. -/
def IsCch (m : Mem) : Prop := m headData % 2 = 0 ∧ m headData / 2 = 0x06

/-- How the handling of a message of the radio link ends: with a SYSTEM INFORMATION 3 it may read
through `poii` when that is not set. -/
def rslStop (env : Env) (m : Mem) : Option Stop :=
  if (m headData % 2 = 0 ∧ m headData / 2 = 0x06) ∧ m (headData + 1) = 0x11 ∧
      m (headData + 5) = 0x03 ∧ ¬ (env.octets = 1 ∨ env.poii = true) then some .fault
  else none

theorem rslMsg_effect_eq (env : Env) (m : Mem) (b : Bts) :
    (rslMsg env (.start m b)).effect = ⟨b, [], rslStop env m⟩ := by
  show Outcome.effect (if m headData % 2 = 0 ∧ m headData / 2 = 0x06 then
      if m (headData + 1) = 0x11 then
        if m (headData + 5) = 0x03 then
          if env.octets = 1 ∨ env.poii = true then _ else _
        else _
      else _
    else _) = _
  rw [rslStop]
  by_cases hcch : m headData % 2 = 0 ∧ m headData / 2 = 0x06
  · by_cases hinfo : m (headData + 1) = 0x11
    · by_cases htype : m (headData + 5) = 0x03
      · by_cases hpoii : env.octets = 1 ∨ env.poii = true
        · rw [if_pos hcch, if_pos hinfo, if_pos htype, if_pos hpoii, if_neg (by tauto)]
          rfl
        · rw [if_pos hcch, if_pos hinfo, if_pos htype, if_neg hpoii,
            if_pos ⟨hcch, hinfo, htype, hpoii⟩]
          rfl
      · rw [if_pos hcch, if_pos hinfo, if_neg htype, if_neg (by tauto)]
        rfl
    · rw [if_pos hcch, if_neg hinfo, if_neg (by tauto)]
      rfl
  · rw [if_neg hcch, if_neg (by tauto)]
    rfl

theorem rslStop_eq_none_iff {env : Env} (hpoii : ¬ (env.octets = 1 ∨ env.poii = true)) (m : Mem) :
    rslStop env m = none ↔
      ¬ (IsCch m ∧ m (headData + 1) = 0x11 ∧ m (headData + 5) = 0x03) := by
  rw [rslStop, ite_eq_right_iff]
  constructor
  · intro h hall
    cases h ⟨hall.1, hall.2.1, hall.2.2, hpoii⟩
  · intro h hall
    exact absurd ⟨hall.1, hall.2.1, hall.2.2.1⟩ h

/-- Every octet that the handling of the frame uses is the frame's own. -/
def SelfContained (f : Frame) : Prop :=
  let m := f.into Mem.blank
  let q := (Handling.start m startup).request .plain
  (f.proto = protoSoftbts → headData < f.octets.length) ∧
  (f.proto = protoOml →
    fomMsgType < f.octets.length ∧ (q.UsesClass → fomObjClass < f.octets.length) ∧
    (q.UsesTsNr → fomTsNr < f.octets.length) ∧
    (q.UsesAdminState → fomData + 1 < f.octets.length) ∧
    (q.msgType = nmMtSetBtsAttr → ¬ (Walk.start m).Strays m f.octets.length)) ∧
  (f.proto = protoRsl →
    headData < f.octets.length ∧ (IsCch m → headData + 1 < f.octets.length ∧
      (m (headData + 1) = 0x11 → headData + 5 < f.octets.length)))

/-! ### Self-contained frames -/

theorem named_congr {objClass : UInt8} (h : objClass ≠ nmOcChannel) (t t' : UInt8) :
    Obj.named objClass t = Obj.named objClass t' := by
  simp only [Obj.named, if_neg h]

section Requests

variable {q q' : Request}

theorem obj_congr (hclass : q'.objClass = q.objClass)
    (hts : q.objClass = nmOcChannel → q'.tsNr = q.tsNr) : q'.obj = q.obj := by
  rw [Request.obj, Request.obj, hclass]
  by_cases hchannel : q.objClass = nmOcChannel
  · rw [hts hchannel]
  · exact named_congr hchannel _ _

theorem activateSw_congr (hclass : q'.objClass = q.objClass)
    (hts : q.objClass = nmOcChannel → q'.tsNr = q.tsNr) (sd : Link) (b : Bts) :
    Effect.activateSw sd q' b = Effect.activateSw sd q b := by
  rw [Effect.activateSw, Effect.activateSw, obj_congr hclass hts, hclass]
  by_cases hchannel : q.objClass = nmOcChannel
  · rw [hts hchannel]
  · simp only [if_neg hchannel]

theorem opstart_congr (hclass : q'.objClass = q.objClass)
    (hts : q.objClass = nmOcChannel → q'.tsNr = q.tsNr) (sd : Link) (b : Bts) :
    Effect.opstart sd q' b = Effect.opstart sd q b := by
  rw [Effect.opstart, Effect.opstart, obj_congr hclass hts, Effect.unnamed, Effect.unnamed, hclass]

theorem chgAdmState_congr (hclass : q'.objClass = q.objClass)
    (hts : q.objClass = nmOcChannel → q'.tsNr = q.tsNr)
    (hadm : (∃ o, q.obj = some o ∧ o ≠ .siteManager) → q'.adminState = q.adminState)
    (sd : Link) (b : Bts) : Effect.chgAdmState sd q' b = Effect.chgAdmState sd q b := by
  rw [Effect.chgAdmState, Effect.chgAdmState, obj_congr hclass hts, Effect.unnamed, Effect.unnamed,
    hclass]
  cases hq : q.obj with
  | none => rfl
  | some o =>
      cases o with
      | siteManager => rfl
      | _ => rw [hadm ⟨_, hq, by simp⟩]

/-- Requests that agree in what is used have the same effect. -/
theorem msgType_congr (htype : q'.msgType = q.msgType)
    (hclass : q.UsesClass → q'.objClass = q.objClass) (hts : q.UsesTsNr → q'.tsNr = q.tsNr)
    (hadm : q.UsesAdminState → q'.adminState = q.adminState)
    (hattrs : q.msgType = nmMtSetBtsAttr → q'.attrsEnd = q.attrsEnd) (sd : Link) (b : Bts) :
    Effect.msgType sd q' b = Effect.msgType sd q b := by
  rw [Effect.msgType, Effect.msgType, htype]
  split_ifs with h1 h2 h3 h4 h5 h6 h7
  · rw [hclass (Or.inl h1)]
  · exact activateSw_congr (hclass (Or.inr (Or.inl h2)))
      (fun hchannel => hts (Or.inr ⟨Or.inl h2, hchannel⟩)) sd b
  · exact opstart_congr (hclass (Or.inr (Or.inr (Or.inl h3))))
      (fun hchannel => hts (Or.inr ⟨Or.inr (Or.inl h3), hchannel⟩)) sd b
  · rw [Effect.setBtsAttr, Effect.setBtsAttr, hattrs h4]
  · rw [hts (Or.inl h5)]
  · rfl
  · exact chgAdmState_congr (hclass (Or.inr (Or.inr (Or.inr h7))))
      (fun hchannel => hts (Or.inr ⟨Or.inr (Or.inr h7), hchannel⟩)) (fun ho => hadm ⟨h7, ho⟩) sd b
  · rfl

end Requests

variable {f : Frame}

/-- The attribute loop over the frame goes as over the frame in a blank buffer. -/
theorem attrsEnd_into (hlength : omLength < f.octets.length)
    (hstrays : ¬ (Walk.start (f.into Mem.blank)).Strays (f.into Mem.blank) f.octets.length)
    (m : Mem) (turns : Nat) :
    (btsGetAttr turns (f.into m)).isSome = (btsGetAttr turns (f.into Mem.blank)).isSome := by
  have hagree : Mem.AgreeBelow f.octets.length (f.into Mem.blank) (f.into m) :=
    fun i hi => f.into_apply_of_lt hi
  have hstart : Walk.start (f.into m) = (Walk.start (f.into Mem.blank)).reread (f.into m) := by
    rw [Walk.start, Walk.start, Walk.reread, hagree _ hlength]
  rw [btsGetAttr, btsGetAttr, hstart]
  exact Walk.isSome_loop_eq hagree hstrays rfl turns

/-- A message of the radio link has an effect on how things go on at most. -/
theorem Message.effect_rsl {i : Message} (h : i.proto = protoRsl) (b : Bts) :
    i.effect b = ⟨b, [], rslStop i.env i.mem⟩ := by
  have hsoftbts : i.proto ≠ protoSoftbts := by rw [h]; decide
  have homl : i.proto ≠ protoOml := by rw [h]; decide
  have hdispatch : i.handling b = rslMsg i.env (.start i.mem b) :=
    (if_neg hsoftbts).trans ((if_neg homl).trans (if_pos h))
  rw [Message.effect, hdispatch, rslMsg_effect_eq]

theorem Message.effect_unknown {i : Message} (hsoftbts : i.proto ≠ protoSoftbts)
    (homl : i.proto ≠ protoOml) (hrsl : i.proto ≠ protoRsl) (b : Bts) :
    i.effect b = ⟨b, [], none⟩ := by
  have hdispatch : i.handling b = .returned (.start i.mem b) :=
    (if_neg hsoftbts).trans ((if_neg homl).trans (if_neg hrsl))
  rw [Message.effect, hdispatch]
  rfl

theorem rslStop_into (hdata : headData < f.octets.length)
    (hcch : IsCch (f.into Mem.blank) → headData + 1 < f.octets.length ∧
      (f.into Mem.blank (headData + 1) = 0x11 → headData + 5 < f.octets.length))
    (env : Env) (m : Mem) : rslStop env (f.into m) = rslStop env (f.into Mem.blank) := by
  have h0 : f.into m headData = f.into Mem.blank headData := f.into_apply_of_lt hdata
  rw [rslStop, rslStop, h0]
  by_cases hc : IsCch (f.into Mem.blank)
  · obtain ⟨hinfo', htype'⟩ := hcch hc
    have h1 : f.into m (headData + 1) = f.into Mem.blank (headData + 1) :=
      f.into_apply_of_lt hinfo'
    rw [h1]
    by_cases hinfo : f.into Mem.blank (headData + 1) = 0x11
    · have h5 : f.into m (headData + 5) = f.into Mem.blank (headData + 5) :=
        f.into_apply_of_lt (htype' hinfo)
      rw [h5]
    · rw [if_neg fun h => hinfo h.2.1, if_neg fun h => hinfo h.2.1]
  · rw [if_neg fun h => hc h.1, if_neg fun h => hc h.1]

theorem effect_into_oml (homl : f.proto = protoOml) (h : SelfContained f) (env : Env) (sd : Link)
    (m : Mem) (b : Bts) :
    (f.message env sd m).effect b = (f.message env sd Mem.blank).effect b := by
  obtain ⟨-, hown, -⟩ := h
  obtain ⟨htype, hclass, hts, hadm, hattrs⟩ := hown homl
  have hmdisc : omMdisc < f.octets.length := lt_trans (by decide) htype
  have hlength : omLength < f.octets.length := lt_trans (by decide) htype
  have hproto : ∀ m, (f.message env sd m).proto = protoOml := fun m =>
    (f.proto_message env sd m).trans homl
  have hmsg : Effect.msgType sd (f.message env sd m).request b =
      Effect.msgType sd (f.message env sd Mem.blank).request b :=
    msgType_congr (q := (f.message env sd Mem.blank).request) (f.into_apply_of_lt htype)
      (fun hu => f.into_apply_of_lt (hclass hu)) (fun hu => f.into_apply_of_lt (hts hu))
      (fun hu => f.into_apply_of_lt (hadm hu))
      (fun hset => attrsEnd_into hlength (hattrs hset) m env.turns) sd b
  have hdisc : (f.message env sd m).request.mdisc = (f.message env sd Mem.blank).request.mdisc :=
    f.into_apply_of_lt hmdisc
  rw [Message.effect_oml (hproto m), Message.effect_oml (hproto Mem.blank), Effect.oml, Effect.oml]
  show (Effect.msgType sd (f.message env sd m).request b).thenManuf env sd _ =
    (Effect.msgType sd (f.message env sd Mem.blank).request b).thenManuf env sd _
  rw [hmsg, hdisc]

/-- **A self-contained frame** has the same effect over every buffer. -/
theorem effect_of_selfContained (h : SelfContained f) (env : Env) (sd : Link) (m : Mem) (b : Bts) :
    (f.message env sd m).effect b = (f.message env sd Mem.blank).effect b := by
  have hproto : ∀ m, (f.message env sd m).proto = f.proto := fun m => f.proto_message env sd m
  by_cases hp : f.proto = protoSoftbts
  · have hcmd : (f.message env sd m).cmd = (f.message env sd Mem.blank).cmd :=
      f.into_apply_of_lt (h.1 hp)
    rw [Message.effect_softbts ((hproto m).trans hp),
      Message.effect_softbts ((hproto Mem.blank).trans hp), hcmd]
    rfl
  by_cases hp' : f.proto = protoOml
  · exact effect_into_oml hp' h env sd m b
  by_cases hp'' : f.proto = protoRsl
  · obtain ⟨hdata, hcch⟩ := h.2.2 hp''
    have hstop := rslStop_into hdata hcch env m
    rw [Message.effect_rsl ((hproto m).trans hp''), Message.effect_rsl ((hproto Mem.blank).trans hp'')]
    show (⟨b, [], rslStop env (f.into m)⟩ : Effect) = ⟨b, [], rslStop env (f.into Mem.blank)⟩
    rw [hstop]
  · rw [Message.effect_unknown ((hproto m).trans_ne hp) ((hproto m).trans_ne hp')
        ((hproto m).trans_ne hp''),
      Message.effect_unknown ((hproto Mem.blank).trans_ne hp) ((hproto Mem.blank).trans_ne hp')
        ((hproto Mem.blank).trans_ne hp'')]

end SoftBts
