import SoftBts.OwnOctets

/-! A frame that is not self-contained is handled differently over different leftovers: for each octet
that is used and not the frame's own, two buffers that make the BTS do different things. -/

namespace SoftBts

open Octets Elements

/-- The same changes, the same octet strings on the same sockets, the same end. -/
def SameCourse (e e' : Effect) : Prop :=
  e.bts = e'.bts ∧ wire e.sent = wire e'.sent ∧ e.stop = e'.stop

/-- What the frame does depends on nothing the buffer held before, however many turns the attribute
loop may take. -/
def OnlyOwnOctets (f : Frame) : Prop :=
  ∀ (env : Env) (sd : Link) (b : Bts) (m m' : Mem), ∃ turns, ∀ t ≥ turns,
    SameCourse (f.received { env with turns := t } sd m b).effect
      (f.received { env with turns := t } sd m' b).effect

variable {f : Frame}

theorem OnlyOwnOctets.sameCourse (h : OnlyOwnOctets f) (env : Env) (sd : Link) (b : Bts)
    (m m' : Mem) (n : Nat) : ∃ t ≥ n,
      SameCourse ((f.message { env with turns := t } sd m).effect b)
        ((f.message { env with turns := t } sd m').effect b) := by
  obtain ⟨turns, hturns⟩ := h env sd b m m'
  refine ⟨max turns n, le_max_right _ _, ?_⟩
  rw [← received_effect, ← received_effect]
  exact hturns _ (le_max_left _ _)

/-! ### First replies -/

/-- The first octet string sent is of the type and for the object given. -/
def FirstReply (e : Effect) (msgType : UInt8) (o : ObjInst) : Prop :=
  ∃ sd rest, wire e.sent = (sd, fomFrame msgType o) :: rest

theorem FirstReply.inst_eq {e e' : Effect} {msgType msgType' : UInt8} {o o' : ObjInst}
    (h : FirstReply e msgType o) (h' : FirstReply e' msgType' o') (hsame : SameCourse e e') :
    o = o' := by
  obtain ⟨sd, rest, he⟩ := h
  obtain ⟨sd', rest', he'⟩ := h'
  have hwire := hsame.2.1
  rw [he, he'] at hwire
  have hframe := congrArg fomOf (Prod.mk.inj (List.cons.inj hwire).1).2
  rw [fomOf_fomFrame, fomOf_fomFrame] at hframe
  exact (Prod.mk.inj (Option.some.inj hframe)).2

theorem firstReply_answer (sd : Link) (b : Bts) (msgType : UInt8) (o : ObjInst)
    (rest : List (List UInt8)) :
    FirstReply (.answer sd b (fomFrame msgType o :: rest)) msgType o :=
  ⟨sd, rest.map (sd, ·), by rw [wire_answer, List.map_cons]⟩

/-- What is answered with a reply is not answered again. -/
theorem FirstReply.thenManuf {e : Effect} {msgType : UInt8} {o : ObjInst}
    (h : FirstReply e msgType o) (env : Env) (sd : Link) (mdisc : UInt8) :
    FirstReply (e.thenManuf env sd mdisc) msgType o := by
  rw [Effect.thenManuf, if_neg]
  · exact h
  · rintro ⟨-, hnil, -⟩
    obtain ⟨_, rest, he⟩ := h
    rw [hnil] at he
    cases he

/-- The requests that are answered under the name of their object. -/
def Request.Named (q : Request) : Prop :=
  q.msgType = nmMtActivateSw ∨ q.msgType = nmMtOpstart ∨ q.msgType = nmMtChgAdmState

theorem firstReply_named {q : Request} {o : Obj} (h : q.Named) (ho : q.obj = some o)
    (hsite : o ≠ .siteManager) (sd : Link) (b : Bts) :
    ∃ msgType, FirstReply (Effect.msgType sd q b) msgType o.inst := by
  rcases h with h | h | h
  · rw [Effect.msgType_of_activateSw h, Effect.activateSw_of_obj ho]
    cases o with
    | _ => exact ⟨_, firstReply_answer _ _ _ _ _⟩
  · rw [Effect.msgType_of_opstart h, Effect.opstart_of_obj ho]
    cases o with
    | _ => exact ⟨_, firstReply_answer _ _ _ _ _⟩
  · rw [Effect.msgType_of_chgAdmState h, Effect.chgAdmState_of_obj ho hsite]
    exact ⟨_, firstReply_answer _ _ _ _ _⟩

/-! ### Probes -/

/-- A buffer with one octet in it. -/
def probe (p : Nat) (v : UInt8) : Mem := Function.update Mem.blank p v

theorem into_probe {p : Nat} (hp : f.octets.length ≤ p) (v : UInt8) :
    f.into (probe p v) = Function.update (f.into Mem.blank) p v := by
  funext i
  by_cases hi : i = p
  · rw [hi, Function.update_self, f.into_apply_of_ge hp, probe, Function.update_self]
  · rw [Function.update_of_ne hi]
    by_cases hown : i < f.octets.length
    · exact f.into_apply_of_lt hown
    · rw [f.into_apply_of_ge (Nat.le_of_not_lt hown), f.into_apply_of_ge (Nat.le_of_not_lt hown),
        probe, Function.update_of_ne hi]

/-- The request of a frame over a buffer. -/
def Frame.request (f : Frame) (env : Env) (m : Mem) : Request :=
  (Handling.start (f.into m) startup).request env

theorem probe_self {p : Nat} (hp : f.octets.length ≤ p) (v : UInt8) : f.into (probe p v) p = v := by
  rw [into_probe hp, Function.update_self]

theorem probe_of_ne {p i : Nat} (hp : f.octets.length ≤ p) (hi : i ≠ p) (v : UInt8) :
    f.into (probe p v) i = f.into Mem.blank i := by
  rw [into_probe hp, Function.update_of_ne hi]

/-- A buffer that agrees with a frame where it lies is what the frame leaves of it. -/
theorem into_eq_self {m : Mem} (hagree : Mem.AgreeBelow f.octets.length (f.into Mem.blank) m) :
    f.into m = m := by
  funext i
  by_cases hi : i < f.octets.length
  · have hown : f.into m i = f.into Mem.blank i := f.into_apply_of_lt hi
    rw [hown, hagree i hi]
  · exact f.into_apply_of_ge (Nat.le_of_not_lt hi)

/-- The attribute loop over such a buffer. -/
theorem btsGetAttr_into {m : Mem} (hlength : omLength < f.octets.length)
    (hagree : Mem.AgreeBelow f.octets.length (f.into Mem.blank) m) (turns : Nat) :
    btsGetAttr turns (f.into m) =
      btsGetAttrLoop m turns ((Walk.start (f.into Mem.blank)).reread m) := by
  rw [into_eq_self hagree, btsGetAttr, Walk.start, Walk.start, Walk.reread, hagree _ hlength]

theorem effect_message_oml (hproto : f.proto = protoOml) (env : Env) (sd : Link) (m : Mem) (b : Bts) :
    (f.message env sd m).effect b = .oml env sd (f.request env m) b :=
  Message.effect_oml ((f.proto_message env sd m).trans hproto) b

namespace OnlyOwnOctets

variable (h : OnlyOwnOctets f) (hproto : f.proto = protoOml) (m m' : Mem)

include h hproto

/-- Over two buffers, the first reply is for the same object. -/
theorem inst_eq {o o' : ObjInst}
    (ho : ∀ env, ∃ msgType, FirstReply (Effect.msgType .oml (f.request env m) startup) msgType o)
    (ho' : ∀ env, ∃ msgType, FirstReply (Effect.msgType .oml (f.request env m') startup) msgType o') :
    o = o' := by
  obtain ⟨t, -, hsame⟩ := h.sameCourse .plain .oml startup m m' 0
  obtain ⟨_, hfirst⟩ := ho { Env.plain with turns := t }
  obtain ⟨_, hfirst'⟩ := ho' { Env.plain with turns := t }
  rw [effect_message_oml hproto, effect_message_oml hproto] at hsame
  exact (hfirst.thenManuf _ _ _).inst_eq (hfirst'.thenManuf _ _ _) hsame

/-- Over two buffers, a request of a type that is answered in the name of the object names the same
object. -/
theorem obj_eq {o o' : Obj} (hnamed : (f.request .plain m).Named)
    (hnamed' : (f.request .plain m').Named) (ho : (f.request .plain m).obj = some o)
    (ho' : (f.request .plain m').obj = some o') (hsite : o ≠ .siteManager)
    (hsite' : o' ≠ .siteManager) : o = o' :=
  Obj.inst_injective (h.inst_eq hproto m m' (fun env => firstReply_named (q := f.request env m) hnamed ho hsite _ _)
    fun env => firstReply_named (q := f.request env m') hnamed' ho' hsite' _ _)

theorem bts_eq (b : Bts) : ∃ env : Env,
    (Effect.msgType .oml (f.request env m) b).bts = (Effect.msgType .oml (f.request env m') b).bts := by
  obtain ⟨t, -, hsame⟩ := h.sameCourse .plain .oml b m m' 0
  rw [effect_message_oml hproto, effect_message_oml hproto] at hsame
  refine ⟨{ Env.plain with turns := t }, ?_⟩
  have hbts := hsame.1
  rwa [Effect.oml, Effect.oml, bts_thenManuf, bts_thenManuf] at hbts

theorem own_msgType : fomMsgType < f.octets.length := by
  by_contra hp
  have hp := Nat.le_of_not_lt hp
  have hradio : f.into (probe fomMsgType nmMtSetRadioAttr) fomMsgType = nmMtSetRadioAttr :=
    probe_self hp _
  have hchan : f.into (probe fomMsgType nmMtSetChanAttr) fomMsgType = nmMtSetChanAttr :=
    probe_self hp _
  have hinst : Obj.radioCarrier.inst =
      ⟨nmOcChannel, 0x00, 0x00, f.into (probe fomMsgType nmMtSetChanAttr) fomTsNr⟩ := by
    refine h.inst_eq hproto (probe fomMsgType nmMtSetRadioAttr) (probe fomMsgType nmMtSetChanAttr)
      (fun env => ?_) fun env => ?_
    · have htype : (f.request env (probe fomMsgType nmMtSetRadioAttr)).msgType = nmMtSetRadioAttr :=
        hradio
      rw [Effect.msgType_of_setRadioAttr htype]
      exact ⟨_, firstReply_answer _ _ _ _ _⟩
    · have htype : (f.request env (probe fomMsgType nmMtSetChanAttr)).msgType = nmMtSetChanAttr :=
        hchan
      rw [Effect.msgType_of_setChanAttr htype]
      exact ⟨_, firstReply_answer _ _ _ _ _⟩
  have hclass : nmOcRadioCarrier = nmOcChannel := congrArg ObjInst.objClass hinst
  exact absurd hclass (by decide)

theorem own_objClass (hclass : (f.request .plain Mem.blank).UsesClass) :
    fomObjClass < f.octets.length := by
  by_contra hp
  have hp := Nat.le_of_not_lt hp
  have htype : ∀ v, (f.request .plain (probe fomObjClass v)).msgType =
      (f.request .plain Mem.blank).msgType := fun v => probe_of_ne hp (by decide) v
  have hself : ∀ v, (f.request .plain (probe fomObjClass v)).objClass = v := fun v => probe_self hp v
  rcases hclass with hack | hnamed
  · obtain ⟨env, hbts⟩ := h.bts_eq hproto (probe fomObjClass nmOcSiteManager)
      (probe fomObjClass nmOcRadioCarrier) startup
    have he : ∀ v, (Effect.msgType .oml (f.request env (probe fomObjClass v)) startup).bts =
        startup.acknowledgeActReq v := by
      intro v
      have htype' : (f.request env (probe fomObjClass v)).msgType = nmMtSwActReqAck :=
        (htype v).trans hack
      have hself' : (f.request env (probe fomObjClass v)).objClass = v := hself v
      rw [Effect.msgType_of_swActReqAck htype', hself']
      rfl
    rw [he, he] at hbts
    exact absurd (congrArg Bts.swSiteManager hbts) (by decide)
  · have hnamed' : ∀ v, (f.request .plain (probe fomObjClass v)).Named := by
      intro v
      rw [Request.Named, htype v]
      exact hnamed
    have hobj : Obj.radioCarrier = .basebTransc := h.obj_eq hproto _ _ (hnamed' nmOcRadioCarrier)
      (hnamed' nmOcBasebTransc)
      (by rw [Request.obj, hself]; rfl) (by rw [Request.obj, hself]; rfl) (by decide) (by decide)
    cases hobj

theorem own_tsNr (hts : (f.request .plain Mem.blank).UsesTsNr) : fomTsNr < f.octets.length := by
  by_contra hp
  have hp := Nat.le_of_not_lt hp
  have htype : ∀ v, (f.request .plain (probe fomTsNr v)).msgType =
      (f.request .plain Mem.blank).msgType := fun v => probe_of_ne hp (by decide) v
  have hself : ∀ v, (f.request .plain (probe fomTsNr v)).tsNr = v := fun v => probe_self hp v
  rcases hts with hset | ⟨hnamed, hclass⟩
  · have hfirst : ∀ v env, ∃ msgType, FirstReply
        (Effect.msgType .oml (f.request env (probe fomTsNr v)) startup) msgType
        ⟨nmOcChannel, 0x00, 0x00, v⟩ := by
      intro v env
      have htype' : (f.request env (probe fomTsNr v)).msgType = nmMtSetChanAttr :=
        (htype v).trans hset
      have hself' : (f.request env (probe fomTsNr v)).tsNr = v := hself v
      rw [Effect.msgType_of_setChanAttr htype', hself']
      exact ⟨_, firstReply_answer _ _ _ _ _⟩
    have hinst := h.inst_eq hproto _ _ (hfirst 0) (hfirst 1)
    exact absurd (congrArg ObjInst.tsNr hinst) (by decide)
  · have hnamed' : ∀ v, (f.request .plain (probe fomTsNr v)).Named := by
      intro v
      rw [Request.Named, htype v]
      exact hnamed
    have hclass' : ∀ v, (f.request .plain (probe fomTsNr v)).objClass = nmOcChannel :=
      fun v => (probe_of_ne hp (by decide) v).trans hclass
    have hobj : Obj.channel 0 = .channel 1 := h.obj_eq hproto _ _ (hnamed' 0) (hnamed' 1)
      (by rw [Request.obj, hself, hclass']; rfl) (by rw [Request.obj, hself, hclass']; rfl)
      (by decide) (by decide)
    exact absurd (Obj.channel.inj hobj) (by decide)

theorem own_adminState (hadm : (f.request .plain Mem.blank).UsesAdminState) :
    fomData + 1 < f.octets.length := by
  by_contra hp
  have hp := Nat.le_of_not_lt hp
  obtain ⟨htype, o, ho, hsite⟩ := hadm
  obtain ⟨env, hbts⟩ := h.bts_eq hproto (probe (fomData + 1) 1) (probe (fomData + 1) 2) startup
  have he : ∀ v, (Effect.msgType .oml (f.request env (probe (fomData + 1) v)) startup).bts =
      startup.setAdminState v o := by
    intro v
    have htype' : (f.request env (probe (fomData + 1) v)).msgType = nmMtChgAdmState :=
      (probe_of_ne hp (by decide) v).trans htype
    have hself : (f.request env (probe (fomData + 1) v)).adminState = v := probe_self hp v
    have hclass : (f.request env (probe (fomData + 1) v)).objClass =
        (f.request .plain Mem.blank).objClass := probe_of_ne hp (by decide) v
    have hts : (f.request env (probe (fomData + 1) v)).tsNr =
        (f.request .plain Mem.blank).tsNr := probe_of_ne hp (by decide) v
    have ho' : (f.request env (probe (fomData + 1) v)).obj = some o := by
      rw [Request.obj, hclass, hts]
      exact ho
    rw [Effect.msgType_of_chgAdmState htype', Effect.chgAdmState_of_obj ho' hsite, hself]
    rfl
  rw [he, he] at hbts
  have hvalue := congrArg (fun b => b.stateVar (.adminState o)) hbts
  simp [Bts.stateVar_setAdminState] at hvalue

theorem not_strays (hset : (f.request .plain Mem.blank).msgType = nmMtSetBtsAttr) :
    ¬ (Walk.start (f.into Mem.blank)).Strays (f.into Mem.blank) f.octets.length := by
  intro hstrays
  have htype := h.own_msgType hproto
  have hlength : omLength < f.octets.length := lt_trans (by decide) htype
  obtain ⟨m₁, m₂, hagree₁, hagree₂, ⟨n, hends⟩, hnever⟩ := Walk.undecided_of_strays hstrays rfl
  have he : ∀ m, ∀ env : Env, Effect.msgType .oml (f.request env m) startup =
      .setBtsAttr .oml (f.request env m) startup :=
    fun m env => Effect.msgType_of_setBtsAttr ((f.into_apply_of_lt htype).trans hset)
  obtain ⟨t, hn, hsame⟩ := h.sameCourse .plain .oml startup m₁ m₂ n
  rw [effect_message_oml hproto, effect_message_oml hproto] at hsame
  have hstop := hsame.2.2
  rw [Effect.oml, Effect.oml, stop_thenManuf, stop_thenManuf, he m₁, he m₂,
    Effect.setBtsAttr, Effect.setBtsAttr] at hstop
  have hattrs₁ : (f.request { Env.plain with turns := t } m₁).attrsEnd = true := by
    obtain ⟨steps, hsteps⟩ := Option.isSome_iff_exists.mp hends
    show (btsGetAttr t (f.into m₁)).isSome = true
    rw [btsGetAttr_into hlength hagree₁, btsGetAttrLoop_mono hn hsteps]
    rfl
  have hattrs₂ : (f.request { Env.plain with turns := t } m₂).attrsEnd ≠ true := by
    show (btsGetAttr t (f.into m₂)).isSome ≠ true
    rw [btsGetAttr_into hlength hagree₂, hnever]
    decide
  rw [if_pos hattrs₁, if_neg hattrs₂] at hstop
  cases hstop

end OnlyOwnOctets

/-! ### The other protocols -/

theorem own_cmd (h : OnlyOwnOctets f) (hproto : f.proto = protoSoftbts) :
    headData < f.octets.length := by
  by_contra hp
  have hp := Nat.le_of_not_lt hp
  obtain ⟨t, -, -, hwire, -⟩ := h.sameCourse .plain .oml startup (probe headData msgPing)
    (probe headData msgPong) 0
  have hcmd : ∀ v, (f.into (probe headData v)) headData = v := fun v => probe_self hp v
  have hmessage : ∀ env v, (f.message env .oml (probe headData v)).effect startup =
      .softbts env .oml v startup := by
    intro env v
    rw [Message.effect_softbts ((f.proto_message _ _ _).trans hproto)]
    show Effect.softbts env .oml (f.into (probe headData v) headData) startup = _
    rw [hcmd]
  rw [hmessage, hmessage] at hwire
  cases hwire

/-- A buffer with what makes a SYSTEM INFORMATION 3. -/
def sysInfo3 : Mem := fun i =>
  if i = headData then 0x0c else if i = headData + 1 then 0x11 else if i = headData + 5 then 0x03 else 0

/-- A frame that a buffer with the octets of a SYSTEM INFORMATION 3 makes into one has these octets
itself: a blank buffer makes it into one too. -/
theorem own_of_sysInfo3 (h : OnlyOwnOctets f) (hproto : f.proto = protoRsl)
    (hcch : IsCch (f.into sysInfo3)) (htype : f.into sysInfo3 (headData + 1) = 0x11)
    (hinfo : f.into sysInfo3 (headData + 5) = 0x03) : headData + 5 < f.octets.length := by
  obtain ⟨t, -, -, -, hstop⟩ := h.sameCourse { Env.plain with octets := 0, poii := false } .oml
    startup sysInfo3 Mem.blank 0
  rw [Message.effect_rsl ((f.proto_message _ _ _).trans hproto),
    Message.effect_rsl ((f.proto_message _ _ _).trans hproto)] at hstop
  have hstop : rslStop { Env.plain with turns := t, octets := 0, poii := false } (f.into sysInfo3) =
      rslStop { Env.plain with turns := t, octets := 0, poii := false } (f.into Mem.blank) := hstop
  have hreturns : ∀ m, rslStop { Env.plain with turns := t, octets := 0, poii := false } m = none ↔
      ¬ (IsCch m ∧ m (headData + 1) = 0x11 ∧ m (headData + 5) = 0x03) := by
    intro m
    apply rslStop_eq_none_iff
    show ¬ ((0 : UInt8) = 1 ∨ false = true)
    decide
  have hblank : f.into Mem.blank (headData + 5) = 0x03 := by
    by_contra hne
    have hnone := (hreturns (f.into Mem.blank)).mpr fun hall => hne hall.2.2
    rw [← hstop] at hnone
    exact (hreturns _).mp hnone ⟨hcch, htype, hinfo⟩
  by_contra hp
  rw [f.into_apply_of_ge (Nat.le_of_not_lt hp)] at hblank
  exact absurd hblank (by decide)

theorem own_rsl (h : OnlyOwnOctets f) (hproto : f.proto = protoRsl) :
    headData < f.octets.length ∧ (IsCch (f.into Mem.blank) → headData + 1 < f.octets.length ∧
      (f.into Mem.blank (headData + 1) = 0x11 → headData + 5 < f.octets.length)) := by
  have hown : ∀ i, i < f.octets.length → f.into sysInfo3 i = f.into Mem.blank i :=
    fun i hi => f.into_apply_of_lt hi
  have hfill : ∀ i, f.octets.length ≤ i → f.into sysInfo3 i = sysInfo3 i :=
    fun i hi => f.into_apply_of_ge hi
  have hdata : headData < f.octets.length := by
    by_contra hp
    have hcch : IsCch (f.into sysInfo3) := by
      rw [IsCch, hfill _ (by omega)]
      decide
    have hlast := own_of_sysInfo3 h hproto hcch (hfill _ (by omega)) (hfill _ (by omega))
    omega
  refine ⟨hdata, fun hcch => ?_⟩
  have hcch : IsCch (f.into sysInfo3) := by
    rw [IsCch, hown _ hdata]
    exact hcch
  have htype : headData + 1 < f.octets.length := by
    by_contra hp
    have hlast := own_of_sysInfo3 h hproto hcch (hfill _ (by omega)) (hfill _ (by omega))
    omega
  refine ⟨htype, fun hsi => ?_⟩
  by_contra hp
  exact hp (own_of_sysInfo3 h hproto hcch ((hown _ htype).trans hsi) (hfill _ (by omega)))

/-- **Own octets.** What a frame received whole makes the BTS do depends on nothing the buffer held
before if and only if all octets that its handling uses are its own. -/
theorem onlyOwnOctets_iff (f : Frame) : OnlyOwnOctets f ↔ SelfContained f := by
  constructor
  · intro h
    refine ⟨own_cmd h, fun hproto => ⟨h.own_msgType hproto, h.own_objClass hproto, h.own_tsNr hproto,
      h.own_adminState hproto, h.not_strays hproto⟩, own_rsl h⟩
  · intro h env sd b m m'
    refine ⟨0, fun t _ => ?_⟩
    rw [received_effect, received_effect, effect_of_selfContained h, effect_of_selfContained h _ _ m']
    exact ⟨rfl, rfl, rfl⟩

/-- CHANGE ADMINISTRATIVE STATE of the BTS without its attribute. -/
def bareChgAdmState : Frame where
  proto := protoOml
  body := [abisOmMdiscFom, abisOmPlacementOnly, 0x00, 5, nmMtChgAdmState, nmOcBts, 0x00, nmOcNull,
    nmOcNull]
  length_le := by decide

/-- The state that it sets is what an earlier message left behind its end. -/
theorem bareChgAdmState_takes_leftovers : ¬ OnlyOwnOctets bareChgAdmState := by
  intro h
  obtain ⟨t, -, hbts, -⟩ := h.sameCourse .plain .oml startup (probe (fomData + 1) nmStateLocked)
    (probe (fomData + 1) nmStateUnlocked) 0
  have hstate : nmStateLocked = nmStateUnlocked := congrArg Bts.btsAdminState hbts
  exact absurd hstate (by decide)

end SoftBts
