import SoftBts.Builders
import SoftBts.Lib.Elements

/-! What the seven builders of formatted O&M messages put on the wire: the three lengths in a frame,
the attributes behind its headers, and a decoder that gets the call of the builder back. -/

namespace SoftBts

open Octets Elements

/-! ### The calls -/

/-- A call of one of the builders, with what it is given. -/
inductive BuilderCall where
  | swActivateRequest (o : ObjInst)
  | swActivatedReport (o : ObjInst)
  | opstartAck (o : ObjInst)
  | swActivateAck (o : ObjInst)
  | stateChangedEventReport (o : ObjInst) (opState avStatus admState : UInt8)
  | btsSetAttrAck (o : ObjInst)
  | chgAdmStateAck (o : ObjInst)
  deriving DecidableEq

namespace BuilderCall

/-- The call made in the handling of a message. -/
def run (sd : Link) (h : Handling) : BuilderCall → Handling
  | .swActivateRequest o => h.swActivateRequest sd o
  | .swActivatedReport o => h.swActivatedReport sd o
  | .opstartAck o => h.opstartAck sd o
  | .swActivateAck o => h.swActivateAck sd o
  | .stateChangedEventReport o opState avStatus admState =>
      h.stateChangedEventReport sd o opState avStatus admState
  | .btsSetAttrAck o => h.btsSetAttrAck sd o
  | .chgAdmStateAck o => h.chgAdmStateAck sd o

/-- The octets the call sends. -/
def frame : BuilderCall → List UInt8
  | .swActivateRequest o => swActReqFrame o
  | .swActivatedReport o => fomFrame nmMtSwActivatedRep o
  | .opstartAck o => fomFrame nmMtOpstartAck o
  | .swActivateAck o => fomFrame nmMtActivateSwAck o
  | .stateChangedEventReport o opState avStatus admState => reportFrame o opState avStatus admState
  | .btsSetAttrAck o => fomFrame nmMtSetBtsAttrAck o
  | .chgAdmStateAck o => fomFrame nmMtChgAdmStateAck o

theorem run_eq (sd : Link) (h : Handling) (c : BuilderCall) : c.run sd h = h.deliver sd c.frame := by
  cases c with
  | swActivateRequest o => exact h.swActivateRequest_eq sd o
  | stateChangedEventReport o opState avStatus admState =>
      exact h.stateChangedEventReport_eq sd o opState avStatus admState
  | _ => exact h.fomReply_eq sd _ _

end BuilderCall

/-! ### The lengths -/

/-- The lengths in a frame agree: the one in front counts the octets after the protocol octet, the one
of the O&M header those after that header. -/
structure LengthsAgree (frame : List UInt8) : Prop where
  fomData_le : fomData ≤ frame.length
  head : be16 (frame.getD headLen 0) (frame.getD (headLen + 1) 0) + headData = frame.length
  om : (frame.getD omLength 0).toNat + 4 = be16 (frame.getD headLen 0) (frame.getD (headLen + 1) 0)

/-- The octets after the formatted header. -/
def attrsOf (frame : List UInt8) : List UInt8 := frame.drop fomData

/-- They are as many as the length of the O&M header says, less the five of the formatted header. -/
theorem LengthsAgree.length_attrsOf {frame : List UInt8} (h : LengthsAgree frame) :
    (attrsOf frame).length + 5 = (frame.getD omLength 0).toNat := by
  obtain ⟨hle, hhead, hom⟩ := h
  rw [attrsOf, List.length_drop]
  simp only [fomData, omData, headData] at hle hhead ⊢
  omega

theorem lengthsAgree_frame (c : BuilderCall) : LengthsAgree c.frame := by
  cases c with
  | _ =>
      refine ⟨?_, rfl, rfl⟩
      simp [BuilderCall.frame, fomFrame, reportFrame, swActReqFrame, fomData, omData, headData]

/-! ### The attributes -/

/-- The attributes of a State Changed Event Report. -/
def reportAttr : Grammar := fun tag =>
  if tag = nmAttOperState then some (.fixed 2)
  else if tag = nmAttAvailStatus then some .tlv
  else if tag = nmAttAdmState then some (.fixed 2)
  else none

/-- The attribute of a SW Activate Request. -/
def requestAttr : Grammar := fun tag => if tag = nmAttSwConfig then some .tlv else none

/-- What its value is made of. -/
def swConfigPart : Grammar := fun tag =>
  if tag = nmAttSwDescr then some (.fixed 1)
  else if tag = nmAttFileId then some .tlv
  else if tag = nmAttFileVersion then some .tlv
  else none

/-- The value of an attribute with a tag and one octet. -/
def tvValue (tag : UInt8) : List UInt8 → Option UInt8
  | [t, v] => if t = tag then some v else none
  | _ => none

/-- The value of an attribute with a tag and a length. -/
def tlvValue (tag : UInt8) : List UInt8 → Option (List UInt8)
  | t :: _ :: _ :: value => if t = tag then some value else none
  | _ => none

/-- OPER_STATE, AVAIL_STATUS and ADM_STATE of a report. -/
def operState (opState : UInt8) : Element reportAttr := ⟨[nmAttOperState, opState], .fixed rfl rfl⟩

def availStatus (avStatus : UInt8) : Element reportAttr :=
  ⟨[nmAttAvailStatus, 0x00, 0x01, avStatus], .tlv rfl rfl⟩

def admState (state : UInt8) : Element reportAttr := ⟨[nmAttAdmState, state], .fixed rfl rfl⟩

/-- SW_DESCR, FILE_ID and FILE_VERSION of a request, and the SW_CONFIG that holds them. -/
def swDescr : Element swConfigPart := ⟨[nmAttSwDescr], .fixed rfl rfl⟩

def fileId : Element swConfigPart := ⟨nmAttFileId :: 0x00 :: 0x08 :: swFileId, .tlv rfl rfl⟩

def fileVersion : Element swConfigPart :=
  ⟨nmAttFileVersion :: 0x00 :: 0x0a :: (swFileVer ++ [0x00]), .tlv rfl rfl⟩

def swConfig : Element requestAttr :=
  ⟨nmAttSwConfig :: 0x00 :: 0x19 :: flatten [swDescr, fileId, fileVersion], .tlv rfl rfl⟩

/-- The octets after the headers are the attributes of the call, one after the other. -/
def AttrsExact (attrs : List UInt8) : BuilderCall → Prop
  | .swActivateRequest _ => ∃ config : Element requestAttr, flatten [config] = attrs ∧
      ∃ descr fileId fileVer : Element swConfigPart,
        tlvValue nmAttSwConfig config.octets = some (flatten [descr, fileId, fileVer]) ∧
          descr.octets = [nmAttSwDescr] ∧ tlvValue nmAttFileId fileId.octets = some swFileId ∧
          tlvValue nmAttFileVersion fileVer.octets = some (swFileVer ++ [0x00])
  | .stateChangedEventReport _ opState avStatus admState =>
      ∃ oper avail adm : Element reportAttr, flatten [oper, avail, adm] = attrs ∧
        tvValue nmAttOperState oper.octets = some opState ∧
          tlvValue nmAttAvailStatus avail.octets = some [avStatus] ∧
          tvValue nmAttAdmState adm.octets = some admState
  | _ => attrs = []

theorem attrsExact_frame (c : BuilderCall) : AttrsExact (attrsOf c.frame) c := by
  cases c with
  | swActivateRequest o =>
      exact ⟨swConfig, rfl, swDescr, fileId, fileVersion, rfl, rfl, rfl, rfl⟩
  | stateChangedEventReport o op av adm =>
      exact ⟨operState op, availStatus av, admState adm, rfl, rfl, rfl, rfl⟩
  | _ => rfl

/-! ### A decoder -/

/-- A formatted O&M message taken apart by its lengths. -/
structure Fom where
  msgType : UInt8
  obj : ObjInst
  attrs : List UInt8

def parseFom : List UInt8 → Option Fom
  | hi :: lo :: proto :: mdisc :: placement :: sequence :: length :: msgType :: objClass :: btsNr ::
      trxNr :: tsNr :: attrs =>
      if be16 hi lo = attrs.length + 9 ∧ proto = protoOml ∧ mdisc = abisOmMdiscFom ∧
          placement = abisOmPlacementOnly ∧ sequence = 0x00 ∧ length.toNat = attrs.length + 5 then
        some ⟨msgType, ⟨objClass, btsNr, trxNr, tsNr⟩, attrs⟩
      else none
  | _ => none

/-- The states of a State Changed Event Report. -/
def decodeReport (attrs : List UInt8) : Option (UInt8 × UInt8 × UInt8) :=
  match split reportAttr attrs with
  | some [oper, avail, adm] =>
      match tvValue nmAttOperState oper, tlvValue nmAttAvailStatus avail, tvValue nmAttAdmState adm with
      | some opState, some [avStatus], some admState => some (opState, avStatus, admState)
      | _, _, _ => none
  | _ => none

/-- The file identity and the file version of a SW Activate Request. -/
def decodeSwConfig (attrs : List UInt8) : Option (List UInt8 × List UInt8) :=
  match split requestAttr attrs with
  | some [config] =>
      match (tlvValue nmAttSwConfig config).bind (split swConfigPart) with
      | some [descr, fileId, fileVer] =>
          match tlvValue nmAttFileId fileId, tlvValue nmAttFileVersion fileVer with
          | some id, some ver => if descr = [nmAttSwDescr] then some (id, ver) else none
          | _, _ => none
      | _ => none
  | _ => none

/-- The call that sends a frame. -/
def decodeCall (frame : List UInt8) : Option BuilderCall :=
  (parseFom frame).bind fun f =>
    if f.msgType = nmMtSwActReq then
      if decodeSwConfig f.attrs = some (swFileId, swFileVer ++ [0x00]) then
        some (.swActivateRequest f.obj)
      else none
    else if f.msgType = nmMtStatechgEventRep then
      (decodeReport f.attrs).map fun s => .stateChangedEventReport f.obj s.1 s.2.1 s.2.2
    else if f.attrs ≠ [] then none
    else if f.msgType = nmMtSwActivatedRep then some (.swActivatedReport f.obj)
    else if f.msgType = nmMtOpstartAck then some (.opstartAck f.obj)
    else if f.msgType = nmMtActivateSwAck then some (.swActivateAck f.obj)
    else if f.msgType = nmMtSetBtsAttrAck then some (.btsSetAttrAck f.obj)
    else if f.msgType = nmMtChgAdmStateAck then some (.chgAdmStateAck f.obj)
    else none

theorem decodeReport_flatten (op av adm : UInt8) :
    decodeReport (flatten [operState op, availStatus av, admState adm]) = some (op, av, adm) := by
  rw [decodeReport, split_flatten]
  rfl

theorem decodeSwConfig_flatten :
    decodeSwConfig (flatten [swConfig]) = some (swFileId, swFileVer ++ [0x00]) := by
  have hvalue : tlvValue nmAttSwConfig swConfig.octets =
      some (flatten [swDescr, fileId, fileVersion]) := rfl
  rw [decodeSwConfig, split_flatten]
  simp only [List.map_cons, List.map_nil, hvalue, Option.bind_some, split_flatten]
  rfl

theorem decodeCall_frame (c : BuilderCall) : decodeCall c.frame = some c := by
  cases c with
  | swActivateRequest o =>
      have hparse : parseFom (swActReqFrame o) = some ⟨nmMtSwActReq, o, flatten [swConfig]⟩ := rfl
      rw [BuilderCall.frame, decodeCall, hparse, Option.bind_some, if_pos rfl, decodeSwConfig_flatten,
        if_pos rfl]
  | stateChangedEventReport o op av adm =>
      have hparse : parseFom (reportFrame o op av adm) =
          some ⟨nmMtStatechgEventRep, o, flatten [operState op, availStatus av, admState adm]⟩ := rfl
      have hne : nmMtStatechgEventRep ≠ nmMtSwActReq := by decide
      rw [BuilderCall.frame, decodeCall, hparse, Option.bind_some, if_neg hne, if_pos rfl,
        decodeReport_flatten]
      rfl
  | _ => rfl

/-! ### The decoder accepts nothing else -/

theorem octets_of_tvValue {tag v : UInt8} {octets : List UInt8} (h : tvValue tag octets = some v) :
    octets = [tag, v] := by
  unfold tvValue at h
  split at h
  · split_ifs at h with htag
    obtain rfl := Option.some.inj h
    rw [htag]
  · cases h

theorem octets_of_tlvValue {g : Grammar} {octets : List UInt8} {tag : UInt8} {value : List UInt8}
    (he : IsElement g octets) (htlv : g tag = some .tlv) (h : tlvValue tag octets = some value) :
    octets = tag :: octets16 value.length ++ value := by
  cases he with
  | fixed htag hsize =>
      unfold tlvValue at h
      split at h
      · next hcons =>
          obtain ⟨rfl, -⟩ := List.cons.inj hcons
          split_ifs at h with hsame
          rw [hsame, htlv] at htag
          cases htag
      · cases h
  | tlv htag hlength =>
      simp only [tlvValue] at h
      split_ifs at h with hsame
      obtain rfl := Option.some.inj h
      rw [hlength, octets16_be16, hsame]
      rfl

theorem attrs_of_decodeReport {attrs : List UInt8} {op av adm : UInt8}
    (h : decodeReport attrs = some (op, av, adm)) :
    attrs = flatten [operState op, availStatus av, admState adm] := by
  unfold decodeReport at h
  split at h
  · next oper avail admin hsplit =>
      obtain ⟨rfl, hparts⟩ := flatten_of_split hsplit
      split at h
      · next hop hav hadm =>
          obtain ⟨rfl, rfl, rfl⟩ : _ = op ∧ _ = av ∧ _ = adm := by simpa using h
          rw [octets_of_tvValue hop, octets_of_tvValue hadm,
            octets_of_tlvValue (hparts avail (by simp)) rfl hav]
          simp [flatten, operState, availStatus, admState, octets16]
      · cases h
  · cases h

theorem attrs_of_decodeSwConfig {attrs : List UInt8}
    (h : decodeSwConfig attrs = some (swFileId, swFileVer ++ [0x00])) :
    attrs = flatten [swConfig] := by
  unfold decodeSwConfig at h
  split at h
  · next config hsplit =>
      obtain ⟨rfl, hconfig⟩ := flatten_of_split hsplit
      split at h
      · next descr id ver hvalue =>
          obtain ⟨value, hvalue, hparts⟩ := Option.bind_eq_some_iff.mp hvalue
          obtain ⟨rfl, hmem⟩ := flatten_of_split hparts
          split at h
          · next hid hver =>
              split_ifs at h with hdescr
              obtain ⟨rfl, rfl⟩ := Prod.mk.inj (Option.some.inj h)
              rw [octets_of_tlvValue (hconfig config (by simp)) rfl hvalue, hdescr,
                octets_of_tlvValue (hmem id (by simp)) rfl hid,
                octets_of_tlvValue (hmem ver (by simp)) rfl hver]
              rfl
          · cases h
      · cases h
  · cases h

/-- The octets of a message that is taken apart. -/
theorem octets_of_parseFom {octets : List UInt8} {f : Fom} (h : parseFom octets = some f) :
    octets = octets16 (f.attrs.length + 9) ++ [protoOml, abisOmMdiscFom, abisOmPlacementOnly, 0x00,
      UInt8.ofNat (f.attrs.length + 5), f.msgType, f.obj.objClass, f.obj.btsNr, f.obj.trxNr,
      f.obj.tsNr] ++ f.attrs := by
  unfold parseFom at h
  split at h
  · split_ifs at h with hlengths
    obtain ⟨hhead, rfl, rfl, rfl, rfl, hom⟩ := hlengths
    obtain rfl := Option.some.inj h
    rw [← hhead, octets16_be16, ← hom, UInt8.ofNat_toNat]
    rfl
  · cases h

/-- A frame that the decoder accepts is the one that the call sends. -/
theorem frame_of_decodeCall {octets : List UInt8} {c : BuilderCall}
    (h : decodeCall octets = some c) : octets = c.frame := by
  obtain ⟨f, hparse, h⟩ := Option.bind_eq_some_iff.mp h
  rw [octets_of_parseFom hparse]
  split_ifs at h with hreq hconfig hreport hattrs h1 h2 h3 h4 h5
  · obtain rfl := Option.some.inj h
    rw [attrs_of_decodeSwConfig hconfig, hreq]
    rfl
  · obtain ⟨⟨op, av, adm⟩, hstates, rfl⟩ := Option.map_eq_some_iff.mp h
    rw [attrs_of_decodeReport hstates, hreport]
    simp [flatten, operState, availStatus, admState, octets16, BuilderCall.frame, reportFrame]
  · obtain rfl := Option.some.inj h
    rw [not_not.mp hattrs, h1]
    rfl
  · obtain rfl := Option.some.inj h
    rw [not_not.mp hattrs, h2]
    rfl
  · obtain rfl := Option.some.inj h
    rw [not_not.mp hattrs, h3]
    rfl
  · obtain rfl := Option.some.inj h
    rw [not_not.mp hattrs, h4]
    rfl
  · obtain rfl := Option.some.inj h
    rw [not_not.mp hattrs, h5]
    rfl

/-- **The decoder accepts a frame as what a call sends and as nothing else.** -/
theorem decodeCall_eq_some_iff {octets : List UInt8} {c : BuilderCall} :
    decodeCall octets = some c ↔ octets = c.frame :=
  ⟨frame_of_decodeCall, fun h => h ▸ decodeCall_frame c⟩

/-- **Round trip.** Whatever the buffer held, a builder sends one frame, in which the lengths agree
and the octets that the length of the O&M header leaves for attributes are exactly those of the call;
the decoder gets the call back. -/
theorem builders_roundTrip (c : BuilderCall) :
    ∃ frame, (∀ sd h, (c.run sd h).sent = h.sent ++ [⟨sd, frame, h.bts⟩]) ∧ LengthsAgree frame ∧
      (attrsOf frame).length + 5 = (frame.getD omLength 0).toNat ∧ AttrsExact (attrsOf frame) c ∧
      decodeCall frame = some c := by
  have hlengths := lengthsAgree_frame c
  refine ⟨c.frame, fun sd h => ?_, hlengths, hlengths.length_attrsOf, attrsExact_frame c,
    decodeCall_frame c⟩
  rw [BuilderCall.run_eq, Handling.deliver_sent]

end SoftBts
