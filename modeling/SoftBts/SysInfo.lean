import SoftBts.RslReports

/-! System Information messages that are built from values of their fields and carried in a BCCH
INFORMATION message: what `rsl_msg` puts into the log of them, beside the fields that the labels
name. -/

namespace SoftBts.Rsl

open Octets BitFields

/-! ### Messages and labels -/

inductive SysInfoType where
  | type1
  | type2
  | type3
  deriving DecidableEq

namespace SysInfoType

def code : SysInfoType → BitVec 8
  | type1 => 0x01
  | type2 => 0x02
  | type3 => 0x03

/-- The fields of the 23 octets. -/
def body : SysInfoType → Struct
  | type1 => systemInformationType1VarBit
  | type2 => systemInformationType2
  | type3 => systemInformationType3

/-- The tag and the length of the element that has the body. -/
def elementHead : Struct where
  members := [.bcchEi, .bcchLength]

def message (t : SysInfoType) : Struct := rslHdr ++ rslCch ++ rslSysInfo ++ elementHead ++ t.body

/-- The fields of the message: those around the body are the ones of a BCCH INFORMATION. -/
def carried (t : SysInfoType) (v : Values) : Values
  | .discrT => 0
  | .discrMsgGroup => 0x06
  | .cchMsgType => 0x11
  | .sysInfoEi => 0x1e
  | .sysInfoType => t.code
  | .bcchEi => 0x27
  | .bcchLength => 23
  | i => v i

def frame (t : SysInfoType) (v : Values) : Frame where
  proto := protoRsl
  body := t.message.encode (t.carried v)
  length_le := by
    rw [Record.length_encode]
    cases t <;> decide

/-- The labels that the three types have in common. -/
def headLabels : List Label := [.fixedBits, .pseudoLength, .skip, .discr, .messageType]

def rachLabels : List Label :=
  [.callReEstablishment, .cellBarAccess, .txInteger, .maxRetrans, .emergencyCall, .classes15To11,
    .classes9To8, .classes7To0]

/-- The labels of a type before the RACH control parameters. -/
def ownLabels (t : SysInfoType) (v : Values) : List Label :=
  match t with
  | type1 =>
      .formatHigh :: .formatLow ::
        if v .formatIdHigh = 2 ∧ v .formatIdLow = 7 then
          [.arfcnHigh, .arfcnMid, .arfcnLow, .arfcn, .arfcnList]
        else []
  | type2 =>
      [.baInd, .extInd, .channels128To127, .channels124To121, .channels120To0, .nccPermitted]
  | type3 =>
      let digits : List Label := if v .mnc3 ≠ 0x0f then [.mnc1, .mnc2, .mnc3] else [.mnc1, .mnc2]
      let others : List Label := [.lac, .lacCont, .att, .ccchConf, .bsAgBlksRes, .bsPaMfrms, .t3212,
        .pwrc, .dtx, .radioLinkTimeout, .radioLinkTimeoutFrames, .msTxpwrMaxCcch,
        .cellReselectHysteresis, .rxlevAccessMin, .neci, .acs]
      .ci :: .ciCont :: .mcc1 :: .mcc2 :: .mcc3 :: digits ++ others

/-- The labels behind them. -/
def restLabels : SysInfoType → List Label
  | type1 => [.nchValue]
  | _ => []

/-- The labels under which the body of a type is reported. -/
def bodyLabels (t : SysInfoType) (v : Values) : List Label :=
  headLabels ++ t.ownLabels v ++ rachLabels ++ t.restLabels

/-- The labels under which a message is reported. -/
def labels (t : SysInfoType) (v : Values) : List Label :=
  .tBit :: .messageGroup :: .cchMessageType :: .cchElement :: .tnBits :: .cBits ::
    .sysInfoElement :: .sysInfoType :: .bcchElement :: .length :: .l3 :: t.bodyLabels v

end SysInfoType

/-- The field that a label names. -/
def Label.field : Label → Member
  | tBit => .discrT
  | messageGroup => .discrMsgGroup
  | cchMessageType => .cchMsgType
  | cchElement => .cchEi
  | tnBits => .chanTn
  | cBits => .chanNr
  | sysInfoElement => .sysInfoEi
  | sysInfoType => .sysInfoType
  | bcchElement => .bcchEi
  | length => .bcchLength
  | l3 => .l3Msg
  | fixedBits => .fb
  | pseudoLength => .plv
  | skip => .skip
  | discr => .discr
  | messageType => .msgType
  | formatHigh => .formatIdHigh
  | formatLow => .formatIdLow
  | arfcnHigh => .origArfcnHi
  | arfcnMid | arfcn => .origArfcnMid
  | arfcnLow => .origArfcnLo
  | arfcnList => .rrfcn8To111
  | nchValue => .si1
  | baInd => .baInd
  | extInd => .extInd
  | channels128To127 => .chNr128To127
  | channels124To121 => .chNr124To121
  | channels120To0 => .chNr120To00
  | nccPermitted => .nccPermitted
  | callReEstablishment => .re
  | cellBarAccess => .cellBarAccess
  | txInteger => .txInteger
  | maxRetrans => .maxRetrans
  | emergencyCall => .ec
  | classes15To11 => .ac15To11
  | classes9To8 => .ac8To9
  | classes7To0 => .ac7To0
  | ci => .ci1
  | ciCont => .ci2
  | mcc1 => .mcc1
  | mcc2 => .mcc2
  | mcc3 => .mcc3
  | mnc1 => .mnc1
  | mnc2 => .mnc2
  | mnc3 => .mnc3
  | lac => .lac
  | lacCont => .lacCont
  | att => .att
  | ccchConf => .ccchConf
  | bsAgBlksRes => .bsAgBlksRes
  | bsPaMfrms => .bsPaMfrms
  | t3212 => .t3212
  | pwrc => .pwrc
  | dtx => .dtx
  | radioLinkTimeout | radioLinkTimeoutFrames => .radioLinkTimeout
  | msTxpwrMaxCcch => .msTxpwrMaxCcch
  | cellReselectHysteresis => .cellReselHyst
  | rxlevAccessMin => .rxlevAccMin
  | neci => .neci
  | acs => .acs
  | selection => .selPresent
  | cbq => .cbq
  | cellReselectOffset => .cellReselOff
  | temporaryOffset => .tempOffs
  | penaltyTime => .penaltyTime
  | power => .poPresent
  | powerOffset => .powerOffset

/-- The value of the field that a label names, or what is worked out from it. -/
def SysInfoType.named (t : SysInfoType) (v : Values) : Label → Value
  | .l3 => .octets (t.body.encode v)
  | .arfcn => .number (512 * (v .origArfcnHi).toNat + 2 * (v .origArfcnMid).toNat +
      (v .origArfcnLo).toNat)
  | .arfcnList => .octets (octets 13 (v .rrfcn8To111).toNat)
  | .channels120To0 => .octets (octets 15 (v .chNr120To00).toNat)
  | .nchValue => .number ((v .si1).toNat % 32)
  | .radioLinkTimeoutFrames => .number (4 * (v .radioLinkTimeout).toNat + 4)
  | label => .number (v label.field).toNat

/-- What is reported of a message under each label is the field that it was built from. -/
def ReportsFields (t : SysInfoType) (v : Values) (log : Log) : Prop :=
  log.reports.map Report.content =
    (t.labels v).map fun label => (label, t.named (t.carried v) label)

/-! ### The message in the buffer -/

theorem load_frame_body (f : Frame) (m : Mem) :
    (f.into m).load headData f.body.length = f.body := by
  rw [Mem.load_eq_iff rfl]
  intro i hi
  have hlt : headData + i < f.octets.length := by
    rw [Frame.length_octets, headData]
    omega
  have hget := Mem.store_add_apply m 0 (headData + i) f.octets hlt
  rw [Nat.zero_add] at hget
  rw [Frame.into, hget]
  simp [Frame.octets, octets16, headData, Nat.add_comm]

section Built

variable {t : SysInfoType} {w : Values} {m : Mem}

/-- The buffer has the message with these fields. -/
structure Buffered (t : SysInfoType) (w : Values) (m : Mem) : Prop where
  header : hdr.Holds m w
  channel : cch.Holds m w
  info : sysInfo.Holds m w
  element : Overlay.Holds ⟨SysInfoType.elementHead, sysInfo.past⟩ m w
  body : Overlay.Holds ⟨t.body, bcch.address .l3Msg⟩ m w

theorem buffered_of_holds (h : Overlay.Holds ⟨t.message, headData⟩ m w) : Buffered t w m := by
  obtain ⟨hfour, hbody⟩ := Overlay.holds_append.mp h
  obtain ⟨hthree, helement⟩ := Overlay.holds_append.mp hfour
  obtain ⟨htwo, hsysInfo⟩ := Overlay.holds_append.mp hthree
  obtain ⟨hhdr, hcch⟩ := Overlay.holds_append.mp htwo
  exact ⟨hhdr, hcch, hsysInfo, helement, hbody⟩

theorem buffered_frame (t : SysInfoType) (v : Values) (m : Mem) :
    Buffered t (t.carried v) ((t.frame v).into m) := by
  apply buffered_of_holds
  have hload := load_frame_body (t.frame v) m
  have hlength : (t.frame v).body.length = t.message.size := Record.length_encode _
  rw [hlength] at hload
  exact hload

/-- A field that is read through a struct that has it at the same place. -/
theorem read_laid {r r' : Struct} {base : Nat} {i : Member} (h : Overlay.Holds ⟨r', base⟩ m w)
    (hi : i ∈ r'.members ∧ r.offset i = r'.offset i) : Overlay.read ⟨r, base⟩ m i = w i :=
  (Overlay.read_eq_of_offset hi.2).trans (Overlay.read_of_holds h hi.1)

theorem sayAll_content {r r' : Struct} {base : Nat} {lines : List (Label × Member)}
    (h : Overlay.Holds ⟨r', base⟩ m w)
    (hlines : ∀ line ∈ lines, line.2 ∈ r'.members ∧ r.offset line.2 = r'.offset line.2) :
    (sayAll ⟨r, base⟩ m lines).map Report.content =
      lines.map fun line => (line.1, .number (w line.2).toNat) := by
  rw [sayAll, List.map_map]
  apply List.map_congr_left
  intro line hline
  show (line.1, Value.number (Overlay.read ⟨r, base⟩ m line.2).toNat) = _
  rw [read_laid h (hlines line hline)]

/-- What is printed for a label: the access classes 15 to 11 for the label of 9 and 8, too. -/
def printed (t : SysInfoType) (w : Values) (label : Label) : Label × Value :=
  (label, if label = .classes9To8 then .number (w .ac15To11).toNat else t.named w label)

theorem bcchInfo_content (h : Buffered t w m) : (bcchInfo m).map Report.content =
    [Label.tBit, .messageGroup, .cchMessageType, .cchElement, .tnBits, .cBits, .sysInfoElement,
      .sysInfoType, .bcchElement, .length].map (printed t w) := by
  rw [bcchInfo, List.map_append, List.map_append, List.map_append, bcch,
    sayAll_content h.element (by decide), sysInfo, sayAll_content h.info (by decide), cch,
    sayAll_content h.channel (by decide), hdr, sayAll_content h.header (by decide)]
  rfl

theorem sysInfo2_content {l3 : Nat} (h : Overlay.Holds ⟨SysInfoType.type2.body, l3⟩ m w) :
    (sysInfo2 m l3).map Report.content =
      (SysInfoType.type2.bodyLabels w).map (printed .type2 w) := by
  have hdump : m.load (Overlay.address ⟨systemInformationType2, l3⟩ .chNr120To00) 15 =
      octets 15 (w .chNr120To00).toNat :=
    Overlay.load_member_of_holds h
      (show Member.chNr120To00 ∈ SysInfoType.type2.body.members by decide) rfl rfl
  rw [sysInfo2, List.map_append, List.map_append, sayAll_content h (by decide),
    sayAll_content h (by decide), List.map_singleton, Report.content, dump, hdump]
  rfl

theorem sysInfo3_content {l3 : Nat} (h : Overlay.Holds ⟨SysInfoType.type3.body, l3⟩ m w) :
    (sysInfo3 m l3).map Report.content =
      (SysInfoType.type3.bodyLabels w).map (printed .type3 w) := by
  have hmnc3 : Overlay.read ⟨systemInformationType3, l3⟩ m .mnc3 = w .mnc3 :=
    read_laid h (by decide)
  have htimeout : Overlay.read ⟨systemInformationType3, l3⟩ m .radioLinkTimeout =
      w .radioLinkTimeout := read_laid h (by decide)
  rw [sysInfo3, List.map_append, List.map_append, List.map_append, List.map_append,
    sayAll_content h (by decide), sayAll_content h (by split_ifs <;> decide),
    sayAll_content h (by decide), sayAll_content h (by decide)]
  simp only [hmnc3, htimeout, List.map_singleton, Report.content, SysInfoType.bodyLabels,
    SysInfoType.ownLabels]
  split_ifs
  · rfl
  · rfl

theorem arfcn_eq (hi : Nat) {mid lo : Nat} (hmid : mid < 2 ^ 8) (hlo : lo < 2 ^ 1) :
    hi <<< 9 ||| mid <<< 1 ||| lo = 512 * hi + 2 * mid + lo := by
  have hlow : mid <<< 1 + lo < 2 ^ 9 := by
    rw [Nat.shiftLeft_eq]
    omega
  rw [Nat.or_assoc, ← Nat.shiftLeft_add_eq_or_of_lt hlo, ← Nat.shiftLeft_add_eq_or_of_lt hlow,
    Nat.shiftLeft_eq, Nat.shiftLeft_eq]
  omega

/-- The octets of the cell channel description, as the variable bit map. -/
theorem variableBitMap_content {chd : Nat} (h : Overlay.Holds ⟨cellVarBit, chd⟩ m w) :
    (variableBitMap m chd).map Report.content =
      ([.arfcnHigh, .arfcnMid, .arfcnLow, .arfcn, .arfcnList] : List Label).map
        (printed .type1 w) := by
  have hread : ∀ i ∈ cellVarBit.members, Overlay.read ⟨cellVarBit, chd⟩ m i = w i :=
    fun i => Overlay.read_of_holds h
  have hhi := hread .origArfcnHi (by decide)
  have hmid := hread .origArfcnMid (by decide)
  have hlo := hread .origArfcnLo (by decide)
  have hdump : m.load (Overlay.address ⟨cellVarBit, chd⟩ .rrfcn8To111) 13 =
      octets 13 (w .rrfcn8To111).toNat :=
    Overlay.load_member_of_holds h (show Member.rrfcn8To111 ∈ cellVarBit.members by decide) rfl rfl
  have harfcn := arfcn_eq (w .origArfcnHi).toNat (w .origArfcnMid).isLt (w .origArfcnLo).isLt
  rw [variableBitMap, List.map_append, sayAll_content h (by decide)]
  simp only [List.map_cons, List.map_nil, Report.content, dump, hhi, hmid, hlo, hdump, harfcn]
  rfl

theorem sysInfo1_content {l3 : Nat} (h : Overlay.Holds ⟨SysInfoType.type1.body, l3⟩ m w) :
    (sysInfo1 m l3).map Report.content =
      (SysInfoType.type1.bodyLabels w).map (printed .type1 w) := by
  have hhigh : Overlay.read ⟨systemInformationType1, l3⟩ m .formatIdHigh = w .formatIdHigh :=
    read_laid h (by decide)
  have hlow : Overlay.read ⟨systemInformationType1, l3⟩ m .formatIdLow = w .formatIdLow :=
    read_laid h (by decide)
  have hsi1 : Overlay.read ⟨systemInformationType1, l3⟩ m .si1 = w .si1 := read_laid h (by decide)
  have hnch : 0x1f &&& (w .si1).toNat = (w .si1).toNat % 32 := by
    rw [Nat.and_comm]
    exact Nat.and_two_pow_sub_one_eq_mod _ 5
  have hchd : Overlay.Holds ⟨cellVarBit,
      Overlay.address ⟨systemInformationType1, l3⟩ .bit121⟩ m w := by
    obtain ⟨hbefore, -⟩ := Overlay.holds_append.mp h
    obtain ⟨hbefore, -⟩ := Overlay.holds_append.mp hbefore
    exact (Overlay.holds_append.mp hbefore).2
  rw [sysInfo1, List.map_append, List.map_append, List.map_append, sayAll_content h (by decide),
    sayAll_content h (by decide)]
  simp only [hhigh, hlow, hsi1, hnch, List.map_singleton, Report.content, SysInfoType.bodyLabels,
    SysInfoType.ownLabels]
  split_ifs
  · rw [variableBitMap_content hchd]
    rfl
  · rfl

theorem bodyReports_content (h : Buffered t w m) (htype : w .sysInfoType = t.code)
    (hlength : w .bcchLength = 23) :
    (bcchInfo m ++ bodyReports m).map Report.content = (t.labels w).map (printed t w) := by
  have hread : sysInfo.read m .sysInfoType = t.code :=
    (Overlay.read_of_holds h.info (by decide)).trans htype
  have hcount : bcch.read m .bcchLength = 23 := (read_laid h.element (by decide)).trans hlength
  have hsize : t.body.size = 23 := by cases t <;> decide
  have hdump : m.load (bcch.address .l3Msg) 23 = t.body.encode w := by
    have hload := h.body
    unfold Overlay.Holds at hload
    rw [← hsize]
    exact hload
  have hl3 : (dump bcch m .l3 .l3Msg (bcch.read m .bcchLength).toNat).content =
      printed t w .l3 := by
    rw [hcount]
    exact congrArg (fun os => (Label.l3, Value.octets os)) hdump
  have hbody : (bodyReports m).map Report.content =
      printed t w .l3 :: (t.bodyLabels w).map (printed t w) := by
    rw [bodyReports, List.map_cons, hl3, hread]
    cases t with
    | type1 => rw [if_pos (by decide), sysInfo1_content h.body]
    | type2 => rw [if_neg (by decide), if_pos (by decide), sysInfo2_content h.body]
    | type3 =>
        rw [if_neg (by decide), if_neg (by decide), if_pos (by decide), sysInfo3_content h.body]
  rw [List.map_append, bcchInfo_content h, hbody]
  rfl

end Built

/-- What is printed of a message that was built from fields. -/
theorem rslMsg_content (t : SysInfoType) (v : Values) (l : Locals) (m : Mem) :
    (rslMsg l ((t.frame v).into m)).reports.map Report.content =
      (t.labels v).map (printed t (t.carried v)) := by
  have h := buffered_frame t v m
  have htransparency : hdr.read ((t.frame v).into m) .discrT = 0 :=
    Overlay.read_of_holds h.header (by decide)
  have hgroup : hdr.read ((t.frame v).into m) .discrMsgGroup = 0x06 :=
    Overlay.read_of_holds h.header (by decide)
  have htype : cch.read ((t.frame v).into m) .cchMsgType = 0x11 :=
    Overlay.read_of_holds h.channel (by decide)
  rw [rslMsg, htransparency, if_neg (by decide), if_pos hgroup, rslMgCch, if_pos htype]
  exact bodyReports_content h rfl rfl

theorem classes9To8_mem (t : SysInfoType) (v : Values) : .classes9To8 ∈ t.labels v := by
  simp [SysInfoType.labels, SysInfoType.bodyLabels, SysInfoType.rachLabels]

theorem classes_of_reportsFields {t : SysInfoType} {v : Values} {l : Locals} {m : Mem}
    (h : ReportsFields t v (rslMsg l ((t.frame v).into m))) :
    (v .ac15To11).toNat = (v .ac8To9).toNat := by
  rw [ReportsFields, rslMsg_content, List.map_inj_left] at h
  have hclasses := h .classes9To8 (classes9To8_mem t v)
  exact Value.number.inj (Prod.mk.inj hclasses).2

/-- Every 23 octets are the body of a message of each type. -/
theorem exists_fields (t : SysInfoType) {os : List UInt8} (hos : os.length = 23) :
    ∃ v : Values, t.body.encode v = os := by
  have hsize : t.body.size = 23 := by cases t <;> decide
  have hnodup : t.body.members.Nodup := by cases t <;> decide
  exact Record.exists_encode hnodup (hos.trans hsize.symm)

/-- **Decoding System Information.** For every message of the three types that is built from any
values of its fields, over whatever was in the buffer, what is reported under each label is the field
that the label names if and only if the access classes 15 to 11 and 9 and 8 are the same number. -/
theorem reportsFields_iff (t : SysInfoType) (v : Values) (l : Locals) (m : Mem) :
    ReportsFields t v (rslMsg l ((t.frame v).into m)) ↔
      (v .ac15To11).toNat = (v .ac8To9).toNat := by
  refine ⟨classes_of_reportsFields, fun heq => ?_⟩
  rw [ReportsFields, rslMsg_content, List.map_inj_left]
  intro label _
  rw [printed]
  split_ifs with hlabel
  · subst hlabel
    exact congrArg (fun n => (Label.classes9To8, Value.number n)) heq
  · rfl

/-- Only access class 11 is barred, and 8 is reported to be. -/
theorem reportsFields_class11 :
    let v : Values := fun i => if i = .ac15To11 then BitVec.ofNat i.width 1 else 0
    let log := rslMsg ⟨0, none⟩ ((SysInfoType.type2.frame v).into Mem.blank)
    (v .ac8To9).toNat = 0 ∧
      (Label.classes9To8, Value.number 1) ∈ log.reports.map Report.content ∧
      ¬ ReportsFields .type2 v log := by
  refine ⟨by decide, ?_, fun h => ?_⟩
  · rw [rslMsg_content]
    exact List.mem_map.mpr ⟨.classes9To8, classes9To8_mem _ _, by decide⟩
  · have hclasses := classes_of_reportsFields h
    revert hclasses
    decide

end SoftBts.Rsl
