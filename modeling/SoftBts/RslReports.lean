import SoftBts.OwnOctets
import SoftBts.RestOctets

/-! What the messages of the radio link put into the log (`abis_rsl.c`), and the System Information
messages that are built from values of their fields and carried in a BCCH INFORMATION message. -/

namespace SoftBts.Rsl

open Octets BitFields

/-! ### The blocks of `rsl_mg_cch` -/

/-- What the blocks of the three types start with. -/
def headLines : List (Label × Member) :=
  [(.fixedBits, .fb), (.pseudoLength, .plv), (.skip, .skip), (.discr, .discr),
    (.messageType, .msgType)]

/-- The RACH control parameters, which are the same in the three blocks. -/
def rachLines : List (Label × Member) :=
  [(.callReEstablishment, .re), (.cellBarAccess, .cellBarAccess), (.txInteger, .txInteger),
    (.maxRetrans, .maxRetrans), (.emergencyCall, .ec), (.classes15To11, .ac15To11),
    -- the text `[9-8]` is given `rach_control.ac15_11`
    (.classes9To8, .ac15To11), (.classes7To0, .ac7To0)]

/-- The variable bit map, which is laid over `sys1->chd`. -/
def variableBitMap (m : Mem) (chd : Nat) : List Report :=
  let bits : Overlay Member.width := ⟨cellVarBit, chd⟩
  let hi := (bits.read m .origArfcnHi).toNat
  let mid := (bits.read m .origArfcnMid).toNat
  let lo := (bits.read m .origArfcnLo).toNat
  sayAll bits m
      [(.arfcnHigh, .origArfcnHi), (.arfcnMid, .origArfcnMid), (.arfcnLow, .origArfcnLo)] ++
    [{ label := .arfcn
       value := .number (hi <<< 9 ||| mid <<< 1 ||| lo)
       addresses := [Member.origArfcnHi, .origArfcnMid, .origArfcnLo].flatMap bits.addresses },
      dump bits m .arfcnList .rrfcn8To111 13]

/-- `case SYSTEM_INFORMATION_TYPE_1` -/
def sysInfo1 (m : Mem) (l3 : Nat) : List Report :=
  let sys1 : Overlay Member.width := ⟨systemInformationType1, l3⟩
  sayAll sys1 m (headLines ++ [(.formatHigh, .formatIdHigh), (.formatLow, .formatIdLow)]) ++
    (if sys1.read m .formatIdHigh = 2 ∧ sys1.read m .formatIdLow = 7 then
      variableBitMap m (sys1.address .bit121)
    else []) ++
    sayAll sys1 m rachLines ++
    [{ label := .nchValue
       value := .number (0x1f &&& (sys1.read m .si1).toNat)
       addresses := sys1.addresses .si1 }]

/-- `case SYSTEM_INFORMATION_TYPE_2` -/
def sysInfo2 (m : Mem) (l3 : Nat) : List Report :=
  let sys2 : Overlay Member.width := ⟨systemInformationType2, l3⟩
  sayAll sys2 m (headLines ++ [(.baInd, .baInd), (.extInd, .extInd),
      (.channels128To127, .chNr128To127), (.channels124To121, .chNr124To121)]) ++
    [dump sys2 m .channels120To0 .chNr120To00 15] ++
    sayAll sys2 m ((.nccPermitted, .nccPermitted) :: rachLines)

/-- `case SYSTEM_INFORMATION_TYPE_3`, up to the rest octets. -/
def sysInfo3 (m : Mem) (l3 : Nat) : List Report :=
  let sys3 : Overlay Member.width := ⟨systemInformationType3, l3⟩
  sayAll sys3 m (headLines ++ [(.ci, .ci1), (.ciCont, .ci2), (.mcc1, .mcc1), (.mcc2, .mcc2),
      (.mcc3, .mcc3)]) ++
    sayAll sys3 m
      (if sys3.read m .mnc3 ≠ 0x0f then [(.mnc1, .mnc1), (.mnc2, .mnc2), (.mnc3, .mnc3)]
      else [(.mnc1, .mnc1), (.mnc2, .mnc2)]) ++
    sayAll sys3 m [(.lac, .lac), (.lacCont, .lacCont), (.att, .att), (.ccchConf, .ccchConf),
      (.bsAgBlksRes, .bsAgBlksRes), (.bsPaMfrms, .bsPaMfrms), (.t3212, .t3212), (.pwrc, .pwrc),
      (.dtx, .dtx), (.radioLinkTimeout, .radioLinkTimeout)] ++
    [{ label := .radioLinkTimeoutFrames
       value := .number (4 * (sys3.read m .radioLinkTimeout).toNat + 4)
       addresses := sys3.addresses .radioLinkTimeout }] ++
    sayAll sys3 m ([(.msTxpwrMaxCcch, .msTxpwrMaxCcch), (.cellReselectHysteresis, .cellReselHyst),
      (.rxlevAccessMin, .rxlevAccMin), (.neci, .neci), (.acs, .acs)] ++ rachLines)

/-! ### `rsl_msg` -/

/-- What is printed of a message, and what `rest_octets_si3` does if it is called. -/
structure Log where
  reports : List Report
  rest : Option Rest

/-- The structs that `rsl_mg_cch` lays over a message, each one behind the last. -/
def hdr : Overlay Member.width := ⟨rslHdr, headData⟩

def cch : Overlay Member.width := ⟨rslCch, hdr.past⟩

def sysInfo : Overlay Member.width := ⟨rslSysInfo, cch.past⟩

def bcch : Overlay Member.width := ⟨rslFullBcch, sysInfo.past⟩

def hdrLines : List (Label × Member) := [(.tBit, .discrT), (.messageGroup, .discrMsgGroup)]

/-- What is printed of a BCCH INFORMATION before its body. -/
def bcchInfo (m : Mem) : List Report :=
  sayAll hdr m hdrLines ++
    sayAll cch m [(.cchMessageType, .cchMsgType), (.cchElement, .cchEi), (.tnBits, .chanTn),
      (.cBits, .chanNr)] ++
    sayAll sysInfo m [(.sysInfoElement, .sysInfoEi), (.sysInfoType, .sysInfoType)] ++
    sayAll bcch m [(.bcchElement, .bcchEi), (.length, .bcchLength)]

/-- What is printed of the body: the octets of the element, and what the block of its type prints. -/
def bodyReports (m : Mem) : List Report :=
  let l3 := bcch.address .l3Msg
  let type := sysInfo.read m .sysInfoType
  dump bcch m .l3 .l3Msg (bcch.read m .bcchLength).toNat ::
    if type = 0x01 then sysInfo1 m l3
    else if type = 0x02 then sysInfo2 m l3
    else if type = 0x03 then sysInfo3 m l3
    else []

/-- `rsl_mg_cch` -/
def rslMgCch (l : Locals) (m : Mem) : Log :=
  if cch.read m .cchMsgType = 0x11 then
    { reports := bcchInfo m ++ bodyReports m
      rest :=
        if sysInfo.read m .sysInfoType = 0x03 then
          some (restOctetsSi3 l m
            (Overlay.address ⟨systemInformationType3, bcch.address .l3Msg⟩ .si3Data))
        else none }
  else ⟨[], none⟩

/-- `rsl_msg` -/
def rslMsg (l : Locals) (m : Mem) : Log :=
  if hdr.read m .discrT = 0x01 then ⟨sayAll hdr m hdrLines, none⟩
  else if hdr.read m .discrMsgGroup = 0x06 then rslMgCch l m
  else if hdr.read m .discrMsgGroup = 0x08 then ⟨sayAll hdr m hdrLines, none⟩
  else ⟨[], none⟩

/-! ### What decides -/

/-- The message is taken for a BCCH INFORMATION. -/
def IsBcchInfo (m : Mem) : Prop := m headData = 0x0c ∧ m (headData + 1) = 0x11

section Reads

variable (m : Mem)

theorem read_discrT : (hdr.read m .discrT).toNat = (m headData).toNat % 2 := by
  have h : (hdr.read m .discrT).toNat = (m (headData + 0)).toNat / 2 ^ 0 % 2 ^ 1 :=
    Overlay.read_octet rfl
  rw [h, pow_zero, Nat.div_one]
  rfl

theorem read_discrMsgGroup : (hdr.read m .discrMsgGroup).toNat = (m headData).toNat / 2 := by
  have h : (hdr.read m .discrMsgGroup).toNat = (m (headData + 0)).toNat / 2 ^ 1 % 2 ^ 7 :=
    Overlay.read_octet rfl
  have hlt := (m headData).toNat_lt
  rw [h]
  show (m headData).toNat / 2 % 128 = _
  omega

/-- A member that is an octet. -/
theorem read_whole {r : Struct} {base k : Nat} {i : Member} (hoffset : r.offset i = 8 * k + 0)
    (hwidth : i.width = 8) : (Overlay.read ⟨r, base⟩ m i).toNat = (m (base + k)).toNat := by
  have hlt := (m (base + k)).toNat_lt
  rw [Overlay.read_octet hoffset (by omega) (by omega), hwidth, pow_zero, Nat.div_one]
  exact Nat.mod_eq_of_lt hlt

theorem read_cchMsgType : cch.read m .cchMsgType = 0x11 ↔ m (headData + 1) = 0x11 := by
  have h : (cch.read m .cchMsgType).toNat = (m (headData + 1)).toNat :=
    read_whole m (k := 0) rfl rfl
  rw [← BitVec.toNat_inj, h, ← UInt8.toNat_inj]
  rfl

theorem read_sysInfoType {t : BitVec 8} :
    sysInfo.read m .sysInfoType = t ↔ (m (headData + 5)).toNat = t.toNat := by
  have h : (sysInfo.read m .sysInfoType).toNat = (m (headData + 5)).toNat :=
    read_whole m (k := 1) rfl rfl
  rw [← BitVec.toNat_inj, h]

theorem read_bcchLength : (bcch.read m .bcchLength).toNat = (m (headData + 7)).toNat :=
  read_whole m (k := 1) rfl rfl

theorem isBcchInfo_iff : IsBcchInfo m ↔
    hdr.read m .discrT ≠ 0x01 ∧ hdr.read m .discrMsgGroup = 0x06 ∧ cch.read m .cchMsgType = 0x11 := by
  have htransparency := read_discrT m
  have hgroup := read_discrMsgGroup m
  rw [IsBcchInfo, read_cchMsgType, ← and_assoc, Ne, ← BitVec.toNat_inj, ← BitVec.toNat_inj,
    htransparency, hgroup, ← UInt8.toNat_inj]
  apply and_congr_left'
  show (m headData).toNat = 12 ↔ ¬ (m headData).toNat % 2 = 1 ∧ (m headData).toNat / 2 = 6
  omega

end Reads

section Log

variable {l : Locals} {m : Mem}

/-- Nothing, or the transparency and the group. -/
theorem rslMsg_other (h : ¬ IsBcchInfo m) :
    ((rslMsg l m).reports = [] ∨ (rslMsg l m).reports = sayAll hdr m hdrLines) ∧
      (rslMsg l m).rest = none := by
  rw [isBcchInfo_iff] at h
  rw [rslMsg]
  split_ifs with htransparency hgroup htrx
  · exact ⟨Or.inr rfl, rfl⟩
  · have htype : ¬ cch.read m .cchMsgType = 0x11 := fun htype => h ⟨htransparency, hgroup, htype⟩
    rw [rslMgCch, if_neg htype]
    exact ⟨Or.inl rfl, rfl⟩
  · exact ⟨Or.inr rfl, rfl⟩
  · exact ⟨Or.inl rfl, rfl⟩

theorem rslMsg_bcchInfo (h : IsBcchInfo m) :
    (rslMsg l m).reports = bcchInfo m ++ bodyReports m ∧
      (rslMsg l m).rest = if m (headData + 5) = 0x03 then some (restOctetsSi3 l m (headData + 27))
        else none := by
  obtain ⟨htransparency, hgroup, htype⟩ := (isBcchInfo_iff m).mp h
  have hthree : sysInfo.read m .sysInfoType = 0x03 ↔ m (headData + 5) = 0x03 := by
    rw [read_sysInfoType, ← UInt8.toNat_inj]
    rfl
  rw [rslMsg, if_neg htransparency, if_pos hgroup, rslMgCch, if_pos htype]
  refine ⟨rfl, ?_⟩
  by_cases hsi3 : m (headData + 5) = 0x03
  · rw [if_pos hsi3]
    exact if_pos (hthree.mpr hsi3)
  · rw [if_neg hsi3]
    exact if_neg (hthree.not.mpr hsi3)

theorem isCch_iff : IsCch m ↔ m headData = 0x0c := by
  have hlt := (m headData).toNat_lt
  rw [IsCch, ← UInt8.toNat_inj, ← UInt8.toNat_inj, ← UInt8.toNat_inj, UInt8.toNat_mod,
    UInt8.toNat_div]
  show (m headData).toNat % 2 = 0 ∧ (m headData).toNat / 2 = 6 ↔ (m headData).toNat = 12
  omega

theorem restOctetsSi3_stop (l : Locals) (m : Mem) (si3 : Nat) : (restOctetsSi3 l m si3).stop =
    if l.octets = 1 ∨ l.poii.isSome = true then none else some .fault := by
  rw [restOctetsSi3]
  by_cases hoctets : l.octets = 1
  · rw [if_pos hoctets, if_pos (Or.inl hoctets)]
  · cases hpoii : l.poii with
    | none => simp [hoctets]
    | some p => simp [hoctets]

/-- The handling of the message ends as it does where its log is left out. -/
theorem stop_rslMsg {env : Env} (hoctets : env.octets = l.octets)
    (hpoii : env.poii = l.poii.isSome) : (rslMsg l m).rest.bind Rest.stop = rslStop env m := by
  rw [rslStop, hoctets, hpoii]
  by_cases hinfo : IsBcchInfo m
  · rw [(rslMsg_bcchInfo hinfo).2]
    by_cases htype : m (headData + 5) = 0x03
    · rw [if_pos htype, Option.bind_some, restOctetsSi3_stop]
      by_cases hset : l.octets = 1 ∨ l.poii.isSome = true
      · rw [if_pos hset, if_neg fun h => h.2.2.2 hset]
      · rw [if_neg hset, if_pos ⟨isCch_iff.mpr hinfo.1, hinfo.2, htype, hset⟩]
    · rw [if_neg htype, if_neg fun h => htype h.2.2.1, Option.bind_none]
  · rw [(rslMsg_other hinfo).2, if_neg fun h => hinfo ⟨isCch_iff.mp h.1, h.2.1⟩, Option.bind_none]

end Log

end SoftBts.Rsl
