import SoftBts.Consts
import SoftBts.Lib.BitFields

/-! The packed structs that the messages of the radio link are read through (`abis_rsl.h`,
`L3_0408.h`), and the lines that are written to the log of what is read. -/

namespace SoftBts.Rsl

open Octets BitFields

/-- The members of the structs. An array is one member, the first octet in its lowest bits. -/
inductive Member where
  -- `rsl_hdr`, `rsl_cch`, `rsl_sys_info`, `rsl_full_BCCH`
  | discrT | discrMsgGroup | cchMsgType | cchEi | chanTn | chanNr | sysInfoEi | sysInfoType
  | bcchEi | bcchLength | l3Msg
  -- `L2_plength`, `PD_skip`, and the message type behind them
  | fb | plv | discr | skip | msgType
  -- `cell_channel_descr`, `cell_var_bit`, and the octet `si1`
  | bit121 | formatIdLow | chdSpare | formatIdHigh | bits
  | origArfcnHi | origArfcnMid | rrfcn1To7 | origArfcnLo | rrfcn8To111 | si1
  -- `neighbour_cell_descr`, and the octet `ncc_permitted`
  | chNr124To121 | baInd | extInd | chNr128To127 | chNr120To00 | nccPermitted
  -- `rach_control_par`
  | re | cellBarAccess | txInteger | maxRetrans | ac8To9 | ec | ac15To11 | ac7To0
  -- `cell_ident`, `location_area_id`
  | ci1 | ci2 | mcc1 | mcc2 | mcc3 | mnc3 | mnc1 | mnc2 | lac | lacCont
  -- `control_channel_desc`
  | ccchConf | bsAgBlksRes | att | cchSpare | bsPaMfrms | cchSpare2 | t3212
  -- `cell_opt`, `cell_selection_par`
  | radioLinkTimeout | dtx | pwrc | optSpare
  | msTxpwrMaxCcch | cellReselHyst | rxlevAccMin | neci | acs
  -- `si3_rest`, `si3_selection_params`, `si3_power_offset`
  | si3Data | penaltyTime | tempOffs | cellReselOff | cbq | selPresent
  | poSpare | powerOffset | poPresent
  deriving DecidableEq

namespace Member

@[reducible] def width : Member → Nat
  | discrT | bit121 | origArfcnHi | origArfcnLo | baInd | extInd | re | cellBarAccess | ec | att
  | cchSpare | pwrc | optSpare | neci | acs | cbq | selPresent | poPresent => 1
  | fb | chdSpare | formatIdHigh | chNr128To127 | maxRetrans | ac8To9 | dtx | powerOffset => 2
  | chanTn | formatIdLow | ccchConf | bsAgBlksRes | bsPaMfrms | cellReselHyst | tempOffs => 3
  | discr | skip | chNr124To121 | txInteger | mcc1 | mcc2 | mcc3 | mnc3 | mnc1 | mnc2
  | radioLinkTimeout => 4
  | chanNr | ac15To11 | cchSpare2 | msTxpwrMaxCcch | penaltyTime | poSpare => 5
  | plv | rxlevAccMin | cellReselOff => 6
  | discrMsgGroup | rrfcn1To7 => 7
  | cchMsgType | cchEi | sysInfoEi | sysInfoType | bcchEi | bcchLength | msgType | origArfcnMid | si1
  | nccPermitted | ac7To0 | ci1 | ci2 | lac | lacCont | t3212 => 8
  | si3Data => 8 * 4
  | rrfcn8To111 => 8 * 13
  | bits | chNr120To00 => 8 * 15
  | l3Msg => 8 * 23

end Member

/-- A value for every member. -/
abbrev Values := ∀ i : Member, BitVec i.width

abbrev Struct := Record Member.width

/-! ### `abis_rsl.h` -/

def rslHdr : Struct where
  members := [.discrT, .discrMsgGroup]

def rslCch : Struct where
  members := [.cchMsgType, .cchEi, .chanTn, .chanNr]

def rslSysInfo : Struct where
  members := [.sysInfoEi, .sysInfoType]

def rslFullBcch : Struct where
  members := [.bcchEi, .bcchLength, .l3Msg]

/-! ### `L3_0408.h` -/

def cellIdentity : Struct where
  members := [.ci1, .ci2]

def lai : Struct where
  members := [.mcc1, .mcc2, .mcc3, .mnc3, .mnc1, .mnc2, .lac, .lacCont]

def controlChanelDescription : Struct where
  members := [.ccchConf, .bsAgBlksRes, .att, .cchSpare, .bsPaMfrms, .cchSpare2, .t3212]

def cellOptions : Struct where
  members := [.radioLinkTimeout, .dtx, .pwrc, .optSpare]

def cellSelectionParameters : Struct where
  members := [.msTxpwrMaxCcch, .cellReselHyst, .rxlevAccMin, .neci, .acs]

def rachControlParameters : Struct where
  members := [.re, .cellBarAccess, .txInteger, .maxRetrans, .ac8To9, .ec, .ac15To11, .ac7To0]

def si3Rest : Struct where
  members := [.si3Data]

def si3SelectionParams : Struct where
  members := [.penaltyTime, .tempOffs, .cellReselOff, .cbq, .selPresent]

def si3PowerOffset : Struct where
  members := [.poSpare, .powerOffset, .poPresent]

def l2PseudoLength : Struct where
  members := [.fb, .plv]

def pdSkip : Struct where
  members := [.discr, .skip]

/-- A member of one octet. -/
def octet (i : Member) (h : i.width = 8 := by rfl) : Struct where
  members := [i]
  whole := by simp [bitLength, h]

def systemInformationType3 : Struct :=
  l2PseudoLength ++ pdSkip ++ octet .msgType ++ cellIdentity ++ lai ++
    controlChanelDescription ++ cellOptions ++ cellSelectionParameters ++ rachControlParameters ++
    si3Rest

def neighbourCellDescription : Struct where
  members := [.chNr124To121, .baInd, .extInd, .chNr128To127, .chNr120To00]

def systemInformationType2 : Struct :=
  l2PseudoLength ++ pdSkip ++ octet .msgType ++ neighbourCellDescription ++
    octet .nccPermitted ++ rachControlParameters

def cellChannelDescr : Struct where
  members := [.bit121, .formatIdLow, .chdSpare, .formatIdHigh, .bits]

def cellVarBit : Struct where
  members :=
    [.origArfcnHi, .formatIdLow, .chdSpare, .formatIdHigh, .origArfcnMid, .rrfcn1To7, .origArfcnLo,
      .rrfcn8To111]

def systemInformationType1 : Struct :=
  l2PseudoLength ++ pdSkip ++ octet .msgType ++ cellChannelDescr ++ rachControlParameters ++
    octet .si1

/-- The same with the members of a variable bit map, which are also the octets of a cell channel
description in any other format. -/
def systemInformationType1VarBit : Struct :=
  l2PseudoLength ++ pdSkip ++ octet .msgType ++ cellVarBit ++ rachControlParameters ++
    octet .si1

example : systemInformationType1.size = 23 ∧ systemInformationType2.size = 23 ∧
    systemInformationType3.size = 23 := by
  decide

/-! ### The log -/

/-- The labels of the values in the log. -/
inductive Label where
  -- the message around the body
  | tBit | messageGroup | cchMessageType | cchElement | tnBits | cBits | sysInfoElement | sysInfoType
  | bcchElement | length
  -- the body: the octets of all of it, and what is in every type of it
  | l3 | fixedBits | pseudoLength | skip | discr | messageType
  -- type 1
  | formatHigh | formatLow | arfcnHigh | arfcnMid | arfcnLow | arfcn | arfcnList | nchValue
  -- type 2
  | baInd | extInd | channels128To127 | channels124To121 | channels120To0 | nccPermitted
  -- the RACH control parameters
  | callReEstablishment | cellBarAccess | txInteger | maxRetrans | emergencyCall | classes15To11
  | classes9To8 | classes7To0
  -- type 3
  | ci | ciCont | mcc1 | mcc2 | mcc3 | mnc1 | mnc2 | mnc3 | lac | lacCont | att | ccchConf
  | bsAgBlksRes | bsPaMfrms | t3212 | pwrc | dtx | radioLinkTimeout | radioLinkTimeoutFrames
  | msTxpwrMaxCcch | cellReselectHysteresis | rxlevAccessMin | neci | acs
  -- the rest octets of type 3
  | selection | cbq | cellReselectOffset | temporaryOffset | penaltyTime | power | powerOffset
  deriving DecidableEq

inductive Value where
  | number (n : Nat)
  | octets (os : List UInt8)
  deriving DecidableEq

/-- A value in the log, and the addresses of the octets it was made of. -/
structure Report where
  label : Label
  value : Value
  addresses : List Nat

/-- What a reader of the log sees. -/
def Report.content (r : Report) : Label × Value := (r.label, r.value)

/-- A line, with the member that is printed under its label. -/
def say (o : Overlay Member.width) (m : Mem) (line : Label × Member) : Report where
  label := line.1
  value := .number (o.read m line.2).toNat
  addresses := o.addresses line.2

def sayAll (o : Overlay Member.width) (m : Mem) (lines : List (Label × Member)) : List Report :=
  lines.map (say o m)

/-- `n` octets from a member on that are printed by `hexdump`. -/
def dump (o : Overlay Member.width) (m : Mem) (label : Label) (i : Member) (n : Nat) : Report where
  label := label
  value := .octets (m.load (o.address i) n)
  addresses := List.range' (o.address i) n

end SoftBts.Rsl
