import Mathlib.Data.UInt

/-! The numbers of `bts_init.h`, `bts_nm.h` and `softbts.h` that the modelled functions use, under
the header's names. -/

namespace SoftBts

/-! ### `softbts.h`, `bts_init.h` -/

@[simp] def bufferLength : Nat := 255

@[simp] def protoSoftbts : UInt8 := 0xfe
@[simp] def protoRsl : UInt8 := 0x00
@[simp] def protoOml : UInt8 := 0xff

@[simp] def idtagUnit : UInt8 := 0x08

@[simp] def msgPing : UInt8 := 0x00
@[simp] def msgPong : UInt8 := 0x01
@[simp] def msgIdGet : UInt8 := 0x04
@[simp] def msgIdResp : UInt8 := 0x05
@[simp] def msgIdAck : UInt8 := 0x06

/-! ### Discriminators and placement -/

@[simp] def abisOmMdiscFom : UInt8 := 0x80
@[simp] def abisOmMdiscManuf : UInt8 := 0x10
@[simp] def abisOmPlacementOnly : UInt8 := 0x80

@[simp] def nmMtSoftbtsRslConnect : UInt8 := 0xe0
@[simp] def nmMtSoftbtsRslConnectAck : UInt8 := 0xe1
@[simp] def nmAttSoftbtsDstIpPort : UInt8 := 0x81
@[simp] def nmAttSoftbtsCgi : UInt8 := 0x99

/-! ### `abis_nm_obj_class` -/

@[simp] def nmOcSiteManager : UInt8 := 0x00
@[simp] def nmOcBts : UInt8 := 0x01
@[simp] def nmOcRadioCarrier : UInt8 := 0x02
@[simp] def nmOcChannel : UInt8 := 0x03
@[simp] def nmOcBasebTransc : UInt8 := 0x04
@[simp] def nmOcNull : UInt8 := 0xff

/-! ### `abis_nm_adm_state`, `abis_nm_avail_state`, `abis_nm_op_state` -/

@[simp] def nmStateLocked : UInt8 := 0x01
@[simp] def nmStateUnlocked : UInt8 := 0x02
@[simp] def nmStateShutdown : UInt8 := 0x03
@[simp] def nmStateNull : UInt8 := 0xff

@[simp] def nmAvstateDependency : UInt8 := 0x05
@[simp] def nmAvstateNotInstalled : UInt8 := 0x07
@[simp] def nmAvstateOk : UInt8 := 0xff

@[simp] def nmOpstateDisabled : UInt8 := 0x01
@[simp] def nmOpstateEnabled : UInt8 := 0x02
@[simp] def nmOpstateNull : UInt8 := 0xff

/-! ### `abis_nm_msgtype` -/

@[simp] def nmMtSwActReq : UInt8 := 0x0a
@[simp] def nmMtSwActReqAck : UInt8 := 0x0b
@[simp] def nmMtActivateSw : UInt8 := 0x0d
@[simp] def nmMtActivateSwAck : UInt8 := 0x0e
@[simp] def nmMtSwActivatedRep : UInt8 := 0x10
@[simp] def nmMtSetBtsAttr : UInt8 := 0x41
@[simp] def nmMtSetBtsAttrAck : UInt8 := 0x42
@[simp] def nmMtSetRadioAttr : UInt8 := 0x44
@[simp] def nmMtSetRadioAttrAck : UInt8 := 0x45
@[simp] def nmMtSetChanAttr : UInt8 := 0x47
@[simp] def nmMtSetChanAttrAck : UInt8 := 0x48
@[simp] def nmMtStatechgEventRep : UInt8 := 0x61
@[simp] def nmMtChgAdmState : UInt8 := 0x69
@[simp] def nmMtChgAdmStateAck : UInt8 := 0x6a
@[simp] def nmMtOpstart : UInt8 := 0x74
@[simp] def nmMtOpstartAck : UInt8 := 0x75

/-! ### `abis_nm_attr` -/

@[simp] def nmAttAdmState : UInt8 := 0x04
@[simp] def nmAttAvailStatus : UInt8 := 0x07
@[simp] def nmAttBcchArfcn : UInt8 := 0x08
@[simp] def nmAttBsic : UInt8 := 0x09
@[simp] def nmAttBtsAirTimer : UInt8 := 0x0a
@[simp] def nmAttCcchLIP : UInt8 := 0x0b
@[simp] def nmAttCcchLT : UInt8 := 0x0c
@[simp] def nmAttConnFailCrit : UInt8 := 0x0e
@[simp] def nmAttFileId : UInt8 := 0x12
@[simp] def nmAttFileVersion : UInt8 := 0x13
@[simp] def nmAttIntaveParam : UInt8 := 0x18
@[simp] def nmAttInterfBound : UInt8 := 0x19
@[simp] def nmAttMaxTa : UInt8 := 0x1f
@[simp] def nmAttNy1 : UInt8 := 0x23
@[simp] def nmAttOperState : UInt8 := 0x24
@[simp] def nmAttOverlPeriod : UInt8 := 0x25
@[simp] def nmAttRachBThresh : UInt8 := 0x2a
@[simp] def nmAttLdavgSlots : UInt8 := 0x2b
@[simp] def nmAttStartTime : UInt8 := 0x32
@[simp] def nmAttT200 : UInt8 := 0x33
@[simp] def nmAttSwConfig : UInt8 := 0x41
@[simp] def nmAttSwDescr : UInt8 := 0x42

end SoftBts
