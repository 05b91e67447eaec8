import Mathlib.Data.Fin.Basic
import SoftBts.AttrWalk

/-! `oml_msg`: the switch on the message type, then the switch on the discriminator. The replies are
built over the request, and what is read after a reply is read from it. -/

namespace SoftBts

open Octets

/-- How the handling of a message can end without returning: in a loop that goes on, in the death
of the process, or at an access that the C language leaves undefined. -/
inductive Stop where
  | hang
  | killed
  | fault
  deriving DecidableEq

/-- What the handling of one message takes from outside the frame and the state: the turns the
attribute loop is given, the results of the calls of send(), the indeterminate local `rc` of
`softbts_msg`, whether `kill_background` finds a PID in the lock file, and the indeterminate locals
`octets` and `poii` of `rest_octets_si3` (whether the pointer may be read). -/
structure Env where
  turns : Nat
  send : Nat → Int
  rc : Int
  lockPid : Bool
  octets : UInt8
  poii : Bool

/-- The end of the handling of a message. -/
structure Outcome where
  handling : Handling
  stop : Option Stop

namespace Outcome

def returned (h : Handling) : Outcome := ⟨h, none⟩

def stopped (why : Stop) (h : Handling) : Outcome := ⟨h, some why⟩

/-- Go on with what comes next, if the handling gets there. -/
def andThen (r : Outcome) (f : Handling → Outcome) : Outcome :=
  match r.stop with
  | none => f r.handling
  | some _ => r

end Outcome

namespace Handling

/-- Assign management variables. -/
def setBts (f : Bts → Bts) (h : Handling) : Handling := { h with bts := f h.bts }

/-- The state octet that `bts_get_admin_state` copies. -/
def adminState (h : Handling) : UInt8 := h.mem (fomData + 1)

/-! ### `switch (fom_hdr->msg_type)` -/

/-- `case NM_MT_SW_ACT_REQ_ACK` -/
def swActReqAck (h : Handling) : Handling :=
  let h := if h.objClass = nmOcSiteManager then
      h.setBts fun b => { b with swSiteManager := nmMtSwActReqAck.toNat }
    else h
  if h.objClass = nmOcBts then h.setBts fun b => { b with swBts := nmMtSwActReqAck.toNat } else h

/-- `case NM_MT_ACTIVATE_SW` -/
def activateSw (sd : Link) (h : Handling) : Handling :=
  -- the first two branches end without a break
  let h := if h.objClass = nmOcSiteManager then
      h.setBts (fun b => { b with swSiteManager := nmMtActivateSw.toNat })
        |>.swActivateAck sd ⟨nmOcSiteManager, nmOcNull, nmOcNull, nmOcNull⟩
        |>.stateChangedEventReport sd ⟨nmOcSiteManager, nmOcNull, nmOcNull, nmOcNull⟩
            nmOpstateEnabled nmAvstateOk nmStateLocked
    else h
  let h := if h.objClass = nmOcBts then
      h.swActivateAck sd ⟨nmOcBts, 0x00, nmOcNull, nmOcNull⟩
        |>.stateChangedEventReport sd ⟨nmOcBts, 0x00, nmOcNull, nmOcNull⟩
            nmOpstateDisabled nmAvstateDependency nmStateLocked
    else h
  if h.objClass = nmOcBasebTransc then
    h.swActivateAck sd ⟨nmOcBasebTransc, 0x00, 0x00, nmOcNull⟩
      |>.swActivateRequest sd ⟨nmOcRadioCarrier, 0x00, 0x00, nmOcNull⟩
  else if h.objClass = nmOcRadioCarrier then
    h.swActivateAck sd ⟨nmOcRadioCarrier, 0x00, 0x00, nmOcNull⟩
      |>.forChannels fun channel h =>
          h.swActivateRequest sd ⟨nmOcChannel, 0x00, 0x00, tsOctet channel⟩
  else if h.objClass = nmOcChannel then
    let h := h.swActivateAck sd ⟨nmOcChannel, 0x00, 0x00, h.tsNr⟩
    let h := h.stateChangedEventReport sd ⟨nmOcChannel, 0x00, 0x00, h.tsNr⟩
      nmOpstateDisabled nmAvstateDependency nmStateLocked
    if h.tsNr = 0x07 then
      h.forChannels fun channel h =>
        h.swActivatedReport sd ⟨nmOcChannel, 0x00, 0x00, tsOctet channel⟩
    else h
  else h

/-- What `case NM_MT_OPSTART` sends after the acknowledgement of channel 7. -/
def channelBatch (sd : Link) (h : Handling) : Handling :=
  let h := h.swActivatedReport sd ⟨nmOcRadioCarrier, 0x00, 0x00, nmOcNull⟩
  let h := h.stateChangedEventReport sd ⟨nmOcSiteManager, nmOcNull, nmOcNull, nmOcNull⟩
    h.bts.managerOpstate nmAvstateOk h.bts.managerAdminState
  let h := h.stateChangedEventReport sd ⟨nmOcBts, 0x00, nmOcNull, nmOcNull⟩
    h.bts.btsOpstate nmAvstateOk h.bts.btsAdminState
  let h := h.forChannels fun channel h =>
    h.stateChangedEventReport sd ⟨nmOcChannel, 0x00, 0x00, tsOctet channel⟩
      (h.bts.channelOpstate channel) nmAvstateOk (h.bts.channelAdminState channel)
  h.swActivatedReport sd ⟨nmOcBasebTransc, 0x00, 0x00, nmOcNull⟩

/-- `case NM_MT_OPSTART`. The arrays have eight entries. -/
def opstart (sd : Link) (h : Handling) : Outcome :=
  if h.objClass = nmOcSiteManager then
    .returned (h.setBts (fun b =>
        { b with managerOpstate := nmOpstateEnabled, managerAdminState := nmStateUnlocked })
      |>.opstartAck sd ⟨nmOcSiteManager, nmOcNull, nmOcNull, nmOcNull⟩
      |>.swActivatedReport sd ⟨nmOcSiteManager, nmOcNull, nmOcNull, nmOcNull⟩
      |>.swActivateRequest sd ⟨nmOcBts, 0x00, nmOcNull, nmOcNull⟩)
  else if h.objClass = nmOcBts then
    .returned (h.setBts (fun b => { b with btsOpstate := nmOpstateEnabled })
      |>.opstartAck sd ⟨nmOcBts, 0x00, nmOcNull, nmOcNull⟩
      |>.swActivatedReport sd ⟨nmOcBts, 0x00, nmOcNull, nmOcNull⟩
      |>.swActivateRequest sd ⟨nmOcBasebTransc, 0x00, 0x00, nmOcNull⟩)
  else if h.objClass = nmOcBasebTransc then
    .returned (h.setBts (fun b => { b with basebTranscOpstate := nmOpstateEnabled })
      |>.opstartAck sd ⟨nmOcBasebTransc, 0x00, 0x00, nmOcNull⟩)
  else if h.objClass = nmOcRadioCarrier then
    .returned (h.setBts (fun b => { b with radioCarrierOpstate := nmOpstateEnabled })
      |>.opstartAck sd ⟨nmOcRadioCarrier, 0x00, 0x00, nmOcNull⟩)
  else if h.objClass = nmOcChannel then
    if hts : h.tsNr.toNat < 8 then
      let h := h.setBts fun b => { b with
        channelOpstate := Function.update b.channelOpstate ⟨h.tsNr.toNat, hts⟩ nmOpstateEnabled }
      let h := h.opstartAck sd ⟨nmOcChannel, 0x00, 0x00, h.tsNr⟩
      .returned (if h.tsNr = 0x07 then h.channelBatch sd else h)
    else .stopped .fault h
  else .returned h

/-- `case NM_MT_SET_BTS_ATTR` -/
def setBtsAttr (env : Env) (sd : Link) (h : Handling) : Outcome :=
  match btsGetAttr env.turns h.mem with
  | none => .stopped .hang h
  | some _ =>
      .returned (h.btsSetAttrAck sd ⟨nmOcBts, 0x00, nmOcNull, nmOcNull⟩
        |>.setBts fun b => { b with swBts := nmMtSetBtsAttrAck.toNat })

/-- `case NM_MT_SET_CHAN_ATTR`. `chan_get_attr` reads its locals and ends. -/
def setChanAttr (sd : Link) (h : Handling) : Handling :=
  h.btsSetAttrAck sd ⟨nmOcChannel, 0x00, 0x00, h.tsNr⟩

/-- `case NM_MT_SET_RADIO_ATTR` -/
def setRadioAttr (sd : Link) (h : Handling) : Handling :=
  h.btsSetAttrAck sd ⟨nmOcRadioCarrier, 0x00, 0x00, nmOcNull⟩

/-- `case NM_MT_CHG_ADM_STATE` -/
def chgAdmState (sd : Link) (h : Handling) : Outcome :=
  if h.objClass = nmOcBts then
    .returned (h.setBts (fun b => { b with btsAdminState := h.adminState })
      |>.chgAdmStateAck sd ⟨nmOcBts, 0x00, nmOcNull, nmOcNull⟩)
  else if h.objClass = nmOcBasebTransc then
    .returned (h.setBts (fun b => { b with basebTranscAdminState := h.adminState })
      |>.chgAdmStateAck sd ⟨nmOcBasebTransc, 0x00, 0x00, nmOcNull⟩)
  else if h.objClass = nmOcRadioCarrier then
    .returned (h.setBts (fun b => { b with radioCarrierAdminState := h.adminState })
      |>.chgAdmStateAck sd ⟨nmOcRadioCarrier, 0x00, 0x00, nmOcNull⟩)
  else if h.objClass = nmOcChannel then
    if hts : h.tsNr.toNat < 8 then
      let h := h.setBts fun b => { b with
        channelAdminState :=
          Function.update b.channelAdminState ⟨h.tsNr.toNat, hts⟩ h.adminState }
      .returned (h.chgAdmStateAck sd ⟨nmOcChannel, 0x00, 0x00, h.tsNr⟩)
    else .stopped .fault h
  else .returned h

def msgTypeSwitch (env : Env) (sd : Link) (h : Handling) : Outcome :=
  if h.msgType = nmMtSwActReqAck then .returned h.swActReqAck
  else if h.msgType = nmMtActivateSw then .returned (h.activateSw sd)
  else if h.msgType = nmMtOpstart then h.opstart sd
  else if h.msgType = nmMtSetBtsAttr then h.setBtsAttr env sd
  else if h.msgType = nmMtSetChanAttr then .returned (h.setChanAttr sd)
  else if h.msgType = nmMtSetRadioAttr then .returned (h.setRadioAttr sd)
  else if h.msgType = nmMtChgAdmState then h.chgAdmState sd
  else .returned h

/-! ### `switch (om_hdr->mdisc)` -/

def initRslLink : List UInt8 :=
  [0, 25, 0xff, abisOmMdiscManuf, abisOmPlacementOnly, 0x00, 8, 12,
    -- "com.ipaccess"
    0x63, 0x6f, 0x6d, 0x2e, 0x69, 0x70, 0x61, 0x63, 0x63, 0x65, 0x73, 0x73,
    nmMtSoftbtsRslConnectAck, nmOcBasebTransc, 0x00, 0x00, nmOcNull, nmAttSoftbtsDstIpPort,
    0x0b, 0xbb]

def idAck : List UInt8 := [0, 1, protoSoftbts, msgIdAck]

def nullMsg : List UInt8 := [0, 1, protoRsl, msgIdAck]

def mdiscSwitch (env : Env) (sd : Link) (h : Handling) : Handling :=
  if h.mdisc = abisOmMdiscManuf then
    let rc := env.send h.sent.length
    let h := h.sendArray sd initRslLink
    if rc < 0 then h
    else
      let h := h.stateChangedEventReport sd ⟨nmOcBasebTransc, 0x00, 0x00, nmOcNull⟩
        h.bts.basebTranscOpstate nmAvstateOk h.bts.basebTranscAdminState
      let h := h.stateChangedEventReport sd ⟨nmOcRadioCarrier, 0x00, 0x00, nmOcNull⟩
        h.bts.radioCarrierOpstate nmAvstateOk h.bts.radioCarrierAdminState
      h.sendArray .rsl idAck |>.sendArray .rsl nullMsg
  else h

end Handling

def omlMsg (env : Env) (sd : Link) (h : Handling) : Outcome :=
  (h.msgTypeSwitch env sd).andThen fun h => .returned (h.mdiscSwitch env sd)

end SoftBts
