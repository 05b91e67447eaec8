import SoftBts.State
import SoftBts.Lib.Octets

/-! The handling of one message (`bts_nm.c`): the message buffer with the structs laid over it, and
the functions that build a formatted O&M message in that buffer and send it. Each builder is shown
to store one octet string at the start of the buffer, whatever was there, and to send it. -/

namespace SoftBts

open Octets

/-- The sockets of the BTS: `oml.socket`, `rsl.socket` and the slots of `trx`. -/
inductive Link where
  | oml
  | rsl
  | trx (slot : Fin 4)
  deriving DecidableEq

/-- One call of send(): the socket, the octets, and the management state held at the call. -/
structure Sent where
  sd : Link
  octets : List UInt8
  held : Bts
  deriving DecidableEq

/-- The state of the handling of one message: the buffer `msg` with the memory that follows it, the
management variables, and the calls of send() so far. -/
structure Handling where
  mem : Mem
  bts : Bts
  sent : List Sent

/-! ### The structs over the buffer

`msg_head_t` is at the start, `om_hdr_t` at `head->data[0]`, `fom_hdr_t` at `om_hdr->data[0]`. -/

def headLen : Nat := 0
def headProto : Nat := 2
def headData : Nat := 3
def omMdisc : Nat := headData
def omPlacement : Nat := headData + 1
def omSequence : Nat := headData + 2
def omLength : Nat := headData + 3
def omData : Nat := headData + 4
def fomMsgType : Nat := omData
def fomObjClass : Nat := omData + 1
def fomBtsNr : Nat := omData + 2
def fomTrxNr : Nat := omData + 3
def fomTsNr : Nat := omData + 4
def fomData : Nat := omData + 5

namespace Handling

def mdisc (h : Handling) : UInt8 := h.mem omMdisc
def msgType (h : Handling) : UInt8 := h.mem fomMsgType
def objClass (h : Handling) : UInt8 := h.mem fomObjClass
def tsNr (h : Handling) : UInt8 := h.mem fomTsNr

/-- `send(sd, msg, ntohs(head->len)+3, 0)` -/
def sendMsg (sd : Link) (h : Handling) : Handling :=
  { h with sent := h.sent ++
      [⟨sd, h.mem.load 0 ((htons (h.mem.load16 headLen)).toNat + 3), h.bts⟩] }

/-- `send(sd, array, sizeof(array), 0)` -/
def sendArray (sd : Link) (array : List UInt8) (h : Handling) : Handling :=
  { h with sent := h.sent ++ [⟨sd, array, h.bts⟩] }

end Handling

/-- The assignments to `head`, `om_hdr` and `fom_hdr` that all the builders start with. -/
def fomHead (m : Mem) (len : UInt16) (length msgType : UInt8) (o : ObjInst) : Mem :=
  let m := m.store16 headLen len
  let m := m.store headProto [0xff]
  let m := m.store omMdisc [abisOmMdiscFom]
  let m := m.store omPlacement [abisOmPlacementOnly]
  let m := m.store omSequence [0x00]
  let m := m.store omLength [length]
  let m := m.store fomMsgType [msgType]
  let m := m.store fomObjClass [o.objClass]
  let m := m.store fomBtsNr [o.btsNr]
  let m := m.store fomTrxNr [o.trxNr]
  m.store fomTsNr [o.tsNr]

namespace Handling

/-- The body of the builders of messages without attributes. -/
def fomReply (msgType : UInt8) (sd : Link) (o : ObjInst) (h : Handling) : Handling :=
  sendMsg sd { h with mem := fomHead h.mem 0x0900 0x05 msgType o }

abbrev swActivatedReport := fomReply nmMtSwActivatedRep
abbrev opstartAck := fomReply nmMtOpstartAck
abbrev swActivateAck := fomReply nmMtActivateSwAck
abbrev btsSetAttrAck := fomReply nmMtSetBtsAttrAck
abbrev chgAdmStateAck := fomReply nmMtChgAdmStateAck

end Handling

/-- The assignments of `state_changed_event_report`. -/
def reportMem (m : Mem) (o : ObjInst) (opState avStatus admState : UInt8) : Mem :=
  let operState := fomData
  let availStatus := operState + 2
  let adminState := availStatus + 4
  let m := fomHead m 0x1100 0x0d nmMtStatechgEventRep o
  let m := m.store operState [nmAttOperState]
  let m := m.store (operState + 1) [opState]
  let m := m.store availStatus [nmAttAvailStatus]
  let m := m.store16 (availStatus + 1) 0x0100
  let m := m.store (availStatus + 3) [avStatus]
  let m := m.store adminState [nmAttAdmState]
  m.store (adminState + 1) [admState]

def Handling.stateChangedEventReport (sd : Link) (o : ObjInst)
    (opState avStatus admState : UInt8) (h : Handling) : Handling :=
  sendMsg sd { h with mem := reportMem h.mem o opState avStatus admState }

/-- SW_FILE_ID, "120a0020" -/
def swFileId : List UInt8 := [0x31, 0x32, 0x30, 0x61, 0x30, 0x30, 0x32, 0x30]

/-- SW_FILE_VER, "v209b24d3" -/
def swFileVer : List UInt8 := [0x76, 0x32, 0x30, 0x39, 0x62, 0x32, 0x34, 0x64, 0x33]

/-- The assignments of `sw_activate_request`. -/
def swActReqMem (m : Mem) (o : ObjInst) : Mem :=
  let swConfig := fomData
  let fileId := swConfig + 4
  let m := fomHead m 0x2500 0x21 nmMtSwActReq o
  let m := m.store swConfig [nmAttSwConfig]
  let m := m.store16 (swConfig + 1) 0x0019
  let m := m.store (swConfig + 3) [nmAttSwDescr]
  let m := m.store fileId [nmAttFileId]
  let m := m.store16 (fileId + 1) (UInt16.ofNat swFileId.length)
  let dst := fileId + 3
  let m := m.strcpy dst swFileId
  -- the file version starts on the terminator that strcpy left
  let fileVer := dst + (m.load16 (fileId + 1)).toNat
  let m := m.store fileVer [nmAttFileVersion]
  let m := m.store16 (fileVer + 1) (UInt16.ofNat (swFileVer.length + 1))
  let m := m.strcpy (fileVer + 3) swFileVer
  let m := m.store16 (fileId + 1) (htons (m.load16 (fileId + 1)))
  let m := m.store16 (fileVer + 1) (htons (m.load16 (fileVer + 1)))
  m.store16 (swConfig + 1) (htons (m.load16 (swConfig + 1)))

def Handling.swActivateRequest (sd : Link) (o : ObjInst) (h : Handling) : Handling :=
  sendMsg sd { h with mem := swActReqMem h.mem o }

/-! ### What the builders put in the buffer -/

/-- The octets of a formatted O&M message without attributes. -/
def fomFrame (msgType : UInt8) (o : ObjInst) : List UInt8 :=
  [0x00, 0x09, 0xff, 0x80, 0x80, 0x00, 0x05, msgType, o.objClass, o.btsNr, o.trxNr, o.tsNr]

/-- The octets of a State Changed Event Report. -/
def reportFrame (o : ObjInst) (opState avStatus admState : UInt8) : List UInt8 :=
  [0x00, 0x11, 0xff, 0x80, 0x80, 0x00, 0x0d, 0x61, o.objClass, o.btsNr, o.trxNr, o.tsNr,
    0x24, opState, 0x07, 0x00, 0x01, avStatus, 0x04, admState]

/-- The octets of a SW Activate Request. -/
def swActReqFrame (o : ObjInst) : List UInt8 :=
  [0x00, 0x25, 0xff, 0x80, 0x80, 0x00, 0x21, 0x0a, o.objClass, o.btsNr, o.trxNr, o.tsNr,
    0x41, 0x00, 0x19, 0x42] ++ [0x12, 0x00, 0x08] ++ swFileId ++ [0x13, 0x00, 0x0a] ++ swFileVer ++
    [0x00]

/-- The message type and the object of a formatted O&M message. -/
def fomOf : List UInt8 → Option (UInt8 × ObjInst)
  | _ :: _ :: proto :: mdisc :: _ :: _ :: _ :: msgType :: objClass :: btsNr :: trxNr :: tsNr :: _ =>
      if proto = protoOml ∧ mdisc = abisOmMdiscFom then
        some (msgType, ⟨objClass, btsNr, trxNr, tsNr⟩)
      else none
  | _ => none

@[simp] theorem fomOf_fomFrame (msgType : UInt8) (o : ObjInst) :
    fomOf (fomFrame msgType o) = some (msgType, o) := rfl

@[simp] theorem fomOf_reportFrame (o : ObjInst) (opState avStatus admState : UInt8) :
    fomOf (reportFrame o opState avStatus admState) = some (nmMtStatechgEventRep, o) := rfl

@[simp] theorem fomOf_swActReqFrame (o : ObjInst) :
    fomOf (swActReqFrame o) = some (nmMtSwActReq, o) := rfl

/-- The type and the object of a message of one of the types given. -/
def fomIn (types : List UInt8) (octets : List UInt8) : Option (UInt8 × ObjInst) :=
  (fomOf octets).filter fun msg => msg.1 ∈ types

theorem fomIn_of_fomOf {octets : List UInt8} {msgType : UInt8} {o : ObjInst}
    (h : fomOf octets = some (msgType, o)) (types : List UInt8) :
    fomIn types octets = if msgType ∈ types then some (msgType, o) else none := by
  simp [fomIn, h, Option.filter]

@[simp] theorem fomIn_fomFrame (types : List UInt8) (msgType : UInt8) (o : ObjInst) :
    fomIn types (fomFrame msgType o) = if msgType ∈ types then some (msgType, o) else none :=
  fomIn_of_fomOf rfl types

@[simp] theorem fomIn_reportFrame (types : List UInt8) (o : ObjInst)
    (opState avStatus admState : UInt8) :
    fomIn types (reportFrame o opState avStatus admState) =
      if nmMtStatechgEventRep ∈ types then some (nmMtStatechgEventRep, o) else none :=
  fomIn_of_fomOf rfl types

@[simp] theorem fomIn_swActReqFrame (types : List UInt8) (o : ObjInst) :
    fomIn types (swActReqFrame o) =
      if nmMtSwActReq ∈ types then some (nmMtSwActReq, o) else none :=
  fomIn_of_fomOf rfl types

theorem fomHead_eq (m : Mem) (len : UInt16) (length msgType : UInt8) (o : ObjInst) :
    fomHead m len length msgType o =
      m.store 0 [UInt8.ofNat (len.toNat % 256), UInt8.ofNat (len.toNat / 256), 0xff, 0x80, 0x80,
        0x00, length, msgType, o.objClass, o.btsNr, o.trxNr, o.tsNr] := by
  simp [fomHead, Mem.store16, Mem.store_store, headLen, headProto, omMdisc, omPlacement, omSequence,
    omLength, fomMsgType, fomObjClass, fomBtsNr, fomTrxNr, fomTsNr, omData, headData]

theorem reportMem_eq (m : Mem) (o : ObjInst) (opState avStatus admState : UInt8) :
    reportMem m o opState avStatus admState =
      m.store 0 (reportFrame o opState avStatus admState) := by
  simp [reportMem, fomHead_eq, Mem.store16, Mem.store_store, reportFrame, fomData, omData, headData]

theorem swActReqMem_eq (m : Mem) (o : ObjInst) :
    swActReqMem m o = m.store 0 (swActReqFrame o) := by
  simp [swActReqMem, fomHead_eq, Mem.store16, Mem.load16, Mem.strcpy, htons, Mem.store_store,
    swActReqFrame, swFileId, swFileVer, fomData, omData, headData]

namespace Handling

/-- Store an octet string at the start of the buffer and send it. -/
def deliver (sd : Link) (frame : List UInt8) (h : Handling) : Handling :=
  { h with mem := h.mem.store 0 frame, sent := h.sent ++ [⟨sd, frame, h.bts⟩] }

/-- A frame in the buffer is sent whole when its head length counts what follows the protocol
octet. -/
theorem sendMsg_store (sd : Link) (h : Handling) (n : UInt8) (rest : List UInt8)
    (hlen : rest.length = n.toNat + 1) :
    sendMsg sd { h with mem := h.mem.store 0 (0x00 :: n :: rest) } =
      h.deliver sd (0x00 :: n :: rest) := by
  have hload := Mem.load_store h.mem 0 (0x00 :: n :: rest)
  simp only [List.length_cons, hlen] at hload
  simp [sendMsg, deliver, htons_load16, be16, headLen, hload]

variable (sd : Link) (o : ObjInst) (h : Handling)

theorem fomReply_eq (msgType : UInt8) : h.fomReply msgType sd o = h.deliver sd (fomFrame msgType o) := by
  rw [fomReply, fomHead_eq]
  exact sendMsg_store sd h 0x09 _ rfl

theorem stateChangedEventReport_eq (opState avStatus admState : UInt8) :
    h.stateChangedEventReport sd o opState avStatus admState =
      h.deliver sd (reportFrame o opState avStatus admState) := by
  rw [stateChangedEventReport, reportMem_eq]
  exact sendMsg_store sd h 0x11 _ rfl

theorem swActivateRequest_eq : h.swActivateRequest sd o = h.deliver sd (swActReqFrame o) := by
  rw [swActivateRequest, swActReqMem_eq]
  exact sendMsg_store sd h 0x25 _ rfl

@[simp] theorem deliver_bts (frame : List UInt8) : (h.deliver sd frame).bts = h.bts := rfl

@[simp] theorem deliver_sent (frame : List UInt8) :
    (h.deliver sd frame).sent = h.sent ++ [⟨sd, frame, h.bts⟩] := rfl

theorem deliver_mem_apply (frame : List UInt8) (i : Nat) :
    (h.deliver sd frame).mem i = (frame[i]?).getD (h.mem i) := by
  simp [deliver]

/-! ### The headers after a reply

A reply is built over the message it answers, so what follows reads the reply's header. -/

@[simp] theorem objClass_reportFrame (opState avStatus admState : UInt8) :
    (h.deliver sd (reportFrame o opState avStatus admState)).objClass = o.objClass := by
  rw [objClass, deliver_mem_apply]; rfl

@[simp] theorem tsNr_fomFrame (msgType : UInt8) :
    (h.deliver sd (fomFrame msgType o)).tsNr = o.tsNr := by
  rw [tsNr, deliver_mem_apply]; rfl

@[simp] theorem tsNr_reportFrame (opState avStatus admState : UInt8) :
    (h.deliver sd (reportFrame o opState avStatus admState)).tsNr = o.tsNr := by
  rw [tsNr, deliver_mem_apply]; rfl

@[simp] theorem mdisc_fomFrame (msgType : UInt8) :
    (h.deliver sd (fomFrame msgType o)).mdisc = abisOmMdiscFom := by
  rw [mdisc, deliver_mem_apply]; rfl

/-! ### `for(channel = 0x00; channel <= 0x07; channel++)` -/

/-- The loop over the channels. -/
def forChannels (body : Fin 8 → Handling → Handling) (h : Handling) : Handling :=
  (List.finRange 8).foldl (fun h channel => body channel h) h

/-- Deliver octet strings one after the other. -/
def deliverAll (sd : Link) (frames : List (List UInt8)) (h : Handling) : Handling :=
  frames.foldl (fun h frame => h.deliver sd frame) h

@[simp] theorem deliverAll_nil : h.deliverAll sd [] = h := rfl

@[simp] theorem deliverAll_cons (frame : List UInt8) (frames : List (List UInt8)) :
    h.deliverAll sd (frame :: frames) = (h.deliver sd frame).deliverAll sd frames := rfl

theorem deliverAll_append (frames frames' : List (List UInt8)) :
    h.deliverAll sd (frames ++ frames') = (h.deliverAll sd frames).deliverAll sd frames' :=
  List.foldl_append

@[simp] theorem deliverAll_bts (frames : List (List UInt8)) :
    (h.deliverAll sd frames).bts = h.bts := by
  induction frames generalizing h with
  | nil => rfl
  | cons frame frames ih => rw [deliverAll_cons, ih, deliver_bts]

@[simp] theorem deliverAll_sent (frames : List (List UInt8)) :
    (h.deliverAll sd frames).sent = h.sent ++ frames.map (⟨sd, ·, h.bts⟩) := by
  induction frames generalizing h with
  | nil => simp
  | cons frame frames ih => simp [ih]

/-- What every reply leaves at an address, a series of them leaves there. -/
theorem deliverAll_mem_apply {frames : List (List UInt8)} {i : Nat} {v : UInt8}
    (hframes : ∀ frame ∈ frames, frame[i]? = some v) (hv : h.mem i = v) :
    (h.deliverAll sd frames).mem i = v := by
  induction frames generalizing h with
  | nil => exact hv
  | cons frame frames ih =>
      rw [List.forall_mem_cons] at hframes
      apply ih _ hframes.2
      rw [deliver_mem_apply, hframes.1, Option.getD_some]

/-- A loop whose turns each deliver an octet string delivers one for each channel. -/
theorem forChannels_eq (frame : Bts → Fin 8 → List UInt8) {body : Fin 8 → Handling → Handling}
    (hbody : ∀ channel h, body channel h = h.deliver sd (frame h.bts channel)) :
    h.forChannels body = h.deliverAll sd ((List.finRange 8).map (frame h.bts)) := by
  rw [forChannels]
  induction List.finRange 8 generalizing h with
  | nil => rfl
  | cons channel channels ih =>
      rw [List.foldl_cons, hbody, ih, deliver_bts, List.map_cons, deliverAll_cons]

variable (inst : Fin 8 → ObjInst)

@[simp] theorem forChannels_swActivateRequest :
    (h.forChannels fun channel h => h.swActivateRequest sd (inst channel)) =
      h.deliverAll sd ((List.finRange 8).map fun channel => swActReqFrame (inst channel)) :=
  forChannels_eq sd h (fun _ channel => swActReqFrame (inst channel)) fun channel h =>
    swActivateRequest_eq sd (inst channel) h

@[simp] theorem forChannels_fomReply (msgType : UInt8) :
    (h.forChannels fun channel h => h.fomReply msgType sd (inst channel)) =
      h.deliverAll sd ((List.finRange 8).map fun channel => fomFrame msgType (inst channel)) :=
  forChannels_eq sd h (fun _ channel => fomFrame msgType (inst channel)) fun channel h =>
    fomReply_eq sd (inst channel) h msgType

@[simp] theorem forChannels_report (opState avStatus admState : UInt8) :
    (h.forChannels fun channel h =>
        h.stateChangedEventReport sd (inst channel) opState avStatus admState) =
      h.deliverAll sd ((List.finRange 8).map fun channel =>
        reportFrame (inst channel) opState avStatus admState) :=
  forChannels_eq sd h (fun _ channel => reportFrame (inst channel) opState avStatus admState)
    fun channel h => stateChangedEventReport_eq sd (inst channel) h opState avStatus admState

@[simp] theorem forChannels_stateReport (avStatus : UInt8) :
    (h.forChannels fun channel h => h.stateChangedEventReport sd (inst channel)
        (h.bts.channelOpstate channel) avStatus (h.bts.channelAdminState channel)) =
      h.deliverAll sd ((List.finRange 8).map fun channel => reportFrame (inst channel)
        (h.bts.channelOpstate channel) avStatus (h.bts.channelAdminState channel)) :=
  forChannels_eq sd h (fun b channel => reportFrame (inst channel)
      (b.channelOpstate channel) avStatus (b.channelAdminState channel)) fun channel h =>
    stateChangedEventReport_eq sd (inst channel) h _ avStatus _

end Handling

end SoftBts
