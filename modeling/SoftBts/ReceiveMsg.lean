import SoftBts.OmlMsg

/-! `softbts_msg`, `rsl_msg` and the dispatch of `receive_msg`, and the BTS as a machine that is
handed one message after another. -/

namespace SoftBts

open Octets

namespace Handling

/-- `cmd`, the octet after the header. -/
def cmd (h : Handling) : UInt8 := h.mem headData

def proto (h : Handling) : UInt8 := h.mem headProto

end Handling

/-! ### `softbts_msg` -/

def pong : List UInt8 := [0, 1, protoSoftbts, msgPong]

def idResp : List UInt8 :=
  [0, 12, protoSoftbts, msgIdResp, 0x09, idtagUnit, 0x08,
    -- "1800/0/0"
    0x31, 0x38, 0x30, 0x30, 0x2f, 0x30, 0x2f, 0x30]

/-- `if( rc < 0) kill_background();`, which comes back when it finds no PID to kill. -/
def killOnFailure (env : Env) (rc : Int) (h : Handling) : Outcome :=
  if rc < 0 ∧ env.lockPid = true then .stopped .killed h else .returned h

def Handling.initialStateReport (sd : Link) (h : Handling) : Handling :=
  h.stateChangedEventReport sd ⟨nmOcSiteManager, nmOcNull, nmOcNull, nmOcNull⟩
      nmOpstateDisabled nmAvstateNotInstalled nmStateLocked
    |>.stateChangedEventReport sd ⟨nmOcBts, 0x00, nmOcNull, nmOcNull⟩
      nmOpstateDisabled nmAvstateNotInstalled nmStateLocked
    |>.stateChangedEventReport sd ⟨nmOcBasebTransc, 0x00, 0x00, nmOcNull⟩
      nmOpstateDisabled nmAvstateNotInstalled nmStateLocked
    |>.forChannels (fun channel h =>
        h.stateChangedEventReport sd ⟨nmOcChannel, 0x00, 0x00, tsOctet channel⟩
          nmOpstateDisabled nmAvstateNotInstalled nmStateLocked)
    |>.stateChangedEventReport sd ⟨nmOcRadioCarrier, 0x00, 0x00, nmOcNull⟩
      nmOpstateDisabled nmAvstateNotInstalled nmStateLocked

def softbtsMsg (env : Env) (sd : Link) (h : Handling) : Outcome :=
  if h.cmd = msgPing then
    -- the result of send() is dropped, the test is of an indeterminate value
    killOnFailure env env.rc (h.sendArray sd pong)
  else if h.cmd = msgIdGet then
    let rc := env.send h.sent.length
    (killOnFailure env rc (h.sendArray sd idResp)).andThen fun h =>
      if h.bts.btsIdResp then .returned h
      else
        .returned (h.initialStateReport sd
          |>.setBts (fun b => { b with btsIdResp := true })
          |>.swActivateRequest sd ⟨nmOcSiteManager, nmOcNull, nmOcNull, nmOcNull⟩
          |>.setBts (fun b => { b with swSiteManager := nmMtSwActReq.toNat }))
  else .returned h

/-! ### `rsl_msg`

The messages of the radio link are written to the log and nothing else comes of them, but for the
pointer that `rest_octets_si3` reads through. -/

/-- `rest_octets_si3`: `poii` is set only if `octets` happens to be one. -/
def restOctetsSi3 (env : Env) (h : Handling) : Outcome :=
  if env.octets = 1 ∨ env.poii = true then .returned h else .stopped .fault h

/-- `rsl_mg_cch` -/
def rslMgCch (env : Env) (h : Handling) : Outcome :=
  if h.mem (headData + 1) = 0x11 then
    -- `sys_info->type`
    if h.mem (headData + 5) = 0x03 then restOctetsSi3 env h else .returned h
  else .returned h

def rslMsg (env : Env) (h : Handling) : Outcome :=
  -- `discr_T` is the low bit of the first octet, `discr_msg_group` the others
  let discr := h.mem headData
  if discr % 2 = 0 ∧ discr / 2 = 0x06 then rslMgCch env h else .returned h

/-! ### The dispatch -/

/-- `switch (ph->proto)` -/
def dispatch (env : Env) (sd : Link) (h : Handling) : Outcome :=
  if h.proto = protoSoftbts then softbtsMsg env sd h
  else if h.proto = protoOml then omlMsg env sd h
  else if h.proto = protoRsl then rslMsg env h
  else .returned h

end SoftBts
