import SoftBts.Lib.Machine
import SoftBts.OmlSpec
import SoftBts.ReceiveMsg

/-! The BTS handed one message after another: what each message does, and the machine whose runs the
results about histories are about. -/

namespace SoftBts

open Octets Reactive

/-! ### What `softbts_msg` and `rsl_msg` do -/

/-- The report that `initial_state_report` sends for an object. -/
def initialReport (o : Obj) : List UInt8 :=
  reportFrame o.inst nmOpstateDisabled nmAvstateNotInstalled nmStateLocked

def initialReplies : List (List UInt8) :=
  [initialReport .siteManager, initialReport .bts, initialReport .basebTransc] ++
    perChannel initialReport ++ [initialReport .radioCarrier]

/-- The end of `if( rc < 0) kill_background();`. -/
def killed (env : Env) (rc : Int) : Option Stop :=
  if rc < 0 ∧ env.lockPid = true then some .killed else none

/-- What the first MSG_ID_GET sets off. -/
def identify (sd : Link) (b : Bts) : Effect :=
  let b' := { b with btsIdResp := true }
  ⟨{ b' with swSiteManager := nmMtSwActReq.toNat },
    initialReplies.map (⟨sd, ·, b⟩) ++ [⟨sd, swActReqFrame Obj.siteManager.inst, b'⟩], none⟩

def Effect.softbts (env : Env) (sd : Link) (cmd : UInt8) (b : Bts) : Effect :=
  if cmd = msgPing then ⟨b, [⟨sd, pong, b⟩], killed env env.rc⟩
  else if cmd = msgIdGet then
    let sent := ⟨sd, idResp, b⟩
    if killed env (env.send 0) = none ∧ b.btsIdResp = false then
      { identify sd b with sent := sent :: (identify sd b).sent }
    else ⟨b, [sent], killed env (env.send 0)⟩
  else ⟨b, [], none⟩

theorem initialStateReport_eq (sd : Link) (h : Handling) :
    h.initialStateReport sd = h.deliverAll sd initialReplies := by
  simp only [Handling.initialStateReport, Handling.forChannels_report]
  simp [initialReplies, initialReport, perChannel, Obj.inst, Handling.stateChangedEventReport_eq,
    Handling.deliverAll_append]

theorem killOnFailure_eq (env : Env) (rc : Int) (h : Handling) :
    killOnFailure env rc h = ⟨h, killed env rc⟩ := by
  rw [killOnFailure, killed]
  split_ifs <;> rfl

theorem softbtsMsg_effect (env : Env) (sd : Link) (m : Mem) (b : Bts) :
    (softbtsMsg env sd (.start m b)).effect = .softbts env sd (m headData) b := by
  rw [softbtsMsg, Effect.softbts]
  simp only [killOnFailure_eq]
  show Outcome.effect (if m headData = msgPing then _ else if m headData = msgIdGet then _ else _) = _
  split_ifs with hping hget hfirst
  · rfl
  · obtain ⟨hkilled, hresp⟩ := hfirst
    show Outcome.effect (Outcome.andThen ⟨_, killed env (env.send 0)⟩ _) = _
    simp [Outcome.andThen, hkilled, Handling.sendArray, Handling.start, hresp, Outcome.effect,
      Outcome.returned, initialStateReport_eq, Handling.swActivateRequest_eq, Handling.setBts,
      identify, Obj.inst]
  · show Outcome.effect (Outcome.andThen ⟨_, killed env (env.send 0)⟩ _) = _
    cases hkilled : killed env (env.send 0) with
    | some why => rfl
    | none =>
        have hresp : b.btsIdResp = true := by simpa [hkilled] using hfirst
        simp [Outcome.andThen, Handling.sendArray, Handling.start, hresp, Outcome.effect,
          Outcome.returned]
  · rfl

/-- A message of the radio link changes no state and is not answered. -/
theorem rslMsg_effect (env : Env) (m : Mem) (b : Bts) :
    ∃ stop, (rslMsg env (.start m b)).effect = ⟨b, [], stop⟩ := by
  simp only [rslMsg, rslMgCch, restOctetsSi3]
  split_ifs
  all_goals exact ⟨_, rfl⟩

/-- What is on the wire: the octet strings sent, each with its socket. -/
def wire (sent : List Sent) : List (Link × List UInt8) := sent.map fun s => (s.sd, s.octets)

theorem wire_answer (sd : Link) (b : Bts) (replies : List (List UInt8)) :
    wire (Effect.answer sd b replies).sent = replies.map (sd, ·) := by
  rw [wire, Effect.answer, List.map_map]
  rfl

/-! ### The machine -/

/-- A message in the buffer, the socket it came from, and what its handling takes from outside. -/
structure Message where
  env : Env
  sd : Link
  mem : Mem

/-- The state of the BTS between messages; nothing is handled after a stop. -/
structure World where
  bts : Bts
  stop : Option Stop

/-- The BTS when it starts. -/
def World.init : World := ⟨startup, none⟩

/-- The handling of a message. -/
def Message.handling (i : Message) (b : Bts) : Outcome := dispatch i.env i.sd (.start i.mem b)

/-- The machine that handles one message after another and puts out the calls of send(). -/
def handler : Machine World Message Sent where
  step w i :=
    match w.stop with
    | some _ => (w, [])
    | none =>
        let r := i.handling w.bts
        (⟨r.handling.bts, r.stop⟩, r.handling.sent)

namespace Message

def proto (i : Message) : UInt8 := i.mem headProto

def cmd (i : Message) : UInt8 := i.mem headData

/-- What `oml_msg` reads of the message, whatever the state. -/
def request (i : Message) : Request := (Handling.start i.mem startup).request i.env

/-- What a message does in a state. -/
def effect (i : Message) (b : Bts) : Effect := (i.handling b).effect

theorem effect_softbts {i : Message} (hproto : i.proto = protoSoftbts) (b : Bts) :
    i.effect b = .softbts i.env i.sd i.cmd b := by
  have hdispatch : i.handling b = softbtsMsg i.env i.sd (.start i.mem b) := if_pos hproto
  rw [effect, hdispatch, softbtsMsg_effect]
  rfl

theorem effect_oml {i : Message} (hproto : i.proto = protoOml) (b : Bts) :
    i.effect b = .oml i.env i.sd i.request b := by
  have hne : i.proto ≠ protoSoftbts := by rw [hproto]; decide
  have hdispatch : i.handling b = omlMsg i.env i.sd (.start i.mem b) :=
    (if_neg hne).trans (if_pos hproto)
  rw [effect, hdispatch, omlMsg_effect]
  rfl

/-- Messages of other protocols change nothing and are not answered. -/
theorem effect_other {i : Message} (hsoftbts : i.proto ≠ protoSoftbts) (homl : i.proto ≠ protoOml)
    (b : Bts) : ∃ stop, i.effect b = ⟨b, [], stop⟩ := by
  have hdispatch : i.handling b =
      if i.proto = protoRsl then rslMsg i.env (.start i.mem b) else .returned (.start i.mem b) :=
    (if_neg hsoftbts).trans (if_neg homl)
  rw [effect, hdispatch]
  split_ifs
  · exact rslMsg_effect i.env i.mem b
  · exact ⟨none, rfl⟩

end Message

theorem handler_step_stopped {w : World} {why : Stop} (hw : w.stop = some why) (i : Message) :
    handler.step w i = (w, []) := by
  simp [handler, hw]

theorem handler_step_running {w : World} (hw : w.stop = none) (i : Message) :
    handler.step w i = (⟨(i.effect w.bts).bts, (i.effect w.bts).stop⟩, (i.effect w.bts).sent) := by
  simp [handler, hw, Message.effect, Outcome.effect]

/-! ### Messages of a BSC -/

/-- A formatted O&M message with its header, as a BSC sends it. -/
def bscRequest (msgType : UInt8) (o : ObjInst) (attrs : List UInt8) : List UInt8 :=
  [0x00, 9 + UInt8.ofNat attrs.length, protoOml, abisOmMdiscFom, abisOmPlacementOnly, 0x00,
    5 + UInt8.ofNat attrs.length, msgType, o.objClass, o.btsNr, o.trxNr, o.tsNr] ++ attrs

/-- Sends succeed and no indeterminate value does harm. -/
def Env.plain : Env where
  turns := 0
  send := fun _ => 0
  rc := 0
  lockPid := true
  octets := 1
  poii := true

/-- A message on the O&M link, in a buffer of zeros. -/
def Message.onOml (octets : List UInt8) : Message := ⟨.plain, .oml, Mem.blank.store 0 octets⟩

end SoftBts
