import SoftBts.BufferBounds
import SoftBts.FrameSync

/-! `receive_msg` when a call of recv() finds the end of the connection or fails. It goes on with what
the buffer holds, so that no handler is run only where the buffer holds a protocol without one. -/

namespace SoftBts

open Octets Reactive

/-! ### What recv() reports -/

/-- The errors of recv(): nothing to read yet, interrupted, and those of a connection that is gone. -/
inductive Errno where
  | again
  | intr
  | fatal
  deriving DecidableEq

/-- What a call of recv() reports: octets, zero, or -1 with an error. -/
inductive RecvResult where
  | octets (first : UInt8) (rest : List UInt8)
  | zero
  | error (e : Errno)
  deriving DecidableEq

namespace RecvResult

/-- The call for `n` octets that reports this. -/
def recv (n : Nat) : RecvResult → Recv
  | octets first rest => ⟨((first :: rest).take n).length, (first :: rest).take n⟩
  | zero => ⟨0, []⟩
  | error _ => ⟨-1, []⟩

def failed : RecvResult → Bool
  | octets _ _ => false
  | _ => true

theorem octets_recv_of_failed {r : RecvResult} (h : r.failed = true) (n : Nat) :
    (r.recv n).octets = [] := by
  cases r with
  | octets first rest => cases h
  | zero => rfl
  | error e => rfl

/-- The report of a call of recv() on a stream. -/
def ofRecv (r : Recv) : RecvResult :=
  match r.octets with
  | first :: rest => octets first rest
  | [] => if r.rc = 0 then zero else error .again

theorem recv_ofRecv (k n : Nat) (stream : List UInt8) :
    (ofRecv (SoftBts.recv k n stream)).recv n = SoftBts.recv k n stream := by
  rw [SoftBts.recv]
  split_ifs with hnothing
  · rfl
  · cases hoctets : stream.take (min k n) with
    | nil =>
        have hn : n = 0 := by simpa [hoctets] using hnothing
        subst hn
        rfl
    | cons first rest =>
        have hlen : (first :: rest).length ≤ n := by
          rw [← hoctets, List.length_take]
          omega
        show (octets first rest).recv n = _
        rw [recv, List.take_of_length_le hlen]

end RecvResult

/-- What the two calls of recv() in `receive_msg` report. -/
structure Results where
  head : RecvResult
  body : RecvResult

namespace Results

/-- The buffer after the first call. -/
def header (x : Results) (m : Mem) : Mem := m.store headLen (x.head.recv 3).octets

def reading (x : Results) (m : Mem) : Reading :=
  let m := x.header m
  let len := (htons (m.load16 headLen)).toNat
  let body := x.body.recv len
  { mem := m.store headData body.octets, len := len, body := body.octets, rc := body.rc, stream := [] }

/-- The calls on a stream are calls that report what they find. -/
theorem reading_ofRecv (split : Split) (stream : List UInt8) (m : Mem) :
    let r := readMessage split stream m
    let head := SoftBts.recv split.head 3 stream
    let body := SoftBts.recv split.body r.len (stream.drop head.octets.length)
    (Results.mk (.ofRecv head) (.ofRecv body)).reading m = { r with stream := [] } := by
  simp only [reading, header, RecvResult.recv_ofRecv, readMessage]

variable {x : Results}

theorem len_reading (x : Results) (m : Mem) : (x.reading m).len = declaredLen (x.header m) :=
  htons_load16 (x.header m) headLen

theorem proto_reading (x : Results) (m : Mem) :
    (x.reading m).mem headProto = x.header m headProto :=
  Mem.store_apply_of_lt _ (x.reading m).body (show 2 < 3 by decide)

theorem header_of_failed (h : x.head.failed = true) (m : Mem) : x.header m = m := by
  rw [header, RecvResult.octets_recv_of_failed h]
  funext i
  simp [Mem.store]

end Results

/-! ### Handlers -/

/-- What the three protocols are handed to. -/
structure Handlers where
  softbts : Handling → Outcome
  oml : Handling → Outcome
  rsl : Handling → Outcome

/-- `softbts_msg`, `oml_msg` and `rsl_msg`. -/
def Handlers.own (env : Env) (sd : Link) : Handlers :=
  ⟨softbtsMsg env sd, omlMsg env sd, rslMsg env⟩

/-- `receive_msg` after the calls of recv(), with any handlers. -/
def receiveMsgWith (hs : Handlers) (r : Reading) (b : Bts) : Outcome :=
  let h := Handling.start r.mem b
  if r.fits then
    if h.proto = protoSoftbts then hs.softbts h
    else if h.proto = protoOml then hs.oml h
    else if h.proto = protoRsl then hs.rsl h
    else .returned h
  else .stopped .fault h

theorem receiveMsgWith_own (env : Env) (sd : Link) (r : Reading) (b : Bts) :
    receiveMsgWith (.own env sd) r b = receiveMsg env sd r b := rfl

/-- No handler is run: whatever the handlers do, `receive_msg` comes back and nothing was done. -/
def Inert (r : Reading) (b : Bts) : Prop :=
  ∀ hs, receiveMsgWith hs r b = .returned (.start r.mem b)

theorem hasHandler_eq_false_iff {proto : UInt8} :
    hasHandler proto = false ↔ proto ≠ protoSoftbts ∧ proto ≠ protoOml ∧ proto ≠ protoRsl := by
  rw [hasHandler, decide_eq_false_iff_not, List.mem_cons, List.mem_cons, List.mem_singleton, not_or,
    not_or]

theorem inert_iff {r : Reading} {b : Bts} :
    Inert r b ↔ r.fits = true ∧ hasHandler (r.mem headProto) = false := by
  constructor
  · intro h
    -- handlers that do not come back
    have hstop := congrArg Outcome.stop (h ⟨.stopped .fault, .stopped .fault, .stopped .fault⟩)
    rw [receiveMsgWith] at hstop
    split_ifs at hstop with hfits hsoftbts homl hrsl
    · cases hstop
    · cases hstop
    · cases hstop
    · exact ⟨hfits, hasHandler_eq_false_iff.mpr ⟨hsoftbts, homl, hrsl⟩⟩
    · cases hstop
  · rintro ⟨hfits, hnone⟩ hs
    obtain ⟨hsoftbts, homl, hrsl⟩ := hasHandler_eq_false_iff.mp hnone
    exact (if_pos hfits).trans ((if_neg hsoftbts).trans ((if_neg homl).trans (if_neg hrsl)))

/-- A header that was not read: the message is dropped if and only if the protocol octet that is in the
buffer has no handler, and what the second call delivers fits. -/
theorem inert_iff_of_failed {x : Results} (h : x.head.failed = true) (m : Mem) (b : Bts) :
    Inert (x.reading m) b ↔
      hasHandler (m headProto) = false ∧ (x.body.recv (declaredLen m)).octets.length ≤ 252 := by
  have hproto : (x.reading m).mem headProto = m headProto := by
    rw [x.proto_reading, Results.header_of_failed h]
  have hbody : (x.reading m).body = (x.body.recv (declaredLen m)).octets := by
    show (x.body.recv (x.reading m).len).octets = _
    rw [x.len_reading, Results.header_of_failed h]
  rw [inert_iff, hproto, and_comm]
  refine and_congr_right fun hnone => ?_
  have hlog : logFits (m headProto) (x.reading m).len = true := by
    obtain ⟨hsoftbts, homl, hrsl⟩ := hasHandler_eq_false_iff.mp hnone
    exact logFits_iff.mpr ⟨fun h => absurd h hsoftbts, fun h => absurd h (not_or.mpr ⟨homl, hrsl⟩)⟩
  rw [Reading.fits, decide_eq_true_iff, hproto, hlog, and_iff_left rfl, hbody]
  exact Nat.add_le_add_iff_left (n := headData) (k := 252)

/-! ### Runs -/

/-- A callback: the connection, what the two calls of recv() report, and what the handling takes from
outside. -/
structure RecvCall extends Results where
  env : Env
  sd : Link

/-- One call of `receive_msg` after another. -/
def receiver : Machine System RecvCall Sent where
  step s c :=
    match s.stop with
    | some _ => (s, [])
    | none =>
        let o := receiveMsg c.env c.sd (c.reading (s.buffer c.sd)) s.bts
        (s.received c.sd o, o.handling.sent)

/-- A call of `receive_msg` that runs no handler: no management variable changes and nothing is
sent. -/
structure Ignored (s : System) (c : RecvCall) : Prop where
  inert : Inert (c.reading (s.buffer c.sd)) s.bts
  state : (receiver.step s c).1.bts = s.bts
  stop : (receiver.step s c).1.stop = none
  sent : (receiver.step s c).2 = []

/-- The buffer holds a protocol without a handler, and what the second call delivers fits. -/
def NoMessage (s : System) (c : RecvCall) : Prop :=
  hasHandler (s.buffer c.sd headProto) = false ∧
    (c.body.recv (declaredLen (s.buffer c.sd))).octets.length ≤ 252

variable {s : System} {c : RecvCall}

theorem receiver_step_running (hs : s.stop = none) :
    receiver.step s c =
      (s.received c.sd (receiveMsg c.env c.sd (c.reading (s.buffer c.sd)) s.bts),
        (receiveMsg c.env c.sd (c.reading (s.buffer c.sd)) s.bts).handling.sent) := by
  simp [receiver, hs]

theorem receiver_step_inert (hs : s.stop = none) (h : Inert (c.reading (s.buffer c.sd)) s.bts) :
    receiver.step s c =
      (s.received c.sd (.returned (.start (c.reading (s.buffer c.sd)).mem s.bts)), []) := by
  rw [receiver_step_running hs, ← receiveMsgWith_own, h]
  rfl

theorem ignored_iff (hs : s.stop = none) (hfailed : c.head.failed = true) :
    Ignored s c ↔ NoMessage s c := by
  rw [NoMessage, ← inert_iff_of_failed hfailed (s.buffer c.sd) s.bts]
  refine ⟨Ignored.inert, fun h => ⟨h, ?_, ?_, ?_⟩⟩
  · rw [receiver_step_inert hs h]
    cases c.sd <;> rfl
  · rw [receiver_step_inert hs h]
    cases c.sd <;> rfl
  · rw [receiver_step_inert hs h]

/-- **Ends and errors.** In every run of calls of `receive_msg` on any connections, those whose
header is not read run no handler, change no management variable and send nothing, if and only if in
each of them the buffer holds a protocol without a handler and what the second call of recv()
delivers fits. -/
theorem failed_ignored_iff (s : System) (cs : List RecvCall) :
    receiver.Meets (fun s c => s.stop = none → c.head.failed = true → Ignored s c) s cs ↔
      receiver.Meets (fun s c => s.stop = none → c.head.failed = true → NoMessage s c) s cs := by
  apply receiver.meets_congr
  intro s c
  exact forall_congr' fun hs => forall_congr' fun hfailed => ignored_iff hs hfailed

/-- A call that ignores what the buffer holds leaves the header there. -/
theorem agreeBelow_ignored (hs : s.stop = none) (hfailed : c.head.failed = true)
    (h : NoMessage s c) :
    Mem.AgreeBelow 3 ((receiver.step s c).1.buffer c.sd) (s.buffer c.sd) := by
  have hinert := (inert_iff_of_failed hfailed (s.buffer c.sd) s.bts).mpr h
  have hbuffer : (receiver.step s c).1.buffer c.sd = (c.reading (s.buffer c.sd)).mem := by
    rw [receiver_step_inert hs hinert]
    cases c.sd <;> rfl
  intro i hi
  rw [hbuffer]
  calc (c.reading (s.buffer c.sd)).mem i
    _ = c.header (s.buffer c.sd) i := Mem.store_apply_of_lt _ (c.reading (s.buffer c.sd)).body hi
    _ = s.buffer c.sd i := by rw [Results.header_of_failed hfailed]

/-- As long as a connection stays at its end or in an error, the buffer it was found with decides. -/
theorem failed_run_iff {sd : Link} (s : System) (cs : List RecvCall) (hs : s.stop = none)
    (hcs : ∀ c ∈ cs, c.sd = sd ∧ c.head.failed = true) :
    receiver.Meets Ignored s cs ↔ ∀ c ∈ cs, NoMessage s c := by
  induction cs generalizing s with
  | nil => exact iff_of_true trivial (List.forall_mem_nil _)
  | cons c cs ih =>
      obtain ⟨⟨hsd, hfailed⟩, hrest⟩ := List.forall_mem_cons.mp hcs
      rw [Machine.meets_cons, List.forall_mem_cons, ignored_iff hs hfailed]
      refine and_congr_right fun h => ?_
      have hagree := agreeBelow_ignored hs hfailed h
      have hstop := ((ignored_iff hs hfailed).mpr h).stop
      rw [ih _ hstop hrest]
      refine forall₂_congr fun c' hc' => ?_
      have hsd' : c'.sd = c.sd := (hrest c' hc').1.trans hsd.symm
      have hproto : (receiver.step s c).1.buffer c.sd headProto = s.buffer c.sd headProto :=
        hagree 2 (by decide)
      have hlen : declaredLen ((receiver.step s c).1.buffer c.sd) = declaredLen (s.buffer c.sd) :=
        congrArg₂ be16 (hagree 0 (by decide)) (hagree 1 (by decide))
      rw [NoMessage, NoMessage, hsd', hproto, hlen]

/-- An O&M connection that ends after a PING has been answered on it: the PING is answered again. -/
theorem endOfFile_handled :
    let ping : RecvCall := ⟨⟨.octets 0x00 [0x01, protoSoftbts], .octets msgPing []⟩, .plain, .oml⟩
    let gone : RecvCall := ⟨⟨.zero, .zero⟩, .plain, .oml⟩
    wire (receiver.outputs System.init [ping, gone]) =
        [(.oml, pong), (.oml, pong)] ∧
      ¬ receiver.Meets (fun s c => s.stop = none → c.head.failed = true → Ignored s c) System.init
        [ping, gone] := by
  intro ping gone
  refine ⟨by decide, fun h => ?_⟩
  have hsent : (receiver.step (receiver.step System.init ping).1 gone).2 = [] :=
    (h.2.1 (by decide) rfl).sent
  exact absurd hsent (List.ne_nil_of_length_pos (by decide))

end SoftBts
