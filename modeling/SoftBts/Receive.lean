import SoftBts.Run

/-! `receive_msg`: two calls of recv() put a message into the buffer, then it is dispatched on its
protocol. The buffer is not cleared before. -/

namespace SoftBts

open Octets Reactive

/-! ### recv() -/

/-- One call of recv(): its result and the octets it puts into the buffer. -/
structure Recv where
  rc : Int
  octets : List UInt8

/-- recv() for `n` octets on a non-blocking socket that holds `stream`, when it has at most `k` to
give. -/
def recv (k n : Nat) (stream : List UInt8) : Recv :=
  let octets := stream.take (min k n)
  if octets = [] ∧ n ≠ 0 then ⟨-1, []⟩ else ⟨octets.length, octets⟩

/-- How many octets the two calls have to give at most. -/
structure Split where
  head : Nat
  body : Nat

/-- The buffer after the two calls, what they found, and what they left. -/
structure Reading where
  mem : Mem
  len : Nat
  body : List UInt8
  rc : Int
  stream : List UInt8

/-- The calls of recv() in `receive_msg`. -/
def readMessage (split : Split) (stream : List UInt8) (m : Mem) : Reading :=
  let head := recv split.head 3 stream
  let stream := stream.drop head.octets.length
  let m := m.store headLen head.octets
  let len := (htons (m.load16 headLen)).toNat
  let body := recv split.body len stream
  { mem := m.store headData body.octets
    len := len
    body := body.octets
    rc := body.rc
    stream := stream.drop body.octets.length }

/-! ### Room -/

/-- The size of the array that `debug` prints a line into. -/
def lineSize : Nat := 1024

/-- The line that is logged for a message fits: the text before the octets, three characters for each
of them, the end of the line and the terminator. -/
def logFits (proto : UInt8) (len : Nat) : Bool :=
  if proto = protoSoftbts then 12 + 3 * (len + 3) + 2 ≤ lineSize
  else if proto = protoOml ∨ proto = protoRsl then 8 + 3 * (len + 3) + 2 ≤ lineSize
  else true

/-- Everything was stored inside the arrays. -/
def Reading.fits (r : Reading) : Bool :=
  headData + r.body.length ≤ bufferLength ∧ logFits (r.mem headProto) r.len

/-! ### `receive_msg` -/

/-- `receive_msg` after the calls of recv(). -/
def receiveMsg (env : Env) (sd : Link) (r : Reading) (b : Bts) : Outcome :=
  if r.fits then dispatch env sd (.start r.mem b) else .stopped .fault (.start r.mem b)

/-- A frame as it is sent on a connection. -/
structure Frame where
  proto : UInt8
  body : List UInt8
  length_le : body.length ≤ 252

namespace Frame

def octets (f : Frame) : List UInt8 := octets16 f.body.length ++ f.proto :: f.body

variable (f : Frame)

@[simp] theorem length_octets : f.octets.length = f.body.length + 3 := by
  simp [octets, octets16]

/-- The frame read into a buffer. -/
def into (m : Mem) : Mem := m.store 0 f.octets

theorem into_apply_of_lt {m m' : Mem} {i : Nat} (h : i < f.octets.length) :
    f.into m i = f.into m' i := by
  simp [into, List.getElem?_eq_getElem h]

theorem into_apply_of_ge {m : Mem} {i : Nat} (h : f.octets.length ≤ i) : f.into m i = m i :=
  Mem.store_apply_of_ge m f.octets (by omega)

@[simp] theorem into_headProto (m : Mem) : f.into m headProto = f.proto := by
  simp [into, headProto, octets, octets16]

end Frame

theorem recv_append {k n : Nat} {octets : List UInt8} (hlen : octets.length = n) (hk : n ≤ k)
    (rest : List UInt8) : recv k n (octets ++ rest) = ⟨n, octets⟩ := by
  subst hlen
  rw [recv, Nat.min_eq_right hk, List.take_left]
  by_cases hnil : octets = []
  · simp [hnil]
  · simp [hnil]

/-- The length field that a store at the start of the buffer leaves there. -/
theorem htons_load16_store {n : Nat} (h : n < 65536) (m : Mem) (octets : List UInt8) :
    (htons ((m.store headLen (octets16 n ++ octets)).load16 headLen)).toNat = n := by
  rw [htons_load16]
  simpa [headLen, octets16] using be16_octets16 h

/-- A frame that the two calls get whole. -/
theorem readMessage_frame (f : Frame) {split : Split} (hhead : 3 ≤ split.head)
    (hbody : f.body.length ≤ split.body) (rest : List UInt8) (m : Mem) :
    readMessage split (f.octets ++ rest) m =
      ⟨f.into m, f.body.length, f.body, f.body.length, rest⟩ := by
  have hoctets : f.octets ++ rest =
      (octets16 f.body.length ++ [f.proto]) ++ (f.body ++ rest) := by
    simp [Frame.octets]
  have hlen := f.length_le
  have hrecv : recv split.head 3 ((octets16 f.body.length ++ [f.proto]) ++ (f.body ++ rest)) =
      ⟨(3 : Nat), octets16 f.body.length ++ [f.proto]⟩ :=
    recv_append (by simp [octets16]) hhead _
  have hstore : (m.store headLen (octets16 f.body.length ++ [f.proto])).store headData f.body =
      f.into m := by
    rw [Mem.store_store _ _ _ (by decide) (by simp [headLen, headData, octets16])]
    simp [Frame.into, Frame.octets, octets16, headLen, headData, List.drop_eq_nil_of_le]
  have hload := htons_load16_store (n := f.body.length) (by omega) m [f.proto]
  have hdrop : ((octets16 f.body.length ++ [f.proto]) ++ (f.body ++ rest)).drop
      (octets16 f.body.length ++ [f.proto]).length = f.body ++ rest := List.drop_left
  simp only [readMessage, hoctets, hrecv, hdrop, hload, recv_append rfl hbody, hstore,
    List.drop_left]

theorem fits_frame (f : Frame) (m : Mem) (stream : List UInt8) (rc : Int) :
    (⟨f.into m, f.body.length, f.body, rc, stream⟩ : Reading).fits = true := by
  have hlen := f.length_le
  have hlog : logFits f.proto f.body.length = true := by
    rw [logFits, lineSize]
    split_ifs
    · exact decide_eq_true (by omega)
    · exact decide_eq_true (by omega)
    · rfl
  simp only [Reading.fits, Frame.into_headProto, hlog, headData, bufferLength, and_true,
    decide_eq_true_eq]
  omega

/-- The message that a frame read into a buffer is. -/
def Frame.message (f : Frame) (env : Env) (sd : Link) (m : Mem) : Message := ⟨env, sd, f.into m⟩

theorem Frame.proto_message (f : Frame) (env : Env) (sd : Link) (m : Mem) :
    (f.message env sd m).proto = f.proto := f.into_headProto m

/-- **A frame received whole** is dispatched, over what the buffer held before. -/
theorem receiveMsg_frame (f : Frame) (env : Env) (sd : Link) (m : Mem) (b : Bts) (split : Split)
    (hhead : 3 ≤ split.head) (hbody : f.body.length ≤ split.body) (rest : List UInt8) :
    receiveMsg env sd (readMessage split (f.octets ++ rest) m) b =
      (f.message env sd m).handling b := by
  rw [readMessage_frame f hhead hbody, receiveMsg, if_pos (fits_frame _ _ _ _)]
  rfl

/-- The frame received whole, over what the buffer held. -/
def Frame.received (f : Frame) (env : Env) (sd : Link) (m : Mem) (b : Bts) : Outcome :=
  receiveMsg env sd (readMessage ⟨3, f.body.length⟩ f.octets m) b

theorem received_effect (f : Frame) (env : Env) (sd : Link) (m : Mem) (b : Bts) :
    (f.received env sd m b).effect = (f.message env sd m).effect b := by
  have h := receiveMsg_frame f env sd m b ⟨3, f.body.length⟩ le_rfl le_rfl []
  rw [List.append_nil] at h
  rw [Frame.received, h, Message.effect]

end SoftBts
