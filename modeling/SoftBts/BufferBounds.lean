import SoftBts.Lib.Arrays
import SoftBts.Receive

/-! The arrays that `receive_msg` fills before it dispatches a message: the message buffer from the
socket, `hexbuf` from the octets of the message, and the line of `debug` from `hexbuf`. -/

namespace SoftBts

open Arrays Octets

/-! ### The arrays and the texts -/

/-- `msg` or `msg_trx`, the buffer of `hexdump`, and the line of `debug`. -/
inductive CArray where
  | msg
  | hexbuf
  | line
  deriving DecidableEq

def CArray.size : CArray → Nat
  | .msg => bufferLength
  | .hexbuf => 1024
  | .line => lineSize

def hexDigit (n : Nat) : UInt8 := if n < 10 then UInt8.ofNat (0x30 + n) else UInt8.ofNat (0x57 + n)

/-- An octet printed with "%02x". -/
def hexOctet (o : UInt8) : List UInt8 := [hexDigit (o.toNat / 16), hexDigit (o.toNat % 16)]

/-- "SOFTBTS RX: " -/
def softbtsRx : List UInt8 :=
  [0x53, 0x4f, 0x46, 0x54, 0x42, 0x54, 0x53, 0x20, 0x52, 0x58, 0x3a, 0x20]

/-- "OML RX: " -/
def omlRx : List UInt8 := [0x4f, 0x4d, 0x4c, 0x20, 0x52, 0x58, 0x3a, 0x20]

/-- "RSL RX: " -/
def rslRx : List UInt8 := [0x52, 0x53, 0x4c, 0x20, 0x52, 0x58, 0x3a, 0x20]

/-- "Unknown protocol proto=0x" -/
def unknownProtocol : List UInt8 :=
  [0x55, 0x6e, 0x6b, 0x6e, 0x6f, 0x77, 0x6e, 0x20, 0x70, 0x72, 0x6f, 0x74, 0x6f, 0x63, 0x6f, 0x6c,
    0x20, 0x70, 0x72, 0x6f, 0x74, 0x6f, 0x3d, 0x30, 0x78]

/-- The colours of debug messages, DNM and DHX. -/
def dnm : Nat := 4

def dhx : Nat := 2

/-- "\033[1;31;%dm" -/
def colour (dtype : Nat) : List UInt8 :=
  [0x1b, 0x5b, 0x31, 0x3b, 0x33, 0x31, 0x3b, 0x33, UInt8.ofNat (0x30 + dtype), 0x6d]

/-! ### The stores -/

/-- The loop of `hexdump` from `phb` on, and where it leaves `phb`. -/
def hexdumpLoop (phb : Nat) : List UInt8 → List (Store CArray) × Nat
  | [] => ([], phb)
  | o :: os =>
      let rc := (hexOctet o).length
      let (ws, last) := hexdumpLoop (phb + rc + 1) os
      (sprintf .hexbuf phb (hexOctet o) ++ ⟨.hexbuf, phb + rc, 0x20⟩ :: ws, last)

def hexdump (buf : List UInt8) : List (Store CArray) :=
  let (ws, phb) := hexdumpLoop 0 buf
  ws ++ [⟨.hexbuf, phb, 0⟩]

/-- The string that `hexdump` leaves in a buffer that held `m`. -/
def hexString (m : Mem) (buf : List UInt8) : List UInt8 :=
  stringAt (contents .hexbuf m (hexdump buf)) 0 (3 * buf.length + 1)

/-- `debug`, when the log file opens: the colour and the message are printed into one line. -/
def debug (dtype : Nat) (text : List UInt8) : List (Store CArray) :=
  sprintf .line 0 (colour dtype) ++ sprintf .line 0 text

/-- `debug` with the octets of a message after `text`; `m` is what `hexbuf` held. -/
def debugDump (m : Mem) (text buf : List UInt8) : List (Store CArray) :=
  hexdump buf ++ debug dhx (text ++ hexString m buf ++ [0x0a])

/-- The stores of `receive_msg` before it calls a handler; `hexbuf` is what that array held. -/
def receiveStores (split : Split) (stream : List UInt8) (m hexbuf : Mem) : List (Store CArray) :=
  let r := readMessage split stream m
  let buf := r.mem.load 0 (r.len + 3)
  let proto := r.mem headProto
  storeOctets .msg headLen (recv split.head 3 stream).octets ++ storeOctets .msg headData r.body ++
    if proto = protoSoftbts then debugDump hexbuf softbtsRx buf
    else if proto = protoOml then debugDump hexbuf omlRx buf
    else if proto = protoRsl then debugDump hexbuf rslRx buf
    else debug dnm (unknownProtocol ++ hexOctet proto ++ [0x0a])

/-! ### `hexdump` -/

/-- The text of a dump. -/
def hexText (buf : List UInt8) : List UInt8 := buf.flatMap fun o => hexOctet o ++ [0x20]

@[simp] theorem length_hexText (buf : List UInt8) : (hexText buf).length = 3 * buf.length := by
  induction buf with
  | nil => rfl
  | cons o os ih =>
      rw [hexText, List.flatMap_cons, List.length_append, ← hexText, ih]
      show 3 + 3 * os.length = 3 * (os.length + 1)
      omega

theorem hexDigit_ne_zero : ∀ n < 16, hexDigit n ≠ 0 := by decide

theorem zero_notMem_hexText (buf : List UInt8) : 0 ∉ hexText buf := by
  rw [hexText, List.mem_flatMap]
  rintro ⟨o, -, ho⟩
  have hlt := o.toNat_lt
  have hhigh := hexDigit_ne_zero (o.toNat / 16) (by omega)
  have hlow := hexDigit_ne_zero (o.toNat % 16) (by omega)
  simp [hexOctet, hhigh.symm, hlow.symm] at ho

theorem hexdumpLoop_last (phb : Nat) (buf : List UInt8) :
    (hexdumpLoop phb buf).2 = phb + 3 * buf.length := by
  induction buf generalizing phb with
  | nil => rfl
  | cons o os ih =>
      show (hexdumpLoop (phb + 3) os).2 = _
      rw [ih, List.length_cons]
      omega

theorem inside_hexdumpLoop {phb : Nat} {buf : List UInt8}
    (h : phb + 3 * buf.length ≤ CArray.size .hexbuf) :
    Inside CArray.size (hexdumpLoop phb buf).1 := by
  induction buf generalizing phb with
  | nil => exact inside_nil
  | cons o os ih =>
      rw [List.length_cons] at h
      show Inside CArray.size (sprintf .hexbuf phb (hexOctet o) ++
        ⟨.hexbuf, phb + 2, 0x20⟩ :: (hexdumpLoop (phb + 3) os).1)
      rw [inside_append, inside_cons, inside_sprintf_iff]
      refine ⟨?_, ?_, ih (by omega)⟩
      · show phb + 2 + 1 ≤ _
        omega
      · show phb + 2 < CArray.size .hexbuf
        omega

theorem inside_hexdump_iff (buf : List UInt8) :
    Inside CArray.size (hexdump buf) ↔ 3 * buf.length < CArray.size .hexbuf := by
  show Inside CArray.size ((hexdumpLoop 0 buf).1 ++ [⟨.hexbuf, (hexdumpLoop 0 buf).2, 0⟩]) ↔ _
  rw [inside_append, inside_cons, hexdumpLoop_last, Nat.zero_add, and_iff_left inside_nil]
  exact and_iff_right_of_imp fun h => inside_hexdumpLoop (by rw [Nat.zero_add]; exact Nat.le_of_lt h)

theorem contents_hexdumpLoop (m : Mem) (phb : Nat) (buf : List UInt8) :
    contents .hexbuf m (hexdumpLoop phb buf).1 = m.store phb (hexText buf) := by
  induction buf generalizing m phb with
  | nil =>
      funext i
      simp [hexdumpLoop, contents, hexText, Mem.store]
  | cons o os ih =>
      -- the blank takes the place of the terminator
      have hblank : (m.store phb (hexOctet o ++ [0])).store (phb + 2) [0x20] =
          m.store phb (hexOctet o ++ [0x20]) := by
        rw [Mem.store_store _ _ _ (Nat.le_add_right _ _) (Nat.le_succ _), Nat.add_sub_cancel_left]
        rfl
      calc contents .hexbuf m (sprintf .hexbuf phb (hexOctet o) ++
            ⟨.hexbuf, phb + 2, 0x20⟩ :: (hexdumpLoop (phb + 3) os).1)
        _ = contents .hexbuf ((m.store phb (hexOctet o ++ [0])).store (phb + 2) [0x20])
              (hexdumpLoop (phb + 3) os).1 := by
            rw [contents_append, sprintf, contents_storeOctets, contents, if_pos rfl]
        _ = (m.store phb (hexOctet o ++ [0x20])).store (phb + 3) (hexText os) := by
            rw [hblank, ih]
        _ = m.store phb (hexText (o :: os)) :=
            Mem.store_append m phb (hexOctet o ++ [0x20]) (hexText os)

/-- The dump that `debug` prints is all of the text. -/
theorem hexString_eq (m : Mem) (buf : List UInt8) : hexString m buf = hexText buf := by
  have hcontents : contents .hexbuf m (hexdump buf) = m.store 0 (hexText buf ++ [0]) := by
    show contents .hexbuf m ((hexdumpLoop 0 buf).1 ++ [⟨.hexbuf, (hexdumpLoop 0 buf).2, 0⟩]) = _
    rw [contents_append, contents_hexdumpLoop, hexdumpLoop_last, ← length_hexText,
      ← Mem.store_append]
    rfl
  calc hexString m buf
    _ = stringAt (m.store 0 (hexText buf ++ [0])) 0 ((hexText buf).length + 1) := by
        rw [hexString, hcontents, length_hexText]
    _ = hexText buf := stringAt_store m 0 (zero_notMem_hexText buf)

/-! ### The bounds -/

/-- The buffer with the header that the first call of recv() gives. -/
def headed (split : Split) (stream : List UInt8) (m : Mem) : Mem :=
  m.store headLen (stream.take (min split.head 3))

/-- The length that a header declares. -/
def declaredLen (header : Mem) : Nat := be16 (header headLen) (header (headLen + 1))

/-- How many octets the second call of recv() delivers. -/
def deliveredLen (split : Split) (stream : List UInt8) (header : Mem) : Nat :=
  min (min split.body (declaredLen header)) (stream.length - min split.head 3)

/-- A message that the arrays have room for. -/
structure Roomy (split : Split) (stream : List UInt8) (header : Mem) : Prop where
  delivered : deliveredLen split stream header ≤ 252
  softbts : header headProto = protoSoftbts → declaredLen header ≤ 333
  abis : header headProto = protoOml ∨ header headProto = protoRsl → declaredLen header ≤ 335

theorem logFits_iff {proto : UInt8} {len : Nat} :
    logFits proto len = true ↔ (proto = protoSoftbts → len ≤ 333) ∧
      (proto = protoOml ∨ proto = protoRsl → len ≤ 335) := by
  rw [logFits, lineSize]
  split_ifs with hsoftbts habis
  · have hother : ¬ (proto = protoOml ∨ proto = protoRsl) := by
      rw [hsoftbts]
      decide
    rw [decide_eq_true_iff]
    constructor
    · exact fun h => ⟨fun _ => by omega, fun habis => absurd habis hother⟩
    · intro h
      have := h.1 hsoftbts
      omega
  · rw [decide_eq_true_iff]
    constructor
    · exact fun h => ⟨fun hproto => absurd hproto hsoftbts, fun _ => by omega⟩
    · intro h
      have := h.2 habis
      omega
  · exact iff_of_true rfl ⟨fun hproto => absurd hproto hsoftbts, fun hproto => absurd hproto habis⟩

theorem octets_recv (k n : Nat) (stream : List UInt8) :
    (recv k n stream).octets = stream.take (min k n) := by
  rw [recv]
  split_ifs with h
  · exact h.1.symm
  · rfl

/-- What the calls of recv() find, by what they are given. -/
theorem readMessage_given (split : Split) (stream : List UInt8) (m : Mem) :
    (readMessage split stream m).len = declaredLen (headed split stream m) ∧
      (readMessage split stream m).body.length =
        deliveredLen split stream (headed split stream m) ∧
      (readMessage split stream m).mem headProto = headed split stream m headProto := by
  have hlen : (readMessage split stream m).len = declaredLen (headed split stream m) := by
    show (htons ((m.store headLen (recv split.head 3 stream).octets).load16 headLen)).toNat = _
    rw [octets_recv, htons_load16]
    rfl
  refine ⟨hlen, ?_, ?_⟩
  · show (recv split.body (readMessage split stream m).len _).octets.length = _
    rw [octets_recv, octets_recv, hlen, List.length_take, List.length_drop, List.length_take,
      deliveredLen]
    omega
  · rw [headed, ← octets_recv]
    exact Mem.store_apply_of_lt _ (readMessage split stream m).body (show 2 < 3 by decide)

theorem inside_debug_iff (dtype : Nat) (text : List UInt8) :
    Inside CArray.size (debug dtype text) ↔ text.length + 1 ≤ lineSize := by
  rw [debug, inside_append, inside_sprintf_iff, inside_sprintf_iff, Nat.zero_add, Nat.zero_add]
  have hcolour : (colour dtype).length + 1 ≤ CArray.size .line := by
    show 10 + 1 ≤ 1024
    omega
  exact and_iff_right hcolour

theorem inside_debugDump_iff (m : Mem) (text buf : List UInt8) :
    Inside CArray.size (debugDump m text buf) ↔ text.length + 3 * buf.length + 2 ≤ lineSize := by
  rw [debugDump, inside_append, inside_hexdump_iff, inside_debug_iff, hexString_eq,
    List.length_append, List.length_append, length_hexText, List.length_singleton]
  show _ < 1024 ∧ _ ≤ 1024 ↔ _ ≤ 1024
  omega

/-- The stores for the log. -/
theorem inside_log_iff (hexbuf m : Mem) (proto : UInt8) (len : Nat) :
    Inside CArray.size (
      if proto = protoSoftbts then debugDump hexbuf softbtsRx (m.load 0 (len + 3))
      else if proto = protoOml then debugDump hexbuf omlRx (m.load 0 (len + 3))
      else if proto = protoRsl then debugDump hexbuf rslRx (m.load 0 (len + 3))
      else debug dnm (unknownProtocol ++ hexOctet proto ++ [0x0a])) ↔ logFits proto len = true := by
  rw [logFits]
  by_cases hsoftbts : proto = protoSoftbts
  · rw [if_pos hsoftbts, if_pos hsoftbts, inside_debugDump_iff, Mem.length_load, decide_eq_true_iff]
    rfl
  rw [if_neg hsoftbts, if_neg hsoftbts]
  by_cases homl : proto = protoOml
  · rw [if_pos homl, if_pos (Or.inl homl), inside_debugDump_iff, Mem.length_load, decide_eq_true_iff]
    rfl
  rw [if_neg homl]
  by_cases hrsl : proto = protoRsl
  · rw [if_pos hrsl, if_pos (Or.inr hrsl), inside_debugDump_iff, Mem.length_load, decide_eq_true_iff]
    rfl
  · rw [if_neg hrsl, if_neg (not_or.mpr ⟨homl, hrsl⟩), inside_debug_iff]
    exact iff_of_true (by show 28 + 1 ≤ 1024; omega) rfl

/-- The stores are inside when the message fits. -/
theorem inside_receiveStores_iff (split : Split) (stream : List UInt8) (m hexbuf : Mem) :
    Inside CArray.size (receiveStores split stream m hexbuf) ↔
      (readMessage split stream m).fits = true := by
  have hhead : Inside CArray.size
      (storeOctets .msg headLen (recv split.head 3 stream).octets) := by
    rw [inside_storeOctets_iff, octets_recv, List.length_take]
    right
    show 0 + _ ≤ 255
    omega
  have hbody : ∀ os : List UInt8, Inside CArray.size (storeOctets .msg headData os) ↔
      headData + os.length ≤ bufferLength := by
    intro os
    rw [inside_storeOctets_iff]
    refine or_iff_right_of_imp fun hnil => ?_
    rw [hnil]
    decide
  rw [receiveStores, inside_append, inside_append, and_iff_right hhead, hbody, inside_log_iff,
    Reading.fits, decide_eq_true_iff]

theorem fits_iff_roomy (split : Split) (stream : List UInt8) (m : Mem) :
    (readMessage split stream m).fits = true ↔ Roomy split stream (headed split stream m) := by
  obtain ⟨hlen, hbody, hproto⟩ := readMessage_given split stream m
  rw [Reading.fits, decide_eq_true_iff, hlen, hbody, hproto, logFits_iff]
  constructor
  · rintro ⟨hdelivered, hsoftbts, habis⟩
    exact ⟨Nat.le_of_add_le_add_left hdelivered, hsoftbts, habis⟩
  · rintro ⟨hdelivered, hsoftbts, habis⟩
    exact ⟨Nat.add_le_add_left hdelivered 3, hsoftbts, habis⟩

/-- **The buffers.** What `receive_msg` stores for a message, whatever octets the peer has sent and
however many of them the calls of recv() deliver, is inside the message buffer, `hexbuf` and the
line of `debug`, if and only if at most 252 octets are delivered after the header and the length
declared is at most 333 for a SOFTBTS message, at most 335 for an O&M or a radio link message. -/
theorem receiveStores_inside_iff (split : Split) (stream : List UInt8) (m hexbuf : Mem) :
    Inside CArray.size (receiveStores split stream m hexbuf) ↔
      Roomy split stream (headed split stream m) :=
  (inside_receiveStores_iff split stream m hexbuf).trans (fits_iff_roomy split stream m)

/-- A frame of 253 octets after the header, and the header of an O&M frame of 400 octets. -/
theorem receiveStores_outside :
    ¬ Inside CArray.size (receiveStores ⟨3, 253⟩
        ([0x00, 0xfd, 0x01] ++ List.replicate 253 0x00) Mem.blank Mem.blank) ∧
      ¬ Inside CArray.size
        (receiveStores ⟨3, 0⟩ [0x01, 0x90, protoOml] Mem.blank Mem.blank) := by
  constructor
  · rw [inside_receiveStores_iff, fits_iff_roomy]
    intro h
    have hdeclared : declaredLen (headed ⟨3, 253⟩
        ([0x00, 0xfd, 0x01] ++ List.replicate 253 0x00) Mem.blank) = 253 := by rfl
    have hdelivered := h.delivered
    rw [deliveredLen, hdeclared, List.length_append, List.length_replicate] at hdelivered
    exact absurd hdelivered (by decide)
  · rw [inside_receiveStores_iff, fits_iff_roomy]
    exact fun h => absurd (h.abis (Or.inl rfl)) (by decide)

end SoftBts
