import SoftBts.Lib.Machine
import SoftBts.SelectLoop

/-! The output buffers of the telnet sessions (`buffer.c`) and the callback that empties them: a chain
of chunks is a queue of octets, from which the socket takes what it can. Over every run of the
callback of a session the octets that the client gets are those that were put out, in order, each once,
and as long as there are some left the session waits until the socket can be written. -/

namespace SoftBts

open Reactive

/-! ### Chunks -/

/-- `struct buffer_data` between two calls: the octets up to `cp`, of which those from `sp` on are not
yet flushed. A chunk with none left is freed. -/
structure BufferData (size : ℕ) where
  data : List UInt8
  sp : ℕ
  sp_lt : sp < data.length
  le_size : data.length ≤ size

namespace BufferData

variable {size : ℕ}

def cp (d : BufferData size) : ℕ := d.data.length

/-- The octets that are not yet flushed. -/
def left (d : BufferData size) : List UInt8 := d.data.drop d.sp

theorem left_ne_nil (d : BufferData size) : d.left ≠ [] := by
  rw [left, ne_eq, List.drop_eq_nil_iff]
  exact Nat.not_le_of_lt d.sp_lt

/-- A chunk from `buffer_add` with the first octets copied to it. -/
def add (hsize : 0 < size) (p : List UInt8) (hp : p ≠ []) : BufferData size where
  data := p.take size
  sp := 0
  sp_lt := by
    rw [List.length_take]
    exact Nat.lt_min.mpr ⟨hsize, List.length_pos_of_ne_nil hp⟩
  le_size := List.length_take_le size p

/-- The first octets are copied behind those that are there, as many as there is room for. -/
def fill (d : BufferData size) (p : List UInt8) : BufferData size where
  data := d.data ++ p.take (size - d.cp)
  sp := d.sp
  sp_lt := by
    rw [List.length_append]
    exact Nat.lt_add_right _ d.sp_lt
  le_size := by
    have hle := d.le_size
    rw [List.length_append, List.length_take, cp]
    omega

/-- Some octets are flushed, and some are left. -/
def skip (d : BufferData size) (written : ℕ) (h : written < d.left.length) : BufferData size where
  data := d.data
  sp := d.sp + written
  sp_lt := by
    rw [left, List.length_drop] at h
    omega
  le_size := d.le_size

@[simp] theorem left_add (hsize : 0 < size) (p : List UInt8) (hp : p ≠ []) :
    (add hsize p hp).left = p.take size := List.drop_zero

@[simp] theorem left_fill (d : BufferData size) (p : List UInt8) :
    (d.fill p).left = d.left ++ p.take (size - d.cp) :=
  List.drop_append_of_le_length (Nat.le_of_lt d.sp_lt)

@[simp] theorem left_skip (d : BufferData size) (written : ℕ) (h : written < d.left.length) :
    (d.skip written h).left = d.left.drop written := by
  rw [left, left, List.drop_drop]
  rfl

end BufferData

/-- The octets of a chain of chunks. -/
def octetsOf {size : ℕ} (chunks : List (BufferData size)) : List UInt8 :=
  chunks.flatMap BufferData.left

/-- `struct buffer`: the head is the first chunk, the tail the last one. -/
structure Buffer where
  size : ℕ
  pos : 0 < size
  chunks : List (BufferData size)

namespace Buffer

/-- What `buffer_getstr` returns, without its terminator. -/
def getstr (b : Buffer) : List UInt8 := octetsOf b.chunks

/-- `buffer_empty` -/
def empty (b : Buffer) : Bool := b.chunks.isEmpty

/-- `buffer_reset` -/
def reset (b : Buffer) : Buffer := { b with chunks := [] }

theorem empty_iff (b : Buffer) : b.empty = true ↔ b.getstr = [] := by
  rw [empty, getstr, List.isEmpty_iff]
  cases b.chunks with
  | nil => simp [octetsOf]
  | cons d ds => simp [octetsOf, d.left_ne_nil]

/-- `buffer_put` -/
def put (b : Buffer) (p : List UInt8) : Buffer :=
  if hp : p = [] then b
  else
    match b.chunks.getLast? with
    | none => put { b with chunks := b.chunks ++ [.add b.pos p hp] } (p.drop b.size)
    | some d =>
        if _hfull : d.cp = b.size then
          put { b with chunks := b.chunks ++ [.add b.pos p hp] } (p.drop b.size)
        else
          put { b with chunks := b.chunks.dropLast ++ [d.fill p] } (p.drop (b.size - d.cp))
termination_by p.length
decreasing_by
  · have hlen := List.length_pos_of_ne_nil hp
    have hpos := b.pos
    rw [List.length_drop]
    omega
  · have hlen := List.length_pos_of_ne_nil hp
    have hpos := b.pos
    rw [List.length_drop]
    omega
  · have hlen := List.length_pos_of_ne_nil hp
    have hle : d.cp ≤ b.size := d.le_size
    rw [List.length_drop]
    omega

/-- **`buffer_put`** adds the octets at the end. -/
theorem getstr_put (b : Buffer) (p : List UInt8) : (b.put p).getstr = b.getstr ++ p := by
  fun_induction put b p with
  | case1 b => exact (List.append_nil _).symm
  | case2 b p hp _ ih =>
      rw [ih]
      simp [getstr, octetsOf]
  | case3 b p hp d _ _ ih =>
      rw [ih]
      simp [getstr, octetsOf]
  | case4 b p hp d hlast _ ih =>
      have hchunks : b.chunks.dropLast ++ [d] = b.chunks :=
        List.dropLast_append_getLast? d hlast
      have hold : octetsOf b.chunks = octetsOf b.chunks.dropLast ++ d.left := by
        rw [← hchunks]
        simp [octetsOf]
      rw [ih, getstr, getstr, hold]
      simp [octetsOf]

end Buffer

/-! ### Flushing -/

/-- What writev() reports for a socket that does not block: it takes at least one octet, and at most
those it is given; the socket is full; the call is interrupted; or it fails. -/
inductive WriteResult where
  | taken (more : ℕ)
  | again
  | intr
  | failed
  deriving DecidableEq

/-- `buffer_status_t` -/
inductive BufferStatus where
  | error
  | empty
  | pending
  deriving DecidableEq

/-- What flushing comes to: its status, the octets that the socket took, and the buffer. -/
structure Flushed where
  status : BufferStatus
  sent : List UInt8
  buffer : Buffer

def maxChunks : ℕ := 16

def maxFlush : ℕ := 131072

/-- The octets in `iov` from a chunk on, when there are `iovcnt` entries with `nbyte` octets in it. -/
def gather {size : ℕ} (iovcnt nbyte : ℕ) : List (BufferData size) → List UInt8
  | [] => []
  | d :: ds =>
      if iovcnt < maxChunks ∧ nbyte < maxFlush then
        d.left ++ gather (iovcnt + 1) (nbyte + d.left.length) ds
      else []

/-- The loop that frees what was written. -/
def free {size : ℕ} (written : ℕ) : List (BufferData size) → List (BufferData size)
  | [] => []
  | d :: ds =>
      if written = 0 then d :: ds
      else if h : written < d.left.length then d.skip written h :: ds
      else free (written - d.left.length) ds

theorem octetsOf_free {size : ℕ} (chunks : List (BufferData size)) (written : ℕ) :
    octetsOf (free written chunks) = (octetsOf chunks).drop written := by
  induction chunks generalizing written with
  | nil => simp [octetsOf, free]
  | cons d ds ih =>
      rw [free]
      split_ifs with hzero hlt
      · rw [hzero, List.drop_zero]
      · simp only [octetsOf, List.flatMap_cons, BufferData.left_skip]
        rw [List.drop_append_of_le_length (Nat.le_of_lt hlt)]
      · rw [ih]
        show (octetsOf ds).drop _ = (d.left ++ octetsOf ds).drop written
        rw [List.drop_append, List.drop_eq_nil_of_le (Nat.le_of_not_lt hlt), List.nil_append]

theorem gather_prefix {size : ℕ} (chunks : List (BufferData size)) (iovcnt nbyte : ℕ) :
    gather iovcnt nbyte chunks <+: octetsOf chunks := by
  induction chunks generalizing iovcnt nbyte with
  | nil => exact List.nil_prefix
  | cons d ds ih =>
      rw [gather]
      split_ifs
      · exact List.prefix_append_right_inj d.left |>.mpr (ih _ _)
      · exact List.nil_prefix

theorem gather_eq_nil_iff {size : ℕ} {chunks : List (BufferData size)} :
    gather 0 0 chunks = [] ↔ chunks = [] := by
  cases chunks with
  | nil => exact iff_of_true rfl rfl
  | cons d ds => simp [gather, maxChunks, maxFlush, d.left_ne_nil]

namespace Buffer

/-- `buffer_flush_available` -/
def flushAvailable (b : Buffer) (r : WriteResult) : Flushed :=
  let iov := gather 0 0 b.chunks
  if iov = [] then ⟨.empty, [], b⟩
  else
    match r with
    | .taken more =>
        let written := min (more + 1) iov.length
        let b' : Buffer := { b with chunks := free written b.chunks }
        ⟨if b'.empty then .empty else .pending, iov.take written, b'⟩
    | .again => ⟨.pending, [], b⟩
    | .intr => ⟨.pending, [], b⟩
    | .failed => ⟨.error, [], b⟩

/-- The head and its `sp` are those from before. -/
def sameHead (b b' : Buffer) : Bool :=
  b.chunks.length = b'.chunks.length ∧ b.chunks.head?.map BufferData.sp =
    b'.chunks.head?.map BufferData.sp

/-- `buffer_flush_all`; when the list is at its end, the socket is full. -/
def flushAll (b : Buffer) : List WriteResult → Flushed
  | [] => b.flushAvailable .again
  | r :: rs =>
      let f := b.flushAvailable r
      if f.status = .pending ∧ ¬ (b.sameHead f.buffer = true ∧ r ≠ .intr) then
        let g := f.buffer.flushAll rs
        ⟨g.status, f.sent ++ g.sent, g.buffer⟩
      else f

end Buffer

/-- What flushing leaves: the octets that were sent are the first ones, the others are still there, and
the status says whether there are any, if nothing failed. -/
structure Flushed.Keeps (f : Flushed) (b : Buffer) : Prop where
  octets : f.sent ++ f.buffer.getstr = b.getstr
  empty : f.status = .empty → f.buffer.getstr = []
  pending : f.status = .pending → f.buffer.getstr ≠ []

namespace Buffer

theorem flushAvailable_keeps (b : Buffer) (r : WriteResult) : (b.flushAvailable r).Keeps b := by
  unfold flushAvailable
  by_cases hiov : gather 0 0 b.chunks = []
  · simp only [if_pos hiov]
    have hchunks := gather_eq_nil_iff.mp hiov
    refine ⟨rfl, fun _ => ?_, fun h => by cases h⟩
    show octetsOf b.chunks = []
    rw [hchunks]
    rfl
  · simp only [if_neg hiov]
    have hne : b.getstr ≠ [] := by
      rw [ne_eq, ← empty_iff, empty, List.isEmpty_iff, ← gather_eq_nil_iff]
      exact hiov
    cases r with
    | again => exact ⟨rfl, (fun h => by cases h), fun _ => hne⟩
    | intr => exact ⟨rfl, (fun h => by cases h), fun _ => hne⟩
    | failed => exact ⟨rfl, (fun h => by cases h), (fun h => by cases h)⟩
    | taken more =>
        refine ⟨?_, fun h => ?_, fun h => ?_⟩
        · obtain ⟨rest, hrest⟩ := gather_prefix b.chunks 0 0
          show (gather 0 0 b.chunks).take _ ++ octetsOf (free _ b.chunks) = octetsOf b.chunks
          rw [octetsOf_free, ← hrest, List.drop_append_of_le_length (Nat.min_le_right _ _),
            ← List.append_assoc, List.take_append_drop]
        · rw [← empty_iff]
          by_contra hfalse
          simp only [if_neg hfalse] at h
          cases h
        · rw [ne_eq, ← empty_iff]
          intro htrue
          simp only [if_pos htrue] at h
          cases h

theorem flushAll_keeps (b : Buffer) (rs : List WriteResult) : (b.flushAll rs).Keeps b := by
  induction rs generalizing b with
  | nil => exact flushAvailable_keeps b .again
  | cons r rs ih =>
      have hfirst := flushAvailable_keeps b r
      rw [flushAll]
      simp only
      split_ifs
      · have hrest := ih (b.flushAvailable r).buffer
        refine ⟨?_, hrest.empty, hrest.pending⟩
        rw [List.append_assoc, hrest.octets, hfirst.octets]
      · exact hfirst

end Buffer

/-! ### The callback of a session -/

/-- The output of a telnet session: what its socket waits for, and whether it is closed. -/
structure Outgoing where
  obuf : Buffer
  type : Flags
  closed : Bool

/-- What `vty_read` comes to: there is nothing to read, the connection is gone, or octets are read and
`vty_out` is called for these texts, after which the session may be at its end. -/
inductive ReadOutcome where
  | again
  | gone
  | typed (outs : List (List UInt8)) (close : Bool)

/-- A call of `client_data`: what select() has found, what reading comes to, and what the calls of
writev() report. -/
structure ClientCall where
  flags : Flags
  read : ReadOutcome
  writes : List WriteResult

namespace Outgoing

/-- `vty_close`: what the socket takes now is sent, and the rest is given up. -/
def vtyClose (s : Outgoing) (writes : List WriteResult) : Outgoing × List UInt8 :=
  let f := s.obuf.flushAll writes
  ({ s with obuf := f.buffer.reset, closed := true }, f.sent)

/-- VTY_READ and VTY_WRITE in `vty_event`. -/
def waitRead (s : Outgoing) : Outgoing := { s with type := { s.type with read := true } }

def waitWrite (s : Outgoing) : Outgoing := { s with type := { s.type with write := true } }

/-- `vty_out` -/
def vtyOut (s : Outgoing) (p : List UInt8) : Outgoing := { s with obuf := s.obuf.put p }.waitWrite

/-- `vty_read` -/
def vtyRead (s : Outgoing) (read : ReadOutcome) (writes : List WriteResult) :
    Outgoing × List UInt8 :=
  match read with
  | .again => (s.waitRead, [])
  | .gone => { s with obuf := s.obuf.reset }.vtyClose writes
  | .typed outs close =>
      let s := outs.foldl vtyOut s
      if close then s.vtyClose writes else (s.waitWrite.waitRead, [])

/-- The end of `client_data`. -/
def flush (s : Outgoing) (writes : List WriteResult) : Outgoing × List UInt8 :=
  let f := s.obuf.flushAll writes
  ({ s with
      obuf := f.buffer
      type := { s.type with write := s.type.write && f.status ≠ .empty } }, f.sent)

/-- `client_data` -/
def clientData (s : Outgoing) (i : ClientCall) : Outgoing × List UInt8 :=
  let r := if i.flags.read then
      { s with type := { s.type with read := false } }.vtyRead i.read i.writes
    else (s, [])
  if r.1.closed then r
  else if i.flags.write then r.1.flush i.writes
  else r

end Outgoing

/-- One call of `client_data` after another, until the session is closed, and the octets that the
socket takes. -/
def client : Machine Outgoing ClientCall UInt8 where
  step s i := if s.closed then (s, []) else s.clientData i

/-- What a call puts out. -/
def ClientCall.puts (i : ClientCall) : List UInt8 :=
  match i.flags.read, i.read with
  | true, .typed outs _ => outs.flatten
  | _, _ => []

namespace Outgoing

/-- An open session waits for input, and as long as there is something to send, until the socket can be
written. -/
def Waits (s : Outgoing) : Prop :=
  s.closed = false → s.type.read = true ∧ (s.obuf.getstr ≠ [] → s.type.write = true)

/-- The octets are accounted for: in order, all of them as long as the session is open. -/
structure Accounts (octets : List UInt8) (r : Outgoing × List UInt8) : Prop where
  sent : r.2 <+: octets
  held : r.1.closed = false → r.2 ++ r.1.obuf.getstr = octets

theorem getstr_vtyOuts (outs : List (List UInt8)) (s : Outgoing) :
    (outs.foldl vtyOut s).obuf.getstr = s.obuf.getstr ++ outs.flatten ∧
      (outs.foldl vtyOut s).closed = s.closed := by
  induction outs generalizing s with
  | nil => exact ⟨(List.append_nil _).symm, rfl⟩
  | cons p outs ih =>
      obtain ⟨hgetstr, hclosed⟩ := ih (s.vtyOut p)
      refine ⟨?_, hclosed⟩
      rw [List.foldl_cons, hgetstr]
      show (s.obuf.put p).getstr ++ _ = _
      rw [Buffer.getstr_put, List.append_assoc, List.flatten_cons]

theorem vtyClose_accounts (s : Outgoing) (writes : List WriteResult) :
    Accounts s.obuf.getstr (s.vtyClose writes) where
  sent := ⟨_, (s.obuf.flushAll_keeps writes).octets⟩
  held := fun h => by cases h

/-- What `vty_read` does to the octets, and what the session waits for then. -/
theorem vtyRead_accounts (s : Outgoing) (i : ClientCall) (hread : i.flags.read = true) :
    Accounts (s.obuf.getstr ++ i.puts) (s.vtyRead i.read i.writes) ∧
      ((s.vtyRead i.read i.writes).1.closed = false →
        (s.vtyRead i.read i.writes).1.type.read = true ∧ (s.vtyRead i.read i.writes).2 = [] ∧
          (s.type.write = true → (s.vtyRead i.read i.writes).1.type.write = true) ∧
          (i.puts ≠ [] → (s.vtyRead i.read i.writes).1.type.write = true)) := by
  cases hoctets : i.read with
  | again =>
      have hputs : i.puts = [] := by rw [ClientCall.puts, hread, hoctets]
      rw [hputs, List.append_nil]
      exact ⟨⟨List.nil_prefix, fun _ => rfl⟩, fun _ => ⟨rfl, rfl, id, fun h => absurd rfl h⟩⟩
  | gone =>
      have hputs : i.puts = [] := by rw [ClientCall.puts, hread, hoctets]
      have hclose := vtyClose_accounts { s with obuf := s.obuf.reset } i.writes
      rw [hputs, List.append_nil]
      refine ⟨⟨?_, fun h => by cases h⟩, fun h => by cases h⟩
      have hnil := List.prefix_nil.mp hclose.sent
      show (vtyClose { s with obuf := s.obuf.reset } i.writes).2 <+: _
      rw [hnil]
      exact List.nil_prefix
  | typed outs close =>
      have hputs : i.puts = outs.flatten := by rw [ClientCall.puts, hread, hoctets]
      obtain ⟨hgetstr, hclosed⟩ := getstr_vtyOuts outs s
      rw [hputs, ← hgetstr]
      cases close with
      | true =>
          refine ⟨vtyClose_accounts _ _, fun h => by cases h⟩
      | false =>
          exact ⟨⟨List.nil_prefix, fun _ => rfl⟩, fun _ => ⟨rfl, rfl, fun _ => rfl, fun _ => rfl⟩⟩

theorem flush_accounts (s : Outgoing) (writes : List WriteResult) :
    Accounts s.obuf.getstr (s.flush writes) :=
  ⟨⟨_, (s.obuf.flushAll_keeps writes).octets⟩, fun _ => (s.obuf.flushAll_keeps writes).octets⟩

theorem flush_waits {s : Outgoing} (hs : s.Waits) (writes : List WriteResult) :
    (s.flush writes).1.Waits := by
  intro hopen
  obtain ⟨hread, hwrite⟩ := hs hopen
  have hkeeps := s.obuf.flushAll_keeps writes
  refine ⟨hread, fun hleft => ?_⟩
  have hmore : s.obuf.getstr ≠ [] := by
    intro hnil
    exact hleft (List.append_eq_nil_iff.mp (hkeeps.octets.trans hnil)).2
  have hstatus : (s.obuf.flushAll writes).status ≠ .empty := fun hempty =>
    hleft (hkeeps.empty hempty)
  show (s.type.write && decide ((s.obuf.flushAll writes).status ≠ .empty)) = true
  rw [hwrite hmore, decide_eq_true hstatus]
  rfl

/-- The end of `client_data` after the octets were read. -/
theorem accounts_flush {r : Outgoing × List UInt8} {octets : List UInt8} (h : Accounts octets r)
    (hsent : r.2 = []) (hopen : r.1.closed = false) (writes : List WriteResult) :
    Accounts octets (r.1.flush writes) := by
  have hheld := h.held hopen
  rw [hsent, List.nil_append] at hheld
  rw [← hheld]
  exact flush_accounts r.1 writes

/-- **A call of `client_data`** sends the first octets and keeps the others, as long as the session is
open, and the session waits for what is needed. -/
theorem client_step {s : Outgoing} (hopen : s.closed = false) (hs : s.Waits) (i : ClientCall) :
    Accounts (s.obuf.getstr ++ i.puts) (client.step s i) ∧ (client.step s i).1.Waits := by
  have hstep : client.step s i = s.clientData i := if_neg (by simp [hopen])
  rw [hstep, clientData]
  cases hread : i.flags.read with
  | false =>
      have hputs : i.puts = [] := by rw [ClientCall.puts, hread]
      simp only [Bool.false_eq_true, if_false, hopen, hputs, List.append_nil]
      split_ifs
      · exact ⟨flush_accounts s i.writes, flush_waits hs i.writes⟩
      · exact ⟨⟨List.nil_prefix, fun _ => rfl⟩, hs⟩
  | true =>
      obtain ⟨haccounts, hwaits⟩ :=
        vtyRead_accounts { s with type := { s.type with read := false } } i hread
      simp only [if_true]
      set r := ({ s with type := { s.type with read := false } } : Outgoing).vtyRead i.read i.writes
      cases hclosed : r.1.closed with
      | true =>
          simp only [if_true]
          exact ⟨haccounts, fun hfalse => by rw [hclosed] at hfalse; cases hfalse⟩
      | false =>
          obtain ⟨hread', hsent, hwrite, hputs⟩ := hwaits hclosed
          have hwaiting : r.1.Waits := by
            refine fun _ => ⟨hread', fun hleft => ?_⟩
            have hheld := haccounts.held hclosed
            rw [hsent, List.nil_append] at hheld
            by_cases hnil : i.puts = []
            · rw [hnil, List.append_nil] at hheld
              exact hwrite ((hs hopen).2 (hheld ▸ hleft))
            · exact hputs hnil
          simp only [Bool.false_eq_true, if_false]
          split_ifs
          · exact ⟨accounts_flush haccounts hsent hclosed i.writes, flush_waits hwaiting i.writes⟩
          · exact ⟨haccounts, hwaiting⟩

/-- A closed session sends nothing any more. -/
theorem outputs_of_closed {s : Outgoing} (h : s.closed = true) (is : List ClientCall) :
    client.outputs s is = [] ∧ client.after s is = s := by
  have hstep : ∀ i, client.step s i = (s, []) := fun i => if_pos h
  induction is with
  | nil => exact ⟨rfl, rfl⟩
  | cons i is ih =>
      rw [Machine.outputs_cons, Machine.after_cons, hstep]
      exact ih

/-- **The output of a session.** Over every run of its callback, whatever is read and however the
socket takes what is written, the client gets the octets that were put out, in order and each once; as
long as the session is open none is lost, and it waits for input and, when there is something left to
send, until the socket can be written. -/
theorem client_sends {s : Outgoing} (hopen : s.closed = false) (hs : s.Waits) (is : List ClientCall) :
    client.outputs s is <+: s.obuf.getstr ++ is.flatMap ClientCall.puts ∧
      ((client.after s is).closed = false →
        client.outputs s is ++ (client.after s is).obuf.getstr =
            s.obuf.getstr ++ is.flatMap ClientCall.puts ∧
          (client.after s is).type.read = true ∧
          ((client.after s is).obuf.getstr ≠ [] → (client.after s is).type.write = true)) := by
  induction is generalizing s with
  | nil => exact ⟨List.nil_prefix, fun h => ⟨by simp, hs h⟩⟩
  | cons i is ih =>
      obtain ⟨haccounts, hwaits⟩ := client_step hopen hs i
      rw [Machine.outputs_cons, Machine.after_cons, List.flatMap_cons, ← List.append_assoc]
      cases hclosed : (client.step s i).1.closed with
      | true =>
          obtain ⟨hnothing, hsame⟩ := outputs_of_closed hclosed is
          rw [hnothing, hsame, List.append_nil]
          refine ⟨haccounts.sent.trans (List.prefix_append _ _), fun hfalse => ?_⟩
          rw [hclosed] at hfalse
          cases hfalse
      | false =>
          obtain ⟨hsent, hheld⟩ := ih hclosed hwaits
          have hoctets := haccounts.held hclosed
          constructor
          · rw [← hoctets, List.append_assoc]
            exact (List.prefix_append_right_inj _).mpr hsent
          · intro hend
            obtain ⟨hall, hrest⟩ := hheld hend
            refine ⟨?_, hrest⟩
            rw [List.append_assoc, hall, ← List.append_assoc, hoctets]

/-- A session that has just been created. -/
def greeted : Outgoing := ⟨⟨4096, by decide, []⟩, ⟨true, true, false⟩, false⟩

/-- A prompt is put out, and the socket takes two octets and is full. -/
theorem client_sends_prompt :
    let is : List ClientCall := [⟨⟨true, true, false⟩, .typed [[0x3e, 0x20], [0x0d]] false, [.taken 1, .again]⟩]
    client.outputs greeted is <+: greeted.obuf.getstr ++ is.flatMap ClientCall.puts ∧
      ((client.after greeted is).closed = false →
        client.outputs greeted is ++ (client.after greeted is).obuf.getstr =
            greeted.obuf.getstr ++ is.flatMap ClientCall.puts ∧
          (client.after greeted is).type.read = true ∧
          ((client.after greeted is).obuf.getstr ≠ [] →
            (client.after greeted is).type.write = true)) :=
  client_sends rfl (fun _ => ⟨rfl, fun _ => rfl⟩) _

end Outgoing

end SoftBts
