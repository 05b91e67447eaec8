import SoftBts.LinkSeparation

/-! The framing of the connections. Each callback makes one call of `receive_msg`, which takes what
two calls of recv() give it for a whole message: the frames are handed to the handlers as they were
sent as long as the calls give all that they are asked for, and a frame without a body is the last
one on the link of a transceiver, whose callback takes it for the end of the connection. -/

namespace SoftBts

open Octets Reactive

/-! ### The connections -/

/-- The BTS with what has been sent on its connections and not been read, and the connections that
`trx_cb` has closed. -/
structure Net extends System where
  stream : Link → List UInt8
  closed : Link → Bool

/-- A callback: the connection that select() found readable, what the two calls of recv() give, and
what the handling takes from outside. -/
structure Call where
  env : Env
  sd : Link
  split : Split

/-- A message handed to a handler: the connection, and the octets of the buffer that the length field
there counts. -/
structure Handed where
  sd : Link
  octets : List UInt8
  deriving DecidableEq

/-- The protocols that have a handler. -/
def hasHandler (proto : UInt8) : Bool := proto ∈ [protoSoftbts, protoOml, protoRsl]

/-- `trx_cb` closes the connection when `receive_msg` returns zero. -/
def closes (sd : Link) (r : Reading) (o : Outcome) : Bool :=
  match sd with
  | .trx _ => o.stop = none ∧ r.rc = 0
  | _ => false

/-- One callback after another. -/
def net : Machine Net Call Handed where
  step s c :=
    if s.stop = none ∧ s.closed c.sd = false ∧ s.stream c.sd ≠ [] then
      let r := readMessage c.split (s.stream c.sd) (s.buffer c.sd)
      let o := receiveMsg c.env c.sd r s.bts
      ({ toSystem := s.toSystem.received c.sd o
         stream := Function.update s.stream c.sd r.stream
         closed := Function.update s.closed c.sd (closes c.sd r o) },
        if r.fits ∧ hasHandler (r.mem headProto) then [⟨c.sd, r.mem.load 0 (r.len + 3)⟩] else [])
    else (s, [])

/-- The BTS with frames sent on its connections. -/
def Net.start (s : System) (fed : Link → List Frame) : Net where
  toSystem := s
  stream := fun sd => (fed sd).flatMap Frame.octets
  closed := fun _ => false

/-! ### Frames in order -/

/-- The frames that are handed to handlers, as they are handed. -/
def handedFrames (fs : List Frame) : List (List UInt8) :=
  (fs.filter fun f => hasHandler f.proto).map Frame.octets

/-- What was handed over from a connection. -/
def handedFrom (sd : Link) (out : List Handed) : List (List UInt8) :=
  (out.filter fun x => x.sd = sd).map Handed.octets

/-- The frames sent on a connection are handed over in order, up to those that are still to be read,
and none is given up. -/
def Synchronised (fed : Link → List Frame) (out : List Handed) (s : Net) : Prop :=
  ∀ sd, ∃ done rest, fed sd = done ++ rest ∧ handedFrom sd out = handedFrames done ∧
    s.stream sd = rest.flatMap Frame.octets ∧ (s.closed sd = true → rest = [])

/-- The length of the message at the front of a stream. -/
def frontLen (stream : List UInt8) : Nat := be16 (stream.getD 0 0) (stream.getD 1 0)

/-- The calls of recv() give all that they are asked for, and on the link of a transceiver a message
without a body is the last one. -/
structure Complete (s : Net) (c : Call) : Prop where
  head : 3 ≤ c.split.head
  body : frontLen (s.stream c.sd) ≤ c.split.body
  last : ∀ slot, c.sd = .trx slot → frontLen (s.stream c.sd) = 0 → (s.stream c.sd).length = 3

variable {fed : Link → List Frame} {s : Net} {c : Call} {out : List Handed}

theorem frontLen_octets (f : Frame) (rest : List UInt8) : frontLen (f.octets ++ rest) = f.body.length := by
  have hlen := f.length_le
  exact be16_octets16 (by omega)

theorem load_into (f : Frame) (m : Mem) : (f.into m).load 0 (f.body.length + 3) = f.octets := by
  rw [← f.length_octets]
  exact Mem.load_store m 0 f.octets

theorem trx_of_closes {sd : Link} {r : Reading} {o : Outcome} (h : closes sd r o = true) :
    (∃ slot, sd = .trx slot) ∧ r.rc = 0 := by
  cases sd with
  | trx slot => exact ⟨⟨slot, rfl⟩, (of_decide_eq_true h).2⟩
  | oml => cases h
  | rsl => cases h

/-- A callback on a connection with a frame to read reads the frame. -/
theorem net_step_frame {f : Frame} {rest : List UInt8} (hstop : s.stop = none)
    (hopen : s.closed c.sd = false) (hstream : s.stream c.sd = f.octets ++ rest)
    (h : Complete s c) :
    (net.step s c).1.stream = Function.update s.stream c.sd rest ∧
      (net.step s c).2 = (if hasHandler f.proto then [⟨c.sd, f.octets⟩] else []) ∧
      ∀ sd, (net.step s c).1.closed sd = true →
        s.closed sd = true ∨ (sd = c.sd ∧ (∃ slot, c.sd = .trx slot) ∧ f.body.length = 0) := by
  have hbody : f.body.length ≤ c.split.body := by
    rw [← frontLen_octets f rest, ← hstream]
    exact h.body
  have hread := readMessage_frame f h.head hbody rest (s.buffer c.sd)
  have hne : f.octets ++ rest ≠ [] := by
    simp [Frame.octets, octets16]
  simp only [net, hstop, hopen, hstream, hread, ne_eq, hne, not_false_eq_true, and_self, if_true,
    fits_frame, true_and, load_into, Frame.into_headProto]
  intro sd
  by_cases hsd : sd = c.sd
  · subst hsd
    rw [Function.update_self]
    intro hcloses
    obtain ⟨hslot, hrc⟩ := trx_of_closes hcloses
    exact Or.inr ⟨rfl, hslot, Int.ofNat_eq_zero.mp hrc⟩
  · rw [Function.update_of_ne hsd]
    exact Or.inl

/-! ### Runs -/

theorem handedFrom_append (sd : Link) (out out' : List Handed) :
    handedFrom sd (out ++ out') = handedFrom sd out ++ handedFrom sd out' := by
  simp [handedFrom]

theorem handedFrames_append (fs fs' : List Frame) :
    handedFrames (fs ++ fs') = handedFrames fs ++ handedFrames fs' := by
  simp [handedFrames]

theorem handedFrom_step (sd sd' : Link) (f : Frame) :
    handedFrom sd (if hasHandler f.proto then [⟨sd', f.octets⟩] else []) =
      if sd = sd' then handedFrames [f] else [] := by
  by_cases hsd : sd = sd'
  · subst hsd
    rw [if_pos rfl]
    by_cases hhandler : hasHandler f.proto = true
    · simp [handedFrom, handedFrames, hhandler]
    · simp [handedFrom, handedFrames, hhandler]
  · rw [if_neg hsd]
    split_ifs
    · simp [handedFrom, Ne.symm hsd]
    · rfl

theorem flatMap_octets_eq_nil {fs : List Frame} (h : fs.flatMap Frame.octets = []) : fs = [] := by
  cases fs with
  | nil => rfl
  | cons f fs => simp [Frame.octets, octets16] at h

/-- A callback keeps the connections synchronised. -/
theorem synchronised_step (hsync : Synchronised fed out s) (h : Complete s c) :
    Synchronised fed (out ++ (net.step s c).2) (net.step s c).1 := by
  by_cases hready : s.stop = none ∧ s.closed c.sd = false ∧ s.stream c.sd ≠ []
  · obtain ⟨hstop, hopen, hne⟩ := hready
    obtain ⟨done, rest, hfed, hhanded, hstream, -⟩ := hsync c.sd
    obtain ⟨f, rest, rfl⟩ : ∃ f fs, rest = f :: fs := by
      cases rest with
      | nil => exact absurd hstream hne
      | cons f fs => exact ⟨f, fs, rfl⟩
    rw [List.flatMap_cons] at hstream
    obtain ⟨hstream', hsent, hclosed⟩ := net_step_frame hstop hopen hstream h
    intro sd
    rw [hsent, hstream', handedFrom_append, handedFrom_step]
    by_cases hsd : sd = c.sd
    · subst hsd
      refine ⟨done ++ [f], rest, by rw [hfed]; simp, ?_, Function.update_self _ _ _, fun hnow => ?_⟩
      · rw [if_pos rfl, hhanded, handedFrames_append]
      · rcases hclosed c.sd hnow with hbefore | ⟨-, ⟨slot, hslot⟩, hempty⟩
        · rw [hopen] at hbefore
          cases hbefore
        · have hlast := h.last slot hslot (by rw [hstream, frontLen_octets, hempty])
          rw [hstream, List.length_append, f.length_octets, hempty] at hlast
          exact flatMap_octets_eq_nil (List.eq_nil_of_length_eq_zero (by omega))
    · obtain ⟨done', rest', hfed', hhanded', hstream'', hclosed'⟩ := hsync sd
      rw [if_neg hsd, List.append_nil, Function.update_of_ne hsd]
      refine ⟨done', rest', hfed', hhanded', hstream'', fun hnow => ?_⟩
      rcases hclosed sd hnow with hbefore | ⟨hsame, -⟩
      · exact hclosed' hbefore
      · exact absurd hsame hsd
  · have hstep : net.step s c = (s, []) := if_neg hready
    rw [hstep, List.append_nil]
    exact hsync

theorem synchronised_start (b : System) (fed : Link → List Frame) :
    Synchronised fed [] (Net.start b fed) :=
  fun sd => ⟨[], fed sd, rfl, rfl, rfl, nofun⟩

/-- Frames sent on one connection. -/
def fedOn (sd : Link) (fs : List Frame) : Link → List Frame := fun sd' => if sd' = sd then fs else []

theorem not_synchronised_of_handed {sd : Link} {f : Frame} {x : List UInt8}
    (hfed : fed sd = [f]) (hhanded : handedFrom sd out = [x]) (hx : x ≠ f.octets) :
    ¬ Synchronised fed out s := by
  intro hsync
  obtain ⟨done, rest, hsplit, hdone, -, -⟩ := hsync sd
  rw [hfed] at hsplit
  rw [hhanded] at hdone
  cases done with
  | nil => cases hdone
  | cons g done =>
      obtain ⟨rfl, hnil⟩ := List.cons.inj hsplit
      obtain ⟨rfl, -⟩ := List.append_eq_nil_iff.mp hnil.symm
      rw [handedFrames, List.filter_cons] at hdone
      split_ifs at hdone
      · exact hx (List.cons.inj hdone).1
      · cases hdone

/-- A frame of the radio link without a body. -/
def bareFrame : Frame := ⟨protoRsl, [], by decide⟩

end SoftBts
