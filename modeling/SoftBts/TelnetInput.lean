import Mathlib.Data.List.Infix
import SoftBts.LineRun

/-! The octets that a session reads (`vty_read`): the options of telnet are taken out of them, and the
rest are keys. How the octets are cut into reads does not matter, but for an option whose last octet
comes with the next read, and for a session that is closed at the end of a read. What a client sends
between options and window sizes reaches the line editor as it was typed. -/

namespace SoftBts

open Octets Loop Terminal Reactive

variable {H : Type}

/-! ### Options -/

def iacOctet : UInt8 := 255
def sbOctet : UInt8 := 250
def seOctet : UInt8 := 240
def teloptNaws : UInt8 := 31
def telnetNawsSbLen : ℕ := 5

/-- The part of `struct vty` for the options. -/
structure Telnet where
  iac : Bool
  iacSbInProgress : Bool
  sbBuf : ℕ → UInt8
  sbLen : ℕ
  width : ℕ
  height : ℕ

namespace Telnet

/-- The options of a new session. -/
def clear : Telnet := ⟨false, false, fun _ => 0, 0, 0, 0⟩

/-- An octet of a subnegotiation; those that do not fit are counted only. -/
def subOctet (o : UInt8) (t : Telnet) : Telnet :=
  { t with
    sbBuf := if t.sbLen < telnetNawsSbLen then Function.update t.sbBuf t.sbLen o else t.sbBuf
    sbLen := t.sbLen + 1 }

/-- The window size that has come. -/
def naws (t : Telnet) : Telnet × List UInt8 :=
  if t.sbLen ≠ telnetNawsSbLen then
    (t, ascii "RFC 1073 violation detected: telnet NAWS option should send 5 characters, but we received "
      ++ ascii (toString t.sbLen))
  else
    ({ t with
        width := be16 (t.sbBuf 1) (t.sbBuf 2)
        height := be16 (t.sbBuf 3) (t.sbBuf 4) }, [])

/-- `vty_telnet_option` of the octet behind an IAC, with the number of octets that it has used behind
that one and what it prints. -/
def option (o : UInt8) (t : Telnet) : Telnet × ℕ × List UInt8 :=
  if o = sbOctet then ({ t with sbLen := 0, iacSbInProgress := true }, 0, [])
  else if o = seOctet then
    if !t.iacSbInProgress then (t, 0, [])
    else if t.sbLen = 0 ∨ t.sbBuf 0 = 0 then ({ t with iacSbInProgress := false }, 0, [])
    else if t.sbBuf 0 = teloptNaws then
      ({ t.naws.1 with iacSbInProgress := false }, 0, t.naws.2)
    else ({ t with iacSbInProgress := false }, 0, [])
  else (t, 1, [])

end Telnet

/-- `struct vty` -/
structure TelnetSession (H : Type) where
  vty : Vty H
  telnet : Telnet

/-- The loop of `vty_read` over the octets of one read. -/
def readOctets (e : Setting H) (os : List UInt8) (s : TelnetSession H) : Except Fault (TelnetSession H) :=
  match os with
  | [] => .ok s
  | o :: rest =>
      if o = iacOctet ∧ s.telnet.iac = false then
        readOctets e rest { s with telnet := { s.telnet with iac := true } }
      else
        let t := if o = iacOctet then { s.telnet with iac := false } else s.telnet
        if t.iacSbInProgress ∧ t.iac = false then
          readOctets e rest { s with telnet := t.subOctet o }
        else if t.iac then
          let r := t.option o
          readOctets e (rest.drop r.2.1) ⟨s.vty.out r.2.2, { r.1 with iac := false }⟩
        else if s.vty.escape = .normal ∧ o = 0x1b ∧ rest.head? = some 0x5b then
          -- the escape sequence has come in one read
          readOctets e rest.tail ⟨{ s.vty with escape := .escape }, t⟩
        else
          (s.vty.press e o).bind fun v => readOctets e rest ⟨v, t⟩
termination_by os.length
decreasing_by
  all_goals
    simp only [List.length_cons, List.length_drop, List.length_tail]
    omega

/-! ### The octets as a stream -/

/-- The options and whether the next octet belongs to the last one. -/
structure Decoder where
  telnet : Telnet
  skip : Bool

/-- What comes out of the octets: a key, or a message for the terminal. -/
inductive Item where
  | key (o : UInt8)
  | text (bs : List UInt8)

/-- The octets one by one. -/
def options : Machine Decoder UInt8 Item where
  step d o :=
    if d.skip then (⟨d.telnet, false⟩, [])
    else if o = iacOctet ∧ d.telnet.iac = false then (⟨{ d.telnet with iac := true }, false⟩, [])
    else
      let t := if o = iacOctet then { d.telnet with iac := false } else d.telnet
      if t.iacSbInProgress ∧ t.iac = false then (⟨t.subOctet o, false⟩, [])
      else if t.iac then
        let r := t.option o
        (⟨{ r.1 with iac := false }, r.2.1 ≠ 0⟩, [.text r.2.2])
      else (⟨t, false⟩, [.key o])

theorem Vty.out_nil (v : Vty H) : v.out [] = v := by rw [Vty.out, List.append_nil]

def Vty.item (e : Setting H) (v : Vty H) : Item → Except Fault (Vty H)
  | .key o => v.press e o
  | .text bs => .ok (v.out bs)

/-- The session after what comes out of a stream of octets. -/
def TelnetSession.feed (e : Setting H) (os : List UInt8) (s : TelnetSession H) (skip : Bool) :
    Except Fault (TelnetSession H) :=
  ((options.outputs ⟨s.telnet, skip⟩ os).foldlM (Vty.item e) s.vty).map fun v =>
    ⟨v, (options.after ⟨s.telnet, skip⟩ os).telnet⟩

theorem feed_cons (e : Setting H) (o : UInt8) (os : List UInt8) (s : TelnetSession H) (skip : Bool) :
    s.feed e (o :: os) skip =
      ((options.step ⟨s.telnet, skip⟩ o).2.foldlM (Vty.item e) s.vty).bind fun v =>
        TelnetSession.feed e os ⟨v, (options.step ⟨s.telnet, skip⟩ o).1.telnet⟩
          (options.step ⟨s.telnet, skip⟩ o).1.skip := by
  rw [TelnetSession.feed, Machine.outputs_cons, Machine.after_cons, List.foldlM_append]
  cases (options.step ⟨s.telnet, skip⟩ o).2.foldlM (Vty.item e) s.vty <;> rfl

theorem option_used (o : UInt8) (t : Telnet) : (t.option o).2.1 = 0 ∨ (t.option o).2.1 = 1 := by
  rw [Telnet.option]
  split
  · exact .inl rfl
  · split
    · refine .inl ?_
      split
      · rfl
      · split
        · rfl
        · split <;> rfl
    · exact .inr rfl

/-- An octet that belongs to the option before it is passed over. -/
theorem feed_skip (e : Setting H) (os : List UInt8) (s : TelnetSession H) :
    s.feed e os true = s.feed e (os.drop 1) false := by
  cases os with
  | nil => rfl
  | cons o os =>
      rw [feed_cons]
      rfl

/-- A `[` behind the escape character is the same in two steps. -/
theorem feed_escape (e : Setting H) (os : List UInt8) (s : TelnetSession H)
    (hquiet : ¬ (s.telnet.iacSbInProgress ∧ s.telnet.iac = false)) (hiac : s.telnet.iac = false)
    (hescape : s.vty.escape = .normal) :
    s.feed e (0x1b :: 0x5b :: os) false =
      TelnetSession.feed e os ⟨{ s.vty with escape := .escape }, s.telnet⟩ false := by
  have hstep : ∀ o : UInt8, o ≠ iacOctet →
      options.step ⟨s.telnet, false⟩ o = (⟨s.telnet, false⟩, [.key o]) := by
    intro o ho
    simp [options, ho, hiac] at hquiet ⊢
    simp [hquiet]
  have hesc : s.vty.press e 0x1b = .ok { s.vty with escape := .preEscape } := by
    rw [Vty.press, hescape]
    rfl
  rw [feed_cons, hstep _ (by decide)]
  change ((s.vty.press e 0x1b).bind fun v => .ok v).bind _ = _
  rw [hesc]
  change TelnetSession.feed e (0x5b :: os) ⟨{ s.vty with escape := .preEscape }, s.telnet⟩ false = _
  rw [feed_cons, hstep _ (by decide)]
  rfl

/-- **One read** is the stream of its octets. -/
theorem readOctets_eq (e : Setting H) (os : List UInt8) (s : TelnetSession H) :
    readOctets e os s = s.feed e os false := by
  fun_induction readOctets e os s with
  | case1 s => rfl
  | case2 s o rest hiac ih =>
      have hstep : options.step ⟨s.telnet, false⟩ o = (⟨{ s.telnet with iac := true }, false⟩, []) :=
        if_pos hiac
      rw [ih, feed_cons, hstep]
      rfl
  | case3 s o rest hiac t hsub ih =>
      have hstep : options.step ⟨s.telnet, false⟩ o = (⟨t.subOctet o, false⟩, []) :=
        (if_neg hiac).trans (if_pos hsub)
      rw [ih, feed_cons, hstep]
      rfl
  | case4 s o rest hiac t hsub hcommand r ih =>
      have hstep : options.step ⟨s.telnet, false⟩ o =
          (⟨{ r.1 with iac := false }, r.2.1 ≠ 0⟩, [.text r.2.2]) :=
        (if_neg hiac).trans ((if_neg hsub).trans (if_pos hcommand))
      rw [ih, feed_cons, hstep]
      rcases option_used o t with hused | hused
      · simp only [r, hused]
        rfl
      · simp only [r, hused]
        exact (feed_skip e rest ⟨s.vty.out r.2.2, { r.1 with iac := false }⟩).symm
  | case5 s o rest hiac t hsub hcommand hlook ih =>
      obtain ⟨hescape, rfl, hhead⟩ := hlook
      obtain ⟨os, rfl⟩ : ∃ os, rest = 0x5b :: os := by
        cases rest with
        | nil => cases hhead
        | cons d os => exact ⟨os, by rw [Option.some.inj hhead]⟩
      have ht : t = s.telnet := by
        have hne : ¬ (0x1b : UInt8) = iacOctet := by decide
        show (if (0x1b : UInt8) = iacOctet then { s.telnet with iac := false } else s.telnet) = s.telnet
        rw [if_neg hne]
      have hno : s.telnet.iac = false := by
        rw [← ht]
        exact Bool.eq_false_iff.mpr hcommand
      rw [ih, feed_escape e os s (ht ▸ hsub) hno hescape, ht]
      rfl
  | case6 s o rest hiac t hsub hcommand hlook ih =>
      have hstep : options.step ⟨s.telnet, false⟩ o = (⟨t, false⟩, [.key o]) :=
        (if_neg hiac).trans ((if_neg hsub).trans (if_neg hcommand))
      rw [feed_cons, hstep]
      change _ = ((s.vty.press e o).bind fun v => .ok v).bind _
      cases s.vty.press e o with
      | error f => rfl
      | ok v => exact ih v

/-! ### Cuts -/

/-- Whether the octets end inside an option. -/
def endsInOption (t : Telnet) (os : List UInt8) : Bool := (options.after ⟨t, false⟩ os).skip

theorem feed_append (e : Setting H) (a b : List UInt8) (s : TelnetSession H) (skip : Bool) :
    s.feed e (a ++ b) skip =
      (s.feed e a skip).bind fun s' => s'.feed e b (options.after ⟨s.telnet, skip⟩ a).skip := by
  rw [TelnetSession.feed, TelnetSession.feed, Machine.outputs_append, Machine.after_append, List.foldlM_append]
  cases (options.outputs ⟨s.telnet, skip⟩ a).foldlM (Vty.item e) s.vty <;> rfl

/-- The loop over the octets of one read, cut in two. -/
theorem readOctets_append (e : Setting H) (a b : List UInt8) (s : TelnetSession H) :
    readOctets e (a ++ b) s =
      (readOctets e a s).bind
        (readOctets e (if endsInOption s.telnet a then b.drop 1 else b)) := by
  rw [readOctets_eq, feed_append, ← readOctets_eq, endsInOption]
  cases hread : readOctets e a s with
  | error f => rfl
  | ok s' =>
      change s'.feed e b _ = readOctets e _ s'
      rw [readOctets_eq]
      cases (options.after ⟨s.telnet, false⟩ a).skip with
      | true => exact feed_skip e b s'
      | false => rfl

/-! ### Reads -/

/-- The end of `vty_read`: there is no session any more when its status is to be closed. -/
def TelnetSession.checkStatus (s : TelnetSession H) : Option (TelnetSession H) :=
  if s.vty.seat.status = .close then none else some s

/-- `vty_read` when read() gives these octets. -/
def vtyRead (e : Setting H) (os : List UInt8) (s : TelnetSession H) :
    Except Fault (Option (TelnetSession H)) :=
  (readOctets e os s).map TelnetSession.checkStatus

/-- Calls of `vty_read` one after the other, as long as there is a session. -/
def readAll (e : Setting H) (reads : List (List UInt8)) (s : TelnetSession H) :
    Except Fault (Option (TelnetSession H)) :=
  reads.foldlM (fun s os => s.elim (.ok none) (vtyRead e os)) (some s)

/-- The octets of a read end with the session to be closed. -/
def endsClosed (r : Except Fault (TelnetSession H)) : Bool :=
  match r with
  | .ok s => s.vty.seat.status = .close
  | .error _ => false

/-- A session that is not to be closed goes on. -/
theorem vtyRead_bind {e : Setting H} {a : List UInt8} {s : TelnetSession H}
    (h : endsClosed (readOctets e a s) = false)
    (next : Option (TelnetSession H) → Except Fault (Option (TelnetSession H))) :
    (vtyRead e a s).bind next = (readOctets e a s).bind fun s' => next (some s') := by
  rw [vtyRead]
  cases hread : readOctets e a s with
  | error f => rfl
  | ok s' =>
      rw [hread] at h
      change next s'.checkStatus = next (some s')
      rw [TelnetSession.checkStatus, if_neg (of_decide_eq_false h)]

/-- Where a read does not end with the session to be closed, the next one goes on with its octets. -/
theorem vtyRead_next {e : Setting H} {a : List UInt8} {s : TelnetSession H}
    (h : endsClosed (readOctets e a s) = false) (b : List UInt8) :
    ((vtyRead e a s).bind fun o => o.elim (.ok none)
        (vtyRead e (if endsInOption s.telnet a then b.drop 1 else b))) =
      vtyRead e (a ++ b) s := by
  rw [vtyRead_bind h, vtyRead, readOctets_append]
  cases readOctets e a s <;> rfl

/-- Reads that do not end inside an option. -/
def Whole (t : Telnet) (reads : List (List UInt8)) : Prop :=
  ∀ a ∈ reads.inits, endsInOption t a.flatten = false

instance (t : Telnet) (reads : List (List UInt8)) : Decidable (Whole t reads) :=
  inferInstanceAs (Decidable (∀ a ∈ reads.inits, _))

/-- No read but the last one ends with the session to be closed. -/
def StaysOpen (e : Setting H) (s : TelnetSession H) (reads : List (List UInt8)) : Prop :=
  ∀ a ∈ reads.dropLast.inits, endsClosed (readOctets e a.flatten s) = false

instance (e : Setting H) (s : TelnetSession H) (reads : List (List UInt8)) :
    Decidable (StaysOpen e s reads) :=
  inferInstanceAs (Decidable (∀ a ∈ reads.dropLast.inits, _))

theorem readAll_whole (e : Setting H) {reads : List (List UInt8)} {s : TelnetSession H}
    (h : Whole s.telnet reads) (hopen : StaysOpen e s reads) :
    readAll e reads s = vtyRead e reads.flatten s := by
  induction reads using List.reverseRecOn with
  | nil =>
      have hnil : endsClosed (readOctets e [] s) = false := hopen [] (List.mem_singleton_self _)
      rw [List.flatten_nil, vtyRead]
      rw [readOctets] at hnil ⊢
      exact congrArg Except.ok (if_neg (of_decide_eq_false hnil)).symm
  | append_singleton reads os ih =>
      rw [StaysOpen, List.dropLast_concat] at hopen
      have hend : endsInOption s.telnet reads.flatten = false :=
        h reads ((List.mem_inits _ _).mpr (List.prefix_append _ _))
      have hwhole : Whole s.telnet reads := by
        intro a ha
        refine h a ((List.mem_inits _ _).mpr ?_)
        exact ((List.mem_inits _ _).mp ha).trans (List.prefix_append _ _)
      have hopen' : StaysOpen e s reads := by
        intro a ha
        refine hopen a ((List.mem_inits _ _).mpr ?_)
        exact ((List.mem_inits _ _).mp ha).trans (List.dropLast_prefix reads)
      have hnext := vtyRead_next (hopen reads ((List.mem_inits _ _).mpr List.prefix_rfl)) os
      rw [hend] at hnext
      have hreads := ih hwhole hopen'
      rw [readAll] at hreads ⊢
      rw [List.foldlM_append, hreads, List.flatten_append, List.flatten_singleton, ← hnext]
      simp only [List.foldlM_cons, List.foldlM_nil, bind_pure]
      rfl

/-! ### What a client sends -/

/-- A data octet, in which IAC is doubled. -/
def stuffed (o : UInt8) : List UInt8 := if o = iacOctet then [iacOctet, iacOctet] else [o]

/-- What a client sends: an octet that is typed, an option, or the size of its window. -/
inductive Piece where
  | typed (o : UInt8)
  | option (command opt : UInt8) (h : command ≠ iacOctet ∧ command ≠ sbOctet ∧ command ≠ seOctet)
  | window (width height : ℕ) (h : width < 65536 ∧ height < 65536)

namespace Piece

def octets : Piece → List UInt8
  | .typed o => stuffed o
  | .option command opt _ => [iacOctet, command, opt]
  | .window width height _ =>
      [iacOctet, sbOctet] ++ (teloptNaws :: (octets16 width ++ octets16 height)).flatMap stuffed ++
        [iacOctet, seOctet]

/-- The octets for the line editor. -/
def keys : Piece → List UInt8
  | .typed o => [o]
  | _ => []

/-- The size of the window behind the piece. -/
def size (z : ℕ × ℕ) : Piece → ℕ × ℕ
  | .window width height _ => (width, height)
  | _ => z

end Piece

/-- No option is in progress. -/
structure Telnet.Quiet (t : Telnet) : Prop where
  iac : t.iac = false
  sub : t.iacSbInProgress = false

theorem Telnet.Quiet.eq {t : Telnet} (h : t.Quiet) :
    { t with iac := false, iacSbInProgress := false } = t := by
  obtain ⟨hiac, hsub⟩ := h
  cases t
  cases hiac
  cases hsub
  rfl

/-- What is known of the options behind octets: the keys that have come out of them, the state after
them, and that they end outside of an option. -/
structure Decodes (t t' : Telnet) (os : List UInt8) (keys : List UInt8) : Prop where
  items : ∀ {H : Type} (e : Setting H) (v : Vty H),
    (options.outputs ⟨t, false⟩ os).foldlM (Vty.item e) v = v.pressAll e keys
  after : options.after ⟨t, false⟩ os = ⟨t', false⟩

namespace Decodes

theorem append {t t' t'' : Telnet} {a b k l : List UInt8} (h : Decodes t t' a k)
    (h' : Decodes t' t'' b l) : Decodes t t'' (a ++ b) (k ++ l) where
  items e v := by
    rw [Machine.outputs_append, h.after, List.foldlM_append, h.items, Vty.pressAll, Vty.pressAll,
      List.foldlM_append]
    exact bind_congr fun v' => h'.items e v'
  after := by rw [Machine.after_append, h.after, h'.after]

theorem read {t t' : Telnet} {os keys : List UInt8} (h : Decodes t t' os keys) (e : Setting H)
    (v : Vty H) : readOctets e os ⟨v, t⟩ = (v.pressAll e keys).map fun v' => ⟨v', t'⟩ := by
  rw [readOctets_eq, TelnetSession.feed, h.items, h.after]

/-- One octet that is taken without anything coming out of it. -/
theorem silent {t t' : Telnet} {o : UInt8} (h : options.step ⟨t, false⟩ o = (⟨t', false⟩, [])) :
    Decodes t t' [o] [] where
  items e v := by
    rw [Machine.outputs_cons, h]
    rfl
  after := by rw [Machine.after_cons, h]; rfl

theorem iac {t : Telnet} (h : t.iac = false) : Decodes t { t with iac := true } [iacOctet] [] :=
  silent (if_pos ⟨rfl, h⟩)

/-- Behind IAC, IAC is the octet itself. -/
theorem stuffed_sub {t : Telnet} (hiac : t.iac = false) (hsub : t.iacSbInProgress = true) (o : UInt8) :
    Decodes t (t.subOctet o) (stuffed o) [] := by
  rw [stuffed]
  by_cases ho : o = iacOctet
  · rw [if_pos ho, ho]
    refine (iac hiac).append (a := [iacOctet]) (k := []) (silent ?_)
    simp [options, hsub, Telnet.subOctet, hiac]
  · rw [if_neg ho]
    refine silent ?_
    simp [options, hsub, hiac, ho]

theorem stuffed_typed {t : Telnet} (h : t.Quiet) (o : UInt8) : Decodes t t (stuffed o) [o] := by
  have hkey : ∀ {u : Telnet}, options.step ⟨u, false⟩ o = (⟨t, false⟩, [.key o]) →
      Decodes u t [o] [o] := by
    intro u hstep
    refine ⟨fun e v => ?_, ?_⟩
    · rw [Machine.outputs_cons, hstep]
      rfl
    · rw [Machine.after_cons, hstep]
      rfl
  rw [stuffed]
  by_cases ho : o = iacOctet
  · rw [if_pos ho]
    refine (iac h.iac).append (a := [iacOctet]) (k := []) (ho ▸ hkey ?_)
    rw [ho]
    simpa [options, h.sub] using h.eq
  · rw [if_neg ho]
    refine hkey ?_
    simp [options, h.sub, h.iac, ho]

/-- The octets of a window size, and what is left in the buffer of the subnegotiation. -/
theorem stuffed_subs {t : Telnet} (hiac : t.iac = false) (hsub : t.iacSbInProgress = true)
    (os : List UInt8) :
    Decodes t (os.foldl (fun t o => t.subOctet o) t) (os.flatMap stuffed) [] := by
  induction os generalizing t with
  | nil => exact ⟨fun e v => rfl, rfl⟩
  | cons o os ih =>
      exact (stuffed_sub hiac hsub o).append (k := []) (ih (t := t.subOctet o) hiac hsub)

/-- The command behind IAC, when it uses no more octets. -/
theorem command {t t' : Telnet} {o : UInt8} (hiac : t.iac = true) (ho : o ≠ iacOctet)
    (hoption : t.option o = (t', 0, [])) : Decodes t { t' with iac := false } [o] [] := by
  have hstep : options.step ⟨t, false⟩ o = (⟨{ t' with iac := false }, false⟩, [.text []]) := by
    simp [options, ho, hiac, hoption]
  refine ⟨fun e v => ?_, ?_⟩
  · rw [Machine.outputs_cons, hstep]
    exact congrArg Except.ok v.out_nil
  · rw [Machine.after_cons, hstep]
    rfl

theorem option {t : Telnet} (h : t.Quiet) {command : UInt8} (opt : UInt8)
    (hcommand : command ≠ iacOctet ∧ command ≠ sbOctet ∧ command ≠ seOctet) :
    Decodes t t [iacOctet, command, opt] [] := by
  obtain ⟨hiac, hsb, hse⟩ := hcommand
  have hstep : options.step ⟨{ t with iac := true }, false⟩ command = (⟨t, true⟩, [.text []]) := by
    simpa [options, hiac, Telnet.option, hsb, hse, h.sub] using h.eq
  refine (iac h.iac).append (a := [iacOctet]) (k := []) ⟨fun e v => ?_, ?_⟩
  · rw [Machine.outputs_cons, hstep]
    exact congrArg Except.ok v.out_nil
  · rw [Machine.after_cons, hstep]
    rfl

theorem window {t : Telnet} (h : t.Quiet) {width height : ℕ} (hsize : width < 65536 ∧ height < 65536) :
    ∃ t', Decodes t t' (Piece.window width height hsize).octets [] ∧ t'.Quiet ∧
      t'.width = width ∧ t'.height = height := by
  let begun : Telnet := { t with iac := false, sbLen := 0, iacSbInProgress := true }
  let told : Telnet := (teloptNaws :: (octets16 width ++ octets16 height)).foldl
    (fun t o => t.subOctet o) begun
  have hbegin : Decodes t begun [iacOctet, sbOctet] [] :=
    (iac h.iac).append (a := [iacOctet]) (k := []) (command (o := sbOctet) rfl (by decide) rfl)
  have htold : Decodes begun told _ [] := stuffed_subs rfl rfl _
  have hoption : ({ told with iac := true } : Telnet).option seOctet =
      ({ told with iac := true, iacSbInProgress := false, width := width, height := height }, 0, []) := by
    have hwidth : be16 (told.sbBuf 1) (told.sbBuf 2) = width := be16_octets16 hsize.1
    have hheight : be16 (told.sbBuf 3) (told.sbBuf 4) = height := be16_octets16 hsize.2
    have hkind : ({ told with iac := true } : Telnet).sbBuf 0 = teloptNaws := rfl
    have hnaws : ({ told with iac := true } : Telnet).naws =
        ({ told with iac := true, width := width, height := height }, []) := by
      rw [Telnet.naws, if_neg (fun h => h rfl), hwidth, hheight]
    rw [Telnet.option, if_neg (by decide), if_pos rfl, if_neg (fun h => by cases h),
      if_neg (fun h => by rcases h with h | h <;> cases h), if_pos hkind, hnaws]
  have hend : Decodes told _ [iacOctet, seOctet] [] :=
    (iac rfl).append (a := [iacOctet]) (k := []) (command (o := seOctet) rfl (by decide) hoption)
  exact ⟨_, (hbegin.append htold).append hend, ⟨rfl, rfl⟩, rfl, rfl⟩

/-- What a client sends between its options is what comes out of them. -/
theorem piece {t : Telnet} (h : t.Quiet) (p : Piece) :
    ∃ t', Decodes t t' p.octets p.keys ∧ t'.Quiet ∧
      (t'.width, t'.height) = p.size (t.width, t.height) := by
  cases p with
  | typed o => exact ⟨t, stuffed_typed h o, h, rfl⟩
  | option command opt hcommand => exact ⟨t, option h opt hcommand, h, rfl⟩
  | window width height hsize =>
      obtain ⟨t', hdecodes, hquiet, hwidth, hheight⟩ := window h hsize
      exact ⟨t', hdecodes, hquiet, Prod.ext hwidth hheight⟩

theorem pieces {t : Telnet} (h : t.Quiet) (ps : List Piece) :
    ∃ t', Decodes t t' (ps.flatMap Piece.octets) (ps.flatMap Piece.keys) ∧ t'.Quiet ∧
      (t'.width, t'.height) = ps.foldl Piece.size (t.width, t.height) := by
  induction ps generalizing t with
  | nil => exact ⟨t, ⟨fun e v => rfl, rfl⟩, h, rfl⟩
  | cons p ps ih =>
      obtain ⟨t', hdecodes, hquiet, hsize⟩ := piece h p
      obtain ⟨t'', hrest, hquiet', hsize'⟩ := ih hquiet
      refine ⟨t'', hdecodes.append hrest, hquiet', ?_⟩
      rw [hsize', hsize, List.foldl_cons]

end Decodes

end SoftBts
