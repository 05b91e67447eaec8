import SoftBts.TelnetInput

/-! What the octets that a session reads can do to its level: what `config_exit`, the end of the
configuration, the passwords and the commands keep, every read keeps, however wrong its lines are. -/

namespace SoftBts

open Loop

variable {H : Type}

/-- A property of the seat that is kept wherever the seat is set. -/
structure SeatInvariant (c : Commands H) (P : Seat H → Prop) : Prop where
  configExit : ∀ s, P s → P s.configExit
  leaveConfig : ∀ s, P s → P s.leaveConfig
  auth : ∀ buf s, s.isAuth = true → P s → P (s.auth buf).1
  execute : ∀ vline history s, s.isAuth = false → P s → P (c.execute vline history s).1

namespace Vty

/-! ### Functions that leave the seat as it is -/

/-- Where the seat satisfies `P`. -/
def At (P : Seat H → Prop) (v : Vty H) : Prop := P v.seat

variable {P : Seat H → Prop} {v : Vty H}

theorem store_at (h : v.At P) (off : ℕ) (bs : List UInt8) : Gives (v.store off bs) (At P) :=
  .ite (fun _ => .ok h) fun _ => .error _

theorem ensure_at (e : Setting H) (h : v.At P) (length : ℕ) : (v.ensure e length).At P := by
  rw [ensure]
  split
  · exact h
  · exact h

theorem selfInsert_at (e : Setting H) (h : v.At P) (c : UInt8) : Gives (v.selfInsert e c) (At P) := by
  refine Gives.after fun length => Gives.after fun moved => ?_
  refine Gives.bind (store_at (ensure_at e h _) _ _) fun v1 h1 => ?_
  refine Gives.bind (store_at h1 _ _) fun v2 h2 => ?_
  exact Gives.after fun echo => .ok h2

theorem selfInsertOverwrite_at (e : Setting H) (h : v.At P) (c : UInt8) :
    Gives (v.selfInsertOverwrite e c) (At P) :=
  Gives.bind (store_at (ensure_at e h _) _ _) fun _ h1 => .ok h1

theorem insertWordOverwrite_at (h : v.At P) (str : List UInt8) :
    Gives (v.insertWordOverwrite str) (At P) :=
  Gives.bind (store_at (v := v.write str) h _ _) fun _ h1 => .ok h1

theorem forwardChar_at (h : v.At P) : Gives v.forwardChar (At P) :=
  .ite (fun _ => Gives.after fun _ => .ok h) fun _ => .ok h

theorem backwardChar_at (h : v.At P) : Gives v.backwardChar (At P) :=
  .ite (fun _ => .ok h) fun _ => .ok h

theorem redrawLine_at (h : v.At P) : Gives v.redrawLine (At P) := Gives.after fun _ => .ok h

theorem killLine_at (h : v.At P) : Gives v.killLine (At P) := by
  refine Gives.after fun size => .ite (fun _ => .ok h) fun _ => ?_
  exact Gives.bind (store_at (v := (v.write _).write _) h _ _) fun _ h1 => .ok h1

theorem beginningOfLine_at (e : Setting H) (h : v.At P) : Gives (v.beginningOfLine e) (At P) :=
  .loop (fun _ => backwardChar_at) h _

theorem endOfLine_at (e : Setting H) (h : v.At P) : Gives (v.endOfLine e) (At P) :=
  .loop (fun _ => forwardChar_at) h _

theorem killLineFromBeginning_at (e : Setting H) (h : v.At P) :
    Gives (v.killLineFromBeginning e) (At P) :=
  Gives.bind (beginningOfLine_at e h) fun _ => killLine_at

theorem forwardWord_at (e : Setting H) (h : v.At P) : Gives (v.forwardWord e) (At P) :=
  Gives.bind (.loop (fun _ => forwardChar_at) h _) fun _ h1 => .loop (fun _ => forwardChar_at) h1 _

theorem backwardPureWord_at (e : Setting H) (h : v.At P) : Gives (v.backwardPureWord e) (At P) :=
  .loop (fun _ => backwardChar_at) h _

theorem backwardWord_at (e : Setting H) (h : v.At P) : Gives (v.backwardWord e) (At P) :=
  Gives.bind (.loop (fun _ => backwardChar_at) h _) fun _ h1 => .loop (fun _ => backwardChar_at) h1 _

theorem transposeChars_at (e : Setting H) (h : v.At P) : Gives (v.transposeChars e) (At P) := by
  have hpair : ∀ {u : Vty H} (c1 c2 : UInt8), u.At P →
      Gives ((u.selfInsertOverwrite e c1).bind fun u' => u'.selfInsertOverwrite e c2) (At P) :=
    fun c1 c2 hu => Gives.bind (selfInsertOverwrite_at e hu c1) fun _ hu' => selfInsertOverwrite_at e hu' c2
  refine .ite (fun _ => .ok h) fun _ => .ite (fun _ => ?_) fun _ => ?_
  · refine Gives.after fun c1 => Gives.after fun c2 => ?_
    refine Gives.bind (backwardChar_at h) fun v1 h1 => Gives.bind (backwardChar_at h1) fun v2 h2 => ?_
    exact hpair c1 c2 h2
  · refine Gives.after fun c1 => Gives.after fun c2 => ?_
    exact Gives.bind (backwardChar_at h) fun v1 h1 => hpair c1 c2 h1

theorem historyPrint_at (e : Setting H) (h : v.At P) (entry : List UInt8) :
    Gives (v.historyPrint e entry) (At P) := by
  refine Gives.bind (killLineFromBeginning_at e h) fun v1 h1 => ?_
  exact Gives.bind (store_at h1 _ _) fun v2 h2 => redrawLine_at (P := P) h2

theorem lookUp_at (e : Setting H) (h : v.At P) (found : Option (List UInt8 × History)) :
    Gives (v.lookUp e found) (At P) := by
  cases found with
  | none => exact .ok h
  | some r => exact historyPrint_at (v := { v with history := r.2 }) e h r.1

/-! ### Keys -/

variable {e : Setting H}

theorem deleteChar_at (hP : SeatInvariant e.toCommands P) (h : v.At P) :
    Gives (v.deleteChar e) (At P) := by
  refine .ite (fun _ => .ok h) fun _ => .ite (fun _ => .ok (hP.configExit _ h)) fun _ =>
    .ite (fun _ => .ok h) fun _ => ?_
  refine Gives.after fun size => Gives.after fun moved => ?_
  refine Gives.bind (store_at (v := { v with length := v.length - 1 }) h _ _) fun v1 h1 => ?_
  exact Gives.bind (store_at h1 _ _) fun v2 h2 => Gives.after fun echo => .ok h2

theorem deleteBackwardChar_at (hP : SeatInvariant e.toCommands P) (h : v.At P) :
    Gives (v.deleteBackwardChar e) (At P) :=
  .ite (fun _ => .ok h) fun _ => Gives.bind (backwardChar_at h) fun _ h1 => deleteChar_at hP h1

theorem forwardKillWord_at (hP : SeatInvariant e.toCommands P) (h : v.At P) :
    Gives (v.forwardKillWord e) (At P) :=
  Gives.bind (.loop (fun _ => deleteChar_at hP) h _) fun _ h1 => .loop (fun _ => deleteChar_at hP) h1 _

theorem backwardKillWord_at (hP : SeatInvariant e.toCommands P) (h : v.At P) :
    Gives (v.backwardKillWord e) (At P) :=
  Gives.bind (.loop (fun _ => deleteBackwardChar_at hP) h _) fun _ h1 =>
    .loop (fun _ => deleteBackwardChar_at hP) h1 _

theorem completeCommand_at (h : v.At P) : Gives (v.completeCommand e) (At P) := by
  refine .ite (fun _ => .ok h) fun _ => Gives.after fun line => ?_
  split
  · exact .ok h
  · refine Gives.after fun vline => ?_
    dsimp only
    split
    · exact redrawLine_at (P := P) h
    · exact redrawLine_at (P := P) h
    · exact redrawLine_at (P := P) h
    · refine Gives.bind (redrawLine_at (P := P) h) fun v1 h1 => ?_
      refine Gives.bind (backwardPureWord_at e h1) fun v2 h2 => ?_
      exact Gives.bind (insertWordOverwrite_at h2 _) fun v3 h3 => selfInsert_at e h3 _
    · refine Gives.bind (redrawLine_at (P := P) h) fun v1 h1 => ?_
      exact Gives.bind (backwardPureWord_at e h1) fun v2 h2 => insertWordOverwrite_at h2 _
    · exact redrawLine_at (P := P) h

theorem described_at (h : v.At P) (answer : Description) :
    At P (match answer with
      | .errAmbiguous => (v.newline.out (ascii "% Ambiguous command.")).newline
      | .errNoMatch => (v.newline.out (ascii "% There is no matched command.")).newline
      | .shown text => v.newline.out text) := by
  cases answer with
  | errAmbiguous => exact h
  | errNoMatch => exact h
  | shown text => exact h

theorem describeCommand_at (h : v.At P) : Gives (v.describeCommand e) (At P) := by
  refine Gives.after fun line => ?_
  dsimp only
  split
  · exact Gives.after fun vline => redrawLine_at (P := P) (described_at h _)
  · exact Gives.after fun vline => redrawLine_at (P := P) (described_at h _)

theorem command_seat (hP : SeatInvariant e.toCommands P) {s : Seat H} (hauth : s.isAuth = false)
    (hs : P s) (buf : List UInt8) (history : History) : P (e.command buf history s).1 := by
  rw [Commands.command]
  split
  · exact hs
  · exact hP.execute _ _ _ hauth hs

theorem execute_at (hP : SeatInvariant e.toCommands P) (h : v.At P) : Gives (v.execute e) (At P) := by
  refine Gives.after fun buf => .ok ?_
  have hseat : P (if v.seat.isAuth then v.seat.auth buf else e.command buf v.history v.seat).1 := by
    cases hauth : v.seat.isAuth with
    | true => exact hP.auth _ _ hauth h
    | false => exact command_seat hP hauth h _ _
  have hite : ∀ {p : Prop} [Decidable p] {u : Vty H}, u.At P → At P (if p then u else u.prompt e) := by
    intro p _ u hu
    split
    · exact hu
    · exact hu
  exact hite hseat

/-- **One key** keeps what the seat keeps. -/
theorem act_at (hP : SeatInvariant e.toCommands P) (h : v.At P) (k : Key) :
    Gives (v.act e k) (At P) := by
  cases k with
  | beginningOfLine => exact beginningOfLine_at e h
  | backwardChar => exact backwardChar_at h
  | stopInput => exact .ok (hP.leaveConfig _ h)
  | deleteChar => exact deleteChar_at hP h
  | endOfLine => exact endOfLine_at e h
  | forwardChar => exact forwardChar_at h
  | deleteBackwardChar => exact deleteBackwardChar_at hP h
  | killLine => exact killLine_at h
  | nextLine => exact lookUp_at e h _
  | previousLine => exact lookUp_at e h _
  | transposeChars => exact transposeChars_at e h
  | killLineFromBeginning => exact killLineFromBeginning_at e h
  | backwardKillWord => exact backwardKillWord_at hP h
  | endConfig => exact .ok (hP.leaveConfig _ h)
  | execute => exact execute_at hP (v := v.newline) h
  | completeCommand => exact completeCommand_at h
  | describeCommand => exact .ite (fun _ => selfInsert_at e h _) fun _ => describeCommand_at h
  | insert c => exact selfInsert_at e h c
  | backwardWord => exact backwardWord_at e h
  | forwardWord => exact forwardWord_at e h
  | forwardKillWord => exact forwardKillWord_at hP h
  | nothing => exact .ok h

theorem item_at (hP : SeatInvariant e.toCommands P) (h : v.At P) (i : Item) :
    Gives (v.item e i) (At P) := by
  cases i with
  | key o => exact Gives.bind (act_at hP h _) fun v1 h1 => .ok h1
  | text bs => exact .ok h

end Vty

/-- **A read** keeps what the seat keeps. -/
theorem readOctets_at {e : Setting H} {P : Seat H → Prop} (hP : SeatInvariant e.toCommands P)
    (os : List UInt8) {s : TelnetSession H} (h : P s.vty.seat) :
    Gives (readOctets e os s) fun s' => P s'.vty.seat := by
  rw [readOctets_eq]
  intro s' hs'
  rw [TelnetSession.feed] at hs'
  cases hitems : (options.outputs ⟨s.telnet, false⟩ os).foldlM (Vty.item e) s.vty with
  | error f =>
      rw [hitems] at hs'
      cases hs'
  | ok v =>
      rw [hitems] at hs'
      obtain rfl := Except.ok.inj hs'
      exact Gives.foldlM (P := Vty.At P) (fun v i hv => Vty.item_at hP hv i) h _ v hitems

end SoftBts
