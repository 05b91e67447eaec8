import SoftBts.Lib.Terminal
import SoftBts.Vty

/-! The line editor of the sessions against an editor of text with a cursor: over every run of keys
the buffer holds the text and zeros behind it, so that the line that is executed is the text that was
edited, and the terminal shows the text and the cursor. -/

namespace SoftBts

open Octets Loop Terminal

variable {H : Type}

/-! ### What the user sees -/

/-- A session as its user sees it. -/
structure Desk (H : Type) where
  seat : Seat H
  line : Zipper UInt8
  history : History
  escape : Escape

namespace Desk

def edit (f : Zipper UInt8 → Zipper UInt8) (d : Desk H) : Desk H := { d with line := f d.line }

/-- The character before the cursor is taken out, but the password prompts only step over it. -/
def rubOut (d : Desk H) : Desk H :=
  d.edit (if d.seat.isAuth then .backward else .deleteBackward)

def rubOutWord (d : Desk H) : Desk H :=
  d.edit fun z =>
    if d.seat.isAuth then (z.backwardWhile Vty.blank).backwardWhile Vty.nonblank
    else (z.deleteBackwardWhile Vty.blank).deleteBackwardWhile Vty.nonblank

/-- A line of the history takes the place of the line. -/
def lookUp (found : Option (List UInt8 × History)) (d : Desk H) : Desk H :=
  match found with
  | none => d
  | some (entry, history) => { d with line := .ofText entry, history := history }

/-- The word takes the place of the last word of the text. -/
def completed (text matched : List UInt8) : Zipper UInt8 :=
  ⟨matched.reverse ++ text.reverse.dropWhile Vty.nonblank, []⟩

/-- The words of a text, and a null pointer when it ends in a space. -/
def words (text : List UInt8) (vline : List (List UInt8)) : List (Option (List UInt8)) :=
  vline.map some ++ if text.getLast?.any isspace then [none] else []

def complete (c : Commands H) (d : Desk H) : Zipper UInt8 :=
  match makeStrvec d.line.text with
  | none => d.line
  | some vline =>
      match c.complete (words d.line.text vline) d.seat with
      | .completeFullMatch matched => (completed d.line.text matched).insert Vty.telnetSpaceChar
      | .completeMatch matched => completed d.line.text matched
      | _ => d.line.toEnd

/-- The text goes to the command, or to the password check, and a new line begins. -/
def execute (c : Commands H) (d : Desk H) : Desk H :=
  let text := d.line.text
  { d with
    seat := (if d.seat.isAuth then d.seat.auth text else c.command text d.history d.seat).1
    line := .empty
    history := if d.seat.isAuth ∨ text = [] then d.history else d.history.add text }

def act (c : Commands H) (k : Key) (d : Desk H) : Desk H :=
  match k with
  | .beginningOfLine => d.edit .home
  | .backwardChar => d.edit .backward
  | .stopInput =>
      { d with seat := d.seat.leaveConfig, line := .empty, history := d.history.latest }
  | .deleteChar =>
      if d.seat.isAuth then d
      else if d.line.text = [] then { d with seat := d.seat.configExit }
      else d.edit .delete
  | .endOfLine => d.edit .toEnd
  | .forwardChar => d.edit .forward
  | .deleteBackwardChar => d.rubOut
  | .killLine => d.edit .killRight
  | .nextLine => d.lookUp d.history.next
  | .previousLine => d.lookUp d.history.previous
  | .transposeChars => d.edit .transpose
  | .killLineFromBeginning => { d with line := .empty }
  | .backwardKillWord => d.rubOutWord
  | .endConfig => { d with seat := d.seat.leaveConfig, line := d.line.home }
  | .execute => d.execute c
  | .completeCommand => if d.seat.isAuth then d else { d with line := d.complete c }
  | .describeCommand => if d.seat.isAuth then d.edit (.insert 0x3f) else d.edit .toEnd
  | .insert a => d.edit (.insert a)
  | .backwardWord => d.edit fun z => (z.backwardWhile Vty.blank).backwardWhile Vty.nonblank
  | .forwardWord => d.edit fun z => (z.forwardWhile Vty.nonblank).forwardWhile Vty.blank
  | .forwardKillWord => d.edit fun z => (z.deleteWhile Vty.blank).deleteWhile Vty.nonblank
  | .nothing => d

def press (c : Commands H) (o : UInt8) (d : Desk H) : Desk H :=
  { d.act c (keymap d.escape o).1 with escape := (keymap d.escape o).2 }

end Desk

/-! ### The buffer -/

/-- The buffer holds the line: the text, and zeros behind it. -/
structure Buffered (v : Vty H) (z : Zipper UInt8) : Prop where
  cp : v.cp = z.left.length
  length : v.length = z.left.length + z.right.length
  max : vtyBufsiz ≤ v.max
  fits : z.left.length + z.right.length < vtyBufsiz
  printable : ∀ c ∈ z.text, Printable c
  buf : Mem.AgreeBelow vtyBufsiz v.buf (Mem.pad z.text)

/-- What is put out makes a row that shows the line show the changed line; the password prompts put
nothing out. -/
def Echoes (auth : Bool) (o o' : List UInt8) (z z' : Zipper UInt8) : Prop :=
  ∃ bs, o' = o ++ bs ∧ (auth = true → bs = []) ∧
    (auth = false → ∀ base row, Shows base z row → Shows base z' (emit row bs))

/-- The session goes on with a changed line, and nothing else of it changes. -/
structure Becomes (v v' : Vty H) (z z' : Zipper UInt8) : Prop where
  buffered : Buffered v' z'
  seat : v'.seat = v.seat
  history : v'.history = v.history
  escape : v'.escape = v.escape
  echoes : Echoes v.seat.isAuth v.obuf v'.obuf z z'

theorem Echoes.refl (auth : Bool) (o : List UInt8) (z : Zipper UInt8) : Echoes auth o o z z :=
  ⟨[], (List.append_nil o).symm, fun _ => rfl, fun _ _ _ h => h⟩

theorem Echoes.trans {auth : Bool} {o o' o'' : List UInt8} {z z' z'' : Zipper UInt8}
    (h : Echoes auth o o' z z') (h' : Echoes auth o' o'' z' z'') : Echoes auth o o'' z z'' := by
  obtain ⟨bs, rfl, hauth, hshows⟩ := h
  obtain ⟨bs', rfl, hauth', hshows'⟩ := h'
  refine ⟨bs ++ bs', List.append_assoc _ _ _, fun ha => ?_, fun ha base row hrow => ?_⟩
  · rw [hauth ha, hauth' ha, List.append_nil]
  · rw [emit_append]
    exact hshows' ha base _ (hshows ha base row hrow)

theorem Becomes.refl {v : Vty H} {z : Zipper UInt8} (h : Buffered v z) : Becomes v v z z :=
  ⟨h, rfl, rfl, rfl, .refl _ _ _⟩

theorem Becomes.trans {v v' v'' : Vty H} {z z' z'' : Zipper UInt8} (h : Becomes v v' z z')
    (h' : Becomes v' v'' z' z'') : Becomes v v'' z z'' where
  buffered := h'.buffered
  seat := h'.seat.trans h.seat
  history := h'.history.trans h.history
  escape := h'.escape.trans h.escape
  echoes := h.echoes.trans (h.seat ▸ h'.echoes)

/-- What `vty_write` puts out. -/
theorem echoes_write (v : Vty H) {bs : List UInt8} {z z' : Zipper UInt8}
    (hshows : ∀ base row, Shows base z row → Shows base z' (emit row bs)) :
    Echoes v.seat.isAuth v.obuf (v.write bs).obuf z z' := by
  rw [Vty.write]
  cases v.seat.isAuth with
  | true => exact ⟨[], by simp, fun _ => rfl, (fun h => by cases h)⟩
  | false => exact ⟨bs, by simp, (fun h => by cases h), fun _ => hshows⟩

namespace Buffered

variable {v : Vty H} {z : Zipper UInt8} {l r : List UInt8} {c d : UInt8}

theorem length_eq (h : Buffered v z) : v.length = z.text.length := by
  rw [h.length, z.length_text]

theorem length_lt (h : Buffered v z) : z.text.length < vtyBufsiz := by
  rw [z.length_text]
  exact h.fits

theorem load (h : Buffered v z) {off n : ℕ} (hle : off + n ≤ z.text.length) :
    v.load off n = .ok ((z.text.drop off).take n) := by
  have hlt := h.length_lt
  have hmax := h.max
  rw [Vty.load, if_pos (by omega), h.buf.load (by omega), Mem.load_pad hle]

theorem load_split (h : Buffered v z) {a b : List UInt8} (htext : z.text = a ++ b) {off : ℕ}
    (hoff : off = a.length) : v.load off b.length = .ok b := by
  have hle : off + b.length ≤ z.text.length := by
    rw [htext, hoff, List.length_append]
  rw [h.load hle, htext, hoff, List.drop_left, List.take_length]

theorem get (h : Buffered v z) {i : ℕ} (hi : i < z.text.length) : v.get i = .ok z.text[i] := by
  have hlt := h.length_lt
  have hmax := h.max
  rw [Vty.get, if_pos (by omega), h.buf i (by omega), Mem.pad_apply, List.getElem?_eq_getElem hi]
  rfl

theorem get_right (h : Buffered v ⟨l, c :: r⟩) : v.get v.cp = .ok c := by
  have hcp : v.cp = l.reverse.length := by rw [h.cp, List.length_reverse]
  rw [h.get (by simp [hcp, Zipper.text])]
  simp [Zipper.text, hcp]

theorem get_left (h : Buffered v ⟨c :: l, r⟩) : v.get (v.cp - 1) = .ok c := by
  have hcp : v.cp - 1 = l.length := by rw [h.cp, List.length_cons, Nat.add_sub_cancel]
  rw [h.get (by simp [hcp, Zipper.text])]
  simp [Zipper.text, hcp]

theorem rest (h : Buffered v z) : v.rest = .ok z.right.length := by
  rw [Vty.rest, h.cp, h.length, if_pos (Nat.le_add_right _ _), Nat.add_sub_cancel_left]

theorem drop_cp (h : Buffered v z) : z.text.drop v.cp = z.right := by
  rw [h.cp, Zipper.text, ← List.length_reverse, List.drop_left]

theorem take_cp (h : Buffered v z) : z.text.take v.cp = z.left.reverse := by
  rw [h.cp, Zipper.text, ← List.length_reverse, List.take_left]

/-- Only the cursor has moved. -/
theorem move (h : Buffered v z) {v' : Vty H} {z' : Zipper UInt8} (htext : z'.text = z.text)
    (hcp : v'.cp = z'.left.length) (hlength : v'.length = v.length) (hmax : v'.max = v.max)
    (hbuf : v'.buf = v.buf) : Buffered v' z' where
  cp := hcp
  length := by rw [hlength, h.length_eq, ← htext, z'.length_text]
  max := hmax ▸ h.max
  fits := by
    rw [← z'.length_text, htext]
    exact h.length_lt
  printable := htext ▸ h.printable
  buf := by
    rw [hbuf, htext]
    exact h.buf

/-- The text has changed, in the line and in the buffer. -/
theorem change {v' : Vty H} {z' : Zipper UInt8} (hcp : v'.cp = z'.left.length)
    (hlength : v'.length = z'.left.length + z'.right.length) (hmax : vtyBufsiz ≤ v'.max)
    (hfits : z'.left.length + z'.right.length < vtyBufsiz)
    (hprintable : ∀ c ∈ z'.text, Printable c) {t : List UInt8} (ht : Mem.pad t = Mem.pad z'.text)
    (hbuf : Mem.AgreeBelow vtyBufsiz v'.buf (Mem.pad t)) : Buffered v' z' :=
  ⟨hcp, hlength, hmax, hfits, hprintable, ht ▸ hbuf⟩

theorem store_eq (v : Vty H) (hmax : vtyBufsiz ≤ v.max) {off : ℕ} {bs : List UInt8}
    (hle : off + bs.length ≤ vtyBufsiz) :
    v.store off bs = .ok { v with buf := v.buf.store off bs } :=
  if_pos (Nat.le_trans hle hmax)

theorem store_agree {m : Mem} {t : List UInt8} (h : Mem.AgreeBelow vtyBufsiz m (Mem.pad t))
    {o : ℕ} (bs : List UInt8) (hle : o ≤ t.length) :
    Mem.AgreeBelow vtyBufsiz (m.store o bs)
      (Mem.pad (t.take o ++ bs ++ t.drop (o + bs.length))) := by
  rw [← Mem.pad_store bs hle]
  exact h.store o bs

/-! #### Moving the cursor -/

theorem forwardChar (h : Buffered v z) : ∃ v', v.forwardChar = .ok v' ∧ Becomes v v' z z.forward := by
  rcases z with ⟨l, _ | ⟨c, r⟩⟩
  · have hend : ¬ v.cp < v.length := by
      rw [h.cp, h.length]
      exact Nat.lt_irrefl _
    exact ⟨v, if_neg hend, .refl h⟩
  · have hlt : v.cp < v.length := by
      rw [h.cp, h.length, List.length_cons]
      omega
    refine ⟨{ v.write [c] with cp := v.cp + 1 }, ?_, ?_⟩
    · rw [Vty.forwardChar, if_pos hlt, h.get_right]
      rfl
    · refine ⟨h.move (Zipper.text_forward _) ?_ rfl rfl rfl, rfl, rfl, rfl, ?_⟩
      · exact congrArg (· + 1) h.cp
      · exact echoes_write v fun base row hrow =>
          hrow.forward (h.printable c (by simp [Zipper.text]))

theorem backwardChar (h : Buffered v z) :
    ∃ v', v.backwardChar = .ok v' ∧ Becomes v v' z z.backward := by
  rcases z with ⟨_ | ⟨c, l⟩, r⟩
  · have hend : ¬ 0 < v.cp := by
      rw [h.cp]
      exact Nat.lt_irrefl _
    exact ⟨v, if_neg hend, .refl h⟩
  · have hlt : 0 < v.cp := by
      rw [h.cp]
      exact Nat.succ_pos _
    refine ⟨_, if_pos hlt, h.move (Zipper.text_backward _) ?_ rfl rfl rfl, rfl, rfl, rfl, ?_⟩
    · exact congrArg (· - 1) h.cp
    · exact echoes_write v fun base row hrow => hrow.backward

variable {e : Setting H}

theorem turns_lt (h : Buffered v z) (hturns : vtyBufsiz ≤ e.turns) :
    z.left.length < e.turns ∧ z.right.length < e.turns := by
  have hfits := h.fits
  omega

theorem beginningOfLine (h : Buffered v z) (hturns : vtyBufsiz ≤ e.turns) :
    ∃ v', v.beginningOfLine e = .ok v' ∧ Becomes v v' z z.home := by
  refine loop_follows (R := fun v' z' => Becomes v v' z z') (c := fun z => z.left ≠ [])
    (f := Zipper.backward) (g := Zipper.home) (fun z => z.left.length) ?_ ?_ ?_ ?_ ?_ (.refl h)
    (h.turns_lt hturns).1
  · intro v' z' h'
    rw [h'.buffered.cp]
    cases z'.left <;> rfl
  · intro v' z' h' _
    obtain ⟨v'', hresult, h''⟩ := h'.buffered.backwardChar
    exact ⟨v'', hresult, h'.trans h''⟩
  · rintro ⟨_ | ⟨a, l⟩, r⟩ hleft
    · cases hleft
    · exact Nat.lt_succ_self _
  · exact fun z' _ => z'.home_backward
  · rintro ⟨_ | ⟨a, l⟩, r⟩ hleft
    · rfl
    · cases hleft

theorem endOfLine (h : Buffered v z) (hturns : vtyBufsiz ≤ e.turns) :
    ∃ v', v.endOfLine e = .ok v' ∧ Becomes v v' z z.toEnd := by
  refine loop_follows (R := fun v' z' => Becomes v v' z z') (c := fun z => z.right ≠ [])
    (f := Zipper.forward) (g := Zipper.toEnd) (fun z => z.right.length) ?_ ?_ ?_ ?_ ?_ (.refl h)
    (h.turns_lt hturns).2
  · intro v' z' h'
    rw [h'.buffered.cp, h'.buffered.length]
    cases z'.right <;> simp
  · intro v' z' h' _
    obtain ⟨v'', hresult, h''⟩ := h'.buffered.forwardChar
    exact ⟨v'', hresult, h'.trans h''⟩
  · rintro ⟨l, _ | ⟨a, r⟩⟩ hright
    · cases hright
    · exact Nat.lt_succ_self _
  · exact fun z' _ => z'.toEnd_forward
  · rintro ⟨l, _ | ⟨a, r⟩⟩ hright
    · simp [Zipper.toEnd, Zipper.ofText, Zipper.text]
    · cases hright

/-! #### Words -/

theorem atCursor (h : Buffered v z) (p : UInt8 → Bool) : v.atCursor p = .ok (z.under p) := by
  rcases z with ⟨l, _ | ⟨c, r⟩⟩
  · have hend : v.cp = v.length := by
      rw [h.cp, h.length]
      rfl
    exact if_pos hend
  · have hne : v.cp ≠ v.length := by
      rw [h.cp, h.length, List.length_cons]
      omega
    rw [Vty.atCursor, if_neg hne, h.get_right]
    rfl

theorem beforeCursor (h : Buffered v z) (p : UInt8 → Bool) : v.beforeCursor p = .ok (z.behind p) := by
  rcases z with ⟨_ | ⟨c, l⟩, r⟩
  · exact if_pos h.cp
  · have hne : v.cp ≠ 0 := by
      rw [h.cp]
      exact Nat.succ_ne_zero _
    rw [Vty.beforeCursor, if_neg hne, h.get_left]
    rfl

theorem length_forward_lt {p : UInt8 → Bool} (z : Zipper UInt8) (hp : z.under p = true) :
    z.forward.right.length < z.right.length ∧ z.delete.right.length < z.right.length := by
  obtain ⟨l, a, r, rfl, -⟩ := Zipper.exists_of_under hp
  exact ⟨Nat.lt_succ_self _, Nat.lt_succ_self _⟩

theorem length_backward_lt {p : UInt8 → Bool} (z : Zipper UInt8) (hp : z.behind p = true) :
    z.backward.left.length < z.left.length ∧ z.deleteBackward.left.length < z.left.length := by
  obtain ⟨a, l, r, rfl, -⟩ := Zipper.exists_of_behind hp
  exact ⟨Nat.lt_succ_self _, Nat.lt_succ_self _⟩

theorem forwardLoop (h : Buffered v z) (hturns : vtyBufsiz ≤ e.turns) (p : UInt8 → Bool) :
    ∃ v', loop .hang (Vty.atCursor p) Vty.forwardChar e.turns v = .ok v' ∧
      Becomes v v' z (z.forwardWhile p) := by
  refine loop_follows (R := fun v' z' => Becomes v v' z z') (c := Zipper.under p)
    (f := Zipper.forward) (g := Zipper.forwardWhile p) (fun z => z.right.length) ?_ ?_
    (fun z' hp => (length_forward_lt z' hp).1) (fun z' => Zipper.forwardWhile_forward)
    (fun z' => Zipper.forwardWhile_stop) (.refl h) (h.turns_lt hturns).2
  · exact fun v' z' h' => h'.buffered.atCursor p
  · intro v' z' h' _
    obtain ⟨v'', hresult, h''⟩ := h'.buffered.forwardChar
    exact ⟨v'', hresult, h'.trans h''⟩

theorem backwardLoop (h : Buffered v z) (hturns : vtyBufsiz ≤ e.turns) (p : UInt8 → Bool) :
    ∃ v', loop .hang (Vty.beforeCursor p) Vty.backwardChar e.turns v = .ok v' ∧
      Becomes v v' z (z.backwardWhile p) := by
  refine loop_follows (R := fun v' z' => Becomes v v' z z') (c := Zipper.behind p)
    (f := Zipper.backward) (g := Zipper.backwardWhile p) (fun z => z.left.length) ?_ ?_
    (fun z' hp => (length_backward_lt z' hp).1) (fun z' => Zipper.backwardWhile_backward)
    (fun z' => Zipper.backwardWhile_stop) (.refl h) (h.turns_lt hturns).1
  · exact fun v' z' h' => h'.buffered.beforeCursor p
  · intro v' z' h' _
    obtain ⟨v'', hresult, h''⟩ := h'.buffered.backwardChar
    exact ⟨v'', hresult, h'.trans h''⟩

theorem forwardWord (h : Buffered v z) (hturns : vtyBufsiz ≤ e.turns) :
    ∃ v', v.forwardWord e = .ok v' ∧
      Becomes v v' z ((z.forwardWhile Vty.nonblank).forwardWhile Vty.blank) := by
  obtain ⟨v', hresult, h'⟩ := h.forwardLoop hturns Vty.nonblank
  obtain ⟨v'', hresult', h''⟩ := h'.buffered.forwardLoop hturns Vty.blank
  refine ⟨v'', ?_, h'.trans h''⟩
  rw [Vty.forwardWord, hresult]
  exact hresult'

theorem backwardWord (h : Buffered v z) (hturns : vtyBufsiz ≤ e.turns) :
    ∃ v', v.backwardWord e = .ok v' ∧
      Becomes v v' z ((z.backwardWhile Vty.blank).backwardWhile Vty.nonblank) := by
  obtain ⟨v', hresult, h'⟩ := h.backwardLoop hturns Vty.blank
  obtain ⟨v'', hresult', h''⟩ := h'.buffered.backwardLoop hturns Vty.nonblank
  refine ⟨v'', ?_, h'.trans h''⟩
  rw [Vty.backwardWord, hresult]
  exact hresult'

/-! #### Changing the text -/

theorem write_write (v : Vty H) (a b : List UInt8) : (v.write a).write b = v.write (a ++ b) := by
  by_cases hauth : v.seat.isAuth = true <;> simp [Vty.write, hauth]

theorem printable_right (h : Buffered v ⟨l, r⟩) : ∀ d ∈ r, Printable d :=
  fun d hd => h.printable d (List.mem_append_right _ hd)

theorem printable_left (h : Buffered v ⟨l, r⟩) : ∀ d ∈ l, Printable d :=
  fun d hd => h.printable d (List.mem_append_left _ (List.mem_reverse.mpr hd))

/-- The octets that `vty_delete_char` leaves behind the characters it has moved. -/
theorem pad_delete (l : List UInt8) (c : UInt8) (r : List UInt8) :
    let t := (l.reverse ++ c :: r).take l.length ++ r ++ (l.reverse ++ c :: r).drop (l.length + r.length)
    Mem.pad (t.take (l.length + r.length) ++ [0] ++ t.drop (l.length + r.length + 1)) =
      Mem.pad (l.reverse ++ r) := by
  intro t
  have hlen : l.length = l.reverse.length := List.length_reverse.symm
  have hdrop : (l.reverse ++ c :: r).drop (l.length + r.length) = (c :: r).drop r.length := by
    rw [hlen, ← List.drop_drop, List.drop_left]
  have ht : t = l.reverse ++ r ++ (c :: r).drop r.length := by
    rw [← hdrop]
    simp only [t, hlen, List.take_left]
  have hlast : ((c :: r).drop r.length).length = 1 := by simp
  have hsum : l.length + r.length = (l.reverse ++ r).length := by rw [List.length_append, hlen]
  have hend : t.drop (l.length + r.length + 1) = [] := by
    rw [List.drop_eq_nil_iff, ht, List.length_append, hlast, ← hsum]
  rw [hend, ht, hsum, List.take_left, List.append_nil]
  exact Mem.pad_append_zeros _ 1

theorem deleteChar (h : Buffered v z) (hauth : v.seat.isAuth = false) (htext : z.text ≠ []) :
    ∃ v', v.deleteChar e = .ok v' ∧ Becomes v v' z z.delete := by
  have hlength : v.length ≠ 0 := by
    rw [h.length_eq]
    exact fun h0 => htext (List.length_eq_zero_iff.mp h0)
  rcases z with ⟨l, _ | ⟨c, r⟩⟩
  · have hend : v.cp = v.length := by
      rw [h.cp, h.length]
      rfl
    refine ⟨v, ?_, .refl h⟩
    rw [Vty.deleteChar, if_neg (by simp [hauth]), if_neg hlength, if_pos hend]
    rfl
  · have hne : v.cp ≠ v.length := by
      rw [h.cp, h.length, List.length_cons]
      omega
    have hcp : v.cp = l.length := h.cp
    have hlen : v.length - 1 = l.length + r.length := by
      rw [h.length, List.length_cons]
      rfl
    have hfits : l.length + (r.length + 1) < vtyBufsiz := h.fits
    have htextlen : (Zipper.mk l (c :: r)).text.length = l.length + (r.length + 1) := by
      rw [Zipper.length_text, List.length_cons]
    let u : Vty H := { v with length := v.length - 1 }
    let u' : Vty H := { u with buf := u.buf.store v.cp r }
    let w : Vty H := { u' with buf := u'.buf.store (v.length - 1) [0] }
    have hw : Buffered w ⟨l, r⟩ := by
      have hagree := store_agree h.buf r (o := v.cp) (by rw [htextlen, hcp]; omega)
      refine change hcp hlen h.max (by dsimp only; omega) ?_ ?_
        (store_agree hagree [0] (o := v.length - 1) ?_)
      · intro d hd
        refine h.printable d ?_
        simp only [Zipper.text, List.mem_append, List.mem_cons] at hd ⊢
        tauto
      · rw [hcp, hlen]
        exact pad_delete l c r
      · rw [hlen, hcp]
        simp only [List.length_append, List.length_take, List.length_drop, htextlen]
        omega
    have hload : u.load (v.cp + 1) r.length = .ok r :=
      h.load_split (a := l.reverse ++ [c]) (by simp [Zipper.text]) (by simp [hcp])
    have hstore : u.store v.cp r = .ok u' := store_eq u h.max (by rw [hcp]; omega)
    have hstore' : u'.store (v.length - 1) [0] = .ok w :=
      store_eq u' h.max (by rw [hlen, List.length_singleton]; omega)
    have hecho : w.load v.cp r.length = .ok r :=
      hw.load_split (a := l.reverse) rfl (by rw [hcp, List.length_reverse])
    refine ⟨((w.write r).write [Vty.telnetSpaceChar]).write
      (List.replicate (r.length + 1) Vty.telnetBackwardChar), ?_, ?_⟩
    · rw [Vty.deleteChar, if_neg (by simp [hauth]), if_neg hlength, if_neg hne]
      refine (bind_ok h.rest).trans ((bind_ok hload).trans ((bind_ok hstore).trans ?_))
      exact (bind_ok hstore').trans (bind_ok hecho)
    · rw [write_write, write_write, ← List.append_assoc]
      exact ⟨hw.move rfl hw.cp rfl rfl rfl, rfl, rfl, rfl,
        echoes_write v fun base row hrow => hrow.delete hw.printable_right⟩

theorem deleteBackwardChar (h : Buffered v z) (hauth : v.seat.isAuth = false) :
    ∃ v', v.deleteBackwardChar e = .ok v' ∧ Becomes v v' z z.deleteBackward := by
  rcases z with ⟨_ | ⟨c, l⟩, r⟩
  · exact ⟨v, if_pos h.cp, .refl h⟩
  · have hne : v.cp ≠ 0 := by
      rw [h.cp]
      exact Nat.succ_ne_zero _
    obtain ⟨v', hresult, h'⟩ := h.backwardChar
    obtain ⟨v'', hresult', h''⟩ := h'.buffered.deleteChar (e := e) (h'.seat ▸ hauth)
      (by simp [Zipper.backward, Zipper.text])
    refine ⟨v'', ?_, h'.trans h''⟩
    rw [Vty.deleteBackwardChar, if_neg hne]
    exact (bind_ok hresult).trans hresult'

/-- At a password prompt the key only steps over the character. -/
theorem deleteBackwardChar_auth (h : Buffered v z) (hauth : v.seat.isAuth = true) :
    ∃ v', v.deleteBackwardChar e = .ok v' ∧ Becomes v v' z z.backward := by
  obtain ⟨v', hresult, h'⟩ := h.backwardChar
  by_cases hcp : v.cp = 0
  · have hsame : v.backwardChar = .ok v := if_neg (by omega)
    rw [hsame] at hresult
    refine ⟨v', ?_, h'⟩
    rw [Vty.deleteBackwardChar, if_pos hcp]
    exact hresult
  · refine ⟨v', ?_, h'⟩
    rw [Vty.deleteBackwardChar, if_neg hcp]
    refine (bind_ok hresult).trans ?_
    rw [Vty.deleteChar, if_pos (h'.seat ▸ hauth)]
    rfl

theorem rubOutLoop (h : Buffered v z) (hturns : vtyBufsiz ≤ e.turns) (p : UInt8 → Bool) :
    ∃ v', loop .hang (Vty.beforeCursor p) (Vty.deleteBackwardChar e) e.turns v = .ok v' ∧
      Becomes v v' z (if v.seat.isAuth then z.backwardWhile p else z.deleteBackwardWhile p) := by
  cases hauth : v.seat.isAuth with
  | true =>
      refine loop_follows (R := fun v' z' => Becomes v v' z z') (c := Zipper.behind p)
        (f := Zipper.backward) (g := Zipper.backwardWhile p) (fun z => z.left.length) ?_ ?_
        (fun z' hp => (length_backward_lt z' hp).1) (fun z' => Zipper.backwardWhile_backward)
        (fun z' => Zipper.backwardWhile_stop) (.refl h) (h.turns_lt hturns).1
      · exact fun v' z' h' => h'.buffered.beforeCursor p
      · intro v' z' h' _
        obtain ⟨v'', hresult, h''⟩ := h'.buffered.deleteBackwardChar_auth (e := e) (h'.seat ▸ hauth)
        exact ⟨v'', hresult, h'.trans h''⟩
  | false =>
      refine loop_follows (R := fun v' z' => Becomes v v' z z') (c := Zipper.behind p)
        (f := Zipper.deleteBackward) (g := Zipper.deleteBackwardWhile p) (fun z => z.left.length)
        ?_ ?_ (fun z' hp => (length_backward_lt z' hp).2)
        (fun z' => Zipper.deleteBackwardWhile_deleteBackward)
        (fun z' => Zipper.deleteBackwardWhile_stop) (.refl h) (h.turns_lt hturns).1
      · exact fun v' z' h' => h'.buffered.beforeCursor p
      · intro v' z' h' _
        obtain ⟨v'', hresult, h''⟩ := h'.buffered.deleteBackwardChar (e := e) (h'.seat ▸ hauth)
        exact ⟨v'', hresult, h'.trans h''⟩

theorem backwardKillWord (h : Buffered v z) (hturns : vtyBufsiz ≤ e.turns) :
    ∃ v', v.backwardKillWord e = .ok v' ∧
      Becomes v v' z
        (if v.seat.isAuth then (z.backwardWhile Vty.blank).backwardWhile Vty.nonblank
        else (z.deleteBackwardWhile Vty.blank).deleteBackwardWhile Vty.nonblank) := by
  obtain ⟨v', hresult, h'⟩ := h.rubOutLoop hturns Vty.blank
  obtain ⟨v'', hresult', h''⟩ := h'.buffered.rubOutLoop hturns Vty.nonblank
  have hboth := h'.trans h''
  rw [h'.seat] at hboth
  refine ⟨v'', ?_, ?_⟩
  · rw [Vty.backwardKillWord]
    exact (bind_ok hresult).trans hresult'
  · cases hauth : v.seat.isAuth with
    | true => simpa [hauth] using hboth
    | false => simpa [hauth] using hboth

theorem deleteLoop (h : Buffered v z) (hturns : vtyBufsiz ≤ e.turns) (hauth : v.seat.isAuth = false)
    (p : UInt8 → Bool) :
    ∃ v', loop .hang (Vty.atCursor p) (Vty.deleteChar e) e.turns v = .ok v' ∧
      Becomes v v' z (z.deleteWhile p) := by
  refine loop_follows (R := fun v' z' => Becomes v v' z z') (c := Zipper.under p)
    (f := Zipper.delete) (g := Zipper.deleteWhile p) (fun z => z.right.length) ?_ ?_
    (fun z' hp => (length_forward_lt z' hp).2) (fun z' => Zipper.deleteWhile_delete)
    (fun z' => Zipper.deleteWhile_stop) (.refl h) (h.turns_lt hturns).2
  · exact fun v' z' h' => h'.buffered.atCursor p
  · intro v' z' h' hp
    obtain ⟨l, a, r, rfl, -⟩ := Zipper.exists_of_under hp
    obtain ⟨v'', hresult, h''⟩ := h'.buffered.deleteChar (e := e) (h'.seat ▸ hauth)
      (by simp [Zipper.text])
    exact ⟨v'', hresult, h'.trans h''⟩

theorem forwardKillWord (h : Buffered v z) (hturns : vtyBufsiz ≤ e.turns)
    (hauth : v.seat.isAuth = false) :
    ∃ v', v.forwardKillWord e = .ok v' ∧
      Becomes v v' z ((z.deleteWhile Vty.blank).deleteWhile Vty.nonblank) := by
  obtain ⟨v', hresult, h'⟩ := h.deleteLoop hturns hauth Vty.blank
  obtain ⟨v'', hresult', h''⟩ := h'.buffered.deleteLoop hturns (h'.seat ▸ hauth) Vty.nonblank
  refine ⟨v'', ?_, h'.trans h''⟩
  rw [Vty.forwardKillWord]
  exact (bind_ok hresult).trans hresult'

/-- **`vty_forward_kill_word` never returns** at a password prompt when a character is under the
cursor: `vty_delete_char` does nothing there. -/
theorem forwardKillWord_hang (h : Buffered v ⟨l, c :: r⟩) (hauth : v.seat.isAuth = true) :
    v.forwardKillWord e = .error .hang := by
  have hdelete : v.deleteChar e = .ok v := by
    rw [Vty.deleteChar, if_pos hauth]
    rfl
  rw [Vty.forwardKillWord]
  cases hblank : Vty.blank c with
  | true =>
      have htest : v.atCursor Vty.blank = .ok true := (h.atCursor Vty.blank).trans (by simp [Zipper.under, hblank])
      rw [loop_stuck htest hdelete]
      rfl
  | false =>
      have hskip : v.atCursor Vty.blank = .ok false := (h.atCursor Vty.blank).trans (by simp [Zipper.under, hblank])
      have htest : v.atCursor Vty.nonblank = .ok true := by
        refine (h.atCursor Vty.nonblank).trans ?_
        simp only [Vty.blank, decide_eq_false_iff_not] at hblank
        simp [Zipper.under, Vty.nonblank, hblank]
      cases hturns : e.turns with
      | zero => rfl
      | succ n =>
          refine (bind_ok (loop_stop hskip n)).trans ?_
          exact loop_stuck htest hdelete _

theorem ensure_of_lt (e : Setting H) {n : ℕ} (hmax : vtyBufsiz ≤ v.max) (hlt : n < vtyBufsiz) :
    v.ensure e n = v :=
  if_neg (by omega)

/-- A buffer that is made larger still holds the line. -/
theorem ensure (h : Buffered v z) (e : Setting H) (n : ℕ) : Becomes v (v.ensure e n) z z := by
  rw [Vty.ensure]
  split
  · refine ⟨⟨h.cp, h.length, ?_, h.fits, h.printable, fun i hi => ?_⟩, rfl, rfl, rfl, .refl _ _ _⟩
    · exact Nat.le_trans h.max (Nat.le_mul_of_pos_right _ (by decide))
    · exact (if_pos (Nat.lt_of_lt_of_le hi h.max)).trans (h.buf i hi)
  · exact .refl h

theorem store_nil (m : Mem) (off : ℕ) : m.store off [] = m := by
  funext i
  simp [Mem.store]

theorem printable_insert (h : Buffered v ⟨l, r⟩) (hc : Printable c) :
    ∀ d ∈ (Zipper.mk (c :: l) r).text, Printable d := by
  intro d hd
  simp only [Zipper.text, List.reverse_cons, List.mem_append, List.mem_reverse,
    List.mem_singleton] at hd
  rcases hd with (hd | rfl) | hd
  · exact h.printable_left d hd
  · exact hc
  · exact h.printable_right d hd

/-- The octets when the characters from the cursor on have moved by one and another is there. -/
theorem buf_insert (h : Buffered v ⟨l, r⟩) (c : UInt8) :
    Mem.AgreeBelow vtyBufsiz ((v.buf.store (v.cp + 1) r).store v.cp [c])
      (Mem.pad (l.reverse ++ c :: r)) := by
  have hcp : v.cp = l.reverse.length := by rw [h.cp, List.length_reverse]
  have htextlen : (Zipper.mk l r).text.length = v.cp + r.length := by
    rw [Zipper.length_text, h.cp]
  cases r with
  | nil =>
      have hagree := store_agree h.buf [c] (o := v.cp) (Nat.le_of_eq htextlen.symm)
      have hdrop : (Zipper.mk l []).text.drop (v.cp + [c].length) = [] :=
        List.drop_eq_nil_of_le (htextlen ▸ Nat.le_add_right _ _)
      rw [h.take_cp, hdrop, List.append_nil] at hagree
      rw [store_nil]
      exact hagree
  | cons a r =>
      have hagree := store_agree h.buf (a :: r) (o := v.cp + 1)
        (by rw [htextlen, List.length_cons]; omega)
      have htake : (Zipper.mk l (a :: r)).text.take (v.cp + 1) = l.reverse ++ [a] := by
        rw [hcp, Zipper.text, List.take_length_add_append]
        rfl
      have hdrop : (Zipper.mk l (a :: r)).text.drop (v.cp + 1 + (a :: r).length) = [] :=
        List.drop_eq_nil_of_le (by rw [htextlen]; omega)
      rw [htake, hdrop, List.append_nil, List.append_assoc] at hagree
      have hagree' := store_agree hagree [c] (o := v.cp)
        (by rw [hcp, List.length_append]; exact Nat.le_add_right _ _)
      rw [hcp, List.take_left, List.length_singleton, ← List.drop_drop, List.drop_left,
        List.append_assoc] at hagree'
      rw [hcp]
      exact hagree'

theorem selfInsert (h : Buffered v z) (hc : Printable c)
    (hfits : z.left.length + z.right.length + 1 < vtyBufsiz) :
    ∃ v', v.selfInsert e c = .ok v' ∧ Becomes v v' z (z.insert c) := by
  rcases z with ⟨l, r⟩
  dsimp only at hfits
  have hcp : v.cp = l.length := h.cp
  have hlength : v.length = l.length + r.length := h.length
  let u : Vty H := { v with buf := v.buf.store (v.cp + 1) r }
  let w : Vty H := { u with buf := u.buf.store v.cp [c] }
  have hw : Buffered { w with cp := v.cp + 1, length := v.length + 1 } ⟨c :: l, r⟩ := by
    refine ⟨congrArg (· + 1) hcp, ?_, h.max, ?_, h.printable_insert hc, ?_⟩
    · dsimp only [List.length_cons]
      omega
    · dsimp only [List.length_cons]
      omega
    · rw [Zipper.text, List.reverse_cons, List.append_assoc]
      exact h.buf_insert c
  have hload : v.load v.cp r.length = .ok r :=
    h.load_split (a := l.reverse) rfl (by rw [hcp, List.length_reverse])
  have hstore : v.store (v.cp + 1) r = .ok u := store_eq v h.max (by omega)
  have hstore' : u.store v.cp [c] = .ok w :=
    store_eq u h.max (by rw [List.length_singleton]; omega)
  have hecho : w.load v.cp (r.length + 1) = .ok (c :: r) :=
    hw.load_split (a := l.reverse) (b := c :: r) (by simp [Zipper.text])
      (by rw [hcp, List.length_reverse])
  refine ⟨{ (w.write (c :: r)).write (List.replicate r.length Vty.telnetBackwardChar) with
    cp := v.cp + 1, length := v.length + 1 }, ?_, ?_⟩
  · have hensure : v.ensure e (v.length + 1) = v := ensure_of_lt e h.max (by omega)
    rw [Vty.selfInsert]
    dsimp only
    rw [hensure]
    refine (bind_ok h.rest).trans ((bind_ok hload).trans ((bind_ok hstore).trans ?_))
    exact (bind_ok hstore').trans (bind_ok hecho)
  · rw [write_write]
    exact ⟨hw.move rfl hw.cp rfl rfl rfl, rfl, rfl, rfl,
      echoes_write v fun base row hrow => hrow.insert hc h.printable_right⟩

theorem killLine (h : Buffered v z) : ∃ v', v.killLine = .ok v' ∧ Becomes v v' z z.killRight := by
  rcases z with ⟨l, r⟩
  have hcp : v.cp = l.length := h.cp
  have htextlen : (Zipper.mk l r).text.length = l.length + r.length := Zipper.length_text _
  have hfits : l.length + r.length < vtyBufsiz := h.fits
  by_cases hr : r.length = 0
  · obtain rfl := List.length_eq_zero_iff.mp hr
    refine ⟨v, ?_, .refl h⟩
    rw [Vty.killLine]
    exact (bind_ok h.rest).trans (if_pos hr)
  · let u := (v.write (List.replicate r.length Vty.telnetSpaceChar)).write
      (List.replicate r.length Vty.telnetBackwardChar)
    let w : Vty H := { u with buf := u.buf.store u.cp (List.replicate r.length 0) }
    have hstore : u.store u.cp (List.replicate r.length 0) = .ok w :=
      store_eq u h.max (by rw [List.length_replicate, show u.cp = l.length from hcp]; omega)
    refine ⟨{ w with length := w.cp }, ?_, ?_⟩
    · rw [Vty.killLine]
      exact (bind_ok h.rest).trans ((if_neg hr).trans (bind_ok hstore))
    · have hagree := store_agree h.buf (List.replicate r.length 0) (o := v.cp)
        (by rw [htextlen, hcp]; exact Nat.le_add_right _ _)
      have hdrop : (Zipper.mk l r).text.drop (v.cp + r.length) = [] :=
        List.drop_eq_nil_of_le (by rw [htextlen, hcp])
      rw [h.take_cp, List.length_replicate, hdrop, List.append_nil, Mem.pad_append_zeros] at hagree
      have hw : Buffered { w with length := w.cp } ⟨l, []⟩ := by
        refine ⟨hcp, hcp, h.max, Nat.lt_of_le_of_lt (Nat.le_add_right _ _) hfits, ?_, ?_⟩
        · intro d hd
          rw [Zipper.text, List.append_nil, List.mem_reverse] at hd
          exact h.printable_left d hd
        · rw [Zipper.text, List.append_nil]
          exact hagree
      refine ⟨hw, rfl, rfl, rfl, ?_⟩
      have hecho : u = v.write (List.replicate r.length Vty.telnetSpaceChar ++
          List.replicate r.length Vty.telnetBackwardChar) := write_write _ _ _
      rw [show ({ w with length := w.cp } : Vty H).obuf = u.obuf from rfl, hecho]
      exact echoes_write v fun base row hrow => hrow.kill

theorem killLineFromBeginning (h : Buffered v z) (hturns : vtyBufsiz ≤ e.turns) :
    ∃ v', v.killLineFromBeginning e = .ok v' ∧ Becomes v v' z .empty := by
  obtain ⟨v', hresult, h'⟩ := h.beginningOfLine hturns
  obtain ⟨v'', hresult', h''⟩ := h'.buffered.killLine
  refine ⟨v'', ?_, h'.trans h''⟩
  rw [Vty.killLineFromBeginning]
  exact (bind_ok hresult).trans hresult'

theorem printable_overwrite (h : Buffered v ⟨l, r⟩) (hc : Printable c) :
    ∀ d ∈ (Zipper.mk (c :: l) r.tail).text, Printable d := by
  intro d hd
  simp only [Zipper.text, List.reverse_cons, List.mem_append, List.mem_reverse,
    List.mem_singleton] at hd
  rcases hd with (hd | rfl) | hd
  · exact h.printable_left d hd
  · exact hc
  · exact h.printable_right d (List.mem_of_mem_tail hd)

theorem selfInsertOverwrite (h : Buffered v z) (hc : Printable c)
    (hfits : z.left.length + 1 + z.right.tail.length < vtyBufsiz) :
    ∃ v', v.selfInsertOverwrite e c = .ok v' ∧ Becomes v v' z (z.overwrite c) := by
  have hgrown := h.ensure e (v.length + 1)
  rcases z with ⟨l, r⟩
  dsimp only at hfits
  let u : Vty H := v.ensure e (v.length + 1)
  have hu : Buffered u ⟨l, r⟩ := hgrown.buffered
  have hcp : u.cp = l.length := hu.cp
  have hlength : u.length = l.length + r.length := hu.length
  let w : Vty H := { u with buf := u.buf.store u.cp [c] }
  let x : Vty H :=
    { w with cp := u.cp + 1, length := if u.length < u.cp + 1 then u.length + 1 else u.length }
  have hstore : u.store u.cp [c] = .ok w :=
    store_eq u hu.max (by rw [List.length_singleton]; omega)
  have hx : Buffered x ⟨c :: l, r.tail⟩ := by
    refine ⟨congrArg (· + 1) hcp, ?_, hu.max, hfits, hu.printable_overwrite hc, ?_⟩
    · dsimp only [x]
      rw [hcp, hlength]
      cases r with
      | nil => exact if_pos (Nat.lt_succ_self _)
      | cons a r =>
          rw [List.length_cons, if_neg (by omega)]
          dsimp only [List.length_cons, List.tail_cons]
          omega
    · have hagree := store_agree hu.buf [c] (o := u.cp)
        (by rw [Zipper.length_text, hcp]; exact Nat.le_add_right _ _)
      have htail : (Zipper.mk l r).text.drop (u.cp + [c].length) = r.tail := by
        rw [List.length_singleton, ← List.drop_drop, hu.drop_cp, List.drop_one]
      rw [hu.take_cp, htail] at hagree
      rw [Zipper.text, List.reverse_cons]
      exact hagree
  refine ⟨x.write [c], bind_ok hstore, hgrown.trans ?_⟩
  exact ⟨hx.move rfl hx.cp rfl rfl rfl, rfl, rfl, rfl,
    echoes_write u fun base row hrow => hrow.overwrite hc⟩

/-- The two characters before the cursor at the end of the line. -/
theorem transposeChars_end (h : Buffered v ⟨c :: d :: l, []⟩) :
    ∃ v', v.transposeChars e = .ok v' ∧ Becomes v v' ⟨c :: d :: l, []⟩ ⟨d :: c :: l, []⟩ := by
  have hcp : v.cp = l.length + 2 := h.cp
  have hlength : v.length = l.length + 2 := h.length
  have hfits : l.length + 2 < vtyBufsiz := h.fits
  have hget : v.get (v.cp - 1) = .ok c := h.get_left
  have hget' : v.get (v.cp - 2) = .ok d := by
    have hindex : v.cp - 2 = l.reverse.length := by rw [hcp, List.length_reverse, Nat.add_sub_cancel]
    rw [h.get (by simp [hindex, Zipper.text])]
    simp [Zipper.text, hindex]
  obtain ⟨v1, h1, hb1⟩ := h.backwardChar
  obtain ⟨v2, h2, hb2⟩ := hb1.buffered.backwardChar
  obtain ⟨v3, h3, hb3⟩ := hb2.buffered.selfInsertOverwrite (e := e)
    (h.printable_left c List.mem_cons_self) hfits
  obtain ⟨v4, h4, hb4⟩ := hb3.buffered.selfInsertOverwrite (e := e)
    (h.printable_left d (List.mem_cons_of_mem _ List.mem_cons_self)) hfits
  refine ⟨v4, ?_, hb1.trans (hb2.trans (hb3.trans hb4))⟩
  rw [Vty.transposeChars, if_neg (by omega), if_pos (by omega)]
  refine (bind_ok hget).trans ((bind_ok hget').trans ((bind_ok h1).trans ?_))
  exact (bind_ok h2).trans ((bind_ok h3).trans h4)

/-- The characters around the cursor. -/
theorem transposeChars_middle (h : Buffered v ⟨c :: l, d :: r⟩) :
    ∃ v', v.transposeChars e = .ok v' ∧ Becomes v v' ⟨c :: l, d :: r⟩ ⟨c :: d :: l, r⟩ := by
  have hcp : v.cp = l.length + 1 := h.cp
  have hlength : v.length = l.length + 1 + (r.length + 1) := h.length
  have hfits : l.length + 1 + (r.length + 1) < vtyBufsiz := h.fits
  have hget : v.get v.cp = .ok d := h.get_right
  have hget' : v.get (v.cp - 1) = .ok c := h.get_left
  obtain ⟨v1, h1, hb1⟩ := h.backwardChar
  obtain ⟨v2, h2, hb2⟩ := hb1.buffered.selfInsertOverwrite (e := e)
    (h.printable_right d List.mem_cons_self) hfits
  obtain ⟨v3, h3, hb3⟩ := hb2.buffered.selfInsertOverwrite (e := e)
    (h.printable_left c List.mem_cons_self)
    (show l.length + 1 + 1 + r.length < vtyBufsiz by omega)
  refine ⟨v3, ?_, hb1.trans (hb2.trans hb3)⟩
  rw [Vty.transposeChars, if_neg (by omega), if_neg (by omega)]
  refine (bind_ok hget).trans ((bind_ok hget').trans ?_)
  exact (bind_ok h1).trans ((bind_ok h2).trans h3)

theorem transposeChars (h : Buffered v z) :
    ∃ v', v.transposeChars e = .ok v' ∧ Becomes v v' z z.transpose := by
  have hnothing : z.left.length + z.right.length < 2 ∨ z.left.length < 1 →
      v.transposeChars e = .ok v := by
    rw [← h.length, ← h.cp]
    exact fun hshort => if_pos hshort
  rcases z with ⟨_ | ⟨c, _ | ⟨d, l⟩⟩, _ | ⟨b, r⟩⟩
  · exact ⟨v, hnothing (.inr Nat.zero_lt_one), .refl h⟩
  · exact ⟨v, hnothing (.inr Nat.zero_lt_one), .refl h⟩
  · exact ⟨v, hnothing (.inl Nat.one_lt_two), .refl h⟩
  · exact h.transposeChars_middle
  · exact h.transposeChars_end
  · exact h.transposeChars_middle

/-! #### Whole lines -/

/-- A line is written behind what stands on the row. -/
theorem redrawLine (h : Buffered v z) :
    ∃ v', v.redrawLine = .ok v' ∧ Buffered v' z.toEnd ∧ v'.seat = v.seat ∧
      v'.history = v.history ∧ v'.escape = v.escape ∧
        v'.obuf = (v.write z.text).obuf := by
  have hload : v.load 0 v.length = .ok z.text := by
    rw [h.length_eq]
    exact h.load_split (a := []) rfl rfl
  refine ⟨{ v.write z.text with cp := v.length }, bind_ok hload, ?_, rfl, rfl, rfl, rfl⟩
  refine h.move (Zipper.text_ofText _) ?_ rfl rfl rfl
  rw [Zipper.toEnd, Zipper.ofText, List.length_reverse]
  exact h.length_eq

theorem historyPrint (h : Buffered v z) (hturns : vtyBufsiz ≤ e.turns) {entry : List UInt8}
    (hfits : entry.length < vtyBufsiz) (hprintable : ∀ c ∈ entry, Printable c) :
    ∃ v', v.historyPrint e entry = .ok v' ∧ Becomes v v' z (.ofText entry) := by
  obtain ⟨u, hkill, hu⟩ := h.killLineFromBeginning hturns
  let w : Vty H := { u with buf := u.buf.store 0 entry }
  have hstore : u.store 0 entry = .ok w :=
    store_eq u hu.buffered.max (by rw [Nat.zero_add]; exact Nat.le_of_lt hfits)
  have hw : Buffered { w with cp := entry.length, length := entry.length } (.ofText entry) := by
    have hagree := store_agree hu.buffered.buf entry (o := 0) (Nat.zero_le _)
    refine ⟨List.length_reverse.symm, List.length_reverse.symm, hu.buffered.max, ?_, ?_, ?_⟩
    · rw [Zipper.ofText, List.length_reverse]
      exact hfits
    · rwa [Zipper.text_ofText]
    · rw [Zipper.text_ofText]
      simpa [Zipper.text, Zipper.empty] using hagree
  obtain ⟨v', hresult, hbuffered, hseat, hhistory, hescape, hobuf⟩ := hw.redrawLine
  rw [Zipper.toEnd, Zipper.text_ofText] at hbuffered
  rw [Zipper.text_ofText] at hobuf
  refine ⟨v', ?_, hu.trans ⟨hbuffered, hseat, hhistory, hescape, ?_⟩⟩
  · rw [Vty.historyPrint]
    exact (bind_ok hkill).trans ((bind_ok hstore).trans hresult)
  · rw [hobuf]
    exact echoes_write u fun base row hrow => hrow.ofText hprintable

theorem insertWordOverwrite (h : Buffered v z) {str : List UInt8}
    (hprintable : ∀ c ∈ str, Printable c) (hle : z.right.length ≤ str.length)
    (hfits : z.left.length + str.length < vtyBufsiz) :
    ∃ v', v.insertWordOverwrite str = .ok v' ∧ Becomes v v' z ⟨str.reverse ++ z.left, []⟩ := by
  rcases z with ⟨l, r⟩
  dsimp only at hle hfits
  have hcp : v.cp = l.length := h.cp
  let u : Vty H := v.write str
  let w : Vty H := { u with buf := u.buf.store u.cp (str ++ [0]) }
  have hstore : u.store u.cp (str ++ [0]) = .ok w :=
    store_eq u h.max (by rw [List.length_append, List.length_singleton, show u.cp = l.length from hcp]; omega)
  refine ⟨{ w with cp := w.cp + str.length, length := w.cp + str.length }, bind_ok hstore, ?_⟩
  refine ⟨⟨?_, ?_, h.max, ?_, ?_, ?_⟩, rfl, rfl, rfl, echoes_write v fun base row hrow => hrow.overwriteWord hprintable hle⟩
  · simp [w, u, hcp, Vty.write, Nat.add_comm]
  · simp [w, u, hcp, Vty.write, Nat.add_comm]
  · simpa [Nat.add_comm] using hfits
  · intro d hd
    simp only [Zipper.text, List.reverse_append, List.reverse_reverse, List.append_nil,
      List.mem_append, List.mem_reverse] at hd
    exact hd.elim (h.printable_left d) (hprintable d)
  · have hagree := store_agree h.buf (str ++ [0]) (o := v.cp)
      (by rw [Zipper.length_text, hcp]; exact Nat.le_add_right _ _)
    have hdrop : (Zipper.mk l r).text.drop (v.cp + (str ++ [0]).length) = [] :=
      List.drop_eq_nil_of_le (by
        rw [Zipper.length_text, hcp, List.length_append, List.length_singleton]
        dsimp only
        omega)
    rw [h.take_cp, hdrop, List.append_nil, ← List.append_assoc] at hagree
    have hpad := Mem.pad_append_zeros (l.reverse ++ str) 1
    rw [Zipper.text, List.reverse_append, List.reverse_reverse, List.append_nil, ← hpad]
    exact hagree

end Buffered

end SoftBts
