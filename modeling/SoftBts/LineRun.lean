import SoftBts.LineEditor
import SoftBts.Lib.Machine

/-! Runs of keys of a session: what the buffer holds, which line is executed and what the terminal
shows after any run, and the key that a password prompt does not come back from. -/

namespace SoftBts

open Octets Loop Terminal Reactive

variable {H : Type}

/-! ### What a session relies on -/

/-- A completion goes on from the last word of the line. -/
structure Commands.Completes (c : Commands H) : Prop where
  printable : ∀ words s matched, c.complete words s = .completeFullMatch matched ∨
    c.complete words s = .completeMatch matched → ∀ o ∈ matched, Printable o
  goesOn : ∀ words s matched, c.complete words s = .completeFullMatch matched ∨
    c.complete words s = .completeMatch matched → ∀ w, words.getLast? = some (some w) → w <+: matched

/-- What commands print is text with whole line ends, and the prompt is on one line. -/
structure Commands.Prints (c : Commands H) : Prop where
  prompt : ∀ s, ∀ o ∈ c.prompt s, Printable o
  execute : ∀ vline history s, Plain (c.execute vline history s).2.2
  describe : ∀ words s text, c.describe words s = .shown text → Plain text
  list : ∀ words s matched, c.complete words s = .completeListMatch matched →
    ∀ w ∈ matched, ∀ o ∈ w, Printable o

/-- The line of the session on the terminal; there is none at a password prompt. -/
def Desk.visible (d : Desk H) : Zipper UInt8 := if d.seat.isAuth then .empty else d.line

/-- The session is what its user sees. -/
structure Follows (v : Vty H) (d : Desk H) : Prop where
  buffered : Buffered v d.line
  seat : v.seat = d.seat
  history : v.history = d.history
  escape : v.escape = d.escape
  entries : ∀ i entry, d.history.hist i = some entry →
    entry.length < vtyBufsiz ∧ ∀ o ∈ entry, Printable o

/-- The terminal shows the prompt and the line, with nothing but blanks behind it, as long as the session
is not to be closed. -/
def Shown (c : Commands H) (v : Vty H) (d : Desk H) : Prop :=
  d.seat.status = .normal →
    ∃ base, Shows ((c.prompt d.seat).reverse ++ base) d.visible (emit .empty v.obuf)

/-- A session and what its user sees go on together; where the step is a clean one the terminal does
too. -/
structure Together (c : Commands H) (clean : Prop) (v v' : Vty H) (d d' : Desk H) : Prop where
  follows : Follows v' d'
  shown : clean → Shown c v d → Shown c v' d'

theorem Together.refl {c : Commands H} {clean : Prop} {v : Vty H} {d : Desk H} (h : Follows v d) :
    Together c clean v v d d :=
  ⟨h, fun _ hshown => hshown⟩

theorem Together.trans {c : Commands H} {clean : Prop} {v v' v'' : Vty H} {d d' d'' : Desk H}
    (h : Together c clean v v' d d') (h' : Together c clean v' v'' d' d'') :
    Together c clean v v'' d d'' :=
  ⟨h'.follows, fun hclean hshown => h'.shown hclean (h.shown hclean hshown)⟩

theorem Together.mono {c : Commands H} {clean clean' : Prop} {v v' : Vty H} {d d' : Desk H}
    (h : Together c clean v v' d d') (hclean : clean' → clean) : Together c clean' v v' d d' :=
  ⟨h.follows, fun hc => h.shown (hclean hc)⟩

namespace Follows

variable {e : Setting H} {v v' : Vty H} {d : Desk H}

theorem isAuth_eq (h : Follows v d) : v.seat.isAuth = d.seat.isAuth := by rw [h.seat]

/-- A key that changes the line and nothing else. -/
theorem edit (h : Follows v d) {z : Zipper UInt8} (hb : Becomes v v' d.line z) (clean : Prop) :
    Together e.toCommands clean v v' d { d with line := z } where
  follows :=
    { buffered := hb.buffered
      seat := hb.seat.trans h.seat
      history := hb.history.trans h.history
      escape := hb.escape.trans h.escape
      entries := h.entries }
  shown _ hshown hstatus := by
    obtain ⟨base, hbase⟩ := hshown hstatus
    obtain ⟨bs, hobuf, hquiet, hechoes⟩ := hb.echoes
    rw [h.isAuth_eq] at hquiet hechoes
    refine ⟨base, ?_⟩
    rw [hobuf, emit_append]
    simp only [Desk.visible] at hbase ⊢
    cases hauth : d.seat.isAuth with
    | true =>
        rw [hquiet hauth, emit_nil]
        simpa [hauth] using hbase
    | false =>
        simp only [hauth, Bool.false_eq_true, if_false] at hbase ⊢
        exact hechoes hauth _ _ hbase

/-- A line of the history is shown. -/
theorem lookUp (h : Follows v d) (hturns : vtyBufsiz ≤ e.turns) {found : Option (List UInt8 × History)}
    (hfound : ∀ entry history, found = some (entry, history) →
      history.hist = d.history.hist ∧ ∃ i, d.history.hist i = some entry) (clean : Prop) :
    ∃ v', v.lookUp e found = .ok v' ∧ Together e.toCommands clean v v' d (d.lookUp found) := by
  cases found with
  | none => exact ⟨v, rfl, .refl h⟩
  | some r =>
      obtain ⟨entry, history⟩ := r
      obtain ⟨hhist, i, hentry⟩ := hfound entry history rfl
      obtain ⟨hfits, hprintable⟩ := h.entries i entry hentry
      have hv : Follows { v with history := history } { d with history := history } :=
        { buffered := h.buffered.move rfl h.buffered.cp rfl rfl rfl
          seat := h.seat
          history := rfl
          escape := h.escape
          entries := by
            dsimp only
            rw [hhist]
            exact h.entries }
      obtain ⟨v', hresult, hb⟩ := hv.buffered.historyPrint hturns hfits hprintable
      have htogether := hv.edit (e := e) hb clean
      exact ⟨v', hresult, htogether.follows, fun hc hshown => htogether.shown hc hshown⟩

end Follows

namespace History

/-- What a look-up finds is in the ring, which it does not change. -/
theorem next_found (h : History) {entry : List UInt8} {h' : History}
    (hfound : h.next = some (entry, h')) : h'.hist = h.hist ∧ ∃ i, h.hist i = some entry := by
  rw [next] at hfound
  split at hfound
  · cases hfound
  · obtain ⟨line, hline, heq⟩ := Option.map_eq_some_iff.mp hfound
    cases heq
    exact ⟨rfl, _, hline⟩

theorem previous_found (h : History) {entry : List UInt8} {h' : History}
    (hfound : h.previous = some (entry, h')) : h'.hist = h.hist ∧ ∃ i, h.hist i = some entry := by
  obtain ⟨line, hline, heq⟩ := Option.map_eq_some_iff.mp hfound
  cases heq
  exact ⟨rfl, _, hline⟩

/-- A line of the ring was there before a line was added, or it is that line. -/
theorem add_found (h : History) {line : List UInt8} {i : ℕ} {entry : List UInt8}
    (hfound : (h.add line).hist i = some entry) : h.hist i = some entry ∨ entry = line := by
  rw [add] at hfound
  by_cases hsame : h.hist (if h.hindex = 0 then vtyMaxHist - 1 else h.hindex - 1) = some line
  · rw [if_pos hsame] at hfound
    exact .inl hfound
  · rw [if_neg hsame] at hfound
    dsimp only at hfound
    rw [Function.update_apply] at hfound
    split at hfound
    · exact .inr (Option.some.inj hfound).symm
    · exact .inl hfound

end History

/-! ### Lines that begin anew -/

theorem out_out (v : Vty H) (a b : List UInt8) : (v.out a).out b = v.out (a ++ b) := by
  simp [Vty.out]

theorem plain_newline : Plain vtyNewline := .newline .nil

namespace Follows

variable {e : Setting H} {v v' : Vty H} {d : Desk H}

/-- The prompt stands behind a line end and plain text. -/
theorem prompted (hprints : e.toCommands.Prints) {s : Seat H} {o text : List UInt8}
    (hplain : Plain text) {obuf : List UInt8} (hobuf : obuf = o ++ (vtyNewline ++ text) ++ e.prompt s) :
    ∃ base, Shows ((e.prompt s).reverse ++ base) .empty (emit .empty obuf) := by
  rw [hobuf, List.append_assoc, emit_append]
  exact hplain.shows (hprints.prompt s) _

/-- A line end, plain text, the prompt, and the line as it was. -/
theorem again (h : Follows v d) (hauth : d.seat.isAuth = false) {t : List UInt8}
    (hplain : e.toCommands.Prints → Plain t) :
    ∃ v', ((v.out (vtyNewline ++ t)).prompt e).redrawLine = .ok v' ∧
      Together e.toCommands e.toCommands.Prints v v' d (d.edit .toEnd) := by
  let u : Vty H := (v.out (vtyNewline ++ t)).prompt e
  have hu : Buffered u d.line := h.buffered.move rfl h.buffered.cp rfl rfl rfl
  obtain ⟨v', hresult, hbuffered, hseat, hhistory, hescape, hobuf⟩ := hu.redrawLine
  refine ⟨v', hresult, ⟨hbuffered, hseat.trans h.seat, hhistory.trans h.history,
    hescape.trans h.escape, h.entries⟩, fun hprints _ _ => ?_⟩
  have hprompt : u.obuf = v.obuf ++ (vtyNewline ++ t) ++ e.prompt d.seat := by
    rw [← h.seat]
    rfl
  obtain ⟨base, hbase⟩ := prompted hprints (hplain hprints) hprompt
  refine ⟨base, ?_⟩
  have hwrite : (u.write d.line.text).obuf = u.obuf ++ d.line.text :=
    if_neg (by rw [show u.seat = v.seat from rfl, h.isAuth_eq, hauth]; decide)
  rw [hobuf, hwrite, emit_append, Desk.visible, Desk.edit]
  dsimp only
  rw [hauth]
  exact hbase.ofText h.buffered.printable

end Follows

/-! ### The line that is read -/

theorem ne_zero_of_printable {o : UInt8} (h : Printable o) : o ≠ 0 := by
  rintro rfl
  exact absurd h (by decide)

theorem wordChar_eq {o : UInt8} (h : Printable o) : wordChar o = Vty.nonblank o := by
  have hle : ¬ o ≤ 13 := fun hle => absurd (UInt8.le_trans h.1 hle) (by decide)
  by_cases hspace : o = 0x20 <;>
    simp [wordChar, isspace, Vty.nonblank, Vty.telnetSpaceChar, hle, hspace]

theorem takeWhile_congr {α : Type} {p q : α → Bool} {l : List α} (h : ∀ a ∈ l, p a = q a) :
    l.takeWhile p = l.takeWhile q := by
  induction l with
  | nil => rfl
  | cons a l ih =>
      rw [List.takeWhile_cons, List.takeWhile_cons, h a List.mem_cons_self,
        ih fun b hb => h b (List.mem_cons_of_mem a hb)]

namespace Buffered

variable {v : Vty H} {z : Zipper UInt8}

/-- The string at the beginning of the buffer is the text. -/
theorem line (h : Buffered v z) : v.line = .ok z.text := by
  have hlt := h.length_lt
  have hmax := h.max
  obtain ⟨k, hk⟩ := Nat.exists_eq_add_of_lt (Nat.lt_of_lt_of_le hlt hmax)
  have htext : v.buf.load 0 z.text.length = z.text := by
    rw [h.buf.load (by omega), Mem.load_pad (by omega), List.drop_zero, List.take_length]
  have hend : v.buf z.text.length = 0 := by
    rw [h.buf _ hlt, Mem.pad_apply, List.getElem?_eq_none (Nat.le_refl _)]
    rfl
  obtain ⟨rest, hrest⟩ : ∃ rest, v.buf.load z.text.length (k + 1) = 0 :: rest := by
    refine ⟨v.buf.load (z.text.length + 1) k, ?_⟩
    rw [Nat.add_comm k 1, Mem.load_add]
    simp [Mem.load, hend]
  have hload : v.buf.load 0 v.max = z.text ++ 0 :: rest := by
    rw [hk, Nat.add_assoc, Mem.load_add, Nat.zero_add, htext, hrest]
  have hall : z.text.takeWhile (· ≠ 0) = z.text :=
    List.takeWhile_eq_self_iff.mpr fun o ho => by simpa using ne_zero_of_printable (h.printable o ho)
  rw [Vty.line, hload, if_pos (List.mem_append_right _ List.mem_cons_self),
    takeWhile_append_stop _ _ _ (by rfl), hall]

theorem words (h : Buffered v z) (hne : z.text ≠ []) (vline : List (List UInt8)) :
    v.words vline = .ok (Desk.words z.text vline) := by
  have hlength := h.length_eq
  have hpos := List.length_pos_of_ne_nil hne
  have hget := h.get (i := z.text.length - 1) (by omega)
  rw [Vty.words, if_neg (by omega), hlength]
  refine (bind_ok hget).trans ?_
  rw [Desk.words, List.getLast?_eq_getElem?, List.getElem?_eq_getElem (by omega)]
  rfl

/-- A completion covers what the line has of its last word. -/
theorem lastWord_le (h : Buffered v z) {c : Commands H} (hc : c.Completes) {s : Seat H}
    {vline : List (List UInt8)} (hvline : makeStrvec z.text = some vline) {matched : List UInt8}
    (hmatched : c.complete (Desk.words z.text vline) s = .completeFullMatch matched ∨
      c.complete (Desk.words z.text vline) s = .completeMatch matched) :
    (z.text.reverse.takeWhile Vty.nonblank).length ≤ matched.length := by
  have hwords : z.text.reverse.takeWhile Vty.nonblank = z.text.reverse.takeWhile wordChar :=
    takeWhile_congr fun o ho => (wordChar_eq (h.printable o (List.mem_reverse.mp ho))).symm
  rw [hwords]
  cases hlast : z.text.getLast?.any isspace with
  | true =>
      have hstop : z.text.reverse.head?.any wordChar = false := by
        rw [List.head?_reverse]
        cases hget : z.text.getLast? with
        | none => rfl
        | some o =>
            rw [hget] at hlast
            simp only [Option.any_some] at hlast ⊢
            rw [wordChar, hlast]
            rfl
      have hnil := takeWhile_append_stop wordChar [] z.text.reverse hstop
      rw [List.nil_append] at hnil
      rw [hnil]
      exact Nat.zero_le _
  | false =>
      have hend : (Desk.words z.text vline).getLast? = some (some (lastWord z.text)) := by
        rw [Desk.words, hlast, if_neg (by decide), List.append_nil, List.getLast?_map,
          makeStrvec_last hvline hlast]
        rfl
      have hle := (hc.goesOn _ _ _ hmatched _ hend).length_le
      rwa [lastWord, List.length_reverse] at hle

theorem words_ne_nil {text : List UInt8} {vline : List (List UInt8)}
    (hvline : makeStrvec text = some vline) : text ≠ [] := by
  rintro rfl
  cases hvline

/-- What follows the reading of the line, where it has words. -/
theorem read_words (h : Buffered v z) {vline : List (List UInt8)}
    (hvline : makeStrvec z.text = some vline) (otherwise : Vty H) {v' : Vty H}
    {f : List (Option (List UInt8)) → Except Fault (Vty H)} (hf : f (Desk.words z.text vline) = .ok v') :
    (do
      match makeStrvec (← v.line) with
      | none => return otherwise
      | some vline =>
          let vline ← v.words vline
          f vline) = .ok v' := by
  refine (bind_ok h.line).trans ?_
  rw [hvline]
  exact (bind_ok (h.words (words_ne_nil hvline) vline)).trans hf

/-- The same where a line without words is read as one that has not begun. -/
theorem read_words_help (h : Buffered v z) :
    ∃ vline, ∀ {v' : Vty H} {f : List (Option (List UInt8)) → Except Fault (Vty H)},
      f vline = .ok v' →
      (do
        let vline ← match makeStrvec (← v.line) with
          | none => pure [none]
          | some vline => v.words vline
        f vline) = .ok v' := by
  cases hvline : makeStrvec z.text with
  | none =>
      refine ⟨[none], fun hf => (bind_ok h.line).trans ?_⟩
      rw [hvline]
      exact hf
  | some vline =>
      refine ⟨Desk.words z.text vline, fun hf => (bind_ok h.line).trans ?_⟩
      rw [hvline]
      exact (bind_ok (h.words (words_ne_nil hvline) vline)).trans hf

end Buffered

/-! ### The keys that begin a line anew -/

namespace Follows

variable {e : Setting H} {v : Vty H} {d : Desk H}

/-- What `vty_clear_buf` leaves is an empty line. -/
theorem buffered_clear (h : Follows v d) :
    Buffered (Vty.clearBuf { v with cp := 0, length := 0 }) .empty := by
  refine ⟨rfl, rfl, h.buffered.max, by decide, (fun o ho => by cases ho), fun i hi => ?_⟩
  exact if_pos (Nat.lt_of_lt_of_le hi h.buffered.max)

theorem message_plain {s : String} (h : ∀ o ∈ ascii s, Printable o) :
    Plain (ascii s ++ vtyNewline) :=
  (Plain.of_printable h).append plain_newline

/-- A line end, a message with its line end, and the line as it was. -/
theorem again_message (h : Follows v d) (hauth : d.seat.isAuth = false) {t : List UInt8}
    (hplain : e.toCommands.Prints → Plain (t ++ vtyNewline)) :
    ∃ v', (((v.newline.out t).newline).prompt e).redrawLine = .ok v' ∧
      Together e.toCommands e.toCommands.Prints v v' d (d.edit .toEnd) := by
  have hout : (v.newline.out t).newline = v.out (vtyNewline ++ (t ++ vtyNewline)) := by
    rw [Vty.newline, Vty.newline, out_out, out_out]
  rw [hout]
  exact h.again hauth hplain

/-- Only a line end, and the line as it was. -/
theorem again_nothing (h : Follows v d) (hauth : d.seat.isAuth = false) :
    ∃ v', ((v.newline).prompt e).redrawLine = .ok v' ∧
      Together e.toCommands e.toCommands.Prints v v' d (d.edit .toEnd) := by
  have hout : v.newline = v.out (vtyNewline ++ []) := by
    rw [List.append_nil]
    rfl
  rw [hout]
  exact h.again hauth fun _ => .nil

theorem columns_plain {matched : List (List UInt8)} (h : ∀ w ∈ matched, ∀ o ∈ w, Printable o) :
    Plain (Vty.columns matched ++ vtyNewline) := by
  refine (Plain.flatMap ?_).append plain_newline
  rintro ⟨word, i⟩ hmem
  have hword := h word (List.fst_mem_of_mem_zipIdx hmem)
  refine (((?_ : Plain _).append (.of_printable hword)).append (.of_printable ?_)).append
    (.of_printable (by decide))
  · split
    · exact plain_newline
    · exact .nil
  · intro o ho
    rw [List.eq_of_mem_replicate ho]
    decide

/-- The word takes the place of the last word of the line. -/
theorem completeWord (h : Follows v d) (hturns : vtyBufsiz ≤ e.turns) {text matched : List UInt8}
    (hline : d.line = .ofText text) (hprintable : ∀ o ∈ matched, Printable o)
    (hle : (text.reverse.takeWhile Vty.nonblank).length ≤ matched.length)
    (hfits : (Desk.completed text matched).text.length < vtyBufsiz) (clean : Prop) :
    ∃ v' v'', v.backwardPureWord e = .ok v' ∧ v'.insertWordOverwrite matched = .ok v'' ∧
      Together e.toCommands clean v v'' d { d with line := Desk.completed text matched } := by
  obtain ⟨v', hback, hb'⟩ := h.buffered.backwardLoop hturns Vty.nonblank
  rw [hline] at hb'
  rw [Zipper.length_text, Desk.completed, List.length_append, List.length_reverse] at hfits
  obtain ⟨v'', hinsert, hb''⟩ := hb'.buffered.insertWordOverwrite hprintable
    (by simpa [Zipper.backwardWhile, Zipper.ofText] using hle)
    (by simpa [Zipper.backwardWhile, Zipper.ofText, Nat.add_comm] using hfits)
  exact ⟨v', v'', hback, hinsert, h.edit (hline ▸ hb'.trans hb'') clean⟩

theorem completeCommand (h : Follows v d) (hc : e.toCommands.Completes)
    (hturns : vtyBufsiz ≤ e.turns) (hauth : d.seat.isAuth = false)
    (hfits : (d.complete e.toCommands).text.length < vtyBufsiz) :
    ∃ v', v.completeCommand e = .ok v' ∧
      Together e.toCommands e.toCommands.Prints v v' d
        { d with line := d.complete e.toCommands } := by
  have hauth' : ¬ v.seat.isAuth = true := by
    rw [h.isAuth_eq, hauth]
    decide
  rw [Vty.completeCommand, if_neg hauth']
  cases hvline : makeStrvec d.line.text with
  | none =>
      have hsame : d.complete e.toCommands = d.line := by rw [Desk.complete, hvline]
      refine ⟨v, ?_, ?_⟩
      · refine (bind_ok h.buffered.line).trans ?_
        rw [hvline]
        rfl
      · rw [hsame]
        exact .refl h
  | some vline =>
      rw [Desk.complete, hvline] at hfits ⊢
      dsimp only at hfits ⊢
      cases hcomplete : e.complete (Desk.words d.line.text vline) d.seat with
      | errAmbiguous =>
          obtain ⟨v', hresult, htogether⟩ := h.again_message (e := e) hauth
            (t := ascii "% Ambiguous command.") fun _ => message_plain (by decide)
          refine ⟨v', h.buffered.read_words hvline v ?_, htogether⟩
          rw [h.seat, hcomplete]
          exact hresult
      | errNoMatch =>
          obtain ⟨v', hresult, htogether⟩ := h.again_nothing (e := e) hauth
          refine ⟨v', h.buffered.read_words hvline v ?_, htogether⟩
          rw [h.seat, hcomplete]
          exact hresult
      | errNothingTodo =>
          obtain ⟨v', hresult, htogether⟩ := h.again_nothing (e := e) hauth
          refine ⟨v', h.buffered.read_words hvline v ?_, htogether⟩
          rw [h.seat, hcomplete]
          exact hresult
      | completeListMatch matched =>
          obtain ⟨v', hresult, htogether⟩ := h.again_message (e := e) hauth
            (t := Vty.columns matched) fun hprints => columns_plain (hprints.list _ _ _ hcomplete)
          refine ⟨v', h.buffered.read_words hvline v ?_, htogether⟩
          rw [h.seat, hcomplete]
          exact hresult
      | completeMatch matched =>
          rw [hcomplete] at hfits
          obtain ⟨v1, hagain, h1⟩ := h.again_nothing (e := e) hauth
          obtain ⟨v2, v3, hback, hinsert, h3⟩ := h1.follows.completeWord hturns rfl
            (hc.printable _ _ _ (.inr hcomplete)) (h.buffered.lastWord_le hc hvline (.inr hcomplete))
            hfits e.toCommands.Prints
          refine ⟨v3, h.buffered.read_words hvline v ?_, h1.trans h3⟩
          rw [h.seat, hcomplete]
          exact (bind_ok hagain).trans ((bind_ok hback).trans hinsert)
      | completeFullMatch matched =>
          rw [hcomplete] at hfits
          have hspace : ((Desk.completed d.line.text matched).insert Vty.telnetSpaceChar).text.length =
              (Desk.completed d.line.text matched).text.length + 1 := by
            rw [Zipper.length_text, Zipper.length_text]
            dsimp only [Zipper.insert, List.length_cons]
            omega
          rw [hspace] at hfits
          obtain ⟨v1, hagain, h1⟩ := h.again_nothing (e := e) hauth
          obtain ⟨v2, v3, hback, hinsert, h3⟩ := h1.follows.completeWord hturns rfl
            (hc.printable _ _ _ (.inl hcomplete)) (h.buffered.lastWord_le hc hvline (.inl hcomplete))
            (Nat.lt_of_succ_lt hfits) e.toCommands.Prints
          obtain ⟨v4, hself, h4⟩ := h3.follows.buffered.selfInsert (e := e) printable_space
            (by rwa [Zipper.length_text] at hfits)
          refine ⟨v4, h.buffered.read_words hvline v ?_, (h1.trans h3).trans (h3.follows.edit h4 _)⟩
          rw [h.seat, hcomplete]
          exact (bind_ok hagain).trans ((bind_ok hback).trans ((bind_ok hinsert).trans hself))

theorem describeCommand (h : Follows v d) (hauth : d.seat.isAuth = false) :
    ∃ v', v.describeCommand e = .ok v' ∧
      Together e.toCommands e.toCommands.Prints v v' d (d.edit .toEnd) := by
  obtain ⟨vline, hread⟩ := h.buffered.read_words_help
  rw [Vty.describeCommand]
  cases hdescribe : e.describe vline d.seat with
  | errAmbiguous =>
      obtain ⟨v', hresult, htogether⟩ := h.again_message (e := e) hauth
        (t := ascii "% Ambiguous command.") fun _ => message_plain (by decide)
      refine ⟨v', hread ?_, htogether⟩
      rw [h.seat, hdescribe]
      exact hresult
  | errNoMatch =>
      obtain ⟨v', hresult, htogether⟩ := h.again_message (e := e) hauth
        (t := ascii "% There is no matched command.") fun _ => message_plain (by decide)
      refine ⟨v', hread ?_, htogether⟩
      rw [h.seat, hdescribe]
      exact hresult
  | shown text =>
      obtain ⟨v', hresult, htogether⟩ := h.again (e := e) hauth (t := text)
        fun hprints => hprints.describe _ _ _ hdescribe
      refine ⟨v', hread ?_, htogether⟩
      rw [h.seat, hdescribe]
      change ((v.newline.out text).prompt e).redrawLine = .ok v'
      rwa [Vty.newline, out_out]

theorem auth_plain (s : Seat H) (buf : List UInt8) : Plain (s.auth buf).2 := by
  have hite : ∀ {p : Prop} [Decidable p] {a b : Seat H × List UInt8}, Plain a.2 → Plain b.2 →
      Plain (if p then a else b).2 := by
    intro p _ a b ha hb
    split
    · exact ha
    · exact hb
  exact hite .nil (hite .nil (hite (message_plain (by decide)) (message_plain (by decide))))

theorem command_plain {c : Commands H} (hprints : c.Prints) (buf : List UInt8) (history : History)
    (s : Seat H) : Plain (c.command buf history s).2 := by
  rw [Commands.command]
  split
  · exact .nil
  · refine (hprints.execute _ _ _).append ?_
    split
    · exact message_plain (by decide)
    · exact message_plain (by decide)
    · exact message_plain (by decide)
    · exact .nil

theorem execute (h : Follows v d) :
    ∃ v', v.newline.execute e = .ok v' ∧
      Together e.toCommands e.toCommands.Prints v v' d (d.execute e.toCommands) := by
  let r := if d.seat.isAuth then d.seat.auth d.line.text
    else e.command d.line.text d.history d.seat
  let history := if v.seat.isAuth then v.history else v.newline.histAdd d.line.text
  let u : Vty H := Vty.clearBuf
    { v.newline.out r.2 with seat := r.1, history := history, cp := 0, length := 0 }
  have hline : v.newline.line = .ok d.line.text := h.buffered.line
  have hempty : v.length = 0 ↔ d.line.text = [] := by
    rw [h.buffered.length_eq]
    exact List.length_eq_zero_iff
  have hhistory : history = (d.execute e.toCommands).history := by
    simp only [history, Desk.execute, Vty.histAdd, h.isAuth_eq, Vty.newline, Vty.out, hempty, h.history]
    cases d.seat.isAuth <;> simp
  have hentries : ∀ i entry, (d.execute e.toCommands).history.hist i = some entry →
      entry.length < vtyBufsiz ∧ ∀ o ∈ entry, Printable o := by
    intro i entry hentry
    simp only [Desk.execute] at hentry
    split at hentry
    · exact h.entries i entry hentry
    · rcases History.add_found _ hentry with hold | rfl
      · exact h.entries i entry hold
      · exact ⟨h.buffered.length_lt, h.buffered.printable⟩
  have hu : Follows u (d.execute e.toCommands) :=
    { buffered := h.buffered_clear.move rfl rfl rfl rfl rfl
      seat := rfl
      history := hhistory
      escape := h.escape
      entries := hentries }
  have hresult : v.newline.execute e = .ok (if u.seat.status = .close then u else u.prompt e) := by
    rw [Vty.execute]
    refine (bind_ok hline).trans ?_
    have hseat : v.newline.seat = d.seat := h.seat
    have hhist : v.newline.history = d.history := h.history
    simp only [hseat, hhist, u, r, history, h.seat, h.history]
    rfl
  refine ⟨_, hresult, ?_, fun hprints _ hstatus => ?_⟩
  · split
    · exact hu
    · exact ⟨hu.buffered.move rfl hu.buffered.cp rfl rfl rfl, hu.seat, hu.history, hu.escape, hu.entries⟩
  · have hopen : ¬ u.seat.status = .close := by
      rw [hu.seat, hstatus]
      decide
    rw [if_neg hopen]
    have hplain : Plain r.2 := by
      simp only [r]
      split
      · exact auth_plain _ _
      · exact command_plain hprints _ _ _
    have hvisible : (d.execute e.toCommands).visible = .empty := by
      rw [Desk.visible]
      split <;> rfl
    rw [hvisible]
    exact prompted hprints (o := v.obuf) hplain (List.append_assoc _ _ _ ▸ rfl)

theorem stopInput (h : Follows v d) (c : Commands H) :
    Together e.toCommands e.toCommands.Prints v (v.stopInput e) d (d.act c .stopInput) where
  follows :=
    { buffered := h.buffered_clear.move rfl rfl rfl rfl rfl
      seat := congrArg Seat.leaveConfig h.seat
      history := congrArg History.latest h.history
      escape := h.escape
      entries := h.entries }
  shown hprints _ _ := by
    have hvisible : (d.act c .stopInput).visible = .empty := by
      rw [Desk.visible]
      split <;> rfl
    rw [hvisible]
    refine prompted hprints (o := v.obuf) (s := d.seat.leaveConfig) .nil ?_
    rw [← h.seat]
    rfl

theorem endConfig (h : Follows v d) (c : Commands H) :
    Together e.toCommands (e.toCommands.Prints ∧ d.visible.text = []) v (v.endConfig e) d
      (d.act c .endConfig) where
  follows :=
    { buffered := h.buffered.move (Zipper.text_home _) rfl rfl rfl rfl
      seat := congrArg Seat.leaveConfig h.seat
      history := h.history
      escape := h.escape
      entries := h.entries }
  shown hclean _ _ := by
    have hvisible : (d.act c .endConfig).visible = .empty := by
      have hsame : d.seat.isAuth = true → d.seat.leaveConfig.isAuth = true := by
        intro hauth
        rw [Seat.leaveConfig]
        split
        · rename_i hnode
          rw [Seat.isAuth, hnode] at hauth
          cases hauth
        · rename_i hnode
          rw [Seat.isAuth, hnode] at hauth
          cases hauth
        · exact hauth
      have htext := hclean.2
      rw [Desk.visible] at htext ⊢
      split
      · rfl
      · rename_i hauth
        rw [if_neg fun h => hauth (hsame h)] at htext
        change Zipper.home d.line = .empty
        rw [Zipper.home, htext]
        rfl
    rw [hvisible]
    refine prompted hclean.1 (o := v.obuf) (s := d.seat.leaveConfig) .nil ?_
    rw [← h.seat]
    rfl

theorem deleteChar (h : Follows v d) :
    ∃ v', v.deleteChar e = .ok v' ∧
      Together e.toCommands e.toCommands.Prints v v' d (d.act e.toCommands .deleteChar) := by
  rw [Desk.act]
  cases hauth : d.seat.isAuth with
  | true =>
      refine ⟨v, ?_, .refl h⟩
      rw [Vty.deleteChar, if_pos (h.isAuth_eq.trans hauth)]
      rfl
  | false =>
      have hauth' : v.seat.isAuth = false := h.isAuth_eq.trans hauth
      rw [if_neg (by decide)]
      by_cases htext : d.line.text = []
      · rw [if_pos htext]
        have hlength : v.length = 0 := by rw [h.buffered.length_eq, htext]; rfl
        have hright : d.line.left = [] ∧ d.line.right = [] := by
          simpa [Zipper.text] using htext
        have hempty : d.line = .empty := Zipper.ext hright.1 hright.2
        refine ⟨v.downLevel e, ?_, ⟨?_, congrArg Seat.configExit h.seat, h.history, h.escape,
          h.entries⟩, fun hprints _ _ => ?_⟩
        · rw [Vty.deleteChar, if_neg (by rw [hauth']; decide), if_pos hlength]
          rfl
        · refine h.buffered.move rfl ?_ rfl rfl rfl
          rw [hright.1]
          rfl
        · have hvisible : Desk.visible { d with seat := d.seat.configExit } = .empty := by
            rw [Desk.visible]
            split
            · rfl
            · exact hempty
          rw [hvisible]
          refine prompted hprints (o := v.obuf) (s := d.seat.configExit) .nil ?_
          rw [← h.seat]
          rfl
      · rw [if_neg htext]
        obtain ⟨v', hresult, hb⟩ := h.buffered.deleteChar (e := e) hauth' htext
        exact ⟨v', hresult, h.edit hb _⟩

end Follows

/-! ### One key -/

/-- The keys that octets stand for put printable characters into the line. -/
def Key.Typed (k : Key) : Prop := ∀ o, k = .insert o → Printable o

theorem normalMap_typed (o : UInt8) : (normalMap o).Typed := by
  intro o' h
  have hsame : ∀ {p : Prop} [Decidable p] {k k' : Key}, (if p then k else k') = .insert o' →
      k ≠ .insert o' → k' = .insert o' := by
    intro p _ k k' hif hk
    split at hif
    · exact absurd hif hk
    · exact hif
  rw [normalMap] at h
  iterate 17 replace h := hsame h (by rintro ⟨⟩)
  split at h
  · rename_i hrange
    cases h
    exact ⟨UInt8.le_iff_toNat_le.mpr (UInt8.lt_iff_toNat_lt.mp hrange.1), hrange.2⟩
  · cases h

theorem keymap_typed (esc : Escape) (o : UInt8) : (keymap esc o).1.Typed := by
  have hite : ∀ {p : Prop} [Decidable p] {k k' : Key}, k.Typed → k'.Typed →
      (if p then k else k').Typed := by
    intro p _ k k' hk hk'
    split
    · exact hk
    · exact hk'
  have hkey : ∀ {k : Key}, (∀ o', k ≠ .insert o') → k.Typed := fun hk o' h => absurd h (hk o')
  cases esc with
  | normal =>
      rw [keymap]
      split
      · exact hkey (by rintro _ ⟨⟩)
      · exact normalMap_typed o
  | preEscape =>
      rw [keymap]
      split
      · exact hkey (by rintro _ ⟨⟩)
      · refine hite ?_ (hite ?_ (hite ?_ (hite ?_ ?_))) <;> exact hkey (by rintro _ ⟨⟩)
  | escape =>
      refine hite ?_ (hite ?_ (hite ?_ (hite ?_ ?_))) <;> exact hkey (by rintro _ ⟨⟩)

/-- The key that kills the word behind the cursor comes back, unless there is a character under the
cursor of a password prompt. -/
def Desk.Returns (d : Desk H) (k : Key) : Prop :=
  k = .forwardKillWord → d.seat.isAuth = true → d.line.right = []

instance (d : Desk H) (k : Key) : Decidable (d.Returns k) :=
  inferInstanceAs (Decidable (_ → _ → _))

/-- The key to end the configuration is not used on a line that is shown. -/
def Desk.Clean (d : Desk H) (k : Key) : Prop := k = .endConfig → d.visible.text = []

instance (d : Desk H) (k : Key) : Decidable (d.Clean k) := inferInstanceAs (Decidable (_ → _))

namespace Follows

variable {e : Setting H} {v : Vty H} {d : Desk H}

/-- A function that makes of the line what the key does to it. -/
theorem edits (h : Follows v d) {f : Zipper UInt8 → Zipper UInt8} {x : Except Fault (Vty H)}
    (hx : ∃ v', x = .ok v' ∧ Becomes v v' d.line (f d.line)) (clean : Prop) :
    ∃ v', x = .ok v' ∧ Together e.toCommands clean v v' d (d.edit f) := by
  obtain ⟨v', hresult, hb⟩ := hx
  exact ⟨v', hresult, h.edit hb clean⟩

theorem inserts (h : Follows v d) {o : UInt8} (ho : Printable o)
    (hfits : (d.edit (.insert o)).line.text.length < vtyBufsiz) (clean : Prop) :
    ∃ v', v.selfInsert e o = .ok v' ∧ Together e.toCommands clean v v' d (d.edit (.insert o)) := by
  rw [Desk.edit, Zipper.length_text] at hfits
  refine h.edits (h.buffered.selfInsert ho ?_) clean
  dsimp only [Zipper.insert, List.length_cons] at hfits
  omega

theorem rubsOut (h : Follows v d) (clean : Prop) :
    ∃ v', v.deleteBackwardChar e = .ok v' ∧
      Together e.toCommands clean v v' d (d.act e.toCommands .deleteBackwardChar) := by
  cases hauth : d.seat.isAuth with
  | true =>
      have hact : d.act e.toCommands .deleteBackwardChar = d.edit .backward := by
        rw [Desk.act, Desk.rubOut, hauth]
        rfl
      rw [hact]
      exact h.edits (h.buffered.deleteBackwardChar_auth (h.isAuth_eq.trans hauth)) clean
  | false =>
      have hact : d.act e.toCommands .deleteBackwardChar = d.edit .deleteBackward := by
        rw [Desk.act, Desk.rubOut, hauth]
        rfl
      rw [hact]
      exact h.edits (h.buffered.deleteBackwardChar (h.isAuth_eq.trans hauth)) clean

theorem completes (h : Follows v d) (hc : e.toCommands.Completes) (hturns : vtyBufsiz ≤ e.turns)
    (hfits : (d.act e.toCommands .completeCommand).line.text.length < vtyBufsiz) :
    ∃ v', v.completeCommand e = .ok v' ∧
      Together e.toCommands e.toCommands.Prints v v' d (d.act e.toCommands .completeCommand) := by
  cases hauth : d.seat.isAuth with
  | true =>
      refine ⟨v, ?_, ?_⟩
      · rw [Vty.completeCommand, if_pos (h.isAuth_eq.trans hauth)]
        rfl
      · rw [Desk.act, hauth]
        exact .refl h
  | false =>
      have hact : d.act e.toCommands .completeCommand =
          { d with line := d.complete e.toCommands } := by
        rw [Desk.act, hauth]
        rfl
      rw [hact] at hfits ⊢
      exact h.completeCommand hc hturns hauth hfits

/-- At a password prompt the question mark is a character. -/
theorem describes (h : Follows v d)
    (hfits : (d.act e.toCommands .describeCommand).line.text.length < vtyBufsiz) :
    ∃ v', v.act e .describeCommand = .ok v' ∧
      Together e.toCommands e.toCommands.Prints v v' d (d.act e.toCommands .describeCommand) := by
  cases hauth : d.seat.isAuth with
  | true =>
      have hact : d.act e.toCommands .describeCommand = d.edit (.insert 0x3f) := by
        rw [Desk.act, hauth]
        rfl
      rw [hact] at hfits ⊢
      rw [Vty.act, if_pos (h.isAuth_eq.trans hauth)]
      exact h.inserts (by decide) hfits _
  | false =>
      have hact : d.act e.toCommands .describeCommand = d.edit .toEnd := by
        rw [Desk.act, hauth]
        rfl
      rw [hact, Vty.act, if_neg (by rw [h.isAuth_eq, hauth]; decide)]
      exact h.describeCommand hauth

theorem killsWord (h : Follows v d) (hturns : vtyBufsiz ≤ e.turns)
    (hreturns : d.Returns .forwardKillWord) (clean : Prop) :
    ∃ v', v.forwardKillWord e = .ok v' ∧
      Together e.toCommands clean v v' d (d.act e.toCommands .forwardKillWord) := by
  have hb := h.buffered
  refine h.edits (f := fun z => (z.deleteWhile Vty.blank).deleteWhile Vty.nonblank) ?_ clean
  cases hauth : v.seat.isAuth with
  | false => exact hb.forwardKillWord hturns hauth
  | true =>
      -- there is nothing under the cursor, so neither loop turns
      have hright := hreturns rfl (h.isAuth_eq.symm.trans hauth)
      have hstop : ∀ p, v.atCursor p = .ok false := fun p => by
        rw [hb.atCursor p, Zipper.under, hright]
        rfl
      obtain ⟨n, hn⟩ := Nat.exists_eq_succ_of_ne_zero
        (Nat.ne_of_gt (Nat.lt_of_lt_of_le (by decide) hturns) : e.turns ≠ 0)
      refine ⟨v, ?_, ?_⟩
      · rw [Vty.forwardKillWord, hn]
        exact (bind_ok (loop_stop (hstop _) n)).trans (loop_stop (hstop _) n)
      · have hsame : (d.line.deleteWhile Vty.blank).deleteWhile Vty.nonblank = d.line := by
          ext1
          · rfl
          · simp [Zipper.deleteWhile, hright]
        rw [hsame]
        exact .refl hb

/-- **One key.** The session does what its user sees, and the terminal goes along. -/
theorem act (h : Follows v d) (hc : e.toCommands.Completes) (hturns : vtyBufsiz ≤ e.turns) {k : Key}
    (hk : k.Typed) (hfits : (d.act e.toCommands k).line.text.length < vtyBufsiz)
    (hreturns : d.Returns k) :
    ∃ v', v.act e k = .ok v' ∧
      Together e.toCommands (e.toCommands.Prints ∧ d.Clean k) v v' d (d.act e.toCommands k) := by
  have hb := h.buffered
  have hfirst : ∀ {x : Except Fault (Vty H)} {d' : Desk H},
      (∃ v', x = .ok v' ∧ Together e.toCommands e.toCommands.Prints v v' d d') →
      ∃ v', x = .ok v' ∧
        Together e.toCommands (e.toCommands.Prints ∧ d.Clean k) v v' d d' :=
    fun ⟨v', hresult, htogether⟩ => ⟨v', hresult, htogether.mono And.left⟩
  cases k with
  | beginningOfLine => exact h.edits (hb.beginningOfLine hturns) _
  | backwardChar => exact h.edits hb.backwardChar _
  | stopInput => exact ⟨_, rfl, (h.stopInput _).mono And.left⟩
  | deleteChar => exact hfirst h.deleteChar
  | endOfLine => exact h.edits (hb.endOfLine hturns) _
  | forwardChar => exact h.edits hb.forwardChar _
  | deleteBackwardChar => exact h.rubsOut _
  | killLine => exact h.edits hb.killLine _
  | nextLine =>
      rw [Vty.act, h.history]
      exact h.lookUp hturns (fun _ _ => d.history.next_found) _
  | previousLine =>
      rw [Vty.act, h.history]
      exact h.lookUp hturns (fun _ _ => d.history.previous_found) _
  | transposeChars => exact h.edits hb.transposeChars _
  | killLineFromBeginning =>
      exact h.edits (f := fun _ => .empty) (hb.killLineFromBeginning hturns) _
  | backwardKillWord =>
      have hword := hb.backwardKillWord (e := e) hturns
      rw [h.isAuth_eq] at hword
      exact h.edits (f := fun z => if d.seat.isAuth then _ else _) hword _
  | endConfig => exact ⟨_, rfl, (h.endConfig _).mono fun hclean => ⟨hclean.1, hclean.2 rfl⟩⟩
  | execute => exact hfirst h.execute
  | completeCommand => exact hfirst (h.completes hc hturns hfits)
  | describeCommand => exact hfirst (h.describes hfits)
  | insert o => exact h.inserts (hk o rfl) hfits _
  | backwardWord =>
      exact h.edits (f := fun z => (z.backwardWhile _).backwardWhile _) (hb.backwardWord hturns) _
  | forwardWord =>
      exact h.edits (f := fun z => (z.forwardWhile _).forwardWhile _) (hb.forwardWord hturns) _
  | forwardKillWord => exact h.killsWord hturns hreturns _
  | nothing => exact ⟨v, rfl, .refl h⟩

end Follows

/-! ### Runs -/

/-- The sessions as their users see them, octet by octet, with the lines that are entered. -/
def desk (c : Commands H) : Machine (Desk H) UInt8 (List UInt8) where
  step d o :=
    (d.press c o, if (keymap d.escape o).1 = .execute then [d.line.text] else [])

/-- The octet leaves a line that is shorter than the buffer was made. -/
def Desk.Fits (c : Commands H) (d : Desk H) (o : UInt8) : Prop :=
  (d.press c o).line.text.length < vtyBufsiz

instance (c : Commands H) (d : Desk H) (o : UInt8) : Decidable (d.Fits c o) :=
  inferInstanceAs (Decidable (_ < _))

variable {e : Setting H} {v : Vty H} {d : Desk H}

theorem Follows.press (h : Follows v d) (hc : e.toCommands.Completes) (hturns : vtyBufsiz ≤ e.turns)
    {o : UInt8} (hfits : d.Fits e.toCommands o) (hreturns : d.Returns (keymap d.escape o).1) :
    ∃ v', v.press e o = .ok v' ∧
      Together e.toCommands (e.toCommands.Prints ∧ d.Clean (keymap d.escape o).1) v v' d
        (d.press e.toCommands o) := by
  obtain ⟨v', hresult, htogether⟩ := h.act hc hturns (keymap_typed d.escape o) hfits hreturns
  rw [Vty.press, h.escape]
  refine ⟨_, bind_ok hresult, ?_, htogether.shown⟩
  exact ⟨htogether.follows.buffered.move rfl htogether.follows.buffered.cp rfl rfl rfl,
    htogether.follows.seat, htogether.follows.history, rfl, htogether.follows.entries⟩

/-- Octets one after the other, where the lines fit and the keys come back. -/
theorem Follows.pressAll (h : Follows v d) (hc : e.toCommands.Completes) (hturns : vtyBufsiz ≤ e.turns)
    {os : List UInt8}
    (hmeets : (desk e.toCommands).Meets
      (fun d o => d.Fits e.toCommands o ∧ d.Returns (keymap d.escape o).1) d os) :
    ∃ v', v.pressAll e os = .ok v' ∧
      Together e.toCommands (e.toCommands.Prints ∧
          (desk e.toCommands).Meets (fun d o => d.Clean (keymap d.escape o).1) d os) v v' d
        ((desk e.toCommands).after d os) := by
  induction os generalizing v d with
  | nil => exact ⟨v, rfl, .refl h⟩
  | cons o os ih =>
      obtain ⟨⟨hfits, hreturns⟩, hrest⟩ := hmeets
      obtain ⟨v', hresult, htogether⟩ := h.press hc hturns hfits hreturns
      obtain ⟨v'', hresult', htogether'⟩ := ih htogether.follows hrest
      refine ⟨v'', ?_, (htogether.mono ?_).trans (htogether'.mono ?_)⟩
      · rw [Vty.pressAll, List.foldlM_cons]
        exact (bind_ok hresult).trans hresult'
      · exact fun hclean => ⟨hclean.1, hclean.2.1⟩
      · exact fun hclean => ⟨hclean.1, hclean.2.2⟩

/-- **The line editor.** When a completion goes on from the word that is completed, in every run of
octets behind the options of telnet whose lines are shorter than the buffer, and in which no prompt for
a password is left in the loop, the session does what an editor of text with a cursor does: the commands
get the text that was edited. -/
theorem pressAll_follows (hc : e.toCommands.Completes) (hturns : vtyBufsiz ≤ e.turns)
    (h : Follows v d) {os : List UInt8}
    (hmeets : (desk e.toCommands).Meets
      (fun d o => d.Fits e.toCommands o ∧ d.Returns (keymap d.escape o).1) d os) :
    ∃ v', v.pressAll e os = .ok v' ∧ Follows v' ((desk e.toCommands).after d os) := by
  obtain ⟨v', hresult, htogether⟩ := h.pressAll hc hturns hmeets
  exact ⟨v', hresult, htogether.follows⟩

/-- **The screen.** When a completion goes on from the word that is completed and what the commands print
ends its rows, every run of such octets comes back in which moreover the configuration is not ended on a
line that is shown, and as long as the session is not to be closed, a terminal whose rows are as wide as
what is written on them shows the prompt and the line after it, with the cursor at its place and nothing
behind; at a password prompt it shows the prompt alone. -/
theorem pressAll_shown (hc : e.toCommands.Completes) (hprints : e.toCommands.Prints)
    (hturns : vtyBufsiz ≤ e.turns) (h : Follows v d) (hshown : Shown e.toCommands v d)
    {os : List UInt8}
    (hmeets : (desk e.toCommands).Meets
      (fun d o => d.Fits e.toCommands o ∧ d.Returns (keymap d.escape o).1 ∧
        d.Clean (keymap d.escape o).1) d os) :
    ∃ v', v.pressAll e os = .ok v' ∧ Shown e.toCommands v' ((desk e.toCommands).after d os) := by
  obtain ⟨hfits, hrest⟩ := (desk e.toCommands).meets_and.mp hmeets
  obtain ⟨hreturns, hclean⟩ := (desk e.toCommands).meets_and.mp hrest
  obtain ⟨v', hresult, htogether⟩ :=
    h.pressAll hc hturns ((desk e.toCommands).meets_and.mpr ⟨hfits, hreturns⟩)
  exact ⟨v', hresult, htogether.shown ⟨hprints, hclean⟩ hshown⟩

/-- **The password prompts.** When a completion goes on from the word that is completed, then among the
runs of octets behind the options of telnet whose lines are shorter than the buffer, those that come to
their end are exactly those in which the key that kills the word behind the cursor is not pressed over a
character of a password. -/
theorem pressAll_returns (hc : e.toCommands.Completes) (hturns : vtyBufsiz ≤ e.turns)
    (h : Follows v d) {os : List UInt8}
    (hfits : (desk e.toCommands).Meets (fun d o => d.Fits e.toCommands o) d os) :
    (∃ v', v.pressAll e os = .ok v') ↔
      (desk e.toCommands).Meets (fun d o => d.Returns (keymap d.escape o).1) d os := by
  induction os generalizing v d with
  | nil => exact ⟨fun _ => trivial, fun _ => ⟨v, rfl⟩⟩
  | cons o os ih =>
      obtain ⟨hfits, hrest⟩ := hfits
      rw [Vty.pressAll, List.foldlM_cons]
      by_cases hreturns : d.Returns (keymap d.escape o).1
      · obtain ⟨v', hresult, htogether⟩ := h.press hc hturns hfits hreturns
        have hrun : (∃ v'', v'.pressAll e os = .ok v'') ↔ _ := ih htogether.follows hrest
        have hbind := bind_ok (f := fun v => Vty.pressAll e os v) hresult
        refine ⟨fun ⟨v'', hv⟩ => ⟨hreturns, hrun.mp ⟨v'', hbind.symm.trans hv⟩⟩, fun hmeets => ?_⟩
        obtain ⟨v'', hv⟩ := hrun.mpr hmeets.2
        exact ⟨v'', hbind.trans hv⟩
      · -- the loop of the key does not end
        simp only [Desk.Returns, Classical.not_imp] at hreturns
        obtain ⟨hkey, hauth, hright⟩ := hreturns
        obtain ⟨c, r, hline⟩ := List.exists_cons_of_ne_nil hright
        have hhang : v.press e o = .error .hang := by
          have hb : Buffered v ⟨d.line.left, c :: r⟩ := hline ▸ h.buffered
          rw [Vty.press, h.escape, hkey, Vty.act, hb.forwardKillWord_hang (h.isAuth_eq.trans hauth)]
          rfl
        rw [hhang]
        refine ⟨fun ⟨v', hv⟩ => (nomatch hv), fun hmeets => absurd (hmeets.1 hkey hauth) hright⟩

/-! ### New sessions -/

/-- A session that has just been created. -/
def newDesk (node : NodeType) (host : Host H) : Desk H :=
  ⟨⟨node, .normal, false, 0, host⟩, .empty, .clear, .normal⟩

theorem create_follows (e : Setting H) (node : NodeType) (host : Host H) (hello : List UInt8) :
    Follows (Vty.create e node host hello) (newDesk node host) where
  buffered := ⟨rfl, rfl, Nat.le_refl _, Nat.succ_pos _, (fun o ho => by cases ho), fun i _ => rfl⟩
  seat := rfl
  history := rfl
  escape := rfl
  entries i entry h := by cases h

/-- After the greeting and the options of telnet the prompt stands on the row. -/
theorem create_shown (hprints : e.toCommands.Prints) (node : NodeType) (host : Host H)
    {hello : List UInt8} (hhello : Plain hello) :
    Shown e.toCommands (Vty.create e node host hello) (newDesk node host) := by
  intro _
  have hright : (emit .empty hello).right = [] := hhello.emit_right rfl
  have hrow : emit .empty hello = ⟨(emit .empty hello).left, []⟩ := Zipper.ext rfl hright
  have hprompt := hprints.prompt (newDesk node host).seat
  have hvisible : (newDesk node host).visible = .empty := by
    rw [Desk.visible]
    split <;> rfl
  have hobuf : (Vty.create e node host hello).obuf = hello ++
      [0xff, 0xfb, 0x01, 0xff, 0xfb, 0x03, 0xff, 0xfe, 0x22, 0xff, 0xfd, 0x1f] ++
        e.prompt (newDesk node host).seat := rfl
  rw [hvisible, hobuf, emit_append, emit_append, hrow]
  change ∃ base, Shows _ _ (emit ⟨0x1f :: 0xfd :: 0xff :: 0x22 :: 0xfe :: 0xff :: 0x03 :: 0xfb ::
    0xff :: 0x01 :: 0xfb :: 0xff :: (emit .empty hello).left, []⟩ _)
  rw [emit_printable hprompt]
  exact ⟨_, rfl, 0, List.drop_nil⟩

/-- Commands that say nothing, at a prompt. -/
def silent : Setting Unit where
  prompt _ := [0x3e, 0x20]
  execute _ _ s := (s, .success, [])
  complete _ _ := .errNoMatch
  describe _ _ := .errNoMatch
  heap := Mem.blank
  turns := vtyBufsiz

theorem silent_completes : silent.toCommands.Completes where
  printable _ _ _ h := by rcases h with h | h <;> cases h
  goesOn _ _ _ h := by rcases h with h | h <;> cases h

theorem silent_prints : silent.toCommands.Prints where
  prompt _ := show ∀ o ∈ ([0x3e, 0x20] : List UInt8), Printable o by decide
  execute _ _ _ := .nil
  describe _ _ _ h := by cases h
  list _ _ _ h := by cases h

def host : Host Unit := ⟨some [0x78], none, none, none, false, false, true, ()⟩

/-- `b`, then `a` in front of it, and the line is entered. -/
theorem pressAll_follows_typed :
    let os : List UInt8 := [0x62, 0x01, 0x61, 0x0d]
    ∃ v', (Vty.create silent .enable host []).pressAll silent os = .ok v' ∧
      Follows v' ((desk silent.toCommands).after (newDesk .enable host) os) :=
  pressAll_follows silent_completes (Nat.le_refl _) (create_follows _ _ _ _) (by decide)

/-- The same, up to the line that is shown. -/
theorem pressAll_shown_typed :
    let os : List UInt8 := [0x62, 0x01, 0x61]
    ∃ v', (Vty.create silent .enable host []).pressAll silent os = .ok v' ∧
      Shown silent.toCommands v' ((desk silent.toCommands).after (newDesk .enable host) os) :=
  pressAll_shown silent_completes silent_prints (Nat.le_refl _) (create_follows _ _ _ _)
    (create_shown silent_prints _ _ .nil) (by decide)

/-- At a password prompt the cursor is on a character, and the key to kill it is pressed. -/
theorem pressAll_returns_password :
    let os : List UInt8 := [0x78, 0x01, 0x1b, 0x64]
    (∃ v', (Vty.create silent .auth host []).pressAll silent os = .ok v') ↔
      (desk silent.toCommands).Meets (fun d o => d.Returns (keymap d.escape o).1)
        (newDesk .auth host) os :=
  pressAll_returns silent_completes (Nat.le_refl _) (create_follows _ _ _ _) (by decide)

end SoftBts
