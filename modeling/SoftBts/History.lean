import Mathlib.Data.List.Basic
import SoftBts.Lib.Machine

/-! The history of a session (`vty_hist_add`, `vty_next_line`, `vty_previous_line`): a ring of twenty
slots with an insert end point and a look-up point, and the list of lines that it stands for. Over
every run of what is entered and looked up, the keys show the last distinct lines one by one. -/

namespace SoftBts

open Reactive

def vtyMaxHist : ℕ := 20

/-- `hist`, `hp` and `hindex` of `struct vty`. -/
structure History where
  hist : ℕ → Option (List UInt8)
  hp : ℕ
  hindex : ℕ

namespace History

/-- The history of a new session. -/
def clear : History := ⟨fun _ => none, 0, 0⟩

/-- `vty_hist_add` of a line that is not empty -/
def add (line : List UInt8) (h : History) : History :=
  let index := if h.hindex = 0 then vtyMaxHist - 1 else h.hindex - 1
  if h.hist index = some line then { h with hp := h.hindex }
  else
    let hindex := if h.hindex + 1 = vtyMaxHist then 0 else h.hindex + 1
    ⟨Function.update h.hist h.hindex (some line), hindex, hindex⟩

/-- `vty_stop_input` sets the history pointer to the latest one. -/
def latest (h : History) : History := { h with hp := h.hindex }

/-- `vty_next_line`, up to what it prints. -/
def next (h : History) : Option (List UInt8 × History) :=
  if h.hp = h.hindex then none
  else
    let tryIndex := if h.hp = vtyMaxHist - 1 then 0 else h.hp + 1
    (h.hist tryIndex).map fun line => (line, { h with hp := tryIndex })

/-- `vty_previous_line`, up to what it prints. -/
def previous (h : History) : Option (List UInt8 × History) :=
  let tryIndex := if h.hp = 0 then vtyMaxHist - 1 else h.hp - 1
  (h.hist tryIndex).map fun line => (line, { h with hp := tryIndex })

end History

/-! ### The lines behind the ring -/

/-- The lines that the history still has, the last one first, and how many steps back the session is. -/
structure Past where
  lines : List (List UInt8)
  pos : ℕ

namespace Past

def clear : Past := ⟨[], 0⟩

/-- A line that repeats the last one is not noted again, and the oldest one makes room. -/
def add (line : List UInt8) (p : Past) : Past :=
  if p.lines.head? = some line then { p with pos := 0 }
  else ⟨(line :: p.lines).take vtyMaxHist, 0⟩

def latest (p : Past) : Past := { p with pos := 0 }

/-- One step back. From the last of twenty lines the next step leads to the first again. -/
def previous (p : Past) : Option (List UInt8 × Past) :=
  p.lines[p.pos]?.map fun line => (line, { p with pos := (p.pos + 1) % vtyMaxHist })

/-- One step towards the last line. Behind it is nothing, or the oldest line when there are twenty. -/
def next (p : Past) : Option (List UInt8 × Past) :=
  match p.pos with
  | 0 => none
  | 1 => p.lines[vtyMaxHist - 1]?.map fun line => (line, { p with pos := 0 })
  | n + 2 => p.lines[n]?.map fun line => (line, { p with pos := n + 1 })

end Past

/-- The ring stands for the lines: the slot so many steps before the insert end point has the line
that was entered so many lines ago. -/
structure Recalls (h : History) (p : Past) : Prop where
  hindex_lt : h.hindex < vtyMaxHist
  pos_lt : p.pos < vtyMaxHist
  pos_le : p.pos ≤ p.lines.length
  hp_eq : h.hp = (h.hindex + vtyMaxHist - p.pos) % vtyMaxHist
  slot : ∀ k < vtyMaxHist, h.hist ((h.hindex + vtyMaxHist - 1 - k) % vtyMaxHist) = p.lines[k]?

theorem recalls_clear : Recalls .clear .clear where
  hindex_lt := by decide
  pos_lt := by decide
  pos_le := Nat.le_refl 0
  hp_eq := rfl
  slot _ _ := rfl

namespace Recalls

variable {h : History} {p : Past}

theorem latest (hr : Recalls h p) : Recalls h.latest p.latest where
  hindex_lt := hr.hindex_lt
  pos_lt := Nat.succ_pos _
  pos_le := Nat.zero_le _
  hp_eq := by
    have hlt := hr.hindex_lt
    simp only [vtyMaxHist, History.latest, Past.latest] at hlt ⊢
    omega
  slot := hr.slot

/-- The slot before the insert end point has the last line. -/
theorem last (hr : Recalls h p) :
    h.hist (if h.hindex = 0 then vtyMaxHist - 1 else h.hindex - 1) = p.lines.head? := by
  have hslot := hr.slot 0 (by decide)
  have hlt := hr.hindex_lt
  have hindex : (h.hindex + vtyMaxHist - 1 - 0) % vtyMaxHist =
      if h.hindex = 0 then vtyMaxHist - 1 else h.hindex - 1 := by
    unfold vtyMaxHist at hlt ⊢
    split <;> omega
  rw [← hindex, hslot, List.head?_eq_getElem?]

theorem add (hr : Recalls h p) (line : List UInt8) : Recalls (h.add line) (p.add line) := by
  rw [History.add, Past.add, hr.last]
  by_cases hsame : p.lines.head? = some line
  · rw [if_pos hsame, if_pos hsame]
    exact hr.latest
  · rw [if_neg hsame, if_neg hsame]
    have hlt := hr.hindex_lt
    simp only [vtyMaxHist] at hlt
    have hindex : (if h.hindex + 1 = vtyMaxHist then 0 else h.hindex + 1) =
        (h.hindex + 1) % vtyMaxHist := by
      unfold vtyMaxHist
      split <;> omega
    constructor
    case hindex_lt =>
      dsimp only
      rw [hindex]
      exact Nat.mod_lt _ (by decide)
    case pos_lt => exact Nat.succ_pos _
    case pos_le => exact Nat.zero_le _
    case hp_eq =>
      dsimp only
      rw [hindex]
      simp only [vtyMaxHist]
      omega
    case slot =>
      intro k hk
      dsimp only
      rw [hindex, List.getElem?_take_of_lt hk]
      simp only [vtyMaxHist] at hk
      cases k with
      | zero =>
          have hat : ((h.hindex + 1) % vtyMaxHist + vtyMaxHist - 1 - 0) % vtyMaxHist = h.hindex := by
            simp only [vtyMaxHist]
            omega
          rw [hat, Function.update_self, List.getElem?_cons_zero]
      | succ k =>
          have hat : ((h.hindex + 1) % vtyMaxHist + vtyMaxHist - 1 - (k + 1)) % vtyMaxHist =
              (h.hindex + vtyMaxHist - 1 - k) % vtyMaxHist := by
            simp only [vtyMaxHist]
            omega
          have hne : (h.hindex + vtyMaxHist - 1 - k) % vtyMaxHist ≠ h.hindex := by
            simp only [vtyMaxHist]
            omega
          rw [hat, Function.update_of_ne hne, List.getElem?_cons_succ]
          exact hr.slot k (by simp only [vtyMaxHist]; omega)

/-- Both show the same line, or none, and stand for the same lines then. -/
inductive SameStep : Option (List UInt8 × History) → Option (List UInt8 × Past) → Prop where
  | nothing : SameStep none none
  | shows (line : List UInt8) {h : History} {p : Past} (hr : Recalls h p) :
      SameStep (some (line, h)) (some (line, p))

/-- A look at one slot shows what the list has there. -/
theorem look (hr : Recalls h p) {i k pos : ℕ} (hk : k < vtyMaxHist)
    (hi : i = (h.hindex + vtyMaxHist - 1 - k) % vtyMaxHist) (hpos : pos < vtyMaxHist)
    (hi' : i = (h.hindex + vtyMaxHist - pos) % vtyMaxHist)
    (hle : k < p.lines.length → pos ≤ p.lines.length) :
    SameStep ((h.hist i).map fun line => (line, { h with hp := i }))
      (p.lines[k]?.map fun line => (line, { p with pos := pos })) := by
  rw [hi, hr.slot k hk, ← hi]
  cases hline : p.lines[k]? with
  | none => exact .nothing
  | some line =>
      have hlt : k < p.lines.length := by
        by_contra hge
        rw [List.getElem?_eq_none (Nat.not_lt.mp hge)] at hline
        cases hline
      exact .shows line ⟨hr.hindex_lt, hpos, hle hlt, hi', hr.slot⟩

theorem previous (hr : Recalls h p) : SameStep h.previous p.previous := by
  have hhp := hr.hp_eq
  have hlt := hr.hindex_lt
  have hpos := hr.pos_lt
  rw [History.previous, Past.previous]
  apply hr.look hpos
  · unfold vtyMaxHist at hhp hlt hpos ⊢
    split <;> omega
  · exact Nat.mod_lt _ (by decide)
  · unfold vtyMaxHist at hhp hlt hpos ⊢
    split <;> omega
  · intro hmore
    exact Nat.le_trans (Nat.mod_le _ _) hmore

theorem next (hr : Recalls h p) : SameStep h.next p.next := by
  have hhp := hr.hp_eq
  have hlt := hr.hindex_lt
  have hpos := hr.pos_lt
  simp only [vtyMaxHist] at hhp hlt hpos
  rw [History.next, Past.next]
  cases hp : p.pos with
  | zero =>
      rw [if_pos (by omega)]
      exact .nothing
  | succ n =>
      rw [if_neg (by omega)]
      cases n with
      | zero =>
          apply hr.look (by decide)
          · unfold vtyMaxHist
            split <;> omega
          · decide
          · unfold vtyMaxHist
            split <;> omega
          · exact fun _ => Nat.zero_le _
      | succ n =>
          apply hr.look (k := n) (by simp only [vtyMaxHist]; omega)
          · unfold vtyMaxHist
            split <;> omega
          · simp only [vtyMaxHist]
            omega
          · unfold vtyMaxHist
            split <;> omega
          · exact fun hmore => hmore

end Recalls

/-! ### Runs -/

/-- What happens to a history: a line that is not empty is entered, one is looked up, or the input
is stopped. -/
inductive Browse where
  | entered (line : List UInt8) (hne : line ≠ [])
  | stopped
  | up
  | down

/-- A key that shows a line, or none. -/
def shown {σ : Type} (s : σ) : Option (List UInt8 × σ) → σ × List (List UInt8)
  | none => (s, [])
  | some (line, s') => (s', [line])

/-- The ring of the session. -/
def ring : Machine History Browse (List UInt8) where
  step h
    | .entered line _ => (h.add line, [])
    | .stopped => (h.latest, [])
    | .up => shown h h.previous
    | .down => shown h h.next

/-- The lines that it stands for. -/
def book : Machine Past Browse (List UInt8) where
  step p
    | .entered line _ => (p.add line, [])
    | .stopped => (p.latest, [])
    | .up => shown p p.previous
    | .down => shown p p.next

theorem shown_same {h : History} {p : Past} (hr : Recalls h p)
    {o : Option (List UInt8 × History)} {o' : Option (List UInt8 × Past)}
    (hsame : Recalls.SameStep o o') :
    Recalls (shown h o).1 (shown p o').1 ∧ (shown h o).2 = (shown p o').2 := by
  cases hsame with
  | nothing => exact ⟨hr, rfl⟩
  | shows line hr' => exact ⟨hr', rfl⟩

/-- Steps of the two keep them together and show the same. -/
theorem ring_step (h : History) (p : Past) (e : Browse) (hr : Recalls h p) :
    Recalls (ring.step h e).1 (book.step p e).1 ∧ (ring.step h e).2 = (book.step p e).2 := by
  cases e with
  | entered line _ => exact ⟨hr.add line, rfl⟩
  | stopped => exact ⟨hr.latest, rfl⟩
  | up => exact shown_same hr hr.previous
  | down => exact shown_same hr hr.next

/-- One more line, unless it repeats the one before. -/
def noted (lines : List (List UInt8)) : Browse → List (List UInt8)
  | .entered line _ => if lines.head? = some line then lines else line :: lines
  | _ => lines

/-- The lines entered, the last one first, without repetitions of the line before. -/
def distinct (es : List Browse) : List (List UInt8) := es.foldl noted []

theorem lines_add (line : List UInt8) (hne : line ≠ []) (p : Past) (all : List (List UInt8))
    (h : p.lines = all.take vtyMaxHist) :
    (p.add line).lines = (noted all (.entered line hne)).take vtyMaxHist := by
  have hhead : p.lines.head? = all.head? := by
    rw [h, List.head?_eq_getElem?, List.getElem?_take_of_lt (by decide), List.head?_eq_getElem?]
  rw [Past.add, hhead, noted]
  by_cases hsame : all.head? = some line
  · rw [if_pos hsame, if_pos hsame]
    exact h
  · rw [if_neg hsame, if_neg hsame, h]
    change (line :: all.take vtyMaxHist).take vtyMaxHist = (line :: all).take vtyMaxHist
    rw [List.take_cons (by decide), List.take_take, List.take_cons (by decide)]
    rfl

theorem lines_step (p : Past) (e : Browse) (all : List (List UInt8))
    (h : p.lines = all.take vtyMaxHist) :
    (book.step p e).1.lines = (noted all e).take vtyMaxHist := by
  have hshown : ∀ o : Option (List UInt8 × Past), (∀ r ∈ o, r.2.lines = p.lines) →
      (shown p o).1.lines = p.lines := by
    rintro (_ | r) hr
    · rfl
    · exact hr r rfl
  cases e with
  | entered line hne => exact lines_add line hne p all h
  | stopped => exact h
  | up =>
      refine (hshown _ fun r hr => ?_).trans h
      obtain ⟨line, -, rfl⟩ := Option.map_eq_some_iff.mp hr
      rfl
  | down =>
      refine (hshown _ fun r hr => ?_).trans h
      rw [Past.next] at hr
      split at hr
      · cases hr
      · obtain ⟨line, -, rfl⟩ := Option.map_eq_some_iff.mp hr
        rfl
      · obtain ⟨line, -, rfl⟩ := Option.map_eq_some_iff.mp hr
        rfl

theorem lines_after {p : Past} {all : List (List UInt8)} (h : p.lines = all.take vtyMaxHist)
    (es : List Browse) : (book.after p es).lines = (es.foldl noted all).take vtyMaxHist := by
  induction es generalizing p all with
  | nil => exact h
  | cons e es ih => exact ih (lines_step p e all h)

/-- Steps back show the lines one after the other. -/
theorem ups (lines : List (List UInt8)) (k i : ℕ) (hle : i + k ≤ lines.length)
    (hlines : lines.length ≤ vtyMaxHist) :
    book.after ⟨lines, i % vtyMaxHist⟩ (List.replicate k .up) = ⟨lines, (i + k) % vtyMaxHist⟩ ∧
      book.outputs ⟨lines, i % vtyMaxHist⟩ (List.replicate k .up) = (lines.drop i).take k := by
  induction k generalizing i with
  | zero => exact ⟨rfl, rfl⟩
  | succ k ih =>
      have hlt : i < lines.length := by omega
      have hmod : i % vtyMaxHist = i := Nat.mod_eq_of_lt (Nat.lt_of_lt_of_le hlt hlines)
      have hstep : book.step ⟨lines, i % vtyMaxHist⟩ .up =
          (⟨lines, (i + 1) % vtyMaxHist⟩, [lines[i]]) := by
        simp only [book, Past.previous, hmod, List.getElem?_eq_getElem hlt, Option.map_some, shown]
      obtain ⟨hafter, hout⟩ := ih (i + 1) (by omega)
      rw [List.replicate_succ, Machine.after_cons, Machine.outputs_cons, hstep]
      constructor
      · rw [hafter, Nat.add_assoc, Nat.add_comm 1 k]
      · rw [hout, List.drop_eq_getElem_cons hlt, List.take_succ_cons]
        rfl

/-- Steps towards the last line show the lines in between again. -/
theorem downs (lines : List (List UInt8)) (j i : ℕ) (hj : j ≤ i) (hi : i ≤ lines.length) :
    book.outputs ⟨lines, i + 1⟩ (List.replicate j .down) = (lines.take i).reverse.take j := by
  induction j generalizing i with
  | zero => rfl
  | succ j ih =>
      obtain ⟨n, rfl⟩ := Nat.exists_eq_succ_of_ne_zero (Nat.ne_of_gt (Nat.lt_of_lt_of_le j.succ_pos hj))
      have hlt : n < lines.length := hi
      have hstep : book.step ⟨lines, n + 1 + 1⟩ .down = (⟨lines, n + 1⟩, [lines[n]]) := by
        simp only [book, Past.next, List.getElem?_eq_getElem hlt, Option.map_some, shown]
      rw [List.replicate_succ, Machine.outputs_cons, hstep, ih n (by omega) (by omega),
        List.take_succ_eq_append_getElem hlt, List.reverse_concat, List.take_succ_cons]
      rfl

/-- With the look-up point at the end, steps towards the last line show nothing. -/
theorem downs_latest (lines : List (List UInt8)) (j : ℕ) :
    book.outputs ⟨lines, 0⟩ (List.replicate j .down) = [] := by
  induction j with
  | zero => rfl
  | succ j ih =>
      rw [List.replicate_succ, Machine.outputs_cons]
      exact ih

/-- Once a line has been entered, the ring stands for the last lines with the look-up point at the
end. -/
theorem recalls_entered (es : List Browse) (line : List UInt8) (hne : line ≠ []) :
    Recalls (ring.after .clear (es ++ [.entered line hne]))
      ⟨(distinct (es ++ [.entered line hne])).take vtyMaxHist, 0⟩ := by
  have hpos : (book.after .clear (es ++ [.entered line hne])).pos = 0 := by
    rw [Machine.after_append]
    change ((book.after .clear es).add line).pos = 0
    rw [Past.add]
    split <;> rfl
  have hlines : (book.after .clear (es ++ [.entered line hne])).lines =
      (distinct (es ++ [.entered line hne])).take vtyMaxHist :=
    lines_after rfl (es ++ [.entered line hne])
  rw [← hlines, ← hpos]
  exact (ring.simulation ring_step recalls_clear (es ++ [.entered line hne])).1

end SoftBts
