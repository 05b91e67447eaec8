import Mathlib.Data.List.Induction
import SoftBts.Lib.Zipper

/-! The row of a terminal on which a line is edited: a character replaces the one under the cursor, a
backspace moves the cursor, and a line feed goes on to an empty row. A row shows an edited line when
the line stands on it behind what was there, with nothing but blanks after it and the cursors at one
place. The lemmas say what an editor has to write to keep it so.

The row is as wide as what is written on it: nothing wraps around to another row. A line feed goes on in
the column of the cursor, and every other octet but the three takes one column. -/

namespace Terminal

abbrev Row := Zipper UInt8

def backspace : UInt8 := 0x08
def space : UInt8 := 0x20

/-- A character that stands on the row. -/
def Printable (c : UInt8) : Prop := 0x20 ≤ c ∧ c < 0x7f

instance (c : UInt8) : Decidable (Printable c) := inferInstanceAs (Decidable (_ ∧ _))

/-- The characters of a text are gone through, not all octets that there are. -/
scoped instance (priority := high) decidableForallMem {p : UInt8 → Prop} [DecidablePred p]
    (bs : List UInt8) : Decidable (∀ c ∈ bs, p c) :=
  List.decidableBAll p bs

/-- One octet arrives. -/
def put (row : Row) (c : UInt8) : Row :=
  if c = 0x08 then row.backward
  else if c = 0x0d then row.home
  else if c = 0x0a then ⟨List.replicate row.left.length space, []⟩
  else row.overwrite c

def emit (row : Row) (bs : List UInt8) : Row := bs.foldl put row

@[simp] theorem emit_nil (row : Row) : emit row [] = row := rfl

theorem emit_append (row : Row) (a b : List UInt8) : emit row (a ++ b) = emit (emit row a) b :=
  List.foldl_append

theorem put_printable {c : UInt8} (h : Printable c) (row : Row) : put row c = row.overwrite c := by
  have hne : ∀ d : UInt8, d < 0x20 → c ≠ d := by
    rintro d hd rfl
    exact absurd h.1 (UInt8.not_le.mpr hd)
  rw [put, if_neg (hne _ (by decide)), if_neg (hne _ (by decide)), if_neg (hne _ (by decide))]

theorem emit_printable {t : List UInt8} (h : ∀ c ∈ t, Printable c) (l r : List UInt8) :
    emit ⟨l, r⟩ t = ⟨t.reverse ++ l, r.drop t.length⟩ := by
  induction t generalizing l r with
  | nil => simp
  | cons c t ih =>
      have hput : put ⟨l, r⟩ c = ⟨c :: l, r.tail⟩ := put_printable (h c List.mem_cons_self) _
      rw [emit, List.foldl_cons, hput]
      refine (ih (fun d hd => h d (List.mem_cons_of_mem c hd)) _ _).trans ?_
      simp

/-- So many backspaces bring back what stands before the cursor. -/
theorem emit_backspaces (t l r : List UInt8) :
    emit ⟨t.reverse ++ l, r⟩ (List.replicate t.length backspace) = ⟨l, t ++ r⟩ := by
  induction t using List.reverseRecOn generalizing r with
  | nil => rfl
  | append_singleton t c ih =>
      rw [List.length_append, List.length_singleton, List.replicate_succ, List.reverse_concat]
      refine (ih (c :: r)).trans ?_
      simp

theorem printable_space : Printable space := by decide

theorem emit_spaces (n : ℕ) (l r : List UInt8) :
    emit ⟨l, r⟩ (List.replicate n space) = ⟨List.replicate n space ++ l, r.drop n⟩ := by
  rw [emit_printable fun c hc => List.eq_of_mem_replicate hc ▸ printable_space,
    List.reverse_replicate, List.length_replicate]

/-! ### Rows that show a line -/

/-- The row shows the line `z` behind `base`. -/
structure Shows (base : List UInt8) (z : Zipper UInt8) (row : Row) : Prop where
  left : row.left = z.left ++ base
  right : ∃ n, row.right = z.right ++ List.replicate n space

namespace Shows

variable {base : List UInt8} {row : Row} {l r : List UInt8} {c : UInt8}

theorem exists_row (h : Shows base ⟨l, r⟩ row) :
    ∃ n, row = ⟨l ++ base, r ++ List.replicate n space⟩ := by
  obtain ⟨n, hn⟩ := h.right
  exact ⟨n, Zipper.ext h.left hn⟩

/-- The character that stands under the cursor is written again. -/
theorem forward (h : Shows base ⟨l, c :: r⟩ row) (hc : Printable c) :
    Shows base ⟨c :: l, r⟩ (emit row [c]) := by
  obtain ⟨n, rfl⟩ := h.exists_row
  rw [emit_printable (by simpa using hc)]
  exact ⟨rfl, n, rfl⟩

theorem backward (h : Shows base ⟨c :: l, r⟩ row) :
    Shows base ⟨l, c :: r⟩ (emit row [backspace]) := by
  obtain ⟨n, rfl⟩ := h.exists_row
  exact ⟨rfl, n, rfl⟩

/-- A character takes the place of the one under the cursor. -/
theorem overwrite (h : Shows base ⟨l, r⟩ row) (hc : Printable c) :
    Shows base ⟨c :: l, r.tail⟩ (emit row [c]) := by
  obtain ⟨n, rfl⟩ := h.exists_row
  rw [emit_printable (by simpa using hc)]
  cases r with
  | nil => exact ⟨rfl, n - 1, by simp⟩
  | cons a r => exact ⟨rfl, n, rfl⟩

/-- A character and what stands behind it are written, and the cursor is brought back. -/
theorem insert (h : Shows base ⟨l, r⟩ row) (hc : Printable c) (hr : ∀ d ∈ r, Printable d) :
    Shows base ⟨c :: l, r⟩ (emit row (c :: r ++ List.replicate r.length backspace)) := by
  obtain ⟨n, rfl⟩ := h.exists_row
  have hprintable : ∀ d ∈ c :: r, Printable d := by simpa using ⟨hc, hr⟩
  have hdrop : (r ++ List.replicate n space).drop (r.length + 1) = List.replicate (n - 1) space := by
    rw [← List.drop_drop, List.drop_left, List.drop_replicate]
  rw [emit_append, emit_printable hprintable, List.length_cons, hdrop, List.reverse_cons,
    List.append_assoc, emit_backspaces]
  exact ⟨rfl, n - 1, rfl⟩

/-- What stands behind a character is written over it, with a blank at the end. -/
theorem delete (h : Shows base ⟨l, c :: r⟩ row) (hr : ∀ d ∈ r, Printable d) :
    Shows base ⟨l, r⟩
      (emit row (r ++ [space] ++ List.replicate (r.length + 1) backspace)) := by
  obtain ⟨n, rfl⟩ := h.exists_row
  have hprintable : ∀ d ∈ r ++ [space], Printable d := by
    simpa [or_imp, forall_and] using ⟨hr, printable_space⟩
  have hlen : (r ++ [space]).length = r.length + 1 := List.length_append
  have hdrop : (c :: r ++ List.replicate n space).drop (r.length + 1) = List.replicate n space :=
    List.drop_left
  rw [emit_append, emit_printable hprintable, hlen, hdrop, ← hlen, emit_backspaces]
  refine ⟨rfl, n + 1, ?_⟩
  rw [List.replicate_succ, List.append_assoc]
  rfl

/-- Blanks are written over the rest of the line. -/
theorem kill (h : Shows base ⟨l, r⟩ row) :
    Shows base ⟨l, []⟩ (emit row (List.replicate r.length space ++
      List.replicate r.length backspace)) := by
  obtain ⟨n, rfl⟩ := h.exists_row
  have hback := emit_backspaces (List.replicate r.length space) (l ++ base)
    (List.replicate n space)
  rw [List.reverse_replicate, List.length_replicate] at hback
  rw [emit_append, emit_spaces, List.drop_left, hback]
  exact ⟨rfl, r.length + n, List.replicate_append_replicate⟩

/-- A word that is long enough is written over the rest of the line. -/
theorem overwriteWord (h : Shows base ⟨l, r⟩ row) {t : List UInt8} (ht : ∀ d ∈ t, Printable d)
    (hle : r.length ≤ t.length) : Shows base ⟨t.reverse ++ l, []⟩ (emit row t) := by
  obtain ⟨n, rfl⟩ := h.exists_row
  rw [emit_printable ht]
  refine ⟨(List.append_assoc _ _ _).symm, n - (t.length - r.length), ?_⟩
  rw [List.drop_append, List.drop_eq_nil_of_le hle, List.drop_replicate]

/-- A whole line is written behind what stands on the row. -/
theorem ofText {t : List UInt8} (h : Shows base .empty row) (ht : ∀ c ∈ t, Printable c) :
    Shows base (.ofText t) (emit row t) := by
  obtain ⟨n, rfl⟩ := h.exists_row
  rw [emit_printable ht]
  exact ⟨rfl, n - t.length, by simp [Zipper.ofText]⟩

end Shows

/-! ### Text that leaves nothing behind it -/

/-- Characters, and line ends that are written in full. -/
inductive Plain : List UInt8 → Prop where
  | nil : Plain []
  | char {c : UInt8} {bs : List UInt8} (hc : Printable c) (hbs : Plain bs) : Plain (c :: bs)
  | newline {bs : List UInt8} (hbs : Plain bs) : Plain (0x0d :: 0x0a :: bs)

theorem Plain.append {a b : List UInt8} (ha : Plain a) (hb : Plain b) : Plain (a ++ b) := by
  induction ha with
  | nil => exact hb
  | char hc _ ih => exact .char hc ih
  | newline _ ih => exact .newline ih

theorem Plain.of_printable {bs : List UInt8} (h : ∀ c ∈ bs, Printable c) : Plain bs := by
  induction bs with
  | nil => exact .nil
  | cons c bs ih =>
      exact .char (h c List.mem_cons_self) (ih fun d hd => h d (List.mem_cons_of_mem c hd))

theorem Plain.flatMap {α : Type*} {f : α → List UInt8} {l : List α} (h : ∀ a ∈ l, Plain (f a)) :
    Plain (l.flatMap f) := by
  induction l with
  | nil => exact .nil
  | cons a l ih =>
      rw [List.flatMap_cons]
      exact (h a List.mem_cons_self).append (ih fun b hb => h b (List.mem_cons_of_mem a hb))

/-- After plain text at the end of a row there is nothing behind the cursor. -/
theorem Plain.emit_right {bs : List UInt8} (h : Plain bs) {z : Row} (hrow : z.right = []) :
    (emit z bs).right = [] := by
  induction h generalizing z with
  | nil => exact hrow
  | @char c bs hc _ ih =>
      refine ih (z := put z c) ?_
      rw [put_printable hc, Zipper.overwrite, hrow]
      rfl
  | newline _ ih => exact ih (z := .empty) rfl

/-- A line can be edited behind plain text that begins with a line end and ends in a prompt. -/
theorem Plain.shows {bs : List UInt8} (h : Plain bs) {prompt : List UInt8}
    (hprompt : ∀ c ∈ prompt, Printable c) (row : Row) :
    ∃ base, Shows (prompt.reverse ++ base) .empty (emit row ([0x0d, 0x0a] ++ bs ++ prompt)) := by
  have hright : (emit .empty bs).right = [] := h.emit_right rfl
  refine ⟨(emit .empty bs).left, ?_⟩
  have hrow : emit row ([0x0d, 0x0a] ++ bs ++ prompt) = emit (emit .empty bs) prompt := emit_append _ _ _
  rw [hrow, show emit .empty bs = ⟨(emit .empty bs).left, []⟩ from Zipper.ext rfl hright,
    emit_printable hprompt]
  exact ⟨rfl, 0, List.drop_nil⟩

end Terminal
