import Mathlib.Data.List.Basic

/-! Lines of text with a cursor, as a line editor and a terminal have them: what the keys of an
editor do, and what single turns of a loop over a line come to. A terminal row is such a line too:
what is written replaces what is under the cursor, and a backspace moves the cursor only. -/

/-- A line with a cursor: what is before the cursor, nearest first, and what is from it on. -/
@[ext]
structure Zipper (α : Type*) where
  left : List α
  right : List α
  deriving DecidableEq

namespace Zipper

variable {α : Type*}

/-- The whole line. -/
def text (z : Zipper α) : List α := z.left.reverse ++ z.right

def empty : Zipper α := ⟨[], []⟩

/-- A line with the cursor behind it. -/
def ofText (t : List α) : Zipper α := ⟨t.reverse, []⟩

/-! ### Keys -/

def forward : Zipper α → Zipper α
  | ⟨l, a :: r⟩ => ⟨a :: l, r⟩
  | ⟨l, []⟩ => ⟨l, []⟩

def backward : Zipper α → Zipper α
  | ⟨a :: l, r⟩ => ⟨l, a :: r⟩
  | ⟨[], r⟩ => ⟨[], r⟩

def home (z : Zipper α) : Zipper α := ⟨[], z.text⟩

def toEnd (z : Zipper α) : Zipper α := ofText z.text

def insert (a : α) (z : Zipper α) : Zipper α := ⟨a :: z.left, z.right⟩

def overwrite (a : α) (z : Zipper α) : Zipper α := ⟨a :: z.left, z.right.tail⟩

def delete (z : Zipper α) : Zipper α := ⟨z.left, z.right.tail⟩

def deleteBackward (z : Zipper α) : Zipper α := ⟨z.left.tail, z.right⟩

def killRight (z : Zipper α) : Zipper α := ⟨z.left, []⟩

/-- The two characters around the cursor change places, or the last two at the end of the line. -/
def transpose : Zipper α → Zipper α
  | ⟨a :: b :: l, []⟩ => ⟨b :: a :: l, []⟩
  | ⟨a :: l, b :: r⟩ => ⟨a :: b :: l, r⟩
  | z => z

/-! ### Over words -/

section Words

variable (p : α → Bool)

def forwardWhile (z : Zipper α) : Zipper α :=
  ⟨(z.right.takeWhile p).reverse ++ z.left, z.right.dropWhile p⟩

def backwardWhile (z : Zipper α) : Zipper α :=
  ⟨z.left.dropWhile p, (z.left.takeWhile p).reverse ++ z.right⟩

def deleteWhile (z : Zipper α) : Zipper α := ⟨z.left, z.right.dropWhile p⟩

def deleteBackwardWhile (z : Zipper α) : Zipper α := ⟨z.left.dropWhile p, z.right⟩

end Words

/-- The character under the cursor is one of `p`. -/
def under (p : α → Bool) (z : Zipper α) : Bool := z.right.head?.any p

/-- The character before the cursor is one of `p`. -/
def behind (p : α → Bool) (z : Zipper α) : Bool := z.left.head?.any p

/-! ### What the keys keep -/

@[simp] theorem text_forward (z : Zipper α) : z.forward.text = z.text := by
  rcases z with ⟨l, _ | ⟨a, r⟩⟩ <;> simp [forward, text]

@[simp] theorem text_backward (z : Zipper α) : z.backward.text = z.text := by
  rcases z with ⟨_ | ⟨a, l⟩, r⟩ <;> simp [backward, text]

@[simp] theorem text_home (z : Zipper α) : z.home.text = z.text := by
  simp [home, text]

@[simp] theorem text_ofText (t : List α) : (ofText t).text = t := by
  simp [ofText, text]

theorem length_text (z : Zipper α) : z.text.length = z.left.length + z.right.length := by
  simp [text]

/-! ### Single turns -/

theorem home_backward (z : Zipper α) : z.backward.home = z.home := by
  rw [home, text_backward, home]

theorem toEnd_forward (z : Zipper α) : z.forward.toEnd = z.toEnd := by
  rw [toEnd, text_forward, toEnd]

section Turns

variable {p : α → Bool} {z : Zipper α}

theorem exists_of_under (h : z.under p = true) : ∃ l a r, z = ⟨l, a :: r⟩ ∧ p a = true := by
  rcases z with ⟨l, _ | ⟨a, r⟩⟩
  · cases h
  · exact ⟨l, a, r, rfl, h⟩

theorem exists_of_behind (h : z.behind p = true) : ∃ a l r, z = ⟨a :: l, r⟩ ∧ p a = true := by
  rcases z with ⟨_ | ⟨a, l⟩, r⟩
  · cases h
  · exact ⟨a, l, r, rfl, h⟩

theorem dropWhile_of_not_under (h : z.under p = false) :
    z.right.takeWhile p = [] ∧ z.right.dropWhile p = z.right := by
  rcases z with ⟨l, _ | ⟨a, r⟩⟩
  · exact ⟨rfl, rfl⟩
  · have ha : p a = false := h
    exact ⟨by simp [ha], by simp [ha]⟩

theorem dropWhile_of_not_behind (h : z.behind p = false) :
    z.left.takeWhile p = [] ∧ z.left.dropWhile p = z.left := by
  rcases z with ⟨_ | ⟨a, l⟩, r⟩
  · exact ⟨rfl, rfl⟩
  · have ha : p a = false := h
    exact ⟨by simp [ha], by simp [ha]⟩

theorem forwardWhile_forward (h : z.under p = true) : z.forward.forwardWhile p = z.forwardWhile p := by
  obtain ⟨l, a, r, rfl, ha⟩ := exists_of_under h
  simp [forward, forwardWhile, ha]

theorem forwardWhile_stop (h : z.under p = false) : z.forwardWhile p = z := by
  obtain ⟨htake, hdrop⟩ := dropWhile_of_not_under h
  rw [forwardWhile, htake, hdrop]
  rfl

theorem backwardWhile_backward (h : z.behind p = true) :
    z.backward.backwardWhile p = z.backwardWhile p := by
  obtain ⟨a, l, r, rfl, ha⟩ := exists_of_behind h
  simp [backward, backwardWhile, ha]

theorem backwardWhile_stop (h : z.behind p = false) : z.backwardWhile p = z := by
  obtain ⟨htake, hdrop⟩ := dropWhile_of_not_behind h
  rw [backwardWhile, htake, hdrop]
  rfl

theorem deleteWhile_delete (h : z.under p = true) : z.delete.deleteWhile p = z.deleteWhile p := by
  obtain ⟨l, a, r, rfl, ha⟩ := exists_of_under h
  simp [delete, deleteWhile, ha]

theorem deleteWhile_stop (h : z.under p = false) : z.deleteWhile p = z := by
  rw [deleteWhile, (dropWhile_of_not_under h).2]

theorem deleteBackwardWhile_deleteBackward (h : z.behind p = true) :
    z.deleteBackward.deleteBackwardWhile p = z.deleteBackwardWhile p := by
  obtain ⟨a, l, r, rfl, ha⟩ := exists_of_behind h
  simp [deleteBackward, deleteBackwardWhile, ha]

theorem deleteBackwardWhile_stop (h : z.behind p = false) : z.deleteBackwardWhile p = z := by
  rw [deleteBackwardWhile, (dropWhile_of_not_behind h).2]

end Turns

end Zipper
