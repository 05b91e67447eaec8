import Mathlib.Logic.Function.Basic
import Mathlib.Data.List.Basic

/-! Variables that are only ever written: the value of a variable after a sequence of writes is the
value of the last write to it, or the value it started with. -/

namespace LastWrite

variable {V A : Type*} [DecidableEq V]

/-- The values of the variables after a sequence of writes. -/
def applyWrites (s : V → A) (ws : List (V × A)) : V → A :=
  ws.foldl (fun s w => Function.update s w.1 w.2) s

/-- The value of the last write to a variable. -/
def lastWrite (v : V) : List (V × A) → Option A
  | [] => none
  | w :: ws => (lastWrite v ws).or (if w.1 = v then some w.2 else none)

@[simp] theorem applyWrites_nil (s : V → A) : applyWrites s [] = s := rfl

@[simp] theorem applyWrites_cons (s : V → A) (w : V × A) (ws : List (V × A)) :
    applyWrites s (w :: ws) = applyWrites (Function.update s w.1 w.2) ws := rfl

theorem applyWrites_append (s : V → A) (ws ws' : List (V × A)) :
    applyWrites s (ws ++ ws') = applyWrites (applyWrites s ws) ws' :=
  List.foldl_append

/-- **The last write wins.** -/
theorem applyWrites_apply (s : V → A) (ws : List (V × A)) (v : V) :
    applyWrites s ws v = (lastWrite v ws).getD (s v) := by
  induction ws generalizing s with
  | nil => rfl
  | cons w ws ih =>
      rw [applyWrites_cons, ih, lastWrite]
      cases lastWrite v ws with
      | some a => rfl
      | none =>
          by_cases h : w.1 = v
          · subst h
            simp
          · simp [h, Function.update_of_ne (Ne.symm h)]

theorem lastWrite_append (v : V) (ws ws' : List (V × A)) :
    lastWrite v (ws ++ ws') = (lastWrite v ws').or (lastWrite v ws) := by
  induction ws with
  | nil => simp [lastWrite]
  | cons w ws ih => rw [List.cons_append, lastWrite, ih, lastWrite, Option.or_assoc]

/-- The last write of a sequence of batches is the last write of the last batch to have one. -/
theorem lastWrite_flatMap {I : Type*} (v : V) (f : I → List (V × A)) (is : List I) :
    lastWrite v (is.flatMap f) = (is.filterMap fun i => lastWrite v (f i)).getLast? := by
  induction is with
  | nil => rfl
  | cons i is ih =>
      rw [List.flatMap_cons, lastWrite_append, ih]
      cases hi : lastWrite v (f i) with
      | none => simp [hi]
      | some a =>
          simp only [List.filterMap_cons, hi, List.getLast?_cons]
          cases (is.filterMap fun i => lastWrite v (f i)).getLast? <;> rfl

end LastWrite
