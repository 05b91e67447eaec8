import SoftBts.Lib.Octets

/-! Octets stored into arrays of fixed sizes: the stores of a computation in order, whether they are
all inside, and what an array holds after them. -/

namespace Arrays

open Octets

/-- An octet stored into an array. -/
structure Store (α : Type*) where
  array : α
  index : Nat
  octet : UInt8

variable {α : Type*}

/-- Octets stored one after another. -/
def storeOctets (a : α) (start : Nat) : List UInt8 → List (Store α)
  | [] => []
  | o :: os => ⟨a, start, o⟩ :: storeOctets a (start + 1) os

/-- A text stored with its terminator. -/
def sprintf (a : α) (start : Nat) (text : List UInt8) : List (Store α) :=
  storeOctets a start (text ++ [0])

/-- The string that starts at `off`, when it ends within `n` octets. -/
def stringAt (m : Mem) (off n : Nat) : List UInt8 := (m.load off n).takeWhile (· ≠ 0)

theorem stringAt_store (m : Mem) (off : Nat) {text : List UInt8} (h : 0 ∉ text) :
    stringAt (m.store off (text ++ [0])) off (text.length + 1) = text := by
  have hload : (m.store off (text ++ [0])).load off (text.length + 1) = text ++ [0] := by
    have hstored := Mem.load_store m off (text ++ [0])
    rwa [List.length_append] at hstored
  rw [stringAt, hload, List.takeWhile_append_of_pos]
  · simp
  · intro o ho
    exact decide_eq_true fun hzero => h (hzero ▸ ho)

/-! ### Stores inside the arrays -/

section Sizes

variable (size : α → Nat)

/-- Every store is inside its array. -/
def Inside (ws : List (Store α)) : Prop := ∀ w ∈ ws, w.index < size w.array

variable {size} {a : α} {start : Nat} {ws ws' : List (Store α)}

@[simp] theorem inside_nil : Inside size ([] : List (Store α)) := List.forall_mem_nil _

@[simp] theorem inside_cons {w : Store α} :
    Inside size (w :: ws) ↔ w.index < size w.array ∧ Inside size ws :=
  List.forall_mem_cons

@[simp] theorem inside_append :
    Inside size (ws ++ ws') ↔ Inside size ws ∧ Inside size ws' :=
  List.forall_mem_append

theorem inside_storeOctets_iff (os : List UInt8) :
    Inside size (storeOctets a start os) ↔ os = [] ∨ start + os.length ≤ size a := by
  induction os generalizing start with
  | nil => exact iff_of_true inside_nil (Or.inl rfl)
  | cons o os ih =>
      rw [storeOctets, inside_cons, ih, List.length_cons]
      constructor
      · rintro ⟨hhead, rfl | htail⟩
        · exact Or.inr hhead
        · right
          omega
      · rintro (hnil | hle)
        · cases hnil
        · refine ⟨by show start < size a; omega, Or.inr ?_⟩
          omega

theorem inside_sprintf_iff (text : List UInt8) :
    Inside size (sprintf a start text) ↔ start + text.length + 1 ≤ size a := by
  rw [sprintf, inside_storeOctets_iff, List.length_append, List.length_singleton, or_iff_right]
  · rw [Nat.add_assoc]
  · simp

end Sizes

/-! ### What the arrays hold -/

section Contents

variable [DecidableEq α]

/-- What an array holds after stores. -/
def contents (a : α) : Mem → List (Store α) → Mem
  | m, [] => m
  | m, w :: ws => contents a (if w.array = a then m.store w.index [w.octet] else m) ws

variable {a : α} {m : Mem}

theorem contents_append (ws ws' : List (Store α)) :
    contents a m (ws ++ ws') = contents a (contents a m ws) ws' := by
  induction ws generalizing m with
  | nil => rfl
  | cons w ws ih => exact ih

theorem contents_storeOctets (start : Nat) (os : List UInt8) :
    contents a m (storeOctets a start os) = m.store start os := by
  induction os generalizing m start with
  | nil =>
      funext i
      simp [contents, storeOctets, Mem.store]
  | cons o os ih =>
      rw [storeOctets, contents, if_pos rfl, ih]
      exact Mem.store_append m start [o] os

end Contents

end Arrays
