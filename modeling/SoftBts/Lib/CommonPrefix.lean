import Mathlib.Data.List.Infix
import Mathlib.Data.List.TakeWhile

/-! The longest beginning that lists have in common, for two lists and along a chain of lists that are
compared with their neighbours. -/

namespace CommonPrefix

variable {α : Type*} [DecidableEq α]

/-- The length of the longest beginning of both lists. -/
def common : List α → List α → ℕ
  | a :: as, b :: bs => if a = b then common as bs + 1 else 0
  | _, _ => 0

theorem common_le_left (a b : List α) : common a b ≤ a.length := by
  induction a generalizing b with
  | nil => cases b <;> exact Nat.le_refl 0
  | cons x a ih =>
      cases b with
      | nil => exact Nat.zero_le _
      | cons y b =>
          rw [common]
          split
          · exact Nat.succ_le_succ (ih b)
          · exact Nat.zero_le _

/-- Beginnings of both lists are the beginnings of the longest one. -/
theorem prefix_common {p a b : List α} : p <+: a ∧ p <+: b ↔ p <+: a ∧ p.length ≤ common a b := by
  induction p generalizing a b with
  | nil => simp
  | cons x p ih =>
      cases a with
      | nil => simp
      | cons y a =>
          cases b with
          | nil => simp [common]
          | cons z b =>
              simp only [List.cons_prefix_cons, common, List.length_cons]
              constructor
              · rintro ⟨⟨rfl, ha⟩, rfl, hb⟩
                rw [if_pos rfl]
                exact ⟨⟨rfl, ha⟩, Nat.succ_le_succ (ih.mp ⟨ha, hb⟩).2⟩
              · rintro ⟨⟨rfl, ha⟩, hlen⟩
                split at hlen
                · rename_i heq
                  exact ⟨⟨rfl, ha⟩, heq, (ih.mpr ⟨ha, Nat.le_of_succ_le_succ hlen⟩).2⟩
                · cases hlen

/-- The shortest of the beginnings that neighbours have in common. -/
def chain : List (List α) → ℕ
  | a :: b :: [] => common a b
  | a :: b :: c :: l => min (common a b) (chain (b :: c :: l))
  | _ => 0

theorem chain_le (a b : List α) (l : List (List α)) : chain (a :: b :: l) ≤ a.length := by
  cases l with
  | nil => exact common_le_left a b
  | cons c l => exact (Nat.min_le_left _ _).trans (common_le_left a b)

/-- **Chains.** A beginning of the first list begins all lists of the chain exactly when it is not
longer than the beginnings that neighbours have in common. -/
theorem prefix_chain {p a : List α} (b : List α) (l : List (List α)) (ha : p <+: a) :
    (∀ s ∈ a :: b :: l, p <+: s) ↔ p.length ≤ chain (a :: b :: l) := by
  induction l generalizing a b with
  | nil =>
      have hpair := prefix_common (p := p) (a := a) (b := b)
      simpa [chain, ha] using hpair
  | cons c l ih =>
      have hpair := prefix_common (p := p) (a := a) (b := b)
      rw [chain, Nat.le_min, List.forall_mem_cons]
      constructor
      · rintro ⟨-, hrest⟩
        have hb := hrest b List.mem_cons_self
        exact ⟨(hpair.mp ⟨ha, hb⟩).2, (ih c hb).mp hrest⟩
      · rintro ⟨hlen, hchain⟩
        have hb := (hpair.mpr ⟨ha, hlen⟩).2
        exact ⟨ha, (ih c hb).mpr hchain⟩

end CommonPrefix
