import Mathlib.Data.List.Basic

/-! Machines that answer each input with a list of outputs and move on, their runs, and the rules
the proofs about runs use: conditions on all steps, invariants of the state and the outputs so far,
and the unwinding rule that compares a run with the run of its low inputs alone. -/

namespace Reactive

/-- A machine: a state and an input give the next state and the outputs of the step. -/
structure Machine (σ ι ω : Type*) where
  step : σ → ι → σ × List ω

namespace Machine

variable {σ ι ω : Type*} (M : Machine σ ι ω)

/-- The state a run of inputs ends in. -/
def after : σ → List ι → σ
  | s, [] => s
  | s, i :: is => after (M.step s i).1 is

/-- Everything a run of inputs puts out, in order. -/
def outputs : σ → List ι → List ω
  | _, [] => []
  | s, i :: is => (M.step s i).2 ++ outputs (M.step s i).1 is

/-- Every step of the run meets `P`, a condition on the state before the step and its input. -/
def Meets (P : σ → ι → Prop) : σ → List ι → Prop
  | _, [] => True
  | s, i :: is => P s i ∧ Meets P (M.step s i).1 is

@[simp] theorem after_nil (s : σ) : M.after s [] = s := rfl

@[simp] theorem after_cons (s : σ) (i : ι) (is : List ι) :
    M.after s (i :: is) = M.after (M.step s i).1 is := rfl

@[simp] theorem outputs_nil (s : σ) : M.outputs s [] = [] := rfl

@[simp] theorem outputs_cons (s : σ) (i : ι) (is : List ι) :
    M.outputs s (i :: is) = (M.step s i).2 ++ M.outputs (M.step s i).1 is := rfl

@[simp] theorem meets_nil (P : σ → ι → Prop) (s : σ) : M.Meets P s [] := trivial

@[simp] theorem meets_cons (P : σ → ι → Prop) (s : σ) (i : ι) (is : List ι) :
    M.Meets P s (i :: is) ↔ P s i ∧ M.Meets P (M.step s i).1 is := Iff.rfl

instance decidableMeets {P : σ → ι → Prop} [∀ s i, Decidable (P s i)] :
    ∀ s is, Decidable (M.Meets P s is)
  | _, [] => .isTrue trivial
  | s, i :: is =>
      have : Decidable (M.Meets P (M.step s i).1 is) := decidableMeets (M.step s i).1 is
      inferInstanceAs (Decidable (P s i ∧ M.Meets P (M.step s i).1 is))

theorem outputs_append (s : σ) (is js : List ι) :
    M.outputs s (is ++ js) = M.outputs s is ++ M.outputs (M.after s is) js := by
  induction is generalizing s with
  | nil => rfl
  | cons i is ih => rw [List.cons_append, outputs_cons, outputs_cons, after_cons, ih, List.append_assoc]

theorem after_append (s : σ) (is js : List ι) :
    M.after s (is ++ js) = M.after (M.after s is) js := by
  induction is generalizing s with
  | nil => rfl
  | cons i is ih => exact ih _

/-- A run meets a condition when each of its steps does. -/
theorem meets_iff {P : σ → ι → Prop} {s : σ} {is : List ι} :
    M.Meets P s is ↔ ∀ pre i post, is = pre ++ i :: post → P (M.after s pre) i := by
  induction is generalizing s with
  | nil => simp
  | cons i is ih =>
      rw [meets_cons, ih]
      constructor
      · rintro ⟨hi, his⟩ pre j post heq
        cases pre with
        | nil =>
            obtain ⟨rfl, rfl⟩ := List.cons.inj heq
            exact hi
        | cons p pre =>
            obtain ⟨rfl, rfl⟩ := List.cons.inj heq
            exact his pre j post rfl
      · intro h
        exact ⟨h [] i is rfl, fun pre j post heq => h (i :: pre) j post (by rw [heq]; rfl)⟩

/-- All outputs of a run satisfy `Q` exactly when every step of it puts out only such outputs. -/
theorem forall_outputs_iff {Q : ω → Prop} {s : σ} {is : List ι} :
    (∀ o ∈ M.outputs s is, Q o) ↔ M.Meets (fun s i => ∀ o ∈ (M.step s i).2, Q o) s is := by
  induction is generalizing s with
  | nil => simp
  | cons i is ih =>
      rw [meets_cons, ← ih, outputs_cons]
      simp only [List.mem_append, or_imp, forall_and]

/-- Two conditions that agree on the states the run can reach are met by the same runs. -/
theorem meets_congr {P Q : σ → ι → Prop} (h : ∀ s i, P s i ↔ Q s i) {s : σ} {is : List ι} :
    M.Meets P s is ↔ M.Meets Q s is := by
  simp only [meets_iff, h]

/-- A run meets two conditions when it meets each of them. -/
theorem meets_and {P Q : σ → ι → Prop} {s : σ} {is : List ι} :
    M.Meets (fun s i => P s i ∧ Q s i) s is ↔ M.Meets P s is ∧ M.Meets Q s is := by
  induction is generalizing s with
  | nil => simp
  | cons i is ih =>
      rw [meets_cons, meets_cons, meets_cons, ih]
      exact and_and_and_comm

/-- In a run whose steps meet `A`, two conditions that agree on such steps are met together, where
what `A` keeps may be used. -/
theorem meets_congr_of {I : σ → Prop} {A P Q : σ → ι → Prop}
    (hkept : ∀ s i, I s → A s i → I (M.step s i).1) (h : ∀ s i, I s → A s i → (P s i ↔ Q s i))
    {s : σ} (hs : I s) {is : List ι} (hmeets : M.Meets A s is) :
    M.Meets P s is ↔ M.Meets Q s is := by
  induction is generalizing s with
  | nil => exact Iff.rfl
  | cons i is ih => exact and_congr (h s i hs hmeets.1) (ih (hkept s i hs hmeets.1) hmeets.2)

/-- **Invariant rule.** A relation between the outputs so far and the state, kept by every step that
meets `P`, holds after every run whose steps meet `P`. -/
theorem run_invariant {P : σ → ι → Prop} {R : List ω → σ → Prop}
    (hstep : ∀ out s i, R out s → P s i → R (out ++ (M.step s i).2) (M.step s i).1) {out : List ω}
    {s : σ} (hs : R out s) {is : List ι} (hmeets : M.Meets P s is) :
    R (out ++ M.outputs s is) (M.after s is) := by
  induction is generalizing out s with
  | nil => simpa using hs
  | cons i is ih =>
      have h := ih (hstep out s i hs hmeets.1) hmeets.2
      rwa [List.append_assoc] at h

/-- **Simulation rule.** Steps that keep two states related and put out the same make runs of the two
machines put out the same. -/
theorem simulation {τ : Type*} {N : Machine τ ι ω} {R : σ → τ → Prop}
    (hstep : ∀ s t i, R s t → R (M.step s i).1 (N.step t i).1 ∧ (M.step s i).2 = (N.step t i).2)
    {s : σ} {t : τ} (hst : R s t) (is : List ι) :
    R (M.after s is) (N.after t is) ∧ M.outputs s is = N.outputs t is := by
  induction is generalizing s t with
  | nil => exact ⟨hst, rfl⟩
  | cons i is ih =>
      obtain ⟨hR, hout⟩ := hstep s t i hst
      obtain ⟨hR', hout'⟩ := ih hR
      rw [outputs_cons, outputs_cons, hout, hout']
      exact ⟨hR', rfl⟩

/-- **Unwinding.** When a low step keeps two related states related and shows the same, and a high
step leaves the state related to what it was and shows nothing, a run shows what the run of its
low inputs alone shows, and ends in a related state. What a step has to meet, and what relates the
states, may depend on the inputs of the run so far. -/
theorem unwinding {P : List ι → σ → ι → Prop} {R : List ι → σ → σ → Prop} {low : ι → Bool}
    {vis : ω → Bool}
    (hlow : ∀ past s t i, R past s t → low i = true → P past s i →
      R (past ++ [i]) (M.step s i).1 (M.step t i).1 ∧
        (M.step s i).2.filter vis = (M.step t i).2.filter vis)
    (hhigh : ∀ past s t i, R past s t → low i = false → P past s i →
      R (past ++ [i]) (M.step s i).1 t ∧ (M.step s i).2.filter vis = [])
    {past : List ι} {s t : σ} (hst : R past s t) {is : List ι}
    (hmeets : ∀ pre i post, is = pre ++ i :: post → P (past ++ pre) (M.after s pre) i) :
    R (past ++ is) (M.after s is) (M.after t (is.filter low)) ∧
      (M.outputs s is).filter vis = (M.outputs t (is.filter low)).filter vis := by
  induction is generalizing past s t with
  | nil =>
      rw [List.append_nil]
      exact ⟨hst, rfl⟩
  | cons i is ih =>
      have hi : P past s i := by simpa using hmeets [] i is rfl
      have his : ∀ pre j post, is = pre ++ j :: post →
          P (past ++ [i] ++ pre) (M.after (M.step s i).1 pre) j := by
        rintro pre j post rfl
        simpa using hmeets (i :: pre) j post rfl
      rw [List.append_cons]
      cases hl : low i with
      | true =>
          obtain ⟨hR, hout⟩ := hlow past s t i hst hl hi
          obtain ⟨hR', hout'⟩ := ih hR his
          rw [List.filter_cons_of_pos hl]
          simp only [after_cons, outputs_cons, List.filter_append, hout, hout']
          exact ⟨hR', trivial⟩
      | false =>
          obtain ⟨hR, hout⟩ := hhigh past s t i hst hl hi
          obtain ⟨hR', hout'⟩ := ih hR his
          rw [List.filter_cons_of_neg (by simp [hl])]
          simp only [after_cons, outputs_cons, List.filter_append, hout, hout', List.nil_append]
          exact ⟨hR', trivial⟩

end Machine

end Reactive
