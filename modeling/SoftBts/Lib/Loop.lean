import Mathlib.Data.Nat.Notation

/-! While loops whose test and body may fail: a bounded number of turns, after which the loop counts
as one that hangs, and the rule that follows such a loop by a function on abstract values. What a
computation gives when it does not fail is stated with `Gives`, which has a rule for each way of putting
computations together. -/

namespace Loop

variable {ε σ τ : Type*}

/-- A step that does not fail, and the steps after it. -/
theorem bind_ok {α β ε : Type*} {x : Except ε α} {f : α → Except ε β} {a : α} (h : x = .ok a) :
    Except.bind x f = f a := by
  rw [h]
  rfl

/-- `while (cond) body`, which fails with `hang` when its turns are used up. -/
def loop (hang : ε) (cond : σ → Except ε Bool) (body : σ → Except ε σ) : ℕ → σ → Except ε σ
  | 0, _ => .error hang
  | n + 1, s =>
      (cond s).bind fun c =>
        if c then (body s).bind fun s' => loop hang cond body n s' else .ok s

variable {hang : ε} {cond : σ → Except ε Bool} {body : σ → Except ε σ}

theorem loop_stop {s : σ} (h : cond s = .ok false) (n : ℕ) :
    loop hang cond body (n + 1) s = .ok s := by
  simp [loop, h, Except.bind]

theorem loop_turn {s s' : σ} (h : cond s = .ok true) (h' : body s = .ok s') (n : ℕ) :
    loop hang cond body (n + 1) s = loop hang cond body n s' := by
  simp [loop, h, h', Except.bind]

/-- A body that leaves a state as it is makes the loop hang there. -/
theorem loop_stuck {s : σ} (h : cond s = .ok true) (h' : body s = .ok s) (n : ℕ) :
    loop hang cond body n s = .error hang := by
  induction n with
  | zero => rfl
  | succ n ih => rw [loop_turn h h', ih]

/-- **Rule for loops.** The states follow abstract values `z`: the test is `c`, a turn is `f`, and
`m` gets less. The loop ends where `g` says, which is what `f` leaves unchanged while `c` holds. -/
theorem loop_follows {R : σ → τ → Prop} {c : τ → Bool} {f g : τ → τ} (m : τ → ℕ)
    (hcond : ∀ s z, R s z → cond s = .ok (c z))
    (hbody : ∀ s z, R s z → c z = true → ∃ s', body s = .ok s' ∧ R s' (f z))
    (hless : ∀ z, c z = true → m (f z) < m z) (hturn : ∀ z, c z = true → g (f z) = g z)
    (hstop : ∀ z, c z = false → g z = z) {s : σ} {z : τ} (h : R s z) {n : ℕ} (hn : m z < n) :
    ∃ s', loop hang cond body n s = .ok s' ∧ R s' (g z) := by
  induction n generalizing s z with
  | zero => cases hn
  | succ n ih =>
      cases hc : c z with
      | false =>
          have htest := hcond s z h
          rw [hc] at htest
          rw [hstop z hc]
          exact ⟨s, loop_stop htest n, h⟩
      | true =>
          have htest := hcond s z h
          rw [hc] at htest
          obtain ⟨s', hresult, h'⟩ := hbody s z h hc
          rw [loop_turn htest hresult, ← hturn z hc]
          exact ih h' (Nat.lt_of_lt_of_le (hless z hc) (Nat.le_of_lt_succ hn))

/-! ### What a computation gives -/

variable {α β : Type*} {Q : α → Prop} {R : β → Prop}

/-- If the computation does not fail, its result satisfies `Q`. -/
def Gives (x : Except ε α) (Q : α → Prop) : Prop := ∀ a, x = .ok a → Q a

theorem Gives.ok {a : α} (h : Q a) : Gives (.ok a : Except ε α) Q := by
  rintro a' ⟨⟩
  exact h

theorem Gives.error (f : ε) : Gives (.error f) Q := by
  rintro a ⟨⟩

theorem Gives.bind {x : Except ε α} {f : α → Except ε β} (h : Gives x Q) (hf : ∀ a, Q a → Gives (f a) R) :
    Gives (x.bind f) R := by
  intro b hb
  cases x with
  | error e => cases hb
  | ok a => exact hf a (h a rfl) b hb

/-- Whatever the first computation gives. -/
theorem Gives.after {x : Except ε α} {f : α → Except ε β} (hf : ∀ a, Gives (f a) R) :
    Gives (x.bind f) R :=
  Gives.bind (Q := fun _ => True) (fun _ _ => trivial) fun a _ => hf a

theorem Gives.map {x : Except ε α} {f : α → β} (h : Gives x Q) (hf : ∀ a, Q a → R (f a)) :
    Gives (x.map f) R := by
  intro b hb
  cases x with
  | error e => cases hb
  | ok a =>
      obtain rfl := Except.ok.inj hb
      exact hf a (h a rfl)

theorem Gives.ite {p : Prop} [Decidable p] {x y : Except ε α} (hx : p → Gives x Q)
    (hy : ¬p → Gives y Q) : Gives (if p then x else y) Q := by
  split
  · exact hx ‹_›
  · exact hy ‹_›

/-- **Invariant rule for loops.** What the body keeps, the loop keeps. -/
theorem Gives.loop {P : σ → Prop} (hbody : ∀ s, P s → Gives (body s) P) {s : σ} (hs : P s) (n : ℕ) :
    Gives (loop hang cond body n s) P := by
  induction n generalizing s with
  | zero => exact .error hang
  | succ n ih =>
      refine Gives.after fun c => .ite (fun _ => ?_) fun _ => .ok hs
      exact Gives.bind (hbody s hs) fun s' hs' => ih hs'

/-- Steps that keep `P` keep it one after the other. -/
theorem Gives.foldlM {ι : Type*} {P : σ → Prop} {f : σ → ι → Except ε σ}
    (hstep : ∀ s i, P s → Gives (f s i) P) {s : σ} (hs : P s) (is : List ι) :
    Gives (is.foldlM f s) P := by
  induction is generalizing s with
  | nil => exact .ok hs
  | cons i is ih =>
      rw [List.foldlM_cons]
      exact Gives.bind (hstep s i hs) fun s' hs' => ih hs'

end Loop
