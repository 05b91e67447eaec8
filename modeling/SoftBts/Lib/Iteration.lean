import SoftBts.Lib.IntrusiveList

/-! Iterations over circular lists whose body may change the list, as C writes them: one that reads
the pointer to the next entry after the body, and one that notes it before the body; each body may
start its iteration again. The rules say when an iteration comes to its end without following a
poisoned pointer, or stops at an entry for which the body has no result. What iterations that serve
entries come to is `Serves`: the first entry of the list that is due is served, again and again. -/

namespace IntrusiveList

variable {σ α : Type*} [DecidableEq α]

section Loops

variable (links : σ → Links α) (head : α) (body : α → σ → Option (σ × Bool))

/-- The iteration that reads the next entry after the body. There is no result where a poisoned
pointer is followed, where the body has none, or where the steps do not suffice. -/
def forEach : ℕ → α → σ → Option σ
  | 0, _, _ => none
  | n + 1, pos, s =>
      if pos = head then some s
      else
        (body pos s).bind fun r =>
          ((links r.1).next (if r.2 then head else pos)).bind fun next => forEach n next r.1

/-- The iteration that has noted the next entry before the body. -/
def forEachSafe : ℕ → α → Option α → σ → Option σ
  | 0, _, _, _ => none
  | n + 1, pos, noted, s =>
      if pos = head then some s
      else
        (body pos s).bind fun r =>
          (if r.2 then (links r.1).next head else noted).bind fun next =>
            forEachSafe n next ((links r.1).next next) r.1

end Loops

variable {links : σ → Links α} {head : α} {body : α → σ → Option (σ × Bool)}

omit [DecidableEq α] in
/-- Where a round goes on before some entries: at the first of them, or at the head. -/
theorem exists_next (xs : List α) (head : α) : ∃ next, (xs ++ [head]).head? = some next := by
  cases xs <;> exact ⟨_, rfl⟩

section Safe

/-- How a body may leave the iteration when the entries of `rest` are still to come: it starts again
with less to do, it goes on, or it goes on and has added entries behind one that was noted. -/
inductive Goes (Inv : σ → List α → List α → Prop) (work : σ → ℕ) (s : σ) (rest : List α) :
    σ → Bool → Prop where
  | again {s' : σ} (xs : List α) (hless : work s' < work s) (hinv : Inv s' [] xs) :
      Goes Inv work s rest s' true
  | on {s' : σ} (before : List α) (hle : work s' ≤ work s) (hinv : Inv s' before rest) :
      Goes Inv work s rest s' false
  | grown {s' : σ} (before new : List α) (hrest : rest ≠ []) (hless : work s' < work s)
      (hinv : Inv s' before (rest ++ new)) : Goes Inv work s rest s' false

/-- How an iteration comes out, however many steps it may take: it is at its end, or it has stopped at
an entry for which the body has no result. -/
inductive ComesOut (Inv : σ → List α → List α → Prop) (body : α → σ → Option (σ × Bool))
    (run : ℕ → Option σ) : Prop where
  | ended (n : ℕ) {s : σ} {before : List α} (hrun : ∀ m, n ≤ m → run m = some s)
      (hinv : Inv s before [])
  | stopped {s : σ} {before rest : List α} {x : α} (hrun : ∀ m, run m = none)
      (hinv : Inv s before (x :: rest)) (hbody : body x s = none)

omit [DecidableEq α] in
/-- A step before does not change how it comes out. -/
theorem ComesOut.step {Inv : σ → List α → List α → Prop} {run run' : ℕ → Option σ}
    (h : ComesOut Inv body run) (hzero : run' 0 = none) (hsucc : ∀ m, run' (m + 1) = run m) :
    ComesOut Inv body run' := by
  cases h with
  | ended n hrun hinv =>
      refine .ended (n + 1) (fun m hm => ?_) hinv
      obtain ⟨m, rfl⟩ := Nat.exists_eq_add_of_le' (Nat.le_of_add_left_le hm)
      rw [hsucc]
      exact hrun m (by omega)
  | stopped hrun hinv hbody =>
      refine .stopped (fun m => ?_) hinv hbody
      cases m with
      | zero => exact hzero
      | succ m => rw [hsucc, hrun]

/-- The rule for the iteration from any entry on. -/
theorem forEachSafe_from {Inv : σ → List α → List α → Prop} {work : σ → ℕ}
    (hrep : ∀ s before rest, Inv s before rest → Represents (links s) head (before ++ rest))
    (hbody : ∀ s before x rest, Inv s before (x :: rest) → body x s = none ∨
      ∃ s' again, body x s = some (s', again) ∧ Goes Inv work s rest s' again) (k : ℕ) :
    ∀ (rest before : List α) (s : σ) (pos : α) (noted : Option α), work s ≤ k →
      Inv s before rest → (rest ++ [head]).head? = some pos →
      (∀ x after, rest = x :: after → noted = (after ++ [head]).head?) →
        ComesOut Inv body fun m => forEachSafe links head body m pos noted s := by
  induction k using Nat.strongRecOn with
  | _ k ihk =>
  -- the entry at which the iteration goes on, when less is left to do
  have hless : ∀ (rest before : List α) (s : σ) (pos : α), work s < k → Inv s before rest →
      (rest ++ [head]).head? = some pos →
      ComesOut Inv body fun m => forEachSafe links head body m pos ((links s).next pos) s := by
    intro rest before s pos hk hinv hpos
    refine ihk (work s) hk rest before s pos _ (Nat.le_refl _) hinv hpos ?_
    rintro x after rfl
    obtain rfl : x = pos := Option.some.inj hpos
    exact (hrep s before _ hinv).next
  intro rest
  induction rest with
  | nil =>
      intro before s pos noted _ hinv hpos _
      obtain rfl : head = pos := Option.some.inj hpos
      refine .ended 1 (fun m hm => ?_) hinv
      obtain ⟨m, rfl⟩ := Nat.exists_eq_add_of_le' hm
      simp [forEachSafe]
  | cons x rest ih =>
      intro before s pos noted hk hinv hpos hnoted
      obtain rfl : x = pos := Option.some.inj hpos
      have hx : x ≠ head := by
        rintro rfl
        exact (hrep s before _ hinv).head_not_mem (List.mem_append_right before List.mem_cons_self)
      rcases hbody s before x rest hinv with hnone | ⟨s', again, hresult, hgoes⟩
      · refine .stopped (fun m => ?_) hinv hnone
        cases m with
        | zero => rfl
        | succ m => simp [forEachSafe, hx, hnone]
      -- one step, and what is left
      have hstep : ∀ next, (if again then (links s').next head else noted) = some next →
          (ComesOut Inv body fun m =>
            forEachSafe links head body m next ((links s').next next) s') →
          ComesOut Inv body fun m => forEachSafe links head body m x noted s := by
        intro next hnext hout
        refine hout.step rfl fun m => ?_
        simp only [forEachSafe, if_neg hx, hresult, Option.bind_some, hnext]
      cases hgoes with
      | again xs hlt hinv' =>
          have hhead := (hrep s' [] xs hinv').next_head
          obtain ⟨next, hnext⟩ := exists_next xs head
          exact hstep next (hhead.trans hnext) (hless xs [] s' next (by omega) hinv' hnext)
      | on before' hle hinv' =>
          obtain ⟨next, hnext⟩ := exists_next rest head
          refine hstep next ((hnoted x rest rfl).trans hnext) ?_
          refine ih before' s' next _ (by omega) hinv' hnext ?_
          rintro y after rfl
          obtain rfl : y = next := Option.some.inj hnext
          exact (hrep s' before' _ hinv').next
      | grown before' new hrest hlt hinv' =>
          obtain ⟨next, after, rfl⟩ := List.exists_cons_of_ne_nil hrest
          exact hstep next (hnoted x (next :: after) rfl)
            (hless _ before' s' next (by omega) hinv' rfl)

variable (links) in
/-- **The iteration that notes the next entry** comes to its end or stops where the body does, with its
invariant. -/
theorem forEachSafe_comesOut {Inv : σ → List α → List α → Prop} {work : σ → ℕ}
    (hrep : ∀ s before rest, Inv s before rest → Represents (links s) head (before ++ rest))
    (hbody : ∀ s before x rest, Inv s before (x :: rest) → body x s = none ∨
      ∃ s' again, body x s = some (s', again) ∧ Goes Inv work s rest s' again)
    {s : σ} {xs : List α} (hinv : Inv s [] xs) :
    ∃ first, (links s).next head = some first ∧
      ComesOut Inv body fun m => forEachSafe links head body m first ((links s).next first) s := by
  have hhead := (hrep s [] xs hinv).next_head
  obtain ⟨first, hfirst⟩ := exists_next xs head
  refine ⟨first, hhead.trans hfirst, ?_⟩
  refine forEachSafe_from hrep hbody (work s) xs [] s first _ (Nat.le_refl _) hinv hfirst ?_
  rintro x after rfl
  obtain rfl : x = first := Option.some.inj hfirst
  exact (hrep s [] _ hinv).next

variable (links) in
/-- It comes to its end when the body always has a result. -/
theorem forEachSafe_rule {Inv : σ → List α → List α → Prop} {work : σ → ℕ}
    (hrep : ∀ s before rest, Inv s before rest → Represents (links s) head (before ++ rest))
    (hbody : ∀ s before x rest, Inv s before (x :: rest) →
      ∃ s' again, body x s = some (s', again) ∧ Goes Inv work s rest s' again)
    {s : σ} {xs : List α} (hinv : Inv s [] xs) :
    ∃ first n s' before, (links s).next head = some first ∧
      (∀ m, n ≤ m → forEachSafe links head body m first ((links s).next first) s = some s') ∧
        Inv s' before [] := by
  obtain ⟨first, hfirst, hout⟩ := forEachSafe_comesOut links hrep
    (fun s before x rest h => Or.inr (hbody s before x rest h)) hinv
  cases hout with
  | ended n hrun hinv' => exact ⟨first, n, _, _, hfirst, hrun, hinv'⟩
  | stopped _ hinv' hnone =>
      obtain ⟨s', again, hresult, -⟩ := hbody _ _ _ _ hinv'
      rw [hresult] at hnone
      cases hnone

end Safe

section Plain

/-- How a body may leave the iteration at an entry: it starts again with less to do, or it goes on and
leaves the entry where it is. -/
inductive Stays (Inv : σ → List α → List α → Prop) (work : σ → ℕ) (s : σ) (before : List α) (x : α)
    (rest : List α) : σ → Bool → Prop where
  | again {s' : σ} (xs : List α) (hless : work s' < work s) (hinv : Inv s' [] xs) :
      Stays Inv work s before x rest s' true
  | on {s' : σ} (hle : work s' ≤ work s) (hinv : Inv s' (before ++ [x]) rest) :
      Stays Inv work s before x rest s' false

/-- The rule for the iteration from any entry on. -/
theorem forEach_from {Inv : σ → List α → List α → Prop} {work : σ → ℕ}
    (hrep : ∀ s before rest, Inv s before rest → Represents (links s) head (before ++ rest))
    (hbody : ∀ s before x rest, Inv s before (x :: rest) →
      ∃ s' again, body x s = some (s', again) ∧ Stays Inv work s before x rest s' again) (k : ℕ) :
    ∀ (rest before : List α) (s : σ) (pos : α), work s ≤ k → Inv s before rest →
      (rest ++ [head]).head? = some pos →
        ∃ n s' xs, (∀ m, n ≤ m → forEach links head body m pos s = some s') ∧ Inv s' xs [] := by
  induction k using Nat.strongRecOn with
  | _ k ihk =>
  intro rest
  induction rest with
  | nil =>
      intro before s pos _ hinv hpos
      obtain rfl : head = pos := Option.some.inj hpos
      refine ⟨1, s, before, fun m hm => ?_, hinv⟩
      obtain ⟨m, rfl⟩ := Nat.exists_eq_add_of_le' hm
      simp [forEach]
  | cons x rest ih =>
      intro before s pos hk hinv hpos
      obtain rfl : x = pos := Option.some.inj hpos
      have hx : x ≠ head := by
        rintro rfl
        exact (hrep s before _ hinv).head_not_mem (List.mem_append_right before List.mem_cons_self)
      obtain ⟨s', again, hresult, hstays⟩ := hbody s before x rest hinv
      -- one step, and what is left
      have hstep : ∀ next, (links s').next (if again then head else x) = some next →
          (∃ n s'' xs, (∀ m, n ≤ m → forEach links head body m next s' = some s'') ∧
            Inv s'' xs []) →
          ∃ n s'' xs, (∀ m, n ≤ m → forEach links head body m x s = some s'') ∧
            Inv s'' xs [] := by
        rintro next hnext ⟨n, s'', xs, hrun, hend⟩
        refine ⟨n + 1, s'', xs, fun m hm => ?_, hend⟩
        obtain ⟨m, rfl⟩ := Nat.exists_eq_add_of_le' (Nat.le_of_add_left_le hm)
        simp only [forEach, if_neg hx, hresult, Option.bind_some, hnext]
        exact hrun m (by omega)
      cases hstays with
      | again xs hlt hinv' =>
          obtain ⟨next, hnext⟩ := exists_next xs head
          exact hstep next ((hrep s' [] xs hinv').next_head.trans hnext)
            (ihk (work s') (by omega) xs [] s' next (Nat.le_refl _) hinv' hnext)
      | on hle hinv' =>
          obtain ⟨next, hnext⟩ := exists_next rest head
          have hrep' := hrep s' (before ++ [x]) rest hinv'
          rw [List.append_assoc, List.singleton_append] at hrep'
          exact hstep next (hrep'.next.trans hnext)
            (ih (before ++ [x]) s' next (by omega) hinv' hnext)

variable (links) in
/-- **The iteration that reads the next entry after the body** comes to its end, with its
invariant. -/
theorem forEach_rule {Inv : σ → List α → List α → Prop} {work : σ → ℕ}
    (hrep : ∀ s before rest, Inv s before rest → Represents (links s) head (before ++ rest))
    (hbody : ∀ s before x rest, Inv s before (x :: rest) →
      ∃ s' again, body x s = some (s', again) ∧ Stays Inv work s before x rest s' again)
    {s : σ} {xs : List α} (hinv : Inv s [] xs) :
    ∃ first n s' ys, (links s).next head = some first ∧
      (∀ m, n ≤ m → forEach links head body m first s = some s') ∧ Inv s' ys [] := by
  obtain ⟨first, hfirst⟩ := exists_next xs head
  obtain ⟨n, s', ys, hrun, hend⟩ :=
    forEach_from hrep hbody (work s) xs [] s first (Nat.le_refl _) hinv hfirst
  exact ⟨first, n, s', ys, (hrep s [] xs hinv).next_head.trans hfirst, hrun, hend⟩

end Plain

section Serving

variable (links : σ → Links α) (head : α) (due : σ → α → Bool) (serve : α → σ → Option σ)

/-- The first entry of the list that is due is served, again and again: the entries served. -/
inductive Serves (s : σ) : List α → σ → Prop where
  | refl : Serves s [] s
  | step {xs : List α} {s' s'' : σ} {before after : List α} {x : α} (hserves : Serves s xs s')
      (hrep : Represents (links s') head (before ++ x :: after))
      (hbefore : ∀ y ∈ before, due s' y = false) (hx : due s' x = true)
      (hserve : serve x s' = some s'') : Serves s (xs ++ [x]) s''

/-- Entries are served until none is due. -/
structure Drains (s : σ) (xs : List α) (s' : σ) : Prop where
  serves : Serves links head due serve s xs s'
  listed : ∃ ys, Represents (links s') head ys ∧ ∀ y ∈ ys, due s' y = false

variable {links head due serve}

omit [DecidableEq α] in
/-- What each service keeps holds of the entries served and the state they leave. -/
theorem Serves.invariant {P : List α → σ → Prop} {s : σ} (hs : P [] s)
    (hstep : ∀ xs s' s'' before x after, P xs s' → Represents (links s') head (before ++ x :: after) →
      (∀ y ∈ before, due s' y = false) → due s' x = true → serve x s' = some s'' →
        P (xs ++ [x]) s'') {xs : List α} {s' : σ} (h : Serves links head due serve s xs s') :
    P xs s' := by
  induction h with
  | refl => exact hs
  | step _ hrep hbefore hx hserve ih => exact hstep _ _ _ _ _ _ ih hrep hbefore hx hserve

end Serving

end IntrusiveList
