import SoftBts.Lib.Iteration

/-! The loop of `select.c` over any sockets and callbacks: a call of `socket_select_main` comes to its
end unless a callback does not return, follows no poisoned pointer, and comes to the same as serving the
first ready socket of the list again and again. The callbacks may take their own socket out of the list,
or more than one socket; taking out just one other socket that was there before is what the hack with
`unregistered_count` does not cover. -/

namespace SoftBts

open IntrusiveList

/-- SOCKET_FD_READ, SOCKET_FD_WRITE and SOCKET_FD_EXCEPT. -/
structure Flags where
  read : Bool
  write : Bool
  except : Bool
  deriving DecidableEq

namespace Flags

def none : Flags := ⟨false, false, false⟩

def any (f : Flags) : Bool := f.read || f.write || f.except

def union (f g : Flags) : Flags := ⟨f.read || g.read, f.write || g.write, f.except || g.except⟩

def inter (f g : Flags) : Flags := ⟨f.read && g.read, f.write && g.write, f.except && g.except⟩

@[simp] theorem any_none : none.any = false := rfl

theorem any_of_inter {f g : Flags} (h : (f.inter g).any = true) : f.any = true := by
  simp only [any, inter, Bool.or_eq_true, Bool.and_eq_true] at h ⊢
  tauto

end Flags

/-- The three sets of descriptors of a call of select(). -/
abbrev FdSets := Int → Flags

/-- FD_CLR in the sets where the descriptor is. -/
def FdSets.clear (sets : FdSets) (fd : Int) : FdSets := Function.update sets fd Flags.none

theorem FdSets.any_clear_iff {sets : FdSets} {fd d : Int} :
    (sets.clear fd d).any = true ↔ d ≠ fd ∧ (sets d).any = true := by
  by_cases heq : d = fd
  · subst heq
    rw [clear, Function.update_self]
    exact iff_of_false Bool.false_ne_true fun h => h.1 rfl
  · rw [clear, Function.update_of_ne heq]
    exact (and_iff_right heq).symm

/-- `struct socket_fd`, as the loop reads it. -/
structure SocketFd where
  fd : Int
  type : Flags

/-- What the loop works on: the list, the sockets, their callbacks, which return the number of sockets
they have taken out of the list, and the timers. There is no result where a callback does not return
or C leaves what it does undefined. -/
structure Program (σ α : Type*) where
  head : α
  links : σ → Links α
  socket : σ → α → SocketFd
  cb : α → Flags → σ → Option (σ × ℕ)
  updateTimers : σ → Option σ

/-- What select() gives: its result, and the descriptors that are ready. -/
structure SelectCall where
  rc : Int
  ready : FdSets

/-- The variables of the loop: the sets, the state of the program, `unregistered_count` and `work`. -/
structure Pass (σ : Type*) where
  sets : FdSets
  world : σ
  unregisteredCount : ℕ
  work : Bool

namespace Program

variable {σ α : Type*} [DecidableEq α] (p : Program σ α)

/-- FD_SET for what a socket waits for. -/
def setFlags (s : σ) (sets : FdSets) (x : α) : FdSets :=
  Function.update sets (p.socket s x).fd ((sets (p.socket s x).fd).union (p.socket s x).type)

/-- The sets that select() is called with, for the sockets of the list. -/
def requested (s : σ) (xs : List α) : FdSets := xs.foldl (p.setFlags s) fun _ => Flags.none

/-- The sets that select() leaves. -/
def readySets (c : SelectCall) (s : σ) (xs : List α) : FdSets :=
  fun fd => (p.requested s xs fd).inter (c.ready fd)

/-- The flags of a socket. -/
def flags (q : FdSets × σ) (x : α) : Flags := q.1 (p.socket q.2 x).fd

/-- The callback of a socket, after its descriptor is taken out of the sets. -/
def serve (x : α) (q : FdSets × σ) : Option ((FdSets × σ) × ℕ) :=
  (p.cb x (p.flags q x) q.2).map fun r => ((q.1.clear (p.socket q.2 x).fd, r.1), r.2)

/-- The body of the loop of `socket_select_main`; true where it goes to `restart`. -/
def body (x : α) (q : Pass σ) : Option (Pass σ × Bool) :=
  (if (p.flags (q.sets, q.world) x).any then
      (p.serve x (q.sets, q.world)).map fun r =>
        (⟨r.1.1, r.1.2, q.unregisteredCount + r.2, true⟩ : Pass σ)
    else some q).map fun q =>
      if 1 < q.unregisteredCount then ({ q with unregisteredCount := 0 }, true) else (q, false)

/-- `socket_select_main` from the label `restart` on, with `work`; the number bounds the steps. -/
def callCallbacks (n : ℕ) (sets : FdSets) (s : σ) : Option (σ × Bool) :=
  ((p.links s).next p.head).bind fun first =>
    (forEachSafe (fun q : Pass σ => p.links q.world) p.head p.body n first
      ((p.links s).next first) ⟨sets, s, 0, false⟩).map fun q => (q.world, q.work)

/-- `socket_select_main` -/
def socketSelectMain (n : ℕ) (c : SelectCall) (s : σ) : Option (σ × Bool) :=
  if c.rc < 0 then some (s, false)
  else
    (p.updateTimers s).bind fun s' =>
      p.callCallbacks n (p.readySets c s ((p.links s).walk p.head n p.head)) s'

/-- The first ready socket has been served, again and again: the sockets served. -/
abbrev HasServed (q : FdSets × σ) (xs : List α) (q' : FdSets × σ) : Prop :=
  Serves (fun q => p.links q.2) p.head (fun q x => (p.flags q x).any)
    (fun x q => (p.serve x q).map Prod.fst) q xs q'

/-- What is to be done: the sets and the state of the program. -/
def Drained (q : FdSets × σ) (xs : List α) (q' : FdSets × σ) : Prop :=
  Drains (fun q => p.links q.2) p.head (fun q x => (p.flags q x).any)
    (fun x q => (p.serve x q).map Prod.fst) q xs q'

/-- The first ready socket is one whose callback does not return. -/
structure StuckAt (q : FdSets × σ) (x : α) : Prop where
  first : ∃ before after, Represents (p.links q.2) p.head (before ++ x :: after) ∧
    ∀ y ∈ before, (p.flags q y).any = false
  ready : (p.flags q x).any = true
  stuck : p.serve x q = none

/-- What a callback has done to the list, by the number of sockets it has taken out: those that were
there are still there, or all but its own, or it has taken out more than one. -/
inductive Rearranged (x : α) (xs : List α) : ℕ → List α → Prop where
  | kept {k : ℕ} (new : List α) : Rearranged x xs k (xs ++ new)
  | own (new : List α) : Rearranged x xs 1 (xs.erase x ++ new)
  | many {k : ℕ} {ys : List α} (hk : 1 < k) : Rearranged x xs k ys

/-- A callback returns, keeps `I`, and takes none of the sockets that were there, its own, or more than
one out of the list; a socket that is ready after it was listed before it, with the same descriptor. -/
def Handles (I : FdSets → σ → Prop) (sets : FdSets) (s : σ) (xs : List α) (x : α) : Prop :=
  ∃ s' k ys, p.serve x (sets, s) = some ((sets.clear (p.socket s x).fd, s'), k) ∧
    I (sets.clear (p.socket s x).fd) s' ∧ Represents (p.links s') p.head ys ∧
    Rearranged x xs k ys ∧
    ∀ y ∈ ys, (p.flags (sets.clear (p.socket s x).fd, s') y).any = true →
      y ∈ xs ∧ (p.socket s' y).fd = (p.socket s y).fd

/-- The callbacks of the listed sockets that are ready do so. -/
def Careful (I : FdSets → σ → Prop) : Prop :=
  ∀ sets s xs x, I sets s → Represents (p.links s) p.head xs → x ∈ xs →
    (p.flags (sets, s) x).any = true → p.Handles I sets s xs x

/-- They do so when they return. -/
def CarefulIfBack (I : FdSets → σ → Prop) : Prop :=
  ∀ sets s xs x, I sets s → Represents (p.links s) p.head xs → x ∈ xs →
    (p.flags (sets, s) x).any = true → p.serve x (sets, s) = none ∨ p.Handles I sets s xs x

/-! ### The sets -/

variable {p}

omit [DecidableEq α] in
/-- A bit of the sets that select() is called with. -/
theorem requested_bit {bit : Flags → Bool} (hnone : bit Flags.none = false)
    (hunion : ∀ f g, bit (f.union g) = (bit f || bit g)) (s : σ) (xs : List α) (fd : Int) :
    bit (p.requested s xs fd) = true ↔
      ∃ x ∈ xs, (p.socket s x).fd = fd ∧ bit (p.socket s x).type = true := by
  have hfold : ∀ sets : FdSets, bit (xs.foldl (p.setFlags s) sets fd) = true ↔
      bit (sets fd) = true ∨ ∃ x ∈ xs, (p.socket s x).fd = fd ∧ bit (p.socket s x).type = true := by
    induction xs with
    | nil => simp
    | cons x xs ih =>
        intro sets
        rw [List.foldl_cons, ih, setFlags]
        by_cases hfd : fd = (p.socket s x).fd
        · subst hfd
          rw [Function.update_self, hunion, Bool.or_eq_true]
          simp [or_assoc]
        · rw [Function.update_of_ne hfd]
          simp [Ne.symm hfd]
  rw [requested, hfold, hnone]
  simp

theorem any_union (f g : Flags) : (f.union g).any = (f.any || g.any) := by
  cases f
  cases g
  simp only [Flags.any, Flags.union]
  ac_rfl

omit [DecidableEq α] in
/-- A descriptor that is ready is one of the list. -/
theorem fd_mem_of_ready {c : SelectCall} {s : σ} {xs : List α} {fd : Int}
    (h : (p.readySets c s xs fd).any = true) : fd ∈ xs.map fun x => (p.socket s x).fd := by
  obtain ⟨x, hx, hfd, -⟩ :=
    (requested_bit Flags.any_none any_union s xs fd).mp (Flags.any_of_inter h)
  exact List.mem_map.mpr ⟨x, hx, hfd⟩

/-- The descriptors of a list that are in the sets. -/
def pending (fds : List Int) (sets : FdSets) : ℕ := fds.countP fun fd => (sets fd).any

theorem pending_clear_lt {fds : List Int} {sets : FdSets} {fd : Int} (hfd : (sets fd).any = true)
    (hmem : fd ∈ fds) : pending fds (sets.clear fd) < pending fds sets := by
  have hcleared : ¬ (sets.clear fd fd).any = true := fun h => (FdSets.any_clear_iff.mp h).1 rfl
  obtain ⟨ys, zs, rfl⟩ := List.append_of_mem hmem
  have hle : ∀ l : List Int, l.countP (fun d => (sets.clear fd d).any) ≤
      l.countP fun d => (sets d).any :=
    fun l => List.countP_mono_left fun d _ hd => (FdSets.any_clear_iff.mp hd).2
  rw [pending, pending, List.countP_append, List.countP_append, List.countP_cons, List.countP_cons,
    if_neg hcleared, if_pos hfd]
  exact Nat.add_lt_add_of_le_of_lt (hle ys) (Nat.lt_succ_of_le (hle zs))

/-! ### The loop -/

section Scan

variable {I : FdSets → σ → Prop} {fds : List Int} {start : FdSets × σ} {q : Pass σ}
  {before rest : List α} {x : α}

/-- The loop has come past some sockets of the list, none of which is ready, and what it has done so
far is to serve the first ready socket again and again. -/
structure Scanning (p : Program σ α) (I : FdSets → σ → Prop) (fds : List Int)
    (start : FdSets × σ) (q : Pass σ) (before rest : List α) : Prop where
  inv : I q.sets q.world
  listed : Represents (p.links q.world) p.head (before ++ rest)
  quiet : ∀ y ∈ before, (p.flags (q.sets, q.world) y).any = false
  within : ∀ fd, (q.sets fd).any = true → fd ∈ fds
  few : q.unregisteredCount ≤ 1
  served : ∃ xs, p.HasServed start xs (q.sets, q.world) ∧ (q.work = true ↔ xs ≠ [])

omit [DecidableEq α] in
theorem body_of_quiet (hfew : q.unregisteredCount ≤ 1)
    (hx : (p.flags (q.sets, q.world) x).any = false) : p.body x q = some (q, false) := by
  rw [body, if_neg (by simp [hx]), Option.map_some, if_neg (by omega)]

omit [DecidableEq α] in
theorem body_of_ready (hx : (p.flags (q.sets, q.world) x).any = true) {r : FdSets × σ} {k : ℕ}
    (hserve : p.serve x (q.sets, q.world) = some (r, k)) :
    p.body x q = some (if 1 < q.unregisteredCount + k then (⟨r.1, r.2, 0, true⟩, true)
      else (⟨r.1, r.2, q.unregisteredCount + k, true⟩, false)) := by
  rw [body, if_pos hx, hserve]
  rfl

omit [DecidableEq α] in
/-- A service adds the socket to those served. -/
theorem Scanning.serves (h : Scanning p I fds start q before (x :: rest))
    (hx : (p.flags (q.sets, q.world) x).any = true) {r : FdSets × σ} {k : ℕ}
    (hserve : p.serve x (q.sets, q.world) = some (r, k)) :
    ∃ xs, p.HasServed start xs r ∧ (true = true ↔ xs ≠ []) := by
  obtain ⟨xs, hxs, -⟩ := h.served
  refine ⟨xs ++ [x], hxs.step h.listed h.quiet hx ?_, by simp⟩
  show (p.serve x (q.sets, q.world)).map Prod.fst = some r
  rw [hserve]
  rfl

/-- A callback that has not taken out more than one socket leaves those that are still to come in their
place, with new ones behind them. -/
theorem Rearranged.split {k : ℕ} {ys : List α} (h : Rearranged x (before ++ x :: rest) k ys) (hk : k ≤ 1)
    (hnodup : (before ++ x :: rest).Nodup) :
    ∃ kept new, ys = kept ++ (rest ++ new) ∧ ∀ y ∈ kept, y ∈ before ++ [x] := by
  cases h with
  | kept new => exact ⟨before ++ [x], new, by simp, fun _ => id⟩
  | own new =>
      have hnot : x ∉ before := fun hx => List.disjoint_of_nodup_append hnodup hx List.mem_cons_self
      refine ⟨before, new, ?_, fun y hy => List.mem_append_left [x] hy⟩
      rw [List.erase_append_right _ hnot, List.erase_cons_head, List.append_assoc]
  | many hmany => omega

omit [DecidableEq α] in
/-- What the loop has come past is still not ready when `x` has been served. -/
theorem Scanning.quiet_served (h : Scanning p I fds start q before (x :: rest)) {s' : σ} {y : α}
    (hready : (p.flags (q.sets.clear (p.socket q.world x).fd, s') y).any = true →
      y ∈ before ++ x :: rest ∧ (p.socket s' y).fd = (p.socket q.world y).fd)
    (hpassed : y ∈ before ++ x :: rest → y ∈ before ++ [x]) :
    (p.flags (q.sets.clear (p.socket q.world x).fd, s') y).any = false := by
  rw [Bool.eq_false_iff]
  intro hany
  obtain ⟨hold, hfd⟩ := hready hany
  rw [flags, hfd] at hany
  obtain ⟨hne, hbit⟩ := FdSets.any_clear_iff.mp hany
  rcases List.mem_append.mp (hpassed hold) with hbefore | hsame
  · exact Bool.false_ne_true ((h.quiet y hbefore).symm.trans hbit)
  · rw [List.mem_singleton.mp hsame] at hne
    exact hne rfl

/-- One turn of the loop. -/
theorem body_scanning (hcareful : p.CarefulIfBack I)
    (h : Scanning p I fds start q before (x :: rest)) :
    p.body x q = none ∨ ∃ q' again, p.body x q = some (q', again) ∧
      Goes (Scanning p I fds start) (fun q => pending fds q.sets) q rest q' again := by
  cases hx : (p.flags (q.sets, q.world) x).any with
  | false =>
      refine Or.inr ⟨q, false, body_of_quiet h.few hx, .on (before ++ [x]) (Nat.le_refl _) ?_⟩
      refine ⟨h.inv, by simpa using h.listed, ?_, h.within, h.few, h.served⟩
      simpa [or_imp, forall_and] using ⟨h.quiet, hx⟩
  | true =>
      have hmem : x ∈ before ++ x :: rest := List.mem_append_right before List.mem_cons_self
      rcases hcareful q.sets q.world _ x h.inv h.listed hmem hx with
        hnone | ⟨s', k, ys, hserve, hinv, hys, hrearranged, hready⟩
      · exact Or.inl (by rw [body, if_pos hx, hnone]; rfl)
      right
      have hserved := h.serves hx hserve
      have hless := pending_clear_lt hx (h.within _ hx)
      have hwithin : ∀ fd, (q.sets.clear (p.socket q.world x).fd fd).any = true → fd ∈ fds :=
        fun fd hfd => h.within fd (FdSets.any_clear_iff.mp hfd).2
      by_cases hcount : 1 < q.unregisteredCount + k
      · refine ⟨_, true, by rw [body_of_ready hx hserve, if_pos hcount], .again ys hless ?_⟩
        exact ⟨hinv, hys, List.forall_mem_nil _, hwithin, Nat.zero_le 1, hserved⟩
      · refine ⟨_, false, by rw [body_of_ready hx hserve, if_neg hcount], ?_⟩
        have hfew : q.unregisteredCount + k ≤ 1 := Nat.le_of_not_lt hcount
        obtain ⟨kept, new, rfl, hkept⟩ :=
          hrearranged.split (by omega) (List.nodup_cons.mp h.listed.nodup).2
        by_cases hrest : rest = []
        · subst hrest
          refine .on (kept ++ new) (Nat.le_of_lt hless) ?_
          exact ⟨hinv, by simpa using hys,
            fun y hy => h.quiet_served (hready y (by simpa using hy)) id, hwithin, hfew, hserved⟩
        · refine .grown kept new hrest hless ?_
          exact ⟨hinv, hys, fun y hy => h.quiet_served (hready y (List.mem_append_left _ hy))
            fun _ => hkept y hy, hwithin, hfew, hserved⟩

omit [DecidableEq α] in
/-- Where the loop stops, the callback does not return. -/
theorem Scanning.stuckAt (h : Scanning p I fds start q before (x :: rest)) (hnone : p.body x q = none) :
    p.StuckAt (q.sets, q.world) x := by
  have hx : (p.flags (q.sets, q.world) x).any = true := by
    by_contra hquiet
    rw [body_of_quiet h.few (Bool.eq_false_iff.mpr hquiet)] at hnone
    cases hnone
  refine ⟨⟨before, rest, h.listed, h.quiet⟩, hx, ?_⟩
  rwa [body, if_pos hx, Option.map_eq_none_iff, Option.map_eq_none_iff] at hnone

/-- The callbacks that are called for some sets: the first ready socket has been served again and
again, until none is ready or the callback of one does not return. -/
theorem callCallbacks_comesOut (hcareful : p.CarefulIfBack I) {sets : FdSets} {s : σ} {xs : List α}
    (hxs : Represents (p.links s) p.head xs) (hinv : I sets s)
    (hfds : ∀ fd, (sets fd).any = true → fd ∈ fds) :
    (∃ n sets' served s', p.Drained (sets, s) served (sets', s') ∧ I sets' s' ∧
      ∀ m, n ≤ m → p.callCallbacks m sets s = some (s', decide (served ≠ []))) ∨
    ∃ served q x, p.HasServed (sets, s) served q ∧ I q.1 q.2 ∧ p.StuckAt q x ∧
      ∀ m, p.callCallbacks m sets s = none := by
  have hscan : Scanning p I fds (sets, s) ⟨sets, s, 0, false⟩ [] xs :=
    ⟨hinv, hxs, List.forall_mem_nil _, hfds, Nat.zero_le 1, ⟨[], .refl, by simp⟩⟩
  obtain ⟨first, hfirst, hout⟩ := forEachSafe_comesOut
    (fun q : Pass σ => p.links q.world) (fun _ _ _ h => Scanning.listed h)
    (fun _ _ _ _ h => body_scanning hcareful h) hscan
  have hcall : ∀ m, p.callCallbacks m sets s =
      (forEachSafe (fun q : Pass σ => p.links q.world) p.head p.body m first
        ((p.links s).next first) ⟨sets, s, 0, false⟩).map fun q => (q.world, q.work) := by
    intro m
    rw [callCallbacks, show (p.links s).next p.head = some first from hfirst, Option.bind_some]
  cases hout with
  | @ended n q before hrun hend =>
      obtain ⟨served, hserved, hwork⟩ := hend.served
      refine Or.inl ⟨n, q.sets, served, q.world, ⟨hserved, before, ?_, hend.quiet⟩, hend.inv,
        fun m hm => ?_⟩
      · simpa using hend.listed
      · have hdone : q.work = decide (served ≠ []) := by
          rw [Bool.eq_iff_iff, hwork, decide_eq_true_iff]
        rw [hcall, hrun m hm, Option.map_some, hdone]
  | @stopped q before rest x hrun hend hnone =>
      obtain ⟨served, hserved, -⟩ := hend.served
      refine Or.inr ⟨served, (q.sets, q.world), x, hserved, hend.inv, hend.stuckAt hnone,
        fun m => ?_⟩
      rw [hcall, hrun m, Option.map_none]

/-- When all callbacks return, they are called until no socket is ready. -/
theorem callCallbacks_drains (hcareful : p.Careful I) {sets : FdSets} {s : σ} {xs : List α}
    (hxs : Represents (p.links s) p.head xs) (hinv : I sets s)
    (hfds : ∀ fd, (sets fd).any = true → fd ∈ fds) :
    ∃ n sets' served s', p.Drained (sets, s) served (sets', s') ∧ I sets' s' ∧
      ∀ m, n ≤ m → p.callCallbacks m sets s = some (s', decide (served ≠ [])) := by
  rcases callCallbacks_comesOut (fun sets s xs x hI hrep hmem hx =>
    Or.inr (hcareful sets s xs x hI hrep hmem hx)) hxs hinv hfds with
    hends | ⟨served, q, x, -, hI, ⟨⟨before, after, hrep, -⟩, hx, hnone⟩, -⟩
  · exact hends
  · obtain ⟨s', k, ys, hserve, -⟩ :=
      hcareful q.1 q.2 _ x hI hrep (List.mem_append_right before List.mem_cons_self) hx
    rw [show q = (q.1, q.2) from rfl, hserve] at hnone
    cases hnone

/-- A call in which select() does not fail calls the callbacks for the sockets that it leaves. -/
theorem socketSelectMain_of_ready {c : SelectCall} (hrc : 0 ≤ c.rc) {s s' : σ} {xs : List α}
    (hxs : Represents (p.links s) p.head xs) (htimers : p.updateTimers s = some s') {n : ℕ}
    (hn : xs.length ≤ n) :
    p.socketSelectMain n c s = p.callCallbacks n (p.readySets c s xs) s' := by
  rw [socketSelectMain, if_neg (Int.not_lt.mpr hrc), htimers, Option.bind_some,
    walk_represents hxs, List.take_of_length_le hn]

end Scan

/-- Sockets that are taken out of the list when they are ready. -/
def closing : Program (Links ℕ) ℕ where
  head := 0
  links := id
  socket := fun _ x => ⟨x, ⟨true, false, false⟩⟩
  cb := fun x _ l => (l.del x).map fun l => (l, 1)
  updateTimers := some

theorem closing_careful : closing.Careful fun _ _ => True := by
  intro sets l xs x _ hrep hx _
  obtain ⟨l', hl', hrep'⟩ := del_represents hrep hx
  refine ⟨l', 1, xs.erase x, ?_, trivial, hrep', ?_, fun y hy _ => ⟨List.mem_of_mem_erase hy, rfl⟩⟩
  · show Option.map _ (Option.map _ (l.del x)) = _
    rw [show l.del x = some l' from hl']
    rfl
  · rw [← List.append_nil (xs.erase x)]
    exact .own []

end Program

end SoftBts
