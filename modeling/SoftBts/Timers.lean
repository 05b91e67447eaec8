import Mathlib.Data.List.Perm.Subperm
import Mathlib.Data.List.ReduceOption
import Mathlib.Data.Option.Basic
import SoftBts.Lib.Iteration

/-! The timers of `timer.c` over any run of its calls and of `update_timers`, whose callbacks may call
them too: a timer is in the list if and only if it is armed, a pass fires each timer at most once and
leaves none behind that is due, and select() sleeps until the earliest of them. -/

namespace SoftBts

open IntrusiveList

/-! ### Times -/

def microSeconds : BitVec 64 := 1000000

/-- `struct timeval`; both are `long`. -/
structure Timeval where
  sec : BitVec 64
  usec : BitVec 64
  deriving DecidableEq

namespace Timeval

def micros (t : Timeval) : BitVec 64 := t.sec * microSeconds + t.usec

/-- The division is that of `unsigned long long`. -/
def ofMicros (n : BitVec 64) : Timeval := ⟨n / microSeconds, n % microSeconds⟩

@[simp] theorem micros_ofMicros (n : BitVec 64) : (ofMicros n).micros = n := by
  apply BitVec.eq_of_toNat_eq
  have hsum : n.toNat / microSeconds.toNat * microSeconds.toNat + n.toNat % microSeconds.toNat =
      n.toNat := Nat.div_add_mod' _ _
  have hle : n.toNat / microSeconds.toNat * microSeconds.toNat ≤ n.toNat := Nat.div_mul_le_self _ _
  rw [micros, ofMicros, BitVec.toNat_add, BitVec.toNat_mul, BitVec.toNat_udiv, BitVec.toNat_umod,
    Nat.mod_eq_of_lt (Nat.lt_of_le_of_lt hle n.isLt), hsum, Nat.mod_eq_of_lt n.isLt]

end Timeval

/-- `TIME_SMALLER`, which equal times are too: it compares numbers with a sign. -/
def timeSmaller (left right : Timeval) : Bool := left.micros.sle right.micros

/-! ### The calls -/

/-- `struct timer_list` -/
structure TimerList where
  timeout : Timeval
  active : Bool
  handled : Bool
  inList : Bool

/-- The timers and `timer_list`; its head is `none`. -/
structure Timers (τ : Type*) where
  timer : τ → TimerList
  links : Links (Option τ)

/-- A call of `add_timer`, of `schedule_timer` with what its clock shows, or of `del_timer`. -/
inductive TimerCall (τ : Type*) where
  | add (x : τ)
  | schedule (x : τ) (now : Timeval) (seconds microseconds : BitVec 32)
  | del (x : τ)

def TimerCall.timer {τ : Type*} : TimerCall τ → τ
  | add x => x
  | schedule x _ _ _ => x
  | del x => x

def TimerList.setTimeout (timeout : Timeval) (t : TimerList) : TimerList :=
  { t with timeout := timeout }

variable {τ ω : Type*} [DecidableEq τ]

namespace Timers

def set (x : τ) (f : TimerList → TimerList) (s : Timers τ) : Timers τ :=
  { s with timer := Function.update s.timer x (f (s.timer x)) }

/-- The timers of the list, as a loop with so many steps meets them. -/
def entries (n : ℕ) (s : Timers τ) : List τ := (s.links.walk none n none).reduceOption

/-- `add_timer`; the number bounds the steps of its loop. -/
def addTimer (n : ℕ) (x : τ) (s : Timers τ) : Option (Timers τ) :=
  let s := s.set x fun t => { t with active := true }
  if x ∈ s.entries n then some s
  else (s.links.add (some x) none).map fun links =>
    { s.set x (fun t => { t with inList := true }) with links := links }

/-- `schedule_timer`; the sum is an `unsigned long long`, to which the delay is added with its sign. -/
def scheduleTimer (n : ℕ) (x : τ) (now : Timeval) (seconds microseconds : BitVec 32) (s : Timers τ) :
    Option (Timers τ) :=
  let currentTime := now.micros +
    (seconds.signExtend 64 * microSeconds + microseconds.signExtend 64)
  (s.set x (TimerList.setTimeout (.ofMicros currentTime))).addTimer n x

/-- `del_timer` -/
def delTimer (x : τ) (s : Timers τ) : Option (Timers τ) :=
  if (s.timer x).inList then
    (s.links.del (some x)).map fun links =>
      { s.set x (fun t => { t with active := false, inList := false }) with links := links }
  else some s

def call (n : ℕ) (c : TimerCall τ) (s : Timers τ) : Option (Timers τ) :=
  match c with
  | .add x => s.addTimer n x
  | .schedule x now seconds microseconds => s.scheduleTimer n x now seconds microseconds
  | .del x => s.delTimer x

/-! ### The time that select() sleeps -/

/-- The turn of the loop of `prepare_timers`. -/
def nearer (s : Timers τ) (nearest : Option τ) (x : τ) : Option τ :=
  match nearest with
  | none => some x
  | some y => if timeSmaller (s.timer x).timeout (s.timer y).timeout then some x else some y

/-- `prepare_timers`, which sets `s_nearest_time`. -/
def prepareTimers (n : ℕ) (s : Timers τ) : Timeval :=
  match (s.entries n).foldl s.nearer none with
  | some x => (s.timer x).timeout
  | none => ⟨0, 0⟩

end Timers

/-- `nearest_timer`, when gettimeofday() gives this. It compares numbers without a sign. -/
def nearestTimer (nearest : Timeval) (now : Option Timeval) : Option Timeval :=
  if nearest.sec = 0 ∧ nearest.usec = 0 then none
  else now.map fun now =>
    if nearest.micros < now.micros then ⟨0, 0⟩ else .ofMicros (nearest.micros - now.micros)

/-! ### `update_timers` -/

/-- What the callback of a timer does: the calls that it makes, one after another, and what it leaves
of the rest of the program. -/
abbrev TimerCallback (τ ω : Type*) := τ → Timers τ → ω → List (TimerCall τ) × ω

namespace Timers

/-- A timer is due in a pass. -/
def due (now : Timeval) (q : Timers τ × ω) (e : Option τ) : Bool :=
  e.any fun x => !(q.1.timer x).handled && timeSmaller (q.1.timer x).timeout now

/-- A timer is fired. -/
def fire (n : ℕ) (cb : TimerCallback τ ω) (e : Option τ) (q : Timers τ × ω) :
    Option (Timers τ × ω) :=
  e.bind fun x =>
    let s := q.1.set x fun t => { t with handled := true, active := false }
    ((cb x s q.2).1.foldlM (fun s c => call n c s) s).map fun s' => (s', (cb x s q.2).2)

/-- The body of the loop that fires the timers. -/
def fireBody (n : ℕ) (cb : TimerCallback τ ω) (now : Timeval) (e : Option τ) (q : Timers τ × ω) :
    Option ((Timers τ × ω) × Bool) :=
  if due now q e then (fire n cb e q).map fun q => (q, true) else some (q, false)

/-- The body of the loop that takes the timers out of the list. -/
def cleanBody (e : Option τ) (s : Timers τ) : Option (Timers τ × Bool) :=
  e.bind fun x =>
    let s := s.set x fun t => { t with handled := false }
    (if (s.timer x).active then some s else s.delTimer x).map fun s => (s, false)

/-- No timer of the list is handled, at the start of a pass. -/
def unhandled (n : ℕ) (s : Timers τ) : Timers τ :=
  (s.entries n).foldl (fun s x => s.set x fun t => { t with handled := false }) s

/-- `update_timers`; one number bounds the steps of the loops over the list in the calls, the other
those of the loops that may start again. -/
def updateTimers (n m : ℕ) (cb : TimerCallback τ ω) (now : Timeval) (q : Timers τ × ω) :
    Option (Timers τ × ω) :=
  let q := (q.1.unhandled n, q.2)
  (q.1.links.next none).bind fun first =>
    (forEach (fun q : Timers τ × ω => q.1.links) none (fireBody n cb now) m first q).bind fun q =>
      (q.1.links.next none).bind fun first =>
        (forEachSafe Timers.links none cleanBody m first (q.1.links.next first) q.1).map fun s =>
          (s, q.2)

@[simp] theorem set_links (x : τ) (f : TimerList → TimerList) (s : Timers τ) :
    (s.set x f).links = s.links := rfl

@[simp] theorem set_timer_self (x : τ) (f : TimerList → TimerList) (s : Timers τ) :
    (s.set x f).timer x = f (s.timer x) := Function.update_self ..

theorem set_timer_of_ne {x y : τ} (h : y ≠ x) (f : TimerList → TimerList) (s : Timers τ) :
    (s.set x f).timer y = s.timer y := Function.update_of_ne h ..

/-- A field that the assignment leaves alone. -/
theorem set_field {β : Type*} (get : TimerList → β) {f : TimerList → TimerList}
    (hf : ∀ t, get (f t) = get t) (x y : τ) (s : Timers τ) :
    get ((s.set x f).timer y) = get (s.timer y) := by
  by_cases hy : y = x
  · rw [hy, set_timer_self, hf]
  · rw [set_timer_of_ne hy]

/-! ### One call -/

/-- The flags and the list are in step; every timer is one of `K`. -/
structure Kept (K : List τ) (s : Timers τ) (xs : List τ) : Prop where
  listed : Represents s.links none (xs.map some)
  inList : ∀ x, (s.timer x).inList = true ↔ x ∈ xs
  active : ∀ x, (s.timer x).active = true → x ∈ xs
  within : ∀ x ∈ xs, x ∈ K

section Calls

variable {K xs : List τ} {s : Timers τ} {n : ℕ} {x : τ}

omit [DecidableEq τ] in
theorem Kept.nodup (h : Kept K s xs) : xs.Nodup :=
  List.Nodup.of_map some (List.nodup_cons.mp h.listed.nodup).2

/-- The loops over the list meet its timers. -/
theorem Kept.entries (h : Kept K s xs) (hn : K.length ≤ n) : s.entries n = xs := by
  have hlen : xs.length ≤ n := Nat.le_trans (h.nodup.subperm h.within).length_le hn
  rw [Timers.entries, walk_represents h.listed, List.take_of_length_le (by simpa using hlen),
    List.reduceOption, List.filterMap_map]
  exact List.filterMap_some

/-- An assignment to a timer that leaves `in_list` alone, and the list. -/
theorem Kept.set (h : Kept K s xs) {f : TimerList → TimerList} (hin : ∀ t, (f t).inList = t.inList)
    (hactive : (f (s.timer x)).active = true → x ∈ xs) : Kept K (s.set x f) xs where
  listed := h.listed
  inList := fun y => by
    rw [set_field TimerList.inList hin]
    exact h.inList y
  active := fun y hy => by
    by_cases hyx : y = x
    · subst hyx
      exact hactive (by rwa [set_timer_self] at hy)
    · rw [set_timer_of_ne hyx] at hy
      exact h.active y hy
  within := h.within

/-- What a call for the timer `x` comes to: nothing happens to the other timers, and `x` is armed if it
is in the list. -/
structure Called (K : List τ) (x : τ) (s s' : Timers τ) (xs xs' : List τ) : Prop where
  kept : Kept K s' xs'
  handled : ∀ y, (s'.timer y).handled = (s.timer y).handled
  frame : ∀ y, y ≠ x → s'.timer y = s.timer y ∧ (y ∈ xs' ↔ y ∈ xs)
  armed : x ∈ xs' → (s'.timer x).active = true

theorem addTimer_called (h : Kept K s xs) (hx : x ∈ K) (hn : K.length ≤ n) :
    ∃ s' xs', s.addTimer n x = some s' ∧ Called K x s s' xs xs' := by
  have hentries : (s.set x fun t => { t with active := true }).entries n = xs := h.entries hn
  rw [addTimer]
  simp only [hentries]
  split_ifs with hmem
  · refine ⟨_, xs, rfl, h.set (fun _ => rfl) fun _ => hmem, fun y => ?_, fun y hy => ?_, fun _ => ?_⟩
    · exact set_field TimerList.handled (by exact fun _ => rfl) x y s
    · exact ⟨set_timer_of_ne hy _ s, Iff.rfl⟩
    · rw [set_timer_self]
  · have hnot : some x ∉ none :: xs.map some := by simpa using hmem
    obtain ⟨links, hlinks, hrep⟩ := add_represents h.listed hnot
    simp only [set_links, hlinks, Option.map_some]
    refine ⟨_, x :: xs, rfl, ⟨hrep, fun y => ?_, fun y hy => ?_, ?_⟩, fun y => ?_, fun y hy => ?_,
      fun _ => ?_⟩
    · by_cases hy : y = x
      · subst hy
        simp
      · simp only [set_timer_of_ne hy, List.mem_cons, hy, false_or]
        exact h.inList y
    · by_cases hyx : y = x
      · rw [hyx]
        exact List.mem_cons_self
      · simp only [set_timer_of_ne hyx] at hy
        exact List.mem_cons_of_mem x (h.active y hy)
    · exact List.forall_mem_cons.mpr ⟨hx, h.within⟩
    · by_cases hy : y = x
      · subst hy
        simp
      · simp [set_timer_of_ne hy]
    · simp [set_timer_of_ne hy, hy]
    · simp

/-- A timer gets a new time and is armed. -/
theorem setTimeout_called (h : Kept K s xs) (hx : x ∈ K) (hn : K.length ≤ n) (timeout : Timeval) :
    ∃ s' xs', (s.set x (TimerList.setTimeout timeout)).addTimer n x = some s' ∧
      Called K x s s' xs xs' := by
  have hkept : Kept K (s.set x (TimerList.setTimeout timeout)) xs :=
    h.set (fun _ => rfl) (h.active x)
  obtain ⟨s', xs', hs', hcalled⟩ := addTimer_called hkept hx hn
  refine ⟨s', xs', hs', hcalled.kept, fun y => ?_, fun y hy => ?_, hcalled.armed⟩
  · rw [hcalled.handled]
    exact set_field TimerList.handled (by exact fun _ => rfl) x y s
  · rw [(hcalled.frame y hy).1, set_timer_of_ne hy]
    exact ⟨rfl, (hcalled.frame y hy).2⟩

theorem scheduleTimer_called (h : Kept K s xs) (hx : x ∈ K) (hn : K.length ≤ n) (now : Timeval)
    (seconds microseconds : BitVec 32) :
    ∃ s' xs', s.scheduleTimer n x now seconds microseconds = some s' ∧ Called K x s s' xs xs' :=
  setTimeout_called h hx hn _

theorem delTimer_called (h : Kept K s xs) :
    ∃ s', s.delTimer x = some s' ∧ Called K x s s' xs (xs.erase x) ∧
      (s'.timer x).active = false ∧ (s'.timer x).timeout = (s.timer x).timeout := by
  rw [delTimer]
  split_ifs with hin
  · have hmem := (h.inList x).mp hin
    obtain ⟨links, hlinks, hrep⟩ := del_represents h.listed (List.mem_map_of_mem hmem)
    have herase : ∀ y, y ∈ xs.erase x ↔ y ≠ x ∧ y ∈ xs := fun y => h.nodup.mem_erase_iff
    rw [← @List.map_erase τ (Option τ) _ _ instBEqOfDecidableEq _ some (Option.some_injective τ)]
      at hrep
    simp only [hlinks, Option.map_some]
    refine ⟨_, rfl, ⟨⟨hrep, fun y => ?_, fun y hy => ?_, ?_⟩, fun y => ?_, fun y hy => ?_,
      fun hx => ?_⟩, by simp, by simp⟩
    · by_cases hy : y = x
      · subst hy
        simp [herase]
      · simp only [set_timer_of_ne hy, herase, ne_eq, hy, not_false_eq_true, true_and]
        exact h.inList y
    · by_cases hyx : y = x
      · subst hyx
        simp at hy
      · simp only [set_timer_of_ne hyx] at hy
        exact (herase y).mpr ⟨hyx, h.active y hy⟩
    · exact fun y hy => h.within y ((herase y).mp hy).2
    · by_cases hy : y = x
      · subst hy
        simp
      · simp [set_timer_of_ne hy]
    · simp [set_timer_of_ne hy, herase, hy]
    · exact absurd rfl ((herase x).mp hx).1
  · have hnot : x ∉ xs := fun hmem => hin ((h.inList x).mpr hmem)
    rw [List.erase_of_not_mem hnot]
    exact ⟨s, rfl, ⟨h, fun _ => rfl, fun _ _ => ⟨rfl, Iff.rfl⟩, fun hx => absurd hx hnot⟩,
      Bool.eq_false_iff.mpr fun hactive => hnot (h.active x hactive), rfl⟩

/-- **A call** of the timer functions. -/
theorem call_called (h : Kept K s xs) {c : TimerCall τ} (hc : c.timer ∈ K) (hn : K.length ≤ n) :
    ∃ s' xs', s.call n c = some s' ∧ Called K c.timer s s' xs xs' := by
  cases c with
  | add x => exact addTimer_called h hc hn
  | schedule x now seconds microseconds =>
      exact scheduleTimer_called h hc hn now seconds microseconds
  | del x =>
      obtain ⟨s', hs', hcalled, -⟩ := delTimer_called (x := x) h
      exact ⟨s', xs.erase x, hs', hcalled⟩

end Calls

/-! ### One pass -/

/-- No callback makes a call for the timer. -/
def Untouched (cb : TimerCallback τ ω) (x : τ) : Prop :=
  ∀ y s w, ∀ c ∈ (cb y s w).1, c.timer ≠ x

section Pass

variable {K xs : List τ} {s : Timers τ} {q : Timers τ × ω} {n : ℕ} {cb : TimerCallback τ ω}
  {now : Timeval} {x : τ}

/-- The calls that a callback makes. -/
theorem calls_kept (h : Kept K s xs) (hn : K.length ≤ n) {cs : List (TimerCall τ)}
    (hcs : ∀ c ∈ cs, c.timer ∈ K) :
    ∃ s' xs', cs.foldlM (fun s c => call n c s) s = some s' ∧ Kept K s' xs' ∧
      (∀ y, (s'.timer y).handled = (s.timer y).handled) ∧
      ∀ y, (∀ c ∈ cs, c.timer ≠ y) → s'.timer y = s.timer y ∧ (y ∈ xs' ↔ y ∈ xs) := by
  induction cs generalizing s xs with
  | nil => exact ⟨s, xs, rfl, h, fun _ => rfl, fun _ _ => ⟨rfl, Iff.rfl⟩⟩
  | cons c cs ih =>
      obtain ⟨hc, hrest⟩ := List.forall_mem_cons.mp hcs
      obtain ⟨s₁, xs₁, hs₁, hcalled⟩ := call_called h hc hn
      obtain ⟨s₂, xs₂, hs₂, hkept, hhandled, hframe⟩ := ih hcalled.kept hrest
      refine ⟨s₂, xs₂, ?_, hkept, fun y => (hhandled y).trans (hcalled.handled y), fun y hy => ?_⟩
      · rw [List.foldlM_cons, hs₁]
        exact hs₂
      · obtain ⟨hne, hy⟩ := List.forall_mem_cons.mp hy
        obtain ⟨htimer₁, hmem₁⟩ := hcalled.frame y hne.symm
        obtain ⟨htimer₂, hmem₂⟩ := hframe y hy
        exact ⟨htimer₂.trans htimer₁, hmem₂.trans hmem₁⟩

/-- A timer of the list is fired. -/
theorem fire_kept (h : Kept K q.1 xs) (hcb : ∀ x s w, ∀ c ∈ (cb x s w).1, c.timer ∈ K)
    (hn : K.length ≤ n) :
    ∃ q' xs', fire n cb (some x) q = some q' ∧ Kept K q'.1 xs' ∧
      (∀ y, (q'.1.timer y).handled = if y = x then true else (q.1.timer y).handled) ∧
      ∀ y, Untouched cb y → (y ∈ xs' ↔ y ∈ xs) ∧
        (q'.1.timer y).timeout = (q.1.timer y).timeout ∧
        (q'.1.timer y).active = if y = x then false else (q.1.timer y).active := by
  set s := q.1.set x fun t => { t with handled := true, active := false } with hs
  have hkept : Kept K s xs := h.set (fun _ => rfl) fun hfalse => Bool.noConfusion hfalse
  obtain ⟨s', xs', hcalls, hkept', hhandled, hframe⟩ := calls_kept hkept hn (hcb x s q.2)
  refine ⟨(s', (cb x s q.2).2), xs', ?_, hkept', fun y => ?_, fun y hy => ?_⟩
  · show Option.map _ ((cb x s q.2).1.foldlM (fun s c => call n c s) s) = _
    rw [hcalls]
    rfl
  · rw [hhandled]
    split_ifs with hyx
    · rw [hyx, hs, set_timer_self]
    · rw [hs, set_timer_of_ne hyx]
  · obtain ⟨htimer, hmem⟩ := hframe y (hy x s q.2)
    refine ⟨hmem, ?_⟩
    rw [htimer]
    split_ifs with hyx
    · rw [hyx, hs, set_timer_self]
      exact ⟨rfl, rfl⟩
    · rw [hs, set_timer_of_ne hyx]
      exact ⟨rfl, rfl⟩

omit [DecidableEq τ] in
theorem due_some_iff : due now q (some x) = true ↔
    (q.1.timer x).handled = false ∧ timeSmaller (q.1.timer x).timeout now = true := by
  simp [due]

/-- The timers that are not handled. -/
def waiting (K : List τ) (s : Timers τ) : ℕ := K.countP fun x => !(s.timer x).handled

theorem waiting_lt {s' : Timers τ} (hx : x ∈ K) (hbefore : (s.timer x).handled = false)
    (h : ∀ y, (s'.timer y).handled = if y = x then true else (s.timer y).handled) :
    waiting K s' < waiting K s := by
  obtain ⟨ys, zs, rfl⟩ := List.append_of_mem hx
  have hle : ∀ l : List τ, l.countP (fun y => !(s'.timer y).handled) ≤
      l.countP fun y => !(s.timer y).handled := by
    refine fun l => List.countP_mono_left fun y _ hy => ?_
    rw [h] at hy
    split_ifs at hy
    · cases hy
    · exact hy
  have hafter : ¬ (!(s'.timer x).handled) = true := by simp [h]
  rw [waiting, waiting, List.countP_append, List.countP_append, List.countP_cons, List.countP_cons,
    if_neg hafter, if_pos (by simp [hbefore])]
  exact Nat.add_lt_add_of_le_of_lt (hle ys) (Nat.lt_succ_of_le (hle zs))

/-- The loop that fires the timers has come past some that are not due. -/
structure Firing (K : List τ) (n : ℕ) (cb : TimerCallback τ ω) (now : Timeval)
    (start q : Timers τ × ω) (before rest : List (Option τ)) : Prop where
  kept : ∃ xs, before ++ rest = xs.map some ∧ Kept K q.1 xs
  quiet : ∀ e ∈ before, due now q e = false
  fired : ∃ es, Serves (fun q : Timers τ × ω => q.1.links) none (due now) (fire n cb) start es q

theorem Firing.listed {start : Timers τ × ω} {before rest : List (Option τ)}
    (h : Firing K n cb now start q before rest) : Represents q.1.links none (before ++ rest) := by
  obtain ⟨xs, hxs, hkept⟩ := h.kept
  rw [hxs]
  exact hkept.listed

/-- One turn of the loop that fires the timers. -/
theorem fireBody_firing (hcb : ∀ x s w, ∀ c ∈ (cb x s w).1, c.timer ∈ K) (hn : K.length ≤ n)
    {start : Timers τ × ω} {before rest : List (Option τ)} {e : Option τ}
    (h : Firing K n cb now start q before (e :: rest)) :
    ∃ q' again, fireBody n cb now e q = some (q', again) ∧
      Stays (Firing K n cb now start) (fun q => waiting K q.1) q before e rest q' again := by
  have hlisted := h.listed
  obtain ⟨xs, hxs, hkept⟩ := h.kept
  rw [fireBody]
  cases hdue : due now q e with
  | false =>
      refine ⟨q, false, rfl, .on (Nat.le_refl _) ⟨⟨xs, by simpa using hxs, hkept⟩, ?_, h.fired⟩⟩
      simpa [or_imp, forall_and] using ⟨h.quiet, hdue⟩
  | true =>
      have he : e ∈ xs.map some := hxs ▸ List.mem_append_right before List.mem_cons_self
      obtain ⟨x, hx, rfl⟩ := List.mem_map.mp he
      obtain ⟨q', xs', hfire, hkept', hhandled, -⟩ := fire_kept (x := x) hkept hcb hn
      have hwaiting := (due_some_iff.mp hdue).1
      refine ⟨q', true, by rw [if_pos rfl, hfire]; rfl, .again (xs'.map some)
        (waiting_lt (hkept.within x hx) hwaiting hhandled) ?_⟩
      obtain ⟨es, hes⟩ := h.fired
      exact ⟨⟨xs', rfl, hkept'⟩, List.forall_mem_nil _, _, hes.step hlisted h.quiet hdue hfire⟩

/-- What the loop that fires the timers has come to, when it was started with the timers `xs`. -/
structure Fired (K : List τ) (cb : TimerCallback τ ω) (now : Timeval) (start : Timers τ) (xs : List τ)
    (es : List (Option τ)) (s : Timers τ) (fired ys : List τ) : Prop where
  entries : es = fired.map some
  kept : Kept K s ys
  once : fired.Nodup
  handled : ∀ x, (s.timer x).handled = true ↔ (start.timer x).handled = true ∨ x ∈ fired
  untouched : ∀ x, Untouched cb x → (x ∈ ys ↔ x ∈ xs) ∧
    (s.timer x).timeout = (start.timer x).timeout ∧
    (x ∈ fired → x ∈ xs ∧ timeSmaller (start.timer x).timeout now = true) ∧
    (s.timer x).active = if x ∈ fired then false else (start.timer x).active

theorem fired_step (hcb : ∀ x s w, ∀ c ∈ (cb x s w).1, c.timer ∈ K) (hn : K.length ≤ n)
    {start : Timers τ} {es : List (Option τ)} {fired ys : List τ} {e : Option τ}
    {q' : Timers τ × ω} {before after : List (Option τ)} (h : Fired K cb now start xs es q.1 fired ys)
    (hrep : Represents q.1.links none (before ++ e :: after)) (he : due now q e = true)
    (hfire : fire n cb e q = some q') :
    ∃ fired' ys', Fired K cb now start xs (es ++ [e]) q'.1 fired' ys' := by
  have hlist : ys.map some = before ++ e :: after := h.kept.listed.unique hrep
  have hmem : e ∈ ys.map some := hlist ▸ List.mem_append_right before List.mem_cons_self
  obtain ⟨x, hx, rfl⟩ := List.mem_map.mp hmem
  obtain ⟨hhandled, htime⟩ := due_some_iff.mp he
  obtain ⟨q'', zs, hfire', hkept, hhandled', huntouched⟩ := fire_kept (x := x) h.kept hcb hn
  obtain rfl : q'' = q' := Option.some.inj (hfire'.symm.trans hfire)
  have hnot : x ∉ fired := by
    intro hin
    have htrue := (h.handled x).mpr (Or.inr hin)
    rw [hhandled] at htrue
    cases htrue
  refine ⟨fired ++ [x], zs, ⟨by rw [h.entries]; simp, hkept, ?_, fun y => ?_, fun y hy => ?_⟩⟩
  · exact List.nodup_append.mpr ⟨h.once, List.nodup_singleton x, fun y hy z hz heq =>
      hnot (List.mem_singleton.mp hz ▸ heq ▸ hy)⟩
  · rw [hhandled', List.mem_append, List.mem_singleton]
    split_ifs with hyx
    · exact iff_of_true rfl (Or.inr (Or.inr hyx))
    · rw [h.handled, or_iff_left hyx]
  · obtain ⟨hmem', htimeout, hactive⟩ := huntouched y hy
    obtain ⟨hmem'', htimeout', hfired, hactive'⟩ := h.untouched y hy
    refine ⟨hmem'.trans hmem'', htimeout.trans htimeout', fun hin => ?_, ?_⟩
    · rcases List.mem_append.mp hin with hin | hin
      · exact hfired hin
      · obtain rfl := List.mem_singleton.mp hin
        exact ⟨hmem''.mp hx, htimeout' ▸ htime⟩
    · rw [hactive, hactive']
      by_cases hyx : y = x
      · rw [if_pos hyx, if_pos (List.mem_append_right _ (List.mem_singleton.mpr hyx))]
      · have hmem : y ∈ fired ++ [x] ↔ y ∈ fired := by simp [hyx]
        rw [if_neg hyx]
        simp only [hmem]

/-- The loop that cleans the list has come past some timers, which are armed. -/
structure Cleaning (K : List τ) (start : Timers τ) (xs : List τ) (s : Timers τ)
    (before rest : List (Option τ)) : Prop where
  kept : ∃ ys, before ++ rest = ys.map some ∧ Kept K s ys ∧ ∀ x ∈ ys, x ∈ xs
  armed : ∀ x, some x ∈ before → (s.timer x).active = true
  same : ∀ x, (s.timer x).active = (start.timer x).active ∧
    (s.timer x).timeout = (start.timer x).timeout

/-- The timer of a turn is taken out. -/
theorem erase_turn {before rest : List (Option τ)} {ys : List τ}
    (hys : before ++ some x :: rest = ys.map some) (hx : some x ∉ before) :
    before ++ rest = (ys.erase x).map some := by
  obtain ⟨bs, cs, rfl, rfl, hcs⟩ := List.map_eq_append_iff.mp hys.symm
  obtain ⟨x', rs, rfl, heq, rfl⟩ := List.map_eq_cons_iff.mp hcs
  obtain rfl : x' = x := Option.some.inj heq
  have hx' : x' ∉ bs := fun hmem => hx (List.mem_map_of_mem hmem)
  rw [List.erase_append_right _ hx', List.erase_cons_head, List.map_append]

theorem cleanBody_cleaning {start : Timers τ} {before rest : List (Option τ)} {e : Option τ}
    (h : Cleaning K start xs s before (e :: rest)) :
    ∃ s' again, cleanBody e s = some (s', again) ∧
      Goes (Cleaning K start xs) (fun _ => 0) s rest s' again := by
  obtain ⟨ys, hys, hkept, hsub⟩ := h.kept
  have he : e ∈ ys.map some := hys ▸ List.mem_append_right before List.mem_cons_self
  obtain ⟨x, hx, rfl⟩ := List.mem_map.mp he
  set s₁ := s.set x fun t => { t with handled := false } with hs₁
  have hkept₁ : Kept K s₁ ys := hkept.set (fun _ => rfl) (hkept.active x)
  have hsame₁ : ∀ y, (s₁.timer y).active = (s.timer y).active ∧
      (s₁.timer y).timeout = (s.timer y).timeout := by
    intro y
    by_cases hyx : y = x
    · rw [hyx, hs₁, set_timer_self]
      exact ⟨rfl, rfl⟩
    · rw [hs₁, set_timer_of_ne hyx]
      exact ⟨rfl, rfl⟩
  have hnodup : (before ++ some x :: rest).Nodup := by
    rw [hys]
    exact (List.nodup_cons.mp hkept.listed.nodup).2
  cases hactive : (s₁.timer x).active with
  | true =>
      refine ⟨s₁, false, ?_, .on (before ++ [some x]) (Nat.le_refl 0)
        ⟨⟨ys, by simpa using hys, hkept₁, hsub⟩, fun y hy => ?_, fun y => ?_⟩⟩
      · show Option.map _ (if (s₁.timer x).active = true then some s₁ else s₁.delTimer x) = _
        rw [if_pos hactive]
        rfl
      · rcases List.mem_append.mp hy with hy | hy
        · rw [(hsame₁ y).1]
          exact h.armed y hy
        · rw [Option.some.inj (List.mem_singleton.mp hy)]
          exact hactive
      · exact ⟨(hsame₁ y).1.trans (h.same y).1, (hsame₁ y).2.trans (h.same y).2⟩
  | false =>
      obtain ⟨s₂, hs₂, hcalled, hinactive, htimeout⟩ := delTimer_called (x := x) hkept₁
      have hxbefore : some x ∉ before := fun hmem =>
        List.disjoint_of_nodup_append hnodup hmem List.mem_cons_self
      have hsame₂ : ∀ y, (s₂.timer y).active = (s₁.timer y).active ∧
          (s₂.timer y).timeout = (s₁.timer y).timeout := by
        intro y
        by_cases hyx : y = x
        · rw [hyx, hinactive, hactive, htimeout]
          exact ⟨rfl, rfl⟩
        · rw [(hcalled.frame y hyx).1]
          exact ⟨rfl, rfl⟩
      refine ⟨s₂, false, ?_, .on before (Nat.le_refl 0) ⟨⟨ys.erase x, erase_turn hys hxbefore,
        hcalled.kept, fun y hy => hsub y (List.mem_of_mem_erase hy)⟩, fun y hy => ?_, fun y => ?_⟩⟩
      · show Option.map _ (if (s₁.timer x).active = true then some s₁ else s₁.delTimer x) = _
        rw [if_neg (by simp [hactive]), hs₂]
        rfl
      · rw [(hsame₂ y).1, (hsame₁ y).1]
        exact h.armed y hy
      · exact ⟨(hsame₂ y).1.trans ((hsame₁ y).1.trans (h.same y).1),
          (hsame₂ y).2.trans ((hsame₁ y).2.trans (h.same y).2)⟩

/-- The flags at the start of a pass. -/
theorem foldl_unhandled_timer (l : List τ) (s : Timers τ) (x : τ) :
    (l.foldl (fun s x => s.set x fun t => { t with handled := false }) s).timer x =
      if x ∈ l then { s.timer x with handled := false } else s.timer x := by
  induction l generalizing s with
  | nil => rfl
  | cons y l ih =>
      rw [List.foldl_cons, ih]
      by_cases hxy : x = y
      · subst hxy
        rw [set_timer_self, if_pos List.mem_cons_self, ite_self]
      · rw [set_timer_of_ne hxy]
        simp only [List.mem_cons, hxy, false_or]

theorem foldl_unhandled_links (l : List τ) (s : Timers τ) :
    (l.foldl (fun s x => s.set x fun t => { t with handled := false }) s).links = s.links := by
  induction l generalizing s with
  | nil => rfl
  | cons y l ih => rw [List.foldl_cons, ih, set_links]

theorem unhandled_timer (h : Kept K s xs) (hn : K.length ≤ n) (x : τ) :
    (s.unhandled n).timer x = if x ∈ xs then { s.timer x with handled := false } else s.timer x := by
  rw [unhandled, h.entries hn]
  exact foldl_unhandled_timer xs s x

theorem unhandled_kept (h : Kept K s xs) (hn : K.length ≤ n) : Kept K (s.unhandled n) xs := by
  refine ⟨?_, fun x => ?_, fun x hx => ?_, h.within⟩
  · rw [unhandled, foldl_unhandled_links]
    exact h.listed
  · refine Iff.trans ?_ (h.inList x)
    rw [unhandled_timer h hn]
    split_ifs <;> rfl
  · rw [unhandled_timer h hn] at hx
    apply h.active x
    split_ifs at hx <;> exact hx

/-- What a pass comes to: it fires each timer at most once; afterwards a timer is in the list if and
only if it is armed; and the only due timers that may be left are those that it has fired and those
that callbacks have armed, where a timer that was not in the list may carry the mark of an earlier
pass. A timer for which the callbacks make no call is fired if and only if it was armed and due, and
is then disarmed. -/
structure Passed (K : List τ) (cb : TimerCallback τ ω) (now : Timeval) (s s' : Timers τ)
    (xs ys fired : List τ) : Prop where
  start : Kept K s xs
  kept : Kept K s' ys
  armed : ∀ x, x ∈ ys ↔ (s'.timer x).active = true
  once : fired.Nodup
  left : ∀ x ∈ ys, timeSmaller (s'.timer x).timeout now = true →
    x ∈ fired ∨ (x ∉ xs ∧ (s.timer x).handled = true)
  untouched : ∀ x, Untouched cb x →
    (x ∈ fired ↔ x ∈ xs ∧ timeSmaller (s.timer x).timeout now = true) ∧
      (x ∈ ys ↔ x ∈ xs ∧ x ∉ fired)

/-- What is left when no timer of the list is due and the list has been cleaned. -/
theorem Fired.passed {es : List (Option τ)} {fired ys zs : List τ} {q₂ : Timers τ × ω} {s₃ : Timers τ}
    (h : Kept K s xs) (harmed : ∀ x ∈ xs, (s.timer x).active = true) (hn : K.length ≤ n)
    (hfired : Fired K cb now (s.unhandled n) xs es q₂.1 fired ys)
    (hquiet : ∀ x ∈ ys, due now q₂ (some x) = false) (hkept : Kept K s₃ zs)
    (hsub : ∀ x ∈ zs, x ∈ ys) (hzs : ∀ x ∈ zs, (s₃.timer x).active = true)
    (hsame : ∀ x, (s₃.timer x).active = (q₂.1.timer x).active ∧
      (s₃.timer x).timeout = (q₂.1.timer x).timeout) : Passed K cb now s s₃ xs zs fired := by
  -- a timer that was not fired and is due now was handled from the start
  have hdue : ∀ x ∈ ys, timeSmaller (q₂.1.timer x).timeout now = true → x ∉ fired →
      x ∉ xs ∧ (s.timer x).handled = true := by
    intro x hx htime hnot
    have hhandled : (q₂.1.timer x).handled = true := by
      by_contra hfalse
      have hready := due_some_iff.mpr ⟨Bool.eq_false_iff.mpr hfalse, htime⟩
      rw [hquiet x hx] at hready
      cases hready
    have hstart := ((hfired.handled x).mp hhandled).resolve_right hnot
    rw [unhandled_timer h hn] at hstart
    split_ifs at hstart with hmem
    exact ⟨hmem, hstart⟩
  have hactive : ∀ x, x ∈ zs ↔ (s₃.timer x).active = true := fun x => ⟨hzs x, hkept.active x⟩
  refine ⟨h, hkept, hactive, hfired.once, fun x hx htime => ?_, fun x hx => ?_⟩
  · by_cases hin : x ∈ fired
    · exact Or.inl hin
    · exact Or.inr (hdue x (hsub x hx) ((hsame x).2 ▸ htime) hin)
  · obtain ⟨hmem, htimeout, hin, hstill⟩ := hfired.untouched x hx
    have hstart : ((s.unhandled n).timer x).timeout = (s.timer x).timeout ∧
        ((s.unhandled n).timer x).active = (s.timer x).active := by
      rw [unhandled_timer h hn]
      split_ifs <;> exact ⟨rfl, rfl⟩
    refine ⟨⟨fun hf => hstart.1 ▸ hin hf, fun ⟨hxs, htime⟩ => ?_⟩, ?_⟩
    · by_contra hnot
      have htime' : timeSmaller (q₂.1.timer x).timeout now = true := by
        rwa [htimeout, hstart.1]
      exact (hdue x (hmem.mpr hxs) htime' hnot).1 hxs
    · rw [hactive, (hsame x).1, hstill, hstart.2]
      split_ifs with hf
      · exact iff_of_false not_false fun hboth => hboth.2 hf
      · exact ⟨fun ha => ⟨h.active x ha, hf⟩, fun hboth => harmed x hboth.1⟩

theorem updateTimers_passed (h : Kept K q.1 xs) (harmed : ∀ x ∈ xs, (q.1.timer x).active = true)
    (hcb : ∀ x s w, ∀ c ∈ (cb x s w).1, c.timer ∈ K) (hn : K.length ≤ n) (now : Timeval) :
    ∃ N q' ys fired, Passed K cb now q.1 q'.1 xs ys fired ∧
      ∀ m, N ≤ m → updateTimers n m cb now q = some q' := by
  have hstart := unhandled_kept h hn
  set q₁ : Timers τ × ω := (q.1.unhandled n, q.2) with hq₁
  have hfiring : Firing K n cb now q₁ q₁ [] (xs.map some) :=
    ⟨⟨xs, rfl, hstart⟩, List.forall_mem_nil _, [], .refl⟩
  obtain ⟨first₁, N₁, q₂, done, hfirst₁, hrun₁, hend⟩ := forEach_rule
    (fun q : Timers τ × ω => q.1.links) (fun _ _ _ h => Firing.listed h)
    (fun _ _ _ _ h => fireBody_firing hcb hn h) hfiring
  obtain ⟨ys, hys, hkept₂⟩ := hend.kept
  obtain ⟨es, hes⟩ := hend.fired
  obtain ⟨fired, ys', hfired⟩ := hes.invariant
    (P := fun es q => ∃ fired ys, Fired K cb now q₁.1 xs es q.1 fired ys)
    ⟨[], xs, rfl, hstart, List.nodup_nil, fun _ => by simp, fun _ _ => by simp⟩
    fun _ _ _ _ _ _ ⟨_, _, hP⟩ hrep _ hx hserve => fired_step hcb hn hP hrep hx hserve
  obtain rfl : ys = ys' := by
    have hlists := hkept₂.listed.unique hfired.kept.listed
    exact List.map_injective_iff.mpr (Option.some_injective τ) hlists
  have hcleaning : Cleaning K q₂.1 ys q₂.1 [] (ys.map some) :=
    ⟨⟨ys, rfl, hkept₂, fun _ hx => hx⟩, fun _ hx => absurd hx List.not_mem_nil,
      fun _ => ⟨rfl, rfl⟩⟩
  obtain ⟨first₂, N₂, s₃, done₂, hfirst₂, hrun₂, hclean⟩ := forEachSafe_rule Timers.links
    (fun _ _ _ h => by
      obtain ⟨zs, hzs, hkept, -⟩ := h.kept
      rw [hzs]
      exact hkept.listed)
    (fun _ _ _ _ h => cleanBody_cleaning h) hcleaning
  obtain ⟨zs, hzs, hkept₃, hsub⟩ := hclean.kept
  rw [List.append_nil] at hzs hys
  refine ⟨max N₁ N₂, (s₃, q₂.2), zs, fired, Fired.passed h harmed hn hfired ?_ hkept₃ hsub ?_
    hclean.same, fun m hm => ?_⟩
  · exact fun x hx => hend.quiet (some x) (hys ▸ List.mem_map_of_mem hx)
  · exact fun x hx => hclean.armed x (hzs ▸ List.mem_map_of_mem hx)
  · have hfirst : (q.1.unhandled n).links.next none = some first₁ := hfirst₁
    simp only [updateTimers, hfirst, Option.bind_some]
    rw [hrun₁ m (by omega), Option.bind_some, hfirst₂, Option.bind_some, hrun₂ m (by omega)]
    rfl

end Pass

/-! ### Sleeping -/

section Sleep

variable {K xs : List τ} {s : Timers τ} {n : ℕ}

omit [DecidableEq τ] in
/-- The loop of `prepare_timers` finds a timer that none is earlier than. -/
theorem foldl_nearer (xs : List τ) (y : τ) : ∃ x ∈ y :: xs, xs.foldl s.nearer (some y) = some x ∧
    ∀ z ∈ y :: xs, (s.timer x).timeout.micros.toInt ≤ (s.timer z).timeout.micros.toInt := by
  induction xs generalizing y with
  | nil => exact ⟨y, List.mem_cons_self, rfl, by simp⟩
  | cons x xs ih =>
      rw [List.foldl_cons, nearer]
      split_ifs with hsmaller
      · obtain ⟨b, hb, hfold, hleast⟩ := ih x
        have hbx := hleast x List.mem_cons_self
        have hxy := BitVec.sle_iff_toInt_le.mp hsmaller
        exact ⟨b, List.mem_cons_of_mem y hb, hfold,
          List.forall_mem_cons.mpr ⟨Int.le_trans hbx hxy, hleast⟩⟩
      · obtain ⟨b, hb, hfold, hleast⟩ := ih y
        have hby := hleast y List.mem_cons_self
        have hyx : (s.timer y).timeout.micros.toInt ≤ (s.timer x).timeout.micros.toInt :=
          Int.le_of_not_le fun hle => hsmaller (BitVec.sle_iff_toInt_le.mpr hle)
        have hmem : b ∈ y :: x :: xs := by
          rcases List.mem_cons.mp hb with rfl | hb
          · exact List.mem_cons_self
          · exact List.mem_cons_of_mem y (List.mem_cons_of_mem x hb)
        refine ⟨b, hmem, hfold, List.forall_mem_cons.mpr ⟨hby, List.forall_mem_cons.mpr
          ⟨Int.le_trans hby hyx, fun z hz => hleast z (List.mem_cons_of_mem y hz)⟩⟩⟩

/-- What `prepare_timers` sets: the earliest time of the list. -/
theorem prepareTimers_cases (h : Kept K s xs) (hn : K.length ≤ n) :
    (xs = [] ∧ s.prepareTimers n = ⟨0, 0⟩) ∨
      ∃ x ∈ xs, s.prepareTimers n = (s.timer x).timeout ∧
        ∀ z ∈ xs, (s.timer x).timeout.micros.toInt ≤ (s.timer z).timeout.micros.toInt := by
  rw [prepareTimers, h.entries hn]
  cases xs with
  | nil => exact Or.inl ⟨rfl, rfl⟩
  | cons y xs =>
      obtain ⟨x, hx, hfold, hleast⟩ := foldl_nearer (s := s) xs y
      refine Or.inr ⟨x, hx, ?_, hleast⟩
      rw [List.foldl_cons, show s.nearer none y = some y from rfl, hfold]

/-- What `nearest_timer` gives, as a number without a sign: what is left until the time, and nothing
when that has passed. -/
theorem nearestTimer_toNat {nearest now d : Timeval} (h : nearestTimer nearest (some now) = some d) :
    now.micros.toNat + d.micros.toNat = max now.micros.toNat nearest.micros.toNat := by
  rw [nearestTimer] at h
  split_ifs at h
  rw [Option.map_some, Option.some_inj] at h
  split_ifs at h with hpassed
  · have hzero : Timeval.micros ⟨0, 0⟩ = 0#64 := by decide
    rw [← h, Nat.max_eq_left (Nat.le_of_lt hpassed), hzero, BitVec.toNat_ofNat, Nat.zero_mod,
      Nat.add_zero]
  · have hle : now.micros ≤ nearest.micros := BitVec.not_lt.mp hpassed
    rw [← h, Timeval.micros_ofMicros, BitVec.toNat_sub_of_le hle, Nat.max_eq_right hle]
    exact Nat.add_sub_of_le hle

/-- How long select() sleeps when the clock shows `now`: it has no end only when no timer is armed, or
one whose time is zero; else it is until the earliest timer that is armed, or not at all when that has
passed, where the earliest time is taken with its sign and slept for without one. -/
def SleepsWell (s : Timers τ) (now : Timeval) (sleep : Option Timeval) : Prop :=
  (sleep = none → ∀ x, (s.timer x).active = true →
      ∃ y, (s.timer y).active = true ∧ (s.timer y).timeout = ⟨0, 0⟩) ∧
    ∀ d, sleep = some d → ∃ x, (s.timer x).active = true ∧
      (∀ y, (s.timer y).active = true →
        (s.timer x).timeout.micros.toInt ≤ (s.timer y).timeout.micros.toInt) ∧
      now.micros.toNat + d.micros.toNat = max now.micros.toNat (s.timer x).timeout.micros.toNat ∧
      (0 ≤ now.micros.toInt → 0 ≤ (s.timer x).timeout.micros.toInt →
        now.micros.toInt + d.micros.toInt = max now.micros.toInt (s.timer x).timeout.micros.toInt)

/-- Of times from 1970 on the sign makes no difference. -/
theorem toInt_add_eq_max {a b d : BitVec 64} (h : a.toNat + d.toNat = max a.toNat b.toNat)
    (ha : 0 ≤ a.toInt) (hb : 0 ≤ b.toInt) : a.toInt + d.toInt = max a.toInt b.toInt := by
  have hpos : ∀ x : BitVec 64, 0 ≤ x.toInt → 2 * x.toNat < 18446744073709551616 ∧ x.toInt = x.toNat := by
    intro x hx
    have hcond := x.toInt_eq_toNat_cond
    have hlt := x.isLt
    simp only [Nat.reducePow] at hcond hlt
    split_ifs at hcond with hsmall
    · exact ⟨hsmall, hcond⟩
    · omega
  obtain ⟨ha', hatoInt⟩ := hpos a ha
  obtain ⟨hb', hbtoInt⟩ := hpos b hb
  have hd : d.toInt = d.toNat := BitVec.toInt_eq_toNat_of_lt (by
    simp only [Nat.reducePow]
    omega)
  omega

theorem sleepsWell (h : Kept K s xs) (harmed : ∀ x ∈ xs, (s.timer x).active = true)
    (hn : K.length ≤ n) (now : Timeval) :
    SleepsWell s now (nearestTimer (s.prepareTimers n) (some now)) := by
  rcases prepareTimers_cases h hn with ⟨rfl, hzero⟩ | ⟨x, hx, htime, hleast⟩
  · rw [hzero]
    refine ⟨fun _ y hy => absurd (h.active y hy) List.not_mem_nil, fun d hd => ?_⟩
    cases hd
  · rw [htime]
    refine ⟨fun hnone _ _ => ⟨x, harmed x hx, ?_⟩, fun d hd => ?_⟩
    · rw [nearestTimer] at hnone
      split_ifs at hnone with hepoch
      · exact Timeval.mk.injEq .. ▸ hepoch
      · cases hnone
    · have hsum := nearestTimer_toNat hd
      exact ⟨x, harmed x hx, fun y hy => hleast y (h.active y hy), hsum, toInt_add_eq_max hsum⟩

end Sleep

/-! ### Runs -/

/-- A call of the program, or `update_timers`. -/
inductive TimerEvent (τ : Type*) where
  | call (c : TimerCall τ)
  | pass (now : Timeval)

/-- One event after another. -/
def run (n m : ℕ) (cb : TimerCallback τ ω) : List (TimerEvent τ) → Timers τ × ω → Option (Timers τ × ω)
  | [], q => some q
  | .call c :: es, q => (call n c q.1).bind fun s => run n m cb es (s, q.2)
  | .pass now :: es, q => (updateTimers n m cb now q).bind (run n m cb es)

/-- Before the first call. -/
structure Idle (s : Timers τ) : Prop where
  links : s.links = Links.init none
  inList : ∀ x, (s.timer x).inList = false
  active : ∀ x, (s.timer x).active = false

/-- All the calls of a run and of its callbacks are for timers of `K`. -/
structure Uses (K : List τ) (cb : TimerCallback τ ω) (es : List (TimerEvent τ)) : Prop where
  calls : ∀ c, .call c ∈ es → c.timer ∈ K
  callbacks : ∀ x s w, ∀ c ∈ (cb x s w).1, c.timer ∈ K

section Runs

variable {K xs : List τ} {q : Timers τ × ω} {n : ℕ} {cb : TimerCallback τ ω}
  {es : List (TimerEvent τ)}

theorem Idle.kept {s : Timers τ} (h : Idle s) (K : List τ) : Kept K s [] where
  listed := by
    rw [h.links]
    exact init_represents none
  inList := fun x => by simp [h.inList x]
  active := fun x hx => by simp [h.active x] at hx
  within := List.forall_mem_nil _

theorem run_kept (h : Kept K q.1 xs) (harmed : ∀ x ∈ xs, (q.1.timer x).active = true)
    (huses : Uses K cb es) (hn : K.length ≤ n) :
    ∃ N q' ys, Kept K q'.1 ys ∧ (∀ x ∈ ys, (q'.1.timer x).active = true) ∧
      ∀ m, N ≤ m → run n m cb es q = some q' := by
  induction es generalizing q xs with
  | nil => exact ⟨0, q, xs, h, harmed, fun _ _ => rfl⟩
  | cons e es ih =>
      have huses' : Uses K cb es :=
        ⟨fun c hc => huses.calls c (List.mem_cons_of_mem e hc), huses.callbacks⟩
      cases e with
      | call c =>
          obtain ⟨s', ys, hs', hcalled⟩ := call_called h (huses.calls c List.mem_cons_self) hn
          have harmed' : ∀ x ∈ ys, (s'.timer x).active = true := by
            intro x hx
            by_cases hxc : x = c.timer
            · exact hxc ▸ hcalled.armed (hxc ▸ hx)
            · obtain ⟨htimer, hmem⟩ := hcalled.frame x hxc
              rw [htimer]
              exact harmed x (hmem.mp hx)
          obtain ⟨N, q', zs, hkept, hzs, hrun⟩ := ih (q := (s', q.2)) hcalled.kept harmed' huses'
          refine ⟨N, q', zs, hkept, hzs, fun m hm => ?_⟩
          rw [run, hs', Option.bind_some, hrun m hm]
      | pass now =>
          obtain ⟨N₁, q₁, ys, fired, hpassed, hrun₁⟩ :=
            updateTimers_passed h harmed huses.callbacks hn now
          obtain ⟨N₂, q₂, zs, hkept, hzs, hrun₂⟩ :=
            ih hpassed.kept (fun x hx => (hpassed.armed x).mp hx) huses'
          refine ⟨max N₁ N₂, q₂, zs, hkept, hzs, fun m hm => ?_⟩
          rw [run, hrun₁ m (by omega), Option.bind_some, hrun₂ m (by omega)]

/-- **Armed timers.** After every run of calls and of passes whose callbacks make calls too, each pass
has come to its end, the list holds the timers that are armed, each once, `in_list` says so, and
select() sleeps until the earliest of them. -/
theorem run_armed (hidle : Idle q.1) (huses : Uses K cb es) (hn : K.length ≤ n) :
    ∃ N q', ∃ ys : List τ, (∀ m, N ≤ m → run n m cb es q = some q') ∧
      Represents q'.1.links none (ys.map some) ∧
      (∀ x, (x ∈ ys ↔ (q'.1.timer x).active = true) ∧ (x ∈ ys ↔ (q'.1.timer x).inList = true)) ∧
      ∀ now, SleepsWell q'.1 now (nearestTimer (q'.1.prepareTimers n) (some now)) := by
  obtain ⟨N, q', ys, hkept, harmed, hrun⟩ :=
    run_kept (hidle.kept K) (fun x hx => absurd hx List.not_mem_nil) huses hn
  exact ⟨N, q', ys, hrun, hkept.listed, fun x => ⟨⟨harmed x, hkept.active x⟩, (hkept.inList x).symm⟩,
    sleepsWell hkept harmed hn⟩

/-- No timer is armed. -/
def unarmed : Timers ℕ := ⟨fun _ => ⟨⟨0, 0⟩, false, false, false⟩, Links.init none⟩

theorem unarmed_idle : Idle unarmed := ⟨rfl, fun _ => rfl, fun _ => rfl⟩

/-- Timer 1 arms itself again, and timer 2; timer 2 disarms timer 1. -/
def pingPong : TimerCallback ℕ Unit := fun x _ _ =>
  (if x = 1 then [.schedule 1 ⟨9, 0⟩ 0 5, .add 2] else [.del 1], ())

theorem uses_pingPong (es : List (TimerEvent ℕ)) (hes : ∀ c, .call c ∈ es → c.timer ∈ [1, 2]) :
    Uses [1, 2] pingPong es := by
  refine ⟨hes, fun x s w c hc => ?_⟩
  simp only [pingPong] at hc
  split_ifs at hc
  · simp only [List.mem_cons, List.not_mem_nil, or_false] at hc
    rcases hc with rfl | rfl <;> simp [TimerCall.timer]
  · rw [List.mem_singleton.mp hc]
    simp [TimerCall.timer]

/-- Timer 1 is armed, fires, and is armed again. -/
theorem run_armed_pingPong :
    let es : List (TimerEvent ℕ) := [.call (.schedule 1 ⟨8, 0⟩ 0 0), .pass ⟨9, 0⟩]
    ∃ N q', ∃ ys : List ℕ, (∀ m, N ≤ m → run 2 m pingPong es (unarmed, ()) = some q') ∧
      Represents q'.1.links none (ys.map some) ∧
      (∀ x, (x ∈ ys ↔ (q'.1.timer x).active = true) ∧ (x ∈ ys ↔ (q'.1.timer x).inList = true)) ∧
      ∀ now, SleepsWell q'.1 now (nearestTimer (q'.1.prepareTimers 2) (some now)) :=
  run_armed unarmed_idle (uses_pingPong _ fun c hc => by
    simp only [List.mem_cons, TimerEvent.call.injEq, reduceCtorEq, List.not_mem_nil, or_false] at hc
    rw [hc]
    simp [TimerCall.timer]) (Nat.le_refl 2)

end Runs

end Timers

end SoftBts
