import Mathlib.Data.List.Nodup

/-! Circular doubly linked lists with a head, whose links are kept in the entries. The pointers of an
entry that is in no list are poisoned: `none`. Adding at either end and deleting are shown to do to the
links what adding to and erasing from the list of entries do. -/

namespace IntrusiveList

/-- The pointers kept in the entries. -/
structure Links (α : Type*) where
  next : α → Option α
  prev : α → Option α

variable {α : Type*}

namespace Links

variable [DecidableEq α]

def setNext (l : Links α) (x : α) (target : Option α) : Links α :=
  { l with next := Function.update l.next x target }

def setPrev (l : Links α) (x : α) (target : Option α) : Links α :=
  { l with prev := Function.update l.prev x target }

/-- A head without entries. -/
def init (head : α) : Links α where
  next := Function.update (fun _ => none) head (some head)
  prev := Function.update (fun _ => none) head (some head)

/-- Put an entry between two neighbours. -/
def insert (l : Links α) (x prev next : α) : Links α :=
  l.setPrev next (some x) |>.setNext x (some next) |>.setPrev x (some prev) |>.setNext prev (some x)

/-- Put an entry before the head. There is no result when a poisoned pointer is followed. -/
def addTail (l : Links α) (x head : α) : Option (Links α) :=
  (l.prev head).map fun prev => l.insert x prev head

/-- Put an entry behind the head. -/
def add (l : Links α) (x head : α) : Option (Links α) :=
  (l.next head).map fun next => l.insert x head next

/-- Make the neighbours of an entry point to each other and poison its pointers. -/
def unlink (l : Links α) (x prev next : α) : Links α :=
  l.setPrev next (some prev) |>.setNext prev (some next) |>.setNext x none |>.setPrev x none

/-- Take an entry out of its list. -/
def del (l : Links α) (x : α) : Option (Links α) :=
  (l.prev x).bind fun prev => (l.next x).map fun next => l.unlink x prev next

/-- The entries met from `x` on before `head`, at most the given number. -/
def walk (l : Links α) (head : α) : Nat → α → List α
  | 0, _ => []
  | n + 1, x =>
      match l.next x with
      | none => []
      | some y => if y = head then [] else y :: l.walk head n y

end Links

variable {l l' : Links α} {a b head x : α} {xs ys : List α}

/-- Two neighbours. -/
def Linked (l : Links α) (a b : α) : Prop := l.next a = some b ∧ l.prev b = some a

/-- The links go from `a` over the entries to `b`, and back. -/
def Seg (l : Links α) : α → List α → α → Prop
  | a, [], b => Linked l a b
  | a, x :: xs, b => Linked l a x ∧ Seg l x xs b

theorem seg_append :
    Seg l a (xs ++ x :: ys) b ↔ Seg l a xs x ∧ Seg l x ys b := by
  induction xs generalizing a with
  | nil => rfl
  | cons y xs ih => rw [List.cons_append, Seg, Seg, ih, and_assoc]

/-- Links that are not written stay. -/
theorem seg_congr (hnext : ∀ y ∈ a :: xs, l'.next y = l.next y)
    (hprev : ∀ y ∈ xs ++ [b], l'.prev y = l.prev y) (h : Seg l a xs b) : Seg l' a xs b := by
  induction xs generalizing a with
  | nil => exact ⟨(hnext a List.mem_cons_self).trans h.1, (hprev b List.mem_cons_self).trans h.2⟩
  | cons x xs ih =>
      obtain ⟨⟨hn, hp⟩, hrest⟩ := h
      refine ⟨⟨(hnext a List.mem_cons_self).trans hn, (hprev x List.mem_cons_self).trans hp⟩, ?_⟩
      exact ih (fun y hy => hnext y (List.mem_cons_of_mem a hy))
        (fun y hy => hprev y (List.mem_cons_of_mem x hy)) hrest

/-- The entry before the end of a segment, and what it takes for the segment to end elsewhere. -/
theorem seg_retarget (hnodup : (a :: xs).Nodup) (h : Seg l a xs b) :
    ∃ p ∈ a :: xs, Linked l p b ∧ ∀ (l' : Links α) (c : α),
      (∀ y ∈ a :: xs, y ≠ p → l'.next y = l.next y) → (∀ y ∈ xs, l'.prev y = l.prev y) →
        Linked l' p c → Seg l' a xs c := by
  induction xs generalizing a with
  | nil => exact ⟨a, List.mem_cons_self, h, fun _ _ _ _ hpc => hpc⟩
  | cons x xs ih =>
      obtain ⟨hax, hrest⟩ := h
      obtain ⟨hnot, hnodup'⟩ := List.nodup_cons.mp hnodup
      obtain ⟨p, hp, hpb, hmove⟩ := ih hnodup' hrest
      refine ⟨p, List.mem_cons_of_mem a hp, hpb, fun l' c hnext hprev hpc => ⟨⟨?_, ?_⟩, ?_⟩⟩
      · have hne : a ≠ p := fun heq => hnot (heq ▸ hp)
        rw [hnext a List.mem_cons_self hne, hax.1]
      · rw [hprev x List.mem_cons_self, hax.2]
      · exact hmove l' c (fun y hy => hnext y (List.mem_cons_of_mem a hy))
          (fun y hy => hprev y (List.mem_cons_of_mem x hy)) hpc

/-- The links of a circular list: from the head over the entries, each once, back to the head. -/
structure Represents (l : Links α) (head : α) (xs : List α) : Prop where
  seg : Seg l head xs head
  nodup : (head :: xs).Nodup

theorem next_seg (h : Seg l a xs b) : l.next a = (xs ++ [b]).head? := by
  cases xs with
  | nil => exact h.1
  | cons x xs => exact h.1.1

/-- The pointer of the head. -/
theorem Represents.next_head (h : Represents l head xs) : l.next head = (xs ++ [head]).head? :=
  next_seg h.seg

/-- The pointer of an entry. -/
theorem Represents.next (h : Represents l head (xs ++ x :: ys)) :
    l.next x = (ys ++ [head]).head? :=
  next_seg (seg_append.mp h.seg).2

theorem Represents.head_not_mem (h : Represents l head xs) : head ∉ xs :=
  (List.nodup_cons.mp h.nodup).1

variable [DecidableEq α]

theorem init_represents (head : α) : Represents (Links.init head) head [] where
  seg := by simp [Seg, Linked, Links.init]
  nodup := by simp

theorem linked_insert {prev next : α} (hnext : x ≠ next) (hprev : x ≠ prev) :
    Linked (l.insert x prev next) prev x ∧ Linked (l.insert x prev next) x next := by
  simp [Linked, Links.insert, Links.setNext, Links.setPrev, hprev, Ne.symm hnext]

theorem insert_next_of_ne {y prev next : α} (hx : y ≠ x) (hprev : y ≠ prev) :
    (l.insert x prev next).next y = l.next y := by
  simp [Links.insert, Links.setNext, Links.setPrev, hx, hprev]

theorem insert_prev_of_ne {y prev next : α} (hx : y ≠ x) (hnext : y ≠ next) :
    (l.insert x prev next).prev y = l.prev y := by
  simp [Links.insert, Links.setNext, Links.setPrev, hx, hnext]

theorem linked_unlink {prev next : α} (hnext : next ≠ x) (hprev : prev ≠ x) :
    Linked (l.unlink x prev next) prev next := by
  simp [Linked, Links.unlink, Links.setNext, Links.setPrev, hnext, hprev]

theorem unlink_next_of_ne {y prev next : α} (hx : y ≠ x) (hprev : y ≠ prev) :
    (l.unlink x prev next).next y = l.next y := by
  simp [Links.unlink, Links.setNext, Links.setPrev, hx, hprev]

theorem unlink_prev_of_ne {y prev next : α} (hx : y ≠ x) (hnext : y ≠ next) :
    (l.unlink x prev next).prev y = l.prev y := by
  simp [Links.unlink, Links.setNext, Links.setPrev, hx, hnext]

/-- **Adding at the tail** appends the entry. -/
theorem addTail_represents (h : Represents l head xs) (hx : x ∉ head :: xs) :
    ∃ l', l.addTail x head = some l' ∧ Represents l' head (xs ++ [x]) := by
  obtain ⟨hseg, hnodup⟩ := h
  have hhead : head ∉ xs := (List.nodup_cons.mp hnodup).1
  obtain ⟨p, hp, hphead, hmove⟩ := seg_retarget hnodup hseg
  have hxp : x ≠ p := fun heq => hx (heq ▸ hp)
  have hxhead : x ≠ head := fun heq => hx (heq ▸ List.mem_cons_self)
  obtain ⟨hpx, hxh⟩ := linked_insert (l := l) hxhead hxp
  refine ⟨l.insert x p head, by rw [Links.addTail, hphead.2]; rfl, ?_, ?_⟩
  · refine seg_append.mpr ⟨hmove _ x ?_ ?_ hpx, hxh⟩
    · intro y hy hyp
      exact insert_next_of_ne (fun heq => hx (heq ▸ hy)) hyp
    · intro y hy
      exact insert_prev_of_ne (fun heq => hx (heq ▸ List.mem_cons_of_mem head hy))
        (fun heq => hhead (heq ▸ hy))
  · rw [← List.cons_append]
    exact List.nodup_append.mpr ⟨hnodup, List.nodup_singleton x, fun y hy z hz heq => by
      rw [List.mem_singleton.mp hz] at heq
      exact hx (heq ▸ hy)⟩

/-- Adding entries at the tail, one after another. -/
theorem foldlM_addTail_represents (h : Represents l head xs) (hnodup : (head :: (xs ++ ys)).Nodup) :
    ∃ l', ys.foldlM (fun l y => Links.addTail l y head) l = some l' ∧
      Represents l' head (xs ++ ys) := by
  induction ys generalizing l xs with
  | nil => exact ⟨l, rfl, by rwa [List.append_nil]⟩
  | cons y ys ih =>
      rw [← List.cons_append] at hnodup
      have hy : y ∉ head :: xs := fun hmem =>
        List.disjoint_of_nodup_append hnodup hmem List.mem_cons_self
      rw [List.cons_append, List.append_cons] at hnodup
      rw [List.append_cons]
      obtain ⟨l', hl', hrep⟩ := addTail_represents h hy
      obtain ⟨l'', hl'', hrep'⟩ := ih hrep hnodup
      exact ⟨l'', by simp [hl', hl''], hrep'⟩

/-- **Adding behind the head** puts the entry in front. -/
theorem add_represents (h : Represents l head xs) (hx : x ∉ head :: xs) :
    ∃ l', l.add x head = some l' ∧ Represents l' head (x :: xs) := by
  have hxhead : x ≠ head := fun heq => hx (heq ▸ List.mem_cons_self)
  have hnodup : (head :: x :: xs).Nodup := by
    rw [List.nodup_cons, List.mem_cons, not_or]
    exact ⟨⟨hxhead.symm, h.head_not_mem⟩, List.nodup_cons.mpr
      ⟨fun hmem => hx (List.mem_cons_of_mem head hmem), (List.nodup_cons.mp h.nodup).2⟩⟩
  obtain ⟨hseg, -⟩ := h
  cases xs with
  | nil =>
      have hnext : l.next head = some head := hseg.1
      exact ⟨l.insert x head head, by rw [Links.add, hnext]; rfl, linked_insert hxhead hxhead, hnodup⟩
  | cons y ys =>
      obtain ⟨⟨hnext, -⟩, hrest⟩ := hseg
      have hxy : x ≠ y := fun heq => hx (heq ▸ List.mem_cons_of_mem head List.mem_cons_self)
      have hfar : head ∉ y :: ys := fun hmem =>
        (List.nodup_cons.mp hnodup).1 (List.mem_cons_of_mem x hmem)
      have hyys : y ∉ ys :=
        (List.nodup_cons.mp (List.nodup_cons.mp (List.nodup_cons.mp hnodup).2).2).1
      obtain ⟨hhx, hxnext⟩ := linked_insert (l := l) hxy hxhead
      refine ⟨l.insert x head y, by rw [Links.add, hnext]; rfl, ⟨hhx, hxnext, ?_⟩, hnodup⟩
      apply seg_congr _ _ hrest
      · intro z hz
        exact insert_next_of_ne (fun heq => hx (heq ▸ List.mem_cons_of_mem head hz))
          (fun heq => hfar (heq ▸ hz))
      · intro z hz
        refine insert_prev_of_ne (fun heq => ?_) (fun heq => ?_)
        · rcases List.mem_append.mp hz with hmem | hmem
          · exact hx (heq ▸ List.mem_cons_of_mem head (List.mem_cons_of_mem y hmem))
          · exact hxhead (heq ▸ List.mem_singleton.mp hmem)
        · rcases List.mem_append.mp hz with hmem | hmem
          · exact hyys (heq ▸ hmem)
          · exact hfar (heq ▸ List.mem_singleton.mp hmem ▸ List.mem_cons_self)

/-- A segment that ends at an entry, after the entry is taken out. -/
theorem seg_unlink_before (hnodup : (a :: xs).Nodup) (hx : x ∉ a :: xs) (h : Seg l a xs x) :
    ∃ p ∈ a :: xs, Linked l p x ∧
      ∀ n, n ∉ xs → n ≠ x → Seg (l.unlink x p n) a xs n := by
  obtain ⟨p, hp, hpx, hmove⟩ := seg_retarget hnodup h
  have hxp : p ≠ x := fun heq => hx (heq ▸ hp)
  refine ⟨p, hp, hpx, fun n hn hnx => ?_⟩
  apply hmove _ n
  · intro y hy hyp
    exact unlink_next_of_ne (fun heq => hx (heq ▸ hy)) hyp
  · intro y hy
    exact unlink_prev_of_ne (fun heq => hx (heq ▸ List.mem_cons_of_mem a hy))
      (fun heq => hn (heq ▸ hy))
  · exact linked_unlink hnx hxp

/-- A segment behind an entry that is taken out. -/
theorem seg_unlink_behind {p n : α} (hx : x ∉ n :: xs ++ [b]) (hp : p ∉ n :: xs)
    (hn : n ∉ xs ++ [b]) (h : Seg l n xs b) : Seg (l.unlink x p n) n xs b := by
  apply seg_congr _ _ h
  · intro y hy
    exact unlink_next_of_ne (fun heq => hx (heq ▸ List.mem_append_left [b] hy))
      (fun heq => hp (heq ▸ hy))
  · intro y hy
    exact unlink_prev_of_ne (fun heq => hx (heq ▸ List.mem_cons_of_mem n hy))
      (fun heq => hn (heq ▸ hy))

/-- **Deleting** erases the entry. -/
theorem del_represents (h : Represents l head xs) (hx : x ∈ xs) :
    ∃ l', l.del x = some l' ∧ Represents l' head (xs.erase x) := by
  obtain ⟨hseg, hnodup⟩ := h
  obtain ⟨ys, zs, rfl⟩ := List.append_of_mem hx
  obtain ⟨hys, hzs⟩ := seg_append.mp hseg
  rw [← List.cons_append, List.nodup_append] at hnodup
  obtain ⟨hleft, hright, hdisjoint⟩ := hnodup
  obtain ⟨hxzs, hzsnodup⟩ := List.nodup_cons.mp hright
  have hxleft : x ∉ head :: ys := fun hmem => hdisjoint x hmem x List.mem_cons_self rfl
  have hxhead : x ≠ head := fun heq => hxleft (heq ▸ List.mem_cons_self)
  have herase : (ys ++ x :: zs).erase x = ys ++ zs := by
    rw [List.erase_append_right _ fun hmem => hxleft (List.mem_cons_of_mem head hmem),
      List.erase_cons_head]
  have hnodup' : (head :: (ys ++ zs)).Nodup := by
    rw [← List.cons_append, List.nodup_append]
    exact ⟨hleft, hzsnodup, fun y hy z hz => hdisjoint y hy z (List.mem_cons_of_mem x hz)⟩
  obtain ⟨p, hp, hpx, hbefore⟩ := seg_unlink_before hleft hxleft hys
  rw [herase]
  cases zs with
  | nil =>
      refine ⟨l.unlink x p head, by simp [Links.del, hpx.2, show l.next x = some head from hzs.1],
        ?_, hnodup'⟩
      rw [List.append_nil]
      exact hbefore head (List.nodup_cons.mp hleft).1 hxhead.symm
  | cons n zs =>
      obtain ⟨hxn, hrest⟩ := hzs
      have hfar : ∀ y ∈ head :: ys, y ∉ n :: zs := fun y hy hmem =>
        hdisjoint y hy y (List.mem_cons_of_mem x hmem) rfl
      have hnhead : n ≠ head := fun heq => hfar head List.mem_cons_self (heq ▸ List.mem_cons_self)
      refine ⟨l.unlink x p n, by simp [Links.del, hpx.2, hxn.1], seg_append.mpr ⟨?_, ?_⟩, hnodup'⟩
      · apply hbefore n
        · exact fun hmem => hfar n (List.mem_cons_of_mem head hmem) List.mem_cons_self
        · exact fun heq => hxzs (heq ▸ List.mem_cons_self)
      · apply seg_unlink_behind _ (hfar p hp) _ hrest
        · exact List.not_mem_append hxzs (by simpa using hxhead)
        · exact List.not_mem_append (List.nodup_cons.mp hzsnodup).1 (by simpa using hnhead)

theorem walk_seg (hhead : head ∉ xs) (h : Seg l a xs head) (n : Nat) :
    l.walk head n a = xs.take n := by
  induction n generalizing a xs with
  | zero => rfl
  | succ n ih =>
      cases xs with
      | nil => simp [Links.walk, show l.next a = some head from h.1]
      | cons x xs =>
          obtain ⟨⟨hax, -⟩, hrest⟩ := h
          have hx : x ≠ head := fun heq => hhead (heq ▸ List.mem_cons_self)
          have hwalk := ih (fun hmem => hhead (List.mem_cons_of_mem x hmem)) hrest
          simp only [Links.walk, hax, if_neg hx, hwalk, List.take_succ_cons]

/-- A walk from the head meets the entries in order. -/
theorem walk_represents (h : Represents l head xs) (n : Nat) : l.walk head n head = xs.take n :=
  walk_seg (List.nodup_cons.mp h.nodup).1 h.seg n

/-- The links determine the entries. -/
theorem Represents.unique (hxs : Represents l head xs) (hys : Represents l head ys) : xs = ys := by
  have htake := (walk_represents hxs (max xs.length ys.length)).symm.trans (walk_represents hys _)
  rwa [List.take_of_length_le (Nat.le_max_left _ _), List.take_of_length_le (Nat.le_max_right _ _)]
    at htake

end IntrusiveList
