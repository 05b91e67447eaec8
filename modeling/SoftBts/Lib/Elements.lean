import SoftBts.Lib.Octets

/-! Element strings: concatenations of elements that start with a tag octet and have either a size
fixed by the tag or a 16-bit length after it. The first octets of an element determine its size, so
an octet string is a concatenation of elements in at most one way. -/

namespace Elements

open Octets

/-- The shape of the elements with a given tag: `size` octets in all, or tag, length and value. -/
inductive Shape where
  | fixed (size : Nat)
  | tlv
  deriving DecidableEq, Repr

/-- The tags a grammar knows, each with its shape. -/
abbrev Grammar := UInt8 → Option Shape

/-- The octets of one element. -/
inductive IsElement (g : Grammar) : List UInt8 → Prop where
  | fixed {tag : UInt8} {size : Nat} {body : List UInt8} (htag : g tag = some (.fixed size))
      (hsize : body.length + 1 = size) : IsElement g (tag :: body)
  | tlv {tag hi lo : UInt8} {value : List UInt8} (htag : g tag = some .tlv)
      (hlength : value.length = be16 hi lo) : IsElement g (tag :: hi :: lo :: value)

/-- An element of the grammar. -/
structure Element (g : Grammar) where
  octets : List UInt8
  isElement : IsElement g octets

variable {g : Grammar}

/-- The tag of an element. -/
def Element.tag (e : Element g) : UInt8 := e.octets.headD 0

/-- The octets of a string of elements. -/
def flatten (es : List (Element g)) : List UInt8 := es.flatMap Element.octets

/-- The elements of a string with the address each starts at, the first at `p`. -/
def offsets (p : Nat) : List (Element g) → List (UInt8 × Nat)
  | [] => []
  | e :: es => (e.tag, p) :: offsets (p + e.octets.length) es

/-- An octet string is well formed when it is a concatenation of elements. -/
def WellFormed (g : Grammar) (bs : List UInt8) : Prop := ∃ es : List (Element g), flatten es = bs

@[simp] theorem flatten_nil : flatten ([] : List (Element g)) = [] := rfl

@[simp] theorem flatten_cons (e : Element g) (es : List (Element g)) :
    flatten (e :: es) = e.octets ++ flatten es := rfl

/-- The size of the element an octet string starts with. -/
def frontSize (g : Grammar) : List UInt8 → Option Nat
  | [] => none
  | tag :: rest =>
      match g tag, rest with
      | some (.fixed size), _ => some size
      | some .tlv, hi :: lo :: _ => some (3 + be16 hi lo)
      | _, _ => none

theorem frontSize_append {a : List UInt8} (ha : IsElement g a) (rest : List UInt8) :
    frontSize g (a ++ rest) = some a.length := by
  cases ha with
  | fixed htag hsize => simp [frontSize, htag, ← hsize]
  | tlv htag hlength =>
      simp only [List.cons_append, frontSize, htag, List.length_cons, hlength, Option.some.injEq]
      omega

theorem Element.octets_ne_nil (e : Element g) : e.octets ≠ [] := by
  obtain ⟨octets, he⟩ := e
  cases he <;> simp

theorem Element.length_pos (e : Element g) : 0 < e.octets.length :=
  List.length_pos_iff.mpr e.octets_ne_nil

/-- The elements of two equal strings start with the same one. -/
theorem element_append_inj {e f : Element g} {r s : List UInt8}
    (h : e.octets ++ r = f.octets ++ s) : e = f ∧ r = s := by
  have hlen : e.octets.length = f.octets.length := by
    have := frontSize_append e.isElement r
    rw [h, frontSize_append f.isElement s] at this
    exact (Option.some.inj this).symm
  obtain ⟨ho, hr⟩ := List.append_inj h hlen
  obtain ⟨eo, _⟩ := e
  obtain ⟨fo, _⟩ := f
  cases ho
  exact ⟨rfl, hr⟩

/-- **Unique decomposition.** -/
theorem flatten_injective : Function.Injective (flatten (g := g)) := by
  intro es
  induction es with
  | nil =>
      intro fs h
      cases fs with
      | nil => rfl
      | cons f fs => simp [f.octets_ne_nil] at h
  | cons e es ih =>
      intro fs h
      cases fs with
      | nil => simp [e.octets_ne_nil] at h
      | cons f fs =>
          obtain ⟨rfl, hrest⟩ := element_append_inj h
          rw [ih hrest]

/-! ### Taking elements apart -/

/-- Take elements off the front of an octet string, at most the given number. -/
def splitN (g : Grammar) : Nat → List UInt8 → Option (List (List UInt8))
  | _, [] => some []
  | 0, _ :: _ => none
  | n + 1, bs =>
      match frontSize g bs with
      | some size =>
          if 0 < size ∧ size ≤ bs.length then
            (splitN g n (bs.drop size)).map (bs.take size :: ·)
          else none
      | none => none

/-- The elements of an octet string, if it is a concatenation of elements. -/
def split (g : Grammar) (bs : List UInt8) : Option (List (List UInt8)) := splitN g bs.length bs

theorem splitN_succ {n : Nat} {bs : List UInt8} (h : bs ≠ []) :
    splitN g (n + 1) bs = (frontSize g bs).bind fun size =>
      if 0 < size ∧ size ≤ bs.length then (splitN g n (bs.drop size)).map (bs.take size :: ·)
      else none := by
  obtain ⟨b, bs, rfl⟩ := List.exists_cons_of_ne_nil h
  simp only [splitN]
  cases frontSize g (b :: bs) <;> rfl

theorem splitN_flatten {es : List (Element g)} {n : Nat} (hn : es.length ≤ n) :
    splitN g n (flatten es) = some (es.map Element.octets) := by
  induction es generalizing n with
  | nil => cases n <;> rfl
  | cons e es ih =>
      obtain ⟨n, rfl⟩ := Nat.exists_eq_succ_of_ne_zero (Nat.ne_of_gt (Nat.zero_lt_of_lt hn))
      have hne : flatten (e :: es) ≠ [] := by simp [e.octets_ne_nil]
      have hle : e.octets.length ≤ (flatten (e :: es)).length := by simp
      have hes : es.length ≤ n := Nat.le_of_succ_le_succ hn
      rw [splitN_succ hne, flatten_cons, frontSize_append e.isElement, Option.bind_some,
        if_pos ⟨e.length_pos, hle⟩, List.drop_left, List.take_left, ih hes]
      rfl

theorem length_le_length_flatten (es : List (Element g)) : es.length ≤ (flatten es).length := by
  induction es with
  | nil => exact Nat.le_refl 0
  | cons e es ih =>
      have hpos := e.length_pos
      rw [flatten_cons, List.length_append, List.length_cons]
      omega

/-- **A string of elements is taken apart into these elements.** -/
theorem split_flatten (es : List (Element g)) :
    split g (flatten es) = some (es.map Element.octets) :=
  splitN_flatten (length_le_length_flatten es)

theorem isElement_take {bs : List UInt8} {size : Nat} (h : frontSize g bs = some size)
    (hpos : 0 < size) (hle : size ≤ bs.length) : IsElement g (bs.take size) := by
  obtain ⟨size, rfl⟩ := Nat.exists_eq_succ_of_ne_zero (Nat.ne_of_gt hpos)
  cases bs with
  | nil => cases h
  | cons tag rest =>
      rw [List.length_cons] at hle
      rw [List.take_succ_cons]
      simp only [frontSize] at h
      split at h
      · next htag =>
          obtain rfl := Option.some.inj h
          exact .fixed htag (by rw [List.length_take]; omega)
      · next hi lo value htag =>
          have hsize : 3 + be16 hi lo = size + 1 := Option.some.inj h
          obtain ⟨k, rfl⟩ : ∃ k, size = k + 2 := ⟨be16 hi lo, by omega⟩
          rw [List.length_cons, List.length_cons] at hle
          exact .tlv htag (by rw [List.length_take]; omega)
      · cases h

theorem flatten_of_splitN {n : Nat} {bs : List UInt8} {parts : List (List UInt8)}
    (h : splitN g n bs = some parts) : parts.flatten = bs ∧ ∀ part ∈ parts, IsElement g part := by
  induction n generalizing bs parts with
  | zero =>
      cases bs with
      | nil =>
          obtain rfl := Option.some.inj h
          exact ⟨rfl, List.forall_mem_nil _⟩
      | cons b bs => cases h
  | succ n ih =>
      by_cases hne : bs = []
      · subst hne
        obtain rfl := Option.some.inj h
        exact ⟨rfl, List.forall_mem_nil _⟩
      rw [splitN_succ hne, Option.bind_eq_some_iff] at h
      obtain ⟨size, hsize, h⟩ := h
      split_ifs at h with hfits
      rw [Option.map_eq_some_iff] at h
      obtain ⟨parts, hparts, rfl⟩ := h
      obtain ⟨hflat, hrest⟩ := ih hparts
      rw [List.flatten_cons, hflat, List.take_append_drop, List.forall_mem_cons]
      exact ⟨rfl, isElement_take hsize hfits.1 hfits.2, hrest⟩

/-- **What is taken apart is a string of elements**, and the parts are the elements. -/
theorem flatten_of_split {bs : List UInt8} {parts : List (List UInt8)}
    (h : split g bs = some parts) : parts.flatten = bs ∧ ∀ part ∈ parts, IsElement g part :=
  flatten_of_splitN h

/-! ### Elements in memory -/

variable {m : Mem} {p n : Nat}

/-- What the first element of a stretch of memory says about the memory. -/
theorem load_eq_element_append {e : Element g} {rest : List UInt8}
    (h : m.load p n = e.octets ++ rest) :
    e.octets.length ≤ n ∧ m.load (p + e.octets.length) (n - e.octets.length) = rest ∧
      m p = e.tag := by
  have hle : e.octets.length ≤ n := by
    have := congrArg List.length h
    simp only [Mem.length_load, List.length_append] at this
    omega
  have hpos := e.length_pos
  have hsplit := m.load_add p e.octets.length (n - e.octets.length)
  rw [Nat.add_sub_cancel' hle, h] at hsplit
  obtain ⟨hfront, hrest⟩ := List.append_inj hsplit (by simp)
  refine ⟨hle, hrest.symm, ?_⟩
  have h0 : (m.load p e.octets.length)[0]? = some (m (p + 0)) := Mem.getElem?_load m hpos
  rw [← hfront, Nat.add_zero] at h0
  rw [Element.tag, List.headD_eq_head?_getD, List.head?_eq_getElem?, h0, Option.getD_some]

/-- The tag of an element fixes its size, or its second and third octets do. -/
theorem Element.size_cases (e : Element g) :
    g e.tag = some (.fixed e.octets.length) ∨
      (g e.tag = some .tlv ∧ ∃ hi lo value, e.octets = e.tag :: hi :: lo :: value ∧
        value.length = be16 hi lo) := by
  obtain ⟨octets, he⟩ := e
  cases he with
  | fixed htag hsize =>
      left
      simpa [Element.tag, ← hsize] using htag
  | tlv htag hlength =>
      right
      exact ⟨htag, _, _, _, rfl, hlength⟩

end Elements
