import Mathlib.Data.List.Basic

/-! Octet-addressed memory: stores and loads of octet strings, how they compose, and the 16-bit
fields of network formats. -/

namespace Octets

/-- Memory as the octet at each address. -/
abbrev Mem := Nat → UInt8

namespace Mem

/-- Store an octet string at `off`. -/
def store (m : Mem) (off : Nat) (bs : List UInt8) : Mem :=
  fun i => if off ≤ i then (bs[i - off]?).getD (m i) else m i

/-- The `n` octets at `off`. -/
def load (m : Mem) (off n : Nat) : List UInt8 := (List.range n).map fun i => m (off + i)

/-- Memory of zeros. -/
def blank : Mem := fun _ => 0

@[simp] theorem store_zero_apply (m : Mem) (bs : List UInt8) (i : Nat) :
    m.store 0 bs i = (bs[i]?).getD (m i) := by
  simp [store]

theorem store_apply_of_ge (m : Mem) {off i : Nat} (bs : List UInt8) (h : off + bs.length ≤ i) :
    m.store off bs i = m i := by
  rw [store, if_pos (by omega), List.getElem?_eq_none (by omega), Option.getD_none]

theorem store_apply_of_lt (m : Mem) {off i : Nat} (bs : List UInt8) (h : i < off) :
    m.store off bs i = m i :=
  if_neg (Nat.not_le.mpr h)

theorem store_add_apply (m : Mem) (off i : Nat) (bs : List UInt8) (h : i < bs.length) :
    m.store off bs (off + i) = bs[i] := by
  rw [store, if_pos (by omega), Nat.add_sub_cancel_left, List.getElem?_eq_getElem h,
    Option.getD_some]

/-- A store into the range of another one, or right after it, changes the string stored. -/
theorem store_store (m : Mem) {off off' : Nat} (a b : List UInt8) (h : off ≤ off')
    (h' : off' ≤ off + a.length) :
    (m.store off a).store off' b =
      m.store off (a.take (off' - off) ++ b ++ a.drop (off' - off + b.length)) := by
  obtain ⟨k, rfl⟩ := Nat.exists_eq_add_of_le h
  have hk : k ≤ a.length := by omega
  rw [Nat.add_sub_cancel_left]
  funext i
  by_cases h1 : i < off
  · simp [store, Nat.not_le.mpr h1, show ¬ off + k ≤ i by omega]
  obtain ⟨j, rfl⟩ := Nat.exists_eq_add_of_le (Nat.not_lt.mp h1)
  have hsub : off + j - (off + k) = j - k := by omega
  simp only [store, Nat.add_le_add_iff_left, Nat.le_add_right, if_true, Nat.add_sub_cancel_left, hsub]
  rcases Nat.lt_or_ge j k with hjk | hjk
  · rw [if_neg (by omega), List.append_assoc, List.getElem?_append_left (by simp; omega),
      List.getElem?_take_of_lt hjk]
  · rw [if_pos hjk, List.append_assoc, List.getElem?_append_right (by simp; omega),
      List.length_take, Nat.min_eq_left hk]
    rcases Nat.lt_or_ge (j - k) b.length with hb | hb
    · rw [List.getElem?_append_left hb, List.getElem?_eq_getElem hb, Option.getD_some,
        Option.getD_some]
    · rw [List.getElem?_append_right hb, List.getElem?_drop, List.getElem?_eq_none hb,
        Option.getD_none]
      congr 2
      omega

/-- A string stored right after another one. -/
theorem store_append (m : Mem) (off : Nat) (a b : List UInt8) :
    (m.store off a).store (off + a.length) b = m.store off (a ++ b) := by
  have hnil : a.drop (a.length + b.length) = [] := List.drop_eq_nil_of_le (Nat.le_add_right _ _)
  rw [store_store m a b (Nat.le_add_right _ _) (Nat.le_refl _), Nat.add_sub_cancel_left,
    List.take_length, hnil, List.append_nil]

/-- Copy a string and its terminating zero octet. -/
def strcpy (m : Mem) (dst : Nat) (src : List UInt8) : Mem := m.store dst (src ++ [0])

/-- Store a 16-bit value on a little-endian host. -/
def store16 (m : Mem) (off : Nat) (v : UInt16) : Mem :=
  m.store off [UInt8.ofNat (v.toNat % 256), UInt8.ofNat (v.toNat / 256)]

/-- Load a 16-bit value on a little-endian host. -/
def load16 (m : Mem) (off : Nat) : UInt16 :=
  UInt16.ofNat ((m off).toNat + 256 * (m (off + 1)).toNat)

@[simp] theorem length_load (m : Mem) (off n : Nat) : (m.load off n).length = n := by
  simp [load]

theorem getElem?_load (m : Mem) {off n i : Nat} (h : i < n) :
    (m.load off n)[i]? = some (m (off + i)) := by
  simp [load, List.getElem?_map, List.getElem?_range h]

theorem load_eq_iff {m : Mem} {off n : Nat} {bs : List UInt8} (hlen : bs.length = n) :
    m.load off n = bs ↔ ∀ i (h : i < bs.length), m (off + i) = bs[i] := by
  subst hlen
  constructor
  · intro h i hi
    have hget : (m.load off bs.length)[i]? = some (m (off + i)) := getElem?_load m hi
    rw [h, List.getElem?_eq_getElem hi] at hget
    exact (Option.some.inj hget).symm
  · intro h
    apply List.ext_getElem (by simp)
    intro i h1 h2
    simp [load, h i h2]

@[simp] theorem load_store (m : Mem) (off : Nat) (bs : List UInt8) :
    (m.store off bs).load off bs.length = bs :=
  (load_eq_iff rfl).mpr fun i h => store_add_apply m off i bs h

theorem load_add (m : Mem) (off a b : Nat) :
    m.load off (a + b) = m.load off a ++ m.load (off + a) b := by
  simp [load, List.range_add, Nat.add_assoc]

theorem load_congr {m m' : Mem} {off n : Nat} (h : ∀ a ∈ List.range' off n, m a = m' a) :
    m.load off n = m'.load off n := by
  apply List.map_congr_left
  intro k hk
  have hlt := List.mem_range.mp hk
  exact h _ (List.mem_range'_1.mpr (by omega))

/-- Two memories agree on the first `n` octets. -/
def AgreeBelow (n : Nat) (m m' : Mem) : Prop := ∀ i < n, m i = m' i

theorem AgreeBelow.trans {n : Nat} {m m' m'' : Mem} (h : AgreeBelow n m m')
    (h' : AgreeBelow n m' m'') : AgreeBelow n m m'' :=
  fun i hi => (h i hi).trans (h' i hi)

theorem agreeBelow_update (m : Mem) {n p : Nat} (h : n ≤ p) (v : UInt8) :
    AgreeBelow n m (Function.update m p v) := by
  intro i hi
  rw [Function.update_of_ne (by omega)]

theorem AgreeBelow.store {n : Nat} {m m' : Mem} (h : AgreeBelow n m m') (off : Nat)
    (bs : List UInt8) : AgreeBelow n (m.store off bs) (m'.store off bs) := by
  intro i hi
  simp only [Mem.store, h i hi]

theorem AgreeBelow.load {n : Nat} {m m' : Mem} (h : AgreeBelow n m m') {off k : Nat}
    (hle : off + k ≤ n) : m.load off k = m'.load off k := by
  apply load_congr
  intro a ha
  rw [List.mem_range'_1] at ha
  exact h a (by omega)

/-- A string and nothing but zeros behind it. -/
def pad (t : List UInt8) : Mem := blank.store 0 t

@[simp] theorem pad_apply (t : List UInt8) (i : Nat) : pad t i = (t[i]?).getD 0 := store_zero_apply _ _ _

theorem pad_store {t : List UInt8} {off : Nat} (bs : List UInt8) (h : off ≤ t.length) :
    (pad t).store off bs = pad (t.take off ++ bs ++ t.drop (off + bs.length)) := by
  rw [pad, store_store blank t bs (Nat.zero_le off) (by omega), Nat.sub_zero]
  rfl

theorem pad_append_zeros (t : List UInt8) (n : Nat) : pad (t ++ List.replicate n 0) = pad t := by
  funext i
  rw [pad_apply, pad_apply]
  rcases Nat.lt_or_ge i t.length with h | h
  · rw [List.getElem?_append_left h]
  · rw [List.getElem?_append_right h, List.getElem?_eq_none h, List.getElem?_replicate]
    split <;> rfl

theorem load_pad {t : List UInt8} {off n : Nat} (h : off + n ≤ t.length) :
    (pad t).load off n = (t.drop off).take n := by
  have hlen : ((t.drop off).take n).length = n := by
    rw [List.length_take, List.length_drop]
    omega
  refine (load_eq_iff hlen).mpr fun i hi => ?_
  rw [hlen] at hi
  rw [pad_apply, List.getElem?_eq_getElem (by omega), List.getElem_take, List.getElem_drop]
  rfl

end Mem

/-- The value of a 16-bit field in network byte order. -/
def be16 (hi lo : UInt8) : Nat := 256 * hi.toNat + lo.toNat

/-- The two octets of a 16-bit value in network byte order. -/
def octets16 (n : Nat) : List UInt8 := [UInt8.ofNat (n / 256), UInt8.ofNat n]

theorem be16_octets16 {n : Nat} (h : n < 65536) :
    be16 (UInt8.ofNat (n / 256)) (UInt8.ofNat n) = n := by
  simp only [be16, UInt8.toNat_ofNat']
  omega

theorem octets16_be16 (hi lo : UInt8) : octets16 (be16 hi lo) = [hi, lo] := by
  have hlo := lo.toNat_lt
  have hhigh : be16 hi lo / 256 = hi.toNat := by
    rw [be16]
    omega
  have hlow : UInt8.ofNat (be16 hi lo) = lo := by
    apply UInt8.toNat_inj.mp
    rw [UInt8.toNat_ofNat', be16]
    omega
  rw [octets16, hhigh, hlow, UInt8.ofNat_toNat]

/-- The octets of a 16-bit value exchanged. -/
def htons (v : UInt16) : UInt16 := UInt16.ofNat (v.toNat % 256 * 256 + v.toNat / 256)

/-- Read back through the host's byte order, a field is its value in network order. -/
theorem htons_load16 (m : Mem) (off : Nat) :
    (htons (m.load16 off)).toNat = be16 (m off) (m (off + 1)) := by
  have h1 := (m off).toNat_lt
  have h2 := (m (off + 1)).toNat_lt
  have hload : (m.load16 off).toNat = (m off).toNat + 256 * (m (off + 1)).toNat := by
    rw [Mem.load16, UInt16.toNat_ofNat', Nat.mod_eq_of_lt (by omega)]
  have hlow : (m.load16 off).toNat % 256 = (m off).toNat := by omega
  have hhigh : (m.load16 off).toNat / 256 = (m (off + 1)).toNat := by omega
  calc (htons (m.load16 off)).toNat
      = ((m.load16 off).toNat % 256 * 256 + (m.load16 off).toNat / 256) % 65536 :=
        UInt16.toNat_ofNat'
    _ = (m off).toNat * 256 + (m (off + 1)).toNat := by
        rw [hlow, hhigh, Nat.mod_eq_of_lt (by omega)]
    _ = be16 (m off) (m (off + 1)) := by rw [be16, Nat.mul_comm]

end Octets
