import Mathlib.Logic.Function.Basic
import Mathlib.Tactic.Ring
import SoftBts.Lib.Octets

/-! Packed records of bit fields, as a compiler for a little-endian host lays them out: the members
follow one another without gaps, the first one in the lowest bits, in octets of which the first is
the lowest. What is read through a record laid over memory, and that it undoes the packing. -/

namespace BitFields

open Octets

/-! ### Numbers as octets -/

/-- The first `n` octets of a number. -/
def octets (n u : Nat) : List UInt8 := (List.range n).map fun k => UInt8.ofNat (u / 256 ^ k)

/-- The number that octets make up. -/
def number : List UInt8 → Nat
  | [] => 0
  | o :: os => o.toNat + 256 * number os

@[simp] theorem length_octets (n u : Nat) : (octets n u).length = n := by
  simp [octets]

theorem octets_succ (n u : Nat) : octets (n + 1) u = UInt8.ofNat u :: octets n (u / 256) := by
  simp only [octets, List.range_succ_eq_map, List.map_cons, List.map_map, pow_zero, Nat.div_one]
  congr 1
  apply List.map_congr_left
  intro k _
  show UInt8.ofNat (u / 256 ^ (k + 1)) = UInt8.ofNat (u / 256 / 256 ^ k)
  rw [Nat.div_div_eq_div_mul, Nat.pow_succ']

theorem octets_add (n k u : Nat) : octets (n + k) u = octets n u ++ octets k (u / 256 ^ n) := by
  induction n generalizing u with
  | zero => simp [octets]
  | succ n ih =>
      rw [Nat.succ_add, octets_succ, octets_succ, ih, List.cons_append, Nat.div_div_eq_div_mul,
        Nat.pow_succ']

/-- The octets below a place do not depend on what the number has from there on. -/
theorem octets_add_mul (n u x : Nat) : octets n (u + 256 ^ n * x) = octets n u := by
  induction n generalizing u with
  | zero => rfl
  | succ n ih =>
      have hdiv : (u + 256 ^ (n + 1) * x) / 256 = u / 256 + 256 ^ n * x := by
        rw [Nat.pow_succ', Nat.mul_assoc, Nat.add_mul_div_left u _ (by decide)]
      have hhead : UInt8.ofNat (u + 256 ^ (n + 1) * x) = UInt8.ofNat u := by
        apply UInt8.toNat_inj.mp
        rw [UInt8.toNat_ofNat', UInt8.toNat_ofNat', Nat.pow_succ', Nat.mul_assoc]
        exact Nat.add_mul_mod_self_left u 256 _
      rw [octets_succ, octets_succ, hdiv, hhead, ih]

theorem octets_mod (n u : Nat) : octets n (u % 256 ^ n) = octets n u := by
  calc
    octets n (u % 256 ^ n) = octets n (u % 256 ^ n + 256 ^ n * (u / 256 ^ n)) :=
      (octets_add_mul n _ _).symm
    _ = octets n u := by rw [Nat.mod_add_div]

theorem number_octets (n u : Nat) : number (octets n u) = u % 256 ^ n := by
  induction n generalizing u with
  | zero => rw [pow_zero, Nat.mod_one]; rfl
  | succ n ih =>
      have hsplit : u % (256 * 256 ^ n) = u % 256 + 256 * (u / 256 % 256 ^ n) := Nat.mod_mul
      rw [octets_succ, number, ih, UInt8.toNat_ofNat', pow_succ' 256 n, hsplit]

theorem number_lt (os : List UInt8) : number os < 256 ^ os.length := by
  induction os with
  | nil => exact Nat.one_pos
  | cons o os ih =>
      have ho := o.toNat_lt
      calc
        number (o :: os) < 256 + 256 * number os := Nat.add_lt_add_right ho _
        _ = 256 * (number os + 1) := by ring
        _ ≤ 256 * 256 ^ os.length := Nat.mul_le_mul_left _ ih
        _ = 256 ^ (o :: os).length := (Nat.pow_succ').symm

theorem octets_number (os : List UInt8) : octets os.length (number os) = os := by
  induction os with
  | nil => rfl
  | cons o os ih =>
      have ho := o.toNat_lt
      have hdiv : number (o :: os) / 256 = number os := by
        rw [number]
        omega
      have hhead : UInt8.ofNat (number (o :: os)) = o := by
        apply UInt8.toNat_inj.mp
        rw [UInt8.toNat_ofNat', number]
        omega
      rw [List.length_cons, octets_succ, hdiv, hhead, ih]

/-- Bits that lie in some octets of a number. -/
theorem bits_of_octets {u off w n : Nat} (h : off % 8 + w ≤ 8 * n) :
    u / 256 ^ (off / 8) % 256 ^ n / 2 ^ (off % 8) % 2 ^ w = u / 2 ^ off % 2 ^ w := by
  obtain ⟨s, hs⟩ := Nat.exists_eq_add_of_le h
  have hpow : 256 ^ n = 2 ^ (off % 8) * (2 ^ w * 2 ^ s) := by
    rw [← pow_add, ← pow_add, ← Nat.add_assoc, ← hs]
    exact (pow_mul 2 8 n).symm
  have hoff : 256 ^ (off / 8) * 2 ^ (off % 8) = 2 ^ off := by
    calc
      256 ^ (off / 8) * 2 ^ (off % 8) = 2 ^ (8 * (off / 8)) * 2 ^ (off % 8) := by
        rw [pow_mul]
        rfl
      _ = 2 ^ (8 * (off / 8) + off % 8) := (pow_add 2 _ _).symm
      _ = 2 ^ off := by rw [Nat.div_add_mod]
  rw [hpow, Nat.mod_mul_right_div_self, Nat.mod_mod_of_dvd _ (Nat.dvd_mul_right _ _),
    Nat.div_div_eq_div_mul, hoff]

/-! ### Records -/

section Packing

variable {ι : Type*} (width : ι → Nat)

/-- How many bits the members take. -/
def bitLength (l : List ι) : Nat := (l.map width).sum

/-- The number that has the members in its bits. -/
def pack (v : ∀ i, BitVec (width i)) : List ι → Nat
  | [] => 0
  | i :: l => (v i).toNat + 2 ^ width i * pack v l

variable {width} {v : ∀ i, BitVec (width i)}

theorem bitLength_append (l l' : List ι) :
    bitLength width (l ++ l') = bitLength width l + bitLength width l' := by
  rw [bitLength, List.map_append, List.sum_append]
  rfl

theorem pack_append (l l' : List ι) :
    pack width v (l ++ l') = pack width v l + 2 ^ bitLength width l * pack width v l' := by
  induction l with
  | nil => simp [pack, bitLength]
  | cons i l ih =>
      have hlength : bitLength width (i :: l) = width i + bitLength width l := rfl
      rw [List.cons_append, pack, pack, ih, hlength, pow_add]
      ring

theorem pack_lt (l : List ι) : pack width v l < 2 ^ bitLength width l := by
  induction l with
  | nil => exact Nat.one_pos
  | cons i l ih =>
      have hi : (v i).toNat < 2 ^ width i := (v i).isLt
      calc
        pack width v (i :: l) < 2 ^ width i + 2 ^ width i * pack width v l :=
          Nat.add_lt_add_right hi _
        _ = 2 ^ width i * (pack width v l + 1) := by ring
        _ ≤ 2 ^ width i * 2 ^ bitLength width l := Nat.mul_le_mul_left _ ih
        _ = 2 ^ bitLength width (i :: l) := (pow_add 2 _ _).symm

theorem pack_congr {v' : ∀ i, BitVec (width i)} {l : List ι} (h : ∀ i ∈ l, v i = v' i) :
    pack width v l = pack width v' l := by
  induction l with
  | nil => rfl
  | cons i l ih =>
      obtain ⟨hi, hl⟩ := List.forall_mem_cons.mp h
      rw [pack, pack, hi, ih hl]

/-- Every number of that many bits is made of some values of different members. -/
theorem exists_pack [DecidableEq ι] {l : List ι} (hl : l.Nodup) {u : Nat}
    (hu : u < 2 ^ bitLength width l) : ∃ v, pack width v l = u := by
  induction l generalizing u with
  | nil => exact ⟨fun _ => 0, (Nat.lt_one_iff.mp hu).symm⟩
  | cons i l ih =>
      obtain ⟨hi, hl⟩ := List.nodup_cons.mp hl
      have hrest : u / 2 ^ width i < 2 ^ bitLength width l := by
        apply Nat.div_lt_of_lt_mul
        rw [← pow_add]
        exact hu
      obtain ⟨v, hv⟩ := ih hl hrest
      refine ⟨Function.update v i (BitVec.ofNat (width i) u), ?_⟩
      have hpack : pack width (Function.update v i (BitVec.ofNat (width i) u)) l =
          u / 2 ^ width i := by
        rw [← hv]
        apply pack_congr
        intro j hj
        exact Function.update_of_ne (ne_of_mem_of_not_mem hj hi) _ v
      rw [pack, hpack, Function.update_self, BitVec.toNat_ofNat, Nat.mod_add_div]

theorem split_of_mem [DecidableEq ι] {l : List ι} {i : ι} (hi : i ∈ l) :
    ∃ rest, l = (l.takeWhile fun j => j ≠ i) ++ i :: rest := by
  induction l with
  | nil => cases hi
  | cons j l ih =>
      by_cases hj : j = i
      · exact ⟨l, by simp [hj]⟩
      · obtain ⟨rest, hrest⟩ := ih ((List.mem_cons.mp hi).resolve_left (Ne.symm hj))
        have htake : (j :: l).takeWhile (fun k => k ≠ i) = j :: l.takeWhile fun k => k ≠ i :=
          List.takeWhile_cons_of_pos (decide_eq_true hj)
        refine ⟨rest, ?_⟩
        rw [htake, List.cons_append, ← hrest]

end Packing

/-- A packed record: its members take whole octets. -/
structure Record {ι : Type*} (width : ι → Nat) where
  members : List ι
  whole : bitLength width members % 8 = 0 := by decide

namespace Record

variable {ι : Type*} {width : ι → Nat}

/-- A record inside another one takes its octets in its place. -/
instance : Append (Record width) where
  append r r' :=
    { members := r.members ++ r'.members
      whole := by rw [bitLength_append, Nat.add_mod, r.whole, r'.whole] }

/-- `sizeof` -/
def size (r : Record width) : Nat := bitLength width r.members / 8

/-- The octets of the record that has these values. -/
def encode (v : ∀ i, BitVec (width i)) (r : Record width) : List UInt8 :=
  octets r.size (pack width v r.members)

/-- The bit that a member starts at. -/
def offset [DecidableEq ι] (r : Record width) (i : ι) : Nat :=
  bitLength width (r.members.takeWhile fun j => j ≠ i)

variable {r r' : Record width} {v : ∀ i, BitVec (width i)}

theorem bitLength_members (r : Record width) : bitLength width r.members = 8 * r.size := by
  have hwhole := r.whole
  rw [size]
  omega

@[simp] theorem length_encode (r : Record width) : (r.encode v).length = r.size :=
  length_octets _ _

@[simp] theorem members_append : (r ++ r').members = r.members ++ r'.members := rfl

@[simp] theorem size_append : (r ++ r').size = r.size + r'.size := by
  have hboth : bitLength width (r ++ r').members = 8 * r.size + 8 * r'.size := by
    rw [members_append, bitLength_append, bitLength_members, bitLength_members]
  rw [size, hboth]
  omega

theorem pack_lt_size (r : Record width) : pack width v r.members < 256 ^ r.size := by
  have hlt : pack width v r.members < 2 ^ bitLength width r.members := pack_lt r.members
  rw [bitLength_members, pow_mul] at hlt
  exact hlt

theorem encode_append : (r ++ r').encode v = r.encode v ++ r'.encode v := by
  have hpack : pack width v (r ++ r').members =
      pack width v r.members + 256 ^ r.size * pack width v r'.members := by
    rw [members_append, pack_append, bitLength_members, pow_mul]
    rfl
  rw [encode, size_append, hpack, octets_add, octets_add_mul,
    Nat.add_mul_div_left _ _ (Nat.pow_pos (by decide)), Nat.div_eq_of_lt r.pack_lt_size,
    Nat.zero_add]
  rfl

variable [DecidableEq ι]

theorem offset_add_width_le {i : ι} (hi : i ∈ r.members) : r.offset i + width i ≤ 8 * r.size := by
  obtain ⟨rest, hrest⟩ := split_of_mem hi
  rw [← bitLength_members]
  conv_rhs => rw [hrest, bitLength_append]
  exact Nat.add_le_add_left (Nat.le_add_right _ _) _

/-- The bits of a member. -/
theorem pack_div_offset {i : ι} (hi : i ∈ r.members) :
    pack width v r.members / 2 ^ r.offset i % 2 ^ width i = (v i).toNat := by
  obtain ⟨rest, hrest⟩ := split_of_mem hi
  have hpack : pack width v r.members = pack width v (r.members.takeWhile fun j => j ≠ i) +
      2 ^ r.offset i * ((v i).toNat + 2 ^ width i * pack width v rest) := by
    conv_lhs => rw [hrest, pack_append]
    rfl
  have hlt : pack width v (r.members.takeWhile fun j => j ≠ i) < 2 ^ r.offset i := pack_lt _
  rw [hpack, Nat.add_mul_div_left _ _ (Nat.two_pow_pos _), Nat.div_eq_of_lt hlt, Nat.zero_add,
    Nat.add_mul_mod_self_left, Nat.mod_eq_of_lt (v i).isLt]

/-- Every octet string of the size is a record, if no member is in it twice. -/
theorem exists_encode (hr : r.members.Nodup) {os : List UInt8} (hos : os.length = r.size) :
    ∃ v, r.encode v = os := by
  have hlt : number os < 2 ^ bitLength width r.members := by
    rw [bitLength_members, pow_mul, ← hos]
    exact number_lt os
  obtain ⟨v, hv⟩ := exists_pack hr hlt
  refine ⟨v, ?_⟩
  rw [encode, hv, ← hos, octets_number]

end Record

/-! ### Overlays -/

/-- A record laid over memory. -/
structure Overlay {ι : Type*} (width : ι → Nat) where
  record : Record width
  base : Nat

namespace Overlay

variable {ι : Type*} {width : ι → Nat}

/-- The address behind the record. -/
def past (o : Overlay width) : Nat := o.base + o.record.size

/-- The memory has the record with these values there. -/
def Holds (o : Overlay width) (m : Mem) (v : ∀ i, BitVec (width i)) : Prop :=
  m.load o.base o.record.size = o.record.encode v

variable {r r' : Record width} {base : Nat} {o : Overlay width} {m : Mem}
  {v : ∀ i, BitVec (width i)}

theorem holds_append :
    Holds ⟨r ++ r', base⟩ m v ↔ Holds ⟨r, base⟩ m v ∧ Holds ⟨r', base + r.size⟩ m v := by
  simp only [Holds, Record.size_append, Mem.load_add, Record.encode_append]
  constructor
  · intro h
    exact List.append_inj h (by simp)
  · rintro ⟨hleft, hright⟩
    rw [hleft, hright]

theorem load_of_holds (h : o.Holds m v) {k n : Nat} (hk : k + n ≤ o.record.size) :
    m.load (o.base + k) n = octets n (pack width v o.record.members / 256 ^ k) := by
  obtain ⟨rest, hrest⟩ := Nat.exists_eq_add_of_le hk
  unfold Holds Record.encode at h
  rw [hrest, Nat.add_assoc, Mem.load_add, octets_add, Mem.load_add, octets_add] at h
  obtain ⟨-, hbehind⟩ := List.append_inj h (by simp)
  exact (List.append_inj hbehind (by simp)).1

variable [DecidableEq ι] {i : ι}

/-- The address of the octet that a member starts in. -/
def address (o : Overlay width) (i : ι) : Nat := o.base + o.record.offset i / 8

/-- How many octets a member has bits in. -/
def span (o : Overlay width) (i : ι) : Nat := (o.record.offset i % 8 + width i + 7) / 8

def addresses (o : Overlay width) (i : ι) : List Nat := List.range' (o.address i) (o.span i)

def read (o : Overlay width) (m : Mem) (i : ι) : BitVec (width i) :=
  BitVec.ofNat (width i) (number (m.load (o.address i) (o.span i)) / 2 ^ (o.record.offset i % 8))

/-- **What is read is what was packed.** -/
theorem read_of_holds (h : Holds ⟨r, base⟩ m v) (hi : i ∈ r.members) :
    read ⟨r, base⟩ m i = v i := by
  have hfit := r.offset_add_width_le hi
  have hspan : span ⟨r, base⟩ i = (r.offset i % 8 + width i + 7) / 8 := rfl
  have hbits : r.offset i % 8 + width i ≤ 8 * span ⟨r, base⟩ i := by omega
  have hload : m.load (base + r.offset i / 8) (span ⟨r, base⟩ i) =
      octets (span ⟨r, base⟩ i) (pack width v r.members / 256 ^ (r.offset i / 8)) :=
    load_of_holds h (show r.offset i / 8 + span ⟨r, base⟩ i ≤ r.size by omega)
  apply BitVec.eq_of_toNat_eq
  rw [read, address, hload, number_octets, BitVec.toNat_ofNat, bits_of_octets hbits,
    r.pack_div_offset hi]

/-- A member of whole octets, such as an array. -/
theorem load_member_of_holds (h : Holds ⟨r, base⟩ m v) (hi : i ∈ r.members) {n : Nat}
    (hoffset : r.offset i % 8 = 0) (hwidth : width i = 8 * n) :
    m.load (address ⟨r, base⟩ i) n = octets n (v i).toNat := by
  have hfit := r.offset_add_width_le hi
  have hplace : r.offset i = 8 * (r.offset i / 8) := by omega
  have hpow : 2 ^ r.offset i = 256 ^ (r.offset i / 8) := by
    calc
      2 ^ r.offset i = 2 ^ (8 * (r.offset i / 8)) := congrArg (2 ^ ·) hplace
      _ = 256 ^ (r.offset i / 8) := pow_mul 2 8 _
  have hmod : 2 ^ width i = 256 ^ n := by
    rw [hwidth]
    exact pow_mul 2 8 n
  have hload : m.load (base + r.offset i / 8) n =
      octets n (pack width v r.members / 256 ^ (r.offset i / 8)) :=
    load_of_holds h (show r.offset i / 8 + n ≤ r.size by omega)
  rw [address, hload, ← r.pack_div_offset hi, hmod, hpow]
  exact (octets_mod n _).symm

/-- A member at the same place in another record laid there. -/
theorem read_eq_of_offset (h : r.offset i = r'.offset i) :
    read ⟨r, base⟩ m i = read ⟨r', base⟩ m i := by
  simp only [read, address, span, h]

/-- A member inside one octet. -/
theorem read_octet {k b : Nat} (hoffset : r.offset i = 8 * k + b)
    (hwidth : 0 < width i := by decide) (hfit : b + width i ≤ 8 := by decide) :
    (read ⟨r, base⟩ m i).toNat = (m (base + k)).toNat / 2 ^ b % 2 ^ width i := by
  have haddress : address ⟨r, base⟩ i = base + k := by
    simp only [address, hoffset]
    omega
  have hspan : span ⟨r, base⟩ i = 1 := by
    simp only [span, hoffset]
    omega
  have hbit : r.offset i % 8 = b := by omega
  have hnumber : number (m.load (base + k) 1) = (m (base + k)).toNat := Nat.add_zero _
  rw [read, haddress, hspan, hnumber, hbit, BitVec.toNat_ofNat]

theorem addresses_eq {n : Nat} (hoffset : r.offset i % 8 = 0) (hwidth : width i = 8 * n) :
    addresses ⟨r, base⟩ i = List.range' (address ⟨r, base⟩ i) n := by
  have hspan : span ⟨r, base⟩ i = n := by
    simp only [span, hoffset, hwidth]
    omega
  rw [addresses, hspan]

theorem mem_addresses (hi : i ∈ r.members) {a : Nat} (ha : a ∈ addresses ⟨r, base⟩ i) :
    base ≤ a ∧ a < base + r.size := by
  have hfit := r.offset_add_width_le hi
  have hrange := List.mem_range'_1.mp ha
  simp only [address, span] at hrange
  omega

end Overlay

/-! ### Bit strings -/

/-- The lowest `w` bits of a number, the highest of them first. -/
def bitString : Nat → Nat → List Bool
  | 0, _ => []
  | w + 1, u => u.testBit w :: bitString w u

/-- The number whose bits these are, the highest one first. -/
def spelled : List Bool → Nat
  | [] => 0
  | b :: bs => 2 ^ bs.length * b.toNat + spelled bs

@[simp] theorem length_bitString (w u : Nat) : (bitString w u).length = w := by
  induction w with
  | zero => rfl
  | succ w ih => rw [bitString, List.length_cons, ih]

theorem spelled_append (bs bs' : List Bool) :
    spelled (bs ++ bs') = 2 ^ bs'.length * spelled bs + spelled bs' := by
  induction bs with
  | nil => simp [spelled]
  | cons b bs ih =>
      rw [List.cons_append, spelled, spelled, ih, List.length_append, pow_add]
      ring

theorem spelled_bitString (w u : Nat) : spelled (bitString w u) = u % 2 ^ w := by
  induction w with
  | zero => rw [pow_zero, Nat.mod_one]; rfl
  | succ w ih =>
      rw [bitString, spelled, length_bitString, ih, Nat.toNat_testBit, Nat.mod_pow_succ, Nat.add_comm]

theorem spelled_lt (bs : List Bool) : spelled bs < 2 ^ bs.length := by
  induction bs with
  | nil => exact Nat.one_pos
  | cons b bs ih =>
      have hb : 2 ^ bs.length * b.toNat ≤ 2 ^ bs.length := by
        cases b <;> simp
      rw [spelled, List.length_cons, pow_succ]
      omega

end BitFields
