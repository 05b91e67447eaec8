import Mathlib.Data.Fintype.Basic
import SoftBts.OmlMsg
import SoftBts.RslRecords

/-! The rest octets of System Information type 3 (`rest_octets_si3`). The first half of the function
walks over the indicators, the second half prints the optional parameters. What they are compared
with are the positions that the indicators have and the bits that a choice of parameters is encoded
in. -/

namespace SoftBts.Rsl

open Octets BitFields

/-- `is_bit_H`: the bit differs from the one of the padding octet. The bits of an octet are numbered
from the highest one. -/
def isBitH (ch : UInt8) (offset : Nat) : Bool :=
  let mask : UInt8 := 0x80 >>> UInt8.ofNat (offset &&& 0x07)
  (ch &&& mask) ^^^ (0x2b &&& mask) ≠ 0

/-! ### The function -/

/-- A call `is_bit_H(si3[octet], bit)` for the indicator at a position, as it is printed before. -/
structure Test where
  position : Nat
  octet : Nat
  bit : Nat
  deriving DecidableEq

/-- The octet and the bit that the function works out for a position. -/
def Test.at (p : Nat) : Test := ⟨p, p / 8, p - 8 * (p / 8) + 1⟩

@[simp] theorem Test.at_position (p : Nat) : (Test.at p).position = p := rfl

/-- The result of the call. -/
def Test.high (m : Mem) (si3 : Nat) (t : Test) : Bool := isBitH (m (si3 + t.octet)) t.bit

/-- The first half, for the octets at `si3`: the indicators `spi`, `poi`, `sii`, `csi` and `sci`. -/
def walk (m : Mem) (si3 : Nat) : List Test :=
  let spi : Test := ⟨0, 0, 0⟩
  let poi := Test.at (if spi.high m si3 then spi.position + 16 else spi.position + 1)
  let sii := Test.at (if poi.high m si3 then poi.position + 3 else poi.position + 1)
  let csi := Test.at (if sii.high m si3 then sii.position + 1 else sii.position + 1)
  let sci := Test.at (if csi.high m si3 then csi.position + 1 else csi.position + 1)
  [spi, poi, sii, csi, sci]

/-- What happens to be in the locals that are not assigned before they are read: `octets`, and where
`poii` points, if that may be read. -/
structure Locals where
  octets : UInt8
  poii : Option Nat

/-- The octets that the function is called for, what it prints, and whether it comes to its end. -/
structure Rest where
  si3 : Nat
  tests : List Test
  reports : List Report
  stop : Option Stop

/-- The call `is_bit_H(sel->present, 4)`. -/
def presentTest (m : Mem) (si3 : Nat) : Bool :=
  isBitH (UInt8.ofNat (Overlay.read ⟨si3SelectionParams, si3⟩ m .selPresent).toNat) 4

/-- The selection parameters through `sel`. -/
def selectionReports (m : Mem) (si3 : Nat) : List Report :=
  let sel : Overlay Member.width := ⟨si3SelectionParams, si3⟩
  let state := say sel m (.selection, .selPresent)
  if presentTest m si3 then
    [state, say sel m (.cbq, .cbq), say sel m (.cellReselectOffset, .cellReselOff),
      say sel m (.temporaryOffset, .tempOffs), say sel m (.penaltyTime, .penaltyTime)]
  else [state]

/-- The power offset through `poii`, in an octet made from the one at `address`. -/
def powerReports (octet : UInt8) (address : Nat) : List Report :=
  let poii : Overlay Member.width := ⟨si3PowerOffset, address⟩
  let m : Mem := fun _ => octet
  let state := say poii m (.power, .poPresent)
  if poii.read m .poPresent ≠ 0 then [state, say poii m (.powerOffset, .powerOffset)] else [state]

/-- `rest_octets_si3`. In the second half, `&si3[2]` is assigned to `poi`, which is not read again,
and `octets` and `poii` are never set, but where `octets` happens to be one. -/
def restOctetsSi3 (l : Locals) (m : Mem) (si3 : Nat) : Rest :=
  let reports := selectionReports m si3
  if l.octets = 1 then
    -- `info = si3[0] << 1`
    ⟨si3, walk m si3, reports ++ powerReports (m si3 <<< 1) si3, none⟩
  else
    match l.poii with
    | some p => ⟨si3, walk m si3, reports ++ powerReports (m p) p, none⟩
    | none => ⟨si3, walk m si3, reports, some .fault⟩

/-! ### The positions of the indicators -/

/-- The indicator at a position is H. -/
def high (m : Mem) (si3 p : Nat) : Bool := isBitH (m (si3 + p / 8)) (p % 8)

def poiPosition (m : Mem) (si3 : Nat) : Nat := if high m si3 0 then 16 else 1

def siiPosition (m : Mem) (si3 : Nat) : Nat :=
  if high m si3 (poiPosition m si3) then poiPosition m si3 + 3 else poiPosition m si3 + 1

/-- Where the indicators are: the selection parameters and the power offset stand behind theirs. -/
def positions (m : Mem) (si3 : Nat) : List Nat :=
  [0, poiPosition m si3, siiPosition m si3, siiPosition m si3 + 1, siiPosition m si3 + 2]

/-- Every indicator is tested at its position. -/
def TestsRight (m : Mem) (si3 : Nat) : Prop :=
  walk m si3 = (positions m si3).map fun p => ⟨p, p / 8, p % 8⟩

section Walk

variable (m : Mem) (si3 : Nat)

/-- Behind the first call, what is tested is the bit behind the position. -/
theorem high_at (p : Nat) (hp : p % 8 < 7) : (Test.at p).high m si3 = high m si3 (p + 1) := by
  have hdiv : (p + 1) / 8 = p / 8 := by omega
  have hmod : (p + 1) % 8 = p - 8 * (p / 8) + 1 := by omega
  rw [Test.high, high, hdiv, hmod]
  rfl

theorem poiPosition_cases : poiPosition m si3 = 1 ∨ poiPosition m si3 = 16 := by
  rw [poiPosition]
  split_ifs
  · exact Or.inr rfl
  · exact Or.inl rfl

/-- The position that the function works out for `sii`. -/
def siiWalked : Nat :=
  if high m si3 (poiPosition m si3 + 1) then poiPosition m si3 + 3 else poiPosition m si3 + 1

theorem walk_eq : walk m si3 =
    [⟨0, 0, 0⟩, .at (poiPosition m si3), .at (siiWalked m si3), .at (siiWalked m si3 + 1),
      .at (siiWalked m si3 + 2)] := by
  have hpoi : (if (⟨0, 0, 0⟩ : Test).high m si3 then 16 else 1) = poiPosition m si3 := rfl
  have hmod : poiPosition m si3 % 8 < 7 := by
    rcases poiPosition_cases m si3 with h | h <;> rw [h] <;> decide
  have hsii : (if (Test.at (poiPosition m si3)).high m si3 then poiPosition m si3 + 3
      else poiPosition m si3 + 1) = siiWalked m si3 := by
    rw [high_at m si3 _ hmod, siiWalked]
  simp only [walk, ite_self, Test.at_position, Nat.zero_add, hpoi, hsii]

theorem siiWalked_mem : siiWalked m si3 ∈ [2, 4, 17, 19] := by
  rw [siiWalked]
  rcases poiPosition_cases m si3 with h | h <;> rw [h] <;> split_ifs <;> decide

/-- What is tested after the first call, for a position in the middle of an octet. -/
theorem test_at {p : Nat} (hp : p ≠ 0) (hend : p < 32) (hmod : p % 8 < 7) :
    (Test.at p).octet < 4 ∧ (Test.at p).bit < 8 ∧ 8 * (Test.at p).octet + (Test.at p).bit =
      if (Test.at p).position = 0 then 0 else (Test.at p).position + 1 := by
  rw [Test.at_position, if_neg hp]
  simp only [Test.at]
  omega

theorem tested_behind {t : Test} (ht : t ∈ walk m si3) :
    t.octet < 4 ∧ t.bit < 8 ∧
      8 * t.octet + t.bit = if t.position = 0 then 0 else t.position + 1 := by
  have hsii := siiWalked_mem m si3
  simp only [List.mem_cons, List.not_mem_nil, or_false] at hsii
  rw [walk_eq] at ht
  simp only [List.mem_cons, List.not_mem_nil, or_false] at ht
  rcases ht with rfl | rfl | rfl | rfl | rfl
  · decide
  · rcases poiPosition_cases m si3 with h | h <;> rw [h] <;> decide
  · exact test_at (by omega) (by omega) (by omega)
  · exact test_at (by omega) (by omega) (by omega)
  · exact test_at (by omega) (by omega) (by omega)

theorem not_testsRight : ¬ TestsRight m si3 := by
  intro hright
  rw [TestsRight, walk_eq] at hright
  obtain ⟨-, htail⟩ := List.cons.inj hright
  obtain ⟨hpoi, -⟩ := List.cons.inj htail
  have hbit : poiPosition m si3 - 8 * (poiPosition m si3 / 8) + 1 = poiPosition m si3 % 8 :=
    congrArg Test.bit hpoi
  omega

theorem siiWalked_eq_iff : siiWalked m si3 = siiPosition m si3 ↔
    high m si3 (poiPosition m si3) = high m si3 (poiPosition m si3 + 1) := by
  rw [siiWalked, siiPosition]
  cases high m si3 (poiPosition m si3) <;> cases high m si3 (poiPosition m si3 + 1) <;> simp

theorem walk_positions_eq_iff : (walk m si3).map Test.position = positions m si3 ↔
    high m si3 (poiPosition m si3) = high m si3 (poiPosition m si3 + 1) := by
  rw [walk_eq, ← siiWalked_eq_iff, positions]
  constructor
  · intro heq
    obtain ⟨-, -, hsii, -⟩ : _ ∧ _ ∧ siiWalked m si3 = siiPosition m si3 ∧ _ := by
      simpa only [List.map_cons, Test.at_position, List.cons.injEq] using heq
    exact hsii
  · intro hsii
    simp only [List.map_cons, List.map_nil, Test.at_position, hsii]

end Walk

/-- **The walk over the indicators.** For every four octets, the tests are not right. Every call but
the first one tests the bit behind the position that it stands for; the positions of `spi` and `poi`
are right, and the others are if and only if the indicators at the position of `poi` and behind it
are the same. -/
theorem walk_testsBehind (m : Mem) (si3 : Nat) :
    ¬ TestsRight m si3 ∧
      (∀ t ∈ walk m si3, t.octet < 4 ∧ t.bit < 8 ∧
        8 * t.octet + t.bit = if t.position = 0 then 0 else t.position + 1) ∧
      ((walk m si3).map Test.position).take 2 = (positions m si3).take 2 ∧
      ((walk m si3).map Test.position = positions m si3 ↔
        high m si3 (poiPosition m si3) = high m si3 (poiPosition m si3 + 1)) := by
  refine ⟨not_testsRight m si3, fun t => tested_behind m si3, ?_, walk_positions_eq_iff m si3⟩
  rw [walk_eq]
  rfl

/-- A power offset without selection parameters: its indicator is bit 1 of the first octet, bit 2 is
tested and not H, and `sii` is taken to be at position 2 and not 4. -/
theorem walk_powerOffset :
    let m : Mem := fun _ => 0x6b
    walk m 0 = [⟨0, 0, 0⟩, ⟨1, 0, 2⟩, ⟨2, 0, 3⟩, ⟨3, 0, 4⟩, ⟨4, 0, 5⟩] ∧
      positions m 0 = [0, 1, 4, 5, 6] ∧ ¬ TestsRight m 0 := by
  refine ⟨by decide, by decide, ?_⟩
  intro hright
  have hpositions := congrArg (fun tests => tests.map Test.position) hright
  revert hpositions
  decide

/-! ### The encoding -/

structure Selection where
  cbq : BitVec 1
  cellReselectOffset : BitVec 6
  temporaryOffset : BitVec 3
  penaltyTime : BitVec 5

/-- What is encoded in the rest octets. -/
structure Choice where
  selection : Option Selection
  power : Option (BitVec 2)
  further : List Bool

/-- An indicator, which is relative to the padding, or the bits of a parameter. -/
inductive Item where
  | indicator (h : Bool)
  | parameter (w : Nat) (v : BitVec w)

/-- The bit of the padding octet at a position. -/
def padding (p : Nat) : Bool := Nat.testBit 0x2b (7 - p % 8)

/-- The bits of items from a position on. -/
def bitsFrom (p : Nat) : List Item → List Bool
  | [] => []
  | .indicator h :: items => (h ^^ padding p) :: bitsFrom (p + 1) items
  | .parameter w v :: items => bitString w v.toNat ++ bitsFrom (p + w) items

namespace Choice

def selectionItems (c : Choice) : List Item :=
  match c.selection with
  | some s => [.indicator true, .parameter 1 s.cbq, .parameter 6 s.cellReselectOffset,
      .parameter 3 s.temporaryOffset, .parameter 5 s.penaltyTime]
  | none => [.indicator false]

def powerItems (c : Choice) : List Item :=
  match c.power with
  | some v => [.indicator true, .parameter 2 v]
  | none => [.indicator false]

/-- The bits of the choice, and the padding behind them. -/
def bits (c : Choice) : List Bool :=
  let coded := bitsFrom 0 (c.selectionItems ++ c.powerItems ++ c.further.map .indicator)
  coded ++ (List.range' coded.length 32).map padding

def octet (c : Choice) (k : Nat) : UInt8 := UInt8.ofNat (spelled ((c.bits.drop (8 * k)).take 8))

/-- The four rest octets. -/
def octets (c : Choice) : List UInt8 := (List.range 4).map c.octet

/-- What is to be reported of the selection parameters. -/
def selectionContent (c : Choice) : List (Label × Value) :=
  match c.selection with
  | some s => [(.selection, .number 1), (.cbq, .number s.cbq.toNat),
      (.cellReselectOffset, .number s.cellReselectOffset.toNat),
      (.temporaryOffset, .number s.temporaryOffset.toNat),
      (.penaltyTime, .number s.penaltyTime.toNat)]
  | none => [(.selection, .number 0)]

def powerContent (c : Choice) : List (Label × Value) :=
  match c.power with
  | some v => [(.power, .number 1), (.powerOffset, .number v.toNat)]
  | none => [(.power, .number 0)]

/-- The function comes to its end, and what it prints is what was encoded. -/
def Reported (c : Choice) (r : Rest) : Prop :=
  r.stop = none ∧ r.reports.map Report.content = c.selectionContent ++ c.powerContent

/-- The highest three bits of an octet are a power offset behind its indicator. -/
def CarriesPower (c : Choice) (octet : UInt8) : Prop :=
  match c.power with
  | some v => 128 ≤ octet.toNat ∧ octet.toNat / 32 % 4 = v.toNat
  | none => octet.toNat < 128

end Choice

section Encoding

variable {c : Choice} {s : Selection}

theorem padding_zero : padding 0 = false := by decide

theorem isBitH_first (o : UInt8) : isBitH o 0 = decide (128 ≤ o.toNat) := by
  obtain ⟨⟨n⟩⟩ := o
  revert n
  decide +kernel

theorem isBitH_bit (b : BitVec 1) : isBitH (UInt8.ofNat b.toNat) 4 = true := by
  revert b
  decide

/-- The test of the second half does not depend on the octets. -/
theorem presentTest_eq (m : Mem) (si3 : Nat) : presentTest m si3 = true := isBitH_bit _

theorem bits_eq (c : Choice) : ∃ filler, c.bits =
    bitsFrom 0 (c.selectionItems ++ c.powerItems ++ c.further.map .indicator) ++ filler :=
  ⟨_, rfl⟩

theorem bits_of_selection (hs : c.selection = some s) :
    ∃ rest, c.bits = (true :: (bitString 1 s.cbq.toNat ++ bitString 6 s.cellReselectOffset.toNat)) ++
      ((bitString 3 s.temporaryOffset.toNat ++ bitString 5 s.penaltyTime.toNat) ++ rest) := by
  obtain ⟨filler, hfiller⟩ := bits_eq c
  refine ⟨bitsFrom 16 (c.powerItems ++ c.further.map .indicator) ++ filler, ?_⟩
  rw [hfiller]
  simp [Choice.selectionItems, hs, bitsFrom, padding_zero]

theorem bits_of_none (hs : c.selection = none) : ∃ rest, c.bits = false :: rest := by
  obtain ⟨filler, hfiller⟩ := bits_eq c
  refine ⟨bitsFrom 1 (c.powerItems ++ c.further.map .indicator) ++ filler, ?_⟩
  rw [hfiller]
  simp [Choice.selectionItems, hs, bitsFrom, padding_zero]

theorem octet_zero_of_selection (hs : c.selection = some s) :
    (c.octet 0).toNat = 128 + 64 * s.cbq.toNat + s.cellReselectOffset.toNat := by
  obtain ⟨rest, hbits⟩ := bits_of_selection hs
  have hcbq := s.cbq.isLt
  have hoffset := s.cellReselectOffset.isLt
  rw [Choice.octet, hbits, Nat.mul_zero, List.drop_zero, List.take_left' (by simp), spelled,
    spelled_append, spelled_bitString, spelled_bitString, UInt8.toNat_ofNat']
  simp
  omega

theorem octet_one_of_selection (hs : c.selection = some s) :
    (c.octet 1).toNat = 32 * s.temporaryOffset.toNat + s.penaltyTime.toNat := by
  obtain ⟨rest, hbits⟩ := bits_of_selection hs
  have htemporary := s.temporaryOffset.isLt
  have hpenalty := s.penaltyTime.isLt
  rw [Choice.octet, hbits, List.drop_left' (by simp), List.take_left' (by simp),
    spelled_append, spelled_bitString, spelled_bitString, UInt8.toNat_ofNat']
  simp
  omega

/-- What the second half prints of the selection parameters: the test is passed, and the 16 bits are
taken in the order of the host. -/
theorem selectionReports_content (m : Mem) (si3 : Nat) :
    (selectionReports m si3).map Report.content =
      [(.selection, .number ((m (si3 + 1)).toNat / 128 % 2)),
        (.cbq, .number ((m (si3 + 1)).toNat / 64 % 2)),
        (.cellReselectOffset, .number ((m (si3 + 1)).toNat % 64)),
        (.temporaryOffset, .number ((m si3).toNat / 32 % 8)),
        (.penaltyTime, .number ((m si3).toNat % 32))] := by
  have hpresent : (Overlay.read ⟨si3SelectionParams, si3⟩ m .selPresent).toNat =
      (m (si3 + 1)).toNat / 2 ^ 7 % 2 ^ 1 := Overlay.read_octet rfl
  have hcbq : (Overlay.read ⟨si3SelectionParams, si3⟩ m .cbq).toNat =
      (m (si3 + 1)).toNat / 2 ^ 6 % 2 ^ 1 := Overlay.read_octet rfl
  have hreselect : (Overlay.read ⟨si3SelectionParams, si3⟩ m .cellReselOff).toNat =
      (m (si3 + 1)).toNat / 2 ^ 0 % 2 ^ 6 := Overlay.read_octet rfl
  have htemporary : (Overlay.read ⟨si3SelectionParams, si3⟩ m .tempOffs).toNat =
      (m (si3 + 0)).toNat / 2 ^ 5 % 2 ^ 3 := Overlay.read_octet rfl
  have hpenalty : (Overlay.read ⟨si3SelectionParams, si3⟩ m .penaltyTime).toNat =
      (m (si3 + 0)).toNat / 2 ^ 0 % 2 ^ 5 := Overlay.read_octet rfl
  rw [selectionReports, if_pos (presentTest_eq m si3)]
  simp only [List.map_cons, List.map_nil, Report.content, say, hpresent, hcbq, hreselect, htemporary,
    hpenalty]
  simp

/-- What it prints of the power offset. -/
theorem powerReports_content (o : UInt8) (a : Nat) :
    (powerReports o a).map Report.content =
      if 128 ≤ o.toNat then [(.power, .number 1), (.powerOffset, .number (o.toNat / 32 % 4))]
      else [(.power, .number 0)] := by
  have hpresent : (Overlay.read ⟨si3PowerOffset, a⟩ (fun _ => o) .poPresent).toNat =
      o.toNat / 2 ^ 7 % 2 ^ 1 := Overlay.read_octet (k := 0) rfl
  have hoffset : (Overlay.read ⟨si3PowerOffset, a⟩ (fun _ => o) .powerOffset).toNat =
      o.toNat / 2 ^ 5 % 2 ^ 2 := Overlay.read_octet (k := 0) rfl
  have hlt := o.toNat_lt
  have hiff : Overlay.read ⟨si3PowerOffset, a⟩ (fun _ => o) .poPresent ≠ 0 ↔ 128 ≤ o.toNat := by
    rw [Ne, ← BitVec.toNat_inj, hpresent]
    show ¬ o.toNat / 128 % 2 = 0 ↔ _
    omega
  by_cases hhigh : 128 ≤ o.toNat
  · rw [powerReports, if_pos (hiff.mpr hhigh), if_pos hhigh]
    simp only [List.map_cons, List.map_nil, Report.content, say, hpresent, hoffset]
    have hone : o.toNat / 2 ^ 7 % 2 ^ 1 = 1 := by omega
    rw [hone]
    rfl
  · rw [powerReports, if_neg (hiff.not.mpr hhigh), if_neg hhigh]
    simp only [List.map_cons, List.map_nil, Report.content, say, hpresent]
    have hzero : o.toNat / 2 ^ 7 % 2 ^ 1 = 0 := by omega
    rw [hzero]

theorem selection_reported_iff (hs : c.selection = some s) {m : Mem} {si3 : Nat}
    (hzero : m si3 = c.octet 0) (hone : m (si3 + 1) = c.octet 1) :
    (selectionReports m si3).map Report.content = c.selectionContent ↔ c.octet 0 = c.octet 1 := by
  have hzero' := octet_zero_of_selection hs
  have hone' := octet_one_of_selection hs
  have hcbq := s.cbq.isLt
  have hreselect := s.cellReselectOffset.isLt
  have htemporary := s.temporaryOffset.isLt
  have hpenalty := s.penaltyTime.isLt
  rw [selectionReports_content, hzero, hone, Choice.selectionContent, hs, ← UInt8.toNat_inj]
  simp only [List.cons.injEq, Prod.mk.injEq, true_and, and_true, Value.number.injEq, hzero', hone']
  omega

theorem power_reported_iff (o : UInt8) (a : Nat) :
    (powerReports o a).map Report.content = c.powerContent ↔ c.CarriesPower o := by
  rw [powerReports_content, Choice.powerContent, Choice.CarriesPower]
  cases c.power with
  | none =>
      split_ifs with h
      · exact iff_of_false (by simp) (Nat.not_lt.mpr h)
      · exact iff_of_true rfl (Nat.not_le.mp h)
  | some v =>
      split_ifs with h
      · simp [h]
      · exact iff_of_false (by simp) fun hboth => h hboth.1

/-- Without selection parameters, those that are printed are too many. -/
theorem not_reported_of_none (hs : c.selection = none) (m : Mem) (si3 : Nat)
    (reports : List Report) :
    (selectionReports m si3 ++ reports).map Report.content ≠ c.selectionContent ++ c.powerContent := by
  rw [List.map_append, selectionReports_content, Choice.selectionContent, hs, Choice.powerContent]
  cases c.power <;> simp

/-- The octet that the second half takes for the power offset, if there is one. -/
def powerOctet (l : Locals) (m : Mem) (si3 : Nat) : Option UInt8 :=
  if l.octets = 1 then some (m si3 <<< 1) else l.poii.map m

/-- What the second half prints, by the octet that it takes. -/
theorem restOctetsSi3_cases (l : Locals) (m : Mem) (si3 : Nat) :
    (∃ o a, powerOctet l m si3 = some o ∧
      restOctetsSi3 l m si3 = ⟨si3, walk m si3, selectionReports m si3 ++ powerReports o a, none⟩) ∨
    (powerOctet l m si3 = none ∧
      restOctetsSi3 l m si3 = ⟨si3, walk m si3, selectionReports m si3, some .fault⟩) := by
  rw [restOctetsSi3, powerOctet]
  by_cases hoctets : l.octets = 1
  · refine Or.inl ⟨_, si3, if_pos hoctets, if_pos hoctets⟩
  · rw [if_neg hoctets, if_neg hoctets]
    cases l.poii with
    | none => exact Or.inr ⟨rfl, rfl⟩
    | some p => exact Or.inl ⟨m p, p, rfl, rfl⟩

theorem reports_content_iff (hs : c.selection = some s) {m : Mem} {si3 : Nat}
    (hzero : m si3 = c.octet 0) (hone : m (si3 + 1) = c.octet 1) (o : UInt8) (a : Nat) :
    (selectionReports m si3 ++ powerReports o a).map Report.content =
      c.selectionContent ++ c.powerContent ↔ c.octet 0 = c.octet 1 ∧ c.CarriesPower o := by
  have hlength : ((selectionReports m si3).map Report.content).length =
      c.selectionContent.length := by
    rw [selectionReports_content, Choice.selectionContent, hs]
    rfl
  rw [List.map_append, ← selection_reported_iff hs hzero hone, ← power_reported_iff o a]
  constructor
  · intro heq
    exact List.append_inj heq hlength
  · rintro ⟨hselection, hpower⟩
    rw [hselection, hpower]

/-- With given values of the locals. -/
theorem reported_iff (l : Locals) {m : Mem} {si3 : Nat} (hzero : m si3 = c.octet 0)
    (hone : m (si3 + 1) = c.octet 1) :
    c.Reported (restOctetsSi3 l m si3) ↔
      c.selection.isSome ∧ c.octet 0 = c.octet 1 ∧
        ∃ o, powerOctet l m si3 = some o ∧ c.CarriesPower o := by
  rcases restOctetsSi3_cases l m si3 with ⟨o, a, ho, hrest⟩ | ⟨ho, hrest⟩
  · rw [hrest, ho, Choice.Reported]
    cases hs : c.selection with
    | none =>
        refine iff_of_false (fun hboth => not_reported_of_none hs m si3 _ hboth.2) ?_
        rintro ⟨hsome, -⟩
        cases hsome
    | some s =>
        rw [reports_content_iff hs hzero hone]
        simp
  · rw [hrest, ho, Choice.Reported]
    simp

/-- The test of the first half finds whether the selection parameters were encoded. -/
theorem high_first (c : Choice) : isBitH (c.octet 0) 0 = c.selection.isSome := by
  rw [isBitH_first]
  cases hs : c.selection with
  | none =>
      obtain ⟨rest, hbits⟩ := bits_of_none hs
      have hlt := spelled_lt (rest.take 7)
      have hlength : (rest.take 7).length ≤ 7 := List.length_take_le 7 rest
      have hpow : 2 ^ (rest.take 7).length ≤ 2 ^ 7 := Nat.pow_le_pow_right (by decide) hlength
      have hoctet : (c.octet 0).toNat = spelled (rest.take 7) % 2 ^ 8 := by
        rw [Choice.octet, hbits, UInt8.toNat_ofNat']
        simp [spelled]
      exact decide_eq_false (by omega)
  | some s =>
      have hzero := octet_zero_of_selection hs
      exact decide_eq_true (by omega)

end Encoding

/-- **The parameters in the rest octets.** For every choice, what is reported depends on what happens
to be in the locals. With given values of these it is what was encoded if and only if the selection
parameters were, their two octets are the same, and the octet that is taken for the power offset has
it in its highest bits. The presence test of the second half agrees with the one of the first half if
and only if the selection parameters were encoded. -/
theorem restOctetsSi3_reported_iff (c : Choice) (m : Mem) (si3 : Nat) :
    (¬ ∀ l, c.Reported (restOctetsSi3 l (m.store si3 c.octets) si3)) ∧
      (∀ l, c.Reported (restOctetsSi3 l (m.store si3 c.octets) si3) ↔
        c.selection.isSome ∧ c.octet 0 = c.octet 1 ∧
          ∃ o, powerOctet l (m.store si3 c.octets) si3 = some o ∧ c.CarriesPower o) ∧
      (presentTest (m.store si3 c.octets) si3 = high (m.store si3 c.octets) si3 0 ↔
        c.selection.isSome) := by
  have hlength : c.octets.length = 4 := rfl
  have hzero : m.store si3 c.octets si3 = c.octet 0 :=
    Mem.store_add_apply m si3 0 c.octets (by omega)
  have hone : m.store si3 c.octets (si3 + 1) = c.octet 1 :=
    Mem.store_add_apply m si3 1 c.octets (by omega)
  refine ⟨?_, fun l => reported_iff l hzero hone, ?_⟩
  · intro hall
    obtain ⟨-, -, o, ho, -⟩ := (reported_iff ⟨0, none⟩ hzero hone).mp (hall ⟨0, none⟩)
    cases ho
  · have hhigh : high (m.store si3 c.octets) si3 0 = isBitH (m.store si3 c.octets si3) 0 := rfl
    rw [presentTest_eq, hhigh, hzero, high_first]
    exact eq_comm

/-- CBQ 0, CELL_RESELECT_OFFSET 1, TEMPORARY_OFFSET 2 and PENALTY_TIME 3, without a power offset:
where `octets` happens to be one, they are printed as 1, 3, 4 and 1, not present, and where it is not
and `poii` points nowhere, the function does not come to its end. -/
theorem restOctetsSi3_swapped :
    let c : Choice := ⟨some ⟨0, 1, 2, 3⟩, none, []⟩
    let m := Mem.blank.store 0 c.octets
    c.octets = [0x81, 0x43, 0x2b, 0x2b] ∧
      (restOctetsSi3 ⟨1, none⟩ m 0).reports.map Report.content =
        [(.selection, .number 0), (.cbq, .number 1), (.cellReselectOffset, .number 3),
          (.temporaryOffset, .number 4), (.penaltyTime, .number 1), (.power, .number 0)] ∧
      ¬ c.Reported (restOctetsSi3 ⟨1, none⟩ m 0) ∧
      (restOctetsSi3 ⟨0, none⟩ m 0).stop = some .fault := by
  refine ⟨by decide, by decide, ?_, by decide⟩
  intro hreported
  have hcontent := hreported.2
  revert hcontent
  decide

end SoftBts.Rsl
