import SoftBts.Builders
import SoftBts.Lib.Elements

/-! The attribute loop of `bts_get_attr` and the grammar of the attributes it knows. -/

namespace SoftBts

open Octets Elements

/-- The locals of `bts_get_attr` that its loop works on. -/
structure Walk where
  length : UInt8
  patr : Nat
  atribute : UInt8

namespace Walk

/-- A branch for an attribute of a fixed size. -/
def fixed (m : Mem) (size : UInt8) (w : Walk) : Walk where
  length := w.length - size
  patr := w.patr + size.toNat
  atribute := m (w.patr + size.toNat)

/-- `atribute_length`: an octet, assigned from `ntohs` of the 16-bit length of a TLV attribute. -/
def atributeLength (m : Mem) (w : Walk) : UInt8 := (htons (m.load16 (w.patr + 1))).toUInt8

/-- A branch for a TLV attribute. -/
def tlv (m : Mem) (w : Walk) : Walk where
  length := w.length - (3 + w.atributeLength m)
  patr := w.patr + 3 + (w.atributeLength m).toNat
  atribute := m (w.patr + 3 + (w.atributeLength m).toNat)

/-- The branch for NM_ATT_SOFTBTS_CGI, the one that does not assign `atribute`. -/
def softbtsCgi (w : Walk) : Walk :=
  { w with patr := w.patr + 10, length := w.length - 10 }

/-- One turn of the loop: `switch (atribute)`. -/
def turn (m : Mem) (w : Walk) : Walk :=
  if w.atribute = nmAttInterfBound then w.fixed m 7
  else if w.atribute = nmAttIntaveParam then w.fixed m 2
  else if w.atribute = nmAttConnFailCrit then w.tlv m
  else if w.atribute = nmAttT200 then w.fixed m 8
  else if w.atribute = nmAttMaxTa then w.fixed m 2
  else if w.atribute = nmAttOverlPeriod then w.tlv m
  else if w.atribute = nmAttCcchLT then w.fixed m 2
  else if w.atribute = nmAttCcchLIP then w.fixed m 2
  else if w.atribute = nmAttRachBThresh then w.fixed m 2
  else if w.atribute = nmAttLdavgSlots then w.fixed m 3
  else if w.atribute = nmAttBtsAirTimer then w.fixed m 2
  else if w.atribute = nmAttNy1 then w.fixed m 2
  else if w.atribute = nmAttBcchArfcn then w.fixed m 3
  else if w.atribute = nmAttBsic then w.fixed m 2
  else if w.atribute = nmAttStartTime then w.fixed m 3
  else if w.atribute = nmAttSoftbtsCgi then w.softbtsCgi
  else w

end Walk

/-- `while (length != 0)`, for at most the given number of turns. The result lists what each turn
dispatched on, the attribute and `patr`; it is `none` when the loop needs more turns. -/
def btsGetAttrLoop (m : Mem) : Nat → Walk → Option (List (UInt8 × Nat))
  | 0, w => if w.length = 0 then some [] else none
  | turns + 1, w =>
      if w.length = 0 then some []
      else (btsGetAttrLoop m turns (w.turn m)).map ((w.atribute, w.patr) :: ·)

/-- The locals before the loop. -/
def Walk.start (m : Mem) : Walk where
  length := m omLength - 5
  patr := fomData
  atribute := m fomData

def btsGetAttr (turns : Nat) (m : Mem) : Option (List (UInt8 × Nat)) :=
  btsGetAttrLoop m turns (Walk.start m)

/-- The attributes `bts_get_attr` knows, with the sizes of their structs. -/
def btsAttr : Grammar := fun tag =>
  if tag = nmAttInterfBound then some (.fixed 7)
  else if tag = nmAttIntaveParam then some (.fixed 2)
  else if tag = nmAttConnFailCrit then some .tlv
  else if tag = nmAttT200 then some (.fixed 8)
  else if tag = nmAttMaxTa then some (.fixed 2)
  else if tag = nmAttOverlPeriod then some .tlv
  else if tag = nmAttCcchLT then some (.fixed 2)
  else if tag = nmAttCcchLIP then some (.fixed 2)
  else if tag = nmAttRachBThresh then some (.fixed 2)
  else if tag = nmAttLdavgSlots then some (.fixed 3)
  else if tag = nmAttBtsAirTimer then some (.fixed 2)
  else if tag = nmAttNy1 then some (.fixed 2)
  else if tag = nmAttBcchArfcn then some (.fixed 3)
  else if tag = nmAttBsic then some (.fixed 2)
  else if tag = nmAttStartTime then some (.fixed 3)
  else if tag = nmAttSoftbtsCgi then some (.fixed 10)
  else none

namespace Walk

theorem atributeLength_eq (m : Mem) (w : Walk) : w.atributeLength m = m (w.patr + 2) := by
  apply UInt8.toNat_inj.mp
  have hlo := (m (w.patr + 2)).toNat_lt
  rw [atributeLength, UInt16.toNat_toUInt8, htons_load16, be16]
  simp only [Nat.add_assoc, Nat.reduceAdd]
  omega

/-- The branch for an attribute of a given shape. -/
def shaped (m : Mem) (w : Walk) : Option Shape → Walk
  | some (.fixed n) => w.fixed m (UInt8.ofNat n)
  | some .tlv => w.tlv m
  | none => w

/-- The turn an attribute of the grammar gets: only SOFTBTS_CGI is not treated by its shape. -/
theorem turn_eq (m : Mem) (w : Walk) :
    w.turn m = if w.atribute = nmAttSoftbtsCgi then w.softbtsCgi
      else w.shaped m (btsAttr w.atribute) := by
  by_cases hcgi : w.atribute = nmAttSoftbtsCgi
  · rw [if_pos hcgi, turn, hcgi]
    rfl
  · rw [if_neg hcgi, turn, btsAttr]
    simp only [apply_ite (shaped m w), if_neg hcgi]
    rfl

end Walk

end SoftBts
