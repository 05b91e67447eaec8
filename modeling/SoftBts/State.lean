import Mathlib.Data.Fintype.Basic
import SoftBts.Consts

/-! The management state of `softbts.c` and the managed objects whose states it holds. -/

namespace SoftBts

/-- A managed object of this BTS. -/
inductive Obj where
  | siteManager
  | bts
  | radioCarrier
  | channel (ts : Fin 8)
  | basebTransc
  deriving DecidableEq

/-- The octet that stands for a timeslot number. -/
def tsOctet (ts : Fin 8) : UInt8 := UInt8.ofNat ts.val

/-- The object that a class octet and the timeslot octet of an instance name, if this BTS has it. -/
def Obj.named (objClass tsNr : UInt8) : Option Obj :=
  if objClass = nmOcSiteManager then some .siteManager
  else if objClass = nmOcBts then some .bts
  else if objClass = nmOcRadioCarrier then some .radioCarrier
  else if objClass = nmOcChannel then
    if h : tsNr.toNat < 8 then some (.channel ⟨tsNr.toNat, h⟩) else none
  else if objClass = nmOcBasebTransc then some .basebTransc
  else none

/-- An object class and instance, as the headers of messages carry them. -/
structure ObjInst where
  objClass : UInt8
  btsNr : UInt8
  trxNr : UInt8
  tsNr : UInt8
  deriving DecidableEq

/-- The class and instance under which the BTS reports an object. -/
def Obj.inst : Obj → ObjInst
  | .siteManager => ⟨nmOcSiteManager, nmOcNull, nmOcNull, nmOcNull⟩
  | .bts => ⟨nmOcBts, 0x00, nmOcNull, nmOcNull⟩
  | .radioCarrier => ⟨nmOcRadioCarrier, 0x00, 0x00, nmOcNull⟩
  | .channel ts => ⟨nmOcChannel, 0x00, 0x00, tsOctet ts⟩
  | .basebTransc => ⟨nmOcBasebTransc, 0x00, 0x00, nmOcNull⟩

/-- The management variables of `softbts.c`. `sw_site_manager` and `sw_bts` are written and never
read; `bts_id_resp` is only ever FALSE or TRUE. -/
structure Bts where
  btsIdResp : Bool
  swSiteManager : Int
  swBts : Int
  managerAdminState : UInt8
  managerOpstate : UInt8
  btsAdminState : UInt8
  btsOpstate : UInt8
  basebTranscAdminState : UInt8
  basebTranscOpstate : UInt8
  radioCarrierAdminState : UInt8
  radioCarrierOpstate : UInt8
  channelAdminState : Fin 8 → UInt8
  channelOpstate : Fin 8 → UInt8
  deriving DecidableEq

/-- A C array initialiser: the entries it does not list are zero. -/
def arrayInit (vs : List UInt8) : Fin 8 → UInt8 := fun i => (vs[i.val]?).getD 0

/-- The initial values in `softbts.c`. -/
def startup : Bts where
  btsIdResp := false
  swSiteManager := 0
  swBts := 0
  managerAdminState := nmStateLocked
  managerOpstate := nmOpstateDisabled
  btsAdminState := nmStateLocked
  btsOpstate := nmOpstateDisabled
  basebTranscAdminState := nmStateLocked
  basebTranscOpstate := nmOpstateDisabled
  radioCarrierAdminState := nmStateLocked
  radioCarrierOpstate := nmOpstateDisabled
  channelAdminState := arrayInit [nmStateLocked]
  channelOpstate := arrayInit [nmOpstateDisabled]

/-- The state variables of the managed objects. -/
inductive StateVar where
  | opstate (o : Obj)
  | adminState (o : Obj)
  deriving DecidableEq

def StateVar.obj : StateVar → Obj
  | .opstate o => o
  | .adminState o => o

/-- The value the BTS holds in a state variable. -/
def Bts.stateVar (b : Bts) : StateVar → UInt8
  | .opstate .siteManager => b.managerOpstate
  | .opstate .bts => b.btsOpstate
  | .opstate .radioCarrier => b.radioCarrierOpstate
  | .opstate (.channel ts) => b.channelOpstate ts
  | .opstate .basebTransc => b.basebTranscOpstate
  | .adminState .siteManager => b.managerAdminState
  | .adminState .bts => b.btsAdminState
  | .adminState .radioCarrier => b.radioCarrierAdminState
  | .adminState (.channel ts) => b.channelAdminState ts
  | .adminState .basebTransc => b.basebTranscAdminState

theorem tsOctet_toNat (ts : Fin 8) : (tsOctet ts).toNat = ts.val := by
  have := ts.isLt
  rw [tsOctet, UInt8.toNat_ofNat', Nat.mod_eq_of_lt (by omega)]

theorem tsOctet_of_toNat {t : UInt8} (h : t.toNat < 8) : tsOctet ⟨t.toNat, h⟩ = t :=
  UInt8.toNat_inj.mp (tsOctet_toNat _)

theorem tsOctet_injective : Function.Injective tsOctet := by
  intro i j h
  have := congrArg UInt8.toNat h
  rw [tsOctet_toNat, tsOctet_toNat] at this
  exact Fin.ext this

theorem eq_seven_iff {t : UInt8} (ht : t.toNat < 8) :
    t = 0x07 ↔ (⟨t.toNat, ht⟩ : Fin 8) = 7 := by
  rw [Fin.ext_iff, ← UInt8.toNat_inj]
  rfl

theorem ne_seven_of_outside {t : UInt8} (ht : ¬ t.toNat < 8) : t ≠ 0x07 := by
  rintro rfl
  exact ht (by decide)

/-- The class and instance of an object determine it. -/
theorem Obj.inst_injective : Function.Injective Obj.inst := by
  intro o o' h
  cases o <;> cases o' <;> simp_all [Obj.inst]
  exact tsOctet_injective h

/-- The instance of an object names it. -/
theorem Obj.named_inst (o : Obj) : Obj.named o.inst.objClass o.inst.tsNr = some o := by
  cases o with
  | channel ts => simp [Obj.named, Obj.inst, tsOctet_toNat]
  | _ => rfl

theorem Obj.named_channel {t : UInt8} (ht : t.toNat < 8) :
    Obj.named nmOcChannel t = some (.channel ⟨t.toNat, ht⟩) := by
  simp [Obj.named, ht]

/-- The classes of this BTS, and all others. -/
theorem class_cases (c : UInt8) :
    c = nmOcSiteManager ∨ c = nmOcBts ∨ c = nmOcRadioCarrier ∨ c = nmOcChannel ∨
      c = nmOcBasebTransc ∨ (c ≠ nmOcSiteManager ∧ c ≠ nmOcBts ∧ c ≠ nmOcRadioCarrier ∧
        c ≠ nmOcChannel ∧ c ≠ nmOcBasebTransc) := by
  by_cases h0 : c = nmOcSiteManager
  · exact Or.inl h0
  by_cases h1 : c = nmOcBts
  · exact Or.inr (Or.inl h1)
  by_cases h2 : c = nmOcRadioCarrier
  · exact Or.inr (Or.inr (Or.inl h2))
  by_cases h3 : c = nmOcChannel
  · exact Or.inr (Or.inr (Or.inr (Or.inl h3)))
  by_cases h4 : c = nmOcBasebTransc
  · exact Or.inr (Or.inr (Or.inr (Or.inr (Or.inl h4))))
  · exact Or.inr (Or.inr (Or.inr (Or.inr (Or.inr ⟨h0, h1, h2, h3, h4⟩))))

end SoftBts
