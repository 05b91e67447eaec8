import SoftBts.AttrWalk

/-! The loop of `bts_get_attr`: when it ends, and where in the buffer it reads. -/

namespace SoftBts

open Octets Elements

variable {m m' : Mem} {w : Walk}

/-! ### Turns -/

theorem btsGetAttrLoop_of_zero (h : w.length = 0) (turns : Nat) :
    btsGetAttrLoop m turns w = some [] := by
  cases turns <;> rw [btsGetAttrLoop, if_pos h]

theorem btsGetAttrLoop_succ (h : w.length ≠ 0) (turns : Nat) :
    btsGetAttrLoop m (turns + 1) w =
      (btsGetAttrLoop m turns (w.turn m)).map ((w.atribute, w.patr) :: ·) := by
  rw [btsGetAttrLoop, if_neg h]

/-- A loop that ends within some turns ends the same way within more. -/
theorem btsGetAttrLoop_mono {turns turns' : Nat} (hle : turns ≤ turns') {steps : List (UInt8 × Nat)}
    (h : btsGetAttrLoop m turns w = some steps) : btsGetAttrLoop m turns' w = some steps := by
  induction turns generalizing w turns' steps with
  | zero =>
      by_cases hzero : w.length = 0
      · rw [btsGetAttrLoop_of_zero hzero] at h ⊢
        exact h
      · rw [btsGetAttrLoop, if_neg hzero] at h
        cases h
  | succ turns ih =>
      obtain ⟨k, rfl⟩ := Nat.exists_eq_add_of_le' hle
      by_cases hzero : w.length = 0
      · rw [btsGetAttrLoop_of_zero hzero] at h ⊢
        exact h
      · rw [btsGetAttrLoop_succ hzero, Option.map_eq_some_iff] at h
        obtain ⟨rest, hrest, rfl⟩ := h
        show btsGetAttrLoop m (k + turns + 1) w = _
        rw [btsGetAttrLoop_succ hzero, ih (Nat.le_add_left turns k) hrest]
        rfl

/-- A loop that does not end after a turn does not end. -/
theorem btsGetAttrLoop_of_turn (hlength : w.length ≠ 0)
    (hnever : ∀ turns, btsGetAttrLoop m turns (w.turn m) = none) (turns : Nat) :
    btsGetAttrLoop m turns w = none := by
  cases turns with
  | zero => rw [btsGetAttrLoop, if_neg hlength]
  | succ turns =>
      rw [btsGetAttrLoop_succ hlength, hnever]
      rfl

theorem ne_softbtsCgi {tag : UInt8} (h : btsAttr tag ≠ some (.fixed 10)) :
    tag ≠ nmAttSoftbtsCgi := by
  rintro rfl
  exact h rfl

theorem turn_of_cgi (hcgi : w.atribute = nmAttSoftbtsCgi) : w.turn m = w.softbtsCgi := by
  rw [Walk.turn_eq, if_pos hcgi]

theorem turn_of_unknown (htag : btsAttr w.atribute = none) : w.turn m = w := by
  rw [Walk.turn_eq, if_neg (ne_softbtsCgi (by simp [htag])), htag]
  rfl

/-- A loop at an attribute that is not known goes on. -/
theorem btsGetAttrLoop_unknown (hlength : w.length ≠ 0) (htag : btsAttr w.atribute = none)
    (turns : Nat) : btsGetAttrLoop m turns w = none := by
  induction turns with
  | zero => rw [btsGetAttrLoop, if_neg hlength]
  | succ turns ih =>
      rw [btsGetAttrLoop_succ hlength, turn_of_unknown htag, ih]
      rfl

/-- A loop at SOFTBTS_CGI stays there and reads nothing. -/
theorem isSome_btsGetAttrLoop_cgi {w' : Walk} (hw : w.atribute = nmAttSoftbtsCgi)
    (hw' : w'.atribute = nmAttSoftbtsCgi) (hlength : w'.length = w.length) (turns : Nat) :
    (btsGetAttrLoop m' turns w').isSome = (btsGetAttrLoop m turns w).isSome := by
  induction turns generalizing w w' with
  | zero => rw [btsGetAttrLoop, btsGetAttrLoop, hlength]
  | succ turns ih =>
      by_cases hzero : w.length = 0
      · rw [btsGetAttrLoop_of_zero hzero, btsGetAttrLoop_of_zero (hlength.trans hzero)]
      · rw [btsGetAttrLoop_succ hzero, btsGetAttrLoop_succ (hlength ▸ hzero), Option.isSome_map,
          Option.isSome_map, turn_of_cgi hw, turn_of_cgi hw']
        exact ih hw hw' (by simp [Walk.softbtsCgi, hlength])

/-- A turn over a TLV attribute goes by its low length octet. -/
theorem turn_tlv (htag : btsAttr w.atribute = some .tlv) :
    w.turn m = ⟨w.length - (3 + m (w.patr + 2)), w.patr + 3 + (m (w.patr + 2)).toNat,
      m (w.patr + 3 + (m (w.patr + 2)).toNat)⟩ := by
  rw [Walk.turn_eq, if_neg (ne_softbtsCgi (by simp [htag])), htag, Walk.shaped, Walk.tlv,
    Walk.atributeLength_eq]

/-- A TLV attribute whose length octet makes up what is left ends the loop. -/
theorem btsGetAttrLoop_tlv_ends (hlength : w.length ≠ 0) (htag : btsAttr w.atribute = some .tlv)
    (hoctet : m (w.patr + 2) = w.length - 3) : (btsGetAttrLoop m 1 w).isSome = true := by
  have hzero : (w.turn m).length = 0 := by
    rw [turn_tlv htag, hoctet, add_sub_cancel, sub_self]
  rw [btsGetAttrLoop_succ hlength, btsGetAttrLoop_of_zero hzero]
  rfl

/-- With another length octet, and no attribute behind it, the loop does not end. -/
theorem btsGetAttrLoop_tlv_never (hlength : w.length ≠ 0) (htag : btsAttr w.atribute = some .tlv)
    (hoctet : m (w.patr + 2) ≠ w.length - 3)
    (hnext : m (w.patr + 3 + (m (w.patr + 2)).toNat) = 0) (turns : Nat) :
    btsGetAttrLoop m turns w = none := by
  apply btsGetAttrLoop_of_turn hlength
  intro turns
  rw [turn_tlv htag, hnext]
  refine btsGetAttrLoop_unknown ?_ rfl turns
  intro hzero
  apply hoctet
  have hsum : w.length = 3 + m (w.patr + 2) := sub_eq_zero.mp hzero
  rw [hsum, add_sub_cancel_left]

/-! ### Where the loop reads -/

namespace Walk

/-- The walk at the same place of another buffer. -/
def reread (m : Mem) (w : Walk) : Walk := { w with atribute := m w.patr }

theorem atribute_turn (hcgi : w.atribute ≠ nmAttSoftbtsCgi) (hread : w.atribute = m w.patr) :
    (w.turn m).atribute = m (w.turn m).patr := by
  rw [turn_eq, if_neg hcgi]
  match btsAttr w.atribute with
  | some (.fixed n) => rfl
  | some .tlv => rfl
  | none => exact hread

/-- The loop comes to read at or after `bound`: the tag of an attribute, or the length of a TLV
attribute. After SOFTBTS_CGI it reads no more. -/
inductive Strays (m : Mem) (bound : Nat) : Walk → Prop where
  | tag {w : Walk} (hlength : w.length ≠ 0) (hpatr : bound ≤ w.patr) : Strays m bound w
  | tlvLength {w : Walk} (hlength : w.length ≠ 0) (htag : btsAttr w.atribute = some .tlv)
      (hoctet : bound ≤ w.patr + 2) : Strays m bound w
  | turn {w : Walk} (hlength : w.length ≠ 0) (hcgi : w.atribute ≠ nmAttSoftbtsCgi)
      (hnext : Strays m bound (w.turn m)) : Strays m bound w

variable {bound : Nat}

/-- A turn that reads below `bound` is the same in buffers that agree there. -/
theorem turn_reread (hagree : Mem.AgreeBelow bound m m') (hpatr : w.patr < bound)
    (htlv : btsAttr w.atribute = some .tlv → w.patr + 2 < bound)
    (hcgi : w.atribute ≠ nmAttSoftbtsCgi) (hread : w.atribute = m w.patr) :
    (w.reread m').turn m' = (w.turn m).reread m' := by
  have hsame : m' w.patr = w.atribute := by rw [hread, hagree _ hpatr]
  rw [turn_eq, turn_eq, reread]
  simp only [hsame, if_neg hcgi]
  cases hshape : btsAttr w.atribute with
  | none => simp [shaped, reread, hsame]
  | some shape =>
      cases shape with
      | fixed n => rfl
      | tlv =>
          have hoctet := hagree _ (htlv hshape)
          simp only [shaped, tlv, reread, atributeLength_eq, hoctet]

/-- A loop that does not stray ends in one buffer when it ends in the other. -/
theorem isSome_loop_eq (hagree : Mem.AgreeBelow bound m m') (hstrays : ¬ w.Strays m bound)
    (hread : w.atribute = m w.patr) (turns : Nat) :
    (btsGetAttrLoop m' turns (w.reread m')).isSome = (btsGetAttrLoop m turns w).isSome := by
  induction turns generalizing w with
  | zero => rfl
  | succ turns ih =>
      by_cases hzero : w.length = 0
      · rw [btsGetAttrLoop_of_zero hzero,
          btsGetAttrLoop_of_zero (show (w.reread m').length = 0 from hzero)]
      have hpatr : w.patr < bound := by
        by_contra hpatr
        exact hstrays (.tag hzero (Nat.le_of_not_lt hpatr))
      have htlv : btsAttr w.atribute = some .tlv → w.patr + 2 < bound := by
        intro htag
        by_contra hoctet
        exact hstrays (.tlvLength hzero htag (Nat.le_of_not_lt hoctet))
      by_cases hcgi : w.atribute = nmAttSoftbtsCgi
      · have hcgi' : (w.reread m').atribute = nmAttSoftbtsCgi := by
          rw [← hcgi, hread]
          exact (hagree _ hpatr).symm
        exact isSome_btsGetAttrLoop_cgi hcgi hcgi' rfl (turns + 1)
      · rw [btsGetAttrLoop_succ hzero,
          btsGetAttrLoop_succ (show (w.reread m').length ≠ 0 from hzero), Option.isSome_map,
          Option.isSome_map, turn_reread hagree hpatr htlv hcgi hread]
        exact ih (fun hnext => hstrays (.turn hzero hcgi hnext)) (atribute_turn hcgi hread)

/-- What lies from `bound` on decides whether the loop ends. -/
def Undecided (m : Mem) (bound : Nat) (w : Walk) : Prop :=
  ∃ m₁ m₂, Mem.AgreeBelow bound m m₁ ∧ Mem.AgreeBelow bound m m₂ ∧
    (∃ turns, (btsGetAttrLoop m₁ turns (w.reread m₁)).isSome = true) ∧
      ∀ turns, btsGetAttrLoop m₂ turns (w.reread m₂) = none

theorem undecided_of_tag (hlength : w.length ≠ 0) (hpatr : bound ≤ w.patr) :
    w.Undecided m bound := by
  refine ⟨Function.update (Function.update m w.patr nmAttConnFailCrit) (w.patr + 2) (w.length - 3),
    Function.update m w.patr 0,
    (Mem.agreeBelow_update _ hpatr _).trans (Mem.agreeBelow_update _ (by omega) _),
    Mem.agreeBelow_update _ hpatr _,
    ⟨1, btsGetAttrLoop_tlv_ends hlength ?_ (Function.update_self _ _ _)⟩, ?_⟩
  · rw [reread, Function.update_of_ne (by omega), Function.update_self]
    rfl
  · refine btsGetAttrLoop_unknown hlength ?_
    rw [reread, Function.update_self]
    rfl

theorem undecided_of_tlvLength (hlength : w.length ≠ 0) (hpatr : w.patr < bound)
    (hread : w.atribute = m w.patr) (htag : btsAttr w.atribute = some .tlv)
    (hoctet : bound ≤ w.patr + 2) : w.Undecided m bound := by
  -- any other length octet leaves something to be read behind it
  obtain ⟨v, hv⟩ : ∃ v : UInt8, v ≠ w.length - 3 := by
    by_cases h0 : (0 : UInt8) = w.length - 3
    · exact ⟨1, by rw [← h0]; decide⟩
    · exact ⟨0, h0⟩
  obtain ⟨m₂, hm₂⟩ : ∃ m₂, m₂ =
      Function.update (Function.update m (w.patr + 2) v) (w.patr + 3 + v.toNat) 0 := ⟨_, rfl⟩
  have hagree₂ : Mem.AgreeBelow bound m m₂ := by
    rw [hm₂]
    exact (Mem.agreeBelow_update _ hoctet _).trans (Mem.agreeBelow_update _ (by omega) _)
  have hoctet₂ : m₂ (w.patr + 2) = v := by
    rw [hm₂, Function.update_of_ne (by omega), Function.update_self]
  have htag' : ∀ m', Mem.AgreeBelow bound m m' → btsAttr (w.reread m').atribute = some .tlv := by
    intro m' hagree
    rw [reread, ← hagree _ hpatr, ← hread, htag]
  refine ⟨Function.update m (w.patr + 2) (w.length - 3), m₂, Mem.agreeBelow_update _ hoctet _,
    hagree₂, ⟨1, btsGetAttrLoop_tlv_ends hlength (htag' _ (Mem.agreeBelow_update _ hoctet _))
      (Function.update_self _ _ _)⟩, ?_⟩
  refine btsGetAttrLoop_tlv_never (w := w.reread m₂) hlength (htag' m₂ hagree₂) ?_ ?_
  · show m₂ (w.patr + 2) ≠ w.length - 3
    rw [hoctet₂]
    exact hv
  · show m₂ (w.patr + 3 + (m₂ (w.patr + 2)).toNat) = 0
    rw [hoctet₂, hm₂, Function.update_self]

/-- **A loop that strays is not decided by what lies below `bound`.** -/
theorem undecided_of_strays (h : w.Strays m bound) (hread : w.atribute = m w.patr) :
    w.Undecided m bound := by
  induction h with
  | tag hlength hpatr => exact undecided_of_tag hlength hpatr
  | @tlvLength w hlength htag hoctet =>
      by_cases hpatr : w.patr < bound
      · exact undecided_of_tlvLength hlength hpatr hread htag hoctet
      · exact undecided_of_tag hlength (Nat.le_of_not_lt hpatr)
  | @turn w hlength hcgi _ ih =>
      by_cases hpatr : w.patr < bound
      · by_cases htlv : btsAttr w.atribute = some .tlv → w.patr + 2 < bound
        · obtain ⟨m₁, m₂, h₁, h₂, ⟨turns, hends⟩, hnever⟩ := ih (atribute_turn hcgi hread)
          have hturn₁ := turn_reread h₁ hpatr htlv hcgi hread
          have hturn₂ := turn_reread h₂ hpatr htlv hcgi hread
          refine ⟨m₁, m₂, h₁, h₂, ⟨turns + 1, ?_⟩, fun turns => ?_⟩
          · rw [btsGetAttrLoop_succ (show (w.reread m₁).length ≠ 0 from hlength), hturn₁,
              Option.isSome_map]
            exact hends
          · refine btsGetAttrLoop_of_turn (w := w.reread m₂) hlength (fun turns => ?_) turns
            rw [hturn₂, hnever]
        · rw [Classical.not_imp] at htlv
          exact undecided_of_tlvLength hlength hpatr hread htlv.1 (Nat.le_of_not_lt htlv.2)
      · exact undecided_of_tag hlength (Nat.le_of_not_lt hpatr)

end Walk

end SoftBts
