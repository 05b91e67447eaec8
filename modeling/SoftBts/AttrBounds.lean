import SoftBts.AttrGrammar

/-! The attribute loop against the attributes of its message: when the loop ends, and when it stays
inside. A turn makes a stride that memory alone decides, however many octets are left, and the loop
stops only where the strides so far add up to the octets left at the start. -/

namespace SoftBts

open Octets Elements

variable {m : Mem} {w : Walk}

/-! ### When SET BTS ATTRIBUTES returns -/

/-- Strides from the first attribute on cover what `length` starts with, modulo 256. -/
def StridesMeetEnd (m : Mem) : Prop :=
  ∃ total, Strides m fomData total ∧ UInt8.ofNat total = m omLength - 5

theorem btsGetAttr_ends_iff (m : Mem) :
    (∃ turns, (btsGetAttr turns m).isSome = true) ↔ StridesMeetEnd m :=
  ends_iff_strides (w := Walk.start m) rfl

/-- From SOFTBTS_CGI on the loop ends if and only if the octets left are even in number. -/
theorem ends_cgi_iff_even (hcgi : w.atribute = nmAttSoftbtsCgi) :
    Ends m w ↔ w.length.toNat % 2 = 0 := by
  have hsmall := w.length.toNat_lt
  rw [ends_cgi_iff hcgi]
  constructor
  · rintro ⟨k, hk⟩
    rw [← hk, UInt8.toNat_ofNat']
    omega
  · intro heven
    -- 770 is 2 modulo 256
    refine ⟨77 * (w.length.toNat / 2), ?_⟩
    apply UInt8.toNat_inj.mp
    rw [UInt8.toNat_ofNat']
    omega

theorem stop_unnamed (q : Request) (b : Bts) :
    (Effect.unnamed q b).stop = none ∨ (Effect.unnamed q b).stop = some .fault := by
  rw [Effect.unnamed]
  split_ifs
  · exact Or.inr rfl
  · exact Or.inl rfl

/-- Away from the attribute loop, the switch on the message type returns or leaves the arrays. -/
theorem stop_msgType {q : Request} (hset : q.msgType ≠ nmMtSetBtsAttr) (sd : Link) (b : Bts) :
    (Effect.msgType sd q b).stop = none ∨ (Effect.msgType sd q b).stop = some .fault := by
  rw [Effect.msgType]
  split_ifs
  · exact Or.inl rfl
  · rw [Effect.activateSw]
    cases q.obj <;> exact Or.inl rfl
  · rw [Effect.opstart]
    cases q.obj with
    | none => exact stop_unnamed q b
    | some o => exact Or.inl rfl
  · exact Or.inl rfl
  · exact Or.inl rfl
  · rw [Effect.chgAdmState]
    cases q.obj with
    | none => exact stop_unnamed q b
    | some o => cases o <;> exact Or.inl rfl
  · exact Or.inl rfl

/-- Only the attribute loop goes on for ever. -/
theorem hang_msgType_iff (sd : Link) (q : Request) (b : Bts) :
    (Effect.msgType sd q b).stop = some .hang ↔
      q.msgType = nmMtSetBtsAttr ∧ q.attrsEnd = false := by
  by_cases hset : q.msgType = nmMtSetBtsAttr
  · rw [Effect.msgType_of_setBtsAttr hset, Effect.setBtsAttr]
    cases q.attrsEnd <;> simp [hset]
  · refine iff_of_false (fun hhang => ?_) fun h => hset h.1
    rcases stop_msgType hset sd b with hstop | hstop
    · rw [hstop] at hhang
      cases hhang
    · rw [hstop] at hhang
      cases hhang

theorem hang_omlMsg_iff (env : Env) (sd : Link) (m : Mem) (b : Bts) :
    (omlMsg env sd (.start m b)).stop = some .hang ↔
      m fomMsgType = nmMtSetBtsAttr ∧ (btsGetAttr env.turns m).isSome = false := by
  have heffect := congrArg Effect.stop (omlMsg_effect env sd m b)
  rw [Effect.oml, stop_thenManuf] at heffect
  show (Outcome.effect _).stop = _ ↔ _
  rw [heffect]
  exact hang_msgType_iff sd _ b

/-- **Termination.** The attribute loop ends after finitely many turns if and only if the strides it
makes from the first attribute on come to the octets that `length` counts, modulo 256; and a message
hangs the BTS if and only if it is a SET BTS ATTRIBUTES for which they do not. -/
theorem btsGetAttr_terminates_iff (env : Env) (sd : Link) (m : Mem) (b : Bts) :
    ((∃ turns, (btsGetAttr turns m).isSome = true) ↔ StridesMeetEnd m) ∧
      ((∀ turns, (omlMsg { env with turns := turns } sd (.start m b)).stop = some .hang) ↔
        m fomMsgType = nmMtSetBtsAttr ∧ ¬ StridesMeetEnd m) := by
  refine ⟨btsGetAttr_ends_iff m, ?_⟩
  simp only [hang_omlMsg_iff]
  rw [← btsGetAttr_ends_iff]
  constructor
  · intro h
    refine ⟨(h 0).1, ?_⟩
    rintro ⟨turns, hends⟩
    rw [(h turns).2] at hends
    cases hends
  · rintro ⟨htype, hnever⟩ turns
    exact ⟨htype, Bool.eq_false_of_not_eq_true fun hends => hnever ⟨turns, hends⟩⟩

/-- An attribute that `bts_get_attr` does not know leaves `length` as it is. -/
theorem unknownAttr_hangs :
    let m := Mem.blank.store 0 (bscRequest nmMtSetBtsAttr Obj.bts.inst [nmAttOperState, 0x00])
    (∀ turns, btsGetAttr turns m = none) ∧
      ∀ turns, (omlMsg { Env.plain with turns := turns } .oml (.start m startup)).stop =
        some .hang := by
  intro m
  have hnever : ∀ turns, btsGetAttr turns m = none :=
    btsGetAttrLoop_unknown (w := Walk.start m) (by decide) (by decide)
  refine ⟨hnever, fun turns => ?_⟩
  rw [hang_omlMsg_iff, hnever]
  exact ⟨rfl, rfl⟩

/-! ### Inside the message -/

/-- The loop comes to the walk with the octet it dispatches on read at the address. After SOFTBTS_CGI
it dispatches on the same octet again. -/
inductive Reached (m : Mem) : Walk → Nat → Prop where
  | start : Reached m (Walk.start m) fomData
  | turn {w : Walk} {tagAddr : Nat} (h : Reached m w tagAddr) (hlength : w.length ≠ 0) :
      Reached m (w.turn m) (if w.atribute = nmAttSoftbtsCgi then tagAddr else (w.turn m).patr)

/-- The address is one of the `om_hdr->length - 5` octets of the attributes. -/
def InArea (m : Mem) (i : Nat) : Prop := fomData ≤ i ∧ i + 5 < fomData + (m omLength).toNat

/-- Wherever the loop comes, `length` is the distance from `patr` to the end of the attributes; and
in every turn the octet it dispatches on and the length octets of a TLV attribute are among them. -/
def StaysInside (m : Mem) : Prop :=
  ∀ w tagAddr, Reached m w tagAddr →
    w.patr + w.length.toNat + 5 = fomData + (m omLength).toNat ∧
      (w.length ≠ 0 → InArea m tagAddr ∧
        (btsAttr w.atribute = some .tlv → InArea m (w.patr + 1) ∧ InArea m (w.patr + 2)))

/-- Attributes from an address on within the octets left: each with its size, a TLV attribute with
three octets and what its low length octet counts, and from SOFTBTS_CGI on by tens. At an attribute
that is not known, anything may be left. -/
inductive Fits (m : Mem) : Nat → Nat → Prop where
  | done {p : Nat} : Fits m p 0
  | unknown {p left : Nat} (htag : btsAttr (m p) = none) : Fits m p left
  | fixed {p n left : Nat} (htag : btsAttr (m p) = some (.fixed n))
      (hcgi : m p ≠ nmAttSoftbtsCgi) (hnext : Fits m (p + n) left) : Fits m p (n + left)
  | tlv {p left : Nat} (htag : btsAttr (m p) = some .tlv)
      (hnext : Fits m (p + 3 + (m (p + 2)).toNat) left) : Fits m p (3 + (m (p + 2)).toNat + left)
  | cgi {p k : Nat} (hcgi : m p = nmAttSoftbtsCgi) : Fits m p (10 * k)

/-- The size of a fixed-size attribute counts its tag. -/
def sizeCountsTag : Option Shape → Bool
  | some (.fixed n) => 0 < n
  | _ => true

theorem size_pos {tag : UInt8} {n : Nat} (h : btsAttr tag = some (.fixed n)) : 0 < n := by
  have hcounts : sizeCountsTag (btsAttr tag) = true := by
    simp only [btsAttr, apply_ite sizeCountsTag]
    simp only [sizeCountsTag, Nat.reduceLT, decide_true, ite_self]
  rw [h] at hcounts
  exact of_decide_eq_true hcounts

theorem toNat_sub_ofNat {length : UInt8} {n : Nat} (hn : n ≤ length.toNat) :
    (length - UInt8.ofNat n).toNat = length.toNat - n := by
  have hsmall := length.toNat_lt
  have hsize : (UInt8.ofNat n).toNat = n := by
    rw [UInt8.toNat_ofNat', Nat.mod_eq_of_lt (by omega)]
  rw [UInt8.toNat_sub_of_le _ _ (by rw [UInt8.le_iff_toNat_le, hsize]; exact hn), hsize]

/-- The octet dispatched on is the one read at the address, which is `patr` before SOFTBTS_CGI. -/
theorem Reached.read {tagAddr : Nat} (h : Reached m w tagAddr) :
    w.atribute = m tagAddr ∧ (w.atribute ≠ nmAttSoftbtsCgi → tagAddr = w.patr) := by
  induction h with
  | start => exact ⟨rfl, fun _ => rfl⟩
  | @turn w tagAddr _ _ ih =>
      obtain ⟨hread, haddr⟩ := ih
      split_ifs with hcgi
      · rw [turn_of_cgi hcgi]
        exact ⟨hread, fun hne => absurd hcgi hne⟩
      · rw [haddr hcgi] at hread
        exact ⟨Walk.atribute_turn hcgi hread, fun _ => rfl⟩

/-! #### From the bounds to the attributes -/

section

variable (hinside : StaysInside m)

include hinside

/-- A turn takes from `length` what it adds to `patr`. -/
theorem StaysInside.turn_left {tagAddr n : Nat} (h : Reached m w tagAddr) (hlength : w.length ≠ 0)
    (hpatr : (w.turn m).patr = w.patr + n) : w.length.toNat = n + (w.turn m).length.toNat := by
  have hhere := (hinside _ _ h).1
  have hnext := (hinside _ _ (h.turn hlength)).1
  omega

theorem StaysInside.cgi_left {tagAddr left : Nat} (h : Reached m w tagAddr)
    (hcgi : w.atribute = nmAttSoftbtsCgi) (hleft : w.length.toNat = left) : ∃ k, left = 10 * k := by
  induction left using Nat.strong_induction_on generalizing w tagAddr with
  | _ left ih =>
      by_cases hzero : w.length = 0
      · exact ⟨0, by rw [← hleft, hzero]; rfl⟩
      have hturn := turn_of_cgi (m := m) hcgi
      have hnext := hinside.turn_left (n := 10) h hzero (by rw [hturn]; rfl)
      obtain ⟨k, hk⟩ := ih (w.turn m).length.toNat (by omega) (h.turn hzero)
        (by rw [hturn]; exact hcgi) rfl
      exact ⟨k + 1, by omega⟩

theorem StaysInside.fits {left : Nat} (h : Reached m w w.patr) (hread : w.atribute = m w.patr)
    (hleft : w.length.toNat = left) : Fits m w.patr left := by
  induction left using Nat.strong_induction_on generalizing w with
  | _ left ih =>
      by_cases hzero : w.length = 0
      · rw [← hleft, hzero]
        exact .done
      by_cases hcgi : w.atribute = nmAttSoftbtsCgi
      · obtain ⟨k, rfl⟩ := hinside.cgi_left h hcgi hleft
        exact .cgi (hread ▸ hcgi)
      have hreach := h.turn hzero
      rw [if_neg hcgi] at hreach
      have hread' := Walk.atribute_turn hcgi hread
      cases htag : btsAttr w.atribute with
      | none => exact .unknown (hread ▸ htag)
      | some shape =>
          cases shape with
          | fixed n =>
              have hpatr : (w.turn m).patr = w.patr + n :=
                congrArg Walk.patr (turn_of_fixed hcgi htag)
              have hnext := hinside.turn_left h hzero hpatr
              have hpos := size_pos htag
              have hfits := ih _ (by omega) hreach hread' rfl
              rw [hpatr] at hfits
              rw [← hleft, hnext]
              exact .fixed (hread ▸ htag) (hread ▸ hcgi) hfits
          | tlv =>
              have hpatr : (w.turn m).patr = w.patr + 3 + (m (w.patr + 2)).toNat :=
                congrArg Walk.patr (turn_of_tlv htag)
              have hnext := hinside.turn_left h hzero (hpatr.trans (Nat.add_assoc _ _ _))
              have hfits := ih _ (by omega) hreach hread' rfl
              rw [hpatr] at hfits
              rw [← hleft, hnext]
              exact .tlv (hread ▸ htag) hfits

end

/-! #### From the attributes to the bounds -/

/-- The walk has only what fits ahead, or stands at SOFTBTS_CGI with tens of octets left. -/
structure Within (m : Mem) (w : Walk) (tagAddr : Nat) : Prop where
  left : w.patr + w.length.toNat + 5 = fomData + (m omLength).toNat
  patr : fomData ≤ w.patr
  ahead : (Fits m w.patr w.length.toNat ∧ tagAddr = w.patr ∧ w.atribute = m w.patr) ∨
    (w.atribute = nmAttSoftbtsCgi ∧ InArea m tagAddr ∧ ∃ k, w.length.toNat = 10 * k)

theorem Within.softbtsCgi {tagAddr k : Nat} (h : Within m w tagAddr) (hlength : w.length ≠ 0)
    (hcgi : w.atribute = nmAttSoftbtsCgi) (harea : InArea m tagAddr)
    (hk : w.length.toNat = 10 * k) : Within m w.softbtsCgi tagAddr := by
  have hpos : w.length.toNat ≠ 0 := fun hzero => hlength (UInt8.toNat_inj.mp hzero)
  have hleft := h.left
  have hpatr := h.patr
  have hnext : w.softbtsCgi.length.toNat = w.length.toNat - 10 :=
    toNat_sub_ofNat (n := 10) (by omega)
  have haddr : w.softbtsCgi.patr = w.patr + 10 := rfl
  exact ⟨by omega, by omega, Or.inr ⟨hcgi, harea, k - 1, by omega⟩⟩

/-- A turn that goes on by octets that are still left. -/
theorem Within.stride {tagAddr n left : Nat} {w' : Walk} (h : Within m w tagAddr)
    (hw' : w' = ⟨w.length - UInt8.ofNat n, w.patr + n, m (w.patr + n)⟩)
    (hleft : w.length.toNat = n + left) (hfits : Fits m (w.patr + n) left) :
    Within m w' w'.patr := by
  subst hw'
  have hend := h.left
  have hpatr := h.patr
  have hnext : (w.length - UInt8.ofNat n).toNat = left := by
    rw [toNat_sub_ofNat (by omega), hleft, Nat.add_sub_cancel_left]
  refine ⟨?_, Nat.le_add_right_of_le hpatr, Or.inl ⟨?_, rfl, rfl⟩⟩
  · show w.patr + n + (w.length - UInt8.ofNat n).toNat + 5 = _
    omega
  · show Fits m (w.patr + n) (w.length - UInt8.ofNat n).toNat
    rw [hnext]
    exact hfits

theorem Within.turn {tagAddr : Nat} (h : Within m w tagAddr) (hlength : w.length ≠ 0) :
    Within m (w.turn m) (if w.atribute = nmAttSoftbtsCgi then tagAddr else (w.turn m).patr) := by
  have hpos : w.length.toNat ≠ 0 := fun hzero => hlength (UInt8.toNat_inj.mp hzero)
  rcases h.ahead with ⟨hfits, haddr, hread⟩ | ⟨hcgi, harea, k, hk⟩
  · obtain ⟨left, hleft⟩ : ∃ left, w.length.toNat = left := ⟨_, rfl⟩
    rw [hleft] at hfits
    cases hfits with
    | done => exact absurd hleft hpos
    | unknown htag =>
        rw [← hread] at htag
        rw [turn_of_unknown htag, if_neg (ne_softbtsCgi (by simp [htag])), ← haddr]
        exact h
    | fixed htag hcgi hnext =>
        rw [← hread] at htag hcgi
        rw [if_neg hcgi]
        exact h.stride (turn_of_fixed hcgi htag) hleft hnext
    | tlv htag hnext =>
        rw [← hread] at htag
        rw [if_neg (ne_softbtsCgi (by simp [htag]))]
        rw [Nat.add_assoc] at hnext
        exact h.stride ((turn_of_tlv htag).trans (by rw [Nat.add_assoc])) hleft hnext
    | @cgi _ k hcgi =>
        rw [← hread] at hcgi
        rw [if_pos hcgi, turn_of_cgi hcgi]
        have hend := h.left
        exact h.softbtsCgi hlength hcgi (haddr ▸ ⟨h.patr, by omega⟩) hleft
  · rw [if_pos hcgi, turn_of_cgi hcgi]
    exact h.softbtsCgi hlength hcgi harea hk

theorem within_of_reached {tagAddr : Nat} (hlen : 5 ≤ (m omLength).toNat)
    (hfits : Fits m fomData ((m omLength).toNat - 5)) (h : Reached m w tagAddr) :
    Within m w tagAddr := by
  induction h with
  | start =>
      have hleft : (Walk.start m).length.toNat = (m omLength).toNat - 5 :=
        toNat_sub_ofNat (n := 5) hlen
      refine ⟨?_, le_rfl, Or.inl ⟨hleft ▸ hfits, rfl, rfl⟩⟩
      rw [hleft]
      show fomData + _ + 5 = _
      omega
  | turn _ hlength ih => exact ih.turn hlength

/-- What a walk that is within has of the attributes in a turn is among them. -/
theorem Within.inside {tagAddr : Nat} (h : Within m w tagAddr) (hlength : w.length ≠ 0) :
    InArea m tagAddr ∧
      (btsAttr w.atribute = some .tlv → InArea m (w.patr + 1) ∧ InArea m (w.patr + 2)) := by
  have hpos : w.length.toNat ≠ 0 := fun hzero => hlength (UInt8.toNat_inj.mp hzero)
  have hend := h.left
  have hpatr := h.patr
  rcases h.ahead with ⟨hfits, haddr, hread⟩ | ⟨hcgi, harea, -⟩
  · refine ⟨haddr ▸ ⟨hpatr, by omega⟩, fun htag => ?_⟩
    obtain ⟨left, hleft⟩ : ∃ left, w.length.toNat = left := ⟨_, rfl⟩
    rw [hleft] at hfits
    rw [hread] at htag
    cases hfits with
    | done => exact absurd hleft hpos
    | tlv _ _ => exact ⟨⟨by omega, by omega⟩, ⟨by omega, by omega⟩⟩
    | unknown hother =>
        rw [hother] at htag
        cases htag
    | fixed hother _ _ =>
        rw [hother] at htag
        cases htag
    | cgi hcgi =>
        rw [hcgi] at htag
        cases htag
  · refine ⟨harea, fun htag => ?_⟩
    rw [hcgi] at htag
    cases htag

/-- **Bounds.** The attribute loop stays inside its message if and only if the message has the octets
of a formatted header, and the attributes fit in what `om_hdr->length` counts after them. -/
theorem staysInside_iff (m : Mem) :
    StaysInside m ↔ 5 ≤ (m omLength).toNat ∧ Fits m fomData ((m omLength).toNat - 5) := by
  constructor
  · intro hinside
    have hstart : fomData + (Walk.start m).length.toNat + 5 = fomData + (m omLength).toNat :=
      (hinside _ _ .start).1
    exact ⟨by omega, hinside.fits .start rfl (by omega)⟩
  · rintro ⟨hlen, hfits⟩ w tagAddr hreached
    have hwithin := within_of_reached hlen hfits hreached
    exact ⟨hwithin.left, hwithin.inside⟩

/-- Of BCCH_ARFCN, which has three octets, the message counts one. -/
theorem cutArfcn_leaves :
    ¬ StaysInside (Mem.blank.store 0 (bscRequest nmMtSetBtsAttr Obj.bts.inst [nmAttBcchArfcn])) := by
  intro hinside
  have hturn := (hinside _ _ (.turn .start (by decide))).1
  exact absurd hturn (by decide)

end SoftBts
