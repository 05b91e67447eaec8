import SoftBts.AttrLoop
import SoftBts.Run

/-! What the attribute loop accepts, against the grammar of the attributes. A turn over an attribute
goes to the next one, but for SOFTBTS_CGI, after which the loop takes everything for SOFTBTS_CGI. The
octets left are counted modulo 256, and of the length of a TLV attribute only the low octet is
used. -/

namespace SoftBts

open Octets Elements

/-! ### The loop over well-formed attributes -/

/-- Nothing but SOFTBTS_CGI comes after SOFTBTS_CGI. -/
def CgiLast (es : List (Element btsAttr)) : Prop :=
  es.Pairwise fun e f => e.tag = nmAttSoftbtsCgi → f.tag = nmAttSoftbtsCgi

/-- The walk stands at the octets given, which are all that is left. -/
structure StandsAt (m : Mem) (w : Walk) (octets : List UInt8) : Prop where
  length : w.length = UInt8.ofNat octets.length
  load : m.load w.patr octets.length = octets
  small : octets.length < 256

variable {m : Mem} {w : Walk}

theorem ofNat_eq_zero_iff {n : Nat} (hn : n < 256) : UInt8.ofNat n = 0 ↔ n = 0 := by
  rw [← UInt8.toNat_inj, UInt8.toNat_ofNat', Nat.mod_eq_of_lt hn]
  rfl

theorem ofNat_sub_ofNat {n k : Nat} (hk : k ≤ n) :
    UInt8.ofNat n - UInt8.ofNat k = UInt8.ofNat (n - k) :=
  (UInt8.ofNat_sub hk).symm

/-- A TLV attribute whose octets are counted by an octet has its length in the low octet. -/
theorem low_octet_of_tlv {hi lo : UInt8} {value : List UInt8} (hlength : value.length = be16 hi lo)
    (hsmall : value.length < 256) : lo.toNat = value.length := by
  have := lo.toNat_lt
  rw [be16] at hlength
  omega

theorem length_of_cgi {e : Element btsAttr} (hcgi : e.tag = nmAttSoftbtsCgi) :
    e.octets.length = 10 := by
  rcases e.size_cases with hfixed | ⟨htlv, -⟩
  · rw [hcgi] at hfixed
    exact (Shape.fixed.inj (Option.some.inj hfixed)).symm
  · rw [hcgi] at htlv
    cases htlv

/-- A branch that treats an attribute by its shape goes past its octets. -/
theorem shaped_element {e : Element btsAttr} {rest : List UInt8}
    (h : StandsAt m w (e.octets ++ rest)) :
    w.shaped m (btsAttr e.tag) = ⟨w.length - UInt8.ofNat e.octets.length,
      w.patr + e.octets.length, m (w.patr + e.octets.length)⟩ := by
  obtain ⟨-, hload, hsmall⟩ := h
  rw [List.length_append] at hsmall
  rcases e.size_cases with hfixed | ⟨htlv, hi, lo, value, hoctets, hvalue⟩
  · have hsize : (UInt8.ofNat e.octets.length).toNat = e.octets.length := by
      rw [UInt8.toNat_ofNat', Nat.mod_eq_of_lt (by omega)]
    rw [hfixed, Walk.shaped, Walk.fixed, hsize]
  · have hsize : e.octets.length = 3 + value.length := by
      rw [hoctets]
      simp only [List.length_cons]
      omega
    have hlo := low_octet_of_tlv hvalue (by omega)
    have hoctet : m (w.patr + 2) = lo := by
      have hget : (m.load w.patr (e.octets ++ rest).length)[2]? = some (m (w.patr + 2)) := by
        apply Mem.getElem?_load
        rw [List.length_append]
        omega
      rw [hload, hoctets] at hget
      exact (Option.some.inj hget).symm
    have hsum : UInt8.ofNat (3 + value.length) = 3 + lo := by
      apply UInt8.toNat_inj.mp
      rw [UInt8.toNat_ofNat', UInt8.toNat_add, hlo]
      rfl
    rw [htlv, Walk.shaped, Walk.tlv, Walk.atributeLength_eq, hoctet, hsize, hsum, hlo, Nat.add_assoc]

/-- A turn over an attribute goes to what follows it. -/
theorem standsAt_turn {e : Element btsAttr} {rest : List UInt8} (h : StandsAt m w (e.octets ++ rest))
    (htag : w.atribute = e.tag) :
    StandsAt m (w.turn m) rest ∧ (w.turn m).patr = w.patr + e.octets.length ∧
      (w.turn m).atribute =
        if e.tag = nmAttSoftbtsCgi then nmAttSoftbtsCgi else m (w.turn m).patr := by
  have hturn : (w.turn m).length = w.length - UInt8.ofNat e.octets.length ∧
      (w.turn m).patr = w.patr + e.octets.length ∧
      (w.turn m).atribute =
        if e.tag = nmAttSoftbtsCgi then nmAttSoftbtsCgi else m (w.turn m).patr := by
    rw [Walk.turn_eq, htag]
    by_cases hcgi : e.tag = nmAttSoftbtsCgi
    · rw [if_pos hcgi, if_pos hcgi, length_of_cgi hcgi]
      exact ⟨rfl, rfl, htag.trans hcgi⟩
    · rw [if_neg hcgi, if_neg hcgi, shaped_element h]
      exact ⟨rfl, rfl, rfl⟩
  obtain ⟨hlength', hpatr', hatribute'⟩ := hturn
  obtain ⟨hlength, hload, hsmall⟩ := h
  obtain ⟨-, hrest, -⟩ := load_eq_element_append hload
  rw [List.length_append, Nat.add_sub_cancel_left] at hrest
  rw [List.length_append] at hlength hsmall
  refine ⟨⟨?_, ?_, by omega⟩, hpatr', hatribute'⟩
  · rw [hlength', hlength, ofNat_sub_ofNat (Nat.le_add_right _ _), Nat.add_sub_cancel_left]
  · rw [hpatr', hrest]

/-- **Well-formed attributes** are taken one by one if nothing but SOFTBTS_CGI comes after
SOFTBTS_CGI. -/
theorem btsGetAttrLoop_flatten {es : List (Element btsAttr)} (hlast : CgiLast es)
    (h : StandsAt m w (flatten es)) (hread : ∀ e ∈ es.head?, w.atribute = e.tag) :
    btsGetAttrLoop m es.length w = some (offsets w.patr es) := by
  induction es generalizing w with
  | nil =>
      rw [btsGetAttrLoop_of_zero h.length]
      rfl
  | cons e es ih =>
      have htag := hread e rfl
      have hpos := e.length_pos
      have hlength : w.length ≠ 0 := by
        rw [h.length, Ne, ofNat_eq_zero_iff h.small, flatten_cons, List.length_append]
        omega
      obtain ⟨hstands, hpatr, hatribute⟩ := standsAt_turn h htag
      rw [CgiLast, List.pairwise_cons] at hlast
      have hread' : ∀ f ∈ es.head?, (w.turn m).atribute = f.tag := by
        intro f hf
        obtain ⟨fs, rfl⟩ : ∃ fs, es = f :: fs := by
          cases es with
          | nil => cases hf
          | cons g fs =>
              obtain rfl : g = f := Option.some.inj hf
              exact ⟨fs, rfl⟩
        rw [hatribute]
        split_ifs with hcgi
        · exact (hlast.1 f List.mem_cons_self hcgi).symm
        · exact (load_eq_element_append hstands.load).2.2
      rw [List.length_cons, btsGetAttrLoop_succ hlength, ih hlast.2 hstands hread', htag, hpatr]
      rfl

/-! ### What the loop takes for attributes -/

/-- From SOFTBTS_CGI on the loop dispatches on nothing else. -/
theorem cgi_of_btsGetAttrLoop {turns : Nat} {steps : List (UInt8 × Nat)}
    (hcgi : w.atribute = nmAttSoftbtsCgi) (h : btsGetAttrLoop m turns w = some steps) :
    ∀ s ∈ steps, s.1 = nmAttSoftbtsCgi := by
  induction turns generalizing w steps with
  | zero =>
      rw [btsGetAttrLoop] at h
      split_ifs at h
      cases h
      exact List.forall_mem_nil _
  | succ turns ih =>
      by_cases hzero : w.length = 0
      · rw [btsGetAttrLoop_of_zero hzero] at h
        cases h
        exact List.forall_mem_nil _
      · rw [btsGetAttrLoop_succ hzero, Option.map_eq_some_iff] at h
        obtain ⟨rest, hrest, rfl⟩ := h
        have hturn : (w.turn m).atribute = nmAttSoftbtsCgi := by
          rw [turn_of_cgi hcgi]
          exact hcgi
        exact List.forall_mem_cons.mpr ⟨hcgi, ih hturn hrest⟩

theorem pairwise_of_btsGetAttrLoop {turns : Nat} {steps : List (UInt8 × Nat)}
    (h : btsGetAttrLoop m turns w = some steps) :
    steps.Pairwise fun a b => a.1 = nmAttSoftbtsCgi → b.1 = nmAttSoftbtsCgi := by
  induction turns generalizing w steps with
  | zero =>
      rw [btsGetAttrLoop] at h
      split_ifs at h
      cases h
      exact List.Pairwise.nil
  | succ turns ih =>
      by_cases hzero : w.length = 0
      · rw [btsGetAttrLoop_of_zero hzero] at h
        cases h
        exact List.Pairwise.nil
      · rw [btsGetAttrLoop_succ hzero, Option.map_eq_some_iff] at h
        obtain ⟨rest, hrest, rfl⟩ := h
        refine List.pairwise_cons.mpr ⟨fun s hs hcgi => ?_, ih hrest⟩
        have hturn : (w.turn m).atribute = nmAttSoftbtsCgi := by
          rw [turn_of_cgi hcgi]
          exact hcgi
        exact cgi_of_btsGetAttrLoop hturn hrest s hs

theorem map_fst_offsets (p : Nat) (es : List (Element btsAttr)) :
    (offsets p es).map Prod.fst = es.map Element.tag := by
  induction es generalizing p with
  | nil => rfl
  | cons e es ih => rw [offsets, List.map_cons, ih, List.map_cons]

theorem cgiLast_of_offsets {p turns : Nat} {es : List (Element btsAttr)}
    (h : btsGetAttrLoop m turns w = some (offsets p es)) : CgiLast es := by
  have htags : ((offsets p es).map Prod.fst).Pairwise
      fun a b => a = nmAttSoftbtsCgi → b = nmAttSoftbtsCgi :=
    List.pairwise_map.mpr (pairwise_of_btsGetAttrLoop h)
  rw [map_fst_offsets] at htags
  exact List.pairwise_map.mp htags

/-! ### When the loop ends -/

/-- Strides of the loop from an address on, and the octets they cover: by the size of an attribute,
by three and the low length octet of a TLV attribute, and by tens from SOFTBTS_CGI on. -/
inductive Strides (m : Mem) : Nat → Nat → Prop where
  | nil {p : Nat} : Strides m p 0
  | fixed {p n total : Nat} (htag : btsAttr (m p) = some (.fixed n))
      (hcgi : m p ≠ nmAttSoftbtsCgi) (hnext : Strides m (p + n) total) : Strides m p (n + total)
  | tlv {p total : Nat} (htag : btsAttr (m p) = some .tlv)
      (hnext : Strides m (p + 3 + (m (p + 2)).toNat) total) :
      Strides m p (3 + (m (p + 2)).toNat + total)
  | cgi {p k : Nat} (hcgi : m p = nmAttSoftbtsCgi) : Strides m p (10 * k)

/-- The loop ends, given enough turns. -/
def Ends (m : Mem) (w : Walk) : Prop := ∃ turns, (btsGetAttrLoop m turns w).isSome = true

theorem ends_of_zero (h : w.length = 0) : Ends m w :=
  ⟨0, by rw [btsGetAttrLoop_of_zero h]; rfl⟩

theorem ends_turn_iff (h : w.length ≠ 0) : Ends m (w.turn m) ↔ Ends m w := by
  constructor
  · rintro ⟨turns, hturns⟩
    exact ⟨turns + 1, by rwa [btsGetAttrLoop_succ h, Option.isSome_map]⟩
  · rintro ⟨turns, hturns⟩
    cases turns with
    | zero =>
        rw [btsGetAttrLoop, if_neg h] at hturns
        cases hturns
    | succ turns =>
        rw [btsGetAttrLoop_succ h, Option.isSome_map] at hturns
        exact ⟨turns, hturns⟩

/-- A loop that ends at SOFTBTS_CGI has taken tens off the length. -/
theorem tens_of_ends {turns : Nat} (hcgi : w.atribute = nmAttSoftbtsCgi)
    (h : (btsGetAttrLoop m turns w).isSome = true) : ∃ k, UInt8.ofNat (10 * k) = w.length := by
  induction turns generalizing w with
  | zero =>
      by_cases hzero : w.length = 0
      · exact ⟨0, hzero.symm⟩
      · rw [btsGetAttrLoop, if_neg hzero] at h
        cases h
  | succ turns ih =>
      by_cases hzero : w.length = 0
      · exact ⟨0, hzero.symm⟩
      rw [btsGetAttrLoop_succ hzero, Option.isSome_map, turn_of_cgi hcgi] at h
      obtain ⟨k, hk⟩ := ih (w := w.softbtsCgi) hcgi h
      refine ⟨k + 1, ?_⟩
      have hlength : w.length = UInt8.ofNat (10 * k) + 10 := by
        rw [hk]
        exact (sub_add_cancel _ _).symm
      rw [hlength, Nat.mul_add, UInt8.ofNat_add]
      rfl

theorem ends_of_tens {k : Nat} (hcgi : w.atribute = nmAttSoftbtsCgi)
    (hk : UInt8.ofNat (10 * k) = w.length) : Ends m w := by
  induction k generalizing w with
  | zero => exact ends_of_zero hk.symm
  | succ k ih =>
      by_cases hzero : w.length = 0
      · exact ends_of_zero hzero
      rw [← ends_turn_iff hzero, turn_of_cgi hcgi]
      apply ih (w := w.softbtsCgi) hcgi
      show UInt8.ofNat (10 * k) = w.length - 10
      rw [← hk, Nat.mul_add, UInt8.ofNat_add]
      exact (add_sub_cancel_right _ _).symm

theorem ends_cgi_iff (hcgi : w.atribute = nmAttSoftbtsCgi) :
    Ends m w ↔ ∃ k, UInt8.ofNat (10 * k) = w.length :=
  ⟨fun ⟨_, hturns⟩ => tens_of_ends hcgi hturns, fun ⟨_, hk⟩ => ends_of_tens hcgi hk⟩

/-- The size of a fixed-size attribute is counted by an octet. -/
def sizeFits : Option Shape → Bool
  | some (.fixed n) => n < 256
  | _ => true

theorem size_lt {tag : UInt8} {n : Nat} (h : btsAttr tag = some (.fixed n)) : n < 256 := by
  have hfits : sizeFits (btsAttr tag) = true := by
    simp only [btsAttr, apply_ite sizeFits]
    simp only [sizeFits, Nat.reduceLT, decide_true, ite_self]
  rw [h] at hfits
  exact of_decide_eq_true hfits

theorem turn_of_fixed {n : Nat} (hcgi : w.atribute ≠ nmAttSoftbtsCgi)
    (htag : btsAttr w.atribute = some (.fixed n)) :
    w.turn m = ⟨w.length - UInt8.ofNat n, w.patr + n, m (w.patr + n)⟩ := by
  have hsize : (UInt8.ofNat n).toNat = n := by
    rw [UInt8.toNat_ofNat', Nat.mod_eq_of_lt (size_lt htag)]
  rw [Walk.turn_eq, if_neg hcgi, htag]
  simp only [Walk.shaped, Walk.fixed, hsize]

theorem turn_of_tlv (htag : btsAttr w.atribute = some .tlv) :
    w.turn m = ⟨w.length - UInt8.ofNat (3 + (m (w.patr + 2)).toNat),
      w.patr + 3 + (m (w.patr + 2)).toNat, m (w.patr + 3 + (m (w.patr + 2)).toNat)⟩ := by
  have hsum : UInt8.ofNat (3 + (m (w.patr + 2)).toNat) = 3 + m (w.patr + 2) := by
    rw [UInt8.ofNat_add, UInt8.ofNat_toNat]
    rfl
  rw [turn_tlv htag, hsum]

theorem strides_of_ends {turns : Nat} (hread : w.atribute = m w.patr)
    (h : (btsGetAttrLoop m turns w).isSome = true) :
    ∃ total, Strides m w.patr total ∧ UInt8.ofNat total = w.length := by
  induction turns generalizing w with
  | zero =>
      by_cases hzero : w.length = 0
      · exact ⟨0, .nil, hzero.symm⟩
      · rw [btsGetAttrLoop, if_neg hzero] at h
        cases h
  | succ turns ih =>
      by_cases hzero : w.length = 0
      · exact ⟨0, .nil, hzero.symm⟩
      by_cases hcgi : w.atribute = nmAttSoftbtsCgi
      · obtain ⟨k, hk⟩ := (ends_cgi_iff hcgi).mp ⟨turns + 1, h⟩
        exact ⟨10 * k, .cgi (hread ▸ hcgi), hk⟩
      rw [btsGetAttrLoop_succ hzero, Option.isSome_map] at h
      obtain ⟨total, hstrides, htotal⟩ := ih (Walk.atribute_turn hcgi hread) h
      cases htag : btsAttr w.atribute with
      | none =>
          rw [turn_of_unknown htag] at hstrides htotal
          exact ⟨total, hstrides, htotal⟩
      | some shape =>
          cases shape with
          | fixed n =>
              rw [turn_of_fixed hcgi htag] at hstrides htotal
              refine ⟨n + total, .fixed (hread ▸ htag) (hread ▸ hcgi) hstrides, ?_⟩
              rw [UInt8.ofNat_add, htotal]
              exact add_sub_cancel _ _
          | tlv =>
              rw [turn_of_tlv htag] at hstrides htotal
              refine ⟨_, .tlv (hread ▸ htag) hstrides, ?_⟩
              rw [UInt8.ofNat_add, htotal]
              exact add_sub_cancel _ _

theorem ends_of_strides {p total : Nat} (h : Strides m p total) (hpatr : w.patr = p)
    (hread : w.atribute = m p) (htotal : UInt8.ofNat total = w.length) : Ends m w := by
  induction h generalizing w with
  | nil => exact ends_of_zero htotal.symm
  | fixed htag hcgi _ ih =>
      by_cases hzero : w.length = 0
      · exact ends_of_zero hzero
      rw [← ends_turn_iff hzero, turn_of_fixed (hread ▸ hcgi) (hread ▸ htag), hpatr]
      apply ih rfl rfl
      rw [← htotal, UInt8.ofNat_add]
      exact (add_sub_cancel_left _ _).symm
  | tlv htag _ ih =>
      by_cases hzero : w.length = 0
      · exact ends_of_zero hzero
      rw [← ends_turn_iff hzero, turn_of_tlv (hread ▸ htag), hpatr]
      apply ih rfl rfl
      rw [← htotal, UInt8.ofNat_add]
      exact (add_sub_cancel_left _ _).symm
  | cgi hcgi => exact (ends_cgi_iff (hread.trans hcgi)).mpr ⟨_, htotal⟩

/-- **The loop ends** if and only if strides from where it stands cover the octets left, modulo 256. -/
theorem ends_iff_strides (hread : w.atribute = m w.patr) :
    Ends m w ↔ ∃ total, Strides m w.patr total ∧ UInt8.ofNat total = w.length :=
  ⟨fun ⟨_, h⟩ => strides_of_ends hread h, fun ⟨_, h, htotal⟩ => ends_of_strides h rfl hread htotal⟩

/-! ### SET BTS ATTRIBUTES -/

/-- The octets after the formatted header that the O&M header counts. -/
def attrArea (m : Mem) : List UInt8 := m.load fomData ((m omLength).toNat - 5)

/-- The message carries well-formed attributes. -/
def Accepted (m : Mem) : Prop := 5 ≤ (m omLength).toNat ∧ WellFormed btsAttr (attrArea m)

/-- `bts_get_attr` returns exactly for well-formed attributes, and has then dispatched on each of
them once, in order. -/
def ParsesGrammar (m : Mem) : Prop :=
  ((∃ turns, (btsGetAttr turns m).isSome = true) ↔ Accepted m) ∧
    ∀ turns steps, btsGetAttr turns m = some steps →
      ∃ es : List (Element btsAttr), flatten es = attrArea m ∧ steps = offsets fomData es

theorem standsAt_start (hlen : 5 ≤ (m omLength).toNat) {octets : List UInt8}
    (harea : octets = attrArea m) : StandsAt m (Walk.start m) octets := by
  have hsmall := (m omLength).toNat_lt
  subst harea
  have hlength : (attrArea m).length = (m omLength).toNat - 5 := Mem.length_load _ _ _
  refine ⟨?_, by rw [hlength]; rfl, by omega⟩
  show m omLength - 5 = _
  rw [hlength, UInt8.ofNat_sub hlen, UInt8.ofNat_toNat]
  rfl

/-- The attributes that are taken one by one. -/
theorem btsGetAttr_flatten {es : List (Element btsAttr)} (hlen : 5 ≤ (m omLength).toNat)
    (harea : flatten es = attrArea m) (hlast : CgiLast es) :
    btsGetAttr es.length m = some (offsets fomData es) := by
  apply btsGetAttrLoop_flatten hlast (standsAt_start hlen harea)
  intro e he
  cases es with
  | nil => cases he
  | cons e' es =>
      obtain rfl : e' = e := Option.some.inj he
      exact (load_eq_element_append (standsAt_start hlen harea).load).2.2

/-- The message is acknowledged when the parser returns, and otherwise nothing is sent. -/
theorem sent_setBtsAttr (htype : m fomMsgType = nmMtSetBtsAttr) (env : Env) (sd : Link) (b : Bts) :
    (omlMsg env sd (.start m b)).handling.sent =
      if (btsGetAttr env.turns m).isSome then [⟨sd, fomFrame nmMtSetBtsAttrAck Obj.bts.inst, b⟩]
      else [] := by
  have hsent := congrArg Effect.sent (omlMsg_effect env sd m b)
  have hset : Effect.msgType sd ((Handling.start m b).request env) b =
      .setBtsAttr sd ((Handling.start m b).request env) b :=
    Effect.msgType_of_setBtsAttr htype
  have hends : ((Handling.start m b).request env).attrsEnd = (btsGetAttr env.turns m).isSome := rfl
  rw [Effect.oml, hset, Effect.setBtsAttr, hends] at hsent
  show (Outcome.effect _).sent = _
  rw [hsent]
  split_ifs with hattrs
  · rw [Effect.thenManuf, if_neg fun hmanuf => absurd hmanuf.2.1 (List.cons_ne_nil _ _)]
  · rw [Effect.thenManuf, if_neg fun hmanuf => absurd hmanuf.1 (Option.some_ne_none _)]

theorem parsesGrammar_of_flatten {es : List (Element btsAttr)} (hlen : 5 ≤ (m omLength).toNat)
    (harea : flatten es = attrArea m) (hlast : CgiLast es) : ParsesGrammar m := by
  have hloop := btsGetAttr_flatten hlen harea hlast
  refine ⟨iff_of_true ⟨_, by rw [hloop]; rfl⟩ ⟨hlen, es, harea⟩, fun turns steps h => ?_⟩
  have hmax := btsGetAttrLoop_mono (le_max_left turns es.length) h
  have hmax' := btsGetAttrLoop_mono (le_max_right turns es.length) hloop
  exact ⟨es, harea, Option.some.inj (hmax.symm.trans hmax')⟩

theorem parsesGrammar_of_never (hacc : ¬ Accepted m)
    (hnever : ¬ ∃ turns, (btsGetAttr turns m).isSome = true) : ParsesGrammar m :=
  ⟨iff_of_false hnever hacc, fun turns steps h => absurd ⟨turns, by rw [h]; rfl⟩ hnever⟩

theorem parsesGrammar_iff : ParsesGrammar m ↔
    (5 ≤ (m omLength).toNat ∧ ∃ es, flatten es = attrArea m ∧ CgiLast es) ∨
      (¬ Accepted m ∧ ∀ total, Strides m fomData total → UInt8.ofNat total ≠ m omLength - 5) := by
  have hends : (∃ turns, (btsGetAttr turns m).isSome = true) ↔
      ∃ total, Strides m fomData total ∧ UInt8.ofNat total = m omLength - 5 :=
    ends_iff_strides (w := Walk.start m) rfl
  constructor
  · rintro ⟨hreturns, hsteps⟩
    by_cases hacc : Accepted m
    · obtain ⟨turns, hturns⟩ := hreturns.mpr hacc
      obtain ⟨steps, hloop⟩ := Option.isSome_iff_exists.mp hturns
      obtain ⟨es, harea, rfl⟩ := hsteps turns steps hloop
      exact Or.inl ⟨hacc.1, es, harea, cgiLast_of_offsets hloop⟩
    · exact Or.inr ⟨hacc, fun total hstrides htotal =>
        hacc (hreturns.mp (hends.mpr ⟨total, hstrides, htotal⟩))⟩
  · rintro (⟨hlen, es, harea, hlast⟩ | ⟨hacc, hnever⟩)
    · exact parsesGrammar_of_flatten hlen harea hlast
    · apply parsesGrammar_of_never hacc
      intro h
      obtain ⟨total, hstrides, htotal⟩ := hends.mp h
      exact hnever total hstrides htotal

/-- **SET BTS ATTRIBUTES.** Its parser accepts exactly the grammar of the attributes, and takes them
apart as the grammar does, if and only if the message carries well-formed attributes in which only
SOFTBTS_CGI comes after SOFTBTS_CGI, or it carries none and no strides of the loop cover the octets
left, modulo 256. When the parser returns, the message is acknowledged; otherwise nothing is sent. -/
theorem setBtsAttr_parses_iff (m : Mem) :
    (ParsesGrammar m ↔
      (5 ≤ (m omLength).toNat ∧ ∃ es, flatten es = attrArea m ∧ CgiLast es) ∨
        (¬ Accepted m ∧ ∀ total, Strides m fomData total → UInt8.ofNat total ≠ m omLength - 5)) ∧
    ∀ (env : Env) (sd : Link) (b : Bts), m fomMsgType = nmMtSetBtsAttr →
      (omlMsg env sd (.start m b)).handling.sent =
        if (btsGetAttr env.turns m).isSome then [⟨sd, fomFrame nmMtSetBtsAttrAck Obj.bts.inst, b⟩]
        else [] :=
  ⟨parsesGrammar_iff, fun env sd b htype => sent_setBtsAttr htype env sd b⟩

/-- Attributes of ten, seven and three octets, of which the first is SOFTBTS_CGI. -/
def cgiFirst : List (Element btsAttr) :=
  [⟨nmAttSoftbtsCgi :: List.replicate 9 0, .fixed rfl rfl⟩,
    ⟨nmAttInterfBound :: List.replicate 6 0, .fixed rfl rfl⟩,
    ⟨nmAttBcchArfcn :: List.replicate 2 0, .fixed rfl rfl⟩]

/-- The attributes after SOFTBTS_CGI are taken for another SOFTBTS_CGI. And a TLV attribute that says
it is 256 octets long is taken for one without a value. -/
theorem cgiFirst_not_parsed :
    ¬ ParsesGrammar (Mem.blank.store 0
        (bscRequest nmMtSetBtsAttr Obj.bts.inst (flatten cgiFirst))) ∧
      ¬ ParsesGrammar (Mem.blank.store 0
        (bscRequest nmMtSetBtsAttr Obj.bts.inst [nmAttConnFailCrit, 0x01, 0x00])) := by
  constructor
  · rintro ⟨-, hsteps⟩
    obtain ⟨es, harea, hes⟩ := hsteps 2 [(nmAttSoftbtsCgi, 12), (nmAttSoftbtsCgi, 22)] (by decide)
    have hcgi : flatten es = flatten cgiFirst := harea.trans (by decide)
    rw [flatten_injective hcgi] at hes
    exact absurd hes (by decide)
  · rintro ⟨hreturns, -⟩
    obtain ⟨-, es, harea⟩ := hreturns.mp ⟨1, by decide⟩
    have htlv : flatten es = [nmAttConnFailCrit, 0x01, 0x00] := harea.trans (by decide)
    cases es with
    | nil => cases htlv
    | cons e es =>
        rw [flatten_cons] at htlv
        have hsize := frontSize_append e.isElement (flatten es)
        have hlength := congrArg List.length htlv
        rw [htlv] at hsize
        have hle : e.octets.length = 259 := (Option.some.inj hsize).symm
        rw [List.length_append, hle] at hlength
        simp only [List.length_cons, List.length_nil] at hlength
        omega

end SoftBts
