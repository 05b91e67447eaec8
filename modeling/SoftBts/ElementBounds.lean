import SoftBts.BufferBounds
import SoftBts.RslReports

/-! Which octets are printed and decoded of the System Information in a message of the radio link,
beside the element that is to have it and the frame. None of the tags and lengths is looked at. -/

namespace SoftBts.Rsl

open Octets BitFields

/-- A System Info Type element, and a Full BCCH Information element behind it that has room for the
23 octets. -/
structure ElementThere (m : Mem) : Prop where
  sysInfoTag : m (headData + 4) = 0x1e
  bcchTag : m (headData + 6) = 0x27
  length : 23 ≤ (m (headData + 7)).toNat

/-- The octet is one of the element's, and of the frame. -/
def InElement (m : Mem) (a : Nat) : Prop :=
  headData + 8 ≤ a ∧ a < headData + 8 + (m (headData + 7)).toNat ∧ a < declaredLen m + 3

/-- The label is not one of the message around the body. -/
def Label.ofBody : Label → Bool
  | tBit | messageGroup | cchMessageType | cchElement | tnBits | cBits | sysInfoElement
  | sysInfoType | bcchElement | length => false
  | _ => true

/-- Whatever is printed of a body is printed of an element that is there, out of the octets of it. -/
structure DecodesElement (m : Mem) (log : Log) : Prop where
  body : ∀ r ∈ log.reports, r.label.ofBody = true →
    ElementThere m ∧ ∀ a ∈ r.addresses, InElement m a
  rest : ∀ rest, log.rest = some rest → ElementThere m ∧ rest.stop = none ∧
    (∀ t ∈ rest.tests, InElement m (rest.si3 + t.octet)) ∧
    ∀ r ∈ rest.reports, ∀ a ∈ r.addresses, InElement m a

/-- The element is there and inside the frame, and in type 3 `poii` points to an octet of it unless
it is set. -/
structure SysInfoThere (l : Locals) (m : Mem) : Prop where
  element : ElementThere m
  inFrame : (m (headData + 7)).toNat + 8 ≤ declaredLen m
  poii : m (headData + 5) = 0x03 → l.octets = 1 ∨ ∃ p, l.poii = some p ∧ InElement m p

/-! ### Where the octets come from -/

/-- Every octet that the reports are made of is between two addresses. -/
def Between (first past : Nat) (rs : List Report) : Prop :=
  ∀ r ∈ rs, ∀ a ∈ r.addresses, first ≤ a ∧ a < past

section Addresses

variable {m : Mem} {first past base : Nat} {r : Struct}

theorem between_append {rs rs' : List Report} (h : Between first past rs)
    (h' : Between first past rs') : Between first past (rs ++ rs') :=
  List.forall_mem_append.mpr ⟨h, h'⟩

theorem between_singleton {report : Report} :
    Between first past [report] ↔ ∀ a ∈ report.addresses, first ≤ a ∧ a < past :=
  List.forall_mem_singleton

theorem between_sayAll {lines : List (Label × Member)} (h : ∀ line ∈ lines, line.2 ∈ r.members) :
    Between base (base + r.size) (sayAll ⟨r, base⟩ m lines) := by
  intro report hreport a ha
  obtain ⟨line, hline, rfl⟩ := List.mem_map.mp hreport
  exact Overlay.mem_addresses (h line hline) ha

theorem between_dump {label : Label} {i : Member} {n : Nat} (hi : i ∈ r.members)
    (hoffset : r.offset i % 8 = 0) (hwidth : i.width = 8 * n) :
    Between base (base + r.size) [dump ⟨r, base⟩ m label i n] := by
  rw [between_singleton]
  intro a ha
  rw [dump, ← Overlay.addresses_eq hoffset hwidth] at ha
  exact Overlay.mem_addresses hi ha

theorem between_sysInfo2 (l3 : Nat) : Between l3 (l3 + 23) (sysInfo2 m l3) :=
  between_append (between_append (between_sayAll (r := systemInformationType2) (by decide))
    (between_dump (r := systemInformationType2) (by decide) rfl rfl))
    (between_sayAll (r := systemInformationType2) (by decide))

theorem between_sysInfo3 (l3 : Nat) : Between l3 (l3 + 23) (sysInfo3 m l3) := by
  have hsay : ∀ lines : List (Label × Member),
      (∀ line ∈ lines, line.2 ∈ systemInformationType3.members) →
        Between l3 (l3 + 23) (sayAll ⟨systemInformationType3, l3⟩ m lines) :=
    fun _ => between_sayAll
  unfold sysInfo3
  apply between_append
  · apply between_append
    · apply between_append
      · apply between_append
        · exact hsay _ (by decide)
        · apply hsay
          split_ifs <;> decide
      · exact hsay _ (by decide)
    · apply between_singleton.mpr
      exact fun a => Overlay.mem_addresses (r := systemInformationType3) (by decide)
  · exact hsay _ (by decide)

theorem between_variableBitMap (chd : Nat) : Between chd (chd + 16) (variableBitMap m chd) := by
  have hmember : ∀ i ∈ cellVarBit.members, ∀ a ∈ Overlay.addresses ⟨cellVarBit, chd⟩ i,
      chd ≤ a ∧ a < chd + 16 := fun _ hi _ => Overlay.mem_addresses hi
  unfold variableBitMap
  apply between_append
  · exact between_sayAll (r := cellVarBit) (by decide)
  · refine List.forall_mem_cons.mpr ⟨fun a ha => ?_, ?_⟩
    · obtain ⟨i, hi, ha⟩ := List.mem_flatMap.mp ha
      have hall : ∀ i ∈ [Member.origArfcnHi, .origArfcnMid, .origArfcnLo],
          i ∈ cellVarBit.members := by decide
      exact hmember i (hall i hi) a ha
    · exact between_dump (r := cellVarBit) (by decide) rfl rfl

theorem between_sysInfo1 (l3 : Nat) : Between l3 (l3 + 23) (sysInfo1 m l3) := by
  have hchd : Overlay.address ⟨systemInformationType1, l3⟩ .bit121 = l3 + 3 := by
    have hoffset : systemInformationType1.offset .bit121 = 8 * 3 := rfl
    simp only [Overlay.address, hoffset]
  unfold sysInfo1
  apply between_append
  · apply between_append
    · apply between_append
      · exact between_sayAll (r := systemInformationType1) (by decide)
      · split_ifs
        · rw [hchd]
          intro report hreport a ha
          have hbits := between_variableBitMap (l3 + 3) report hreport a ha
          omega
        · exact List.forall_mem_nil _
    · exact between_sayAll (r := systemInformationType1) (by decide)
  · apply between_singleton.mpr
    exact fun a => Overlay.mem_addresses (r := systemInformationType1) (by decide)

theorem between_selectionReports (si3 : Nat) :
    Between si3 (si3 + 2) (selectionReports m si3) := by
  have hsay : ∀ lines : List (Label × Member),
      (∀ line ∈ lines, line.2 ∈ si3SelectionParams.members) →
        Between si3 (si3 + 2) (sayAll ⟨si3SelectionParams, si3⟩ m lines) :=
    fun _ => between_sayAll
  rw [selectionReports, if_pos (presentTest_eq m si3)]
  exact hsay [(.selection, .selPresent), (.cbq, .cbq), (.cellReselectOffset, .cellReselOff),
    (.temporaryOffset, .tempOffs), (.penaltyTime, .penaltyTime)] (by decide)

theorem between_powerReports (o : UInt8) (a : Nat) : Between a (a + 1) (powerReports o a) := by
  have hsay : ∀ lines : List (Label × Member),
      (∀ line ∈ lines, line.2 ∈ si3PowerOffset.members) →
        Between a (a + 1) (sayAll ⟨si3PowerOffset, a⟩ (fun _ => o) lines) :=
    fun _ => between_sayAll
  simp only [powerReports]
  split_ifs
  · exact hsay [(.power, .poPresent), (.powerOffset, .powerOffset)] (by decide)
  · exact hsay [(.power, .poPresent)] (by decide)

/-- The state of the power offset is always printed. -/
theorem mem_powerReports (o : UInt8) (a : Nat) :
    ∃ r ∈ powerReports o a, r.addresses = [a] := by
  have hoffset : si3PowerOffset.offset .poPresent = 7 := rfl
  have haddress : Overlay.address ⟨si3PowerOffset, a⟩ .poPresent = a := by
    simp [Overlay.address, hoffset]
  have hspan : Overlay.span ⟨si3PowerOffset, a⟩ .poPresent = 1 := by
    show (si3PowerOffset.offset .poPresent % 8 + 1 + 7) / 8 = 1
    rw [hoffset]
  refine ⟨say ⟨si3PowerOffset, a⟩ (fun _ => o) (.power, .poPresent), ?_, ?_⟩
  · simp only [powerReports]
    split_ifs
    · exact List.mem_cons_self
    · exact List.mem_cons_self
  · rw [say, Overlay.addresses, haddress, hspan]
    rfl

end Addresses

/-! ### The element -/

section Element

variable {l : Locals} {m : Mem}

theorem inElement_of_inFrame (hframe : (m (headData + 7)).toNat + 8 ≤ declaredLen m) {a : Nat}
    (hfirst : headData + 8 ≤ a) (hpast : a < headData + 8 + (m (headData + 7)).toNat) :
    InElement m a := by
  have hthree : headData = 3 := rfl
  exact ⟨hfirst, hpast, by omega⟩

/-- The octets that the structs of the three types have. -/
theorem inElement_of_between (h : SysInfoThere l m) {rs : List Report}
    (hrs : Between (headData + 8) (headData + 8 + 23) rs) :
    ∀ r ∈ rs, ∀ a ∈ r.addresses, InElement m a := by
  intro r hr a ha
  obtain ⟨hfirst, hpast⟩ := hrs r hr a ha
  have hlength := h.element.length
  exact inElement_of_inFrame h.inFrame hfirst (by omega)

/-- The octets that `hexdump` prints: as many as the element says to have. -/
def l3Dump (m : Mem) : Report := dump bcch m .l3 .l3Msg (m (headData + 7)).toNat

theorem mem_addresses_l3Dump {a : Nat} : a ∈ (l3Dump m).addresses ↔
    headData + 8 ≤ a ∧ a < headData + 8 + (m (headData + 7)).toNat :=
  List.mem_range'_1

theorem bodyReports_inElement (h : SysInfoThere l m) :
    ∀ r ∈ bodyReports m, ∀ a ∈ r.addresses, InElement m a := by
  have hl3 : bcch.address .l3Msg = headData + 8 := rfl
  have hdump : ∀ a ∈ (l3Dump m).addresses, InElement m a := by
    intro a ha
    obtain ⟨hfirst, hpast⟩ := mem_addresses_l3Dump.mp ha
    exact inElement_of_inFrame h.inFrame hfirst hpast
  rw [bodyReports, hl3, read_bcchLength]
  refine List.forall_mem_cons.mpr ⟨hdump, ?_⟩
  split_ifs
  · exact inElement_of_between h (between_sysInfo1 (headData + 8))
  · exact inElement_of_between h (between_sysInfo2 (headData + 8))
  · exact inElement_of_between h (between_sysInfo3 (headData + 8))
  · exact List.forall_mem_nil _

/-- The four rest octets. -/
theorem inElement_si3 (h : SysInfoThere l m) {a : Nat} (hfirst : headData + 27 ≤ a)
    (hpast : a < headData + 31) : InElement m a := by
  have hlength := h.element.length
  exact inElement_of_inFrame h.inFrame (by omega) (by omega)

theorem walk_inElement (h : SysInfoThere l m) :
    ∀ t ∈ walk m (headData + 27), InElement m (headData + 27 + t.octet) := by
  intro t ht
  obtain ⟨hoctet, -, -⟩ := tested_behind m _ ht
  exact inElement_si3 h (by omega) (by omega)

theorem selectionReports_inElement (h : SysInfoThere l m) :
    ∀ r ∈ selectionReports m (headData + 27), ∀ a ∈ r.addresses, InElement m a := by
  intro r hr a ha
  obtain ⟨hfirst, hpast⟩ := between_selectionReports _ r hr a ha
  exact inElement_si3 h hfirst (by omega)

theorem powerReports_inElement (o : UInt8) {p : Nat} (hp : InElement m p) :
    ∀ r ∈ powerReports o p, ∀ a ∈ r.addresses, InElement m a := by
  intro r hr a ha
  obtain ⟨hfirst, hpast⟩ := between_powerReports o p r hr a ha
  have hsame : a = p := by omega
  rwa [hsame]

theorem restOctetsSi3_inElement (h : SysInfoThere l m) (htype : m (headData + 5) = 0x03) :
    let rest := restOctetsSi3 l m (headData + 27)
    rest.stop = none ∧ (∀ t ∈ rest.tests, InElement m (rest.si3 + t.octet)) ∧
      ∀ r ∈ rest.reports, ∀ a ∈ r.addresses, InElement m a := by
  have hreports : ∀ o p, InElement m p →
      ∀ r ∈ selectionReports m (headData + 27) ++ powerReports o p,
        ∀ a ∈ r.addresses, InElement m a := fun o _ hp =>
    List.forall_mem_append.mpr ⟨selectionReports_inElement h, powerReports_inElement o hp⟩
  simp only [restOctetsSi3]
  by_cases hoctets : l.octets = 1
  · have hfirst : InElement m (headData + 27) := inElement_si3 h (by omega) (by omega)
    rw [if_pos hoctets]
    exact ⟨rfl, walk_inElement h, hreports _ _ hfirst⟩
  · obtain ⟨p, hp, hinElement⟩ := (h.poii htype).resolve_left hoctets
    rw [if_neg hoctets, hp]
    exact ⟨rfl, walk_inElement h, hreports _ _ hinElement⟩

theorem sayAll_not_ofBody {o : Overlay Member.width} {lines : List (Label × Member)}
    (h : ∀ line ∈ lines, line.1.ofBody = false) :
    ∀ r ∈ sayAll o m lines, r.label.ofBody = false := by
  intro r hr
  obtain ⟨line, hline, rfl⟩ := List.mem_map.mp hr
  exact h line hline

theorem bcchInfo_not_ofBody : ∀ r ∈ bcchInfo m, r.label.ofBody = false := by
  simp only [bcchInfo, List.forall_mem_append]
  exact ⟨⟨⟨sayAll_not_ofBody (by decide), sayAll_not_ofBody (by decide)⟩,
    sayAll_not_ofBody (by decide)⟩, sayAll_not_ofBody (by decide)⟩

/-- A message that is not taken for a BCCH INFORMATION. -/
theorem rslMsg_not_ofBody (h : ¬ IsBcchInfo m) :
    ∀ r ∈ (rslMsg l m).reports, r.label.ofBody = false := by
  rcases (rslMsg_other (l := l) h).1 with hreports | hreports
  · rw [hreports]
    exact List.forall_mem_nil _
  · rw [hreports]
    exact sayAll_not_ofBody (by decide)

theorem mem_l3Dump (h : IsBcchInfo m) : l3Dump m ∈ (rslMsg l m).reports := by
  rw [(rslMsg_bcchInfo h).1, bodyReports, read_bcchLength]
  exact List.mem_append_right _ List.mem_cons_self

/-- What `restOctetsSi3` prints shows where `poii` points. -/
theorem poii_of_restOctetsSi3 {si3 : Nat} (hstop : (restOctetsSi3 l m si3).stop = none)
    (hreports : ∀ r ∈ (restOctetsSi3 l m si3).reports, ∀ a ∈ r.addresses, InElement m a) :
    l.octets = 1 ∨ ∃ p, l.poii = some p ∧ InElement m p := by
  by_cases hone : l.octets = 1
  · exact Or.inl hone
  · rw [restOctetsSi3, if_neg hone] at hstop hreports
    cases hp : l.poii with
    | none =>
        rw [hp] at hstop
        cases hstop
    | some p =>
        rw [hp] at hreports
        obtain ⟨r, hr, haddress⟩ := mem_powerReports (m p) p
        refine Or.inr ⟨p, rfl, hreports r (List.mem_append_right _ hr) p ?_⟩
        rw [haddress]
        exact List.mem_singleton_self p

theorem sysInfoThere_of_decodes (hinfo : IsBcchInfo m) (h : DecodesElement m (rslMsg l m)) :
    SysInfoThere l m := by
  obtain ⟨-, hrest⟩ := rslMsg_bcchInfo (l := l) hinfo
  obtain ⟨helement, hinside⟩ := h.body _ (mem_l3Dump hinfo) rfl
  have hlength := helement.length
  have hthree : headData = 3 := rfl
  refine ⟨helement, ?_, ?_⟩
  · have hlast : headData + 8 + ((m (headData + 7)).toNat - 1) ∈ (l3Dump m).addresses :=
      mem_addresses_l3Dump.mpr (by omega)
    have hframe := (hinside _ hlast).2.2
    omega
  · intro htype
    rw [if_pos htype] at hrest
    obtain ⟨-, hstop, -, hreports⟩ := h.rest _ hrest
    exact poii_of_restOctetsSi3 hstop hreports

/-- **Where System Information is decoded from.** For every message, of any declared length, what is
printed of a body is printed of an element that is there, and out of the octets of the element and of
the frame, if and only if the message is not taken for a BCCH INFORMATION, or the tags and the
lengths, which are not looked at, are right, and so is `poii` where it is read. -/
theorem decodesElement_iff (l : Locals) (m : Mem) :
    DecodesElement m (rslMsg l m) ↔ (IsBcchInfo m → SysInfoThere l m) := by
  constructor
  · exact fun h hinfo => sysInfoThere_of_decodes hinfo h
  · intro h
    by_cases hinfo : IsBcchInfo m
    · have hthere := h hinfo
      obtain ⟨hreports, hrest⟩ := rslMsg_bcchInfo (l := l) hinfo
      constructor
      · rw [hreports, List.forall_mem_append]
        refine ⟨fun r hr hbody => ?_, fun r hr _ => ⟨hthere.element, bodyReports_inElement hthere r hr⟩⟩
        rw [bcchInfo_not_ofBody r hr] at hbody
        cases hbody
      · intro rest heq
        rw [hrest] at heq
        split_ifs at heq with htype
        cases heq
        exact ⟨hthere.element, restOctetsSi3_inElement hthere htype⟩
    · constructor
      · intro r hr hbody
        rw [rslMsg_not_ofBody hinfo r hr] at hbody
        cases hbody
      · intro rest heq
        rw [(rslMsg_other hinfo).2] at heq
        cases heq

end Element

/-- A message of eight octets, whose element says to have 255: the octets up to the address 265 are
printed, and the frame ends before the address 11. -/
theorem decodesElement_truncated :
    let f : Frame := ⟨protoRsl, [0x0c, 0x11, 0x01, 0x80, 0x1e, 0x04, 0x27, 0xff], by decide⟩
    let m := f.into Mem.blank
    IsBcchInfo m ∧ (∃ r ∈ (rslMsg ⟨0, none⟩ m).reports, r.label = .l3 ∧ 265 ∈ r.addresses) ∧
      declaredLen m + 3 = 11 ∧ ¬ DecodesElement m (rslMsg ⟨0, none⟩ m) := by
  intro f m
  have hinfo : IsBcchInfo m := ⟨by decide, by decide⟩
  refine ⟨hinfo, ⟨l3Dump m, mem_l3Dump hinfo, rfl, mem_addresses_l3Dump.mpr (by decide)⟩,
    by decide, fun h => ?_⟩
  have hframe := (sysInfoThere_of_decodes hinfo h).inFrame
  revert hframe
  decide

end SoftBts.Rsl
