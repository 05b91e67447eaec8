import Mathlib.Data.List.Nodup
import SoftBts.SwActivation

/-! The eight OPSTART messages for the channels, in any order. The state they lead to does not depend
on the order. What is sent does: the batch goes out with the start of channel 7, wherever that comes,
and reports the other channels as they are then. -/

namespace SoftBts

open Octets Reactive

/-- The message is OPSTART for the channel. -/
structure OpstartsChannel (i : Message) (ts : Fin 8) : Prop where
  proto : i.proto = protoOml
  msgType : i.mem fomMsgType = nmMtOpstart
  objClass : i.mem fomObjClass = nmOcChannel
  tsNr : i.mem fomTsNr = tsOctet ts

/-- An OPSTART message for each channel. -/
structure ChannelOpstarts where
  message : Fin 8 → Message
  opstarts : ∀ ts, OpstartsChannel (message ts) ts

/-- Every channel is operationally ENABLED. -/
def Bts.AllEnabled (b : Bts) : Prop := ∀ ts, b.channelOpstate ts = nmOpstateEnabled

/-- The state after the start of some channels. -/
def Bts.startChannels (b : Bts) (started : List (Fin 8)) : Bts :=
  { b with channelOpstate := fun ts =>
      if ts ∈ started then nmOpstateEnabled else b.channelOpstate ts }

@[simp] theorem startChannels_nil (b : Bts) : b.startChannels [] = b := by
  simp [Bts.startChannels]

theorem start_startChannels (b : Bts) (started : List (Fin 8)) (ts : Fin 8) :
    (b.startChannels started).start (.channel ts) = b.startChannels (started ++ [ts]) := by
  simp only [Bts.startChannels, Bts.start, Bts.setOpstate, Bts.mk.injEq, true_and]
  funext ts'
  by_cases hts : ts' = ts
  · simp [hts]
  · simp [hts]

theorem startChannels_of_perm (b : Bts) {p q : List (Fin 8)} (h : p.Perm q) :
    b.startChannels p = b.startChannels q := by
  simp only [Bts.startChannels, h.mem_iff]

/-! ### One message -/

theorem OpstartsChannel.effect {i : Message} {ts : Fin 8} (h : OpstartsChannel i ts) (b : Bts) :
    i.effect b = .answer i.sd (b.start (.channel ts))
      (opstartReplies (b.start (.channel ts)) (.channel ts)) := by
  have hobj : i.request.obj = some (.channel ts) := by
    show Obj.named (i.mem fomObjClass) (i.mem fomTsNr) = _
    rw [h.objClass, h.tsNr]
    exact Obj.named_inst (.channel ts)
  have hopstart : i.request.msgType = nmMtOpstart := h.msgType
  have heffect : Effect.msgType i.sd i.request b = .answer i.sd (b.start (.channel ts))
      (opstartReplies (b.start (.channel ts)) (.channel ts)) :=
    calc Effect.msgType i.sd i.request b
        = .opstart i.sd i.request b := Effect.msgType_of_opstart hopstart
      _ = .answer i.sd (b.start (.channel ts))
            (opstartReplies (b.start (.channel ts)) (.channel ts)) := Effect.opstart_of_obj hobj
  rw [Message.effect_oml h.proto, Effect.oml, heffect, Effect.thenManuf, if_neg]
  rintro ⟨-, hnil, -⟩
  simp [Effect.answer, opstartReplies] at hnil

/-- What a run sends, and on which sockets. -/
def frames (w : World) (is : List Message) : List (Link × List UInt8) :=
  wire (handler.outputs w is)

theorem frames_append (w : World) (is js : List Message) :
    frames w (is ++ js) = frames w is ++ frames (handler.after w is) js := by
  induction is generalizing w with
  | nil => rfl
  | cons i is ih =>
      have h := ih (handler.step w i).1
      simp only [frames, wire, List.cons_append, Machine.outputs_cons, Machine.after_cons,
        List.map_append, List.append_assoc] at h ⊢
      rw [h]

namespace ChannelOpstarts

variable (c : ChannelOpstarts) (b : Bts)

/-- The messages in the order given. -/
def inOrder (order : List (Fin 8)) : List Message := order.map c.message

/-- The acknowledgement of the start of a channel. -/
def ack (ts : Fin 8) : Link × List UInt8 :=
  ((c.message ts).sd, fomFrame nmMtOpstartAck (Obj.channel ts).inst)

/-- What the start of channel 7 sets off. -/
def batch (sd : Link) (b : Bts) : List (Link × List UInt8) := (batchReplies b).map (sd, ·)

theorem step_message (ts : Fin 8) (started : List (Fin 8)) :
    (handler.step ⟨b.startChannels started, none⟩ (c.message ts)).1 =
      ⟨b.startChannels (started ++ [ts]), none⟩ := by
  rw [handler_step_running rfl, (c.opstarts ts).effect, start_startChannels]
  rfl

theorem after_inOrder (started order : List (Fin 8)) :
    handler.after ⟨b.startChannels started, none⟩ (c.inOrder order) =
      ⟨b.startChannels (started ++ order), none⟩ := by
  induction order generalizing started with
  | nil => simp [inOrder]
  | cons ts order ih =>
      rw [inOrder, List.map_cons, Machine.after_cons, c.step_message]
      have h := ih (started ++ [ts])
      rwa [List.append_assoc, List.singleton_append] at h

theorem frames_message (ts : Fin 8) (started : List (Fin 8)) :
    frames ⟨b.startChannels started, none⟩ [c.message ts] =
      c.ack ts :: if ts = 7 then batch (c.message 7).sd (b.startChannels (started ++ [ts])) else [] := by
  rw [frames, Machine.outputs_cons, Machine.outputs_nil, List.append_nil, handler_step_running rfl,
    (c.opstarts ts).effect, start_startChannels, wire_answer]
  simp only [opstartReplies, List.map_cons, ack, batch]
  split_ifs with h7
  · simp [h7]
  · rfl

/-- Without channel 7, every start is acknowledged and that is all. -/
theorem frames_of_not_mem {order : List (Fin 8)} (h7 : (7 : Fin 8) ∉ order)
    (started : List (Fin 8)) :
    frames ⟨b.startChannels started, none⟩ (c.inOrder order) = order.map c.ack := by
  induction order generalizing started with
  | nil => rfl
  | cons ts order ih =>
      rw [List.mem_cons, not_or] at h7
      show frames _ ([c.message ts] ++ c.inOrder order) = _
      rw [frames_append, c.frames_message, if_neg (Ne.symm h7.1), Machine.after_cons, c.step_message,
        Machine.after_nil, ih h7.2]
      rfl

/-- What the eight messages make the BTS send, in an order that has channel 7 between `l` and `r`. -/
theorem frames_split {l r : List (Fin 8)} (hl : (7 : Fin 8) ∉ l) (hr : (7 : Fin 8) ∉ r) :
    (frames ⟨b, none⟩ (c.inOrder (l ++ 7 :: r))).Perm
      ((l ++ 7 :: r).map c.ack ++ batch (c.message 7).sd (b.startChannels (l ++ [7]))) := by
  have hsplit : c.inOrder (l ++ 7 :: r) = c.inOrder l ++ ([c.message 7] ++ c.inOrder r) := by
    simp [inOrder]
  have hl' := c.frames_of_not_mem b hl []
  have hafter := c.after_inOrder b [] l
  rw [startChannels_nil, List.nil_append] at hafter
  rw [startChannels_nil] at hl'
  rw [hsplit, frames_append, frames_append, hl', hafter, c.frames_message, if_pos rfl,
    Machine.after_cons, c.step_message, Machine.after_nil, c.frames_of_not_mem b hr, List.map_append,
    List.map_cons]
  simp only [List.cons_append, List.append_assoc]
  exact List.Perm.append_left _ (List.Perm.cons _ List.perm_append_comm)

end ChannelOpstarts

/-! ### The batch -/

/-- Lists of keyed entries are permutations of each other only if the entries are the same. -/
theorem map_perm_map_iff {A B K : Type*} {f g : A → B} {as : List A} (key : B → K) (k : A → K)
    (hk : Set.InjOn k {a | a ∈ as}) (hf : ∀ a ∈ as, key (f a) = k a)
    (hg : ∀ a ∈ as, key (g a) = k a) :
    (as.map f).Perm (as.map g) ↔ ∀ a ∈ as, f a = g a := by
  constructor
  · intro h a ha
    obtain ⟨a', ha', heq⟩ := List.mem_map.mp (h.subset (List.mem_map_of_mem ha))
    have hkeys : k a' = k a := by rw [← hg a' ha', heq, hf a ha]
    rw [← heq, hk ha' ha hkeys]
  · intro h
    rw [List.map_congr_left h]

theorem stateReport_inj {b b' : Bts} {o : Obj} {avStatus : UInt8} :
    stateReport b o avStatus = stateReport b' o avStatus ↔
      b.stateVar (.opstate o) = b'.stateVar (.opstate o) ∧
        b.stateVar (.adminState o) = b'.stateVar (.adminState o) := by
  simp [stateReport, reportFrame]

/-- Of states that differ in the operational states of channels only, the batch tells them. -/
theorem batchReplies_perm_iff (b : Bts) (p q : List (Fin 8)) :
    (batchReplies (b.startChannels p)).Perm (batchReplies (b.startChannels q)) ↔
      ∀ ts, b.channelOpstate ts ≠ nmOpstateEnabled → (ts ∈ p ↔ ts ∈ q) := by
  have hreports : (perChannel fun o => stateReport (b.startChannels p) o nmAvstateOk).Perm
        (perChannel fun o => stateReport (b.startChannels q) o nmAvstateOk) ↔
      ∀ ts ∈ List.finRange 8, stateReport (b.startChannels p) (.channel ts) nmAvstateOk =
        stateReport (b.startChannels q) (.channel ts) nmAvstateOk :=
    map_perm_map_iff fomOf (fun ts => some (nmMtStatechgEventRep, (Obj.channel ts).inst))
      (fun ts _ ts' _ h => by simpa [Obj.inst_injective.eq_iff] using h) (fun _ _ => rfl)
      fun _ _ => rfl
  have hcons : ∀ started, batchReplies (b.startChannels started) =
      ([fomFrame nmMtSwActivatedRep Obj.radioCarrier.inst, stateReport b .siteManager nmAvstateOk,
          stateReport b .bts nmAvstateOk] ++
        perChannel fun o => stateReport (b.startChannels started) o nmAvstateOk) ++
      [fomFrame nmMtSwActivatedRep Obj.basebTransc.inst] := fun _ => rfl
  rw [hcons, hcons, List.perm_append_right_iff, List.perm_append_left_iff, hreports]
  apply forall_congr'
  intro ts
  simp only [List.mem_finRange, forall_const, stateReport_inj, Bts.stateVar, Bts.startChannels,
    and_true]
  by_cases hp : ts ∈ p <;> by_cases hq : ts ∈ q <;> simp [hp, hq, eq_comm]

/-- The channels started before channel 7. -/
def beforeSeven (order : List (Fin 8)) : List (Fin 8) := order.takeWhile (·.val ≠ 7)

theorem exists_split {order : List (Fin 8)} (h : order.Perm (List.finRange 8)) :
    ∃ r, order = beforeSeven order ++ 7 :: r ∧ (7 : Fin 8) ∉ beforeSeven order ∧
      (7 : Fin 8) ∉ r := by
  have hmem : (7 : Fin 8) ∈ order := h.mem_iff.mpr (List.mem_finRange 7)
  obtain ⟨l, r, rfl, hl⟩ := List.eq_append_cons_of_mem hmem
  have hbefore : beforeSeven (l ++ 7 :: r) = l := by
    rw [beforeSeven, List.takeWhile_append_of_pos]
    · simp
    · intro ts hts
      have hne : ts ≠ 7 := ne_of_mem_of_not_mem hts hl
      simpa [Fin.ext_iff] using hne
  have hnodup := (h.nodup_iff.mpr (List.nodup_finRange 8))
  rw [List.nodup_append, List.nodup_cons] at hnodup
  exact ⟨r, by rw [hbefore], by rwa [hbefore], hnodup.2.1.1⟩

/-- A frame of the batch: what OPSTART of a channel makes the BTS send besides its acknowledgement. -/
def IsBatchFrame (i : Message) (s : Sent) : Prop :=
  ∃ ts, OpstartsChannel i ts ∧ s.octets ≠ fomFrame nmMtOpstartAck (Obj.channel ts).inst

theorem named_eq_channel {objClass tsNr : UInt8} {ts : Fin 8}
    (h : Obj.named objClass tsNr = some (.channel ts)) :
    objClass = nmOcChannel ∧ tsNr = tsOctet ts := by
  rw [Obj.named] at h
  split_ifs at h with h0 h1 h2 hclass hts h4
  all_goals cases h
  exact ⟨hclass, (tsOctet_of_toNat hts).symm⟩

theorem mem_swActivated {msgType : UInt8} {o p : Obj} (ho : o = .radioCarrier ∨ o = .basebTransc)
    (h : o ∈ swActivated msgType p) : msgType = nmMtOpstart ∧ p = .channel 7 := by
  unfold swActivated at h
  by_cases hopstart : msgType = nmMtOpstart
  · rw [if_pos hopstart] at h
    refine ⟨hopstart, ?_⟩
    cases p with
    | channel ts =>
        rw [List.mem_ite_nil_right] at h
        rw [show ts = 7 from Fin.ext h.1]
    | _ => rcases ho with rfl | rfl <;> simp at h
  · rw [if_neg hopstart] at h
    exfalso
    split_ifs at h with hactivate
    · cases p with
      | channel ts =>
          simp only [List.mem_ite_nil_right, List.mem_map] at h
          obtain ⟨-, ts', -, rfl⟩ := h
          rcases ho with ho | ho <;> cases ho
      | _ => cases h
    · cases h

/-- Only OPSTART of channel 7 triggers them. -/
theorem opstartsChannel_of_triggers {i : Message} {o : Obj} (h : Triggers i o)
    (ho : o = .radioCarrier ∨ o = .basebTransc) : OpstartsChannel i 7 := by
  obtain ⟨homl, p, hobj, hmem⟩ := h
  obtain ⟨hopstart, rfl⟩ := mem_swActivated ho hmem
  obtain ⟨hclass, hts⟩ := named_eq_channel hobj
  exact ⟨homl, hopstart, hclass, hts⟩

theorem allEnabled_start_iff (b : Bts) :
    (b.start (.channel 7)).AllEnabled ↔ ∀ ts ≠ 7, b.channelOpstate ts = nmOpstateEnabled := by
  apply forall_congr'
  intro ts
  by_cases hts : ts = 7
  · simp [Bts.start, Bts.setOpstate, hts]
  · simp [Bts.start, Bts.setOpstate, hts]

/-- OPSTART of channel 7 sets the batch off, and that of no other channel. -/
theorem batch_of_step {w : World} {i : Message} {s : Sent} (hs : s ∈ (handler.step w i).2)
    (hbatch : IsBatchFrame i s) :
    OpstartsChannel i 7 ∧ s.octets ∈ batchReplies s.held ∧ s.held = w.bts.start (.channel 7) := by
  obtain ⟨ts, hopstart, hnack⟩ := hbatch
  have hstop : w.stop = none := by
    cases hw : w.stop with
    | none => rfl
    | some why =>
        rw [handler_step_stopped hw] at hs
        cases hs
  rw [handler_step_running hstop, hopstart.effect] at hs
  obtain ⟨frame, hframe, rfl⟩ := List.mem_map.mp hs
  rw [opstartReplies, List.mem_cons] at hframe
  have hreplies := hframe.resolve_left hnack
  by_cases h7 : ts = 7
  · subst h7
    rw [if_pos rfl] at hreplies
    exact ⟨hopstart, hreplies, rfl⟩
  · rw [if_neg (by simpa using h7)] at hreplies
    cases hreplies

/-- The SW Activated Reports of RADIO CARRIER and BASEBAND TRANSCEIVER are sent with nothing else. -/
theorem batch_of_activatedRep {w : World} {i : Message} {s : Sent} (hs : s ∈ (handler.step w i).2)
    {o : Obj} (ho : o = .radioCarrier ∨ o = .basebTransc)
    (hoctets : s.octets = fomFrame nmMtSwActivatedRep o.inst) : IsBatchFrame i s := by
  have hmem : o.inst ∈ activatedReps (handler.step w i).2 :=
    List.mem_filterMap.mpr ⟨s, hs, by simp [activatedRep, hoctets]⟩
  obtain ⟨-, p, hp, htrigger⟩ := mem_activatedReps_step.mp hmem
  obtain rfl := Obj.inst_injective hp
  refine ⟨7, opstartsChannel_of_triggers htrigger ho, ?_⟩
  rw [hoctets]
  rcases ho with rfl | rfl <;> decide

/-- Two orders compared. -/
theorem frames_perm_iff (c : ChannelOpstarts) (b : Bts) {p q : List (Fin 8)}
    (hp : p.Perm (List.finRange 8)) (hq : q.Perm (List.finRange 8)) :
    (frames ⟨b, none⟩ (c.inOrder p)).Perm (frames ⟨b, none⟩ (c.inOrder q)) ↔
      ∀ ts, b.channelOpstate ts ≠ nmOpstateEnabled →
        (ts ∈ beforeSeven p ↔ ts ∈ beforeSeven q) := by
  obtain ⟨r, hpr, hl, hr⟩ := exists_split hp
  obtain ⟨r', hqr, hl', hr'⟩ := exists_split hq
  have hframes := c.frames_split b hl hr
  have hframes' := c.frames_split b hl' hr'
  rw [← hpr] at hframes
  rw [← hqr] at hframes'
  have hacks : (p.map c.ack).Perm (q.map c.ack) := (hp.trans hq.symm).map c.ack
  rw [hframes.congr_left, hframes'.congr_right, (hacks.append_right _).congr_left,
    List.perm_append_left_iff, ChannelOpstarts.batch, ChannelOpstarts.batch,
    List.map_perm_map_iff (fun f f' h => (Prod.mk.inj h).2), batchReplies_perm_iff]
  refine forall_congr' fun ts => imp_congr_right fun _ => ?_
  by_cases h7 : ts = 7
  · simp [h7, hl, hl']
  · simp [h7]

/-- **Channel start-up.** All orders of the eight OPSTART messages lead from a state to the same
state. Two orders make the BTS send the same octet strings, up to order, if and only if every channel
that was not ENABLED to begin with is started before channel 7 in both or in neither. In every run,
whatever OPSTART of a channel makes the BTS send besides its acknowledgement is of the batch and is
sent with OPSTART of channel 7 only, and all channels are ENABLED then if and only if the other seven
were before; and the SW Activated Reports of the batch are sent with it only. -/
theorem channel_startup (c : ChannelOpstarts) (b : Bts) (w : World) (is : List Message) :
    (∀ p q : List (Fin 8), p.Perm (List.finRange 8) → q.Perm (List.finRange 8) →
      handler.after ⟨b, none⟩ (c.inOrder p) = handler.after ⟨b, none⟩ (c.inOrder q) ∧
        ((frames ⟨b, none⟩ (c.inOrder p)).Perm (frames ⟨b, none⟩ (c.inOrder q)) ↔
          ∀ ts, b.channelOpstate ts ≠ nmOpstateEnabled →
            (ts ∈ beforeSeven p ↔ ts ∈ beforeSeven q))) ∧
    ∀ pre i post, is = pre ++ i :: post → ∀ s ∈ (handler.step (handler.after w pre) i).2,
      (IsBatchFrame i s → OpstartsChannel i 7 ∧ s.octets ∈ batchReplies s.held ∧
        (s.held.AllEnabled ↔
          ∀ ts ≠ 7, (handler.after w pre).bts.channelOpstate ts = nmOpstateEnabled)) ∧
      ∀ o : Obj, o = .radioCarrier ∨ o = .basebTransc →
        s.octets = fomFrame nmMtSwActivatedRep o.inst → IsBatchFrame i s := by
  constructor
  · intro p q hp hq
    constructor
    · have hafter := c.after_inOrder b []
      simp only [startChannels_nil, List.nil_append] at hafter
      rw [hafter, hafter, startChannels_of_perm b (hp.trans hq.symm)]
    · exact frames_perm_iff c b hp hq
  · intro pre i post _ s hs
    refine ⟨fun hbatch => ?_, fun o ho => batch_of_activatedRep hs ho⟩
    obtain ⟨hopstart, hreply, hheld⟩ := batch_of_step hs hbatch
    exact ⟨hopstart, hreply, by rw [hheld, allEnabled_start_iff]⟩

/-- The eight messages as a BSC sends them. -/
def bscOpstarts : ChannelOpstarts where
  message := fun ts => Message.onOml (bscRequest nmMtOpstart (Obj.channel ts).inst [])
  opstarts := fun ts => by
    refine ⟨rfl, rfl, rfl, rfl⟩

/-- With channel 7 first, other reports go out than with channel 7 last, and at a moment when channel
1 is not ENABLED: the one of SITE MANAGER is one of them. -/
theorem channel_seven_first :
    (¬ (frames World.init (bscOpstarts.inOrder [7, 0, 1, 2, 3, 4, 5, 6])).Perm
      (frames World.init (bscOpstarts.inOrder [0, 1, 2, 3, 4, 5, 6, 7]))) ∧
    ∃ s ∈ (handler.step World.init (bscOpstarts.message 7)).2,
      IsBatchFrame (bscOpstarts.message 7) s ∧
        s.octets = stateReport s.held .siteManager nmAvstateOk ∧ ¬ s.held.AllEnabled := by
  refine ⟨fun h => ?_, ⟨.oml, stateReport (startup.start (.channel 7)) .siteManager nmAvstateOk,
    startup.start (.channel 7)⟩, by decide, ⟨7, bscOpstarts.opstarts 7, by decide⟩, rfl,
    fun h => absurd (h 1) (by decide)⟩
  have hreport : (Link.oml, stateReport (startup.start (.channel 7)) (.channel 1) nmAvstateOk) ∈
      frames World.init (bscOpstarts.inOrder [7, 0, 1, 2, 3, 4, 5, 6]) := by decide
  exact absurd (h.subset hreport) (by decide)

end SoftBts
