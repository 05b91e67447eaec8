import SoftBts.AttrBounds
import SoftBts.LinkSeparation

/-! Which frames call `kill_background`: `case MSG_ID_GET` tests the result of its own send(), `case
MSG_PING` drops that result and tests a local that nothing was assigned to. -/

namespace SoftBts

open Octets Reactive

/-! ### What kills -/

theorem killed_eq_some_iff {env : Env} {rc : Int} :
    killed env rc = some .killed ↔ env.lockPid = true ∧ rc < 0 := by
  rw [killed]
  split_ifs with h
  · exact iff_of_true rfl h.symm
  · exact iff_of_false (by simp) fun hboth => h hboth.symm

theorem stop_oml_ne_killed (env : Env) (sd : Link) (q : Request) (b : Bts) :
    (Effect.oml env sd q b).stop ≠ some .killed := by
  rw [Effect.oml, stop_thenManuf]
  by_cases hset : q.msgType = nmMtSetBtsAttr
  · rw [Effect.msgType_of_setBtsAttr hset, Effect.setBtsAttr]
    split_ifs <;> simp
  · rcases stop_msgType hset sd b with hstop | hstop
    · simp [hstop]
    · simp [hstop]

theorem stop_rslMsg_ne_killed (env : Env) (h : Handling) : (rslMsg env h).stop ≠ some .killed := by
  simp only [rslMsg, rslMgCch, restOctetsSi3]
  split_ifs <;> simp [Outcome.returned, Outcome.stopped]

theorem stop_softbts_iff (env : Env) (sd : Link) (cmd : UInt8) (b : Bts) :
    (Effect.softbts env sd cmd b).stop = some .killed ↔
      env.lockPid = true ∧ (cmd = msgPing ∧ env.rc < 0 ∨ cmd = msgIdGet ∧ env.send 0 < 0) := by
  rw [Effect.softbts]
  split_ifs with hping hget hfirst
  · rw [killed_eq_some_iff]
    simp [hping]
  · have hsent : ¬ (env.lockPid = true ∧ env.send 0 < 0) := by
      rw [← killed_eq_some_iff, hfirst.1]
      simp
    simpa [identify, hget] using hsent
  · rw [killed_eq_some_iff]
    simp [hget]
  · apply iff_of_false
    · simp
    · rintro ⟨-, ⟨hcmd, -⟩ | ⟨hcmd, -⟩⟩
      · exact hping hcmd
      · exact hget hcmd

/-- The messages that kill the BTS, when `kill_background` finds it: a MSG_PING when the indeterminate
value is negative, a MSG_ID_GET when its own send fails. -/
theorem stop_effect_iff (i : Message) (b : Bts) :
    (i.effect b).stop = some .killed ↔
      i.env.lockPid = true ∧ i.proto = protoSoftbts ∧
        (i.cmd = msgPing ∧ i.env.rc < 0 ∨ i.cmd = msgIdGet ∧ i.env.send 0 < 0) := by
  by_cases hsoftbts : i.proto = protoSoftbts
  · rw [Message.effect_softbts hsoftbts, stop_softbts_iff, and_iff_right hsoftbts]
  · refine iff_of_false ?_ fun h => hsoftbts h.2.1
    by_cases homl : i.proto = protoOml
    · rw [Message.effect_oml homl]
      exact stop_oml_ne_killed i.env i.sd i.request b
    · have hdispatch : i.handling b =
          if i.proto = protoRsl then rslMsg i.env (.start i.mem b) else .returned (.start i.mem b) :=
        (if_neg hsoftbts).trans (if_neg homl)
      show (i.handling b).stop ≠ _
      rw [hdispatch]
      split_ifs
      · exact stop_rslMsg_ne_killed i.env _
      · simp [Outcome.returned]

/-! ### Runs -/

/-- The sends made while an arrival is handled succeed. -/
def Healthy (s : System) (i : Arrival) : Prop :=
  ∀ n < (system.step s i).2.length, 0 ≤ i.env.send n

/-- The arrival with a PID in the lock file. -/
def Arrival.locked (i : Arrival) : Arrival := { i with env := { i.env with lockPid := true } }

/-- `kill_background` is called: with a PID in the lock file the BTS is killed. -/
def CallsKill (s : System) (i : Arrival) : Prop :=
  s.stop = none ∧ (s.effect i.locked).stop = some .killed

/-- A MSG_PING that finds a negative value in the local `rc`. -/
def StrayPing (s : System) (i : Arrival) : Prop :=
  s.stop = none ∧ i.frame.proto = protoSoftbts ∧
    (i.frame.message i.env i.sd (s.buffer i.sd)).cmd = msgPing ∧ i.env.rc < 0

theorem callsKill_iff {s : System} {i : Arrival} :
    CallsKill s i ↔ StrayPing s i ∨ (s.stop = none ∧ i.frame.proto = protoSoftbts ∧
      (i.frame.message i.env i.sd (s.buffer i.sd)).cmd = msgIdGet ∧ i.env.send 0 < 0) := by
  rw [CallsKill, System.effect, stop_effect_iff, StrayPing, ← and_or_left, ← and_or_left]
  refine and_congr_right fun _ => ?_
  rw [Frame.proto_message]
  exact and_iff_right rfl

/-- MSG_ID_GET makes a send. -/
theorem length_sent_idGet {env : Env} {sd : Link} {b : Bts} :
    0 < (Effect.softbts env sd msgIdGet b).sent.length := by
  rw [Effect.softbts, if_neg (by decide), if_pos rfl]
  split_ifs
  · exact Nat.succ_pos _
  · exact Nat.one_pos

theorem Healthy.callsKill_iff {s : System} {i : Arrival} (h : Healthy s i) :
    CallsKill s i ↔ StrayPing s i := by
  rw [SoftBts.callsKill_iff, or_iff_left]
  rintro ⟨hstop, hproto, hget, hfailed⟩
  have hsent : (system.step s i).2 =
      (Effect.softbts i.env i.sd msgIdGet s.bts).sent := by
    calc (system.step s i).2
      _ = (s.effect i).sent := (system_step_running hstop).2.2
      _ = _ := by
          rw [System.effect, Message.effect_softbts ((i.frame.proto_message _ _ _).trans hproto), hget]
          rfl
  have hone := h 0 (by rw [hsent]; exact length_sent_idGet)
  omega

/-- **A healthy link.** In every run of frames on any connections in which the sends succeed,
`kill_background` is never called, if and only if no MSG_PING in it finds a negative value in the
local `rc`. -/
theorem killBackground_never_iff (s : System) (is : List Arrival)
    (hhealthy : system.Meets Healthy s is) :
    system.Meets (fun s i => ¬ CallsKill s i) s is ↔
      system.Meets (fun s i => ¬ StrayPing s i) s is := by
  apply system.meets_congr_of (I := fun _ => True) (fun _ _ _ _ => trivial) ?_ trivial hhealthy
  intro s i _ h
  exact not_congr h.callsKill_iff

def pingFrame : Frame := ⟨protoSoftbts, [msgPing], by decide⟩

/-- A MSG_PING on the O&M link whose handling finds `rc` in the local. -/
def ping (rc : Int) : Arrival := ⟨{ Env.plain with rc := rc }, .oml, pingFrame⟩

theorem killBackground_never_zero :
    system.Meets (fun s i => ¬ CallsKill s i) System.init [ping 0] ↔
      system.Meets (fun s i => ¬ StrayPing s i) System.init [ping 0] :=
  killBackground_never_iff System.init [ping 0] ⟨fun _ _ => le_rfl, trivial⟩

/-- One MSG_PING on a link where every send succeeds. -/
theorem ping_kills :
    system.Meets Healthy System.init [ping (-1)] ∧
      ¬ system.Meets (fun s i => ¬ CallsKill s i) System.init [ping (-1)] :=
  ⟨⟨fun _ _ => le_rfl, trivial⟩, fun h => h.1 ⟨rfl, by decide⟩⟩

end SoftBts
