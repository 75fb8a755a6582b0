import Quadrupel.DroneMain

/-!
# The link-loss failsafe

The timer block compares `get_time_us` with its value when the last message was
accepted. Both are times modulo 2^32, and so is their difference (`Clocked`,
`timeout_iff`) : the block starts a panic iff the time since then, modulo 2^32, exceeds
one second. From there only an accepted message leads out of `PANIC_MODE` and
`SAFE_MODE` (`Down.next`), so `link_loss` holds for a silence of any length once one
timer tick has seen it. A first tick that comes 2^32 µs late does not see it
(`not_linkLossFailsafe`).
-/

namespace Quadrupel

namespace DroneMain

/-- The time since the last message was accepted. -/
def elapsed (s : DroneMain) : ℕ :=
  s.time - s.acceptedAt

/-- The drone knows, modulo 2^32, when the last message was accepted. -/
structure Clocked (s : DroneMain) : Prop where
  acceptedAt_le : s.acceptedAt ≤ s.time
  timeLastMsg : s.drone.timeLastMsg = getTimeUs s.acceptedAt

/-- The block accepts no message. -/
def Silent (s : DroneMain) (e : MainEvent) : Prop :=
  (s.waited e.wait).accepted e.block = 0

/-- The drone is in `PANIC_MODE` or `SAFE_MODE`. -/
def Down (s : DroneMain) : Prop :=
  s.drone.currentMode = ModeType.panicMode ∨ s.drone.currentMode = ModeType.safeMode

theorem clocked_start (boot : ℕ) : (start boot).Clocked :=
  ⟨Nat.le_refl boot, rfl⟩

theorem Clocked.next {s : DroneMain} (h : s.Clocked) (e : MainEvent) :
    (droneMain.next s e).Clocked := by
  obtain ⟨hle, htime⟩ := h
  obtain ⟨wait, block⟩ := e
  have hwait : s.acceptedAt ≤ s.time + wait := Nat.le_add_right_of_le hle
  cases block with
  | control sensors => exact ⟨hwait, (Drone.controlTick_timeLastMsg sensors s.drone).trans htime⟩
  | timer batVolt => exact ⟨hwait, (Drone.checkTimer_timeLastMsg batVolt _ s.drone).trans htime⟩
  | char c =>
    simp only [droneMain, runBlock]
    split_ifs
    · exact ⟨Nat.le_refl _, rfl⟩
    · exact ⟨hwait, htime⟩

/-- The comparison of the timer block, in real time. -/
theorem timeout_iff {s : DroneMain} (h : s.Clocked) :
    getTimeUs s.time - s.drone.timeLastMsg > 1000000 ↔ s.elapsed % 2 ^ 32 > 1000000 := by
  rw [h.timeLastMsg, getTimeUs, getTimeUs, ← UInt32.ofNat_sub h.acceptedAt_le, gt_iff_lt,
    UInt32.lt_iff_toNat_lt, UInt32.toNat_ofNat']
  rfl

theorem Clocked.waited {s : DroneMain} (h : s.Clocked) (wait : ℕ) : (s.waited wait).Clocked :=
  ⟨Nat.le_add_right_of_le h.acceptedAt_le, h.timeLastMsg⟩

/-- A timer tick checks the battery, and starts a panic if the time has run out. -/
theorem next_timer {s : DroneMain} (h : s.Clocked) (wait : ℕ) (batVolt : UInt16) :
    (droneMain.next s ⟨wait, .timer batVolt⟩).drone =
      if (s.waited wait).elapsed % 2 ^ 32 > 1000000 then
        { s.drone.checkBatVolt batVolt with currentMode := ModeType.panicMode }
      else s.drone.checkBatVolt batVolt := by
  have hiff := timeout_iff (h.waited wait)
  simp only [droneMain, runBlock, Drone.checkTimer, Drone.checkMsgTimeout,
    Drone.checkBatVolt_timeLastMsg, hiff]
  rfl

/-- Without a message the drone stays down. -/
theorem Down.next {s : DroneMain} (h : s.Down) {e : MainEvent} (he : s.Silent e) :
    (droneMain.next s e).Down := by
  obtain ⟨wait, block⟩ := e
  cases block with
  | control sensors =>
    rcases Drone.controlTick_mode_cases sensors s.drone with hsame | ⟨-, hsafe, -⟩ | ⟨hterm, -⟩
    · exact h.imp hsame.trans hsame.trans
    · exact Or.inr hsafe
    · have hne : ¬(ModeType.terminateMode.toByte = ModeType.panicMode.toByte ∨
          ModeType.terminateMode.toByte = ModeType.safeMode.toByte) := by decide
      rw [Down, hterm] at h
      exact absurd h hne
  | timer batVolt =>
    rcases s.drone.checkTimer_mode_cases batVolt (getTimeUs (s.time + wait)) with hsame | hpanic
    · exact h.imp hsame.trans hsame.trans
    · exact Or.inl hpanic
  | char c =>
    have hzero : ¬(parseMessage c (s.waited wait).parser).1 > 0 := Nat.not_lt.2 (Nat.le_of_eq he)
    simp only [droneMain, runBlock]
    rw [if_neg hzero]
    exact h

/-- From a timer tick at which the time since the last accepted message, modulo 2^32 µs,
exceeds one second, the drone stays in `PANIC_MODE` or `SAFE_MODE` until the next message
is accepted. At a tick within one second the timer block only checks the battery. -/
theorem link_loss (boot : ℕ) (pre : List MainEvent) (wait : ℕ) (batVolt : UInt16) :
    let s := droneMain.run (start boot) pre
    let s' := droneMain.next s ⟨wait, .timer batVolt⟩
    ((s.waited wait).elapsed % 2 ^ 32 > 1000000 →
        ∀ post, droneMain.Along Silent s' post → (droneMain.run s' post).Down) ∧
      ((s.waited wait).elapsed ≤ 1000000 → s'.drone = s.drone.checkBatVolt batVolt) := by
  intro s s'
  have hclocked : s.Clocked :=
    droneMain.run_always (fun _ e h => h.next e) pre (clocked_start boot)
  have htimer := next_timer hclocked wait batVolt
  constructor
  · intro hlong post hpost
    rw [if_pos hlong] at htimer
    have hdown : s'.Down := Or.inl (congrArg Drone.currentMode htimer)
    exact droneMain.run_invariant (fun _ _ h => h.next) hdown hpost
  · intro hshort
    have hmod := Nat.mod_le (s.waited wait).elapsed (2 ^ 32)
    rw [if_neg (by omega)] at htimer
    exact htimer

/-- The same for the time itself. -/
def LinkLossFailsafe : Prop :=
  ∀ (boot : ℕ) (pre : List MainEvent) (wait : ℕ) (batVolt : UInt16),
    let s := droneMain.run (start boot) pre
    let s' := droneMain.next s ⟨wait, .timer batVolt⟩
    ((s.waited wait).elapsed > 1000000 →
        ∀ post, droneMain.Along Silent s' post → (droneMain.run s' post).Down) ∧
      ((s.waited wait).elapsed ≤ 1000000 → s'.drone = s.drone.checkBatVolt batVolt)

/-- After a request for `MANUAL_MODE` the first timer tick comes 2^32 + 10 µs later and
finds the clock where it was. -/
theorem not_linkLossFailsafe : ¬LinkLossFailsafe := by
  intro h
  let frame : List MainEvent :=
    [0x12, 0x01, 0x36, 0xD2, 0x02, 0x13].map fun c => ⟨0, .char c⟩
  let s := droneMain.run (start 0) frame
  have hlong : (s.waited (2 ^ 32 + 10)).elapsed > 1000000 := by decide +kernel
  have hdown := (h 0 frame (2 ^ 32 + 10) 1200).1 hlong [] trivial
  have hup : ¬((droneMain.next s ⟨2 ^ 32 + 10, .timer 1200⟩).drone.currentMode =
      ModeType.panicMode ∨ (droneMain.next s ⟨2 ^ 32 + 10, .timer 1200⟩).drone.currentMode =
      ModeType.safeMode) := by decide +kernel
  exact hup hdown

end DroneMain

end Quadrupel
