import Quadrupel.Panic
import Quadrupel.Thrust

/-!
# The termination sequence

A tick in `TERMINATE_MODE` starts a panic and sets `exit_in_safe_mode`, which stays set,
and the loop ends with the next tick in `SAFE_MODE`.

`exit_stopped` is about every run : the exit follows a tick in `TERMINATE_MODE`, it
finds the rotors stopped, and from such a tick, even in the middle of a ramp, half the
largest rotor speed and four ticks lead to it. A ramp that goes on has its setpoint at
zero or below some rotor (`RampHeld`), so it is as near to the end as a fresh one.

Before that tick the request is only in `current_mode`, which the timer block may
overwrite : `acknowledged_terminate_iff` says that it is lost exactly then.
-/

open Set

namespace Quadrupel

namespace Drone

/-! ## The two flags -/

/-- A tick in `TERMINATE_MODE` sets `exit_in_safe_mode`, a tick in `SAFE_MODE` that finds
it set ends the loop, and nothing clears either flag. -/
theorem controlTick_flags (sensors : Sensors) (d : Drone) :
    (d.controlTick sensors).1.exitInSafeMode =
        (d.exitInSafeMode || d.currentMode == ModeType.terminateMode.toByte) ∧
      (d.controlTick sensors).1.demoDone =
        (d.demoDone || (d.currentMode == ModeType.safeMode.toByte && d.exitInSafeMode)) := by
  simp only [controlTick, runFiltersAndControl, updateInState, updateMotors, modeCase]
  cases h : ModeType.ofByte? d.currentMode with
  | none =>
    have hne (m : ModeType) : (d.currentMode == m.toByte) = false := by
      refine beq_eq_false_iff_ne.2 fun heq => ?_
      simp [heq] at h
    simp [hne]
  | some m =>
    have hm := ModeType.ofByte?_eq_some.1 h
    have hbeq (t : ModeType) : (d.currentMode == t.toByte) = (m.toByte == t.toByte) := by
      rw [hm]
    rw [hbeq, hbeq]
    have hkept : d.exitInSafeMode = (d.exitInSafeMode || false) ∧
        d.demoDone = (d.demoDone || (false && d.exitInSafeMode)) := by simp
    cases m with
    | panicMode =>
      simp only [panicMode]
      split_ifs <;> exact hkept
    | calibrationMode =>
      simp only [calibrationMode]
      split_ifs <;> exact hkept
    | manualMode | yawControlMode | fullControlMode =>
      simp only [setRotors]
      split_ifs <;> exact hkept
    | rawMode =>
      simp only [rawMode, setRotors]
      split_ifs <;> exact hkept
    | heightControlMode | wirelessMode => exact hkept
    | safeMode => exact ⟨hkept.1, rfl⟩
    | terminateMode => exact ⟨(Bool.or_true _).symm, hkept.2⟩

/-- A control tick in `TERMINATE_MODE`. -/
def TerminateTick (d : Drone) : DroneEvent → Prop
  | .control _ => d.currentMode = ModeType.terminateMode
  | _ => False

/-- A control tick in `SAFE_MODE` that finds `exit_in_safe_mode` set. -/
def ExitTick (d : Drone) : DroneEvent → Prop
  | .control _ => d.currentMode = ModeType.safeMode ∧ d.exitInSafeMode = true
  | _ => False

theorem exitInSafeMode_next (d : Drone) (e : DroneEvent) :
    (droneLoop.next d e).exitInSafeMode = true ↔ d.exitInSafeMode = true ∨ d.TerminateTick e := by
  cases e with
  | control sensors => simp [droneLoop, (d.controlTick_flags sensors).1, TerminateTick]
  | message m now =>
    obtain ⟨_, _, _, _, _, _, _, _, h⟩ := d.acceptMessage_eq m now
    simp [droneLoop, h, TerminateTick]
  | timer batVolt now =>
    obtain ⟨_, _, _, h⟩ := d.checkTimer_eq batVolt now
    simp [droneLoop, h, TerminateTick]

theorem demoDone_next (d : Drone) (e : DroneEvent) :
    (droneLoop.next d e).demoDone = true ↔ d.demoDone = true ∨ d.ExitTick e := by
  cases e with
  | control sensors => simp [droneLoop, (d.controlTick_flags sensors).2, ExitTick]
  | message m now =>
    obtain ⟨_, _, _, _, _, _, _, _, h⟩ := d.acceptMessage_eq m now
    simp [droneLoop, h, ExitTick]
  | timer batVolt now =>
    obtain ⟨_, _, _, h⟩ := d.checkTimer_eq batVolt now
    simp [droneLoop, h, ExitTick]

/-- The exit is asked for before it is taken. -/
theorem happens_terminateTick (now : UInt32) {es : List DroneEvent}
    (h : (droneLoop.run (powerUp now) es).demoDone = true) :
    droneLoop.Happens TerminateTick (powerUp now) es := by
  have hasked : (droneLoop.run (powerUp now) es).exitInSafeMode = true := by
    have hstep (d : Drone) (e : DroneEvent)
        (hd : d.demoDone = true → d.exitInSafeMode = true) :
        (droneLoop.next d e).demoDone = true → (droneLoop.next d e).exitInSafeMode = true := by
      rw [demoDone_next, exitInSafeMode_next]
      rintro (hdone | hexit)
      · exact Or.inl (hd hdone)
      · cases e with
        | control sensors => exact Or.inl hexit.2
        | message | timer => exact hexit.elim
    have hstart : (powerUp now).demoDone = true → (powerUp now).exitInSafeMode = true :=
      fun h => h
    exact droneLoop.run_always hstep es hstart h
  have hnone : ¬(powerUp now).exitInSafeMode = true := Bool.false_ne_true
  exact (droneLoop.happens_of_run (fun d => d.exitInSafeMode = true)
    (fun d e => (d.exitInSafeMode_next e).1) hasked).resolve_left hnone

/-- The step that ends the loop stops the rotors. -/
theorem rotorsStopped_of_exit {d : Drone} {e : DroneEvent} (h : d.demoDone = false)
    (h' : (droneLoop.next d e).demoDone = true) : (droneLoop.next d e).RotorsStopped := by
  have hexit := ((d.demoDone_next e).1 h').resolve_left (by simp [h])
  cases e with
  | control sensors =>
    exact (rotorsStopped_controlTick_iff d sensors).2 (controlTick_safe hexit.1 sensors)
  | message | timer => exact hexit.elim

/-! ## The ramp on the way to the exit -/

/-- A panic that goes on has its setpoint at zero or above it, but not above all rotors. -/
structure RampHeld (d : Drone) : Prop where
  setpoint_nonneg : d.inPanicMode = true → 0 ≤ d.setpoint
  covered : d.panicRamp.Covered

theorem average_le (d : Drone) : ∃ i, d.average ≤ (d.ae i).toInt := by
  by_contra hnone
  simp only [not_exists, not_le] at hnone
  have hbelow (i : Fin 4) : (d.ae i).toInt ∈ Icc (-2 ^ 15) (d.average - 1) :=
    ⟨(toInt_mem_range _).1, Int.le_sub_one_of_lt (hnone i)⟩
  have havg := (average_mem hbelow).2
  omega

/-- A panic that is still to begin starts from the average. -/
theorem rampHeld_fresh {d : Drone} (h : d.inPanicMode = false) : d.RampHeld := by
  refine ⟨fun hin => absurd (h.symm.trans hin) Bool.false_ne_true, Or.inr ?_⟩
  obtain ⟨i, hi⟩ := d.average_le
  exact ⟨i, (panicSetpoint_first h).trans_le hi⟩

theorem RampHeld.panicSetpoint_mem {d : Drone} (h : d.RampHeld) :
    d.panicSetpoint ∈ SetpointRange := by
  cases hin : d.inPanicMode with
  | false =>
    rw [panicSetpoint_first hin]
    exact average_mem fun i => toInt_mem_range _
  | true =>
    have hset : d.panicSetpoint = d.setpoint := if_pos hin
    have hnonneg : 0 ≤ d.panicSetpoint := hset ▸ h.setpoint_nonneg hin
    refine ⟨le_trans (by norm_num) hnonneg, ?_⟩
    rcases h.covered with hzero | ⟨i, hi⟩
    · exact le_trans hzero (by norm_num)
    · exact le_trans hi (toInt_mem_range (d.ae i)).2

/-- A tick in `TERMINATE_MODE` starts a panic, or goes on with one that was given up. -/
theorem controlTick_terminate (sensors : Sensors) {d : Drone}
    (h : d.currentMode = ModeType.terminateMode) :
    (d.controlTick sensors).1.currentMode = ModeType.panicMode ∧
      (d.controlTick sensors).1.inPanicMode = d.inPanicMode ∧
      (d.controlTick sensors).1.panicRamp = d.panicRamp ∧
      (d.controlTick sensors).1.setpoint = d.setpoint := by
  have hcase : ({ d with sensors } : Drone).modeCase =
      (({ d with sensors } : Drone).terminateMode, []) := by
    simp only [modeCase, modeCase_of (d := { d with sensors }) h]
  have hin : (d.controlTick sensors).1.inPanicMode = d.inPanicMode := by
    simp only [controlTick, runFiltersAndControl, hcase, updateInState, updateMotors]
    exact Bool.and_true _
  refine ⟨?_, hin, ?_, ?_⟩
  · rw [controlTick_currentMode, hcase]
    rfl
  · simp only [panicRamp, panicSetpoint, average, hin, controlTick_ae, hcase]
    simp only [controlTick, runFiltersAndControl, hcase, updateInState, updateMotors]
    rfl
  · simp only [controlTick, runFiltersAndControl, hcase, updateInState, updateMotors]
    rfl

theorem currentMode_of_inPanicMode {sensors : Sensors} {d : Drone}
    (h : (d.controlTick sensors).1.inPanicMode = true) :
    (d.controlTick sensors).1.currentMode = ModeType.panicMode := by
  simp only [controlTick, runFiltersAndControl, updateInState, updateMotors, Bool.and_eq_true,
    beq_iff_eq] at h
  exact h.2

theorem RampHeld.controlTick {d : Drone} (h : d.RampHeld) (sensors : Sensors) :
    (d.controlTick sensors).1.RampHeld := by
  cases hin : (d.controlTick sensors).1.inPanicMode with
  | false => exact rampHeld_fresh hin
  | true =>
    have hpanic := currentMode_of_inPanicMode hin
    rcases controlTick_mode_cases sensors d with hsame | ⟨-, hsafe, -⟩ | ⟨hterm, -⟩
    · have hmode := hsame.symm.trans hpanic
      rcases (controlTick_panic sensors hmode h.panicSetpoint_mem).2 with hstop | ⟨-, hramp, -⟩
      · exact rampHeld_fresh hstop.panic
      · refine ⟨fun _ => ?_, hramp ▸ h.covered.tick (by decide)⟩
        have hset : (d.controlTick sensors).1.panicSetpoint =
            (d.controlTick sensors).1.setpoint := if_pos hin
        have hfall : (d.controlTick sensors).1.panicSetpoint =
            max 0 (d.panicSetpoint - panicModeStepSize) := congrArg Ramp.setpoint hramp
        rw [← hset, hfall]
        exact le_max_left _ _
    · exact absurd (hsafe.symm.trans hpanic) (by decide)
    · obtain ⟨-, hin', hramp, hset⟩ := controlTick_terminate sensors hterm
      exact ⟨fun hpanic => hset ▸ h.setpoint_nonneg (hin' ▸ hpanic), hramp ▸ h.covered⟩

theorem RampHeld.next {d : Drone} (h : d.RampHeld) (e : DroneEvent) :
    (droneLoop.next d e).RampHeld := by
  cases e with
  | control sensors => exact h.controlTick sensors
  | message m now =>
    obtain ⟨_, _, _, _, _, _, _, _, heq⟩ := d.acceptMessage_eq m now
    simp only [droneLoop, heq]
    exact ⟨h.setpoint_nonneg, h.covered⟩
  | timer batVolt now =>
    obtain ⟨_, _, _, heq⟩ := d.checkTimer_eq batVolt now
    simp only [droneLoop, heq]
    exact ⟨h.setpoint_nonneg, h.covered⟩

/-- A ramp that goes on is within half the largest rotor speed of the end. -/
theorem RampHeld.within {d : Drone} (h : d.RampHeld) (hin : d.inPanicMode = true) :
    d.panicRamp.Within panicModeStepSize ((d.peak + 1) / 2) := by
  have hstep : panicModeStepSize = 2 := rfl
  have hset : d.panicRamp.setpoint = d.setpoint := if_pos hin
  refine ⟨hset ▸ h.setpoint_nonneg hin, ?_, fun i => ?_⟩
  · rcases h.covered with hzero | ⟨i, hi⟩
    · exact hzero.trans (mul_nonneg (Nat.cast_nonneg _) (by decide))
    · have hpeak := (d.level_mem_peak i).2
      have hlevel : d.panicRamp.level i = (d.ae i).toInt := rfl
      rw [hstep]
      push_cast
      omega
  · have hpeak := d.level_mem_peak i
    change (d.ae i).toInt ∈ _
    rw [hstep]
    simp only [mem_Icc] at hpeak ⊢
    push_cast
    constructor <;> omega

/-- Half the largest rotor speed and two ticks are enough for any ramp. -/
theorem RampHeld.exists_ramp {d : Drone} (h : d.RampHeld)
    (hmode : d.currentMode = ModeType.panicMode) {ss : List Sensors}
    (hss : (d.peak + 1) / 2 + 2 ≤ ss.length) :
    ∃ ramp rest, ss = ramp ++ rest ∧ ramp.length ≤ (d.peak + 1) / 2 + 2 ∧
      controlLoop.Along PanicTick d ramp ∧ (controlLoop.run d ramp).Stopped := by
  have hset := h.panicSetpoint_mem
  cases hin : d.inPanicMode with
  | true =>
    obtain ⟨ramp, rest, rfl, hlen, halong, hstop⟩ :=
      exists_ramp_of_within _ hmode hset (h.within hin) (Nat.le_of_succ_le hss)
    exact ⟨ramp, rest, rfl, Nat.le_succ_of_le hlen, halong, hstop⟩
  | false =>
    cases ss with
    | nil => simp at hss
    | cons s ss =>
      exact exists_ramp_cons hmode hset fun hmode' hramp =>
        exists_ramp_of_within _ hmode' (panicSetpoint_tick_mem hset hramp)
          (within_of_first_tick hin hramp) (Nat.le_of_succ_le_succ hss)

/-- In every run the loop ends only after a tick in `TERMINATE_MODE`, on a step that stops
the rotors. From any state of a run, a tick in `TERMINATE_MODE` followed by nothing but
ticks leads through a panic, none of whose ticks moves a rotor by more than 2, to
`SAFE_MODE` and with the next tick to the end. -/
theorem exit_stopped (now : UInt32) (es : List DroneEvent) :
    let d := droneLoop.run (powerUp now) es
    (d.demoDone = true → droneLoop.Happens TerminateTick (powerUp now) es) ∧
      (∀ e, d.demoDone = false → (droneLoop.next d e).demoDone = true →
        (droneLoop.next d e).RotorsStopped) ∧
      ∀ sensors ss, d.currentMode = ModeType.terminateMode → (d.peak + 1) / 2 + 3 ≤ ss.length →
        let d' := (d.controlTick sensors).1
        d'.currentMode = ModeType.panicMode ∧
        ∃ ramp s rest, ss = ramp ++ s :: rest ∧ 1 + ramp.length + 1 ≤ (d.peak + 1) / 2 + 4 ∧
          controlLoop.Along (fun d s => d.currentMode = ModeType.panicMode ∧
            ∀ i, |((d.controlTick s).1.ae i).toInt - (d.ae i).toInt| ≤ 2) d' ramp ∧
          (controlLoop.run d' ramp).currentMode = ModeType.safeMode ∧
          (controlLoop.run d' (ramp ++ [s])).demoDone = true := by
  intro d
  refine ⟨fun h => happens_terminateTick now h, fun e => rotorsStopped_of_exit, ?_⟩
  intro sensors ss hterm hss d'
  have hheld : d.RampHeld :=
    droneLoop.run_always (fun _ e h => h.next e) es (rampHeld_fresh rfl)
  obtain ⟨hmode, -, hramp, -⟩ := controlTick_terminate sensors hterm
  have hpeak : d'.peak = d.peak := by
    have hlevel := congrArg Ramp.level hramp
    exact congrArg (fun level : Fin 4 → ℤ => Finset.univ.sup fun i => (level i).natAbs) hlevel
  have henough : (d'.peak + 1) / 2 + 2 ≤ ss.length := by
    rw [hpeak]
    omega
  obtain ⟨ramp, rest, rfl, hlen, halong, hstop⟩ :=
    (hheld.controlTick sensors).exists_ramp hmode henough
  have hshort : ramp.length ≤ (d.peak + 1) / 2 + 2 := hpeak ▸ hlen
  cases rest with
  | nil =>
    rw [List.append_nil] at hss
    omega
  | cons s rest =>
    refine ⟨hmode, ramp, s, rest, rfl, by omega, halong, hstop.mode, ?_⟩
    -- the flag set by the tick in `TERMINATE_MODE` is still there
    have hasked : (controlLoop.run d' ramp).exitInSafeMode = true := by
      have hkept (d : Drone) (s : Sensors) (h : d.exitInSafeMode = true) :
          (controlLoop.next d s).exitInSafeMode = true :=
        (d.exitInSafeMode_next (.control s)).2 (Or.inl h)
      exact controlLoop.run_always hkept ramp
        ((d.exitInSafeMode_next (.control sensors)).2 (Or.inr hterm))
    rw [Machine.run_append]
    exact ((controlLoop.run d' ramp).demoDone_next (.control s)).2 (Or.inr ⟨hstop.mode, hasked⟩)

end Drone

/-! ## The request before its tick -/

namespace DroneMain

/-- The block is no control tick and accepts no `SET_MODE`. -/
def Waits (s : DroneMain) (e : MainEvent) : Prop :=
  match e.block with
  | .control _ => False
  | .char c => (parseMessage c s.parser).1 > 0 →
      (parseMessage c s.parser).2.buffer.messageType ≠ MsgType.setMode.toByte
  | .timer _ => True

/-- The block is a timer tick that starts a panic. -/
def Overrides (s : DroneMain) (e : MainEvent) : Prop :=
  match e.block with
  | .timer batVolt => s.drone.Failsafe batVolt (getTimeUs (s.time + e.wait))
  | _ => False

instance (s : DroneMain) (e : MainEvent) : Decidable (s.Overrides e) :=
  match e with
  | ⟨wait, .timer batVolt⟩ =>
    inferInstanceAs (Decidable (s.drone.Failsafe batVolt (getTimeUs (s.time + wait))))
  | ⟨_, .control _⟩ | ⟨_, .char _⟩ => inferInstanceAs (Decidable False)

/-- The tick after `mid` runs the `TERMINATE_MODE` case, and then the loop ends with the
next tick in `SAFE_MODE`. -/
def TerminateRuns (s : DroneMain) (mid : List MainEvent) : Prop :=
  let t := droneMain.run s mid
  t.drone.currentMode = ModeType.terminateMode ∧ ∀ wait sensors,
    let t' := droneMain.next t ⟨wait, .control sensors⟩
    t'.drone.exitInSafeMode = true ∧ ∀ post wait sensors,
      (droneMain.run t' post).drone.currentMode = ModeType.safeMode →
        (droneMain.next (droneMain.run t' post) ⟨wait, .control sensors⟩).drone.demoDone = true

/-- A block that waits keeps the mode, unless it overrides it. -/
theorem next_of_waits {s : DroneMain} {e : MainEvent} (h : s.Waits e) :
    (droneMain.next s e).drone.currentMode =
      if s.Overrides e then ModeType.panicMode.toByte else s.drone.currentMode := by
  obtain ⟨wait, block⟩ := e
  cases block with
  | control sensors => exact h.elim
  | timer batVolt => exact Drone.checkTimer_currentMode _ _ _
  | char c =>
    have hno : ¬s.Overrides ⟨wait, .char c⟩ := id
    rw [if_neg hno]
    simp only [droneMain, runBlock]
    split_ifs with haccept
    · have hnone : (parseMessage c s.parser).2.buffer.storedMode = none :=
        if_neg fun hset => h haccept hset.1
      refine (Drone.acceptMessage_currentMode _ _ _).trans ?_
      exact congrArg (Option.getD · s.drone.currentMode) hnone
    · rfl

/-- While nothing overrides it, and only then, a mode other than `PANIC_MODE` stays. -/
theorem currentMode_run_iff {s : DroneMain} {mid : List MainEvent}
    (h : droneMain.Along Waits s mid) {mode : UInt8} (hmode : s.drone.currentMode = mode)
    (hne : mode ≠ ModeType.panicMode) :
    (droneMain.run s mid).drone.currentMode = mode ↔
      droneMain.Along (fun s e => ¬s.Overrides e) s mid := by
  induction mid generalizing s with
  | nil => exact iff_of_true hmode trivial
  | cons e mid ih =>
    have hnext := next_of_waits h.1
    by_cases hover : s.Overrides e
    · rw [if_pos hover] at hnext
      refine iff_of_false (fun hkept => ?_) fun halong => halong.1 hover
      have hpanic : (droneMain.run (droneMain.next s e) mid).drone.currentMode =
          ModeType.panicMode := by
        have hstep (s : DroneMain) (e : MainEvent)
            (hs : s.drone.currentMode = ModeType.panicMode) (he : s.Waits e) :
            (droneMain.next s e).drone.currentMode = ModeType.panicMode := by
          rw [next_of_waits he, hs, ite_self]
        exact droneMain.run_invariant hstep hnext h.2
      exact hne (hkept.symm.trans hpanic)
    · rw [if_neg hover] at hnext
      rw [Machine.run_cons, ih h.2 (hnext.trans hmode), Machine.along_cons, and_iff_right hover]

/-- The drone goes to the mode that it confirms, if that is one that it stores. -/
theorem currentMode_of_confirmed {s : DroneMain} {e : MainEvent} {mode : UInt8}
    (h : Msg.modeUpdate mode ∈ droneMain.out s e) (hmode : mode < 0x0F) :
    (droneMain.next s e).drone.currentMode = mode := by
  obtain ⟨wait, block⟩ := e
  cases block with
  | control sensors =>
    have hupdate : mode ∈ (s.drone.controlTick sensors).2.filterMap Msg.update? :=
      List.mem_filterMap.2 ⟨_, h, rfl⟩
    rw [Drone.controlTick_replies] at hupdate
    cases hupdate
  | timer batVolt => cases h
  | char c =>
    simp only [droneMain, runBlock] at h ⊢
    split_ifs at h ⊢ with haccept
    · obtain ⟨htype, hdata⟩ := Drone.handleMessage_confirms h
      refine (Drone.acceptMessage_currentMode _ _ _).trans ?_
      rw [Message.storedMode, if_pos ⟨htype, hdata ▸ hmode⟩, hdata]
      rfl
    · cases h

theorem exitInSafeMode_run {s : DroneMain} (h : s.drone.exitInSafeMode = true)
    (es : List MainEvent) : (droneMain.run s es).drone.exitInSafeMode = true := by
  rw [run_droneMain]
  exact droneLoop.run_always (fun d e h => (d.exitInSafeMode_next e).2 (Or.inl h)) _ h

/-- When the drone has confirmed `TERMINATE_MODE` and accepts no further `SET_MODE`, the
next control tick runs the `TERMINATE_MODE` case iff no timer tick in between starts a
panic. -/
theorem acknowledged_terminate_iff (boot : ℕ) (pre : List MainEvent) (e : MainEvent)
    (mid : List MainEvent)
    (hack : Msg.modeUpdate ModeType.terminateMode ∈
      droneMain.out (droneMain.run (start boot) pre) e)
    (hmid : droneMain.Along Waits (droneMain.run (start boot) (pre ++ [e])) mid) :
    TerminateRuns (droneMain.run (start boot) (pre ++ [e])) mid ↔
      droneMain.Along (fun s e => ¬s.Overrides e)
        (droneMain.run (start boot) (pre ++ [e])) mid := by
  have hterm : (droneMain.run (start boot) (pre ++ [e])).drone.currentMode =
      ModeType.terminateMode := by
    rw [Machine.run_append]
    exact currentMode_of_confirmed hack (by decide)
  have hiff := currentMode_run_iff hmid hterm (by decide)
  refine ⟨fun h => hiff.1 h.1, fun h => ⟨hiff.2 h, fun wait sensors => ?_⟩⟩
  set t := droneMain.run (droneMain.run (start boot) (pre ++ [e])) mid
  have hasked : (droneMain.next t ⟨wait, .control sensors⟩).drone.exitInSafeMode = true :=
    (t.drone.exitInSafeMode_next (.control sensors)).2 (Or.inr (hiff.2 h))
  refine ⟨hasked, fun post wait' sensors' hsafe => ?_⟩
  set u := droneMain.run (droneMain.next t ⟨wait, .control sensors⟩) post
  exact (u.drone.demoDone_next (.control sensors')).2
    (Or.inr ⟨hsafe, exitInSafeMode_run hasked post⟩)

/-- The frame of a request for `TERMINATE_MODE`, byte by byte. -/
def terminateFrame : List MainEvent :=
  [0x12, 0x01, 0x5D, 0x63, 0x09, 0x13].map fun c => ⟨0, .char c⟩

/-- A timer tick that finds the battery full lets the tick run the case. -/
theorem acknowledged_terminate_full :
    TerminateRuns (droneMain.run (start 0) terminateFrame) [⟨10, .timer 1200⟩] :=
  (acknowledged_terminate_iff 0 terminateFrame.dropLast ⟨0, .char endByte⟩ [⟨10, .timer 1200⟩]
    (by decide +kernel) ⟨trivial, trivial⟩).2 (by decide +kernel)

/-- A confirmed request for `TERMINATE_MODE` is ticked in every run, whatever the battery reads. -/
def AcknowledgedTerminateKept : Prop :=
  ∀ (boot : ℕ) (pre : List MainEvent) (e : MainEvent) (mid : List MainEvent),
    Msg.modeUpdate ModeType.terminateMode ∈ droneMain.out (droneMain.run (start boot) pre) e →
    droneMain.Along Waits (droneMain.run (start boot) (pre ++ [e])) mid →
    TerminateRuns (droneMain.run (start boot) (pre ++ [e])) mid

/-- The timer tick of the iteration that confirms the request finds the battery low. -/
theorem not_acknowledgedTerminateKept : ¬AcknowledgedTerminateKept := by
  intro h
  let pre : List MainEvent := terminateFrame.dropLast
  let low : MainEvent := ⟨0, .timer 900⟩
  have hack : Msg.modeUpdate ModeType.terminateMode ∈
      droneMain.out (droneMain.run (start 0) pre) ⟨0, .char endByte⟩ := by decide +kernel
  have hruns := h 0 pre ⟨0, .char endByte⟩ [low] hack ⟨trivial, trivial⟩
  have hpanic : (droneMain.run (droneMain.run (start 0) (pre ++ [⟨0, .char endByte⟩]))
      [low]).drone.currentMode = ModeType.panicMode := by decide +kernel
  exact absurd (hpanic.symm.trans hruns.1) (by decide)

end DroneMain

end Quadrupel
