import Quadrupel.Protocol

/-!
# The control loop of the drone

`control.c` : `update_motors` and `run_filters_and_control` on the globals of the drone.
The `else` branch of the `MANUAL_MODE` case is read as closed after its bounds check.

An `int` is an integer and an `int16_t` an `Int16`; a value that is stored in an
`int16_t` wraps (`Int16.ofInt`), and the `int` sums of the `RAW_MODE` filter, which
nothing bounds, wrap where they are stored or divided (`i32`), as on the target. The
`printf` calls and the flash log are left out : they read the globals and write none
of them.

`controlTick_mode_cases` says what a tick does to the mode, `controlTick_motor` that the
motors follow the rotor speeds, and `controlTick_calibration` when a tick stores and sends
the offsets.
-/

namespace Quadrupel

/-- `MAX_RPM`. -/
def maxRpm : Int16 :=
  762

/-- `MIN_RPM`. -/
def minRpm : Int16 :=
  254

/-- `TIMER_PERIOD`, in ms. -/
def timerPeriod : ℤ :=
  50

/-- `PANIC_MODE_STEP_SIZE`. -/
def panicModeStepSize : ℤ :=
  timerPeriod / 24

/-- `CAP_VALUE_YAW`. -/
def capValueYaw : ℤ :=
  3000

/-- A 32-bit `int`, in two's complement. -/
def i32 (x : ℤ) : ℤ :=
  x.bmod (2 ^ 32)

/-- The variables of the `RAW_MODE` filter. -/
structure Kalman where
  pitch : ℤ
  phiKalman : ℤ
  pitchBias : ℤ
  roll : ℤ
  thetaKalman : ℤ
  rollBias : ℤ
deriving DecidableEq, Repr

/-- The globals and statics of the drone, and the variables of its `main`. -/
structure Drone where
  currentMode : UInt8
  pYawControl : Int8
  p1 : Int8
  p2 : Int8
  motor : Fin 4 → Int16
  ae : Fin 4 → Int16
  liftdata : Int8
  rolldata : Int8
  pitchdata : Int8
  yawdata : Int8
  sensors : Sensors
  cal : Sensors
  kalman : Kalman
  inPanicMode : Bool
  inCalibrationMode : Bool
  exitInSafeMode : Bool
  setpoint : ℤ
  demoDone : Bool
  counter : UInt32
  batVoltCounter : UInt32
  timeLastMsg : UInt32

namespace Drone

/-- The drone when `main` enters its loop at the time `now`. -/
def powerUp (now : UInt32) : Drone where
  currentMode := 0
  pYawControl := 0
  p1 := 0
  p2 := 0
  motor _ := 0
  ae _ := 0
  liftdata := 0
  rolldata := 0
  pitchdata := 0
  yawdata := 0
  sensors := .zero
  cal := .zero
  kalman := ⟨0, 0, 0, 0, 0, 0⟩
  inPanicMode := false
  inCalibrationMode := false
  exitInSafeMode := false
  setpoint := 0
  demoDone := false
  counter := 0
  batVoltCounter := 0
  timeLastMsg := now

/-- `update_motors`. -/
def updateMotors (d : Drone) : Drone :=
  { d with motor := fun i => min (d.ae i) 1000 }

/-- The `SAFE_MODE` case. -/
def safeMode (d : Drone) : Drone :=
  { d with ae := fun _ => 0, demoDone := d.demoDone || d.exitInSafeMode }

/-- One round of the loop over the rotors in the `PANIC_MODE` case. -/
def panicStep (setpoint : ℤ) (a : Int16) : Int16 :=
  if a.toInt < setpoint then Int16.ofInt (a.toInt + min (setpoint - a.toInt) panicModeStepSize)
  else if a.toInt > setpoint then
    Int16.ofInt (a.toInt - min (a.toInt - setpoint) panicModeStepSize)
  else a

/-- The average of the rotors. -/
def average (d : Drone) : ℤ :=
  ((d.ae 0).toInt + (d.ae 1).toInt + (d.ae 2).toInt + (d.ae 3).toInt) >>> (2 : ℕ)

/-- The setpoint of a tick in `PANIC_MODE` : on its first tick the average of the rotors. -/
def panicSetpoint (d : Drone) : ℤ :=
  if d.inPanicMode then d.setpoint else d.average

/-- The `PANIC_MODE` case. -/
def panicMode (d : Drone) : Drone :=
  let setpoint := d.panicSetpoint
  let d := { d with
    ae := fun i => panicStep setpoint (d.ae i)
    setpoint := max 0 (setpoint - panicModeStepSize)
    inPanicMode := true }
  if ∀ i, d.ae i = 0 then { d with inPanicMode := false, currentMode := ModeType.safeMode }
  else d

/-- The bounds check that ends a control law. -/
def boundRpm (a : Int16) : Int16 :=
  if a < minRpm then minRpm else if a > maxRpm then maxRpm else a

/-- A control law : zero when the lift stick is down, else the given speeds, checked by
`check`. -/
def setRotors (d : Drone) (check : Int16 → Int16) (speed : Fin 4 → ℤ) : Drone :=
  if d.liftdata = -127 then { d with ae := fun _ => 0 }
  else { d with ae := fun i => check (Int16.ofInt (speed i)) }

/-- The speeds that the `MANUAL_MODE` case assigns. -/
def manualSpeed (d : Drone) : Fin 4 → ℤ :=
  let lift := d.liftdata.toInt
  let roll := d.rolldata.toInt
  let pitch := d.pitchdata.toInt
  let yaw := d.yawdata.toInt
  ![(lift + pitch - yaw + 127 * 2 * 2 / 3) * 2,
    (lift - roll + yaw + 127 * 2 * 2 / 3) * 2,
    (lift - pitch - yaw + 127 * 2 * 2 / 3) * 2,
    (lift + roll + yaw + 127 * 2 * 2 / 3) * 2]

/-- The yaw rate after calibration, capped. -/
def realSr (d : Drone) : ℤ :=
  let realSr := d.sensors.sr.toInt - d.cal.sr.toInt
  if realSr > capValueYaw then capValueYaw else if realSr < -capValueYaw then -capValueYaw
  else realSr

/-- `lift_setpoint`. -/
def liftSetpoint (d : Drone) : ℤ :=
  (d.liftdata.toInt + 127 * 2 * 2 / 3) * 2

/-- `Eps`, scaled. -/
def eps (d : Drone) : ℤ :=
  let yaw := d.yawdata.toInt
  (((yaw <<< (4 : ℕ)) + (yaw <<< (2 : ℕ))) - d.realSr) >>> (8 : ℕ)

/-- The speeds that the `YAW_CONTROL_MODE` case assigns. -/
def yawControlSpeed (d : Drone) : Fin 4 → ℤ :=
  let p := d.pYawControl.toInt
  ![d.liftSetpoint + p * d.eps,
    d.liftSetpoint - p * d.eps,
    d.liftSetpoint + p * d.eps,
    d.liftSetpoint - p * d.eps]

/-- The speeds that the `FULL_CONTROL_MODE` case assigns. -/
def fullControlSpeed (d : Drone) : Fin 4 → ℤ :=
  let realSax := d.sensors.sax.toInt - d.cal.sax.toInt
  let realSay := d.sensors.say.toInt - d.cal.say.toInt
  let realSp := d.sensors.sp.toInt - d.cal.sp.toInt
  let realSq := d.sensors.sq.toInt - d.cal.sq.toInt
  let roll := d.rolldata.toInt
  let pitch := d.pitchdata.toInt
  let rollS := (roll <<< (5 : ℕ)) + (roll <<< (4 : ℕ)) + (roll <<< (1 : ℕ))
  let pitchS := (pitch <<< (5 : ℕ)) + (pitch <<< (4 : ℕ)) + (pitch <<< (1 : ℕ))
  let kSPitch := (d.p1.toInt * ((pitchS + realSax) >>> (1 : ℕ)) - d.p2.toInt * realSq) >>> (9 : ℕ)
  let kSRoll := (d.p1.toInt * ((rollS - realSay) >>> (1 : ℕ)) - d.p2.toInt * realSp) >>> (9 : ℕ)
  let p := d.pYawControl.toInt
  ![d.liftSetpoint - kSPitch + p * d.eps,
    d.liftSetpoint - kSRoll - p * d.eps,
    d.liftSetpoint + kSPitch + p * d.eps,
    d.liftSetpoint + kSRoll - p * d.eps]

/-- The filter of the `RAW_MODE` case. `C1_p`, `C2_p`, `P2PHI` and their twins for the
roll are never assigned. -/
def rawFilter (d : Drone) : Kalman :=
  let spSmall := d.sensors.sp.toInt.tdiv 32
  let saySmall := d.sensors.say.toInt.tdiv 32
  let k := d.kalman
  let pitch := i32 (spSmall - k.pitchBias)
  let phiKalman := i32 (k.phiKalman + pitch * 268)
  let phiKalman := i32 (phiKalman - (i32 (phiKalman - saySmall)).tdiv 1000)
  let pitchBias := i32 (k.pitchBias + ((i32 (phiKalman - saySmall)).tdiv 268).tdiv 1000000)
  let roll := i32 (d.sensors.sq.toInt - k.rollBias)
  let thetaKalman := i32 (k.thetaKalman + roll * 268)
  let thetaKalman := i32 (thetaKalman - (i32 (thetaKalman - d.sensors.sax.toInt)).tdiv 1000)
  let rollBias :=
    i32 (k.rollBias + ((i32 (thetaKalman - d.sensors.sax.toInt)).tdiv 268).tdiv 1000000)
  ⟨pitch, phiKalman, pitchBias, roll, thetaKalman, rollBias⟩

/-- The speeds that the `RAW_MODE` case assigns, from the filtered values. -/
def rawSpeed (d : Drone) (k : Kalman) : Fin 4 → ℤ :=
  let rollSetpoint := (d.rolldata.toInt + 127 * 2) * 2
  let pitchSetpoint := (d.pitchdata.toInt + 127 * 2) * 2
  let kSP := (i32 (d.p1.toInt * (rollSetpoint - k.phiKalman) - d.p2.toInt * k.pitch)).tdiv 50000
  let kST :=
    (i32 (d.p1.toInt * (pitchSetpoint - k.thetaKalman) - d.p2.toInt * k.roll)).tdiv 50000
  ![d.liftSetpoint + kSP, d.liftSetpoint - kST, d.liftSetpoint - kSP, d.liftSetpoint + kST]

/-- The `RAW_MODE` case, which checks no bounds and leaves the filter alone when the lift
stick is down. -/
def rawMode (d : Drone) : Drone :=
  let k := d.rawFilter
  { d.setRotors id (d.rawSpeed k) with kalman := if d.liftdata = -127 then d.kalman else k }

/-- The `CALIBRATION_MODE` case. -/
def calibrationMode (d : Drone) : Drone × List Msg :=
  if d.inCalibrationMode then (d, [])
  else ({ d with cal := d.sensors, inCalibrationMode := true }, [.calibrationData d.sensors])

/-- The `TERMINATE_MODE` case. -/
def terminateMode (d : Drone) : Drone :=
  { d with currentMode := ModeType.panicMode, exitInSafeMode := true }

/-- The switch of `run_filters_and_control`, with the messages that it sends. -/
def modeCase (d : Drone) : Drone × List Msg :=
  match ModeType.ofByte? d.currentMode with
  | some .safeMode => (d.safeMode, [])
  | some .panicMode => (d.panicMode, [])
  | some .manualMode => (d.setRotors boundRpm d.manualSpeed, [])
  | some .calibrationMode => d.calibrationMode
  | some .yawControlMode => (d.setRotors boundRpm d.yawControlSpeed, [])
  | some .fullControlMode => (d.setRotors boundRpm d.fullControlSpeed, [])
  | some .rawMode => (d.rawMode, [])
  | some .heightControlMode => (d, [])
  | some .wirelessMode => (d, [])
  | some .terminateMode => (d.terminateMode, [])
  | none => (d, [])

/-- The update of the in-state booleans after the switch. -/
def updateInState (d : Drone) : Drone :=
  { d with
    inPanicMode := d.inPanicMode && d.currentMode == ModeType.panicMode
    inCalibrationMode := d.inCalibrationMode && d.currentMode == ModeType.calibrationMode }

/-- `run_filters_and_control`, with the messages that it sends. -/
def runFiltersAndControl (d : Drone) : Drone × List Msg :=
  (d.modeCase.1.updateInState.updateMotors, d.modeCase.2)

/-- A tick of the main loop : the sensors are read, then the control runs. -/
def controlTick (sensors : Sensors) (d : Drone) : Drone × List Msg :=
  { d with sensors }.runFiltersAndControl

/-! ## What a tick does -/

theorem modeCase_of {d : Drone} {m : ModeType} (h : d.currentMode = m) :
    ModeType.ofByte? d.currentMode = some m := by
  rw [h, ModeType.ofByte?_toByte]

@[simp] theorem panicMode_ae (d : Drone) (i : Fin 4) :
    d.panicMode.ae i = panicStep d.panicSetpoint (d.ae i) := by
  simp only [panicMode]
  split_ifs <;> rfl

@[simp] theorem panicMode_setpoint (d : Drone) :
    d.panicMode.setpoint = max 0 (d.panicSetpoint - panicModeStepSize) := by
  simp only [panicMode]
  split_ifs <;> rfl

/-- A panic tick that stops all rotors ends the panic. -/
theorem panicMode_stopped {d : Drone} (h : ∀ i, panicStep d.panicSetpoint (d.ae i) = 0) :
    d.panicMode.currentMode = ModeType.safeMode ∧ d.panicMode.inPanicMode = false := by
  unfold panicMode
  rw [if_pos h]
  exact ⟨rfl, rfl⟩

/-- Any other goes on with it. -/
theorem panicMode_running {d : Drone} (h : ¬∀ i, panicStep d.panicSetpoint (d.ae i) = 0) :
    d.panicMode.currentMode = d.currentMode ∧ d.panicMode.inPanicMode = true := by
  unfold panicMode
  rw [if_neg h]
  exact ⟨rfl, rfl⟩

@[simp] theorem setRotors_currentMode (d : Drone) (check : Int16 → Int16) (speed : Fin 4 → ℤ) :
    (d.setRotors check speed).currentMode = d.currentMode := by
  unfold setRotors
  split_ifs <;> rfl

/-- With the lift up the rotors get the speeds of the filter. -/
theorem rawMode_ae {d : Drone} (hlift : d.liftdata ≠ -127) (i : Fin 4) :
    d.rawMode.ae i = Int16.ofInt (d.rawSpeed d.rawFilter i) := by
  simp only [rawMode, setRotors, if_neg hlift]
  rfl

@[simp] theorem controlTick_ae (sensors : Sensors) (d : Drone) :
    (d.controlTick sensors).1.ae = ({ d with sensors } : Drone).modeCase.1.ae :=
  rfl

@[simp] theorem controlTick_currentMode (sensors : Sensors) (d : Drone) :
    (d.controlTick sensors).1.currentMode = ({ d with sensors } : Drone).modeCase.1.currentMode :=
  rfl

/-- The switch writes none of the sticks, the gains, the sensors and the counters. -/
theorem modeCase_eq (d : Drone) : ∃ currentMode ae cal kalman inPanicMode inCalibrationMode
    exitInSafeMode setpoint demoDone, d.modeCase.1 = { d with
      currentMode, ae, cal, kalman, inPanicMode, inCalibrationMode, exitInSafeMode, setpoint,
      demoDone } := by
  have hset (check : Int16 → Int16) (speed : Fin 4 → ℤ) :
      ∃ ae, d.setRotors check speed = { d with ae } := by
    unfold setRotors
    split_ifs <;> exact ⟨_, rfl⟩
  have hkept (e : Drone) (h : ∃ ae, e = { d with ae }) : ∃ currentMode ae cal kalman inPanicMode
      inCalibrationMode exitInSafeMode setpoint demoDone, e = { d with
        currentMode, ae, cal, kalman, inPanicMode, inCalibrationMode, exitInSafeMode, setpoint,
        demoDone } := by
    obtain ⟨ae, rfl⟩ := h
    exact ⟨_, _, _, _, _, _, _, _, _, rfl⟩
  unfold modeCase
  split
  · exact ⟨_, _, _, _, _, _, _, _, _, rfl⟩
  · simp only [panicMode]
    split_ifs <;> exact ⟨_, _, _, _, _, _, _, _, _, rfl⟩
  · exact hkept _ (hset _ _)
  · simp only [calibrationMode]
    split_ifs <;> exact ⟨_, _, _, _, _, _, _, _, _, rfl⟩
  · exact hkept _ (hset _ _)
  · exact hkept _ (hset _ _)
  · obtain ⟨ae, hae⟩ := hset id (d.rawSpeed d.rawFilter)
    simp only [rawMode, hae]
    exact ⟨_, _, _, _, _, _, _, _, _, rfl⟩
  all_goals exact ⟨_, _, _, _, _, _, _, _, _, rfl⟩

/-- Nor does a tick, which stores the sensors and drives the motors. -/
theorem controlTick_eq (sensors : Sensors) (d : Drone) : ∃ currentMode motor ae cal kalman
    inPanicMode inCalibrationMode exitInSafeMode setpoint demoDone,
      (d.controlTick sensors).1 = { d with
        currentMode, motor, ae, sensors, cal, kalman, inPanicMode, inCalibrationMode,
        exitInSafeMode, setpoint, demoDone } := by
  obtain ⟨_, _, _, _, _, _, _, _, _, h⟩ := ({ d with sensors } : Drone).modeCase_eq
  simp only [controlTick, runFiltersAndControl, h]
  exact ⟨_, _, _, _, _, _, _, _, _, _, rfl⟩

theorem controlTick_motor (sensors : Sensors) (d : Drone) (i : Fin 4) :
    (d.controlTick sensors).1.motor i = min ((d.controlTick sensors).1.ae i) 1000 :=
  rfl

/-- What a tick does to the mode : a panic ends with the rotors stopped, `TERMINATE_MODE`
becomes a panic, and every other mode stays. -/
theorem controlTick_mode_cases (sensors : Sensors) (d : Drone) :
    (d.controlTick sensors).1.currentMode = d.currentMode ∨
      (d.currentMode = ModeType.panicMode ∧
        (d.controlTick sensors).1.currentMode = ModeType.safeMode ∧
        ∀ i, (d.controlTick sensors).1.ae i = 0) ∨
      (d.currentMode = ModeType.terminateMode ∧
        (d.controlTick sensors).1.currentMode = ModeType.panicMode) := by
  simp only [controlTick_ae, controlTick_currentMode]
  set e : Drone := { d with sensors } with he
  have hmode : e.currentMode = d.currentMode := rfl
  rw [← hmode]
  cases h : ModeType.ofByte? e.currentMode with
  | none => simp [modeCase, h]
  | some m =>
    have hm := ModeType.ofByte?_eq_some.1 h
    cases m with
    | panicMode =>
      simp only [modeCase, h]
      by_cases hz : ∀ i, panicStep e.panicSetpoint (e.ae i) = 0
      · have hae (i : Fin 4) : e.panicMode.ae i = 0 := (e.panicMode_ae i).trans (hz i)
        exact Or.inr (Or.inl ⟨hm, (panicMode_stopped hz).1, hae⟩)
      · exact Or.inl (panicMode_running hz).1
    | terminateMode => exact Or.inr (Or.inr ⟨hm, by simp [modeCase, h, terminateMode]⟩)
    | calibrationMode =>
      refine Or.inl ?_
      simp only [modeCase, h, calibrationMode]
      split_ifs <;> rfl
    | safeMode | manualMode | yawControlMode | fullControlMode | heightControlMode
    | wirelessMode => simp [modeCase, h, safeMode]
    | rawMode => simp [modeCase, h, rawMode]

/-- In no other mode does the switch touch the offsets or send anything. -/
theorem modeCase_calibration {d : Drone} (h : d.currentMode ≠ ModeType.calibrationMode) :
    d.modeCase.1.cal = d.cal ∧ d.modeCase.2 = [] := by
  have hset (check : Int16 → Int16) (speed : Fin 4 → ℤ) :
      (d.setRotors check speed).cal = d.cal := by
    unfold setRotors
    split_ifs <;> rfl
  unfold modeCase
  split
  case h_2 =>
    unfold panicMode
    dsimp only
    split <;> exact ⟨rfl, rfl⟩
  case h_4 hmode => exact absurd (ModeType.ofByte?_eq_some.1 hmode) h
  case h_3 | h_5 | h_6 | h_7 => exact ⟨hset _ _, rfl⟩
  all_goals exact ⟨rfl, rfl⟩

/-- A tick stores the offsets, and sends them, if it is in `CALIBRATION_MODE` and the one
before it was not, as the flag says; then the flag says whether this one was. -/
theorem controlTick_calibration (sensors : Sensors) (d : Drone) :
    (d.controlTick sensors).1.inCalibrationMode = (d.currentMode == ModeType.calibrationMode) ∧
      (d.controlTick sensors).1.cal =
        (if d.currentMode == ModeType.calibrationMode && !d.inCalibrationMode then sensors
          else d.cal) ∧
      (d.controlTick sensors).2 =
        (if d.currentMode == ModeType.calibrationMode && !d.inCalibrationMode then
          [.calibrationData sensors] else []) := by
  set e : Drone := { d with sensors } with he
  change (e.modeCase.1.inCalibrationMode && e.modeCase.1.currentMode == ModeType.calibrationMode) =
    _ ∧ e.modeCase.1.cal = _ ∧ e.modeCase.2 = _
  by_cases h : d.currentMode = ModeType.calibrationMode
  · have hcase : e.modeCase = e.calibrationMode := by
      rw [modeCase, modeCase_of (d := e) h]
    rw [hcase, calibrationMode]
    cases hin : d.inCalibrationMode with
    | true => simp [he, h, hin]
    | false => simp [he, h, hin]
  · obtain ⟨hcal, hsent⟩ := modeCase_calibration (d := e) h
    have hafter : e.modeCase.1.currentMode ≠ ModeType.calibrationMode := by
      rcases d.controlTick_mode_cases sensors with hsame | ⟨-, hsafe, -⟩ | ⟨-, hpanic⟩
      · exact fun hmode => h (hsame.symm.trans hmode)
      · exact fun hmode => absurd (hsafe.symm.trans hmode) (by decide)
      · exact fun hmode => absurd (hpanic.symm.trans hmode) (by decide)
    rw [beq_false_of_ne hafter, beq_false_of_ne h, hcal, hsent]
    simp [he]

end Drone

end Quadrupel
