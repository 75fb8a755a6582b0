import Quadrupel.Control
import Quadrupel.IntExpr

/-!
# The control laws saturate

The `MANUAL_MODE`, `YAW_CONTROL_MODE` and `FULL_CONTROL_MODE` cases check the bounds of
the rotor speeds after they are stored in an `int16_t`. Here their expressions are written
out in the order in which the code evaluates them, every result is shown to fit in an
`int` and every speed in an `int16_t`, whatever the sticks, gains, sensor values and
calibration are, and so the rotors get the exact value of the formula, cut off at
`MIN_RPM` and `MAX_RPM` (`saturates`).

The largest speed, of the `FULL_CONTROL_MODE` case, is 28783, so the intervals of the
expressions are enough.
-/

namespace Quadrupel

/-- The values of an `int8_t`. -/
def int8 : Interval :=
  ⟨-2 ^ 7, 2 ^ 7 - 1⟩

/-- The values of an `int16_t`. -/
def int16 : Interval :=
  ⟨-2 ^ 15, 2 ^ 15 - 1⟩

/-- The values of an `int`. -/
def int32 : Interval :=
  ⟨-2 ^ 31, 2 ^ 31 - 1⟩

theorem i32_of_mem {x : ℤ} (h : x ∈ int32) : i32 x = x := by
  have hlo : -2 ^ 31 ≤ x := h.1
  have hhi : x ≤ 2 ^ 31 - 1 := h.2
  exact Int.bmod_eq_of_le (by omega) (by omega)

theorem toInt_mem_int8 (a : Int8) : a.toInt ∈ int8 :=
  ⟨a.le_toInt, Int.le_sub_one_of_lt a.toInt_lt⟩

theorem toInt_mem_int16 (a : Int16) : a.toInt ∈ int16 :=
  ⟨a.le_toInt, Int.le_sub_one_of_lt a.toInt_lt⟩

theorem toInt_ofInt_of_mem {x : ℤ} (h : x ∈ int16) : (Int16.ofInt x).toInt = x :=
  Int16.toInt_ofInt_of_le h.1 (Int.lt_of_le_sub_one h.2)

/-- The variables that the control laws read. -/
inductive Operand
  | liftdata | rolldata | pitchdata | yawdata | pYawControl | p1 | p2
  | sp | sq | sr | sax | say | calSp | calSq | calSr | calSax | calSay

/-- The values of the type of a variable. -/
def Operand.type : Operand → Interval
  | liftdata | rolldata | pitchdata | yawdata | pYawControl | p1 | p2 => int8
  | sp | sq | sr | sax | say | calSp | calSq | calSr | calSax | calSay => int16

/-- What a variable holds. -/
def Drone.operand (d : Drone) : Operand → ℤ
  | .liftdata => d.liftdata.toInt
  | .rolldata => d.rolldata.toInt
  | .pitchdata => d.pitchdata.toInt
  | .yawdata => d.yawdata.toInt
  | .pYawControl => d.pYawControl.toInt
  | .p1 => d.p1.toInt
  | .p2 => d.p2.toInt
  | .sp => d.sensors.sp.toInt
  | .sq => d.sensors.sq.toInt
  | .sr => d.sensors.sr.toInt
  | .sax => d.sensors.sax.toInt
  | .say => d.sensors.say.toInt
  | .calSp => d.cal.sp.toInt
  | .calSq => d.cal.sq.toInt
  | .calSr => d.cal.sr.toInt
  | .calSax => d.cal.sax.toInt
  | .calSay => d.cal.say.toInt

theorem Drone.operand_mem (d : Drone) (v : Operand) : d.operand v ∈ v.type := by
  cases v <;> first | exact toInt_mem_int8 _ | exact toInt_mem_int16 _

/-! ## The expressions of the code -/

namespace Expr

open IntExpr Operand

/-- `lift_setpoint`. -/
def liftSetpoint {ν : Type*} (liftdata : ν) : IntExpr ν :=
  (var liftdata + .div (127 * 2 * 2) 3) * 2

/-- `real_sr`, with its cap. -/
def realSr : IntExpr Operand :=
  .cap (var sr - var calSr) 3000

/-- `Eps`, scaled. -/
def eps : IntExpr Operand :=
  .shr ((.shl (var yawdata) 4 + .shl (var yawdata) 2) - realSr) 8

/-- `roll_s` and `pitch_s`. -/
def stick50 (stick : Operand) : IntExpr Operand :=
  .shl (var stick) 5 + .shl (var stick) 4 + .shl (var stick) 1

/-- `K_s_pitch`, scaled. -/
def kSPitch : IntExpr Operand :=
  .shr (var p1 * .shr (stick50 pitchdata + (var sax - var calSax)) 1 -
    var p2 * (var sq - var calSq)) 9

/-- `K_s_roll`, scaled. -/
def kSRoll : IntExpr Operand :=
  .shr (var p1 * .shr (stick50 rolldata - (var say - var calSay)) 1 -
    var p2 * (var sp - var calSp)) 9

/-- The speeds of the `MANUAL_MODE` case. -/
def manual : Fin 4 → IntExpr Operand :=
  ![(var liftdata + var pitchdata - var yawdata + .div (127 * 2 * 2) 3) * 2,
    (var liftdata - var rolldata + var yawdata + .div (127 * 2 * 2) 3) * 2,
    (var liftdata - var pitchdata - var yawdata + .div (127 * 2 * 2) 3) * 2,
    (var liftdata + var rolldata + var yawdata + .div (127 * 2 * 2) 3) * 2]

/-- The speeds of the `YAW_CONTROL_MODE` case. -/
def yawControl : Fin 4 → IntExpr Operand :=
  ![liftSetpoint liftdata + var pYawControl * eps,
    liftSetpoint liftdata - var pYawControl * eps,
    liftSetpoint liftdata + var pYawControl * eps,
    liftSetpoint liftdata - var pYawControl * eps]

/-- The speeds of the `FULL_CONTROL_MODE` case. -/
def fullControl : Fin 4 → IntExpr Operand :=
  ![liftSetpoint liftdata - kSPitch + var pYawControl * eps,
    liftSetpoint liftdata - kSRoll - var pYawControl * eps,
    liftSetpoint liftdata + kSPitch + var pYawControl * eps,
    liftSetpoint liftdata + kSRoll - var pYawControl * eps]

end Expr

/-- The modes that drive the rotors from the sticks. -/
def controlModes : List ModeType :=
  [.manualMode, .yawControlMode, .fullControlMode, .rawMode]

/-- The modes that end with a bounds check. -/
inductive Law
  | manual | yawControl | fullControl

namespace Law

/-- The mode of a law. -/
def mode : Law → ModeType
  | manual => .manualMode
  | yawControl => .yawControlMode
  | fullControl => .fullControlMode

/-- Every mode with a control law is `RAW_MODE` or the mode of a law with a bounds check. -/
theorem eq_rawMode_or_law {m : ModeType} (hm : m ∈ controlModes) :
    m = .rawMode ∨ ∃ law : Law, m = law.mode := by
  cases m with
  | rawMode => exact Or.inl rfl
  | manualMode => exact Or.inr ⟨.manual, rfl⟩
  | yawControlMode => exact Or.inr ⟨.yawControl, rfl⟩
  | fullControlMode => exact Or.inr ⟨.fullControl, rfl⟩
  | safeMode | panicMode | calibrationMode | heightControlMode | wirelessMode | terminateMode =>
    exact absurd hm (by decide)

/-- The expressions of the speeds. -/
def expr : Law → Fin 4 → IntExpr Operand
  | manual => Expr.manual
  | yawControl => Expr.yawControl
  | fullControl => Expr.fullControl

/-- The speeds that the model computes. -/
def speed (d : Drone) : Law → Fin 4 → ℤ
  | manual => d.manualSpeed
  | yawControl => d.yawControlSpeed
  | fullControl => d.fullControlSpeed

/-- The intervals of the types of the variables are enough. -/
theorem expr_within (law : Law) (i : Fin 4) :
    (law.expr i).Within int32 Operand.type ∧ ((law.expr i).bounds Operand.type).Within int16 := by
  cases law <;> fin_cases i <;> decide +kernel

theorem value_expr (law : Law) (d : Drone) (i : Fin 4) :
    (law.expr i).value d.operand = law.speed d i := by
  cases law <;> fin_cases i <;> rfl

theorem expr_fits (law : Law) (d : Drone) (i : Fin 4) : (law.expr i).Fits int32 d.operand :=
  IntExpr.fits_of_within d.operand_mem (law.expr_within i).1

theorem speed_mem (law : Law) (d : Drone) (i : Fin 4) : law.speed d i ∈ int16 := by
  rw [← value_expr]
  exact (law.expr_within i).2.mem (IntExpr.value_mem_bounds d.operand_mem _)

/-- On the target, where every result wraps, the speeds are the ones of the model. -/
theorem eval_expr (law : Law) (d : Drone) (i : Fin 4) :
    (law.expr i).eval i32 d.operand = law.speed d i := by
  rw [IntExpr.eval_of_fits (fun _ => i32_of_mem) (law.expr_fits d i), value_expr]

end Law

/-! ## The formulas -/

namespace Drone

/-- `real_sr`, cut off at 3000. -/
def cappedSr (d : Drone) : ℤ :=
  max (-3000) (min 3000 (d.sensors.sr.toInt - d.cal.sr.toInt))

/-- The part of the yaw in a speed. -/
def yawTerm (d : Drone) : ℤ :=
  d.pYawControl.toInt * ((d.yawdata.toInt * 2 ^ 4 + d.yawdata.toInt * 2 ^ 2 - d.cappedSr) / 2 ^ 8)

/-- The part of the pitch. -/
def pitchTerm (d : Drone) : ℤ :=
  let pitch := d.pitchdata.toInt
  (d.p1.toInt * ((pitch * 2 ^ 5 + pitch * 2 ^ 4 + pitch * 2 ^ 1 +
      (d.sensors.sax.toInt - d.cal.sax.toInt)) / 2 ^ 1) -
    d.p2.toInt * (d.sensors.sq.toInt - d.cal.sq.toInt)) / 2 ^ 9

/-- The part of the roll. -/
def rollTerm (d : Drone) : ℤ :=
  let roll := d.rolldata.toInt
  (d.p1.toInt * ((roll * 2 ^ 5 + roll * 2 ^ 4 + roll * 2 ^ 1 -
      (d.sensors.say.toInt - d.cal.say.toInt)) / 2 ^ 1) -
    d.p2.toInt * (d.sensors.sp.toInt - d.cal.sp.toInt)) / 2 ^ 9

end Drone

namespace Law

/-- The formula of a law for the four rotors, in integers. -/
def formula (d : Drone) : Law → Fin 4 → ℤ
  | manual =>
    ![(d.liftdata.toInt + d.pitchdata.toInt - d.yawdata.toInt + 169) * 2,
      (d.liftdata.toInt - d.rolldata.toInt + d.yawdata.toInt + 169) * 2,
      (d.liftdata.toInt - d.pitchdata.toInt - d.yawdata.toInt + 169) * 2,
      (d.liftdata.toInt + d.rolldata.toInt + d.yawdata.toInt + 169) * 2]
  | yawControl =>
    ![(d.liftdata.toInt + 169) * 2 + d.yawTerm,
      (d.liftdata.toInt + 169) * 2 - d.yawTerm,
      (d.liftdata.toInt + 169) * 2 + d.yawTerm,
      (d.liftdata.toInt + 169) * 2 - d.yawTerm]
  | fullControl =>
    ![(d.liftdata.toInt + 169) * 2 - d.pitchTerm + d.yawTerm,
      (d.liftdata.toInt + 169) * 2 - d.rollTerm - d.yawTerm,
      (d.liftdata.toInt + 169) * 2 + d.pitchTerm + d.yawTerm,
      (d.liftdata.toInt + 169) * 2 + d.rollTerm - d.yawTerm]

end Law

theorem Drone.realSr_eq (d : Drone) : d.realSr = d.cappedSr := by
  unfold realSr cappedSr capValueYaw
  simp only
  split_ifs <;> omega

theorem Drone.mul_eps_eq (d : Drone) : d.pYawControl.toInt * d.eps = d.yawTerm := by
  rw [eps, realSr_eq, yawTerm, Int.shiftRight_eq_div_pow, Int.shiftLeft_eq, Int.shiftLeft_eq]
  rfl

theorem Law.speed_eq (law : Law) (d : Drone) (i : Fin 4) : law.speed d i = law.formula d i := by
  cases law with
  | manual => fin_cases i <;> rfl
  | yawControl =>
    simp only [speed, Drone.yawControlSpeed, Drone.mul_eps_eq]
    fin_cases i <;> rfl
  | fullControl =>
    simp only [speed, Drone.fullControlSpeed, Drone.mul_eps_eq, Int.shiftRight_eq_div_pow,
      Int.shiftLeft_eq]
    fin_cases i <;> rfl

/-! ## Saturation -/

theorem toInt_boundRpm (a : Int16) : (Drone.boundRpm a).toInt = max 254 (min 762 a.toInt) := by
  have hmin : minRpm.toInt = 254 := rfl
  have hmax : maxRpm.toInt = 762 := rfl
  unfold Drone.boundRpm
  simp only [Int16.lt_iff_toInt_lt]
  split_ifs <;> omega

/-- A tick of a law checks its speeds. -/
theorem Law.ae_runFiltersAndControl {law : Law} {d : Drone} (hmode : d.currentMode = law.mode)
    (hlift : d.liftdata ≠ -127) (i : Fin 4) :
    d.runFiltersAndControl.1.ae i = Drone.boundRpm (Int16.ofInt (law.speed d i)) := by
  change d.modeCase.1.ae i = _
  rw [Drone.modeCase, Drone.modeCase_of hmode]
  cases law <;>
    simp only [mode, Drone.setRotors, if_neg hlift, speed]

/-- Nothing overflows, and the rotors get the value of the formula, within the bounds. -/
theorem saturates (law : Law) (d : Drone) (hmode : d.currentMode = law.mode)
    (hlift : d.liftdata ≠ -127) (i : Fin 4) :
    (law.expr i).Fits int32 d.operand ∧
      (Int16.ofInt ((law.expr i).eval i32 d.operand)).toInt = (law.expr i).eval i32 d.operand ∧
      (d.runFiltersAndControl.1.ae i).toInt = max 254 (min 762 (law.formula d i)) := by
  refine ⟨law.expr_fits d i, ?_, ?_⟩
  · rw [law.eval_expr, toInt_ofInt_of_mem (law.speed_mem d i)]
  · rw [law.ae_runFiltersAndControl hmode hlift, toInt_boundRpm,
      toInt_ofInt_of_mem (law.speed_mem d i), law.speed_eq]

/-- Full yaw to one side, in `MANUAL_MODE`. -/
theorem saturates_manual :
    ((Drone.runFiltersAndControl { Drone.powerUp 0 with
      currentMode := ModeType.manualMode, yawdata := 127 }).1.ae 0).toInt = 254 :=
  (saturates .manual { Drone.powerUp 0 with
    currentMode := ModeType.manualMode, yawdata := 127 } rfl (by decide) 0).2.2

end Quadrupel
