import Quadrupel.Saturation
import Quadrupel.Terminate

/-!
# The range of the rotor speeds

The bounds checks keep the rotors of `MANUAL_MODE`, `YAW_CONTROL_MODE` and
`FULL_CONTROL_MODE` between `MIN_RPM` and `MAX_RPM`, and the panic ramp starts from what
the mode before it left behind and follows a setpoint that is no larger (`RampHeld`). So
every tick of a run leaves the rotors between 0 and `MAX_RPM`, unless it is one of
`RAW_MODE` with the lift up : that case has no bounds check (`motors_in_range`). With
suitable gains such a tick leaves the range for every position of the lift stick, so
no weaker condition on the mode and the stick would do (`tickInRange_iff`).
-/

open Set

namespace Quadrupel

namespace Drone

/-- The rotor speeds lie between 0 and `MAX_RPM`. -/
def InRange (d : Drone) : Prop :=
  ∀ i, (d.ae i).toInt ∈ Icc 0 762

/-- A tick leaves the rotors in range, and in a mode with a control law either stopped,
with the lift stick down, or between `MIN_RPM` and `MAX_RPM`. -/
structure TickInRange (d : Drone) (sensors : Sensors) : Prop where
  range : (d.controlTick sensors).1.InRange
  control : ∀ m ∈ controlModes, d.currentMode = m →
    (d.liftdata = -127 ∧ ∀ i, (d.controlTick sensors).1.ae i = 0) ∨
      ∀ i, ((d.controlTick sensors).1.ae i).toInt ∈ Icc 254 762

/-- An event that is a tick leaves the rotors in range. -/
def KeepsRange (d : Drone) : DroneEvent → Prop
  | .control sensors => d.TickInRange sensors
  | _ => True

/-- An event that is a tick of `RAW_MODE` finds the lift stick down. -/
def RawIdle (d : Drone) : DroneEvent → Prop
  | .control _ => d.currentMode = ModeType.rawMode → d.liftdata = -127
  | _ => True

instance (d : Drone) : ∀ e, Decidable (d.RawIdle e)
  | .control _ => inferInstanceAs (Decidable (_ → _))
  | .message .. | .timer .. => inferInstanceAs (Decidable True)

theorem zero_mem_range : (0 : Int16).toInt ∈ Icc 0 762 := by
  decide

/-! ## The control laws -/

/-- With the lift stick down every control law stops the rotors. -/
theorem controlTick_lift_down {d : Drone} {m : ModeType} (hm : m ∈ controlModes)
    (hmode : d.currentMode = m) (hlift : d.liftdata = -127) (sensors : Sensors) (i : Fin 4) :
    (d.controlTick sensors).1.ae i = 0 := by
  set e : Drone := { d with sensors } with he
  have hdown : e.liftdata = -127 := hlift
  rw [controlTick_ae, ← he, modeCase, modeCase_of (d := e) hmode]
  cases m with
  | manualMode | yawControlMode | fullControlMode => simp only [setRotors, if_pos hdown]
  | rawMode => simp only [rawMode, setRotors, if_pos hdown]
  | safeMode | panicMode | calibrationMode | heightControlMode | wirelessMode | terminateMode =>
    exact absurd hm (by decide)

theorem boundRpm_mem (a : Int16) : (boundRpm a).toInt ∈ Icc 254 762 := by
  rw [toInt_boundRpm]
  constructor <;> omega

/-- With the lift up a law that checks its bounds keeps them. -/
theorem controlTick_law {d : Drone} {law : Law} (hmode : d.currentMode = law.mode)
    (hlift : d.liftdata ≠ -127) (sensors : Sensors) (i : Fin 4) :
    ((d.controlTick sensors).1.ae i).toInt ∈ Icc 254 762 := by
  have hae := law.ae_runFiltersAndControl (d := { d with sensors }) hmode hlift i
  rw [controlTick, hae]
  exact boundRpm_mem _

/-- The tick of a mode with a control law, unless it is one of `RAW_MODE` with the lift up. -/
theorem controlTick_control {d : Drone} {m : ModeType} (hm : m ∈ controlModes)
    (hmode : d.currentMode = m) {sensors : Sensors} (hraw : d.RawIdle (.control sensors)) :
    (d.liftdata = -127 ∧ ∀ i, (d.controlTick sensors).1.ae i = 0) ∨
      ∀ i, ((d.controlTick sensors).1.ae i).toInt ∈ Icc 254 762 := by
  by_cases hlift : d.liftdata = -127
  · exact Or.inl ⟨hlift, controlTick_lift_down hm hmode hlift sensors⟩
  · rcases Law.eq_rawMode_or_law hm with rfl | ⟨law, rfl⟩
    · exact absurd (hraw hmode) hlift
    · exact Or.inr (controlTick_law hmode hlift sensors)

/-! ## The panic ramp -/

/-- The setpoint of a panic is no larger than the rotors, and not negative. -/
theorem panicSetpoint_mem {d : Drone} (hheld : d.RampHeld) (hrange : d.InRange) :
    d.panicSetpoint ∈ Icc 0 762 := by
  cases hin : d.inPanicMode with
  | false =>
    rw [panicSetpoint_first hin]
    exact average_mem hrange
  | true =>
    have hset : d.panicSetpoint = d.setpoint := if_pos hin
    refine ⟨hset ▸ hheld.setpoint_nonneg hin, ?_⟩
    rcases hheld.covered with hzero | ⟨i, hi⟩
    · exact le_trans hzero (by norm_num)
    · exact le_trans hi (hrange i).2

theorem InRange.controlTick_panic {d : Drone} (hrange : d.InRange) (hheld : d.RampHeld)
    (hmode : d.currentMode = ModeType.panicMode) (sensors : Sensors) :
    (d.controlTick sensors).1.InRange := by
  intro i
  rw [(Drone.controlTick_panic sensors hmode hheld.panicSetpoint_mem).1 i]
  exact approach_mem (by decide) (panicSetpoint_mem hheld hrange) (hrange i)

/-! ## Every tick -/

theorem InRange.controlTick {d : Drone} (hrange : d.InRange) (hheld : d.RampHeld)
    {sensors : Sensors} (hraw : d.RawIdle (.control sensors)) :
    (d.controlTick sensors).1.InRange := by
  have hkept (h : (d.controlTick sensors).1.ae = d.ae) : (d.controlTick sensors).1.InRange := by
    intro i
    rw [h]
    exact hrange i
  by_cases hsafe : d.currentMode = ModeType.safeMode
  · intro i
    rw [controlTick_safe hsafe sensors i]
    exact zero_mem_range
  · by_cases hdriven : Driven d.currentMode
    · obtain ⟨m, hm, hmode⟩ := hdriven
      by_cases hcontrol : m ∈ controlModes
      · rcases controlTick_control hcontrol hmode hraw with ⟨-, hstop⟩ | hbound
        · intro i
          rw [hstop i]
          exact zero_mem_range
        · exact fun i => ⟨le_trans (by norm_num) (hbound i).1, (hbound i).2⟩
      · -- what is left of the driven modes is the panic and `TERMINATE_MODE`
        cases m with
        | panicMode => exact hrange.controlTick_panic hheld hmode sensors
        | terminateMode =>
          have hramp := (controlTick_terminate sensors hmode).2.2.1
          intro i
          have hlevel : ((d.controlTick sensors).1.ae i).toInt = (d.ae i).toInt :=
            congrFun (congrArg Ramp.level hramp) i
          rw [hlevel]
          exact hrange i
        | safeMode | calibrationMode | heightControlMode | wirelessMode =>
          exact absurd hm (by decide)
        | manualMode | yawControlMode | fullControlMode | rawMode =>
          exact absurd (by decide) hcontrol
    · exact hkept (controlTick_undriven ⟨hdriven, hsafe⟩ sensors)

theorem tickInRange {d : Drone} (hheld : d.RampHeld) (hrange : d.InRange) {sensors : Sensors}
    (hraw : d.RawIdle (.control sensors)) : d.TickInRange sensors :=
  ⟨hrange.controlTick hheld hraw, fun _ hm hmode => controlTick_control hm hmode hraw⟩

theorem InRange.next {d : Drone} (hrange : d.InRange) (hheld : d.RampHeld) {e : DroneEvent}
    (he : d.RawIdle e) : (droneLoop.next d e).InRange := by
  cases e with
  | control sensors => exact hrange.controlTick hheld he
  | message m now =>
    intro i
    rw [droneLoop, acceptMessage_ae]
    exact hrange i
  | timer batVolt now =>
    intro i
    rw [droneLoop, checkTimer_ae]
    exact hrange i

/-! ## RAW_MODE -/

/-- `RAW_MODE` with the largest `p1` and the pitch angle of the filter far off. -/
def runaway (liftdata : Int8) : Drone :=
  { powerUp 0 with
    currentMode := ModeType.rawMode
    liftdata
    p1 := 127
    kalman := ⟨0, -2000000, 0, 0, 0, 0⟩ }

/-- The first rotor is then 5076 above the lift. -/
theorem toInt_ae_runaway {lift : Int8} (hlift : lift ≠ -127) :
    (((runaway lift).controlTick .zero).1.ae 0).toInt = (lift.toInt + 169) * 2 + 5076 := by
  set e : Drone := { runaway lift with sensors := .zero } with he
  have hmode : e.currentMode = ModeType.rawMode := rfl
  have hfilter : e.rawFilter = ⟨0, -1998000, 0, 0, 0, 0⟩ := by
    simp only [rawFilter, he, runaway, powerUp, Sensors.zero]
    decide +kernel
  have htorque : (i32 ((127 : Int8).toInt * (((0 : Int8).toInt + 127 * 2) * 2 - -1998000) -
      (0 : Int8).toInt * 0)).tdiv 50000 = 5076 := by
    decide +kernel
  have hspeed : e.rawSpeed e.rawFilter 0 = (lift.toInt + 169) * 2 + 5076 := by
    rw [hfilter]
    exact congrArg ((lift.toInt + 169) * 2 + ·) htorque
  have hlo : -2 ^ 7 ≤ lift.toInt := (toInt_mem_int8 lift).1
  have hhi : lift.toInt ≤ 2 ^ 7 - 1 := (toInt_mem_int8 lift).2
  rw [controlTick_ae, ← he, modeCase, modeCase_of hmode]
  change (e.rawMode.ae 0).toInt = _
  rw [rawMode_ae hlift, hspeed]
  exact toInt_ofInt_of_mem ⟨by simp only [int16]; omega, by simp only [int16]; omega⟩

/-- Whatever the gains and the filter are, a tick leaves the rotors in range; this holds
for a mode and a position of the lift stick iff they are not `RAW_MODE` and lift up. -/
theorem tickInRange_iff (mode : UInt8) (lift : Int8) :
    (∀ (d : Drone) (sensors : Sensors), d.RampHeld → d.InRange → d.currentMode = mode →
      d.liftdata = lift → d.TickInRange sensors) ↔
      (mode = ModeType.rawMode → lift = -127) := by
  constructor
  · rintro h rfl
    by_contra hlift
    have hrange : (runaway lift).InRange := fun _ => zero_mem_range
    have htick := (h (runaway lift) .zero (rampHeld_fresh rfl) hrange rfl rfl).range 0
    rw [toInt_ae_runaway hlift] at htick
    have hlo : -2 ^ 7 ≤ lift.toInt := (toInt_mem_int8 lift).1
    have hhi := htick.2
    omega
  · rintro h d sensors hheld hrange rfl rfl
    exact tickInRange hheld hrange h

/-! ## Every run -/

/-- In a run from power-up that ticks in `RAW_MODE` only with the lift stick down, every
tick leaves the rotors in range. -/
theorem motors_in_range (now : UInt32) (es : List DroneEvent)
    (hes : droneLoop.Along RawIdle (powerUp now) es) :
    droneLoop.Along KeepsRange (powerUp now) es := by
  have hstart : (powerUp now).RampHeld ∧ (powerUp now).InRange :=
    ⟨rampHeld_fresh rfl, fun _ => zero_mem_range⟩
  have hstep (d : Drone) (e : DroneEvent) (hd : d.RampHeld ∧ d.InRange) (he : d.RawIdle e) :
      ((droneLoop.next d e).RampHeld ∧ (droneLoop.next d e).InRange) ∧ d.KeepsRange e := by
    obtain ⟨hheld, hrange⟩ := hd
    refine ⟨⟨hheld.next e, hrange.next hheld he⟩, ?_⟩
    cases e with
    | control sensors => exact tickInRange hheld hrange he
    | message | timer => trivial
  exact droneLoop.along_of_invariant hstep hstart hes

/-- From power-up to `MANUAL_MODE`, a panic from there, and `RAW_MODE` with the lift down. -/
theorem motors_in_range_flight :
    let stale : Message := Vector.replicate sizeofMessage 0
    droneLoop.Along KeepsRange (powerUp 0)
      [.control .zero, .message ((Msg.setMode ModeType.manualMode).received stale) 0,
        .control .zero, .message ((Msg.setMode ModeType.panicMode).received stale) 0,
        .control .zero, .message ((Msg.inputData (-127) 0 0 0).received stale) 0,
        .message ((Msg.setMode ModeType.rawMode).received stale) 0, .control .zero] :=
  motors_in_range 0 _ (by decide +kernel)

/-- Every tick of every run leaves the rotors in range. -/
def AlwaysInRange : Prop :=
  ∀ (now : UInt32) (es : List DroneEvent), droneLoop.Along KeepsRange (powerUp now) es

/-- `RAW_MODE` with a low lift and the gains still zero : all rotors get 138. -/
theorem not_alwaysInRange : ¬AlwaysInRange := by
  intro h
  let stale : Message := Vector.replicate sizeofMessage 0
  let es : List DroneEvent :=
    [.message ((Msg.setMode ModeType.rawMode).received stale) 0,
      .message ((Msg.inputData (-100) 0 0 0).received stale) 0]
  have hlong := h 0 (es ++ [.control .zero])
  have htick : (droneLoop.run (powerUp 0) es).TickInRange .zero :=
    ((droneLoop.along_append _ _ _ _).1 hlong).2.1
  have hraw : (droneLoop.run (powerUp 0) es).currentMode = ModeType.rawMode := by decide +kernel
  rcases htick.control .rawMode (by decide) hraw with ⟨hdown, -⟩ | hbound
  · revert hdown
    decide +kernel
  · have hlow := (hbound 0).1
    revert hlow
    decide +kernel

end Drone

end Quadrupel
