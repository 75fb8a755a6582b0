import Quadrupel.DroneMain

/-!
# Rotors in the modes that do not drive them

`SAFE_MODE` stops the rotors on every tick. The other modes without a control law leave
`ae` as it is, and so the motors (`controlTick_undriven`) : `CALIBRATION_MODE`,
`HEIGHT_CONTROL_MODE`, `WIRELESS_MODE` and the values that no case of the switch names,
all of which `main` stores on request. Every tick of a run in such a mode leaves the rotors
stopped iff each request for one that is ticked before the mode changes again is accepted
with the rotors stopped (`rotorsStopped_iff`).
-/

namespace Quadrupel

/-- The modes with a control law or a ramp of their own, and `TERMINATE_MODE`, which
becomes a panic. -/
def drivenModes : List ModeType :=
  [.panicMode, .manualMode, .yawControlMode, .fullControlMode, .rawMode, .terminateMode]

/-- The value is one of those modes. -/
def Driven (mode : UInt8) : Prop :=
  ∃ m ∈ drivenModes, mode = m.toByte

instance (mode : UInt8) : Decidable (Driven mode) :=
  inferInstanceAs (Decidable (∃ m ∈ drivenModes, _))

/-- The value is not, and not `SAFE_MODE` : the rotors keep their speed. -/
def Undriven (mode : UInt8) : Prop :=
  ¬Driven mode ∧ mode ≠ ModeType.safeMode

instance (mode : UInt8) : Decidable (Undriven mode) :=
  inferInstanceAs (Decidable (_ ∧ _))

namespace Drone

/-- All four rotors and all four motors are stopped. -/
def RotorsStopped (d : Drone) : Prop :=
  ∀ i, d.ae i = 0 ∧ d.motor i = 0

/-- A tick in a mode that does not drive the rotors leaves them stopped. -/
def TickStops (d : Drone) (sensors : Sensors) : Prop :=
  ¬Driven d.currentMode → (d.controlTick sensors).1.RotorsStopped

theorem rotorsStopped_controlTick_iff (d : Drone) (sensors : Sensors) :
    (d.controlTick sensors).1.RotorsStopped ↔ ∀ i, (d.controlTick sensors).1.ae i = 0 := by
  refine forall_congr' fun i => and_iff_left_of_imp fun h => ?_
  rw [controlTick_motor, h]
  rfl

/-- A tick in `SAFE_MODE` stops the rotors. -/
theorem controlTick_safe {d : Drone} (h : d.currentMode = ModeType.safeMode) (sensors : Sensors)
    (i : Fin 4) : (d.controlTick sensors).1.ae i = 0 := by
  rw [controlTick_ae, modeCase, modeCase_of (d := { d with sensors }) h]
  rfl

/-- A tick in a mode that drives no rotor keeps their speeds. -/
theorem controlTick_undriven {d : Drone} (h : Undriven d.currentMode) (sensors : Sensors) :
    (d.controlTick sensors).1.ae = d.ae := by
  obtain ⟨hdriven, hsafe⟩ := h
  have hmem (m : ModeType) (hm : m ∈ drivenModes) : d.currentMode ≠ m := fun he =>
    hdriven ⟨m, hm, he⟩
  rw [controlTick_ae, modeCase]
  cases hcase : ModeType.ofByte? d.currentMode with
  | none => rfl
  | some m =>
    have hm := ModeType.ofByte?_eq_some.1 hcase
    cases m with
    | safeMode => exact absurd hm hsafe
    | calibrationMode =>
      simp only [calibrationMode]
      split_ifs <;> rfl
    | heightControlMode | wirelessMode => rfl
    | panicMode | manualMode | yawControlMode | fullControlMode | rawMode | terminateMode =>
      exact absurd hm (hmem _ (by decide))

/-- The event is no tick in a mode that does not drive the rotors, or one that leaves them
stopped. -/
def TickStopped (d : Drone) : DroneEvent → Prop
  | .control sensors => d.TickStops sensors
  | _ => True

/-- The event is no request for an undriven mode that arrives while a rotor runs. -/
def StoredStopped (d : Drone) : DroneEvent → Prop
  | .message receiveBuffer _ =>
    ∀ mode ∈ receiveBuffer.storedMode, Undriven mode → ∀ i, d.ae i = 0
  | _ => True

/-- There is a control tick before the mode changes. -/
def Ticked (d : Drone) : List DroneEvent → Prop
  | [] => False
  | .control _ :: _ => True
  | e :: es =>
    (droneLoop.next d e).currentMode = d.currentMode ∧ Ticked (droneLoop.next d e) es

/-- The rotors are stopped in an undriven mode that is ticked. -/
def Idle (d : Drone) (es : List DroneEvent) : Prop :=
  Undriven d.currentMode → d.Ticked es → ∀ i, d.ae i = 0

theorem not_undriven_safe : ¬Undriven ModeType.safeMode := by
  decide

theorem not_undriven_panic : ¬Undriven ModeType.panicMode := by
  decide

/-- A tick of an idle drone stops the rotors unless its mode drives them. -/
theorem Idle.tickStops {d : Drone} {sensors : Sensors} {es : List DroneEvent}
    (h : d.Idle (.control sensors :: es)) : d.TickStops sensors := by
  intro hdriven
  rw [rotorsStopped_controlTick_iff]
  intro i
  by_cases hsafe : d.currentMode = ModeType.safeMode
  · exact controlTick_safe hsafe sensors i
  · rw [controlTick_undriven ⟨hdriven, hsafe⟩]
    exact h ⟨hdriven, hsafe⟩ trivial i

/-- The tick that comes first shows that the rotors were stopped. -/
theorem ae_of_along {d : Drone} {es : List DroneEvent} (h : droneLoop.Along TickStopped d es)
    (hmode : Undriven d.currentMode) (hticked : d.Ticked es) (i : Fin 4) : d.ae i = 0 := by
  induction es generalizing d with
  | nil => exact hticked.elim
  | cons e es ih =>
    rw [Machine.along_cons] at h
    cases e with
    | control sensors =>
      have hstop := h.1 hmode.1
      rw [rotorsStopped_controlTick_iff, controlTick_undriven hmode] at hstop
      exact hstop i
    | message receiveBuffer now =>
      obtain ⟨hsame, hrest⟩ := hticked
      rw [← d.acceptMessage_ae receiveBuffer now]
      exact ih h.2 (hsame.symm ▸ hmode) hrest
    | timer batVolt now =>
      obtain ⟨hsame, hrest⟩ := hticked
      rw [← d.checkTimer_ae batVolt now]
      exact ih h.2 (hsame.symm ▸ hmode) hrest

/-- An idle drone goes on so if a request that is ticked arrives with the rotors stopped. -/
theorem Idle.next {d : Drone} {e : DroneEvent} {es : List DroneEvent} (h : d.Idle (e :: es))
    (he : (droneLoop.next d e).Ticked es → d.StoredStopped e) : (droneLoop.next d e).Idle es := by
  intro hmode hticked i
  cases e with
  | control sensors =>
    simp only [droneLoop] at hmode ⊢
    rcases controlTick_mode_cases sensors d with hsame | ⟨-, hsafe, -⟩ | ⟨-, hpanic⟩
    · rw [hsame] at hmode
      rw [controlTick_undriven hmode]
      exact h hmode trivial i
    · exact absurd (hsafe ▸ hmode) not_undriven_safe
    · exact absurd (hpanic ▸ hmode) not_undriven_panic
  | message receiveBuffer now =>
    simp only [droneLoop, acceptMessage_currentMode] at hmode
    simp only [droneLoop, acceptMessage_ae]
    cases hstored : receiveBuffer.storedMode with
    | none =>
      rw [hstored] at hmode
      have hsame : (droneLoop.next d (.message receiveBuffer now)).currentMode = d.currentMode :=
        (d.acceptMessage_currentMode receiveBuffer now).trans (by rw [hstored]; rfl)
      exact h hmode ⟨hsame, hticked⟩ i
    | some mode =>
      rw [hstored] at hmode
      exact he hticked mode hstored hmode i
  | timer batVolt now =>
    simp only [droneLoop, checkTimer_ae]
    rcases d.checkTimer_mode_cases batVolt now with hsame | hpanic
    · exact h (hsame ▸ hmode) ⟨hsame, hticked⟩ i
    · exact absurd (hpanic ▸ hmode) not_undriven_panic

/-- The ticks stop the rotors if the requests that are ticked arrive with the rotors stopped. -/
theorem along_tickStopped {d : Drone} {es : List DroneEvent} (hd : d.Idle es)
    (h : ∀ pre e post, es = pre ++ e :: post → (droneLoop.run d (pre ++ [e])).Ticked post →
      (droneLoop.run d pre).StoredStopped e) : droneLoop.Along TickStopped d es := by
  induction es generalizing d with
  | nil => trivial
  | cons e es ih =>
    have hnext := hd.next (h [] e es rfl)
    refine ⟨?_, ih hnext fun pre e' post hes => h (e :: pre) e' post (congrArg (e :: ·) hes)⟩
    cases e with
    | control sensors => exact hd.tickStops
    | message | timer => trivial

/-- Every control tick that a run from power-up makes in a mode that does not drive the rotors
leaves them stopped, iff every request for an undriven mode that is ticked before the mode
changes again is accepted with the rotors stopped. -/
theorem rotorsStopped_iff (now : UInt32) (es : List DroneEvent) :
    droneLoop.Along TickStopped (powerUp now) es ↔
      ∀ pre e post, es = pre ++ e :: post →
        (droneLoop.run (powerUp now) (pre ++ [e])).Ticked post →
          (droneLoop.run (powerUp now) pre).StoredStopped e := by
  constructor
  · rintro h pre e post rfl hticked
    rw [Machine.along_append, Machine.along_cons] at h
    rw [Machine.run_append] at hticked
    cases e with
    | control | timer => trivial
    | message receiveBuffer now' =>
      intro mode hmode hundriven i
      set d := droneLoop.run (powerUp now) pre
      have hnext : (d.acceptMessage receiveBuffer now').1.currentMode = mode :=
        (d.acceptMessage_currentMode receiveBuffer now').trans (by rw [hmode]; rfl)
      rw [← d.acceptMessage_ae receiveBuffer now']
      exact ae_of_along h.2.2 (hnext.symm ▸ hundriven) hticked i
  · exact along_tickStopped fun _ _ _ => rfl

/-- With the sticks at rest but the lift up, a request for `CALIBRATION_MODE` in
`MANUAL_MODE` leaves the rotors running. -/
theorem not_tickStopped_calibration :
    ¬∀ (now : UInt32) (es : List DroneEvent), droneLoop.Along TickStopped (powerUp now) es := by
  intro h
  let stale : Message := Vector.replicate sizeofMessage 0
  let es : List DroneEvent :=
    [.message ((Msg.inputData 0 0 0 0).received stale) 0,
      .message ((Msg.setMode ModeType.manualMode).received stale) 0, .control .zero,
      .message ((Msg.setMode ModeType.calibrationMode).received stale) 0]
  have hmode : ¬Driven (droneLoop.run (powerUp 0) es).currentMode := by decide +kernel
  have hae : ¬(((droneLoop.run (powerUp 0) es).controlTick .zero).1.ae 0 = 0) := by
    decide +kernel
  have hticks := h 0 (es ++ [.control .zero])
  rw [Machine.along_append, Machine.along_cons] at hticks
  exact hae (hticks.2.1 hmode 0).1

end Drone

end Quadrupel
