import Quadrupel.Integrator
import Quadrupel.Run
import Quadrupel.Saturation

/-!
# The filter of RAW_MODE

`RAW_MODE` integrates the gyroscope for two axes, on ticks without end, and checks no
bounds. The code of an axis is an `Integrator`, except that every result wraps. While
the rate is within 1024 the state stays inside the envelope `kalmanEnvelope`, whose
largest bias is 320, and there no result of the filter wraps. The torque and the speeds
fit too if the gain `p1` is at most 7 and 5 (`rawFilter_fits`).

The pitch axis divides the gyroscope by 32, so its rate is always that small. The roll
axis takes it as it is, and a fast rotation wraps its angle (`not_neverOverflows`).
-/

namespace Quadrupel

/-! ## The envelope of the filter -/

/-- `P2PHI` and `P2THETA`. -/
def p2phi : ℤ :=
  268

/-- `C1_p` and `C1_t`. -/
def c1 : ℤ :=
  1000

/-- `C2_p` and `C2_t`. -/
def c2 : ℤ :=
  1000000

theorem p2phi_pos : 0 < p2phi := by
  decide

theorem c1_pos : 0 < c1 := by
  decide

theorem c2_pos : 0 < c2 := by
  decide

/-- The filter of an axis. -/
def kalmanFilter : Integrator where
  gain := p2phi
  leak := c1
  scale := c2
  gain_pos := p2phi_pos
  leak_pos := c1_pos
  scale_pos := c2_pos

/-- How the largest overshoot grows as the bias moves up by one. -/
def climb (p : ℕ × ℕ) : ℕ × ℕ :=
  -- a thousandth leaks off; a unit of the bias costs 999 * 268
  (p.1 + 1, max 65536 ((999 * p.2 + 91899342 - 267732 * p.1) / 1000))

/-- The largest overshoot at a bias of `k - 320`. -/
def overshoot (k : ℕ) : ℕ :=
  (climb^[k] (0, 65536)).2

theorem climb_iterate_fst (k : ℕ) : (climb^[k] (0, 65536)).1 = k := by
  induction k with
  | zero => rfl
  | succ k ih => rw [Function.iterate_succ_apply', climb, ih]

theorem overshoot_succ (k : ℕ) :
    overshoot (k + 1) = max 65536 ((999 * overshoot k + 91899342 - 267732 * k) / 1000) := by
  rw [overshoot, Function.iterate_succ_apply', climb, climb_iterate_fst, overshoot]

theorem le_overshoot (k : ℕ) : 65536 ≤ overshoot k := by
  cases k with
  | zero => exact le_rfl
  | succ k =>
    rw [overshoot_succ]
    exact le_max_left _ _

theorem overshoot_table :
    ∀ p ∈ List.iterate climb (0, 65536) 641, p.2 ≤ 12981683 ∧ (p.1 = 640 → p.2 ≤ 79000) := by
  decide +kernel

theorem overshoot_mem {k : ℕ} (hk : k ≤ 640) :
    (k, overshoot k) ∈ List.iterate climb (0, 65536) 641 := by
  refine List.mem_iterate.2 ⟨k, by omega, Prod.ext ?_ rfl⟩
  exact (climb_iterate_fst k).symm

theorem overshoot_le {k : ℕ} (hk : k ≤ 640) : overshoot k ≤ 12981683 :=
  (overshoot_table _ (overshoot_mem hk)).1

theorem threshold_kalmanFilter : kalmanFilter.threshold = 268000000 :=
  rfl

theorem overshoot_step (k : ℕ) :
    (kalmanFilter.leak - 1) * (kalmanFilter.threshold - 32768 + (overshoot k : ℤ) +
        (1024 - (k - (320 : ℕ))) * kalmanFilter.gain) + 32768 + kalmanFilter.leak - 1 ≤
      kalmanFilter.leak * (kalmanFilter.threshold - 32768 + (overshoot (k + 1) : ℤ)) := by
  have hleak : kalmanFilter.leak = 1000 := rfl
  have hgain : kalmanFilter.gain = 268 := rfl
  have hsucc := overshoot_succ k
  rw [threshold_kalmanFilter, hleak, hgain]
  omega

theorem overshoot_stop :
    (kalmanFilter.leak - 1) * (kalmanFilter.threshold - 32768 + (overshoot (2 * 320) : ℤ) +
        (1024 - (320 : ℕ)) * kalmanFilter.gain) + 32768 + kalmanFilter.leak - 1 <
      kalmanFilter.leak * (kalmanFilter.threshold - 32768) := by
  have hleak : kalmanFilter.leak = 1000 := rfl
  have hgain : kalmanFilter.gain = 268 := rfl
  have hlast := (overshoot_table _ (overshoot_mem (k := 2 * 320) le_rfl)).2 rfl
  rw [threshold_kalmanFilter, hleak, hgain]
  omega

theorem overshoot_lt_threshold (k : ℕ) (hk : k ≤ 2 * 320) :
    (overshoot k : ℤ) < kalmanFilter.threshold := by
  have := overshoot_le hk
  rw [threshold_kalmanFilter]
  omega

/-- The envelope for rates up to 1024. -/
def kalmanEnvelope : kalmanFilter.Envelope 1024 32768 where
  top := 320
  overshoot k := overshoot k
  two_references_le k := Int.ofNat_le.2 (le_overshoot k)
  overshoot_lt := overshoot_lt_threshold
  step k _ := overshoot_step k
  stop := overshoot_stop

/-! ## The expressions of an axis -/

/-- The axis of `phi_kalman`, and the one of `theta_kalman`. -/
inductive FilterAxis
  | pitch | roll

/-- The variables that the code of an axis reads : the sticks, the gains, the sensor
values and the state of the filter. -/
inductive FilterOperand
  | liftdata | stick | p1 | p2 | gyro | accel | kalman | bias

namespace FilterAxis

open IntExpr FilterOperand

/-- The state of the filter of an axis. -/
def state (k : Kalman) : FilterAxis → Integrator.State
  | pitch => ⟨k.phiKalman, k.pitchBias⟩
  | roll => ⟨k.thetaKalman, k.rollBias⟩

/-- What a variable of an axis holds. -/
def operand (d : Drone) (a : FilterAxis) : FilterOperand → ℤ
  | liftdata => d.liftdata.toInt
  | stick =>
    match a with
    | pitch => d.rolldata.toInt
    | roll => d.pitchdata.toInt
  | p1 => d.p1.toInt
  | p2 => d.p2.toInt
  | gyro =>
    match a with
    | pitch => d.sensors.sp.toInt
    | roll => d.sensors.sq.toInt
  | accel =>
    match a with
    | pitch => d.sensors.say.toInt
    | roll => d.sensors.sax.toInt
  | kalman => (a.state d.kalman).angle
  | bias => (a.state d.kalman).bias

/-- `sp_small`, and `sq` as it is. -/
def rate : FilterAxis → IntExpr FilterOperand
  | pitch => .div (var gyro) 32
  | roll => var gyro

/-- `say_small`, and `sax` as it is. -/
def reference : FilterAxis → IntExpr FilterOperand
  | pitch => .div (var accel) 32
  | roll => var accel

/-- `pitch` and `roll`. -/
def corrected (a : FilterAxis) : IntExpr FilterOperand :=
  a.rate - var bias

/-- The first assignment to `phi_kalman` and `theta_kalman`. -/
def integrated (a : FilterAxis) : IntExpr FilterOperand :=
  var kalman + a.corrected * 268

/-- The second one. -/
def leaked (a : FilterAxis) : IntExpr FilterOperand :=
  a.integrated - .div (a.integrated - a.reference) 1000

/-- `pitch_bias` and `roll_bias`. -/
def newBias (a : FilterAxis) : IntExpr FilterOperand :=
  var bias + .div (.div (a.leaked - a.reference) 268) 1000000

/-- `roll_setpoint` and `pitch_setpoint`. -/
def setpoint : IntExpr FilterOperand :=
  (var stick + 127 * 2) * 2

/-- `K_s_p` and `K_s_t`. -/
def torque (a : FilterAxis) : IntExpr FilterOperand :=
  var p1 * (setpoint - a.leaked) - var p2 * a.corrected

/-- Their last assignment. -/
def scaled (a : FilterAxis) : IntExpr FilterOperand :=
  .div a.torque 50000

/-- The axis that a rotor belongs to. -/
def axisOf : Fin 4 → FilterAxis :=
  ![pitch, roll, pitch, roll]

/-- The speeds of the rotors. -/
def speed : Fin 4 → IntExpr FilterOperand :=
  ![Expr.liftSetpoint liftdata + pitch.scaled,
    Expr.liftSetpoint liftdata - roll.scaled,
    Expr.liftSetpoint liftdata - pitch.scaled,
    Expr.liftSetpoint liftdata + roll.scaled]

/-- No result of the filter leaves the range of an `int` : all are parts of the last. -/
def FilterFits (a : FilterAxis) (d : Drone) : Prop :=
  a.newBias.Fits int32 (a.operand d)

/-- No result of the torque does, before or after the division. -/
def TorqueFits (a : FilterAxis) (d : Drone) : Prop :=
  a.scaled.Fits int32 (a.operand d)

/-- No result of the speeds of the two rotors does, and they fit in an `int16_t`. -/
def SpeedsFit (a : FilterAxis) (d : Drone) : Prop :=
  ∀ i, axisOf i = a → (speed i).Fits int32 (a.operand d) ∧ (speed i).value (a.operand d) ∈ int16

/-- The rate of the axis is in the range of a gyroscope value divided by 32. -/
def InRange (s : Sensors) : FilterAxis → Prop
  | pitch => True
  | roll => |s.sq.toInt| ≤ 1024

/-! ## The intervals -/

/-- What the variables hold inside the envelope, for a gain in the interval. -/
def box (gain : Interval) : FilterAxis → FilterOperand → Interval
  | _, liftdata | _, stick | _, p2 => int8
  | _, p1 => gain
  | pitch, gyro => int16
  | roll, gyro => ⟨-1024, 1024⟩
  | _, accel => int16
  | _, kalman => ⟨-280948915, 280948915⟩
  | _, bias => ⟨-320, 320⟩

theorem operand_mem {a : FilterAxis} {d : Drone} {gain : Interval}
    (hin : kalmanEnvelope.Inside (a.state d.kalman)) (hrange : a.InRange d.sensors)
    (hgain : d.p1.toInt ∈ gain) (v : FilterOperand) : a.operand d v ∈ a.box gain v := by
  have hangle : |(a.state d.kalman).angle| ≤ 280948915 :=
    hin.angle_le fun k hk => Int.ofNat_le.2 (overshoot_le hk)
  have hbias : |(a.state d.kalman).bias| ≤ 320 := hin.bias_le
  cases v with
  | liftdata | p2 => cases a <;> exact toInt_mem_int8 _
  | stick => cases a <;> exact toInt_mem_int8 _
  | p1 => cases a <;> exact hgain
  | gyro =>
    cases a with
    | pitch => exact toInt_mem_int16 _
    | roll => exact abs_le.1 hrange
  | accel => cases a <;> exact toInt_mem_int16 _
  | kalman => cases a <;> exact abs_le.1 hangle
  | bias => cases a <;> exact abs_le.1 hbias

theorem newBias_within (a : FilterAxis) : a.newBias.Within int32 (a.box int8) := by
  cases a <;> decide +kernel

theorem scaled_within (a : FilterAxis) : a.scaled.Within int32 (a.box ⟨0, 7⟩) := by
  cases a <;> decide +kernel

theorem speed_within (i : Fin 4) :
    (speed i).Within int32 ((axisOf i).box ⟨0, 5⟩) ∧
      ((speed i).bounds ((axisOf i).box ⟨0, 5⟩)).Within int16 := by
  fin_cases i <;> decide +kernel

theorem rate_within (a : FilterAxis) : (a.rate.bounds (a.box int8)).Within ⟨-1024, 1024⟩ := by
  cases a <;> decide +kernel

theorem reference_within (a : FilterAxis) :
    (a.reference.bounds (a.box int8)).Within ⟨-32768, 32768⟩ := by
  cases a <;> decide +kernel

/-! ## The filter of the model -/

theorem filterFits_of_inside {a : FilterAxis} {d : Drone}
    (hin : kalmanEnvelope.Inside (a.state d.kalman)) (hrange : a.InRange d.sensors) :
    a.FilterFits d :=
  fits_of_within (operand_mem hin hrange (toInt_mem_int8 _)) a.newBias_within

/-- The corrected rate that the filter leaves. -/
def correctedOf (k : Kalman) : FilterAxis → ℤ
  | pitch => k.pitch
  | roll => k.roll

/-- The model's filter, for both axes. -/
theorem state_rawFilter_eq (a : FilterAxis) (d : Drone) :
    a.state d.rawFilter =
      let integrated := i32 ((a.state d.kalman).angle + a.correctedOf d.rawFilter * 268)
      let leaked :=
        i32 (integrated - (i32 (integrated - a.reference.value (a.operand d))).tdiv 1000)
      ⟨leaked, i32 ((a.state d.kalman).bias +
        ((i32 (leaked - a.reference.value (a.operand d))).tdiv 268).tdiv 1000000)⟩ := by
  cases a <;> rfl

theorem correctedOf_rawFilter_eq (a : FilterAxis) (d : Drone) :
    a.correctedOf d.rawFilter = i32 (a.corrected.value (a.operand d)) := by
  cases a <;> rfl

section

variable {a : FilterAxis} {d : Drone} (h : a.FilterFits d)

include h

/-- What the filter computes on the way. -/
theorem FilterFits.parts :
    a.corrected.Fits int32 (a.operand d) ∧ a.integrated.Fits int32 (a.operand d) ∧
      (a.integrated - a.reference).Fits int32 (a.operand d) ∧ a.leaked.Fits int32 (a.operand d) ∧
      (a.leaked - a.reference).Fits int32 (a.operand d) := by
  have hdrift := (fits_div.1 (fits_div.1 (fits_add.1 h).2.2).2).2
  have hleaked := (fits_sub.1 hdrift).2.1
  have hintegrated := (fits_sub.1 hleaked).2.1
  have hleak := (fits_div.1 (fits_sub.1 hleaked).2.2).2
  have hcorrected := (fits_mul.1 (fits_add.1 hintegrated).2.2).2.1
  exact ⟨hcorrected, hintegrated, hleak, hleaked, hdrift⟩

/-- What fits does not wrap : the corrected rate of the model. -/
theorem correctedOf_rawFilter : a.correctedOf d.rawFilter = a.corrected.value (a.operand d) := by
  rw [correctedOf_rawFilter_eq, i32_of_mem h.parts.1.value_mem]

/-- The state of the model's filter. -/
theorem state_rawFilter :
    a.state d.rawFilter = ⟨a.leaked.value (a.operand d), a.newBias.value (a.operand d)⟩ := by
  obtain ⟨-, hintegrated, hleak, hleaked, hdrift⟩ := h.parts
  have hintegrated' : i32 ((a.state d.kalman).angle + a.corrected.value (a.operand d) * 268) =
      a.integrated.value (a.operand d) := i32_of_mem hintegrated.value_mem
  have hleak' : i32 (a.integrated.value (a.operand d) - a.reference.value (a.operand d)) =
      (a.integrated - a.reference).value (a.operand d) := i32_of_mem hleak.value_mem
  have hleaked' : i32 (a.integrated.value (a.operand d) -
      ((a.integrated - a.reference).value (a.operand d)).tdiv 1000) =
      a.leaked.value (a.operand d) := i32_of_mem hleaked.value_mem
  have hdrift' : i32 (a.leaked.value (a.operand d) - a.reference.value (a.operand d)) =
      (a.leaked - a.reference).value (a.operand d) := i32_of_mem hdrift.value_mem
  rw [state_rawFilter_eq, correctedOf_rawFilter h]
  simp only [hintegrated', hleak', hleaked', hdrift']
  exact congrArg _ (i32_of_mem h.value_mem)

/-- The speeds that fit are the ones of the model. -/
theorem rawSpeed_rawFilter (htorque : a.TorqueFits d) {i : Fin 4} (hi : axisOf i = a) :
    d.rawSpeed d.rawFilter i = (speed i).value (a.operand d) := by
  have hangle := congrArg Integrator.State.angle (state_rawFilter h)
  have hwrap : i32 (a.torque.value (a.operand d)) = a.torque.value (a.operand d) :=
    i32_of_mem (fits_div.1 htorque).2.value_mem
  have hscaled : (i32 (d.p1.toInt * ((a.operand d stick + 127 * 2) * 2 -
      (a.state d.rawFilter).angle) - d.p2.toInt * a.correctedOf d.rawFilter)).tdiv 50000 =
      a.scaled.value (a.operand d) := by
    rw [hangle, correctedOf_rawFilter h]
    exact congrArg (Int.tdiv · 50000) hwrap
  subst hi
  fin_cases i
  · exact congrArg (d.liftSetpoint + ·) hscaled
  · exact congrArg (d.liftSetpoint - ·) hscaled
  · exact congrArg (d.liftSetpoint - ·) hscaled
  · exact congrArg (d.liftSetpoint + ·) hscaled

end

theorem next_kalmanFilter (a : FilterAxis) (d : Drone) :
    kalmanFilter.next (a.rate.value (a.operand d)) (a.reference.value (a.operand d))
        (a.state d.kalman) =
      ⟨a.leaked.value (a.operand d), a.newBias.value (a.operand d)⟩ :=
  rfl

/-- A tick of the filter stays inside the envelope. -/
theorem inside_rawFilter {a : FilterAxis} {d : Drone}
    (hin : kalmanEnvelope.Inside (a.state d.kalman)) (hrange : a.InRange d.sensors) :
    kalmanEnvelope.Inside (a.state d.rawFilter) := by
  have hbox := operand_mem hin hrange (toInt_mem_int8 _)
  have hrate := a.rate_within.mem (value_mem_bounds hbox a.rate)
  have hreference := a.reference_within.mem (value_mem_bounds hbox a.reference)
  rw [state_rawFilter (filterFits_of_inside hin hrange), ← next_kalmanFilter]
  exact hin.next (abs_le.2 hrate) (abs_le.2 hreference)

/-- The speeds that fit are the ones the rotors get. -/
theorem ae_rawMode {a : FilterAxis} {d : Drone} (hlift : d.liftdata ≠ -127)
    (hfilter : a.FilterFits d) (htorque : a.TorqueFits d) (hspeeds : a.SpeedsFit d) {i : Fin 4}
    (hi : axisOf i = a) : (d.rawMode.ae i).toInt = (speed i).value (a.operand d) := by
  rw [Drone.rawMode_ae hlift, rawSpeed_rawFilter hfilter htorque hi,
    toInt_ofInt_of_mem (hspeeds i hi).2]

end FilterAxis

/-! ## Runs of RAW_MODE -/

/-- What a tick of `RAW_MODE` finds : the sensor values, the sticks and the gains. -/
structure RawTick where
  sensors : Sensors
  liftdata : Int8
  rolldata : Int8
  pitchdata : Int8
  yawdata : Int8
  p1 : Int8
  p2 : Int8
deriving DecidableEq

namespace RawTick

/-- The drone at the tick. -/
def apply (t : RawTick) (d : Drone) : Drone :=
  { d with
    sensors := t.sensors
    liftdata := t.liftdata
    rolldata := t.rolldata
    pitchdata := t.pitchdata
    yawdata := t.yawdata
    p1 := t.p1
    p2 := t.p2 }

end RawTick

/-- The machine that runs the control loop on ticks. -/
def rawTicks : Machine Drone RawTick Unit where
  next d t := (t.apply d).runFiltersAndControl.1
  out _ _ := ()

/-- The drone is in `RAW_MODE`, with the filter of the axis inside the envelope. -/
def InEnvelope (a : FilterAxis) (d : Drone) : Prop :=
  d.currentMode = ModeType.rawMode ∧ kalmanEnvelope.Inside (a.state d.kalman)

theorem runFiltersAndControl_raw {d : Drone} (h : d.currentMode = ModeType.rawMode) :
    d.runFiltersAndControl.1.currentMode = ModeType.rawMode ∧
      d.runFiltersAndControl.1.kalman = (if d.liftdata = -127 then d.kalman else d.rawFilter) ∧
      d.runFiltersAndControl.1.ae = d.rawMode.ae := by
  have hcase : d.modeCase.1 = d.rawMode := by
    rw [Drone.modeCase, Drone.modeCase_of h]
  have hmode : d.rawMode.currentMode = d.currentMode := d.setRotors_currentMode _ _
  refine ⟨?_, ?_, ?_⟩
  · change d.modeCase.1.currentMode = _
    rw [hcase, hmode, h]
  · change d.modeCase.1.kalman = _
    rw [hcase]
    rfl
  · change d.modeCase.1.ae = _
    rw [hcase]

/-- A tick keeps the filter inside the envelope. -/
theorem InEnvelope.next {a : FilterAxis} {d : Drone} (h : InEnvelope a d) {t : RawTick}
    (ht : a.InRange t.sensors) : InEnvelope a (rawTicks.next d t) := by
  obtain ⟨hmode, hin⟩ := h
  obtain ⟨hmode', hkalman, -⟩ := runFiltersAndControl_raw (d := t.apply d) hmode
  refine ⟨hmode', ?_⟩
  change kalmanEnvelope.Inside (a.state (t.apply d).runFiltersAndControl.1.kalman)
  rw [hkalman]
  split_ifs
  · exact hin
  · exact FilterAxis.inside_rawFilter (d := t.apply d) hin ht

/-- From the initial filter state the ticks stay inside the envelope. -/
theorem inEnvelope_run {a : FilterAxis} {d : Drone} (hmode : d.currentMode = ModeType.rawMode)
    (hkalman : d.kalman = ⟨0, 0, 0, 0, 0, 0⟩) {ts : List RawTick}
    (hts : ∀ t ∈ ts, a.InRange t.sensors) : InEnvelope a (rawTicks.run d ts) := by
  have hstart : kalmanEnvelope.Inside (a.state d.kalman) := by
    have hzero : a.state d.kalman = ⟨0, 0⟩ := by
      rw [hkalman]
      cases a <;> rfl
    have hpos : 0 ≤ kalmanFilter.threshold - 32768 + (overshoot 320 : ℤ) := by
      rw [threshold_kalmanFilter]
      omega
    rw [hzero]
    exact ⟨320, 320, rfl, rfl, hpos, hpos⟩
  have halong : rawTicks.Along (fun _ t => a.InRange t.sensors) d ts :=
    (rawTicks.along_iff _ _ _).2 fun pre t post hsplit => hts t (by simp [hsplit])
  exact rawTicks.run_invariant (fun _ _ h ht => h.next ht) ⟨hmode, hstart⟩ halong

/-- The filter never wraps while the rates are in range, and its torque and the speeds
fit for gains up to 7 and 5. -/
theorem rawFilter_fits {d : Drone} (hmode : d.currentMode = ModeType.rawMode)
    (hkalman : d.kalman = ⟨0, 0, 0, 0, 0, 0⟩) (a : FilterAxis) (ts : List RawTick) (t : RawTick)
    (hrange : ∀ s ∈ t :: ts, a.InRange s.sensors) :
    a.FilterFits (t.apply (rawTicks.run d ts)) ∧
      (0 ≤ t.p1.toInt → t.p1.toInt ≤ 7 → a.TorqueFits (t.apply (rawTicks.run d ts))) ∧
      (0 ≤ t.p1.toInt → t.p1.toInt ≤ 5 → a.SpeedsFit (t.apply (rawTicks.run d ts)) ∧
        (t.liftdata ≠ -127 → ∀ i, FilterAxis.axisOf i = a →
          ((rawTicks.run d (ts ++ [t])).ae i).toInt =
            (FilterAxis.speed i).value (a.operand (t.apply (rawTicks.run d ts))))) := by
  rw [List.forall_mem_cons] at hrange
  obtain ⟨hmode', hin⟩ := inEnvelope_run hmode hkalman hrange.2
  have hfilter : a.FilterFits (t.apply (rawTicks.run d ts)) :=
    FilterAxis.filterFits_of_inside hin hrange.1
  have hbox {gain : Interval} (hgain : t.p1.toInt ∈ gain) (v : FilterOperand) :
      a.operand (t.apply (rawTicks.run d ts)) v ∈ a.box gain v :=
    FilterAxis.operand_mem (d := t.apply (rawTicks.run d ts)) hin hrange.1 hgain v
  have htorque (hlo : 0 ≤ t.p1.toInt) (hhi : t.p1.toInt ≤ 7) :
      a.TorqueFits (t.apply (rawTicks.run d ts)) :=
    IntExpr.fits_of_within (hbox ⟨hlo, hhi⟩) a.scaled_within
  refine ⟨hfilter, htorque, fun hlo hhi => ?_⟩
  have hspeeds : a.SpeedsFit (t.apply (rawTicks.run d ts)) := by
    rintro i rfl
    exact ⟨IntExpr.fits_of_within (hbox ⟨hlo, hhi⟩) (FilterAxis.speed_within i).1,
      (FilterAxis.speed_within i).2.mem (IntExpr.value_mem_bounds (hbox ⟨hlo, hhi⟩) _)⟩
  refine ⟨hspeeds, fun hlift i hi => ?_⟩
  have hae : (rawTicks.run d (ts ++ [t])).ae = (t.apply (rawTicks.run d ts)).rawMode.ae := by
    rw [Machine.run_append]
    exact (runFiltersAndControl_raw (d := t.apply (rawTicks.run d ts)) hmode').2.2
  rw [hae]
  exact FilterAxis.ae_rawMode hlift hfilter (htorque hlo (by omega)) hspeeds hi

/-- A tick with the sticks in the middle. -/
def rotationTick (sp sq : Int16) (p1 : Int8) : RawTick :=
  ⟨{ Sensors.zero with sp, sq }, 0, 0, 0, 0, p1, 0⟩

/-- The drone as `RAW_MODE` finds it. -/
def rawStart : Drone :=
  { Drone.powerUp 0 with currentMode := ModeType.rawMode }

/-- The roll axis at the end of its range, and back. -/
theorem rawFilter_fits_rotation :
    let d := (rotationTick 0 1024 5).apply
      (rawTicks.run rawStart (List.replicate 1000 (rotationTick 0 (-1024) 5)))
    FilterAxis.roll.FilterFits d ∧ FilterAxis.roll.TorqueFits d ∧ FilterAxis.roll.SpeedsFit d := by
  have hrange : ∀ s ∈ rotationTick 0 1024 5 :: List.replicate 1000 (rotationTick 0 (-1024) 5),
      FilterAxis.roll.InRange s.sensors := by
    intro s hs
    rcases List.mem_cons.1 hs with rfl | hs
    · exact abs_le.2 (by decide)
    · cases List.eq_of_mem_replicate hs
      exact abs_le.2 (by decide)
  obtain ⟨hfilter, htorque, hspeeds⟩ := rawFilter_fits (d := rawStart) rfl rfl .roll
    (List.replicate 1000 (rotationTick 0 (-1024) 5)) (rotationTick 0 1024 5) hrange
  exact ⟨hfilter, htorque (by decide) (by decide), (hspeeds (by decide) (by decide)).1⟩

-- With the largest gain the torque of the pitch axis wraps on the 64th tick.
example : FilterAxis.pitch.torque.value (FilterAxis.pitch.operand ((rotationTick 32767 0 127).apply
    (rawTicks.run rawStart (List.replicate 63 (rotationTick 32767 0 127))))) ∉ int32 := by
  decide +kernel

/-- The filter, the torques and the speeds never overflow, for gains from 0 on. -/
def NeverOverflows : Prop :=
  ∀ (d : Drone) (ts : List RawTick) (t : RawTick), d.currentMode = ModeType.rawMode →
    d.kalman = ⟨0, 0, 0, 0, 0, 0⟩ → (∀ s ∈ t :: ts, 0 ≤ s.p1 ∧ 0 ≤ s.p2) → t.liftdata ≠ -127 →
      ∀ a : FilterAxis, a.FilterFits (t.apply (rawTicks.run d ts)) ∧
        a.TorqueFits (t.apply (rawTicks.run d ts)) ∧ a.SpeedsFit (t.apply (rawTicks.run d ts))

/-- In a fast rotation around the roll axis `theta_kalman` wraps on the 284th tick. -/
theorem not_neverOverflows : ¬NeverOverflows := by
  intro h
  have hgains : ∀ s ∈ rotationTick 0 32767 1 :: List.replicate 283 (rotationTick 0 32767 1),
      0 ≤ s.p1 ∧ 0 ≤ s.p2 := by
    intro s hs
    obtain rfl := (List.mem_cons.1 hs).elim id List.eq_of_mem_replicate
    decide
  have hfilter := (h rawStart (List.replicate 283 (rotationTick 0 32767 1))
    (rotationTick 0 32767 1) rfl rfl hgains (by decide) .roll).1
  have hmem := hfilter.parts.2.1.value_mem
  revert hmem
  decide +kernel

end Quadrupel
