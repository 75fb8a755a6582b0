import Quadrupel.Control
import Quadrupel.Ramp

/-!
# The panic ramp

In `PANIC_MODE` the rotors follow a setpoint down to zero. A tick is a tick of the
integer `Ramp` with step 2 (`controlTick_panic`) : the `int16_t` values never leave the
interval between where they are and the setpoint, so nothing wraps. The first tick takes the
setpoint from the average of the rotors, which may be negative; after it the setpoint is
nonnegative and the ramp is within a number of ticks that the largest rotor speed gives
(`within_of_first_tick`). `panic_ramps_down` collects the step bound, the band and the
time to the end, for every run of ticks.
-/

open Set

namespace Quadrupel

/-- Ticks of the main loop with nothing else in between. -/
def controlLoop : Machine Drone Sensors (List Msg) where
  next d sensors := (d.controlTick sensors).1
  out d sensors := (d.controlTick sensors).2

namespace Drone

/-- The values that a setpoint can have. -/
abbrev SetpointRange : Set ℤ :=
  Icc (-2 ^ 15) (2 ^ 15 - 1)

/-- The ramp that a tick in `PANIC_MODE` moves. -/
def panicRamp (d : Drone) : Ramp (Fin 4) ℤ where
  setpoint := d.panicSetpoint
  level i := (d.ae i).toInt

/-- The rotors are stopped in `SAFE_MODE`, and the panic is over. -/
structure Stopped (d : Drone) : Prop where
  mode : d.currentMode = ModeType.safeMode
  ae : ∀ i, d.ae i = 0
  panic : d.inPanicMode = false

theorem toInt_mem_range (a : Int16) : a.toInt ∈ SetpointRange :=
  ⟨a.le_toInt, Int.le_sub_one_of_lt a.toInt_lt⟩

/-- The code's step is the approach of the ramp : its value never wraps. -/
theorem toInt_panicStep {s : ℤ} (hs : s ∈ SetpointRange) (a : Int16) :
    (panicStep s a).toInt = approach panicModeStepSize s a.toInt := by
  have hmem := approach_mem (δ := panicModeStepSize) (by decide) hs (toInt_mem_range a)
  unfold approach at hmem ⊢
  unfold panicStep
  split_ifs at hmem ⊢
  · exact Int16.toInt_ofInt_of_le hmem.1 (Int.lt_of_le_sub_one hmem.2)
  · exact Int16.toInt_ofInt_of_le hmem.1 (Int.lt_of_le_sub_one hmem.2)
  · rfl

theorem Stopped.controlTick {d : Drone} (h : d.Stopped) (sensors : Sensors) :
    (d.controlTick sensors).1.Stopped := by
  set e : Drone := { d with sensors } with he
  have hcase : e.modeCase = (e.safeMode, []) := by
    simp only [modeCase, modeCase_of (d := e) h.mode]
  refine ⟨?_, fun i => ?_, ?_⟩
  · rw [controlTick_currentMode, hcase]
    exact h.mode
  · rw [controlTick_ae, hcase]
    rfl
  · simp only [Drone.controlTick, runFiltersAndControl, ← he, hcase]
    exact Bool.and_eq_false_imp.2 fun hp => absurd (h.panic.symm.trans hp) (by decide)

/-- A tick in `PANIC_MODE` moves the ramp by one tick, and ends the panic if that stops
all rotors. -/
theorem controlTick_panic (sensors : Sensors) {d : Drone}
    (hmode : d.currentMode = ModeType.panicMode) (hset : d.panicSetpoint ∈ SetpointRange) :
    (∀ i, ((d.controlTick sensors).1.ae i).toInt =
        (d.panicRamp.tick panicModeStepSize).level i) ∧
      ((d.controlTick sensors).1.Stopped ∨
        (d.controlTick sensors).1.currentMode = ModeType.panicMode ∧
        (d.controlTick sensors).1.panicRamp = d.panicRamp.tick panicModeStepSize ∧
        ¬∀ i, (d.panicRamp.tick panicModeStepSize).level i = 0) := by
  set e : Drone := { d with sensors } with he
  have hcase : e.modeCase = (e.panicMode, []) := by
    simp only [modeCase, modeCase_of (d := e) hmode]
  have hsp : e.panicSetpoint = d.panicSetpoint := rfl
  have hlevel : ∀ i, ((d.controlTick sensors).1.ae i).toInt =
      (d.panicRamp.tick panicModeStepSize).level i := by
    intro i
    rw [controlTick_ae, ← he, hcase, panicMode_ae, hsp, toInt_panicStep hset]
    rfl
  refine ⟨hlevel, ?_⟩
  by_cases hz : ∀ i, panicStep e.panicSetpoint (e.ae i) = 0
  · obtain ⟨hsafe, hin⟩ := panicMode_stopped hz
    refine Or.inl ⟨?_, fun i => ?_, ?_⟩
    · rw [controlTick_currentMode, ← he, hcase, hsafe]
    · rw [controlTick_ae, ← he, hcase, panicMode_ae, hz]
    · simp only [controlTick, runFiltersAndControl, ← he, hcase, updateInState, updateMotors, hin,
        Bool.false_and]
  · obtain ⟨hrun, hin⟩ := panicMode_running hz
    have hpanic : (d.controlTick sensors).1.currentMode = ModeType.panicMode := by
      rw [controlTick_currentMode, ← he, hcase, hrun]
      exact hmode
    refine Or.inr ⟨hpanic, ?_, fun hzero => hz fun i => ?_⟩
    · have hin' : (d.controlTick sensors).1.inPanicMode = true := by
        simp only [controlTick, runFiltersAndControl, ← he, hcase, updateInState, updateMotors, hin,
          hrun, Bool.true_and]
        exact beq_iff_eq.2 hmode
      have hset' : (d.controlTick sensors).1.panicSetpoint =
          max 0 (d.panicSetpoint - panicModeStepSize) := by
        rw [panicSetpoint, if_pos hin']
        simp only [controlTick, runFiltersAndControl, ← he, hcase, updateInState, updateMotors,
          panicMode_setpoint, hsp]
      exact congrArg₂ Ramp.mk hset' (funext hlevel)
    · have h := (hlevel i).trans (hzero i)
      rw [controlTick_ae, ← he, hcase, panicMode_ae] at h
      exact Int16.toInt_inj.1 h

/-! ## The end of the ramp -/

theorem panicSetpoint_tick_mem {d d' : Drone} (hset : d.panicSetpoint ∈ SetpointRange)
    (h : d'.panicRamp = d.panicRamp.tick panicModeStepSize) : d'.panicSetpoint ∈ SetpointRange := by
  have heq : d'.panicSetpoint = max 0 (d.panicSetpoint - panicModeStepSize) :=
    congrArg Ramp.setpoint h
  rw [heq]
  have hstep : (0 : ℤ) ≤ panicModeStepSize := by decide
  exact ⟨le_max_of_le_left (by norm_num), max_le (by norm_num) (by linarith [hset.2])⟩

theorem Stopped.run {d : Drone} (h : d.Stopped) (ss : List Sensors) :
    (controlLoop.run d ss).Stopped :=
  controlLoop.run_always (fun _ s h => h.controlTick s) ss h

/-- A tick in `PANIC_MODE` that moves no rotor by more than the step size. -/
def PanicTick (d : Drone) (sensors : Sensors) : Prop :=
  d.currentMode = ModeType.panicMode ∧
    ∀ i, |((d.controlTick sensors).1.ae i).toInt - (d.ae i).toInt| ≤ panicModeStepSize

theorem panicTick (sensors : Sensors) {d : Drone} (hmode : d.currentMode = ModeType.panicMode)
    (hset : d.panicSetpoint ∈ SetpointRange) : d.PanicTick sensors := by
  refine ⟨hmode, fun i => ?_⟩
  rw [(controlTick_panic sensors hmode hset).1 i]
  exact abs_approach_sub_le (by decide) _ _

/-- A tick of a ramp, after which the rest of it takes at most `n` ticks. -/
theorem exists_ramp_cons {d : Drone} {s : Sensors} {ss : List Sensors} {n : ℕ}
    (hmode : d.currentMode = ModeType.panicMode) (hset : d.panicSetpoint ∈ SetpointRange)
    (hrest : (d.controlTick s).1.currentMode = ModeType.panicMode →
      (d.controlTick s).1.panicRamp = d.panicRamp.tick panicModeStepSize →
      ∃ ramp rest, ss = ramp ++ rest ∧ ramp.length ≤ n ∧
        controlLoop.Along PanicTick (d.controlTick s).1 ramp ∧
        (controlLoop.run (d.controlTick s).1 ramp).Stopped) :
    ∃ ramp rest, s :: ss = ramp ++ rest ∧ ramp.length ≤ n + 1 ∧
      controlLoop.Along PanicTick d ramp ∧ (controlLoop.run d ramp).Stopped := by
  have htick := panicTick s hmode hset
  rcases (controlTick_panic s hmode hset).2 with hstop | ⟨hmode', hramp, -⟩
  · exact ⟨[s], ss, rfl, Nat.le_add_left 1 _, ⟨htick, trivial⟩, hstop⟩
  · obtain ⟨ramp, rest, rfl, hlen, halong, hstop⟩ := hrest hmode' hramp
    exact ⟨s :: ramp, rest, rfl, Nat.succ_le_succ hlen, ⟨htick, halong⟩, hstop⟩

/-- A panic whose ramp is within `n` of the end takes at most `n + 1` ticks. -/
theorem exists_ramp_of_within (n : ℕ) {d : Drone} {ss : List Sensors}
    (hmode : d.currentMode = ModeType.panicMode) (hset : d.panicSetpoint ∈ SetpointRange)
    (hw : d.panicRamp.Within panicModeStepSize n) (hss : n + 1 ≤ ss.length) :
    ∃ ramp rest, ss = ramp ++ rest ∧ ramp.length ≤ n + 1 ∧ controlLoop.Along PanicTick d ramp ∧
      (controlLoop.run d ramp).Stopped := by
  induction n generalizing d ss with
  | zero =>
    cases ss with
    | nil => simp at hss
    | cons s ss =>
      rcases (controlTick_panic s hmode hset).2 with hstop | ⟨-, -, hne⟩
      · exact ⟨[s], ss, rfl, le_refl _, ⟨panicTick s hmode hset, trivial⟩, hstop⟩
      · exact absurd hw.level_tick hne
  | succ n ih =>
    cases ss with
    | nil => simp at hss
    | cons s ss =>
      refine exists_ramp_cons hmode hset fun hmode' hramp => ?_
      have hw' := hw.tick (by decide)
      rw [← hramp] at hw'
      exact ih hmode' (panicSetpoint_tick_mem hset hramp) hw' (Nat.le_of_succ_le_succ hss)

/-- A panic whose ramp is within `n` of the end is over after `n + 1` ticks. -/
theorem stopped_of_within (n : ℕ) {d : Drone} {ss : List Sensors}
    (hmode : d.currentMode = ModeType.panicMode) (hset : d.panicSetpoint ∈ SetpointRange)
    (hw : d.panicRamp.Within panicModeStepSize n) (hss : n + 1 ≤ ss.length) :
    (controlLoop.run d ss).Stopped := by
  obtain ⟨ramp, rest, rfl, -, -, hstop⟩ := exists_ramp_of_within n hmode hset hw hss
  rw [Machine.run_append]
  exact hstop.run rest

/-! ## Where the ramp starts -/

/-- The largest rotor speed, whatever its sign. -/
def peak (d : Drone) : ℕ :=
  Finset.univ.sup fun i => (d.ae i).toInt.natAbs

/-- The smallest rotor speed. -/
def lowest (d : Drone) : ℤ :=
  Finset.univ.inf' Finset.univ_nonempty fun i => (d.ae i).toInt

theorem panicSetpoint_first {d : Drone} (h : d.inPanicMode = false) :
    d.panicSetpoint = d.average := by
  rw [panicSetpoint, h]
  rfl

theorem natAbs_le_peak (d : Drone) (i : Fin 4) : (d.ae i).toInt.natAbs ≤ d.peak :=
  Finset.le_sup (f := fun i => (d.ae i).toInt.natAbs) (Finset.mem_univ i)

theorem level_mem_peak (d : Drone) (i : Fin 4) : (d.ae i).toInt ∈ Icc (-(d.peak : ℤ)) d.peak := by
  have h := d.natAbs_le_peak i
  constructor <;> omega

/-- An interval that holds every rotor holds their average. -/
theorem average_mem {d : Drone} {a b : ℤ} (h : ∀ i, (d.ae i).toInt ∈ Icc a b) :
    d.average ∈ Icc a b := by
  have h0 := h 0
  have h1 := h 1
  have h2 := h 2
  have h3 := h 3
  simp only [mem_Icc] at h0 h1 h2 h3 ⊢
  rw [average, Int.shiftRight_eq_div_pow]
  constructor <;> omega

theorem lowest_le (d : Drone) (i : Fin 4) : d.lowest ≤ (d.ae i).toInt :=
  Finset.inf'_le (fun i => (d.ae i).toInt) (Finset.mem_univ i)

/-- After the first tick the ramp is within half the largest rotor speed of the end. -/
theorem within_of_first_tick {d d' : Drone} (hin : d.inPanicMode = false)
    (h : d'.panicRamp = d.panicRamp.tick panicModeStepSize) :
    d'.panicRamp.Within panicModeStepSize ((d.peak + 1) / 2) := by
  have havg := average_mem d.level_mem_peak
  rw [h]
  have hset : d.panicRamp.setpoint = d.average := panicSetpoint_first hin
  have hstep : panicModeStepSize = 2 := rfl
  refine ⟨le_max_left _ _, ?_, fun i => ?_⟩
  · simp only [Ramp.tick, hset, hstep]
    have := havg.2
    omega
  · have hmem := approach_mem (δ := panicModeStepSize) (by decide) havg (d.level_mem_peak i)
    simp only [Ramp.tick, hset]
    change approach _ _ (d.ae i).toInt ∈ _
    rw [hstep] at hmem ⊢
    simp only [mem_Icc] at hmem ⊢
    constructor <;> omega

/-! ## Every tick -/

/-- In a panic whose ramp is in its band, or after it. -/
def Descending (lo : ℤ) (hi : Fin 4 → ℤ) (d : Drone) : Prop :=
  d.Stopped ∨ d.currentMode = ModeType.panicMode ∧ d.panicSetpoint ∈ SetpointRange ∧
    d.panicRamp.Banded lo hi

theorem Descending.ae_mem {lo : ℤ} {hi : Fin 4 → ℤ} {d : Drone} (h : d.Descending lo hi)
    (hlo : lo ≤ 0) (hhi : ∀ i, 0 ≤ hi i) (i : Fin 4) : (d.ae i).toInt ∈ Icc lo (hi i) := by
  rcases h with hstop | ⟨-, -, hband⟩
  · rw [hstop.ae i]
    exact ⟨hlo, hhi i⟩
  · exact hband.level_mem i

theorem Descending.controlTick {lo : ℤ} {hi : Fin 4 → ℤ} {d : Drone} (h : d.Descending lo hi)
    (hlo : lo ≤ 0) (hhi : ∀ i, 0 ≤ hi i) (sensors : Sensors) :
    (d.controlTick sensors).1.Descending lo hi ∧
      ∀ i, |((d.controlTick sensors).1.ae i).toInt - (d.ae i).toInt| ≤ panicModeStepSize := by
  have hstep : (0 : ℤ) ≤ panicModeStepSize := by decide
  rcases h with hstop | ⟨hmode, hset, hband⟩
  · have hnext := hstop.controlTick sensors
    refine ⟨Or.inl hnext, fun i => ?_⟩
    rw [hnext.ae i, hstop.ae i, sub_self, abs_zero]
    exact hstep
  · obtain ⟨hlevel, hnext⟩ := controlTick_panic sensors hmode hset
    refine ⟨?_, fun i => ?_⟩
    · rcases hnext with hstop | ⟨hmode', hramp, -⟩
      · exact Or.inl hstop
      · exact Or.inr ⟨hmode', panicSetpoint_tick_mem hset hramp,
          hramp ▸ hband.tick hstep hlo hhi⟩
    · rw [hlevel i]
      exact abs_approach_sub_le hstep _ _

/-- A fresh panic is in the band that the rotors and their average span with zero. -/
theorem descending_fresh {d : Drone} (hmode : d.currentMode = ModeType.panicMode)
    (hin : d.inPanicMode = false) :
    d.Descending (min 0 d.lowest) fun i => max 0 (max (d.ae i).toInt d.average) := by
  have hset := panicSetpoint_first hin
  refine Or.inr ⟨hmode, hset ▸ average_mem fun i => toInt_mem_range _, fun i => ?_, fun i => ?_⟩
  · have havg : d.average ∈ Icc d.lowest (2 ^ 15 - 1) :=
      average_mem fun i => ⟨d.lowest_le i, (toInt_mem_range (d.ae i)).2⟩
    change d.panicSetpoint ∈ _
    rw [hset]
    exact ⟨(min_le_right _ _).trans havg.1, (le_max_right _ _).trans (le_max_right _ _)⟩
  · exact ⟨(min_le_right _ _).trans (d.lowest_le i), (le_max_left _ _).trans (le_max_right _ _)⟩

/-- A panic runs the rotors down : no tick moves a rotor by more than the step size, each
stays in the band between zero, where it started, the lowest and the average rotor, and
after half the largest rotor speed and two ticks they are stopped in `SAFE_MODE`. -/
theorem panic_ramps_down (d : Drone) (hmode : d.currentMode = ModeType.panicMode)
    (hin : d.inPanicMode = false) (ss : List Sensors) :
    controlLoop.Along (fun d s => ∀ i,
        |((d.controlTick s).1.ae i).toInt - (d.ae i).toInt| ≤ panicModeStepSize) d ss ∧
      (∀ i, ((controlLoop.run d ss).ae i).toInt ∈
        Icc (min 0 d.lowest) (max 0 (max (d.ae i).toInt d.average))) ∧
      ((d.peak + 1) / 2 + 2 ≤ ss.length → (controlLoop.run d ss).Stopped) := by
  have hlo : min 0 d.lowest ≤ 0 := min_le_left _ _
  have hhi (i : Fin 4) : 0 ≤ max 0 (max (d.ae i).toInt d.average) := le_max_left _ _
  have hfresh := descending_fresh hmode hin
  refine ⟨?_, ?_, fun hss => ?_⟩
  · exact controlLoop.along_always (fun _ s h => h.controlTick hlo hhi s) ss hfresh
  · exact (controlLoop.run_always (fun _ s h => (h.controlTick hlo hhi s).1) ss hfresh).ae_mem
      hlo hhi
  · cases ss with
    | nil => simp at hss
    | cons s ss =>
      have hset : d.panicSetpoint ∈ SetpointRange :=
        panicSetpoint_first hin ▸ average_mem fun i => toInt_mem_range _
      rcases (controlTick_panic s hmode hset).2 with hstop | ⟨hmode', hramp, -⟩
      · exact hstop.run ss
      · have hrest : (controlLoop.run (d.controlTick s).1 ss).Stopped :=
          stopped_of_within _ hmode' (panicSetpoint_tick_mem hset hramp)
            (within_of_first_tick hin hramp) (Nat.le_of_succ_le_succ hss)
        exact hrest

/-- The ramp from a rotor at 7 and one below zero : four ticks and two. -/
theorem panic_ramps_down_seven :
    let d : Drone := { powerUp 0 with currentMode := ModeType.panicMode, ae := ![7, -3, 0, 4] }
    (controlLoop.run d (List.replicate 6 .zero)).Stopped := by
  intro d
  have hpeak : d.peak = 7 := by decide
  refine (panic_ramps_down d rfl rfl (List.replicate 6 .zero)).2.2 ?_
  rw [hpeak]
  decide

end Drone

end Quadrupel
