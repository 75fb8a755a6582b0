import Quadrupel.DroneMain
import Mathlib

/-!
# The calibration offsets

The offsets are taken on the first tick of a block of ticks in `CALIBRATION_MODE`, however
the mode changes between the ticks, and sent on that tick. The flag that guards this says,
after a tick, whether the tick was in `CALIBRATION_MODE` (`controlTick_calibration`), so
the next one is the first of its block iff it is in the mode and the flag is not set.

In `controlTicks` everything but the offsets and the flag may change between two ticks, as
only `run_filters_and_control` writes these; the loop of the drone is such a run
(`run_droneLoop`). `offsets_coherent` speaks of the ticks that were executed.
-/

namespace Quadrupel

/-- A tick, or a change of the other variables between two ticks. -/
inductive TickEvent
  | tick (sensors : Sensors)
  | change (d : Drone)

/-- A tick that was executed : the mode that it was in, what the sensors read, and the
messages that it sent. -/
structure Executed where
  currentMode : UInt8
  sensors : Sensors
  sent : List Msg
deriving DecidableEq

/-- The ticks of the control loop. -/
def controlTicks : Machine Drone TickEvent (Option Executed) where
  next d
    | .tick sensors => (d.controlTick sensors).1
    | .change d' => { d' with cal := d.cal, inCalibrationMode := d.inCalibrationMode }
  out d
    | .tick sensors => some ⟨d.currentMode, sensors, (d.controlTick sensors).2⟩
    | .change _ => none

namespace Executed

/-- The tick was in `CALIBRATION_MODE`. -/
def calibrates (t : Executed) : Bool :=
  t.currentMode == ModeType.calibrationMode

/-- The last of the ticks was in `CALIBRATION_MODE`. -/
def lastCalibrates (ts : List Executed) : Bool :=
  ts.getLast?.any calibrates

/-- The ticks `first :: block`, after `pre` and before `post`, are all in
`CALIBRATION_MODE`, and those next to them are not. -/
structure IsBlock (ts pre : List Executed) (first : Executed) (block post : List Executed) :
    Prop where
  eq : ts = pre ++ first :: block ++ post
  calibrates : ∀ t ∈ first :: block, t.calibrates
  before : lastCalibrates pre = false
  after : ∀ t ∈ post.head?, t.calibrates = false

/-- The offsets are 0 while no tick was in `CALIBRATION_MODE`, and else what the sensors
read on the first tick of the last block. -/
def IsSnapshot (ts : List Executed) (cal : Sensors) : Prop :=
  (∀ t ∈ ts, t.calibrates = false) ∧ cal = .zero ∨
    ∃ pre first block post, IsBlock ts pre first block post ∧
      (∀ t ∈ post, t.calibrates = false) ∧ cal = first.sensors

/-- A block sends the offsets once, and no other tick sends anything. -/
structure Announces (ts : List Executed) : Prop where
  block : ∀ pre first block post, IsBlock ts pre first block post →
    (first :: block).flatMap sent = [.calibrationData first.sensors]
  other : ∀ t ∈ ts, t.calibrates = false → t.sent = []

@[simp] theorem lastCalibrates_concat (ts : List Executed) (t : Executed) :
    lastCalibrates (ts ++ [t]) = t.calibrates := by
  simp [lastCalibrates]

/-- Each tick sends the offsets iff it is the first of a block. -/
def SendsFirst (ts : List Executed) : Prop :=
  ∀ pre t post, ts = pre ++ t :: post →
    t.sent = if t.calibrates && !lastCalibrates pre then [.calibrationData t.sensors] else []

theorem SendsFirst.concat {ts : List Executed} (h : SendsFirst ts) {t : Executed}
    (ht : t.sent = if t.calibrates && !lastCalibrates ts then [.calibrationData t.sensors]
      else []) : SendsFirst (ts ++ [t]) := by
  intro pre t' post heq
  rcases concat_eq_append_cons heq with ⟨-, rfl, rfl⟩ | ⟨post', -, hts⟩
  · exact ht
  · exact h pre t' post' hts

theorem lastCalibrates_append {pre ts : List Executed} {b : Bool} (hne : ts ≠ [])
    (h : ∀ t ∈ ts, t.calibrates = b) : lastCalibrates (pre ++ ts) = b := by
  obtain ⟨ts, t, rfl⟩ := (List.eq_nil_or_concat ts).resolve_left hne
  rw [List.concat_eq_append] at h ⊢
  rw [← List.append_assoc, lastCalibrates_concat]
  exact h t List.mem_concat_self

theorem SendsFirst.announces {ts : List Executed} (h : SendsFirst ts) : Announces ts := by
  constructor
  · rintro pre first block post ⟨rfl, hcal, hbefore, -⟩
    have hfirst := h pre first (block ++ post) (by simp)
    rw [hcal first List.mem_cons_self, hbefore] at hfirst
    have hblock : ∀ t ∈ block, t.sent = [] := by
      intro t ht
      obtain ⟨block, rest, rfl⟩ := List.append_of_mem ht
      have hlast : lastCalibrates (pre ++ first :: block) = true :=
        lastCalibrates_append (List.cons_ne_nil _ _) fun t' ht' =>
          hcal t' (List.mem_append_left (t :: rest) ht')
      rw [h (pre ++ first :: block) t (rest ++ post) (by simp), hlast]
      simp
    rw [List.flatMap_cons, hfirst, List.flatMap_eq_nil_iff.2 hblock]
    rfl
  · intro t ht hcal
    obtain ⟨pre, post, rfl⟩ := List.append_of_mem ht
    rw [h pre t post rfl, hcal]
    rfl

/-- One more tick. -/
theorem IsSnapshot.concat {ts : List Executed} {cal : Sensors} (h : IsSnapshot ts cal)
    (t : Executed) : IsSnapshot (ts ++ [t])
      (if t.calibrates && !lastCalibrates ts then t.sensors else cal) := by
  cases ht : t.calibrates with
  | false =>
    rcases h with ⟨hnone, rfl⟩ | ⟨pre, first, block, post, ⟨rfl, hcal, hbefore, hafter⟩, hpost, rfl⟩
    · exact Or.inl ⟨by simpa [or_imp, forall_and] using ⟨hnone, ht⟩, rfl⟩
    · have hpost' : ∀ t' ∈ post ++ [t], t'.calibrates = false := by
        simpa [or_imp, forall_and] using ⟨hpost, ht⟩
      refine Or.inr ⟨pre, first, block, post ++ [t], ⟨?_, hcal, hbefore, ?_⟩, hpost', rfl⟩
      · simp
      · exact fun t' ht' => hpost' t' (List.mem_of_mem_head? ht')
  | true =>
    cases hlast : lastCalibrates ts with
    | false =>
      refine Or.inr ⟨ts, t, [], [], ⟨by simp, ?_, hlast, nofun⟩, nofun, rfl⟩
      exact List.forall_mem_singleton.2 ht
    | true =>
      rcases h with ⟨hnone, -⟩ | ⟨pre, first, block, post, ⟨rfl, hcal, hbefore, -⟩, hpost, rfl⟩
      · have hne : ts ≠ [] := fun hnil => by simp [hnil, lastCalibrates] at hlast
        have hfalse : lastCalibrates ([] ++ ts) = false := lastCalibrates_append hne hnone
        exact absurd hlast (by simpa using hfalse)
      · -- The last block goes on.
        have hnil : post = [] := by
          by_contra hne
          have hfalse : lastCalibrates (pre ++ first :: block ++ post) = false :=
            lastCalibrates_append hne hpost
          exact absurd hlast (by simpa using hfalse)
        subst hnil
        refine Or.inr ⟨pre, first, block ++ [t], [], ⟨by simp, ?_, hbefore, nofun⟩, nofun, rfl⟩
        simpa [or_imp, forall_and, ht] using hcal

end Executed

/-! ## Runs -/

namespace Drone

/-- The ticks of a run that were executed, in order. -/
def executed (d : Drone) (es : List TickEvent) : List Executed :=
  (controlTicks.outputs d es).filterMap id

/-- The flag and the offsets fit the ticks so far, and so do the messages that they sent. -/
structure FitsTicks (ts : List Executed) (d : Drone) : Prop where
  flag : d.inCalibrationMode = Executed.lastCalibrates ts
  snapshot : Executed.IsSnapshot ts d.cal
  sends : Executed.SendsFirst ts

theorem FitsTicks.tick {ts : List Executed} {d : Drone} (h : FitsTicks ts d) (sensors : Sensors) :
    FitsTicks (ts ++ [⟨d.currentMode, sensors, (d.controlTick sensors).2⟩])
      (d.controlTick sensors).1 := by
  obtain ⟨hflag, hsnapshot, hsends⟩ := h
  obtain ⟨hafter, hcal, hsent⟩ := d.controlTick_calibration sensors
  set t : Executed := ⟨d.currentMode, sensors, (d.controlTick sensors).2⟩ with ht
  have hmode : t.calibrates = (d.currentMode == ModeType.calibrationMode) := rfl
  rw [hflag, ← hmode] at hcal hsent
  refine ⟨?_, ?_, hsends.concat hsent⟩
  · rw [Executed.lastCalibrates_concat, hafter, hmode]
  · rw [hcal]
    exact hsnapshot.concat t

/-- After any run, the offsets are what the sensors read on the first tick of the last
block of ticks in `CALIBRATION_MODE`, each block has sent its offsets once, and no tick in
another mode changes them. -/
theorem offsets_coherent (now : UInt32) (es : List TickEvent) :
    Executed.IsSnapshot ((powerUp now).executed es) (controlTicks.run (powerUp now) es).cal ∧
      Executed.Announces ((powerUp now).executed es) ∧
      ∀ (d : Drone) (sensors : Sensors), d.currentMode ≠ ModeType.calibrationMode →
        (d.controlTick sensors).1.cal = d.cal := by
  have hstep (d : Drone) (h : List (Option Executed)) (e : TickEvent)
      (hd : FitsTicks (h.filterMap id) d) :
      FitsTicks ((h ++ [controlTicks.out d e]).filterMap id) (controlTicks.next d e) := by
    rw [List.filterMap_append]
    cases e with
    | tick sensors => exact hd.tick sensors
    | change d' => simpa [controlTicks] using ⟨hd.flag, hd.snapshot, hd.sends⟩
  have hstart : FitsTicks [] (powerUp now) :=
    ⟨rfl, Or.inl ⟨nofun, rfl⟩, fun pre t post h => by simp at h⟩
  have hfits : FitsTicks ((powerUp now).executed es) (controlTicks.run (powerUp now) es) :=
    controlTicks.history_invariant (s := powerUp now) (h := []) hstep es hstart
  refine ⟨hfits.snapshot, hfits.sends.announces, fun d sensors hmode => ?_⟩
  rw [(d.controlTick_calibration sensors).2.1, beq_false_of_ne hmode]
  rfl

/-- The events of the loop that are ticks, and the others. -/
def tickEvents (d : Drone) : DroneEvent → List TickEvent
  | .control sensors => [.tick sensors]
  | .message receiveBuffer now => [.change (d.acceptMessage receiveBuffer now).1]
  | .timer batVolt now => [.change (d.checkTimer batVolt now)]

/-- A run of the loop is a run of its ticks : the other blocks leave the offsets and the
flag alone. -/
theorem run_droneLoop (d : Drone) (es : List DroneEvent) :
    droneLoop.run d es = controlTicks.run d (droneLoop.translate tickEvents d es) := by
  have hstep (d : Drone) (e : DroneEvent) :
      id (droneLoop.next d e) = controlTicks.run (id d) (tickEvents d e) := by
    cases e with
    | control sensors => rfl
    | message receiveBuffer now =>
      obtain ⟨_, _, _, _, _, _, _, _, h⟩ := d.acceptMessage_eq receiveBuffer now
      change (d.acceptMessage receiveBuffer now).1 =
        { (d.acceptMessage receiveBuffer now).1 with
          cal := d.cal, inCalibrationMode := d.inCalibrationMode }
      rw [h]
    | timer batVolt now =>
      obtain ⟨_, _, _, h⟩ := d.checkTimer_eq batVolt now
      change d.checkTimer batVolt now =
        { d.checkTimer batVolt now with cal := d.cal, inCalibrationMode := d.inCalibrationMode }
      rw [h]
  exact droneLoop.run_refines controlTicks hstep d es

end Drone

end Quadrupel
