import Quadrupel.LinkLoss
import Quadrupel.Terminate

/-!
# The rotors after a lost link

When the timer block finds that no message was accepted for a second, the drone goes to
`PANIC_MODE`, and the ramp of the panic takes the rotors down. That is one tick of the ramp
for each control block; the timer block may start the panic again at any moment, also when it
is over, and bytes may go on to come as long as they make no message.

`Sinking` counts the control blocks that are left. The timer block keeps it, since it changes
nothing but the mode, and a panic that starts again with the rotors at rest ends with its
first tick (`AtRest.controlTick`). So half the largest rotor speed and two control blocks
stop the rotors, in any order of the blocks, and they stay stopped until the next message is
accepted (`silence_stops`).
-/

open Set

namespace Quadrupel

namespace Drone

/-- The rotors are stopped, and nothing but a message starts them. -/
structure AtRest (d : Drone) : Prop where
  rotorsStopped : d.RotorsStopped
  mode : d.currentMode = ModeType.panicMode ∨ d.currentMode = ModeType.safeMode
  panic : d.inPanicMode = false

/-- At most `n` control blocks are left until the rotors are stopped. -/
def Sinking (n : ℕ) (d : Drone) : Prop :=
  d.AtRest ∨ d.currentMode = ModeType.panicMode ∧ d.panicSetpoint ∈ SetpointRange ∧
    ((∃ m, n = m + 1 ∧ d.panicRamp.Within panicModeStepSize m) ∨
      d.inPanicMode = false ∧ n = (d.peak + 1) / 2 + 2)

theorem Stopped.atRest {d : Drone} {sensors : Sensors} (h : (d.controlTick sensors).1.Stopped) :
    (d.controlTick sensors).1.AtRest where
  rotorsStopped := (d.rotorsStopped_controlTick_iff sensors).2 h.ae
  mode := Or.inr h.mode
  panic := h.panic

/-- A panic that starts with the rotors at rest is over with its first tick. -/
theorem AtRest.controlTick {d : Drone} (h : d.AtRest) (sensors : Sensors) :
    (d.controlTick sensors).1.AtRest := by
  rcases h.mode with hpanic | hsafe
  · have hzero : ∀ i, (d.ae i).toInt ∈ Icc (0 : ℤ) 0 := fun i => by
      rw [(h.rotorsStopped i).1]
      exact ⟨le_rfl, le_rfl⟩
    have hset : d.panicSetpoint ∈ Icc (0 : ℤ) 0 := panicSetpoint_first h.panic ▸ average_mem hzero
    have hrange : d.panicSetpoint ∈ SetpointRange :=
      ⟨le_trans (by norm_num) hset.1, le_trans hset.2 (by norm_num)⟩
    rcases (controlTick_panic sensors hpanic hrange).2 with hstop | ⟨-, -, hmoves⟩
    · exact hstop.atRest
    · refine absurd (fun i => ?_) hmoves
      have hlevel := approach_mem (δ := panicModeStepSize) (by decide) hset (hzero i)
      exact le_antisymm hlevel.2 hlevel.1
  · have hstop : d.Stopped := ⟨hsafe, fun i => (h.rotorsStopped i).1, h.panic⟩
    exact (hstop.controlTick sensors).atRest

/-- A control block is one tick of the ramp. -/
theorem Sinking.controlTick {n : ℕ} {d : Drone} (h : d.Sinking n) (sensors : Sensors) :
    (d.controlTick sensors).1.Sinking (n - 1) := by
  rcases h with hrest | ⟨hmode, hset, hleft⟩
  · exact Or.inl (hrest.controlTick sensors)
  · rcases (controlTick_panic sensors hmode hset).2 with hstop | ⟨hmode', hramp, hmoves⟩
    · exact Or.inl hstop.atRest
    · refine Or.inr ⟨hmode', panicSetpoint_tick_mem hset hramp, Or.inl ?_⟩
      rcases hleft with ⟨m, rfl, hwithin⟩ | ⟨hin, rfl⟩
      · cases m with
        | zero => exact absurd hwithin.level_tick hmoves
        | succ m => exact ⟨m, rfl, hramp ▸ hwithin.tick (by decide)⟩
      · exact ⟨_, rfl, within_of_first_tick hin hramp⟩

/-- The timer block may start the panic again, and does nothing else to the ramp. -/
theorem Sinking.checkTimer {n : ℕ} {d : Drone} (h : d.Sinking n) (batVolt : UInt16)
    (now : UInt32) : (d.checkTimer batVolt now).Sinking n := by
  have hmode := d.checkTimer_mode_cases batVolt now
  obtain ⟨_, _, _, heq⟩ := d.checkTimer_eq batVolt now
  rw [heq] at hmode ⊢
  rcases h with hrest | ⟨hpanic, hset, hleft⟩
  · refine Or.inl ⟨hrest.rotorsStopped, ?_, hrest.panic⟩
    rcases hmode with hsame | hpanic
    · exact hsame.symm ▸ hrest.mode
    · exact Or.inl hpanic
  · exact Or.inr ⟨hmode.elim (fun hsame => hsame.trans hpanic) id, hset, hleft⟩

theorem Sinking.stopped {d : Drone} (h : d.Sinking 0) : d.RotorsStopped := by
  rcases h with hrest | ⟨-, -, ⟨m, hm, -⟩ | ⟨-, hm⟩⟩
  · exact hrest.rotorsStopped
  · omega
  · omega

/-- Where the count starts. -/
theorem RampHeld.sinking {d : Drone} (h : d.RampHeld) (hmode : d.currentMode = ModeType.panicMode) :
    ∃ n ≤ (d.peak + 1) / 2 + 2, d.Sinking n := by
  cases hin : d.inPanicMode with
  | true =>
    exact ⟨(d.peak + 1) / 2 + 1, Nat.le_succ _,
      Or.inr ⟨hmode, h.panicSetpoint_mem, Or.inl ⟨_, rfl, h.within hin⟩⟩⟩
  | false => exact ⟨_, le_rfl, Or.inr ⟨hmode, h.panicSetpoint_mem, Or.inr ⟨hin, rfl⟩⟩⟩

end Drone

namespace DroneMain

/-- The block is a control block. -/
def isControl (e : MainEvent) : Bool :=
  match e.block with
  | .control _ => true
  | _ => false

theorem sinking_next {n : ℕ} {s : DroneMain} (h : s.drone.Sinking n) {e : MainEvent}
    (he : s.Silent e) :
    (droneMain.next s e).drone.Sinking (if isControl e then n - 1 else n) := by
  obtain ⟨wait, block⟩ := e
  cases block with
  | control sensors => exact h.controlTick sensors
  | timer batVolt => exact h.checkTimer batVolt _
  | char c =>
    have hzero : ¬(parseMessage c (s.waited wait).parser).1 > 0 := Nat.not_lt.2 (Nat.le_of_eq he)
    simp only [droneMain, runBlock]
    rw [if_neg hzero]
    exact h

/-- From a timer tick at which the time since the last accepted message, modulo 2^32 µs,
exceeds one second, half the largest rotor speed and two control blocks stop the rotors,
whatever else happens, and they stay stopped until the next message is accepted. -/
theorem silence_stops (boot : ℕ) (pre : List MainEvent) (wait : ℕ) (batVolt : UInt16)
    (post : List MainEvent) :
    let s := droneMain.run (start boot) pre
    let s' := droneMain.next s ⟨wait, .timer batVolt⟩
    (s.waited wait).elapsed % 2 ^ 32 > 1000000 → droneMain.Along Silent s' post →
      (s.drone.peak + 1) / 2 + 2 ≤ post.countP isControl →
      (droneMain.run s' post).drone.RotorsStopped := by
  intro s s' hlong hpost hticks
  have hclocked : s.Clocked :=
    droneMain.run_always (fun _ e h => h.next e) pre (clocked_start boot)
  have hheld : s.drone.RampHeld := by
    have hstart := Drone.rampHeld_fresh (d := (start boot).drone) rfl
    rw [run_droneMain]
    exact droneLoop.run_always (fun _ e h => h.next e) _ hstart
  have hs' : s'.drone = s.drone.checkTimer batVolt (getTimeUs (s.time + wait)) := rfl
  have hmode : s'.drone.currentMode = ModeType.panicMode := by
    have htimer := next_timer hclocked wait batVolt
    rw [if_pos hlong] at htimer
    exact congrArg Drone.currentMode htimer
  have hpeak : s'.drone.peak = s.drone.peak := by
    rw [hs', Drone.peak, Drone.checkTimer_ae]
    rfl
  obtain ⟨n, hn, hsinking⟩ : ∃ n ≤ (s'.drone.peak + 1) / 2 + 2, s'.drone.Sinking n :=
    (hheld.next (.timer batVolt _)).sinking hmode
  have hstep (n : ℕ) (s : DroneMain) (e : MainEvent) (h : s.drone.Sinking n) (he : s.Silent e) :
      (droneMain.next s e).drone.Sinking (if isControl e then n - 1 else n) := sinking_next h he
  have hend := droneMain.run_countdown hstep hsinking hpost
  rw [droneMain.count_events, Nat.sub_eq_zero_of_le (by omega)] at hend
  exact hend.stopped

/-- A tick in `MANUAL_MODE` with the throttle just up. -/
def takeOff : List MainEvent :=
  ([0x12, 0x01, 0x36, 0xD2, 0x02, 0x13, 0x12, 0x03, 0xA8, 0x6F, 0x83, 0x00, 0x00, 0x00, 0x13].map
    fun c => ⟨0, .char c⟩) ++ [⟨10, .control .zero⟩]

/-- Its rotors are at 254. -/
theorem silence_stops_takeOff :
    (droneMain.run (droneMain.next (droneMain.run (start 0) takeOff) ⟨1000001, .timer 1200⟩)
      (List.replicate 129 ⟨10000, .control .zero⟩)).drone.RotorsStopped := by
  have hpeak : (droneMain.run (start 0) takeOff).drone.peak = 254 := by decide +kernel
  have hcontrol (e : MainEvent) (he : e ∈ List.replicate 129 ⟨10000, .control .zero⟩) :
      isControl e = true := by
    rw [List.eq_of_mem_replicate he]
    rfl
  have hsilent (s : DroneMain) (e : MainEvent) (he : isControl e = true) : s.Silent e := by
    obtain ⟨wait, block⟩ := e
    cases block with
    | control sensors => rfl
    | char | timer => cases he
  refine silence_stops 0 takeOff 1000001 1200 _ (by decide +kernel) ?_ ?_
  · exact droneMain.along_mono hsilent ((droneMain.along_events _ _ _).2 hcontrol)
  · rw [hpeak, List.countP_eq_length.2 hcontrol, List.length_replicate]

end DroneMain

end Quadrupel
