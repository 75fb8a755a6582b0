import Quadrupel.DroneMain

/-!
# The battery failsafe

The timer block looks at the battery on every twentieth tick, and of these only on every
eighth. Both counters are 32 bits wide. 2^32 is a multiple of 8 but not of 20, so when
`counter` wraps the next look comes early, never late (`dueIn_next`). Whatever happens in
between, the battery is looked at before 160 ticks of the timer are over, and if it is low
the drone goes to `PANIC_MODE` there (`low_battery_panics`).
-/

namespace Quadrupel

/-- The event is a tick of the timer. -/
def DroneEvent.isTimer : DroneEvent → Bool
  | .timer _ _ => true
  | _ => false

namespace Drone

/-- The block is a tick of the timer that looks at the battery. -/
def ChecksBattery (d : Drone) (e : DroneEvent) : Prop :=
  e.isTimer = true ∧ d.counter % 20 = 0 ∧ d.batVoltCounter % 8 = 0

/-- The ticks of the timer before the one that looks at the battery, if no counter wraps. -/
def dueIn (d : Drone) : ℕ :=
  (20 - d.counter.toNat % 20) % 20 + 20 * ((8 - d.batVoltCounter.toNat % 8) % 8)

theorem dueIn_lt (d : Drone) : d.dueIn < 160 := by
  unfold dueIn
  omega

theorem mod_eq_zero_iff (c : UInt32) (k : ℕ) (hk : k < 2 ^ 32) :
    c % UInt32.ofNat k = 0 ↔ c.toNat % k = 0 := by
  rw [← UInt32.toNat_inj, UInt32.toNat_mod, UInt32.toNat_ofNat', Nat.mod_eq_of_lt hk]
  rfl

theorem toNat_succ_counter (c : UInt32) : (c + 1).toNat = (c.toNat + 1) % 2 ^ 32 :=
  UInt32.toNat_add c 1

/-- The next multiple of 20 is nearer when the counter has moved on, also when it wraps. -/
theorem left_succ {c : ℕ} (hc : c < 2 ^ 32) (h : c % 20 ≠ 0) :
    (20 - (c + 1) % 2 ^ 32 % 20) % 20 < (20 - c % 20) % 20 := by
  by_cases hwrap : c + 1 = 2 ^ 32
  · rw [hwrap, Nat.mod_self]
    omega
  · have hsame : (c + 1) % 2 ^ 32 = c + 1 := Nat.mod_eq_of_lt (by omega)
    rw [hsame]
    omega

/-- The counters after a tick of the timer. -/
theorem counters_checkTimer (batVolt : UInt16) (now : UInt32) (d : Drone) :
    (d.checkTimer batVolt now).counter = d.counter + 1 ∧
      (d.checkTimer batVolt now).batVoltCounter =
        if d.counter % 20 = 0 then d.batVoltCounter + 1 else d.batVoltCounter := by
  simp only [checkTimer, checkMsgTimeout, checkBatVolt]
  by_cases hdue : d.counter % 20 = 0
  · simp only [hdue, if_true]
    split_ifs <;> exact ⟨rfl, rfl⟩
  · simp only [hdue, if_false]
    split_ifs <;> exact ⟨rfl, rfl⟩

/-- A tick that does not look at the battery brings the look nearer. -/
theorem dueIn_checkTimer (batVolt : UInt16) (now : UInt32) {d : Drone}
    (h : ¬(d.counter % 20 = 0 ∧ d.batVoltCounter % 8 = 0)) :
    (d.checkTimer batVolt now).dueIn < d.dueIn := by
  obtain ⟨hcounter, hbat⟩ := counters_checkTimer batVolt now d
  have h20 : d.counter % 20 = 0 ↔ d.counter.toNat % 20 = 0 := mod_eq_zero_iff _ 20 (by decide)
  have h8 : d.batVoltCounter % 8 = 0 ↔ d.batVoltCounter.toNat % 8 = 0 :=
    mod_eq_zero_iff _ 8 (by decide)
  have hlt := d.counter.toNat_lt
  have hlt' := d.batVoltCounter.toNat_lt
  rw [h20, h8] at h
  unfold dueIn
  rw [hcounter, hbat, toNat_succ_counter]
  by_cases hdue : d.counter.toNat % 20 = 0
  · -- One round of twenty is over.
    rw [if_pos (h20.2 hdue), toNat_succ_counter]
    omega
  · rw [if_neg (mt h20.1 hdue)]
    exact Nat.add_lt_add_right (left_succ hlt hdue) _

/-- No other block touches the counters. -/
theorem dueIn_next {d : Drone} {e : DroneEvent} (h : ¬d.ChecksBattery e) {n : ℕ}
    (hn : d.dueIn < n) :
    (droneLoop.next d e).dueIn < if e.isTimer then n - 1 else n := by
  cases e with
  | control sensors =>
    obtain ⟨_, _, _, _, _, _, _, _, _, _, heq⟩ := d.controlTick_eq sensors
    simp only [droneLoop, heq]
    exact hn
  | message m now =>
    obtain ⟨_, _, _, _, _, _, _, _, heq⟩ := d.acceptMessage_eq m now
    simp only [droneLoop, heq]
    exact hn
  | timer batVolt now =>
    have hnearer := dueIn_checkTimer batVolt now fun hdue => h ⟨rfl, hdue⟩
    exact Nat.lt_sub_of_add_lt (Nat.lt_of_le_of_lt (Nat.succ_le_of_lt hnearer) hn)

/-- The reading for which the check finds the battery low. -/
theorem low_iff (batVolt : UInt16) : batVolt.toNat * 12 / 1169 ≤ 11 ↔ batVolt.toNat < 1169 := by
  omega

/-- From any state, in any order of the blocks, before 160 ticks of the timer are over one of
them looks at a battery that stays low, and goes to `PANIC_MODE`. -/
theorem low_battery_panics (d : Drone) (es : List DroneEvent)
    (hlow : ∀ batVolt now, DroneEvent.timer batVolt now ∈ es → batVolt.toNat < 1169)
    (hticks : 160 ≤ es.countP DroneEvent.isTimer) :
    ∃ pre e post, es = pre ++ e :: post ∧ pre.countP DroneEvent.isTimer < 160 ∧
      (droneLoop.run d pre).ChecksBattery e ∧
        (droneLoop.run d (pre ++ [e])).currentMode = ModeType.panicMode := by
  have hstep (n : ℕ) (d : Drone) (e : DroneEvent) (hn : d.dueIn < n) (he : ¬d.ChecksBattery e) :
      (droneLoop.next d e).dueIn < if e.isTimer then n - 1 else n := dueIn_next he hn
  obtain ⟨pre, e, post, rfl, hlt, hchecks⟩ :=
    droneLoop.exists_mark_within hstep (fun d => Nat.not_lt_zero d.dueIn) d.dueIn_lt hticks
  refine ⟨pre, e, post, rfl, hlt, hchecks, ?_⟩
  obtain ⟨htimer, hcounter, hbatVolt⟩ := hchecks
  cases e with
  | control | message => cases htimer
  | timer batVolt now =>
    have hlow' := (low_iff batVolt).2 (hlow batVolt now (by simp))
    have hfail : (droneLoop.run d pre).Failsafe batVolt now := Or.inl ⟨hcounter, hbatVolt, hlow'⟩
    rw [Machine.run_append]
    exact (checkTimer_currentMode batVolt now _).trans (if_pos hfail)

/-- A drone that flies by hand, with both counters about to wrap. -/
theorem low_battery_panics_wrapping :
    let d : Drone :=
      { powerUp 0 with currentMode := 2, counter := 4294967293, batVoltCounter := 4294967291 }
    let es := (List.replicate 160 [DroneEvent.control .zero, .timer 1168 0]).flatten
    ∃ pre e post, es = pre ++ e :: post ∧ pre.countP DroneEvent.isTimer < 160 ∧
      (droneLoop.run d pre).ChecksBattery e ∧
        (droneLoop.run d (pre ++ [e])).currentMode = ModeType.panicMode := by
  intro d es
  refine low_battery_panics d es (fun batVolt now h => ?_) (by decide +kernel)
  obtain ⟨block, hblock, h⟩ := List.mem_flatten.1 h
  rw [List.eq_of_mem_replicate hblock, List.mem_pair] at h
  rcases h with h | h
  · cases h
  · cases h
    decide

end Drone

end Quadrupel
