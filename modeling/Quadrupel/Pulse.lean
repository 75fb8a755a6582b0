import Quadrupel.Timers

/-!
# The motor pulses

Each motor pin is toggled by the hardware, where the counter of its timer reaches the
compare value of the motor and where the period ends. Nothing sets its level, so one toggle
too few turns the signal over for good. That happens if the compare value moves below the
counter before the counter has reached it; the handler therefore writes the compare values
only if it reads the counter below 500.

`pulses` is the machine of one of the two timers, with its two motors : its ticks, the steps
of its handler, and what the control loop and the radio do in between. The handler may begin
late, and other interrupts may come between its steps. As long as it ends before the counter
reaches 1000, once it has read it below 500 (`InTime`), every period is one pulse of 1000
ticks and as many more as one of the motor values asked for (`one_pulse`).
-/

namespace Quadrupel

/-- Where the handler is. -/
inductive PulseHandler
  | idle
  | begun
  | captured (cc2 : UInt32)
  | passed
  | clamped
  | written
deriving DecidableEq

/-- A motor : its compare value, its value, and the level of its pin. -/
structure Channel where
  cc : UInt32
  motor : Int16
  pin : Bool
deriving DecidableEq

namespace Channel

/-- The counter goes to `c`, which toggles the pin at the compare value and at the end of
the period. -/
def tick (c : ℕ) (ch : Channel) : Channel :=
  { ch with pin := (ch.pin ^^ decide (c = ch.cc.toNat)) ^^ decide (c = 2500) }

/-- The bounds of the motor. -/
def clamp (ch : Channel) : Channel :=
  { ch with motor := Timers.clampMotor ch.motor }

/-- The write of the compare value. -/
def write (ch : Channel) : Channel :=
  { ch with cc := UInt32.ofInt (1000 + ch.motor.toInt) }

end Channel

/-- A timer with its two motors and its handler. -/
structure Pulse where
  counter : ℕ
  compare3 : Bool
  radioActive : Bool
  channel : Fin 2 → Channel
  handler : PulseHandler

/-- A tick of the counter, a step of the handler, the interrupt of the radio, and a write of
the motors by the control loop. -/
inductive PulseEvent
  | tick
  | step
  | radio
  | drive (motor : Fin 2 → Int16)

namespace Pulse

/-- `timers_init`, with the pins as `gpio_init` leaves them. -/
def init (motor : Fin 2 → Int16) (radioActive : Bool) : Pulse where
  counter := 0
  compare3 := false
  radioActive := radioActive
  channel i := ⟨1000, motor i, true⟩
  handler := .idle

/-- A tick of the counter, which starts again at 2500. -/
def tick (s : Pulse) : Pulse :=
  { s with
    counter := if s.counter + 1 = 2500 then 0 else s.counter + 1
    compare3 := s.compare3 || decide (s.counter + 1 = 2500)
    channel i := (s.channel i).tick (s.counter + 1) }

/-- A step of `TIMER1_IRQHandler`, or of `TIMER2_IRQHandler`. -/
def step (s : Pulse) : Pulse :=
  match s.handler with
  | .idle => if s.compare3 then { s with compare3 := false, handler := .begun } else s
  | .begun => { s with handler := .captured (UInt32.ofNat s.counter) }
  | .captured cc2 =>
    if !s.radioActive && cc2 < 500 then { s with handler := .passed }
    else { s with handler := .idle }
  | .passed => { s with channel := fun i => (s.channel i).clamp, handler := .clamped }
  | .clamped =>
    { s with channel := Function.update s.channel 0 (s.channel 0).write, handler := .written }
  | .written =>
    { s with channel := Function.update s.channel 1 (s.channel 1).write, handler := .idle }

/-- The control loop writes the motors; the handler interrupts it. -/
def drive (motor : Fin 2 → Int16) (s : Pulse) : Pulse :=
  match s.handler with
  | .idle => { s with channel := fun i => { s.channel i with motor := motor i } }
  | _ => s

end Pulse

/-- The timer, with the levels of the pins that each tick ends. -/
def pulses : Machine Pulse PulseEvent (Option (Fin 2 → Bool)) where
  next s
    | .tick => s.tick
    | .step => s.step
    | .radio => { s with radioActive := !s.radioActive }
    | .drive motor => s.drive motor
  out s
    | .tick => some fun i => (s.channel i).pin
    | _ => none

namespace Pulse

/-- The handler has found the counter below 500, or is about to, and has not ended. -/
def committed (s : Pulse) : Bool :=
  match s.handler with
  | .idle | .begun => false
  | .captured cc2 => cc2 < 500
  | .passed | .clamped | .written => true

/-- The handler has clamped the motors, and has not ended. -/
def isClamped (s : Pulse) : Bool :=
  match s.handler with
  | .clamped | .written => true
  | .idle | .begun | .captured _ | .passed => false

/-- The counter does not reach 1000 before a committed handler ends. -/
def InTime (s : Pulse) : PulseEvent → Prop
  | .tick => s.committed = true → s.counter + 1 < 1000
  | _ => True

instance (s : Pulse) (e : PulseEvent) : Decidable (s.InTime e) :=
  match e with
  | .tick => inferInstanceAs (Decidable (_ → _))
  | .step | .radio | .drive _ => inferInstanceAs (Decidable True)

/-- The compare value lies in its bounds, and the pin is high until the counter reaches it. -/
structure Sound (c : ℕ) (ch : Channel) : Prop where
  low : 1000 ≤ ch.cc.toNat
  high : ch.cc.toNat ≤ 2000
  pin : ch.pin = decide (c < ch.cc.toNat)

/-- What holds between two events. -/
structure Holds (s : Pulse) : Prop where
  counter_lt : s.counter < 2500
  early : s.committed = true → s.counter < 1000
  sound : ∀ i, Sound s.counter (s.channel i)
  bounds : s.isClamped = true →
    ∀ i, 0 ≤ (s.channel i).motor.toInt ∧ (s.channel i).motor.toInt ≤ 1000

theorem clampMotor_bounds (motor : Int16) :
    0 ≤ (Timers.clampMotor motor).toInt ∧ (Timers.clampMotor motor).toInt ≤ 1000 := by
  unfold Timers.clampMotor
  split_ifs with hhigh hlow
  · decide
  · rw [Int16.lt_iff_toInt_lt] at hhigh hlow
    exact ⟨Int.not_lt.1 hlow, hhigh.le⟩
  · decide

theorem clampMotor_clampMotor (motor : Int16) :
    Timers.clampMotor (Timers.clampMotor motor) = Timers.clampMotor motor := by
  obtain ⟨hlow, hhigh⟩ := clampMotor_bounds motor
  generalize Timers.clampMotor motor = m at hlow hhigh
  have hnot : ¬m < 0 := fun h => Int.not_lt.2 hlow (Int16.lt_iff_toInt_lt.1 h)
  unfold Timers.clampMotor
  rw [if_neg hnot]
  split_ifs with hlt
  · rfl
  · have hge : 1000 ≤ m.toInt := Int.not_lt.1 fun h => hlt (Int16.lt_iff_toInt_lt.2 h)
    exact Int16.toInt_inj.1 (le_antisymm hge hhigh)

/-! ## One motor -/

/-- A tick toggles the pin just where the level changes. -/
theorem Sound.tick {c : ℕ} {ch : Channel} (h : Sound c ch) :
    Sound (if c + 1 = 2500 then 0 else c + 1) (ch.tick (c + 1)) := by
  obtain ⟨hlow, hhigh, hpin⟩ := h
  refine ⟨hlow, hhigh, ?_⟩
  change ((ch.pin ^^ decide (c + 1 = ch.cc.toNat)) ^^ decide (c + 1 = 2500)) =
    decide ((if c + 1 = 2500 then 0 else c + 1) < ch.cc.toNat)
  rw [hpin]
  by_cases hend : c + 1 = 2500
  · have hbehind : ¬c < ch.cc.toNat := by omega
    have hbehind' : ¬c + 1 = ch.cc.toNat := by omega
    have hpos : 0 < ch.cc.toNat := by omega
    rw [decide_eq_false hbehind, decide_eq_false hbehind', decide_eq_true hend, if_pos hend,
      decide_eq_true hpos]
    rfl
  · rw [decide_eq_false hend, if_neg hend]
    rcases Nat.lt_trichotomy (c + 1) ch.cc.toNat with hlt | heq | hgt
    · rw [decide_eq_true (Nat.lt_of_succ_lt hlt), decide_eq_false hlt.ne, decide_eq_true hlt]
      rfl
    · rw [decide_eq_true (by omega), decide_eq_true heq, decide_eq_false (by omega)]
      rfl
    · rw [decide_eq_false (by omega), decide_eq_false (by omega), decide_eq_false (by omega)]
      rfl

/-- A write leaves the pin as it should be while the counter is below both values. -/
theorem Sound.write {c : ℕ} {ch : Channel} (h : Sound c ch) (hc : c < 1000)
    (hlow : 0 ≤ ch.motor.toInt) (hhigh : ch.motor.toInt ≤ 1000) :
    ch.write.cc.toNat = 1000 + ch.motor.toInt.toNat ∧ Sound c ch.write := by
  have hcc : ch.write.cc.toNat = 1000 + ch.motor.toInt.toNat := by
    change (UInt32.ofInt (1000 + ch.motor.toInt)).toNat = _
    rw [UInt32.ofInt, UInt32.toNat_ofNat']
    omega
  have hbelow : c < ch.cc.toNat := hc.trans_le h.low
  refine ⟨hcc, by omega, by omega, ?_⟩
  change ch.pin = _
  rw [h.pin, decide_eq_true hbelow, decide_eq_true (by omega)]

/-! ## The timer -/

theorem holds_init (motor : Fin 2 → Int16) (radioActive : Bool) :
    Holds (init motor radioActive) where
  counter_lt := (by decide : 0 < 2500)
  early h := absurd h Bool.false_ne_true
  sound _ := ⟨(by decide : 1000 ≤ (1000 : UInt32).toNat),
    (by decide : (1000 : UInt32).toNat ≤ 2000), rfl⟩
  bounds h := absurd h Bool.false_ne_true

theorem Holds.tick {s : Pulse} (h : Holds s) (htime : s.InTime .tick) : Holds s.tick where
  counter_lt := by
    have hlt := h.counter_lt
    change (if s.counter + 1 = 2500 then 0 else s.counter + 1) < 2500
    split_ifs
    · decide
    · omega
  early hcommitted := by
    have hlt : s.counter + 1 < 1000 := htime hcommitted
    change (if s.counter + 1 = 2500 then 0 else s.counter + 1) < 1000
    rwa [if_neg (by omega)]
  sound i := (h.sound i).tick
  bounds := h.bounds

/-- The write of a compare value leaves the motors. -/
theorem motor_write (channel : Fin 2 → Channel) (j i : Fin 2) :
    (Function.update channel j (channel j).write i).motor = (channel i).motor := by
  by_cases hi : i = j
  · subst hi
    rw [Function.update_self]
    rfl
  · rw [Function.update_of_ne hi]

/-- The write of one compare value. -/
theorem Holds.write {s : Pulse} (h : Holds s) (hcommitted : s.committed = true)
    (hbounds : ∀ i, 0 ≤ (s.channel i).motor.toInt ∧ (s.channel i).motor.toInt ≤ 1000) (j : Fin 2)
    (i : Fin 2) : Sound s.counter (Function.update s.channel j (s.channel j).write i) := by
  by_cases hi : i = j
  · subst hi
    rw [Function.update_self]
    exact ((h.sound i).write (h.early hcommitted) (hbounds i).1 (hbounds i).2).2
  · rw [Function.update_of_ne hi]
    exact h.sound i

theorem Holds.step {s : Pulse} (h : Holds s) : Holds s.step := by
  have hwrite := h.write
  obtain ⟨counter, compare3, radioActive, channel, handler⟩ := s
  obtain ⟨hlt, hearly, hsound, hbounds⟩ := h
  have hnot {P : Prop} (h : false = true) : P := absurd h Bool.false_ne_true
  cases handler with
  | idle =>
    cases compare3 with
    | false => exact ⟨hlt, hearly, hsound, hbounds⟩
    | true => exact ⟨hlt, hnot, hsound, hnot⟩
  | begun =>
    refine ⟨hlt, fun hcommitted => ?_, hsound, hnot⟩
    have hcapture : decide (UInt32.ofNat counter < 500) = true := hcommitted
    have hbelow := UInt32.lt_iff_toNat_lt.1 (of_decide_eq_true hcapture)
    rw [UInt32.toNat_ofNat'] at hbelow
    change counter < 2500 at hlt
    change counter < 1000
    change counter % 2 ^ 32 < 500 at hbelow
    omega
  | captured cc2 =>
    by_cases hpass : (!radioActive && decide (cc2 < 500)) = true
    · have hcapture : decide (cc2 < 500) = true := (Bool.and_eq_true_iff.1 hpass).2
      simp only [Pulse.step, if_pos hpass]
      exact ⟨hlt, fun _ => hearly hcapture, hsound, hnot⟩
    · simp only [Pulse.step, if_neg hpass]
      exact ⟨hlt, hnot, hsound, hnot⟩
  | passed =>
    refine ⟨hlt, fun _ => hearly rfl, fun i => ?_, fun _ i => clampMotor_bounds _⟩
    exact ⟨(hsound i).low, (hsound i).high, (hsound i).pin⟩
  | clamped =>
    have hmotor := hbounds rfl
    refine ⟨hlt, fun _ => hearly rfl, hwrite rfl hmotor 0, fun _ i => ?_⟩
    have hsame := motor_write channel 0 i
    exact ⟨hsame ▸ (hmotor i).1, hsame ▸ (hmotor i).2⟩
  | written =>
    have hmotor := hbounds rfl
    exact ⟨hlt, hnot, hwrite rfl hmotor 1, hnot⟩

theorem Holds.drive {s : Pulse} (h : Holds s) (motor : Fin 2 → Int16) : Holds (s.drive motor) := by
  obtain ⟨counter, compare3, radioActive, channel, handler⟩ := s
  cases handler with
  | idle =>
    refine ⟨h.counter_lt, h.early, fun i => ?_, fun h => absurd h Bool.false_ne_true⟩
    exact ⟨(h.sound i).low, (h.sound i).high, (h.sound i).pin⟩
  | begun | captured | passed | clamped | written => exact h

theorem Holds.next {s : Pulse} (h : Holds s) {e : PulseEvent} (he : s.InTime e) :
    Holds (pulses.next s e) := by
  cases e with
  | tick => exact h.tick he
  | step => exact h.step
  | radio => exact ⟨h.counter_lt, h.early, h.sound, h.bounds⟩
  | drive motor => exact h.drive motor

/-! ## The values asked for -/

/-- A value of the motor at the start, or one that the control loop wrote. -/
def Asked (motor : Fin 2 → Int16) (past : List PulseEvent) (i : Fin 2) (m : Int16) : Prop :=
  m = motor i ∨ ∃ written, .drive written ∈ past ∧ m = written i

theorem Asked.append {motor : Fin 2 → Int16} {past : List PulseEvent} {i : Fin 2} {m : Int16}
    (h : Asked motor past i m) (es : List PulseEvent) : Asked motor (past ++ es) i m :=
  h.imp_right fun ⟨written, hwritten, hm⟩ => ⟨written, List.mem_append_left es hwritten, hm⟩

/-- The compare value is the first one, or comes from a value that was asked for. -/
def CompareValue (asked : Int16 → Prop) (w : ℕ) : Prop :=
  w = 1000 ∨ ∃ m, asked m ∧ w = 1000 + (Timers.clampMotor m).toInt.toNat

/-- The motors and the compare values come from the values asked for. -/
structure Follows (asked : Fin 2 → Int16 → Prop) (s : Pulse) : Prop where
  motor : ∀ i, ∃ m, asked i m ∧ ((s.channel i).motor = Timers.clampMotor m ∨
    s.isClamped = false ∧ (s.channel i).motor = m)
  cc : ∀ i, CompareValue (asked i) (s.channel i).cc.toNat

theorem Follows.mono {asked asked' : Fin 2 → Int16 → Prop} {s : Pulse} (h : Follows asked s)
    (hasked : ∀ i m, asked i m → asked' i m) : Follows asked' s where
  motor i := (h.motor i).imp fun m hm => ⟨hasked i m hm.1, hm.2⟩
  cc i := (h.cc i).imp_right fun ⟨m, hm, hw⟩ => ⟨m, hasked i m hm, hw⟩

variable {asked : Fin 2 → Int16 → Prop}

/-- Another handler step with the same motors and compare values. -/
theorem Follows.of_channel {s s' : Pulse} (h : Follows asked s)
    (hmotor : ∀ i, (s'.channel i).motor = (s.channel i).motor)
    (hcc : ∀ i, (s'.channel i).cc = (s.channel i).cc) (hclamped : s'.isClamped = false) :
    Follows asked s' where
  motor i := by
    obtain ⟨m, hm, hvalue⟩ := h.motor i
    refine ⟨m, hm, ?_⟩
    rw [hmotor i, hclamped]
    exact hvalue.imp_right fun hm => ⟨rfl, hm.2⟩
  cc i := hcc i ▸ h.cc i

/-- The write of one compare value, from clamped motors. -/
theorem Follows.write {s : Pulse} (hs : Holds s) (h : Follows asked s)
    (hclamped : s.isClamped = true) (hcommitted : s.committed = true) (j i : Fin 2) :
    CompareValue (asked i) (Function.update s.channel j (s.channel j).write i).cc.toNat := by
  by_cases hi : i = j
  · subst hi
    obtain ⟨m, hm, hvalue⟩ := h.motor i
    have hmotor : (s.channel i).motor = Timers.clampMotor m :=
      hvalue.resolve_right fun hm => Bool.false_ne_true (hm.1.symm.trans hclamped)
    have hbounds := hs.bounds hclamped i
    have hcc := ((hs.sound i).write (hs.early hcommitted) hbounds.1 hbounds.2).1
    rw [Function.update_self]
    exact Or.inr ⟨m, hm, by rw [hcc, hmotor]⟩
  · rw [Function.update_of_ne hi]
    exact h.cc i

theorem Follows.step {s : Pulse} (hs : Holds s) (h : Follows asked s) : Follows asked s.step := by
  have hwrite := h.write hs
  have hmotor := h.motor
  have hcc := h.cc
  obtain ⟨counter, compare3, radioActive, channel, handler⟩ := s
  cases handler with
  | idle => cases compare3 <;> exact h.of_channel (fun _ => rfl) (fun _ => rfl) rfl
  | begun => exact h.of_channel (fun _ => rfl) (fun _ => rfl) rfl
  | captured cc2 =>
    simp only [Pulse.step]
    split_ifs <;> exact h.of_channel (fun _ => rfl) (fun _ => rfl) rfl
  | passed =>
    refine ⟨fun i => ?_, hcc⟩
    obtain ⟨m, hm, hvalue⟩ := hmotor i
    refine ⟨m, hm, Or.inl ?_⟩
    rcases hvalue with hvalue | ⟨-, hvalue⟩
    · exact (congrArg Timers.clampMotor hvalue).trans (clampMotor_clampMotor m)
    · exact congrArg Timers.clampMotor hvalue
  | clamped =>
    refine ⟨fun i => ?_, hwrite rfl rfl 0⟩
    obtain ⟨m, hm, hvalue⟩ := hmotor i
    exact ⟨m, hm, Or.inl ((motor_write channel 0 i).trans
      (hvalue.resolve_right fun hm => Bool.false_ne_true hm.1.symm))⟩
  | written =>
    refine ⟨fun i => ?_, hwrite rfl rfl 1⟩
    obtain ⟨m, hm, hvalue⟩ := hmotor i
    exact ⟨m, hm, Or.inl ((motor_write channel 1 i).trans
      (hvalue.resolve_right fun hm => Bool.false_ne_true hm.1.symm))⟩

/-! ## Runs -/

theorem follows_next {motor : Fin 2 → Int16} {past : List PulseEvent} {s : Pulse} (hs : Holds s)
    (h : Follows (Asked motor past) s) (e : PulseEvent) :
    Follows (Asked motor (past ++ [e])) (pulses.next s e) := by
  have hpast := h.mono fun i m hm => hm.append [e]
  cases e with
  | tick => exact ⟨hpast.motor, hpast.cc⟩
  | step => exact hpast.step hs
  | radio => exact ⟨hpast.motor, hpast.cc⟩
  | drive written =>
    obtain ⟨counter, compare3, radioActive, channel, handler⟩ := s
    cases handler with
    | idle =>
      refine ⟨fun i => ⟨written i, ?_, Or.inr ⟨rfl, rfl⟩⟩, hpast.cc⟩
      exact Or.inr ⟨written, by simp, rfl⟩
    | begun | captured | passed | clamped | written => exact hpast

/-- After a run in which the handler is in time. -/
theorem holds_run {motor : Fin 2 → Int16} {radioActive : Bool} {es : List PulseEvent}
    (h : pulses.Along InTime (init motor radioActive) es) :
    Holds (pulses.run (init motor radioActive) es) ∧
      Follows (Asked motor es) (pulses.run (init motor radioActive) es) := by
  have hstep (past : List PulseEvent) (_ : List (Option (Fin 2 → Bool))) (s : Pulse)
      (e : PulseEvent) (hs : Holds s ∧ Follows (Asked motor past) s) (he : s.InTime e) :
      Holds (pulses.next s e) ∧ Follows (Asked motor (past ++ [e])) (pulses.next s e) :=
    ⟨hs.1.next he, follows_next hs.1 hs.2 e⟩
  have hstart : Follows (Asked motor []) (init motor radioActive) :=
    ⟨fun i => ⟨motor i, Or.inl rfl, Or.inr ⟨rfl, rfl⟩⟩, fun _ => Or.inl rfl⟩
  exact pulses.trace_invariant hstep ⟨holds_init motor radioActive, hstart⟩ h

/-- The number of ticks. -/
def ticks (es : List PulseEvent) : ℕ :=
  es.countP fun
    | .tick => true
    | _ => false

/-- The levels of a pin, one for each tick. -/
def levels (i : Fin 2) (s : Pulse) (es : List PulseEvent) : List Bool :=
  (pulses.outputs s es).filterMap fun out => out.map fun level => level i

theorem ticks_append (es fs : List PulseEvent) : ticks (es ++ fs) = ticks es + ticks fs :=
  List.countP_append

theorem levels_append (i : Fin 2) (s : Pulse) (es fs : List PulseEvent) :
    levels i s (es ++ fs) = levels i s es ++ levels i (pulses.run s es) fs := by
  rw [levels, Machine.outputs_append, List.filterMap_append]
  rfl

/-- Between two ticks a compare value changes only if the handler is committed. -/
theorem cc_next {s : Pulse} (h : s.committed = false) (e : PulseEvent) (i : Fin 2) :
    ((pulses.next s e).channel i).cc = (s.channel i).cc := by
  obtain ⟨counter, compare3, radioActive, channel, handler⟩ := s
  cases e with
  | tick | radio => rfl
  | drive => cases handler <;> rfl
  | step =>
    cases handler with
    | idle => cases compare3 <;> rfl
    | begun => rfl
    | captured cc2 =>
      simp only [pulses, Pulse.step]
      split_ifs <;> rfl
    | passed | clamped | written => exact absurd h.symm Bool.false_ne_true

/-- The counter moves with the ticks only. -/
theorem counter_next (s : Pulse) {e : PulseEvent} (he : e ≠ .tick) :
    (pulses.next s e).counter = s.counter := by
  obtain ⟨counter, compare3, radioActive, channel, handler⟩ := s
  cases e with
  | tick => exact absurd rfl he
  | radio => rfl
  | drive => cases handler <;> rfl
  | step =>
    cases handler with
    | idle => cases compare3 <;> rfl
    | captured cc2 =>
      simp only [pulses, Pulse.step]
      split_ifs <;> rfl
    | begun | passed | clamped | written => rfl

/-- The levels of a period so far. -/
def wave (w n : ℕ) : List Bool :=
  (List.range n).map fun c => decide (c < w)

/-- Up to 1000 the compare value does not matter. -/
theorem wave_congr {w w' n : ℕ} (h : n ≤ w) (h' : n ≤ w') : wave w n = wave w' n :=
  List.map_congr_left fun c hc => by
    have hlt := List.mem_range.1 hc
    rw [decide_eq_true (hlt.trans_le h), decide_eq_true (hlt.trans_le h')]

theorem wave_eq {w n : ℕ} (h : w ≤ n) :
    wave w n = List.replicate w true ++ List.replicate (n - w) false := by
  apply List.ext_getElem
  · simp [wave, h]
  · intro c hc hc'
    by_cases hlt : c < w
    · simp [wave, hlt]
    · simp [wave, List.getElem_append, hlt]

/-- Within a period the levels are those of the compare value in force. -/
theorem levels_within {s : Pulse} (hs : Holds s) (hzero : s.counter = 0) {es : List PulseEvent}
    (h : pulses.Along InTime s es) (hticks : ticks es < 2500) :
    (pulses.run s es).counter = ticks es ∧ Holds (pulses.run s es) ∧
      ∀ i, levels i s es = wave ((pulses.run s es).channel i).cc.toNat (ticks es) := by
  induction es using List.reverseRecOn with
  | nil => exact ⟨hzero, hs, fun _ => rfl⟩
  | append_singleton es e ih =>
    rw [Machine.along_append, Machine.along_cons] at h
    rw [ticks_append] at hticks
    obtain ⟨hcounter, hholds, hlevels⟩ := ih h.1 (by omega)
    have hnext := hholds.next h.2.1
    rw [Machine.run_append, ticks_append]
    generalize hr : pulses.run s es = r at *
    by_cases he : e = .tick
    · subst he
      change ticks es + 1 < 2500 at hticks
      change (pulses.next r .tick).counter = ticks es + 1 ∧ Holds (pulses.next r .tick) ∧ _
      refine ⟨?_, hnext, fun i => ?_⟩
      · change (if r.counter + 1 = 2500 then 0 else r.counter + 1) = _
        rw [hcounter, if_neg hticks.ne]
      · rw [levels_append, hlevels, hr]
        change wave (r.channel i).cc.toNat (ticks es) ++ [(r.channel i).pin] =
          wave (r.channel i).cc.toNat (ticks es + 1)
        rw [(hholds.sound i).pin, hcounter, wave, wave, List.range_succ, List.map_append]
        rfl
    · have hnone : ticks [e] = 0 := by cases e <;> first | rfl | exact absurd rfl he
      have hsilent : ∀ i, levels i r [e] = [] := by
        intro i
        cases e <;> first | rfl | exact absurd rfl he
      rw [hnone, Nat.add_zero]
      refine ⟨(counter_next r he).trans hcounter, hnext, fun i => ?_⟩
      rw [levels_append, hr, hsilent, List.append_nil, hlevels]
      change wave (r.channel i).cc.toNat _ = wave ((pulses.next r e).channel i).cc.toNat _
      cases hcommitted : r.committed with
      | false => rw [cc_next hcommitted]
      | true =>
        have hearly := hholds.early hcommitted
        rw [hcounter] at hearly
        exact wave_congr (hearly.le.trans (hholds.sound i).low)
          (hearly.le.trans (hnext.sound i).low)

/-- The last tick of a list of events. -/
theorem exists_last_tick {n : ℕ} {es : List PulseEvent} (h : ticks es = n + 1) :
    ∃ pre post, es = pre ++ .tick :: post ∧ ticks pre = n ∧ ticks post = 0 := by
  induction es using List.reverseRecOn with
  | nil => exact absurd h (Nat.succ_ne_zero n).symm
  | append_singleton es e ih =>
    rw [ticks_append] at h
    by_cases he : e = .tick
    · subst he
      exact ⟨es, [], rfl, Nat.succ.inj h, rfl⟩
    · have hnone : ticks [e] = 0 := by cases e <;> first | rfl | exact absurd rfl he
      rw [hnone, Nat.add_zero] at h
      obtain ⟨pre, post, rfl, hpre, hpost⟩ := ih h
      exact ⟨pre, post ++ [e], by rw [List.append_assoc, List.cons_append], hpre, by
        rw [ticks_append, hpost, hnone]⟩

/-- Without a tick there are no levels. -/
theorem levels_eq_nil {es : List PulseEvent} (h : ticks es = 0) (i : Fin 2) (s : Pulse) :
    levels i s es = [] := by
  induction es generalizing s with
  | nil => rfl
  | cons e es ih =>
    cases e with
    | tick => exact absurd h (by simp [ticks])
    | step | radio | drive => exact ih h _

/-- However late the handler begins and whatever comes between its steps, as long as it is in
time every period of a motor is one pulse, of the first compare value or of one that comes
from a value asked for. -/
theorem one_pulse {motor : Fin 2 → Int16} {radioActive : Bool} {past period : List PulseEvent}
    (h : pulses.Along InTime (init motor radioActive) (past ++ period))
    (hstart : (pulses.run (init motor radioActive) past).counter = 0)
    (hperiod : ticks period = 2500) (i : Fin 2) :
    ∃ w, 1000 ≤ w ∧ w ≤ 2000 ∧ CompareValue (Asked motor (past ++ period) i) w ∧
      levels i (pulses.run (init motor radioActive) past) period =
        List.replicate w true ++ List.replicate (2500 - w) false := by
  obtain ⟨pre, post, rfl, hpre, hpost⟩ := exists_last_tick hperiod
  have hsplit : past ++ (pre ++ .tick :: post) = past ++ pre ++ .tick :: post :=
    (List.append_assoc _ _ _).symm
  have hbefore : pulses.Along InTime (init motor radioActive) (past ++ pre) := by
    rw [hsplit, Machine.along_append] at h
    exact h.1
  obtain ⟨hholds, hfollows⟩ := holds_run hbefore
  rw [Machine.along_append] at hbefore
  obtain ⟨hcounter, -, hlevels⟩ :=
    levels_within (holds_run hbefore.1).1 hstart hbefore.2 (by omega)
  rw [← Machine.run_append] at hcounter hlevels
  have hsound := hholds.sound i
  refine ⟨_, hsound.low, hsound.high, ?_, ?_⟩
  · rw [hsplit]
    exact (hfollows.cc i).imp_right fun ⟨m, hm, hw⟩ => ⟨m, hm.append _, hw⟩
  · have hlast : levels i (pulses.run (init motor radioActive) past) (pre ++ .tick :: post) =
        levels i (pulses.run (init motor radioActive) past) pre ++
          [((pulses.run (init motor radioActive) (past ++ pre)).channel i).pin] := by
      rw [levels_append, ← Machine.run_append]
      have hrest := levels_eq_nil hpost i
        (pulses.next (pulses.run (init motor radioActive) (past ++ pre)) .tick)
      change _ ++ (_ :: levels i _ post) = _
      rw [hrest]
    rw [hlast, hlevels, hsound.pin, hcounter, hpre,
      ← wave_eq (hsound.high.trans (by decide : 2000 ≤ 2500))]
    exact (List.range_succ ▸ List.map_append).symm

theorem along_ticks (n : ℕ) {s : Pulse} (h : s.committed = false) :
    pulses.Along InTime s (List.replicate n .tick) := by
  induction n generalizing s with
  | zero => trivial
  | succ n ih => exact ⟨fun hc => absurd (h.symm.trans hc) Bool.false_ne_true, ih h⟩

theorem ticks_ticks (n : ℕ) : ticks (List.replicate n .tick) = n := by
  rw [ticks, List.countP_replicate]
  rfl

/-- What the ticks alone do to what the handler reads. -/
theorem run_ticks (n : ℕ) {s : Pulse} (h : s.counter < 2500) :
    (pulses.run s (List.replicate n .tick)).handler = s.handler ∧
      (pulses.run s (List.replicate n .tick)).radioActive = s.radioActive ∧
      (pulses.run s (List.replicate n .tick)).counter = (s.counter + n) % 2500 ∧
      (pulses.run s (List.replicate n .tick)).compare3 =
        (s.compare3 || decide (2500 ≤ s.counter + n)) := by
  induction n generalizing s with
  | zero =>
    refine ⟨rfl, rfl, (Nat.mod_eq_of_lt h).symm, ?_⟩
    rw [Nat.add_zero, decide_eq_false (Nat.not_le.2 h), Bool.or_false]
    rfl
  | succ n ih =>
    rw [List.replicate_succ, Machine.run_cons]
    have hnext : s.tick.counter = if s.counter + 1 = 2500 then 0 else s.counter + 1 := rfl
    have hcompare : s.tick.compare3 = (s.compare3 || decide (s.counter + 1 = 2500)) := rfl
    obtain ⟨hhandler, hradio, hcounter, hcompare'⟩ := ih (s := s.tick) (by
      rw [hnext]
      split_ifs <;> omega)
    refine ⟨hhandler, hradio, hcounter.trans ?_, hcompare'.trans ?_⟩
    · rw [hnext]
      split_ifs <;> omega
    · rw [hcompare, hnext, Bool.or_assoc, ← Bool.decide_or]
      refine congrArg _ (decide_eq_decide.2 ?_)
      split_ifs <;> omega

/-- The first period, in which a motor value comes too late. -/
def firstPeriod : List PulseEvent :=
  .drive (fun _ => 400) :: List.replicate 2500 .tick

/-- The handler begins late, is interrupted, and writes the compare values. -/
def lateHandler : List PulseEvent :=
  [.tick, .step, .tick, .step, .radio, .radio, .tick, .step, .step, .drive fun _ => 700, .tick,
    .step, .tick, .step]

/-- The second period, of the values that it has written. -/
def secondPeriod : List PulseEvent :=
  lateHandler ++ List.replicate 2495 .tick

/-- From the end of the first period the handler is in time. -/
theorem along_lateHandler {s : Pulse} (hhandler : s.handler = .idle)
    (hradio : s.radioActive = false) (hcounter : s.counter = 0) (hcompare : s.compare3 = true) :
    pulses.Along InTime s lateHandler ∧ (pulses.run s lateHandler).committed = false := by
  obtain ⟨counter, compare3, radioActive, channel, handler⟩ := s
  subst hhandler hradio hcounter hcompare
  exact ⟨of_decide_eq_true rfl, rfl⟩

theorem one_pulse_written : ∃ w, 1000 ≤ w ∧ w ≤ 2000 ∧
    CompareValue (Asked (fun _ => 0) (firstPeriod ++ secondPeriod) 0) w ∧
      levels 0 (pulses.run (init (fun _ => 0) false) firstPeriod) secondPeriod =
        List.replicate w true ++ List.replicate (2500 - w) false := by
  obtain ⟨hhandler, hradio, hcounter, hcompare⟩ :=
    run_ticks 2500 (s := pulses.next (init (fun _ => 0) false) (.drive fun _ => 400)) (by decide)
  rw [← Machine.run_cons] at hhandler hradio hcounter hcompare
  have hstart : (pulses.run (init (fun _ => 0) false) firstPeriod).counter = 0 :=
    hcounter.trans (by decide)
  obtain ⟨hlate, hdone⟩ :=
    along_lateHandler hhandler hradio hstart (hcompare.trans (by decide))
  have hticks : ticks secondPeriod = 2500 := by
    rw [secondPeriod, ticks_append, ticks_ticks]
    rfl
  refine @one_pulse (fun _ => 0) false firstPeriod secondPeriod ?_ hstart hticks 0
  rw [Machine.along_append, secondPeriod, Machine.along_append]
  exact ⟨⟨trivial, along_ticks 2500 rfl⟩, hlate, along_ticks 2495 hdone⟩

end Pulse

end Quadrupel
