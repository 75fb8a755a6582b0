import Quadrupel.DroneMessages

/-!
# The main loop of the drone

`main` of `in4073.c`. An iteration of its loop runs up to three blocks, each behind a
test of its own : the sensors, a byte of the receive queue, the timer. `droneLoop` is
the machine whose events are the blocks, in any order; a byte counts when it completes a
message, which is then in the receive buffer. `droneMain` is the machine below it, which
reads the bytes one by one and keeps the clock. Its events say how much time passes
before a block, `get_time_us` is that time modulo 2^32, and `acceptedAt` is when the
last message was accepted. A run of `droneMain` is a run of `droneLoop`
(`run_droneMain`).

The loop ends when `demo_done` is set; the machines let the blocks go on after that.
-/

namespace Quadrupel

namespace Drone

/-- The block that handles an accepted message, at the time `now`. -/
def acceptMessage (receiveBuffer : Message) (now : UInt32) (d : Drone) : Drone × List Msg :=
  let (retval, d, replies) := d.handleMessage receiveBuffer
  ({ d with
    currentMode := if retval < 0x0F then retval else d.currentMode
    timeLastMsg := now }, replies)

/-- The part of the timer block that checks the battery, every 20 · 8 ticks. -/
def checkBatVolt (batVolt : UInt16) (d : Drone) : Drone :=
  let due := d.counter % 20 = 0
  let d := { d with counter := d.counter + 1 }
  if due then
    let low := d.batVoltCounter % 8 = 0 ∧ batVolt.toNat * 12 / 1169 ≤ 11
    let d := { d with batVoltCounter := d.batVoltCounter + 1 }
    if low then { d with currentMode := ModeType.panicMode } else d
  else d

/-- The part of the timer block that checks the time since the last message. -/
def checkMsgTimeout (now : UInt32) (d : Drone) : Drone :=
  if now - d.timeLastMsg > 1000000 then { d with currentMode := ModeType.panicMode } else d

/-- The timer block. -/
def checkTimer (batVolt : UInt16) (now : UInt32) (d : Drone) : Drone :=
  (d.checkBatVolt batVolt).checkMsgTimeout now

end Drone

/-- The blocks of the loop. -/
inductive DroneEvent
  | control (sensors : Sensors)
  | message (receiveBuffer : Message) (now : UInt32)
  | timer (batVolt : UInt16) (now : UInt32)

/-- The loop of the drone, with the messages that it sends. -/
def droneLoop : Machine Drone DroneEvent (List Msg) where
  next d
    | .control sensors => (d.controlTick sensors).1
    | .message receiveBuffer now => (d.acceptMessage receiveBuffer now).1
    | .timer batVolt now => d.checkTimer batVolt now
  out d
    | .control sensors => (d.controlTick sensors).2
    | .message receiveBuffer now => (d.acceptMessage receiveBuffer now).2
    | .timer _ _ => []

/-! ## What each block does to the mode and the rotors -/

/-- The mode that `main` stores when it accepts the message, if any. -/
def Message.storedMode (m : Message) : Option UInt8 :=
  if m.messageType = MsgType.setMode.toByte ∧ m.data 0 < 0x0F then some (m.data 0) else none

namespace Drone

theorem acceptMessage_currentMode (m : Message) (now : UInt32) (d : Drone) :
    (d.acceptMessage m now).1.currentMode = m.storedMode.getD d.currentMode := by
  have hframe := (d.handleMessage_frame m).1
  have hfail : ¬(0xFF : UInt8) < 0x0F := by decide
  unfold acceptMessage Message.storedMode
  simp only [hframe]
  unfold handleMessage
  split
  · next h =>
    rw [MsgType.ofByte?_eq_some.1 h]
    split_ifs <;> simp_all
  · next h =>
    rw [MsgType.ofByte?_eq_some.1 h]
    simp [hfail, MsgType.toByte]
  · next h =>
    rw [MsgType.ofByte?_eq_some.1 h]
    simp [hfail, MsgType.toByte]
  · next h _ _ =>
    have htype : ¬m.messageType = MsgType.setMode.toByte := fun heq =>
      h (heq ▸ MsgType.ofByte?_toByte .setMode)
    simp [hfail, htype]

@[simp] theorem acceptMessage_ae (m : Message) (now : UInt32) (d : Drone) :
    (d.acceptMessage m now).1.ae = d.ae :=
  (d.handleMessage_frame m).2

/-- The block writes the mode, the sticks, the P values and the time, and nothing else. -/
theorem acceptMessage_eq (m : Message) (now : UInt32) (d : Drone) :
    ∃ currentMode liftdata rolldata pitchdata yawdata pYawControl p1 p2,
      (d.acceptMessage m now).1 = { d with
        currentMode, liftdata, rolldata, pitchdata, yawdata, pYawControl, p1, p2,
        timeLastMsg := now } := by
  obtain ⟨liftdata, rolldata, pitchdata, yawdata, pYawControl, p1, p2, h⟩ := d.handleMessage_eq m
  simp only [acceptMessage, h]
  exact ⟨_, liftdata, rolldata, pitchdata, yawdata, pYawControl, p1, p2, rfl⟩

/-- The timer block writes the mode and its counters. -/
theorem checkTimer_eq (batVolt : UInt16) (now : UInt32) (d : Drone) :
    ∃ currentMode counter batVoltCounter,
      d.checkTimer batVolt now = { d with currentMode, counter, batVoltCounter } := by
  simp only [checkTimer, checkMsgTimeout, checkBatVolt]
  split_ifs <;> exact ⟨_, _, _, rfl⟩

@[simp] theorem checkBatVolt_timeLastMsg (batVolt : UInt16) (d : Drone) :
    (d.checkBatVolt batVolt).timeLastMsg = d.timeLastMsg := by
  simp only [checkBatVolt]
  split_ifs <;> rfl

theorem checkBatVolt_currentMode (batVolt : UInt16) (d : Drone) :
    (d.checkBatVolt batVolt).currentMode =
      if d.counter % 20 = 0 ∧ d.batVoltCounter % 8 = 0 ∧ batVolt.toNat * 12 / 1169 ≤ 11
        then ModeType.panicMode.toByte else d.currentMode := by
  simp only [checkBatVolt]
  by_cases hdue : d.counter % 20 = 0
  · simp only [hdue, true_and, if_true]
    split_ifs <;> rfl
  · simp only [hdue, false_and, if_false]

/-- The battery is checked and low, or no message was accepted for a second. -/
def Failsafe (batVolt : UInt16) (now : UInt32) (d : Drone) : Prop :=
  (d.counter % 20 = 0 ∧ d.batVoltCounter % 8 = 0 ∧ batVolt.toNat * 12 / 1169 ≤ 11) ∨
    now - d.timeLastMsg > 1000000

instance (batVolt : UInt16) (now : UInt32) (d : Drone) : Decidable (d.Failsafe batVolt now) :=
  inferInstanceAs (Decidable (_ ∨ _))

/-- The timer block starts a panic or keeps the mode. -/
theorem checkTimer_currentMode (batVolt : UInt16) (now : UInt32) (d : Drone) :
    (d.checkTimer batVolt now).currentMode =
      if d.Failsafe batVolt now then ModeType.panicMode.toByte else d.currentMode := by
  unfold checkTimer checkMsgTimeout
  rw [checkBatVolt_timeLastMsg]
  by_cases htime : now - d.timeLastMsg > 1000000
  · have hfail : d.Failsafe batVolt now := Or.inr htime
    rw [if_pos htime, if_pos hfail]
  · rw [if_neg htime, checkBatVolt_currentMode]
    refine if_congr ⟨Or.inl, fun hfail => ?_⟩ rfl rfl
    exact hfail.resolve_right htime

theorem checkTimer_mode_cases (batVolt : UInt16) (now : UInt32) (d : Drone) :
    (d.checkTimer batVolt now).currentMode = d.currentMode ∨
      (d.checkTimer batVolt now).currentMode = ModeType.panicMode := by
  rw [checkTimer_currentMode]
  split_ifs
  · exact Or.inr rfl
  · exact Or.inl rfl

@[simp] theorem checkTimer_ae (batVolt : UInt16) (now : UInt32) (d : Drone) :
    (d.checkTimer batVolt now).ae = d.ae := by
  simp only [checkTimer, checkMsgTimeout, checkBatVolt]
  split_ifs <;> rfl

@[simp] theorem controlTick_timeLastMsg (sensors : Sensors) (d : Drone) :
    (d.controlTick sensors).1.timeLastMsg = d.timeLastMsg := by
  obtain ⟨_, _, _, _, _, _, _, _, _, _, h⟩ := d.controlTick_eq sensors
  rw [h]

@[simp] theorem checkTimer_timeLastMsg (batVolt : UInt16) (now : UInt32) (d : Drone) :
    (d.checkTimer batVolt now).timeLastMsg = d.timeLastMsg := by
  simp only [checkTimer, checkMsgTimeout]
  split_ifs <;> simp

theorem controlTick_replies (sensors : Sensors) (d : Drone) :
    (d.controlTick sensors).2.filterMap Msg.update? = [] := by
  rw [(d.controlTick_calibration sensors).2.2]
  split_ifs <;> rfl

/-- Only a `SET_MODE` is confirmed, with the mode that it asks for. -/
theorem handleMessage_confirms {m : Message} {d : Drone} {mode : UInt8}
    (h : Msg.modeUpdate mode ∈ (d.handleMessage m).2.2) :
    m.messageType = MsgType.setMode.toByte ∧ m.data 0 = mode := by
  unfold handleMessage at h
  split at h
  · next htype =>
    obtain rfl := Msg.modeUpdate.inj (List.mem_singleton.1 h)
    exact ⟨MsgType.ofByte?_eq_some.1 htype, rfl⟩
  · simp at h
  · simp [pValuesUpdate] at h
  · simp at h

end Drone

/-! ## Bytes and the clock -/

/-- `get_time_us`, at `time` µs after the timer started. -/
def getTimeUs (time : ℕ) : UInt32 :=
  UInt32.ofNat time

/-- The drone with the variables of its receive block, the time, and the time at which
the last message was accepted. -/
structure DroneMain where
  drone : Drone
  parser : Parser
  time : ℕ
  acceptedAt : ℕ

/-- The blocks, with the byte that is read or the battery reading. -/
inductive DroneBlock
  | control (sensors : Sensors)
  | char (c : UInt8)
  | timer (batVolt : UInt16)

/-- A block, `wait` µs after the one before. -/
structure MainEvent where
  wait : ℕ
  block : DroneBlock

namespace DroneMain

/-- The state when the loop is entered, `time` µs after the timer started. -/
def start (time : ℕ) : DroneMain where
  drone := .powerUp (getTimeUs time)
  parser := ⟨0, false, Vector.replicate sizeofMessage 0⟩
  time := time
  acceptedAt := time

/-- The time passes. -/
def waited (s : DroneMain) (wait : ℕ) : DroneMain :=
  { s with time := s.time + wait }

/-- The length of the message that the block accepts, 0 if it accepts none. -/
def accepted (s : DroneMain) : DroneBlock → ℕ
  | .char c => (parseMessage c s.parser).1
  | _ => 0

/-- A block of the loop. -/
def runBlock (s : DroneMain) : DroneBlock → DroneMain × List Msg
  | .control sensors =>
    let (drone, sent) := s.drone.controlTick sensors
    ({ s with drone }, sent)
  | .char c =>
    let (messageLen, parser) := parseMessage c s.parser
    if messageLen > 0 then
      let (drone, sent) := s.drone.acceptMessage parser.buffer (getTimeUs s.time)
      ({ s with drone, parser, acceptedAt := s.time }, sent)
    else ({ s with parser }, [])
  | .timer batVolt => ({ s with drone := s.drone.checkTimer batVolt (getTimeUs s.time) }, [])

/-- The event of `droneLoop` that the block is, none for a byte that completes no
message. -/
def events (s : DroneMain) : DroneBlock → List DroneEvent
  | .control sensors => [.control sensors]
  | .char c =>
    if (parseMessage c s.parser).1 > 0 then
      [.message (parseMessage c s.parser).2.buffer (getTimeUs s.time)]
    else []
  | .timer batVolt => [.timer batVolt (getTimeUs s.time)]

end DroneMain

/-- The loop of the drone, byte by byte. -/
def droneMain : Machine DroneMain MainEvent (List Msg) where
  next s e := ((s.waited e.wait).runBlock e.block).1
  out s e := ((s.waited e.wait).runBlock e.block).2

/-- What the drone does with a byte. -/
theorem droneMain_char (s : DroneMain) (wait : ℕ) (c : UInt8) :
    (droneMain.next s ⟨wait, .char c⟩).parser = (parseMessage c s.parser).2 ∧
      ((parseMessage c s.parser).1 = 0 → (droneMain.next s ⟨wait, .char c⟩).drone = s.drone ∧
        droneMain.out s ⟨wait, .char c⟩ = []) ∧
      (0 < (parseMessage c s.parser).1 →
        let accepted :=
          s.drone.acceptMessage (parseMessage c s.parser).2.buffer (getTimeUs (s.time + wait))
        (droneMain.next s ⟨wait, .char c⟩).drone = accepted.1 ∧
          droneMain.out s ⟨wait, .char c⟩ = accepted.2) := by
  simp only [droneMain, DroneMain.waited, DroneMain.runBlock]
  refine ⟨?_, fun hzero => ?_, fun hpos => ?_⟩
  · by_cases hpos : 0 < (parseMessage c s.parser).1 <;> simp [hpos]
  · simp [hzero]
  · simp [hpos]

/-- A run on bytes and time is a run of the loop on the messages that the parser
accepts. -/
theorem run_droneMain (s : DroneMain) (es : List MainEvent) :
    (droneMain.run s es).drone = droneLoop.run s.drone
      (droneMain.translate (fun s e => (s.waited e.wait).events e.block) s es) := by
  have hstep (s : DroneMain) (e : MainEvent) : (droneMain.next s e).drone =
      droneLoop.run s.drone ((s.waited e.wait).events e.block) := by
    obtain ⟨wait, block⟩ := e
    cases block with
    | control | timer => rfl
    | char c =>
      simp only [droneMain, DroneMain.runBlock, DroneMain.events]
      split_ifs <;> rfl
  exact droneMain.run_refines droneLoop hstep s es

end Quadrupel
