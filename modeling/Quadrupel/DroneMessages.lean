import Quadrupel.Control

/-!
# The drone's message handler

`in4073_message_helper.c` : `handle_message` on a receive buffer in which the parser has
accepted a message, with `change_p_values` and the replies. `build_message` never fails
on the payloads of the replies (`Msg.length_data_le`), so each is one message.

`handleMessage_received` says what the handler makes of the messages that the PC sends,
whatever earlier messages left in the buffer, and `handleMessage_eq` which globals a
message may change.
-/

namespace Quadrupel

namespace Drone

/-- The P value that `select` points to. -/
def pValue (d : Drone) : PValueSelect → Int8
  | .pYawControl => d.pYawControl
  | .p1PitchRollControl => d.p1
  | .p2PitchRollControl => d.p2

/-- Assignment through that pointer. -/
def setPValue (d : Drone) (select : PValueSelect) (value : Int8) : Drone :=
  match select with
  | .pYawControl => { d with pYawControl := value }
  | .p1PitchRollControl => { d with p1 := value }
  | .p2PitchRollControl => { d with p2 := value }

/-- The second switch of `change_p_values`, on the selected value. -/
def changePValue (mode value : UInt8) (p : Int8) : Int8 :=
  match PUpdateMode.ofByte? mode with
  | some .increment => if p < 126 then p + value.toInt8 else p
  | some .decrement => if p - value.toInt8 < 0 then 0 else p - value.toInt8
  | some .setAbsoluteValue => value.toInt8
  | none => p

/-- `change_p_values`. -/
def changePValues (select mode value : UInt8) (d : Drone) : Drone :=
  match PValueSelect.ofByte? select with
  | some s => d.setPValue s (changePValue mode value (d.pValue s))
  | none => d

/-- The message of `send_p_values_update`. -/
def pValuesUpdate (select : UInt8) (d : Drone) : Msg :=
  .pValuesUpdate select
    (match PValueSelect.ofByte? select with
    | some s => (d.pValue s).toUInt8
    | none => 0)

/-- `handle_message` : the mode set, or 0xFF, with the drone after it and its replies. -/
def handleMessage (receiveBuffer : Message) (d : Drone) : UInt8 × Drone × List Msg :=
  match MsgType.ofByte? receiveBuffer.messageType with
  | some .setMode =>
    let mode := receiveBuffer.data 0
    (mode, d, [.modeUpdate mode])
  | some .inputData =>
    (0xFF, { d with
      liftdata := (receiveBuffer.data 0).toInt8
      rolldata := (receiveBuffer.data 1).toInt8
      pitchdata := (receiveBuffer.data 2).toInt8
      yawdata := (receiveBuffer.data 3).toInt8 }, [])
  | some .setPValues =>
    let select := receiveBuffer.data 0
    let d := d.changePValues select (receiveBuffer.data 1) (receiveBuffer.data 2)
    (0xFF, d, [d.pValuesUpdate select])
  | _ => (0xFF, d, [])

/-! ## What the handler does -/

/-- The handler on the message itself, for each message that the PC sends. -/
def handle (d : Drone) : Msg → UInt8 × Drone × List Msg
  | .setMode mode => (mode, d, [.modeUpdate mode])
  | .inputData lift roll pitch yaw =>
    (0xFF, { d with liftdata := lift, rolldata := roll, pitchdata := pitch, yawdata := yaw }, [])
  | .setPValues select mode value =>
    let d := d.changePValues select mode value
    (0xFF, d, [d.pValuesUpdate select])
  | _ => (0xFF, d, [])

/-- What the buffer held before does not matter to a message that the PC sends. -/
theorem handleMessage_received (m : Msg) (stale : Message) (d : Drone) :
    d.handleMessage (m.received stale) = d.handle m := by
  have hdata (i : ℕ) (h : i < m.data.length) : (m.received stale).data i = m.data[i] :=
    m.data_received stale h
  unfold handleMessage
  rw [m.messageType_received, MsgType.ofByte?_toByte]
  cases m with
  | setMode mode =>
    have h0 := hdata 0 (by simp [Msg.data])
    simp only [Msg.messageType, handle]
    rw [h0]
    rfl
  | inputData lift roll pitch yaw =>
    have h0 := hdata 0 (by simp [Msg.data])
    have h1 := hdata 1 (by simp [Msg.data])
    have h2 := hdata 2 (by simp [Msg.data])
    have h3 := hdata 3 (by simp [Msg.data])
    simp only [Msg.messageType, handle]
    rw [h0, h1, h2, h3]
    rfl
  | setPValues select mode value =>
    have h0 := hdata 0 (by simp [Msg.data])
    have h1 := hdata 1 (by simp [Msg.data])
    have h2 := hdata 2 (by simp [Msg.data])
    simp only [Msg.messageType, handle]
    rw [h0, h1, h2]
    rfl
  | modeUpdate | pValuesUpdate | calibrationData | terminate => rfl

theorem changePValues_eq (select mode value : UInt8) (d : Drone) : ∃ pYawControl p1 p2,
    d.changePValues select mode value = { d with pYawControl, p1, p2 } := by
  unfold changePValues
  split
  · next s _ => cases s <;> exact ⟨_, _, _, rfl⟩
  · exact ⟨_, _, _, rfl⟩

theorem changePValues_frame (select mode value : UInt8) (d : Drone) :
    (d.changePValues select mode value).currentMode = d.currentMode ∧
      (d.changePValues select mode value).ae = d.ae := by
  obtain ⟨pYawControl, p1, p2, h⟩ := changePValues_eq select mode value d
  rw [h]
  exact ⟨rfl, rfl⟩

/-- The handler writes the sticks and the P values, and nothing else. -/
theorem handleMessage_eq (receiveBuffer : Message) (d : Drone) :
    ∃ liftdata rolldata pitchdata yawdata pYawControl p1 p2,
      (d.handleMessage receiveBuffer).2.1 =
        { d with liftdata, rolldata, pitchdata, yawdata, pYawControl, p1, p2 } := by
  unfold handleMessage
  split
  · exact ⟨_, _, _, _, _, _, _, rfl⟩
  · exact ⟨_, _, _, _, _, _, _, rfl⟩
  · obtain ⟨pYawControl, p1, p2, h⟩ := changePValues_eq (receiveBuffer.data 0)
      (receiveBuffer.data 1) (receiveBuffer.data 2) d
    exact ⟨_, _, _, _, pYawControl, p1, p2, h⟩
  · exact ⟨_, _, _, _, _, _, _, rfl⟩

/-- The handler itself sets no mode and no rotor : the mode is left to its caller. -/
theorem handleMessage_frame (receiveBuffer : Message) (d : Drone) :
    (d.handleMessage receiveBuffer).2.1.currentMode = d.currentMode ∧
      (d.handleMessage receiveBuffer).2.1.ae = d.ae := by
  obtain ⟨_, _, _, _, _, _, _, h⟩ := d.handleMessage_eq receiveBuffer
  rw [h]
  exact ⟨rfl, rfl⟩

end Drone

end Quadrupel
