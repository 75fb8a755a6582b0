import Quadrupel.Joystick
import Quadrupel.Protocol

/-!
# The PC's messages

`pc_message_helper.c` : what `select_message` does with a key, and `handle_message` on a
receive buffer in which the parser has accepted a message. `keyAction` is the switch of
`select_message`, whose cases are of three kinds : a mode request, some only with the
sticks at rest, a trim, and a change of a P value.

The send buffer is shared by all messages, and a message takes its payload from it.
`selectedMode` is the mode that a key sends, and `selectMessage_frame` says what no key
changes.
-/

namespace Quadrupel

/-- The globals and the variables of the PC's `main` that its messages depend on. -/
structure Pc where
  joystick : Joystick
  sendBuffer : Message
  calibrationHasBeenDone : Bool
  modeRequested : UInt8
  modeReceived : UInt8
  retval : UInt8
  tMessageExpect : Timespec
  tJoystick : Timespec
  demoDone : Bool

/-- The message that `build_and_send_message` makes of the send buffer, if it knows the
type. -/
def Message.toSend? (sendBuffer : Message) : MsgType → Option Msg
  | .setMode => some (.setMode (sendBuffer.data 0))
  | .inputData => some (.inputData (sendBuffer.data 0).toInt8 (sendBuffer.data 1).toInt8
      (sendBuffer.data 2).toInt8 (sendBuffer.data 3).toInt8)
  | .terminate => some .terminate
  | .setPValues => some (.setPValues (sendBuffer.data 0) (sendBuffer.data 1) (sendBuffer.data 2))
  | _ => none

namespace Pc

/-- `build_and_send_message`, which leaves the built message in the send buffer. -/
def buildAndSendMessage (msgType : MsgType) (p : Pc) : Pc × List Msg :=
  match p.sendBuffer.toSend? msgType with
  | some m => ({ p with sendBuffer := (buildMessage m.messageType.toByte m.data).2 }, [m])
  | none => (p, [])

/-- What a key asks for. -/
inductive KeyAction
  | mode (m : ModeType) (atRest : Bool)
  | trim (axis : Axis) (offset : Int8)
  | pValue (select : PValueSelect) (mode : PUpdateMode)
  | invalid
deriving DecidableEq

/-- The mode that is asked for, and whether only with the sticks at rest. -/
def KeyAction.mode? : KeyAction → Option (ModeType × Bool)
  | .mode m atRest => some (m, atRest)
  | _ => none

/-- The case of the switch of `select_message` that a key takes. -/
def keyAction (c : UInt8) : KeyAction :=
  match Char.ofUInt8 c with
  | '0' => .mode .safeMode false
  | '1' => .mode .panicMode false
  | '3' => .mode .calibrationMode false
  | '2' => .mode .manualMode true
  | '4' => .mode .yawControlMode true
  | '5' => .mode .fullControlMode true
  | '6' => .mode .rawMode true
  | '9' => .mode .terminateMode false
  | '\x1b' => .mode .terminateMode false
  | 'a' => .trim .lift 1
  | 'z' => .trim .lift (-1)
  | 's' => .trim .roll 1
  | 'x' => .trim .roll (-1)
  | 'd' => .trim .pitch (-1)
  | 'c' => .trim .pitch 1
  | 'q' => .trim .yaw (-1)
  | 'w' => .trim .yaw 1
  | 'u' => .pValue .pYawControl .increment
  | 'j' => .pValue .pYawControl .decrement
  | 'i' => .pValue .p1PitchRollControl .increment
  | 'k' => .pValue .p1PitchRollControl .decrement
  | 'o' => .pValue .p2PitchRollControl .increment
  | 'l' => .pValue .p2PitchRollControl .decrement
  | _ => .invalid

/-- A case of `select_message` that sends `SET_MODE`. -/
def sendMode (mode : UInt8) (p : Pc) : Pc × List Msg :=
  { p with sendBuffer := p.sendBuffer.setData 0 mode }.buildAndSendMessage .setMode

/-- A case of `select_message` that moves an offset. -/
def trim (axis : Axis) (offset : Int8) (p : Pc) : Pc :=
  { p with joystick := p.joystick.setOffset axis (p.joystick.axisOffsets axis + offset) }

/-- A case of `select_message` that sends `SET_P_VALUES`. -/
def sendPValue (select : PValueSelect) (mode : PUpdateMode) (p : Pc) : Pc × List Msg :=
  { p with
    sendBuffer := ((p.sendBuffer.setData 0 select.toByte).setData 1 mode.toByte).setData 2 1
  }.buildAndSendMessage .setPValues

/-- `select_message` : the mode requested, or 0xFF if no mode is set, with the PC after it
and the messages sent. -/
def selectMessage (c : UInt8) (p : Pc) : UInt8 × Pc × List Msg :=
  match keyAction c with
  | .mode m atRest =>
    if atRest && !p.joystick.isJoystickZero then (0xFF, p, []) else (m.toByte, p.sendMode m)
  | .trim axis offset => (0xFF, p.trim axis offset, [])
  | .pValue select mode => (0xFF, p.sendPValue select mode)
  | .invalid => (0xFF, p, [])

/-- `handle_message` : the mode in an update, the escape character for a `MSG_TERMINATE`, else
0xFF. -/
def handleMessage (receiveBuffer : Message) : UInt8 :=
  match MsgType.ofByte? receiveBuffer.messageType with
  | some .modeUpdate => receiveBuffer.data 0
  | some .terminate => 27
  | _ => 0xFF

/-! ## What a key does -/

theorem sendMode_eq (mode : UInt8) (p : Pc) : p.sendMode mode =
    ({ p with sendBuffer := (buildMessage MsgType.setMode.toByte [mode]).2 }, [.setMode mode]) := by
  simp [sendMode, buildAndSendMessage, Message.toSend?, Msg.messageType, Msg.data, sizeofMessage]

theorem sendPValue_eq (select : PValueSelect) (mode : PUpdateMode) (p : Pc) :
    p.sendPValue select mode =
      ({ p with sendBuffer :=
          (buildMessage MsgType.setPValues.toByte [select.toByte, mode.toByte, 1]).2 },
        [.setPValues select.toByte mode.toByte 1]) := by
  simp [sendPValue, buildAndSendMessage, Message.toSend?, Msg.messageType, Msg.data,
    sizeofMessage]

/-- A key writes no global but the offsets and the send buffer. -/
theorem selectMessage_frame (c : UInt8) (p : Pc) : ∃ axisOffsets sendBuffer,
    (p.selectMessage c).2.1 =
      { p with joystick := { p.joystick with axisOffsets }, sendBuffer } := by
  unfold selectMessage
  split
  · rw [sendMode_eq]
    split_ifs
    · exact ⟨_, _, rfl⟩
    · exact ⟨_, _, rfl⟩
  · exact ⟨_, _, rfl⟩
  · rw [sendPValue_eq]
    exact ⟨_, _, rfl⟩
  · exact ⟨_, _, rfl⟩

/-- The mode that a key sends and returns, if it does. -/
def selectedMode (c : UInt8) (p : Pc) : Option UInt8 :=
  match keyAction c with
  | .mode m atRest => if atRest && !p.joystick.isJoystickZero then none else some m.toByte
  | _ => none

theorem selectedMode_eq_some {c : UInt8} {p : Pc} {mode : UInt8}
    (h : p.selectedMode c = some mode) :
    ∃ m atRest, keyAction c = .mode m atRest ∧ (atRest = true → p.joystick.AtRest) ∧ mode = m := by
  unfold selectedMode at h
  split at h
  · next m atRest hkey =>
    split_ifs at h with hrest
    refine ⟨m, atRest, hkey, fun hat => ?_, (Option.some.inj h).symm⟩
    rw [← Joystick.isJoystickZero_iff]
    simpa [hat] using hrest
  · simp at h

theorem selectMessage_fst (c : UInt8) (p : Pc) :
    (p.selectMessage c).1 = (p.selectedMode c).getD 0xFF := by
  unfold selectMessage selectedMode
  cases keyAction c with
  | mode m atRest =>
    simp only
    split_ifs <;> rfl
  | trim | pValue | invalid => rfl

@[simp] theorem sentModes_selectMessage (c : UInt8) (p : Pc) :
    sentModes (p.selectMessage c).2.2 = (p.selectedMode c).toList := by
  unfold selectMessage selectedMode
  cases keyAction c with
  | mode m atRest =>
    simp only [sendMode_eq]
    split_ifs <;> rfl
  | trim | invalid => rfl
  | pValue select mode =>
    simp only [sendPValue_eq]
    rfl

end Pc

end Quadrupel
