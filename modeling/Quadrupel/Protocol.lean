import Quadrupel.Frame

/-!
# The message protocol

The enumerations of `message.h` and the messages that the two programs exchange. `Msg`
has one constructor per message that either program sends; `messageType` and `data`
give the type byte and the packed payload that its sender hands to `build_message`.

`received` is the receive buffer once the parser has accepted a message : the bytes of
the message with the CRC cleared, in front of what earlier messages left.
`parser_frame` says that the parser leaves just that, and `data_received` that
a handler reads the payload from it.
-/

namespace Quadrupel

/-! ## Enumerations -/

/-- `mode_type_e`. -/
inductive ModeType
  | safeMode
  | panicMode
  | manualMode
  | calibrationMode
  | yawControlMode
  | fullControlMode
  | rawMode
  | heightControlMode
  | wirelessMode
  | terminateMode
deriving DecidableEq, Repr

namespace ModeType

/-- The value of the mode in a message and in `current_mode`. -/
def toByte : ModeType → UInt8
  | safeMode => 0
  | panicMode => 1
  | manualMode => 2
  | calibrationMode => 3
  | yawControlMode => 4
  | fullControlMode => 5
  | rawMode => 6
  | heightControlMode => 7
  | wirelessMode => 8
  | terminateMode => 9

instance : Coe ModeType UInt8 :=
  ⟨toByte⟩

/-- The case that a `switch` on the byte takes, `none` for the default. -/
def ofByte? (b : UInt8) : Option ModeType :=
  [safeMode, panicMode, manualMode, calibrationMode, yawControlMode, fullControlMode, rawMode,
    heightControlMode, wirelessMode, terminateMode].find? fun m => m.toByte == b

@[simp] theorem ofByte?_toByte (m : ModeType) : ofByte? m.toByte = some m := by
  cases m <;> rfl

theorem ofByte?_eq_some {b : UInt8} {m : ModeType} : ofByte? b = some m ↔ b = m.toByte := by
  constructor
  · intro h
    have := List.find?_some h
    exact (eq_of_beq this).symm
  · rintro rfl
    exact ofByte?_toByte m

@[simp] theorem toByte_inj {m n : ModeType} : m.toByte = n.toByte ↔ m = n := by
  constructor
  · intro h
    exact Option.some.inj ((ofByte?_toByte m).symm.trans (h ▸ ofByte?_toByte n))
  · rintro rfl
    rfl

end ModeType

/-- `msg_type_e`. -/
inductive MsgType
  | setMode
  | modeUpdate
  | inputData
  | setPValues
  | pValuesUpdate
  | calibrationData
  | motorData
  | batteryData
  | barometerData
  | terminate
  | loggingData
deriving DecidableEq, Repr

namespace MsgType

/-- The `message_type` byte. -/
def toByte : MsgType → UInt8
  | setMode => 1
  | modeUpdate => 2
  | inputData => 3
  | setPValues => 4
  | pValuesUpdate => 5
  | calibrationData => 6
  | motorData => 7
  | batteryData => 8
  | barometerData => 9
  | terminate => 10
  | loggingData => 11

/-- The case that a `switch` on the byte takes, `none` for the default. -/
def ofByte? (b : UInt8) : Option MsgType :=
  [setMode, modeUpdate, inputData, setPValues, pValuesUpdate, calibrationData, motorData,
    batteryData, barometerData, terminate, loggingData].find? fun t => t.toByte == b

@[simp] theorem ofByte?_toByte (t : MsgType) : ofByte? t.toByte = some t := by
  cases t <;> rfl

theorem ofByte?_eq_some {b : UInt8} {t : MsgType} : ofByte? b = some t ↔ b = t.toByte := by
  constructor
  · intro h
    have := List.find?_some h
    exact (eq_of_beq this).symm
  · rintro rfl
    exact ofByte?_toByte t

end MsgType

/-- `p_value_select_e`. -/
inductive PValueSelect
  | pYawControl
  | p1PitchRollControl
  | p2PitchRollControl
deriving DecidableEq, Repr

namespace PValueSelect

/-- The `select` byte. -/
def toByte : PValueSelect → UInt8
  | pYawControl => 1
  | p1PitchRollControl => 2
  | p2PitchRollControl => 3

/-- The case that a `switch` on the byte takes, `none` for the default. -/
def ofByte? (b : UInt8) : Option PValueSelect :=
  [pYawControl, p1PitchRollControl, p2PitchRollControl].find? fun s => s.toByte == b

end PValueSelect

/-- `p_update_mode_e`. -/
inductive PUpdateMode
  | increment
  | decrement
  | setAbsoluteValue
deriving DecidableEq, Repr

namespace PUpdateMode

/-- The `mode` byte of `set_p_values_t`. -/
def toByte : PUpdateMode → UInt8
  | increment => 1
  | decrement => 2
  | setAbsoluteValue => 3

/-- The case that a `switch` on the byte takes, `none` for the default. -/
def ofByte? (b : UInt8) : Option PUpdateMode :=
  [increment, decrement, setAbsoluteValue].find? fun m => m.toByte == b

end PUpdateMode

/-! ## Messages -/

/-- The nine values of `calibration_data_t`, which are also those of the sensors. -/
structure Sensors where
  phi : Int16
  theta : Int16
  psi : Int16
  sp : Int16
  sq : Int16
  sr : Int16
  sax : Int16
  say : Int16
  saz : Int16
deriving DecidableEq, Repr

/-- All values zero, as the globals start. -/
def Sensors.zero : Sensors :=
  ⟨0, 0, 0, 0, 0, 0, 0, 0, 0⟩

/-- The messages that one of the programs sends. -/
inductive Msg
  | setMode (mode : UInt8)
  | modeUpdate (mode : UInt8)
  | inputData (lift roll pitch yaw : Int8)
  | setPValues (select mode value : UInt8)
  | pValuesUpdate (select value : UInt8)
  | calibrationData (data : Sensors)
  | terminate
deriving DecidableEq, Repr

namespace Msg

/-- The type that the sender passes to `build_message`. -/
def messageType : Msg → MsgType
  | setMode _ => .setMode
  | modeUpdate _ => .modeUpdate
  | inputData .. => .inputData
  | setPValues .. => .setPValues
  | pValuesUpdate .. => .pValuesUpdate
  | calibrationData _ => .calibrationData
  | terminate => .terminate

/-- The two bytes of a packed `int16_t`, low byte first. -/
def int16Bytes (x : Int16) : List UInt8 :=
  [x.toUInt16.toUInt8, (x.toUInt16 >>> 8).toUInt8]

/-- The packed payload that the sender passes to `build_message`. -/
def data : Msg → List UInt8
  | setMode mode => [mode]
  | modeUpdate mode => [mode]
  | inputData lift roll pitch yaw => [lift.toUInt8, roll.toUInt8, pitch.toUInt8, yaw.toUInt8]
  | setPValues select mode value => [select, mode, value]
  | pValuesUpdate select value => [select, value]
  | calibrationData d => [d.phi, d.theta, d.psi, d.sp, d.sq, d.sr, d.sax, d.say, d.saz].flatMap
      int16Bytes
  | terminate => []

/-- The mode that the message asks for. -/
def mode? : Msg → Option UInt8
  | setMode mode => some mode
  | _ => none

/-- The mode that the message confirms. -/
def update? : Msg → Option UInt8
  | modeUpdate mode => some mode
  | _ => none

theorem length_data_le (m : Msg) : m.data.length ≤ sizeofData := by
  cases m <;> simp [data, int16Bytes, sizeofData]

/-- The bytes of the message : type, CRC, payload. -/
def bytes (m : Msg) : List UInt8 :=
  messageBytes m.messageType.toByte m.data

theorem length_bytes (m : Msg) : m.bytes.length = m.data.length + 3 :=
  rfl

/-- The frame of the message. -/
def frame (m : Msg) : List UInt8 :=
  startByte :: stuffing.stuff m.bytes ++ [endByte]

/-- The PC emits just the frame. -/
theorem pc_sendMessage (m : Msg) :
    sendBuilt Pc.sendMessage (buildMessage m.messageType.toByte m.data) = m.frame := by
  rw [sendBuilt, length_buildMessage _ m.length_data_le, if_pos (Nat.succ_pos _), Pc.sendMessage,
    bytes_buildMessage _ m.length_data_le]
  rfl

/-- The drone adds a newline, which the parser stores in front of the next frame. -/
theorem drone_sendMessage (m : Msg) :
    sendBuilt Drone.sendMessage (buildMessage m.messageType.toByte m.data) = m.frame ++ [0x0A] := by
  rw [sendBuilt, length_buildMessage _ m.length_data_le, if_pos (Nat.succ_pos _),
    Drone.sendMessage, bytes_buildMessage _ m.length_data_le, frame, List.append_assoc]
  rfl

/-- The receive buffer after the message was accepted, where `stale` was its content. -/
def received (m : Msg) (stale : Message) : Message :=
  (stale.write 0 m.bytes).setCrc 0

theorem length_bytes_le (m : Msg) : m.bytes.length ≤ sizeofMessage :=
  Nat.add_le_add_right m.length_data_le 3

/-- A frame without reserved bytes in its message leaves the parser with the message in
its buffer. -/
theorem parser_frame (m : Msg) (hm : ∀ b ∈ m.bytes, ¬IsControl b) (i : ℕ) (stale : Message) :
    parser.run ⟨i, false, stale⟩ (startByte :: stuffing.stuff m.bytes ++ [endByte]) =
      ⟨0, false, m.received stale⟩ := by
  have hesc : (switch.run ⟨0, false, stale⟩ m.bytes).isEscaped = false := isEscaped_run_switch _ _
  rw [Machine.run_append, run_frame, Machine.run_cons, Machine.run_nil, parser_next,
    parser_endByte hesc, endByte_accepts stale hm (by rw [length_bytes]; omega) m.length_bytes_le
      (crcField_messageBytes _ _)]
  rfl

theorem getElem_received (m : Msg) (stale : Message) {i : ℕ} (hi : i < sizeofMessage) (h1 : i ≠ 1)
    (h2 : i ≠ 2) : (m.received stale)[i] = m.bytes.getD i stale[i] := by
  rw [received, Message.getElem_setCrc _ _ hi h1 h2, Message.getElem_write, if_pos (Nat.zero_le i),
    Nat.sub_zero]

@[simp] theorem messageType_received (m : Msg) (stale : Message) :
    (m.received stale).messageType = m.messageType.toByte :=
  m.getElem_received stale (by decide) (by decide) (by decide)

/-- A handler reads the payload of an accepted message. -/
theorem data_received (m : Msg) (stale : Message) {i : ℕ} (h : i < m.data.length) :
    (m.received stale).data i = m.data[i] := by
  have hi : i + 3 < sizeofMessage := Nat.add_lt_add_right (h.trans_le m.length_data_le) 3
  rw [Message.data_of_lt _ hi, m.getElem_received stale hi (by omega) (by omega)]
  exact List.getD_eq_getElem m.data _ h

end Msg

/-- The modes that the messages ask for. -/
def sentModes (ms : List Msg) : List UInt8 :=
  ms.filterMap Msg.mode?

theorem mem_sentModes {ms : List Msg} {mode : UInt8} :
    mode ∈ sentModes ms ↔ .setMode mode ∈ ms := by
  constructor
  · intro h
    obtain ⟨m, hm, hmode⟩ := List.mem_filterMap.1 h
    cases m with
    | setMode x => exact Option.some.inj hmode ▸ hm
    | modeUpdate | inputData | setPValues | pValuesUpdate | calibrationData | terminate =>
      cases hmode
  · exact fun h => List.mem_filterMap.2 ⟨_, h, rfl⟩

end Quadrupel
