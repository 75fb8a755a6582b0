import Quadrupel.PcMain
import Mathlib

/-!
# What the PC puts on the wire

`build_and_send_message` copies the union that its caller has written the fields to out of
the send buffer, clears the buffer, and copies back as many bytes as the type has. So a
frame holds what was assigned just before the call and nothing that an earlier message
left (`buildAndSendBytes_eq`), and what a key or a poll of the joystick puts on the wire
does not depend on the send buffer at all.

`keyBytes` and `pollBytes` are those bytes, and `keyMessages` and `pollMessages` the
messages that the two assign.
-/

namespace Quadrupel

namespace Pc

/-- The length that `build_and_send_message` chooses for the payload. -/
def dataLen? : MsgType → Option ℕ
  | .setMode => some 1
  | .inputData => some 4
  | .terminate => some 0
  | .setPValues => some 3
  | _ => none

/-- `build_and_send_message` : the send buffer after it, and the bytes on the wire. -/
def buildAndSendBytes (msgType : MsgType) (sendBuffer : Message) : Message × List UInt8 :=
  let data := (List.range sizeofData).map sendBuffer.data
  match dataLen? msgType with
  | some dataLen =>
    let built := buildMessage msgType.toByte (data.take dataLen)
    (built.2, sendBuilt sendMessage built)
  | none => (sendBuffer, [])

/-- The fields of the type are the ones that are copied out and back. -/
theorem take_data {msgType : MsgType} {dataLen : ℕ} (h : dataLen? msgType = some dataLen)
    (sendBuffer : Message) : ∃ m, sendBuffer.toSend? msgType = some m ∧ m.messageType = msgType ∧
      ((List.range sizeofData).map sendBuffer.data).take dataLen = m.data := by
  cases msgType with
  | setMode | terminate | setPValues =>
    obtain rfl := Option.some.inj h
    exact ⟨_, rfl, rfl, rfl⟩
  | inputData =>
    obtain rfl := Option.some.inj h
    refine ⟨_, rfl, rfl, ?_⟩
    simp only [Msg.data, UInt8.toUInt8_toInt8]
    rfl
  | modeUpdate | pValuesUpdate | calibrationData | motorData | batteryData | barometerData
  | loggingData => cases h

/-- The bytes are the frame of the message, and the buffer is left as it was built. -/
theorem buildAndSendBytes_eq (msgType : MsgType) (p : Pc) :
    buildAndSendBytes msgType p.sendBuffer = ((p.buildAndSendMessage msgType).1.sendBuffer,
      (p.buildAndSendMessage msgType).2.flatMap Msg.frame) := by
  unfold buildAndSendBytes buildAndSendMessage
  cases h : dataLen? msgType with
  | none =>
    cases msgType with
    | setMode | inputData | terminate | setPValues => cases h
    | modeUpdate | pValuesUpdate | calibrationData | motorData | batteryData | barometerData
    | loggingData => rfl
  | some dataLen =>
    obtain ⟨m, hsend, rfl, hdata⟩ := take_data h p.sendBuffer
    simp only [hsend, hdata, Msg.pc_sendMessage, List.flatMap_cons, List.flatMap_nil,
      List.append_nil]

/-- What `select_message` puts on the wire. -/
def keyBytes (c : UInt8) (p : Pc) : List UInt8 :=
  match keyAction c with
  | .mode m atRest =>
    if atRest && !p.joystick.isJoystickZero then []
    else (buildAndSendBytes .setMode (p.sendBuffer.setData 0 m)).2
  | .trim _ _ => []
  | .pValue select mode =>
    (buildAndSendBytes .setPValues
      (((p.sendBuffer.setData 0 select.toByte).setData 1 mode.toByte).setData 2 1)).2
  | .invalid => []

/-- The send buffer with the fields of the input data assigned. -/
def assignInput (p : Pc) : Message :=
  let total (axis : Axis) : UInt8 := (p.joystick.axisTotals axis).toUInt8
  (((p.sendBuffer.setData 1 (total .roll)).setData 2 (total .pitch)).setData 3
    (total .yaw)).setData 0 (total .lift)

/-- What the joystick block puts on the wire. -/
def pollBytes (now : Timespec) (events : List JsEvent) (p : Pc) : List UInt8 :=
  if compareTime now p.tJoystick then
    let p := { p with joystick := p.joystick.readJoystick events }
    let (sendBuffer, input) := buildAndSendBytes .inputData p.assignInput
    let p := { p with sendBuffer }
    input ++ if p.firing then p.keyBytes 0x31 else []
  else []

/-- The messages whose fields `select_message` assigns. -/
def keyMessages (c : UInt8) (p : Pc) : List Msg :=
  match keyAction c with
  | .mode m atRest => if atRest && !p.joystick.isJoystickZero then [] else [.setMode m]
  | .pValue select mode => [.setPValues select.toByte mode.toByte 1]
  | _ => []

/-- The input data : the sticks with their offsets. -/
def inputMessage (p : Pc) : Msg :=
  .inputData (p.joystick.axisTotals .lift) (p.joystick.axisTotals .roll)
    (p.joystick.axisTotals .pitch) (p.joystick.axisTotals .yaw)

/-- The messages whose fields the joystick block assigns. -/
def pollMessages (now : Timespec) (events : List JsEvent) (p : Pc) : List Msg :=
  if compareTime now p.tJoystick then
    let p := { p with joystick := p.joystick.readJoystick events }
    p.inputMessage :: if p.firing then p.keyMessages 0x31 else []
  else []

/-- `select_message` sends the messages that it assigns, and puts their frames on the
wire. -/
theorem selectMessage_sent (c : UInt8) (p : Pc) : (p.selectMessage c).2.2 = p.keyMessages c := by
  unfold selectMessage keyMessages
  cases keyAction c with
  | mode m atRest =>
    simp only [sendMode_eq]
    split_ifs <;> rfl
  | pValue select mode => simp only [sendPValue_eq]
  | trim | invalid => rfl

theorem keyBytes_eq (c : UInt8) (p : Pc) : p.keyBytes c = (p.keyMessages c).flatMap Msg.frame := by
  rw [← selectMessage_sent]
  unfold keyBytes selectMessage
  cases keyAction c with
  | mode m atRest =>
    have hsent := congrArg Prod.snd
      (buildAndSendBytes_eq .setMode { p with sendBuffer := p.sendBuffer.setData 0 m })
    dsimp only
    split_ifs
    · rfl
    · exact hsent
  | pValue select mode =>
    exact congrArg Prod.snd (buildAndSendBytes_eq .setPValues { p with sendBuffer :=
      ((p.sendBuffer.setData 0 select.toByte).setData 1 mode.toByte).setData 2 1 })
  | trim | invalid => rfl

theorem toSend?_assignInput (p : Pc) :
    p.assignInput.toSend? .inputData = some p.inputMessage := by
  simp [assignInput, inputMessage, Message.toSend?, sizeofMessage]

theorem sendInput_eq_assigned (p : Pc) : ∃ sendBuffer,
    p.sendInput = ({ p with sendBuffer }, [p.inputMessage]) ∧
      buildAndSendBytes .inputData p.assignInput = (sendBuffer, p.inputMessage.frame) := by
  have hbytes := buildAndSendBytes_eq .inputData { p with sendBuffer := p.assignInput }
  have hsend : { p with sendBuffer := p.assignInput }.buildAndSendMessage .inputData =
      ({ p with sendBuffer :=
          (buildMessage p.inputMessage.messageType.toByte p.inputMessage.data).2 },
        [p.inputMessage]) := by
    simp only [buildAndSendMessage, toSend?_assignInput]
  rw [hsend] at hbytes
  refine ⟨_, hsend, hbytes.trans ?_⟩
  rw [List.flatMap_cons, List.flatMap_nil, List.append_nil]

/-- So does the joystick block, and it puts their frames on the wire. -/
theorem pollJoystick_sent (now : Timespec) (events : List JsEvent) (p : Pc) :
    (p.pollJoystick now events).2 = p.pollMessages now events := by
  unfold pollJoystick pollMessages
  split_ifs
  · obtain ⟨sendBuffer, hsend, -⟩ :=
      sendInput_eq_assigned { p with joystick := p.joystick.readJoystick events }
    set q : Pc := { p with joystick := p.joystick.readJoystick events } with hq
    have hfiring : { q with sendBuffer }.firing = q.firing := rfl
    simp only [hsend, hfiring]
    cases q.firing with
    | false => rfl
    | true => exact congrArg (q.inputMessage :: ·) (selectMessage_sent 0x31 { q with sendBuffer })
  · rfl

theorem pollBytes_eq (now : Timespec) (events : List JsEvent) (p : Pc) :
    p.pollBytes now events = (p.pollMessages now events).flatMap Msg.frame := by
  unfold pollBytes pollMessages
  split_ifs
  · obtain ⟨sendBuffer, -, hbytes⟩ :=
      sendInput_eq_assigned { p with joystick := p.joystick.readJoystick events }
    set q : Pc := { p with joystick := p.joystick.readJoystick events } with hq
    have hfiring : { q with sendBuffer }.firing = q.firing := rfl
    simp only [hbytes, hfiring]
    cases q.firing with
    | false => rfl
    | true => exact congrArg (q.inputMessage.frame ++ ·) (keyBytes_eq 0x31 { q with sendBuffer })
  · rfl

/-! ## Frames -/

/-- The bytes on the wire are a `START_BYTE`, the message escaped, and an `END_BYTE`; the
message has the length of its type, its payload is what was assigned, and
`validate_message` accepts it. -/
structure IsFrameOf (wire message : List UInt8) (m : Msg) : Prop where
  wire_eq : wire = startByte :: stuffing.stuff message ++ [endByte]
  length_eq : ∃ dataLen, dataLen? m.messageType = some dataLen ∧ message.length = 3 + dataLen
  type_eq : message.head? = some m.messageType.toByte
  payload_eq : message.drop 3 = m.data
  accepted : ∀ buffer : Message, buffer.bytes message.length = message →
    (validateMessage buffer message.length).1 = true

/-- The bytes on the wire are frames of the messages, one after the other. -/
def Sends (wire : List UInt8) (ms : List Msg) : Prop :=
  ∃ frames, wire = frames.flatten ∧
    List.Forall₂ (fun frame m => ∃ message, IsFrameOf frame message m) frames ms

theorem isFrameOf_frame {m : Msg} (h : (dataLen? m.messageType).isSome) :
    IsFrameOf m.frame m.bytes m where
  wire_eq := rfl
  length_eq := by
    obtain ⟨dataLen, hdata⟩ := Option.isSome_iff_exists.1 h
    refine ⟨dataLen, hdata, ?_⟩
    rw [m.length_bytes, Nat.add_comm]
    cases m <;> cases hdata <;> rfl
  type_eq := rfl
  payload_eq := rfl
  accepted buffer hbuffer := by
    have h3 : 3 ≤ m.bytes.length := Nat.le_add_left 3 _
    rw [validateMessage_of_le buffer m.length_bytes_le, ← crcField_bytes buffer h3, hbuffer]
    exact beq_iff_eq.2 (crcField_messageBytes _ _)

theorem sends_frames {ms : List Msg} (h : ∀ m ∈ ms, (dataLen? m.messageType).isSome) :
    Sends (ms.flatMap Msg.frame) ms := by
  refine ⟨ms.map Msg.frame, rfl, ?_⟩
  rw [List.forall₂_map_left_iff, List.forall₂_same]
  exact fun m hm => ⟨m.bytes, isFrameOf_frame (h m hm)⟩

theorem keyMessages_known (c : UInt8) (p : Pc) :
    ∀ m ∈ p.keyMessages c, (dataLen? m.messageType).isSome := by
  unfold keyMessages
  split
  · split_ifs <;> simp [Msg.messageType, dataLen?]
  · simp [Msg.messageType, dataLen?]
  · simp

theorem pollMessages_known (now : Timespec) (events : List JsEvent) (p : Pc) :
    ∀ m ∈ p.pollMessages now events, (dataLen? m.messageType).isSome := by
  unfold pollMessages
  split_ifs
  · refine List.forall_mem_cons.2 ⟨rfl, ?_⟩
    split_ifs
    · exact keyMessages_known 0x31 _
    · nofun
  · nofun

/-- What a key or a poll of the joystick puts on the wire does not depend on the content
of the send buffer, and is frames of the messages that were assigned. -/
theorem wire_carries_assigned (p : Pc) :
    (∀ c sendBuffer sendBuffer',
      keyBytes c { p with sendBuffer := sendBuffer } =
        keyBytes c { p with sendBuffer := sendBuffer' }) ∧
    (∀ now events sendBuffer sendBuffer',
      pollBytes now events { p with sendBuffer := sendBuffer } =
        pollBytes now events { p with sendBuffer := sendBuffer' }) ∧
    (∀ c, Sends (p.keyBytes c) (p.keyMessages c)) ∧
    ∀ now events, Sends (p.pollBytes now events) (p.pollMessages now events) := by
  refine ⟨fun c b b' => ?_, fun now events b b' => ?_, fun c => ?_, fun now events => ?_⟩
  · rw [keyBytes_eq, keyBytes_eq]
    rfl
  · rw [pollBytes_eq, pollBytes_eq]
    rfl
  · rw [keyBytes_eq]
    exact sends_frames (keyMessages_known c p)
  · rw [pollBytes_eq]
    exact sends_frames (pollMessages_known now events p)

end Pc

end Quadrupel
