import Quadrupel.PcMain
import Quadrupel.Frame

/-!
# The bytes that the PC reads

`pcTerminal` is the machine below `pcLoop` : it reads the serial device byte by byte. Its
third block calls `rs232_getchar_nb`, whose result, the byte or -1 if there is none, is
stored in a `char` and then compared with -1. So the byte 0xFF counts as none
(`passed_eq_filter`), and the parser gets what was delivered iff that byte is not in it
(`transparent_iff`). A run of `pcTerminal` is a run of `pcLoop` on the messages that the
parser accepts (`run_pcTerminal`).

`delivered` and `passed` are the bytes that the reads returned and those that were given
to `parse_message`.
-/

namespace Quadrupel

/-- `rs232_getchar_nb`, on what `read` finds in the device. -/
def rs232GetcharNb : Option UInt8 → ℤ
  | some c => c.toNat
  | none => -1

/-- The PC with the variables of its receive block. -/
structure PcTerminal where
  pc : Pc
  parser : Parser

/-- The blocks of the loop, with what `read` finds in the device. -/
inductive TerminalEvent
  | joystick (now : Timespec) (events : List JsEvent)
  | keyboard (now : Timespec) (c : UInt8)
  | serial (device : Option UInt8)
  | resend (now : Timespec)

/-- What a block reads from the device, gives to the parser, and sends. -/
structure SerialLog where
  delivered : List UInt8
  passed : List UInt8
  sent : List Msg

namespace PcTerminal

/-- The PC when `main` enters its loop. The buffers are not initialised. -/
def start (now tMessageExpect : Timespec) (sendBuffer receiveBuffer : Message) : PcTerminal where
  pc := .start now tMessageExpect sendBuffer
  parser := ⟨0, false, receiveBuffer⟩

/-- What the receive block does with a byte. -/
def handleChar (c : UInt8) (s : PcTerminal) : PcTerminal :=
  let (messageLen, parser) := parseMessage c s.parser
  let pc := if messageLen > 0 then s.pc.acceptMessage parser.buffer else s.pc
  { pc, parser }

/-- The receive block, with the bytes that it gives to the parser. -/
def readSerial (device : Option UInt8) (s : PcTerminal) : PcTerminal × List UInt8 :=
  let c : Int8 := Int8.ofInt (rs232GetcharNb device)
  if c.toInt ≠ -1 then (s.handleChar c.toUInt8, [c.toUInt8]) else (s, [])

/-- A block of the loop. -/
def runBlock (s : PcTerminal) : TerminalEvent → PcTerminal × SerialLog
  | .joystick now events =>
    let (pc, sent) := s.pc.runBlock (.joystick now events)
    ({ s with pc }, ⟨[], [], sent⟩)
  | .keyboard now c =>
    let (pc, sent) := s.pc.runBlock (.keyboard now c)
    ({ s with pc }, ⟨[], [], sent⟩)
  | .serial device =>
    if s.pc.demoDone then (s, ⟨[], [], []⟩)
    else
      let (s, passed) := s.readSerial device
      (s, ⟨device.toList, passed, []⟩)
  | .resend now =>
    let (pc, sent) := s.pc.runBlock (.resend now)
    ({ s with pc }, ⟨[], [], sent⟩)

end PcTerminal

/-- The loop of the PC, byte by byte. -/
def pcTerminal : Machine PcTerminal TerminalEvent SerialLog where
  next s e := (s.runBlock e).1
  out s e := (s.runBlock e).2

namespace PcTerminal

/-- The bytes that the reads of a run return. -/
def delivered (s : PcTerminal) (es : List TerminalEvent) : List UInt8 :=
  (pcTerminal.outputs s es).flatMap SerialLog.delivered

/-- The bytes that a run gives to `parse_message`. -/
def passed (s : PcTerminal) (es : List TerminalEvent) : List UInt8 :=
  (pcTerminal.outputs s es).flatMap SerialLog.passed

/-! ## What is passed on -/

/-- A byte survives the `char`. -/
theorem toUInt8_char (c : UInt8) : (Int8.ofInt (rs232GetcharNb (some c))).toUInt8 = c := by
  revert c
  decide +kernel

/-- Only 0xFF becomes -1. -/
theorem char_eq_iff (c : UInt8) :
    (Int8.ofInt (rs232GetcharNb (some c))).toInt = -1 ↔ c = 0xFF := by
  revert c
  decide +kernel

/-- The receive block takes 0xFF for no byte, and handles any other. -/
theorem readSerial_some (c : UInt8) (s : PcTerminal) :
    s.readSerial (some c) = if c = 0xFF then (s, []) else (s.handleChar c, [c]) := by
  simp only [readSerial, toUInt8_char, ne_eq, char_eq_iff, ite_not]

theorem readSerial_passed (device : Option UInt8) (s : PcTerminal) :
    (s.readSerial device).2 = device.toList.filter (· ≠ 0xFF) := by
  cases device with
  | none => rfl
  | some c =>
    rw [readSerial_some]
    split_ifs with hc
    · rw [hc]
      rfl
    · simp [hc]

theorem out_passed (s : PcTerminal) (e : TerminalEvent) :
    (pcTerminal.out s e).passed = (pcTerminal.out s e).delivered.filter (· ≠ 0xFF) := by
  cases e with
  | serial device =>
    simp only [pcTerminal, runBlock]
    split_ifs
    · rfl
    · exact readSerial_passed device s
  | joystick | keyboard | resend => rfl

/-- The parser gets the bytes that were delivered, in order, without those that are 0xFF. -/
theorem passed_eq_filter (s : PcTerminal) (es : List TerminalEvent) :
    s.passed es = (s.delivered es).filter (· ≠ 0xFF) := by
  unfold passed delivered
  induction es generalizing s with
  | nil => rfl
  | cons e es ih =>
    rw [Machine.outputs_cons, List.flatMap_cons, List.flatMap_cons, List.filter_append,
      out_passed, ih]

/-- The bytes delivered reach the parser iff none of them is 0xFF. -/
theorem transparent_iff (s : PcTerminal) (es : List TerminalEvent) :
    s.passed es = s.delivered es ↔ 0xFF ∉ s.delivered es := by
  rw [passed_eq_filter, List.filter_eq_self]
  constructor
  · intro h hmem
    exact of_decide_eq_true (h 0xFF hmem) rfl
  · intro h c hc
    exact decide_eq_true fun heq => h (heq ▸ hc)

/-- A calibration message with one value of -1 loses two bytes on the way to the parser. -/
theorem not_transparent :
    ¬∀ (s : PcTerminal) (es : List TerminalEvent), s.passed es = s.delivered es := by
  intro h
  let frame : List UInt8 :=
    sendBuilt Drone.sendMessage (buildMessage MsgType.calibrationData.toByte
      (Msg.calibrationData { Sensors.zero with sp := -1 }).data)
  let s : PcTerminal := start ⟨0, 0⟩ ⟨0, 0⟩ (Vector.replicate sizeofMessage 0)
    (Vector.replicate sizeofMessage 0)
  have hlost : (s.passed (frame.map fun c => .serial (some c))).length + 2 =
      (s.delivered (frame.map fun c => .serial (some c))).length := by decide +kernel
  rw [h] at hlost
  omega

/-! ## What the parser makes of it -/

/-- The parser has read the bytes that were passed to it. -/
theorem parser_next_eq (s : PcTerminal) (e : TerminalEvent) :
    (pcTerminal.next s e).parser = Quadrupel.parser.run s.parser (pcTerminal.out s e).passed := by
  cases e with
  | serial device =>
    simp only [pcTerminal, runBlock]
    split_ifs
    · rfl
    · cases device with
      | none => rfl
      | some c =>
        simp only [readSerial_some]
        split_ifs <;> rfl
  | joystick | keyboard | resend => rfl

theorem parser_run_eq (s : PcTerminal) (es : List TerminalEvent) :
    (pcTerminal.run s es).parser = Quadrupel.parser.run s.parser (s.passed es) := by
  unfold passed
  induction es generalizing s with
  | nil => rfl
  | cons e es ih =>
    rw [Machine.run_cons, ih, parser_next_eq, Machine.outputs_cons, List.flatMap_cons,
      Machine.run_append]

/-- The event of `pcLoop` that the block is, none for a byte that completes no message. -/
def events (s : PcTerminal) : TerminalEvent → List PcEvent
  | .joystick now events => [.joystick now events]
  | .keyboard now c => [.keyboard now c]
  | .serial device =>
    if s.pc.demoDone then []
    else
      ((s.readSerial device).2.filter fun c => (parseMessage c s.parser).1 > 0).map fun c =>
        .receive (parseMessage c s.parser).2.buffer
  | .resend now => [.resend now]

/-- A run on bytes is a run of the loop on the messages that the parser accepts. -/
theorem run_pcTerminal (s : PcTerminal) (es : List TerminalEvent) :
    (pcTerminal.run s es).pc = pcLoop.run s.pc (pcTerminal.translate events s es) := by
  have hstep (s : PcTerminal) (e : TerminalEvent) :
      (pcTerminal.next s e).pc = pcLoop.run s.pc (s.events e) := by
    cases e with
    | serial device =>
      simp only [pcTerminal, runBlock, events]
      split_ifs with hdone
      · rfl
      · cases device with
        | none => rfl
        | some c =>
          simp only [readSerial_some]
          split_ifs with hc
          · rfl
          · by_cases hlen : (parseMessage c s.parser).1 > 0
            · simp [handleChar, hlen, pcLoop, Pc.runBlock, hdone]
            · simp [handleChar, hlen]
    | joystick | keyboard | resend => rfl
  exact pcTerminal.run_refines pcLoop hstep s es

end PcTerminal

end Quadrupel
