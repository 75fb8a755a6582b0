import Quadrupel.Joint
import Quadrupel.Link
import Quadrupel.PcTerminal
import Quadrupel.Uart

/-!
# The system byte by byte

`wire` puts the two programs as they read their bytes, `pcTerminal` and `droneMain`,
together with the drone's UART driver and the line. The bytes of a frame are written one
by one, text may stand before and behind a message of the drone, and every byte waits where
it waits in the code : on the line, in the two queues of the driver, and in the buffer of
`stdout`, from which `_write` takes them at any time. The blocks of the loops and the
interrupts come in any order, but no interrupt comes inside a call.

`wire_refines` connects it with `joint` : a regular run of `wire` is a run of `joint`, in which
a frame arrives with its last byte. Regular are the runs in which no queue overflows and each
frame arrives as its message or not at all (`Msg.Clean`), the text has no byte that a frame
reserves, and a `TXDRDY` comes only for a byte in flight. What is proved of every run of `joint`
holds of the bytes in these runs, not in all.
-/

namespace Quadrupel

/-- The two programs, the driver and the bytes on their way : printed but not yet written, on
the line to the drone, and on the line to the PC. -/
structure Wire where
  terminal : PcTerminal
  main : DroneMain
  line : UartLine
  stdout : List UInt8
  toDrone : List UInt8
  toPc : List UInt8

/-- The blocks of the two loops, with what the drone prints before and behind its message,
the end of the drone's loop, a byte that `_write` takes from the buffer, and the
interrupts. -/
inductive WireEvent
  | joystick (now : Timespec) (events : List JsEvent)
  | keyboard (now : Timespec) (c : UInt8)
  | serial
  | resend (now : Timespec)
  | control (wait : ℕ) (sensors : Sensors) (before after : List UInt8)
  | char (wait : ℕ) (before after : List UInt8)
  | timer (wait : ℕ) (batVolt : UInt16) (text : List UInt8)
  | terminate (text : List UInt8)
  | put
  | rxdrdy
  | txdrdy

namespace Wire

/-- Both programs when they enter their loops, after `uart_init`. -/
def start (now tMessageExpect : Timespec) (sendBuffer receiveBuffer : Message)
    (rxQueue txQueue : Queue) (time : ℕ) : Wire where
  terminal := .start now tMessageExpect sendBuffer receiveBuffer
  main := .start time
  line := .start rxQueue txQueue
  stdout := []
  toDrone := []
  toPc := []

/-- A block of the PC. -/
def pcBlock (s : Wire) (e : TerminalEvent) : Wire :=
  { s with
    terminal := pcTerminal.next s.terminal e
    toDrone := s.toDrone ++ (pcTerminal.out s.terminal e).sent.flatMap Msg.frame }

/-- A block of the drone. Behind each frame there is a newline. -/
def droneBlock (s : Wire) (e : MainEvent) (before after : List UInt8) : Wire :=
  { s with
    main := droneMain.next s.main e
    stdout := s.stdout ++ before ++
      ((droneMain.out s.main e).flatMap fun m => m.frame ++ [0x0A]) ++ after }

/-- A call of `uart_put`, or a part of the handler. -/
def uart (s : Wire) (e : UartEvent) : Wire :=
  { s with
    line := uartLine.next s.line e
    toPc := s.toPc ++ (uartLine.out s.line e).toList }

/-- The drone takes a byte from its receive queue. -/
def dequeueRx (s : Wire) : UInt8 × Wire :=
  let (c, rxQueue) := s.line.uart.rxQueue.dequeue
  (c, { s with line := { s.line with uart := { s.line.uart with rxQueue } } })

/-- The effect of an event. -/
def next (s : Wire) : WireEvent → Wire
  | .joystick now events => s.pcBlock (.joystick now events)
  | .keyboard now c => s.pcBlock (.keyboard now c)
  | .serial =>
    { s with toPc := if s.terminal.pc.demoDone then s.toPc else s.toPc.tail }.pcBlock
      (.serial s.toPc.head?)
  | .resend now => s.pcBlock (.resend now)
  | .control wait sensors before after => s.droneBlock ⟨wait, .control sensors⟩ before after
  | .char wait before after =>
    if 0 < s.line.uart.rxQueue.count then
      s.dequeueRx.2.droneBlock ⟨wait, .char s.dequeueRx.1⟩ before after
    else s
  | .timer wait batVolt text => s.droneBlock ⟨wait, .timer batVolt⟩ text []
  | .terminate text =>
    if s.main.drone.demoDone then
      { s with stdout := s.stdout ++ Msg.terminate.frame ++ [0x0A] ++ text }
    else s
  | .put =>
    match s.stdout with
    | [] => s
    | byte :: stdout => { s with stdout }.uart (.put byte)
  | .rxdrdy =>
    match s.toDrone with
    | [] => s
    | rxd :: toDrone => { s with toDrone }.uart (.rxdrdy rxd)
  | .txdrdy => s.uart .txdrdy

/-- The messages that the PC sends on an event. -/
def sends (s : Wire) : WireEvent → List Msg
  | .joystick now events => (pcTerminal.out s.terminal (.joystick now events)).sent
  | .keyboard now c => (pcTerminal.out s.terminal (.keyboard now c)).sent
  | .resend now => (pcTerminal.out s.terminal (.resend now)).sent
  | _ => []

/-- The messages that the drone sends on an event. -/
def reports (s : Wire) : WireEvent → List Msg
  | .control wait sensors _ _ => droneMain.out s.main ⟨wait, .control sensors⟩
  | .char wait _ _ =>
    if 0 < s.line.uart.rxQueue.count then droneMain.out s.main ⟨wait, .char s.dequeueRx.1⟩ else []
  | .timer wait batVolt _ => droneMain.out s.main ⟨wait, .timer batVolt⟩
  | .terminate _ => if s.main.drone.demoDone then [.terminate] else []
  | _ => []

end Wire

/-- What the drone prints on the event. -/
def WireEvent.text : WireEvent → List UInt8
  | .control _ _ before after => before ++ after
  | .char _ before after => before ++ after
  | .timer _ _ text => text
  | .terminate text => text
  | _ => []

/-- The event is a `TXDRDY`. -/
def WireEvent.isTxdrdy : WireEvent → Bool
  | .txdrdy => true
  | _ => false

/-- The system byte by byte, with the messages of the PC and of the drone. -/
def wire : Machine Wire WireEvent (List Msg × List Msg) where
  next := Wire.next
  out s e := (s.sends e, s.reports e)

namespace Wire

/-- The events of `joint` that the event is : a byte that ends a frame is its arrival or its
loss, and any other byte is none. -/
def events (s : Wire) : WireEvent → List JointEvent
  | .joystick now events => [.joystick now events]
  | .keyboard now c => [.keyboard now c]
  | .serial =>
    if s.terminal.pc.demoDone then []
    else
      (s.toPc.head?.filter pcReads).elim [] fun c =>
        if 0 < (parseMessage c s.terminal.parser).1 then [.pcReceive]
        else if c = endByte then [.loseToPc 0] else []
  | .resend now => [.resend now]
  | .control _ sensors _ _ => [.control sensors]
  | .char wait _ _ =>
    if 0 < s.line.uart.rxQueue.count then
      if 0 < (parseMessage s.dequeueRx.1 s.main.parser).1 then
        [.droneReceive (getTimeUs (s.main.time + wait))]
      else if s.dequeueRx.1 = endByte then [.loseToDrone 0] else []
    else []
  | .timer wait batVolt _ => [.timer batVolt (getTimeUs (s.main.time + wait))]
  | .terminate _ => [.terminate]
  | .put | .rxdrdy | .txdrdy => []

/-- Every frame arrives as its message or not at all, text has no byte that a frame reserves, a
`TXDRDY` comes only for a byte in flight, and no queue overflows. -/
structure Regular (s : Wire) (e : WireEvent) : Prop where
  sends : ∀ m ∈ s.sends e, m.Clean droneReads
  reports : ∀ m ∈ s.reports e, m.Clean pcReads
  text : ∀ b ∈ e.text, ¬IsControl b ∧ b ≠ escape
  txdrdy : e.isTxdrdy = true → 0 < s.line.inFlight
  rxQueue : (wire.next s e).line.uart.rxQueue.count.toNat ≤ queueSize
  txQueue : (wire.next s e).line.uart.txQueue.count.toNat ≤ queueSize

/-! ## The relation -/

/-- The state of `joint` : the same programs, and the frames whose last byte is unread. -/
structure Refines (s : Wire) (t : Joint) : Prop where
  pc : t.pc = s.terminal.pc
  drone : t.drone = s.main.drone
  toDrone : OnLink droneReads (t.toDrone.map Frame.msg)
    (s.line.uart.rxQueue.contents ++ s.toDrone) s.main.parser
  toPc : OnLink pcReads t.toPc (s.toPc ++ (s.line.uart.txQueue.contents ++ s.stdout))
    s.terminal.parser
  rxQueue : s.line.uart.rxQueue.WellFormed
  fed : UartLine.Fed (s.toPc ++ s.line.uart.txQueue.contents) s.toPc s.line

theorem Refines.record {s : Wire} {t : Joint} (h : Refines s t) (clock panicBegan : ℕ) :
    Refines s { t with clock, panicBegan } :=
  ⟨h.pc, h.drone, h.toDrone, h.toPc, h.rxQueue, h.fed⟩

theorem fed_of_eq {l : UartLine} {puts written : List UInt8} (h : UartLine.Fed puts written l)
    (written' : List UInt8) :
    UartLine.Fed (written' ++ l.uart.txQueue.contents) written' l :=
  ⟨h.wellFormed, rfl, h.inFlight_eq, h.count_eq⟩

/-- A block of the PC that reads no byte. -/
theorem Refines.pcBlock {s : Wire} {t : Joint} (h : Refines s t) {e : TerminalEvent}
    (pe : PcEvent) (hnext : pcTerminal.next s.terminal e =
      { s.terminal with pc := pcLoop.next s.terminal.pc pe })
    (hout : (pcTerminal.out s.terminal e).sent = pcLoop.out s.terminal.pc pe)
    (hclean : ∀ m ∈ (pcTerminal.out s.terminal e).sent, m.Clean droneReads) (key : Option ℕ) :
    Refines (s.pcBlock e) (t.pcBlock pe key) := by
  obtain ⟨hpc, hdrone, htoDrone, htoPc, hrx, hfed⟩ := h
  have hsent := htoDrone.send hclean [] nofun
  simp only [List.append_nil, List.append_assoc] at hsent
  have hmsgs : (t.pcBlock pe key).toDrone.map Frame.msg =
      t.toDrone.map Frame.msg ++ (pcTerminal.out s.terminal e).sent := by
    rw [hout, ← hpc]
    simp [Joint.pcBlock, Function.comp_def]
  have hparser : (s.pcBlock e).terminal.parser = s.terminal.parser := by
    rw [Wire.pcBlock, hnext]
  refine ⟨?_, hdrone, hmsgs ▸ hsent, hparser ▸ htoPc, hrx, hfed⟩
  rw [Wire.pcBlock, hnext, Joint.pcBlock, hpc]

/-- The PC reads a byte, or finds none. -/
theorem Refines.serial {s : Wire} {t : Joint} (h : Refines s t) :
    Refines (s.next .serial) (joint.run t (s.events .serial)) := by
  obtain ⟨hpc, hdrone, htoDrone, htoPc, hrx, hfed⟩ := h
  cases hdone : s.terminal.pc.demoDone with
  | true =>
    have hnext : pcTerminal.next s.terminal (.serial s.toPc.head?) = s.terminal ∧
        (pcTerminal.out s.terminal (.serial s.toPc.head?)).sent = [] := by
      simp [pcTerminal, PcTerminal.runBlock, hdone]
    simp only [next, Wire.pcBlock, events, hdone, if_true, hnext, List.flatMap_nil,
      List.append_nil, Machine.run_nil]
    exact ⟨hpc, hdrone, htoDrone, htoPc, hrx, hfed⟩
  | false =>
    have hout (c : Option UInt8) : (pcTerminal.out s.terminal (.serial c)).sent = [] := by
      simp [pcTerminal, PcTerminal.runBlock, hdone]
    have hread (c : Option UInt8) : pcTerminal.next s.terminal (.serial c) =
        (s.terminal.readSerial c).1 := by
      simp [pcTerminal, PcTerminal.runBlock, hdone]
    cases hlink : s.toPc with
    | nil =>
      have hnone : (s.terminal.readSerial none).1 = s.terminal := rfl
      rw [hlink] at htoPc hfed
      simp only [next, Wire.pcBlock, events, hdone, hlink, List.head?_nil, hout, hread, hnone,
        List.flatMap_nil, List.append_nil, List.tail_nil, if_neg Bool.false_ne_true]
      exact ⟨hpc, hdrone, htoDrone, htoPc, hrx, hfed⟩
    | cons c rest =>
      rw [hlink] at htoPc hfed
      have hfed' := fed_of_eq hfed rest
      simp only [next, Wire.pcBlock, events, hdone, hlink, List.head?_cons, hout, hread,
        List.flatMap_nil, List.append_nil, List.tail_cons, if_neg Bool.false_ne_true,
        PcTerminal.readSerial_some]
      by_cases hc : c = 0xFF
      · have hskip : pcReads c = false := by simp [pcReads, hc]
        rw [if_pos hc, Option.filter_some, hskip, if_neg Bool.false_ne_true]
        exact ⟨hpc, hdrone, htoDrone, htoPc.skip rfl hskip, hrx, hfed'⟩
      · have hkeep : pcReads c = true := by simp [pcReads, hc]
        rw [if_neg hc, Option.filter_some, hkeep, if_pos rfl, Option.elim_some]
        rcases htoPc.read rfl hkeep with ⟨hzero, hne, hlink'⟩ |
          ⟨m, ms, hms, rfl, hlink', hzero | ⟨hpos, stale, hbuffer⟩⟩
        · rw [if_neg (by omega), if_neg hne]
          refine ⟨?_, hdrone, htoDrone, hlink', hrx, hfed'⟩
          simp [PcTerminal.handleChar, hzero, hpc]
        · rw [if_neg (by omega), if_pos rfl]
          refine ⟨?_, hdrone, htoDrone, (Joint.run_toPc hms).1.symm ▸ hlink', hrx, hfed'⟩
          simp [PcTerminal.handleChar, hzero, ← hpc, joint, Joint.next, Joint.move]
        · obtain ⟨hreceive, hdrone', htoDrone'⟩ := Joint.run_pcReceive hms (hpc ▸ hdone)
          rw [if_pos hpos]
          refine ⟨?_, hdrone'.trans hdrone, htoDrone'.symm ▸ htoDrone,
            (Joint.run_toPc hms).2.symm ▸ hlink', hrx, hfed'⟩
          rw [hreceive, hpc, Pc.acceptMessage_stale m t.pcBuffer stale, ← hbuffer]
          simp [PcTerminal.handleChar, hpos]

/-- A block of the drone prints its message and the text around it. -/
theorem OnLink.report {ms : List Msg} {line stdout : List UInt8} {p : Parser}
    (h : OnLink pcReads ms (line ++ stdout) p) (new : List Msg) (before after : List UInt8)
    (hnew : ∀ m ∈ new, m.Clean pcReads) (htext : ∀ b ∈ before ++ after, ¬IsControl b ∧ b ≠ escape) :
    OnLink pcReads (ms ++ new)
      (line ++ (stdout ++ before ++ (new.flatMap fun m => m.frame ++ [0x0A]) ++ after)) p := by
  have hbefore := h.print fun b hb => htext b (List.mem_append_left _ hb)
  have hsent := hbefore.send hnew [0x0A] (by simp [IsControl]; decide)
  have hafter := hsent.print fun b hb => htext b (List.mem_append_right _ hb)
  simpa only [List.append_assoc] using hafter

/-- A block of the drone, if the link to it agrees afterwards. -/
theorem refines_droneBlock {s : Wire} {t : Joint} {ms : List Msg} {e : MainEvent}
    {before after : List UInt8} (hpc : t.pc = s.terminal.pc)
    (hdrone : t.drone = (droneMain.next s.main e).drone)
    (htoDrone : OnLink droneReads (t.toDrone.map Frame.msg)
      (s.line.uart.rxQueue.contents ++ s.toDrone) (droneMain.next s.main e).parser)
    (htoPc : OnLink pcReads ms (s.toPc ++ (s.line.uart.txQueue.contents ++ s.stdout))
      s.terminal.parser)
    (hms : t.toPc = ms ++ droneMain.out s.main e) (hrx : s.line.uart.rxQueue.WellFormed)
    (hfed : UartLine.Fed (s.toPc ++ s.line.uart.txQueue.contents) s.toPc s.line)
    (hclean : ∀ m ∈ droneMain.out s.main e, m.Clean pcReads)
    (htext : ∀ b ∈ before ++ after, ¬IsControl b ∧ b ≠ escape) :
    Refines (s.droneBlock e before after) t := by
  rw [← List.append_assoc] at htoPc
  have hreport := OnLink.report htoPc _ _ _ hclean htext
  refine ⟨hpc, hdrone, htoDrone, ?_, hrx, hfed⟩
  rw [hms]
  simpa only [Wire.droneBlock, List.append_assoc] using hreport

/-- The drone reads a byte from its queue, or finds none. -/
theorem Refines.char {s : Wire} {t : Joint} (h : Refines s t) (wait : ℕ)
    {before after : List UInt8}
    (hclean : ∀ m ∈ s.reports (.char wait before after), m.Clean pcReads)
    (htext : ∀ b ∈ before ++ after, ¬IsControl b ∧ b ≠ escape) :
    Refines (s.next (.char wait before after))
      (joint.run t (s.events (.char wait before after))) := by
  by_cases hcount : 0 < s.line.uart.rxQueue.count
  · have hdequeue : s.line.uart.rxQueue.contents =
        s.dequeueRx.1 :: s.dequeueRx.2.line.uart.rxQueue.contents :=
      Queue.contents_dequeue h.rxQueue hcount
    have hrx : s.dequeueRx.2.line.uart.rxQueue.WellFormed := h.rxQueue.dequeue hcount
    have hfed : UartLine.Fed (s.toPc ++ s.line.uart.txQueue.contents) s.toPc s.dequeueRx.2.line :=
      ⟨h.fed.wellFormed, h.fed.puts_eq, h.fed.inFlight_eq, h.fed.count_eq⟩
    have hlink := h.toDrone
    rw [hdequeue, List.cons_append] at hlink
    simp only [next, events, reports, if_pos hcount] at hclean ⊢
    obtain ⟨hparser, hsilent, haccept⟩ := droneMain_char s.main wait s.dequeueRx.1
    rcases hlink.read rfl rfl with ⟨hzero, hne, hlink'⟩ |
      ⟨m, ms, hms, hend, hlink', hzero | ⟨hpos, stale, hbuffer⟩⟩
    · obtain ⟨hdrone, hout⟩ := hsilent hzero
      rw [if_neg (by omega), if_neg hne]
      exact refines_droneBlock h.pc (h.drone.trans hdrone.symm) (hparser ▸ hlink') h.toPc
        ((List.append_nil _).symm.trans (congrArg (t.toPc ++ ·) hout.symm)) hrx hfed hclean htext
    · obtain ⟨hdrone, hout⟩ := hsilent hzero
      rw [if_neg (by omega), if_pos hend]
      refine refines_droneBlock h.pc (h.drone.trans hdrone.symm) ?_ h.toPc ?_ hrx hfed hclean htext
      · rw [(Joint.run_toDrone hms 0).1]
        exact hparser ▸ hlink'
      · exact (List.append_nil _).symm.trans (congrArg (t.toPc ++ ·) hout.symm)
    · obtain ⟨hdrone, hout⟩ := haccept hpos
      obtain ⟨-, htoDrone, hpc, hdrone', htoPc⟩ :=
        Joint.run_toDrone hms (getTimeUs (s.main.time + wait))
      have hsame : s.main.drone.acceptMessage (parseMessage s.dequeueRx.1 s.main.parser).2.buffer
          (getTimeUs (s.main.time + wait)) = s.main.drone.acceptMessage (m.received t.droneBuffer)
            (getTimeUs (s.main.time + wait)) := by
        rw [hbuffer]
        exact Drone.acceptMessage_stale m stale t.droneBuffer _ _
      rw [if_pos hpos]
      refine refines_droneBlock (hpc.trans h.pc) ?_ ?_ h.toPc ?_ hrx hfed hclean htext
      · rw [hdrone', h.drone]
        exact (hdrone.trans (congrArg Prod.fst hsame)).symm
      · rw [htoDrone]
        exact hparser ▸ hlink'
      · rw [htoPc, h.drone]
        exact congrArg (t.toPc ++ ·) (hout.trans (congrArg Prod.snd hsame)).symm
  · simp only [next, events, if_neg hcount]
    exact h

/-- A byte goes from the buffer of `stdout` to the driver. -/
theorem Refines.put {s : Wire} {t : Joint} (h : Refines s t)
    (hcount : (s.next .put).line.uart.txQueue.count.toNat ≤ queueSize) :
    Refines (s.next .put) t := by
  cases hstdout : s.stdout with
  | nil =>
    have hsame : s.next .put = s := by simp only [next, hstdout]
    rw [hsame]
    exact h
  | cons byte stdout =>
    have hnext : s.next .put = { s with stdout }.uart (.put byte) := by simp only [next, hstdout]
    rw [hnext] at hcount ⊢
    obtain ⟨hpc, hdrone, htoDrone, htoPc, hrx, hfed⟩ := h
    have hfed' := hfed.put hcount
    have hrx' : (uartLine.next s.line (.put byte)).uart.rxQueue = s.line.uart.rxQueue := by
      simp only [uartLine, UartLine.send, Uart.uartPut]
      split_ifs <;> rfl
    refine ⟨hpc, hdrone, ?_, ?_, ?_, fed_of_eq hfed' _⟩
    · simpa only [Wire.uart, hrx'] using htoDrone
    · have heq := hfed'.puts_eq
      rw [hstdout] at htoPc
      have hbytes : s.toPc ++ (s.line.uart.txQueue.contents ++ byte :: stdout) =
          s.toPc ++ (uartLine.out s.line (.put byte)).toList ++
            ((uartLine.next s.line (.put byte)).uart.txQueue.contents ++ stdout) := by
        rw [← List.append_assoc _ _ stdout, ← heq]
        simp
      rw [hbytes] at htoPc
      exact htoPc
    · simpa only [Wire.uart, hrx'] using hrx

/-- The transmitter is done with a byte. -/
theorem Refines.txdrdy {s : Wire} {t : Joint} (h : Refines s t) (hflying : 0 < s.line.inFlight) :
    Refines (s.next .txdrdy) t := by
  obtain ⟨hpc, hdrone, htoDrone, htoPc, hrx, hfed⟩ := h
  have hfed' := hfed.txdrdy hflying
  have hrx' : (uartLine.next s.line .txdrdy).uart.rxQueue = s.line.uart.rxQueue := by
    simp only [uartLine, UartLine.send, Uart.txdrdy]
    split_ifs <;> rfl
  refine ⟨hpc, hdrone, ?_, ?_, ?_, fed_of_eq hfed' _⟩
  · simpa only [next, Wire.uart, hrx'] using htoDrone
  · rw [← List.append_assoc, hfed'.puts_eq, List.append_assoc] at htoPc
    exact htoPc
  · simpa only [next, Wire.uart, hrx'] using hrx

/-- A byte arrives at the drone. -/
theorem Refines.rxdrdy {s : Wire} {t : Joint} (h : Refines s t)
    (hcount : (s.next .rxdrdy).line.uart.rxQueue.count.toNat ≤ queueSize) :
    Refines (s.next .rxdrdy) t := by
  cases hlink : s.toDrone with
  | nil =>
    have hsame : s.next .rxdrdy = s := by simp only [next, hlink]
    rw [hsame]
    exact h
  | cons rxd toDrone =>
    have hnext : s.next .rxdrdy = { s with toDrone }.uart (.rxdrdy rxd) := by
      simp only [next, hlink]
    rw [hnext] at hcount ⊢
    obtain ⟨hpc, hdrone, htoDrone, htoPc, hrx, hfed⟩ := h
    have hroom : s.line.uart.rxQueue.count.toNat < queueSize := by
      have hcount' : (s.line.uart.rxQueue.enqueue rxd).count.toNat ≤ queueSize := hcount
      rw [Queue.toNat_count_enqueue hrx.count_le] at hcount'
      exact hcount'
    refine ⟨hpc, hdrone, ?_, ?_, hrx.enqueue hroom rxd, ?_⟩
    · change OnLink _ _ ((s.line.uart.rxQueue.enqueue rxd).contents ++ toDrone) _
      rw [Queue.contents_enqueue hrx hroom, List.append_assoc, List.singleton_append, ← hlink]
      exact htoDrone
    · simpa only [Wire.uart, uartLine, Uart.rxdrdy, Option.toList_none, List.append_nil]
        using htoPc
    · simp only [Wire.uart, uartLine, Option.toList_none, List.append_nil]
      exact ⟨hfed.wellFormed, hfed.puts_eq, hfed.inFlight_eq, hfed.count_eq⟩

/-- The drone sends its last message. -/
theorem Refines.terminate {s : Wire} {t : Joint} (h : Refines s t) {text : List UInt8}
    (htext : ∀ b ∈ text, ¬IsControl b ∧ b ≠ escape)
    (hclean : s.main.drone.demoDone = true → Msg.terminate.Clean pcReads) :
    Refines (s.next (.terminate text)) (joint.run t [.terminate]) := by
  cases hdone : s.main.drone.demoDone with
  | false =>
    have hmove : t.move .terminate = t := by simp [Joint.move, h.drone, hdone]
    simp only [next, hdone, if_neg Bool.false_ne_true]
    change Refines s { t.move .terminate with clock := _, panicBegan := _ }
    rw [hmove]
    exact h.record _ _
  | true =>
    have hmove : t.move .terminate = { t with toPc := t.toPc ++ [.terminate] } := by
      simp [Joint.move, h.drone, hdone]
    simp only [next, hdone, if_true]
    change Refines _ { t.move .terminate with clock := _, panicBegan := _ }
    rw [hmove]
    refine Refines.record ?_ _ _
    obtain ⟨hpc, hdrone, htoDrone, htoPc, hrx, hfed⟩ := h
    rw [← List.append_assoc] at htoPc
    have hreport := OnLink.report htoPc [.terminate] [] text
      (by simpa using hclean hdone) htext
    refine ⟨hpc, hdrone, htoDrone, ?_, hrx, hfed⟩
    simpa only [List.append_assoc, List.append_nil, List.nil_append, List.flatMap_cons,
      List.flatMap_nil] using hreport

/-- A regular step is a run of `joint`. -/
theorem Refines.next {s : Wire} {t : Joint} (h : Refines s t) {e : WireEvent}
    (he : s.Regular e) : Refines (wire.next s e) (joint.run t (s.events e)) := by
  obtain ⟨hsends, hreports, htext, htxdrdy, hrxQueue, htxQueue⟩ := he
  cases e with
  | joystick now events =>
    exact (h.pcBlock (.joystick now events) rfl rfl hsends none).record _ _
  | keyboard now c =>
    exact (h.pcBlock (.keyboard now c) rfl rfl hsends (some t.clock)).record _ _
  | serial => exact h.serial
  | resend now => exact (h.pcBlock (.resend now) rfl rfl hsends t.requestKey).record _ _
  | control wait sensors before after =>
    have hdrone := congrArg (fun d => droneLoop.next d (.control sensors)) h.drone
    have hout := congrArg (fun d => t.toPc ++ droneLoop.out d (.control sensors)) h.drone
    exact refines_droneBlock h.pc hdrone h.toDrone h.toPc hout h.rxQueue h.fed hreports htext
  | char wait before after => exact h.char wait hreports htext
  | timer wait batVolt text =>
    have hdrone := congrArg
      (fun d => droneLoop.next d (.timer batVolt (getTimeUs (s.main.time + wait)))) h.drone
    exact refines_droneBlock h.pc hdrone h.toDrone h.toPc rfl h.rxQueue h.fed hreports
      (by rwa [List.append_nil])
  | terminate text =>
    refine h.terminate htext fun hdone => hreports _ ?_
    simp only [reports, hdone, if_true]
    exact List.mem_singleton_self _
  | put => exact h.put htxQueue
  | rxdrdy => exact h.rxdrdy hrxQueue
  | txdrdy => exact h.txdrdy (htxdrdy rfl)

theorem refines_start (now tMessageExpect : Timespec) (sendBuffer receiveBuffer : Message)
    (rxQueue txQueue : Queue) (time : ℕ) :
    Refines (start now tMessageExpect sendBuffer receiveBuffer rxQueue txQueue time)
      (.start now tMessageExpect sendBuffer receiveBuffer (getTimeUs time)) :=
  ⟨rfl, rfl, .nil _ rfl, .nil _ rfl, Queue.wellFormed_initQueue rxQueue,
    Queue.wellFormed_initQueue txQueue, rfl, rfl, fun _ => rfl⟩

/-- A regular run on bytes is the run of `joint` in which each frame arrives with its last
byte : the programs are in the same states, and on the links are the frames whose last byte
is still to be read. -/
theorem wire_refines (now tMessageExpect : Timespec) (sendBuffer receiveBuffer : Message)
    (rxQueue txQueue : Queue) (time : ℕ) (es : List WireEvent)
    (h : wire.Along Regular
      (start now tMessageExpect sendBuffer receiveBuffer rxQueue txQueue time) es) :
    Refines
      (wire.run (start now tMessageExpect sendBuffer receiveBuffer rxQueue txQueue time) es)
      (joint.run (.start now tMessageExpect sendBuffer receiveBuffer (getTimeUs time))
        (wire.translate events
          (start now tMessageExpect sendBuffer receiveBuffer rxQueue txQueue time) es)) :=
  wire.run_related joint (fun _ _ _ h he => h.next he) (refines_start _ _ _ _ _ _ _) h

/-- No message of the step has a reserved byte, and those of the drone have no byte 0xFF. -/
structure Plain (s : Wire) (e : WireEvent) : Prop where
  sends : ∀ m ∈ s.sends e, ∀ b ∈ m.bytes, ¬IsControl b
  reports : ∀ m ∈ s.reports e, (∀ b ∈ m.bytes, ¬IsControl b) ∧ ∀ b ∈ m.frame, pcReads b = true
  text : ∀ b ∈ e.text, ¬IsControl b ∧ b ≠ escape
  txdrdy : e.isTxdrdy = true → 0 < s.line.inFlight
  rxQueue : (wire.next s e).line.uart.rxQueue.count.toNat ≤ queueSize
  txQueue : (wire.next s e).line.uart.txQueue.count.toNat ≤ queueSize

instance (s : Wire) (e : WireEvent) : Decidable (s.Plain e) :=
  decidable_of_iff ((∀ m ∈ s.sends e, ∀ b ∈ m.bytes, ¬IsControl b) ∧
    (∀ m ∈ s.reports e, (∀ b ∈ m.bytes, ¬IsControl b) ∧ ∀ b ∈ m.frame, pcReads b = true) ∧
    (∀ b ∈ e.text, ¬IsControl b ∧ b ≠ escape) ∧ (e.isTxdrdy = true → 0 < s.line.inFlight) ∧
    (wire.next s e).line.uart.rxQueue.count.toNat ≤ queueSize ∧
    (wire.next s e).line.uart.txQueue.count.toNat ≤ queueSize)
    ⟨fun ⟨h₁, h₂, h₃, h₄, h₅, h₆⟩ => ⟨h₁, h₂, h₃, h₄, h₅, h₆⟩,
      fun ⟨h₁, h₂, h₃, h₄, h₅, h₆⟩ => ⟨h₁, h₂, h₃, h₄, h₅, h₆⟩⟩

theorem Plain.regular {s : Wire} {e : WireEvent} (h : s.Plain e) : s.Regular e :=
  ⟨fun m hm => Msg.clean_of_plain (h.sends m hm) fun _ _ => rfl,
    fun m hm => Msg.clean_of_plain (h.reports m hm).1 (h.reports m hm).2, h.text, h.txdrdy,
    h.rxQueue, h.txQueue⟩

theorem regular_of_plain {s : Wire} {es : List WireEvent} (h : wire.Along Plain s es) :
    wire.Along Regular s es :=
  wire.along_mono (fun _ _ he => he.regular) h

/-- A request for a calibration and its confirmation, byte by byte. -/
def calibration : List WireEvent :=
  .keyboard ⟨1, 0⟩ 0x33 :: List.replicate 6 .rxdrdy ++ List.replicate 6 (.char 10 [0x52] []) ++
    List.replicate 13 .put ++ List.replicate 13 .txdrdy ++ List.replicate 13 .serial

/-- The confirmation arrives. -/
theorem wire_refines_calibration :
    Refines (wire.run (start ⟨0, 0⟩ ⟨0, 0⟩ (Vector.replicate sizeofMessage 0)
        (Vector.replicate sizeofMessage 0) .zeros .zeros 0) calibration)
      (joint.run (.start ⟨0, 0⟩ ⟨0, 0⟩ (Vector.replicate sizeofMessage 0)
        (Vector.replicate sizeofMessage 0) (getTimeUs 0))
        (wire.translate events (start ⟨0, 0⟩ ⟨0, 0⟩ (Vector.replicate sizeofMessage 0)
          (Vector.replicate sizeofMessage 0) .zeros .zeros 0) calibration)) :=
  wire_refines _ _ _ _ _ _ _ _ (regular_of_plain (by decide +kernel))

end Wire

end Quadrupel
