import Quadrupel.Queue

/-!
# The UART

`uart.c`. A byte goes straight to the transmitter when it is idle, else to the transmit
queue, from which the handler of the `TXDRDY` interrupt takes the next one. The two
paths could reorder bytes only if a byte waited while the transmitter is idle, and none
does : `txd_available` is set only when the queue is empty.

`uartLine` is the machine of the driver and the line. Its events are a call of `uart_put`
and the two interrupts; the handler and a `printf` are runs of it
(`uart0IRQHandler_eq_run`). `uart_lossless` is about any order of the events.
-/

namespace Quadrupel

/-- The flag and the queues of `uart.c`. -/
structure Uart where
  txdAvailable : Bool
  rxQueue : Queue
  txQueue : Queue
deriving DecidableEq

namespace Uart

/-- `uart_init`, on a drone whose `txd_available` is still as declared. -/
def uartInit (rxQueue txQueue : Queue) : Uart where
  txdAvailable := true
  rxQueue := rxQueue.initQueue
  txQueue := txQueue.initQueue

/-- `uart_put`, with the byte that it writes to `TXD`. -/
def uartPut (byte : UInt8) (u : Uart) : Uart × Option UInt8 :=
  if u.txdAvailable then ({ u with txdAvailable := false }, some byte)
  else ({ u with txQueue := u.txQueue.enqueue byte }, none)

/-- `_write`, with the bytes that it writes to `TXD`. -/
def write : List UInt8 → Uart → Uart × List UInt8
  | [], u => (u, [])
  | byte :: text, u =>
    let (u, txd) := u.uartPut byte
    let (u, written) := write text u
    (u, txd.toList ++ written)

/-- The `RXDRDY` part of the handler. -/
def rxdrdy (rxd : UInt8) (u : Uart) : Uart :=
  { u with rxQueue := u.rxQueue.enqueue rxd }

/-- The `TXDRDY` part of the handler, with the byte that it writes to `TXD`. -/
def txdrdy (u : Uart) : Uart × Option UInt8 :=
  if u.txQueue.count = 0 then ({ u with txdAvailable := true }, none)
  else
    let (byte, txQueue) := u.txQueue.dequeue
    ({ u with txQueue }, some byte)

/-- What the `ERROR` part of the handler prints. -/
def errorText (errorsrc : UInt32) : List UInt8 :=
  ("uart error: " ++ toString errorsrc.toNat ++ "\n").toUTF8.toList

/-- `UART0_IRQHandler`, with the bytes that it writes to `TXD` : `rxd` is there if
`EVENTS_RXDRDY` is set, `errorsrc` if `EVENTS_ERROR` is. -/
def uart0IRQHandler (rxd : Option UInt8) (eventsTxdrdy : Bool) (errorsrc : Option UInt32)
    (u : Uart) : Uart × List UInt8 :=
  let u := rxd.elim u fun rxd => u.rxdrdy rxd
  let (u, txd) := if eventsTxdrdy then u.txdrdy else (u, none)
  let (u, written) := errorsrc.elim (u, []) fun errorsrc => u.write (errorText errorsrc)
  (u, txd.toList ++ written)

end Uart

/-! ## The line -/

/-- The driver, with the number of the bytes in flight : those written to `TXD` whose
`TXDRDY` has not come. -/
structure UartLine where
  uart : Uart
  inFlight : ℕ
deriving DecidableEq

/-- A call of `uart_put`, or a part of the handler. -/
inductive UartEvent
  | put (byte : UInt8)
  | rxdrdy (rxd : UInt8)
  | txdrdy
deriving DecidableEq

/-- The byte that the event passes to `uart_put`. -/
def UartEvent.byte? : UartEvent → Option UInt8
  | .put byte => some byte
  | .rxdrdy _ => none
  | .txdrdy => none

namespace UartLine

/-- The byte is written to `TXD`. -/
def send (inFlight : ℕ) : Uart × Option UInt8 → UartLine
  | (uart, txd) => ⟨uart, inFlight + txd.toList.length⟩

/-- The line after `uart_init`. -/
def start (rxQueue txQueue : Queue) : UartLine :=
  ⟨.uartInit rxQueue txQueue, 0⟩

end UartLine

/-- The driver and its line, with the byte that each event writes to `TXD`. -/
def uartLine : Machine UartLine UartEvent (Option UInt8) where
  next l
    | .put byte => .send l.inFlight (l.uart.uartPut byte)
    | .rxdrdy rxd => { l with uart := l.uart.rxdrdy rxd }
    | .txdrdy => .send (l.inFlight - 1) l.uart.txdrdy
  out l
    | .put byte => (l.uart.uartPut byte).2
    | .rxdrdy _ => none
    | .txdrdy => l.uart.txdrdy.2

namespace UartLine

/-- The bytes passed to `uart_put`, in order. -/
def puts (es : List UartEvent) : List UInt8 :=
  es.filterMap UartEvent.byte?

/-- The bytes written to `TXD`, in order. -/
def written (l : UartLine) (es : List UartEvent) : List UInt8 :=
  (uartLine.outputs l es).filterMap id

theorem puts_concat (es : List UartEvent) (e : UartEvent) :
    puts (es ++ [e]) = puts es ++ e.byte?.toList := by
  rw [puts, List.filterMap_append]
  cases e <;> rfl

theorem filterMap_id_concat (h : List (Option UInt8)) (txd : Option UInt8) :
    (h ++ [txd]).filterMap id = h.filterMap id ++ txd.toList := by
  rw [List.filterMap_append]
  cases txd <;> rfl

theorem written_cons (l : UartLine) (e : UartEvent) (es : List UartEvent) :
    l.written (e :: es) = (uartLine.out l e).toList ++ (uartLine.next l e).written es := by
  rw [written, Machine.outputs_cons]
  cases hout : uartLine.out l e <;> rfl

/-- A `printf` puts its bytes one by one. -/
theorem write_eq_run (text : List UInt8) (l : UartLine) :
    l.uart.write text =
      ((uartLine.run l (text.map .put)).uart, l.written (text.map .put)) := by
  induction text generalizing l with
  | nil => rfl
  | cons byte text ih =>
    have hrest := ih (uartLine.next l (.put byte))
    change (l.uart.uartPut byte).1.write text = _ at hrest
    simp only [Uart.write, List.map_cons, Machine.run_cons, written_cons, hrest]
    rfl

/-- The parts of the handler that run. -/
def handlerEvents (rxd : Option UInt8) (eventsTxdrdy : Bool) (errorsrc : Option UInt32) :
    List UartEvent :=
  (rxd.map .rxdrdy).toList ++ ((if eventsTxdrdy then [.txdrdy] else []) ++
    errorsrc.elim [] fun errorsrc => (Uart.errorText errorsrc).map .put)

/-- The handler is its parts, one after the other. -/
theorem uart0IRQHandler_eq_run (rxd : Option UInt8) (eventsTxdrdy : Bool)
    (errorsrc : Option UInt32) (l : UartLine) :
    l.uart.uart0IRQHandler rxd eventsTxdrdy errorsrc =
      ((uartLine.run l (handlerEvents rxd eventsTxdrdy errorsrc)).uart,
        l.written (handlerEvents rxd eventsTxdrdy errorsrc)) := by
  have hprint (l : UartLine) :
      (errorsrc.elim (l.uart, []) fun errorsrc => l.uart.write (Uart.errorText errorsrc)) =
        ((uartLine.run l (errorsrc.elim [] fun e => (Uart.errorText e).map .put)).uart,
          l.written (errorsrc.elim [] fun e => (Uart.errorText e).map .put)) := by
    cases errorsrc with
    | none => rfl
    | some errorsrc => exact write_eq_run _ l
  have hrest (l : UartLine) : l.uart.uart0IRQHandler none eventsTxdrdy errorsrc =
      ((uartLine.run l (handlerEvents none eventsTxdrdy errorsrc)).uart,
        l.written (handlerEvents none eventsTxdrdy errorsrc)) := by
    cases eventsTxdrdy with
    | false => exact hprint l
    | true =>
      let txd := l.uart.txdrdy.2.toList
      have hnext := congrArg (fun p : Uart × List UInt8 => (p.1, txd ++ p.2))
        (hprint (uartLine.next l .txdrdy))
      refine Eq.trans hnext (Prod.ext rfl ?_)
      exact (written_cons l .txdrdy _).symm
  cases rxd with
  | none => exact hrest l
  | some rxd => exact hrest (uartLine.next l (.rxdrdy rxd))

/-- A `TXDRDY` comes only for a byte in flight, and at most 256 bytes wait. -/
def Regular (l : UartLine) (e : UartEvent) : Prop :=
  (e = .txdrdy → 0 < l.inFlight) ∧ (uartLine.next l e).uart.txQueue.count.toNat ≤ queueSize

instance (l : UartLine) (e : UartEvent) : Decidable (l.Regular e) :=
  inferInstanceAs (Decidable ((_ → _) ∧ _))

/-- The bytes on the line, then those in the queue, are all that were put, and the
transmitter is idle only when there is nothing to send. -/
structure Lossless (l : UartLine) (es : List UartEvent) : Prop where
  written_prefix : l.written es <+: puts es
  puts_eq : puts es = l.written es ++ (uartLine.run l es).uart.txQueue.contents
  available_iff : (uartLine.run l es).uart.txdAvailable = true ↔ (uartLine.run l es).inFlight = 0
  count_eq : (uartLine.run l es).uart.txdAvailable = true →
    (uartLine.run l es).uart.txQueue.count = 0

/-- The invariant of the driver : one byte is in flight unless the transmitter is idle,
which it is only when no byte waits. -/
structure Fed (puts written : List UInt8) (l : UartLine) : Prop where
  wellFormed : l.uart.txQueue.WellFormed
  puts_eq : puts = written ++ l.uart.txQueue.contents
  inFlight_eq : l.inFlight = if l.uart.txdAvailable then 0 else 1
  count_eq : l.uart.txdAvailable = true → l.uart.txQueue.count = 0

/-- A byte goes to the idle transmitter, or behind those that wait. -/
theorem Fed.put {puts written : List UInt8} {l : UartLine} (h : Fed puts written l) {byte : UInt8}
    (hcount : (uartLine.next l (.put byte)).uart.txQueue.count.toNat ≤ queueSize) :
    Fed (puts ++ [byte]) (written ++ (uartLine.out l (.put byte)).toList)
      (uartLine.next l (.put byte)) := by
  obtain ⟨⟨txdAvailable, rxQueue, txQueue⟩, inFlight⟩ := l
  obtain ⟨hwf, hputs, hflight, hzero⟩ := h
  cases txdAvailable with
  | true =>
    have hempty : txQueue.contents = [] := Queue.contents_eq_nil (hzero rfl)
    refine ⟨hwf, ?_, congrArg (· + 1) hflight, nofun⟩
    change puts ++ [byte] = written ++ [byte] ++ txQueue.contents
    rw [hputs, hempty, List.append_nil, List.append_nil]
  | false =>
    have hnext := Queue.toNat_count_enqueue hwf.count_le byte
    have hroom : txQueue.count.toNat < queueSize := hnext.symm.trans_le hcount
    refine ⟨hwf.enqueue hroom byte, ?_, hflight, nofun⟩
    change puts ++ [byte] = written ++ [] ++ (txQueue.enqueue byte).contents
    rw [hputs, Queue.contents_enqueue hwf hroom, List.append_nil, List.append_assoc]

/-- The transmitter goes on with the oldest byte that waits, or is idle. -/
theorem Fed.txdrdy {puts written : List UInt8} {l : UartLine} (h : Fed puts written l)
    (hflying : 0 < l.inFlight) :
    Fed puts (written ++ (uartLine.out l .txdrdy).toList) (uartLine.next l .txdrdy) := by
  obtain ⟨⟨txdAvailable, rxQueue, txQueue⟩, inFlight⟩ := l
  obtain ⟨hwf, hputs, hflight, hzero⟩ := h
  cases txdAvailable with
  | true => exact absurd hflight hflying.ne'
  | false =>
    simp only [uartLine, Uart.txdrdy]
    by_cases hcount : txQueue.count = 0
    · rw [if_pos hcount, hputs]
      refine ⟨hwf, ?_, congrArg (· - 1) hflight, fun _ => hcount⟩
      change written ++ txQueue.contents = written ++ [] ++ txQueue.contents
      rw [List.append_nil]
    · have hpos : 0 < txQueue.count := UInt16.pos_iff_ne_zero.2 hcount
      rw [if_neg hcount]
      refine ⟨hwf.dequeue hpos, ?_, ?_, nofun⟩
      · change puts = written ++ [txQueue.dequeue.1] ++ txQueue.dequeue.2.contents
        rw [hputs, Queue.contents_dequeue hwf hpos, List.append_assoc, List.singleton_append]
      · exact congrArg (· - 1 + 1) hflight

/-- The driver loses and reorders no byte, and never idles while one waits. -/
theorem uart_lossless (rxQueue txQueue : Queue) (es : List UartEvent)
    (h : uartLine.Along Regular (start rxQueue txQueue) es) :
    Lossless (start rxQueue txQueue) es := by
  have hstep (es : List UartEvent) (h : List (Option UInt8)) (l : UartLine) (e : UartEvent)
      (hfed : Fed (puts es) (h.filterMap id) l) (he : l.Regular e) :
      Fed (puts (es ++ [e])) ((h ++ [uartLine.out l e]).filterMap id) (uartLine.next l e) := by
    rw [puts_concat, filterMap_id_concat]
    cases e with
    | put byte => exact hfed.put he.2
    | rxdrdy rxd =>
      obtain ⟨hwf, hputs, hflight, hzero⟩ := hfed
      refine ⟨hwf, ?_, hflight, hzero⟩
      change puts es ++ [] = h.filterMap id ++ [] ++ l.uart.txQueue.contents
      rw [List.append_nil, List.append_nil, hputs]
    | txdrdy => simpa [UartEvent.byte?] using hfed.txdrdy (he.1 rfl)
  have hstart : Fed [] [] (start rxQueue txQueue) :=
    ⟨Queue.wellFormed_initQueue txQueue, rfl, rfl, fun _ => rfl⟩
  obtain ⟨-, hputs, hflight, hzero⟩ := uartLine.trace_invariant hstep hstart h
  refine ⟨⟨_, hputs.symm⟩, hputs, ?_, hzero⟩
  rw [hflight]
  split_ifs with havailable <;> simp [havailable]

/-- Three bytes and two interrupts, of which the second leaves the third byte in flight. -/
theorem uart_lossless_three :
    Lossless (start .zeros .zeros) [.put 1, .put 2, .txdrdy, .put 3, .rxdrdy 7, .txdrdy] :=
  uart_lossless _ _ _ (by decide +kernel)

end UartLine

end Quadrupel
