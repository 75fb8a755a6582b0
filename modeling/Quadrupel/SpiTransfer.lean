import Quadrupel.SpiBus
import Quadrupel.Traced
import Mathlib

/-!
# The SPI transfers

The five transfer routines of `spi_flash.c`, with any slave on the bus. A buffer is a
memory that records its accesses, and indices count from the pointer that the routine
gets; no pointer is null, as every caller passes an array. `none` is a wait that never
ends.
-/

namespace Quadrupel

/-- `WRDI`. -/
def wrdi : UInt8 :=
  0x04

/-- `AAI`. -/
def aai : UInt8 :=
  0xAF

namespace Spi

variable {σ : Type*} (S : Slave UInt8 σ)

/-! ## The routines -/

/-- The loop of `spi_master_tx_rx`. Its `tmp` is the byte behind `tx_data`, which is two
ahead of `rx_data`, at `i`. -/
def txRxLoop : ℕ → ℕ → UInt8 → Traced UInt8 → Traced UInt8 → Bus UInt8 σ →
    Option (ℕ × Traced UInt8 × Traced UInt8 × Bus UInt8 σ)
  | 0, i, _, txData, rxData, bus => some (i, txData, rxData, bus)
  | transferSize + 1, i, tmp, txData, rxData, bus => do
    let bus := bus.writeTxd tmp
    let (tmp, txData) := txData.load (i + 2)
    let bus := (← bus.waitReady S).clearReady
    txRxLoop transferSize (i + 1) tmp txData (rxData.store i bus.rxd) bus

/-- `spi_master_tx_rx`. -/
def spiMasterTxRx (transferSize : UInt16) (txData rxData : Traced UInt8) (bus : Bus UInt8 σ) :
    Option (Bool × Traced UInt8 × Traced UInt8 × Bus UInt8 σ) :=
  if transferSize < 1 then some (false, txData, rxData, bus)
  else do
    let bus := (bus.select S).clearReady
    let (b, txData) := txData.load 0
    let bus := bus.writeTxd b
    let (tmp, txData) := txData.load 1
    let (i, txData, rxData, bus) ←
      txRxLoop S (transferSize.toNat - 1) 0 tmp txData rxData bus
    let bus ← bus.waitReady S
    return (true, txData, rxData.store i bus.rxd, bus.deselect S)

/-- The loop of `spi_master_tx`, with `tx_data` at `i`. -/
def txLoop : ℕ → ℕ → Traced UInt8 → Bus UInt8 σ → Option (Traced UInt8 × Bus UInt8 σ)
  | 0, _, txData, bus => some (txData, bus)
  | transferSize + 1, i, txData, bus => do
    let (b, txData) := txData.load i
    let bus := bus.writeTxd b
    let bus := (← bus.waitReady S).clearReady
    txLoop transferSize (i + 1) txData bus

/-- `spi_master_tx`. -/
def spiMasterTx (transferSize : UInt16) (txData : Traced UInt8) (bus : Bus UInt8 σ) :
    Option (Bool × Traced UInt8 × Bus UInt8 σ) :=
  if transferSize < 1 then some (false, txData, bus)
  else do
    let bus := (bus.select S).clearReady
    let (b, txData) := txData.load 0
    let bus := bus.writeTxd b
    let (txData, bus) ← txLoop S (transferSize.toNat - 1) 1 txData bus
    let bus ← bus.waitReady S
    return (true, txData, bus.deselect S)

/-- The loop of `spi_master_rx`, with `rx_data` at `i`. -/
def rxLoop : ℕ → ℕ → Traced UInt8 → Bus UInt8 σ → Option (ℕ × Traced UInt8 × Bus UInt8 σ)
  | 0, i, rxData, bus => some (i, rxData, bus)
  | transferSize + 1, i, rxData, bus => do
    let bus := bus.writeTxd 0
    let bus := (← bus.waitReady S).clearReady
    rxLoop transferSize (i + 1) (rxData.store i bus.rxd) bus

/-- `spi_master_rx`. -/
def spiMasterRx (transferSize : UInt16) (rxData : Traced UInt8) (bus : Bus UInt8 σ) :
    Option (Bool × Traced UInt8 × Bus UInt8 σ) :=
  if transferSize < 1 then some (false, rxData, bus)
  else do
    let bus := (bus.select S).clearReady
    let bus := bus.writeTxd 0
    let (i, rxData, bus) ← rxLoop S (transferSize.toNat - 1) 0 rxData bus
    let bus ← bus.waitReady S
    return (true, rxData.store i bus.rxd, bus.deselect S)

/-- The loop that sends `n` bytes of the command, with `tx_data` at `i`. -/
def sendCommand : ℕ → ℕ → Traced UInt8 → Bus UInt8 σ → Option (Traced UInt8 × Bus UInt8 σ)
  | 0, _, txData, bus => some (txData, bus)
  | n + 1, i, txData, bus => do
    let (b, txData) := txData.load i
    let bus ← bus.sendByte S b
    sendCommand n (i + 1) txData bus

/-- The loop of `spi_master_tx_rx_fast_read`, with `rx_data` at `i`. -/
def fastReadLoop : ℕ → ℕ → Traced UInt8 → Bus UInt8 σ → Option (Traced UInt8 × Bus UInt8 σ)
  | 0, _, rxData, bus => some (rxData, bus)
  | transferSize + 1, i, rxData, bus => do
    let bus ← bus.sendByte S 0
    fastReadLoop transferSize (i + 1) (rxData.store i bus.rxd) bus

/-- `spi_master_tx_rx_fast_read`. -/
def spiMasterTxRxFastRead (transferSize : UInt16) (txData rxData : Traced UInt8)
    (bus : Bus UInt8 σ) : Option (Bool × Traced UInt8 × Traced UInt8 × Bus UInt8 σ) :=
  if transferSize < 1 then some (false, txData, rxData, bus)
  else do
    let bus := (bus.select S).clearReady
    let (txData, bus) ← sendCommand S 4 0 txData bus
    let (rxData, bus) ← fastReadLoop S transferSize.toNat 0 rxData bus
    return (true, txData, rxData, bus.deselect S)

/-- The loop of `spi_master_tx_rx_fast_write`, with `bytes` one ahead of `bytesWritten`.
It gives false if it ends in the `return false`. -/
def fastWriteLoop (address : ℕ) :
    ℕ → ℕ → Traced UInt8 → Bus UInt8 σ → Option (Bool × Traced UInt8 × Bus UInt8 σ)
  | 0, _, bytes, bus => some (true, bytes, bus)
  | transferSize + 1, bytesWritten, bytes, bus => do
    let bus ← (bus.select S).sendByte S aai
    let (b, bytes) := bytes.load (bytesWritten + 1)
    let bus ← bus.sendByte S b
    let bytesWritten := bytesWritten + 1
    let bus := bus.deselect S
    if address + bytesWritten ≥ 0x1FFFF ∧ transferSize + 1 ≠ 0 then some (false, bytes, bus)
    else fastWriteLoop address transferSize bytesWritten bytes bus

/-- `spi_master_tx_rx_fast_write`. -/
def spiMasterTxRxFastWrite (transferSize : UInt16) (txData bytes : Traced UInt8)
    (bus : Bus UInt8 σ) : Option (Bool × Traced UInt8 × Traced UInt8 × Bus UInt8 σ) :=
  let (a3, txData) := txData.load 3
  let (a2, txData) := txData.load 2
  let (a1, txData) := txData.load 1
  let address := a3.toNat + a2.toNat <<< 8 + a1.toNat <<< 16
  if transferSize < 1 then some (false, txData, bytes, bus)
  else do
    let bus := (bus.select S).clearReady
    let (txData, bus) ← sendCommand S 4 0 txData bus
    let (b, bytes) := bytes.load 0
    let bus ← bus.sendByte S b
    let bus := bus.deselect S
    let (completed, bytes, bus) ←
      fastWriteLoop S address (transferSize.toNat - 1) 0 bytes bus
    if completed then do
      let bus ← (bus.select S).sendByte S wrdi
      return (true, txData, bytes, bus.deselect S)
    else return (false, txData, bytes, bus)

/-! ## What they do -/

theorem txLoop_eq (n i : ℕ) {b : UInt8} (txData : Traced UInt8) {bus : Bus UInt8 σ}
    (hsending : bus.sending = [b]) (hready : bus.ready = false) :
    ∃ bus', txLoop S n i txData bus = some (txData.loads i n, bus') ∧
      bus'.waitReady S = some (bus.exchangeList S (b :: txData.slice i n)).withReady := by
  induction n generalizing i b txData bus with
  | zero =>
    refine ⟨bus, by rw [txLoop, Traced.loads_zero], ?_⟩
    rw [Bus.waitReady_eq S hsending hready]
    rfl
  | succ n ih =>
    have hwait := Bus.waitReady_writeTxd S hsending hready (txData.cells i)
    have hnext : ({ bus.exchangeOne S b with
        sending := [txData.cells i], ready := false } : Bus UInt8 σ).sending = [txData.cells i] :=
      rfl
    obtain ⟨bus', hloop, hlast⟩ := ih (i + 1) (txData.load i).2 hnext rfl
    rw [Traced.loads_load] at hloop
    refine ⟨bus', ?_, ?_⟩
    · simp only [txLoop, Traced.load_fst, hwait, Option.bind_eq_bind, Option.bind_some]
      exact hloop
    · rw [hlast, Bus.exchangeList_set]
      rfl

theorem txRxLoop_eq (n i : ℕ) {b : UInt8} (txData rxData : Traced UInt8) {bus : Bus UInt8 σ}
    (hsending : bus.sending = [b]) (hready : bus.ready = false) :
    ∃ rxData' bus' bus'',
      txRxLoop S n i (txData.cells (i + 1)) txData rxData bus =
        some (i + n, txData.loads (i + 2) n, rxData', bus') ∧
      bus'.waitReady S = some bus'' ∧
      bus'' = (bus.exchangeList S (b :: txData.slice (i + 1) n)).withReady ∧
      rxData'.store (i + n) bus''.rxd =
        rxData.stores i (bus.received S (b :: txData.slice (i + 1) n)) := by
  induction n generalizing i b txData rxData bus with
  | zero =>
    refine ⟨rxData, bus, _, ?_, Bus.waitReady_eq S hsending hready, rfl, rfl⟩
    rw [txRxLoop, Traced.loads_zero]
    rfl
  | succ n ih =>
    have hwait := Bus.waitReady_writeTxd S hsending hready (txData.cells (i + 1))
    have hnext : ({ bus.exchangeOne S b with
        sending := [txData.cells (i + 1)], ready := false } : Bus UInt8 σ).sending =
          [txData.cells (i + 1)] :=
      rfl
    obtain ⟨rxData', bus', bus'', hloop, hlast, hbus, hstore⟩ := ih (i + 1)
      (txData.load (i + 2)).2 (rxData.store i (bus.exchangeOne S b).rxd) hnext rfl
    rw [Nat.add_right_comm i 1 n] at hloop hstore
    rw [Traced.loads_load] at hloop
    refine ⟨rxData', bus', bus'', ?_, hlast, ?_, ?_⟩
    · simp only [txRxLoop, Traced.load_fst, hwait, Option.bind_eq_bind, Option.bind_some]
      exact hloop
    · rw [hbus, Bus.exchangeList_set]
      rfl
    · rw [← Nat.add_assoc, hstore, Bus.received_set]
      rfl

theorem rxLoop_eq (n i : ℕ) (rxData : Traced UInt8) {bus : Bus UInt8 σ}
    (hsending : bus.sending = [0]) (hready : bus.ready = false) :
    ∃ rxData' bus' bus'', rxLoop S n i rxData bus = some (i + n, rxData', bus') ∧
      bus'.waitReady S = some bus'' ∧
      bus'' = (bus.exchangeList S (List.replicate (n + 1) 0)).withReady ∧
      rxData'.store (i + n) bus''.rxd =
        rxData.stores i (bus.received S (List.replicate (n + 1) 0)) := by
  induction n generalizing i rxData bus with
  | zero =>
    refine ⟨rxData, bus, _, rfl, Bus.waitReady_eq S hsending hready, rfl, rfl⟩
  | succ n ih =>
    have hwait := Bus.waitReady_writeTxd S hsending hready 0
    have hnext : ({ bus.exchangeOne S 0 with
        sending := [0], ready := false } : Bus UInt8 σ).sending = [0] :=
      rfl
    obtain ⟨rxData', bus', bus'', hloop, hlast, hbus, hstore⟩ := ih (i + 1)
      (rxData.store i (bus.exchangeOne S 0).rxd) hnext rfl
    rw [Nat.add_right_comm i 1 n] at hloop hstore
    refine ⟨rxData', bus', bus'', ?_, hlast, ?_, ?_⟩
    · simp only [rxLoop, hwait, Option.bind_eq_bind, Option.bind_some]
      exact hloop
    · rw [hbus, Bus.exchangeList_set]
      rfl
    · rw [← Nat.add_assoc, hstore, Bus.received_set]
      rfl

theorem sendCommand_eq (n i : ℕ) (txData : Traced UInt8) {bus : Bus UInt8 σ} (h : bus.Quiet) :
    sendCommand S n i txData bus =
      some (txData.loads i n, bus.exchangeList S (txData.slice i n)) := by
  induction n generalizing i txData bus with
  | zero => rw [sendCommand, Traced.loads_zero, Traced.slice_zero, Bus.exchangeList_nil]
  | succ n ih =>
    simp only [sendCommand, Traced.load_fst, Bus.sendByte_eq S h, Option.bind_eq_bind,
      Option.bind_some]
    rw [ih (i + 1) _ (h.exchangeOne S _), Traced.loads_load]
    rfl

theorem fastReadLoop_eq (n i : ℕ) (rxData : Traced UInt8) {bus : Bus UInt8 σ} (h : bus.Quiet) :
    fastReadLoop S n i rxData bus =
      some (rxData.stores i (bus.received S (List.replicate n 0)),
        bus.exchangeList S (List.replicate n 0)) := by
  induction n generalizing i rxData bus with
  | zero => rfl
  | succ n ih =>
    simp only [fastReadLoop, Bus.sendByte_eq S h, Option.bind_eq_bind, Option.bind_some]
    rw [ih (i + 1) _ (h.exchangeOne S _)]
    rfl

/-! ## The routines as transactions -/

variable {transferSize : UInt16}

theorem exists_toNat_eq (h : ¬transferSize < 1) : ∃ n, transferSize.toNat = n + 1 := by
  have hpos : 1 ≤ transferSize.toNat := UInt16.le_iff_toNat_le.1 (UInt16.not_lt.1 h)
  exact ⟨transferSize.toNat - 1, by omega⟩

/-- The bus when the first byte is in the data register. -/
theorem writeTxd_first (b : UInt8) {bus : Bus UInt8 σ} (h : bus.sending = []) :
    (bus.select S).clearReady.writeTxd b =
      { bus.select S with sending := [b], ready := false } := by
  simp only [Bus.writeTxd, Bus.clearReady, Bus.select, h, List.nil_append]

theorem quiet_started {bus : Bus UInt8 σ} (h : bus.sending = []) :
    (bus.select S).clearReady.Quiet :=
  ⟨h, rfl⟩

theorem spiMasterTx_eq (h : ¬transferSize < 1) (txData : Traced UInt8) {bus : Bus UInt8 σ}
    (hbus : bus.sending = []) :
    spiMasterTx S transferSize txData bus =
      some (true, txData.loads 0 transferSize.toNat,
        (bus.transact S (txData.slice 0 transferSize.toNat)).withReady) := by
  obtain ⟨n, hn⟩ := exists_toNat_eq h
  have hfirst : ({ bus.select S with
      sending := [txData.cells 0], ready := false } : Bus UInt8 σ).sending = [txData.cells 0] :=
    rfl
  obtain ⟨bus', hloop, hlast⟩ := txLoop_eq S n 1 (txData.load 0).2 hfirst rfl
  rw [Traced.loads_load] at hloop
  rw [Bus.exchangeList_set] at hlast
  simp only [spiMasterTx, if_neg h, hn, Nat.add_sub_cancel, Traced.load_fst,
    writeTxd_first S _ hbus, hloop, hlast, Option.bind_eq_bind, Option.bind_some]
  rfl

theorem spiMasterRx_eq (h : ¬transferSize < 1) (rxData : Traced UInt8) {bus : Bus UInt8 σ}
    (hbus : bus.sending = []) :
    spiMasterRx S transferSize rxData bus =
      some (true,
        rxData.stores 0 ((bus.select S).received S (List.replicate transferSize.toNat 0)),
        (bus.transact S (List.replicate transferSize.toNat 0)).withReady) := by
  obtain ⟨n, hn⟩ := exists_toNat_eq h
  have hfirst : ({ bus.select S with
      sending := [0], ready := false } : Bus UInt8 σ).sending = [0] :=
    rfl
  obtain ⟨rxData', bus', bus'', hloop, hlast, hbus'', hstore⟩ :=
    rxLoop_eq S n 0 rxData hfirst rfl
  rw [Bus.exchangeList_set] at hbus''
  rw [Bus.received_set] at hstore
  simp only [spiMasterRx, if_neg h, hn, Nat.add_sub_cancel, writeTxd_first S _ hbus, hloop,
    hlast, hstore, Option.bind_eq_bind, Option.bind_some]
  rw [hbus'']
  rfl

/-- It reads one byte more than it sends. -/
theorem spiMasterTxRx_eq (h : ¬transferSize < 1) (txData rxData : Traced UInt8)
    {bus : Bus UInt8 σ} (hbus : bus.sending = []) :
    spiMasterTxRx S transferSize txData rxData bus =
      some (true, txData.loads 0 (transferSize.toNat + 1),
        rxData.stores 0 ((bus.select S).received S (txData.slice 0 transferSize.toNat)),
        (bus.transact S (txData.slice 0 transferSize.toNat)).withReady) := by
  obtain ⟨n, hn⟩ := exists_toNat_eq h
  have hfirst : ({ bus.select S with
      sending := [txData.cells 0], ready := false } : Bus UInt8 σ).sending = [txData.cells 0] :=
    rfl
  obtain ⟨rxData', bus', bus'', hloop, hlast, hbus'', hstore⟩ :=
    txRxLoop_eq S n 0 ((txData.load 0).2.load 1).2 rxData hfirst rfl
  rw [Traced.loads_load, Traced.loads_load, Traced.cells_load, Traced.cells_load] at hloop
  rw [Bus.exchangeList_set] at hbus''
  rw [Bus.received_set] at hstore
  simp only [spiMasterTxRx, if_neg h, hn, Nat.add_sub_cancel, Traced.load_fst, Traced.cells_load,
    writeTxd_first S _ hbus, hloop, hlast, hstore, Option.bind_eq_bind, Option.bind_some]
  rw [hbus'']
  rfl

theorem spiMasterTxRxFastRead_eq (h : ¬transferSize < 1) (txData rxData : Traced UInt8)
    {bus : Bus UInt8 σ} (hbus : bus.sending = []) :
    spiMasterTxRxFastRead S transferSize txData rxData bus =
      some (true, txData.loads 0 4,
        rxData.stores 0 (((bus.select S).exchangeList S (txData.slice 0 4)).received S
          (List.replicate transferSize.toNat 0)),
        (bus.transact S (txData.slice 0 4 ++ List.replicate transferSize.toNat 0)).clearReady) := by
  have hquiet := quiet_started S hbus
  have hread := fastReadLoop_eq S transferSize.toNat 0 rxData
    (hquiet.exchangeList S (txData.slice 0 4))
  simp only [spiMasterTxRxFastRead, if_neg h, sendCommand_eq S 4 0 txData hquiet, hread,
    Option.bind_eq_bind, Option.bind_some]
  rw [Bus.exchangeList_clearReady, Bus.received_clearReady, Bus.exchangeList_clearReady,
    ← Bus.exchangeList_append]
  rfl

/-! ## The fast write -/

/-- How many rounds the loop of the fast write makes for `transferSize` bytes more. -/
def fastWriteRounds (address bytesWritten transferSize : ℕ) : ℕ :=
  if transferSize = 0 ∨ address + bytesWritten + transferSize < 0x1FFFF then transferSize
  else max 1 (0x1FFFF - (address + bytesWritten))

theorem fastWriteRounds_stop {address bytesWritten n : ℕ}
    (h : 0x1FFFF ≤ address + (bytesWritten + 1)) :
    fastWriteRounds address bytesWritten (n + 1) = 1 := by
  unfold fastWriteRounds
  rw [if_neg (by omega)]
  omega

theorem fastWriteRounds_succ {address bytesWritten n : ℕ}
    (h : address + (bytesWritten + 1) < 0x1FFFF) :
    fastWriteRounds address bytesWritten (n + 1) =
      fastWriteRounds address (bytesWritten + 1) n + 1 := by
  unfold fastWriteRounds
  by_cases hall : address + bytesWritten + (n + 1) < 0x1FFFF
  · rw [if_pos (Or.inr hall), if_pos (by omega)]
  · rw [if_neg (by omega), if_neg (by omega)]
    omega

/-- Each byte is sent behind an `AAI`. -/
def autoIncrement (bs : List UInt8) (bus : Bus UInt8 σ) : Bus UInt8 σ :=
  bs.foldl (fun bus b => bus.transact S [aai, b]) bus

theorem quiet_autoIncrement {bus : Bus UInt8 σ} (h : bus.Quiet) (bs : List UInt8) :
    (autoIncrement S bs bus).Quiet := by
  induction bs generalizing bus with
  | nil => exact h
  | cons b bs ih => exact ih (h.transact S _)

theorem clocked_autoIncrement (bs : List UInt8) (bus : Bus UInt8 σ) :
    (autoIncrement S bs bus).clocked = bus.clocked ++ bs.flatMap fun b => [aai, b] := by
  induction bs generalizing bus with
  | nil => simp [autoIncrement]
  | cons b bs ih =>
    refine (ih (bus.transact S [aai, b])).trans ?_
    rw [Bus.clocked_transact, List.append_assoc, List.flatMap_cons]

theorem fastWriteLoop_eq (address n bytesWritten : ℕ) (bytes : Traced UInt8) {bus : Bus UInt8 σ}
    (h : bus.Quiet) : fastWriteLoop S address n bytesWritten bytes bus =
      some (decide (n = 0 ∨ address + bytesWritten + n < 0x1FFFF),
        bytes.loads (bytesWritten + 1) (fastWriteRounds address bytesWritten n),
        autoIncrement S (bytes.slice (bytesWritten + 1) (fastWriteRounds address bytesWritten n))
          bus) := by
  induction n generalizing bytesWritten bytes bus with
  | zero =>
    simp [fastWriteLoop, fastWriteRounds, Traced.loads_zero, autoIncrement]
  | succ n ih =>
    have hselect := h.select S
    have hsecond : (((bus.select S).exchangeOne S aai).exchangeOne S
        (bytes.cells (bytesWritten + 1))).deselect S =
          bus.transact S [aai, bytes.cells (bytesWritten + 1)] := rfl
    simp only [fastWriteLoop, Bus.sendByte_eq S hselect, Traced.load_fst,
      Bus.sendByte_eq S (hselect.exchangeOne S aai), Option.bind_eq_bind, Option.bind_some,
      hsecond]
    by_cases hend : address + (bytesWritten + 1) ≥ 0x1FFFF ∧ n + 1 ≠ 0
    · have hfull : ¬(n + 1 = 0 ∨ address + bytesWritten + (n + 1) < 0x1FFFF) := by omega
      rw [if_pos hend, fastWriteRounds_stop hend.1, decide_eq_false hfull]
      rfl
    · have hlt : address + (bytesWritten + 1) < 0x1FFFF := by omega
      have hiff : (n = 0 ∨ address + (bytesWritten + 1) + n < 0x1FFFF) ↔
          (n + 1 = 0 ∨ address + bytesWritten + (n + 1) < 0x1FFFF) := by omega
      rw [if_neg hend, ih (bytesWritten + 1) _ (h.transact S _), fastWriteRounds_succ hlt,
        Traced.loads_load, decide_eq_decide.2 hiff]
      rfl

/-- The start address that the fast write computes from its command. -/
def commandAddress (txData : Traced UInt8) : ℕ :=
  (txData.cells 3).toNat + (txData.cells 2).toNat <<< 8 + (txData.cells 1).toNat <<< 16

/-- The fast write gets to the end of its loop. -/
def Completes (address transferSize : ℕ) : Prop :=
  transferSize = 1 ∨ address + transferSize < 0x20000

instance (address transferSize : ℕ) : Decidable (Completes address transferSize) :=
  inferInstanceAs (Decidable (_ ∨ _))

/-- The reads of the command, three of them to compute the address. -/
def readCommand (txData : Traced UInt8) : Traced UInt8 :=
  (((txData.load 3).2.load 2).2.load 1).2.loads 0 4

/-- The first byte goes with the command and each further one with an `AAI`; a `WRDI`
follows if the loop gets to its end. -/
theorem spiMasterTxRxFastWrite_eq (h : ¬transferSize < 1) (txData bytes : Traced UInt8)
    {bus : Bus UInt8 σ} (hbus : bus.sending = []) :
    let address := commandAddress txData
    let rounds := fastWriteRounds address 0 (transferSize.toNat - 1)
    let written := autoIncrement S (bytes.slice 1 rounds)
      ((bus.transact S (txData.slice 0 4 ++ [bytes.cells 0])).clearReady)
    spiMasterTxRxFastWrite S transferSize txData bytes bus =
      some (decide (Completes address transferSize.toNat), readCommand txData,
        bytes.loads 0 (rounds + 1),
        if Completes address transferSize.toNat then written.transact S [wrdi] else written) := by
  intro address rounds written
  obtain ⟨n, hn⟩ := exists_toNat_eq h
  have hquiet := quiet_started S hbus
  set read := (((txData.load 3).2.load 2).2.load 1).2 with hread
  have hcommand := sendCommand_eq S 4 0 read hquiet
  have hbyte := Bus.sendByte_eq S (hquiet.exchangeList S (read.slice 0 4)) (bytes.cells 0)
  have hfirst : (((bus.select S).clearReady.exchangeList S (read.slice 0 4)).exchangeOne S
      (bytes.cells 0)).deselect S =
        (bus.transact S (txData.slice 0 4 ++ [bytes.cells 0])).clearReady := by
    rw [Bus.exchangeList_clearReady, Bus.transact, Bus.exchangeList_append]
    rfl
  have hstarted := Bus.quiet_transact S hbus (txData.slice 0 4 ++ [bytes.cells 0])
  have hloop := fastWriteLoop_eq S address n 0 (bytes.load 0).2 hstarted
  have hrounds : fastWriteRounds address 0 n = rounds := by
    simp only [rounds, hn, Nat.add_sub_cancel]
  have hcompletes : (n = 0 ∨ address + 0 + n < 0x1FFFF) ↔ Completes address (n + 1) := by
    unfold Completes
    omega
  have hwritten : written.Quiet := quiet_autoIncrement S hstarted _
  rw [hrounds, decide_eq_decide.2 hcompletes, Traced.loads_load] at hloop
  simp only [spiMasterTxRxFastWrite, if_neg h, hn, Nat.add_sub_cancel, ← hread, Traced.load_fst,
    hcommand, hbyte, hfirst, Option.bind_eq_bind, Option.bind_some]
  change Option.bind (fastWriteLoop S address n 0 (bytes.load 0).2 _) _ = _
  rw [hloop, Option.bind_some]
  by_cases hend : Completes address (n + 1)
  · rw [decide_eq_true hend, if_pos rfl, if_pos hend]
    exact congrArg (Option.bind · _) (Bus.sendByte_eq S (hwritten.select S) wrdi)
  · rw [decide_eq_false hend, if_neg Bool.false_ne_true, if_neg hend]
    rfl

end Spi

end Quadrupel
