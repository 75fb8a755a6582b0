import Quadrupel.SpiTransfer

/-!
# The buffers of the SPI transfers

What the five routines read and write, and what they put on the bus. Four of them read
and write just the cells that they are given. `spi_master_tx_rx` fetches each byte
before it tests whether it still has one to send, and reads one cell behind its buffer
for every size (`staysInside_iff`).
-/

namespace Quadrupel

namespace Spi

/-- The transfer routines. -/
inductive Routine
  | txRx
  | tx
  | rx
  | fastRead
  | fastWrite
deriving DecidableEq

namespace Routine

variable {σ : Type*} (S : Slave UInt8 σ)

/-- A call. The second buffer is `rx_data`, or `bytes` for the fast write; `spi_master_rx`
does not have the first and `spi_master_tx` not the second. -/
def call (r : Routine) (transferSize : UInt16) (txData data : Traced UInt8) (bus : Bus UInt8 σ) :
    Option (Bool × Traced UInt8 × Traced UInt8 × Bus UInt8 σ) :=
  match r with
  | txRx => spiMasterTxRx S transferSize txData data bus
  | tx => do
    let (retval, txData, bus) ← spiMasterTx S transferSize txData bus
    return (retval, txData, data, bus)
  | rx => do
    let (retval, data, bus) ← spiMasterRx S transferSize data bus
    return (retval, txData, data, bus)
  | fastRead => spiMasterTxRxFastRead S transferSize txData data bus
  | fastWrite => spiMasterTxRxFastWrite S transferSize txData data bus

/-- How many cells the first buffer has. -/
def txLength (r : Routine) (n : ℕ) : ℕ :=
  match r with
  | txRx | tx => n
  | rx => 0
  | fastRead | fastWrite => 4

/-- The second buffer receives. -/
def receives : Routine → Bool
  | txRx | rx | fastRead => true
  | tx | fastWrite => false

/-- The bytes that go out : a command in front of the payload for the fast routines, and
`AAI` and `WRDI` between and behind it for the fast write. -/
def clocks (r : Routine) (n : ℕ) (txData data : Traced UInt8) : List UInt8 :=
  match r with
  | txRx | tx => txData.slice 0 n
  | rx => List.replicate n 0
  | fastRead => txData.slice 0 4 ++ List.replicate n 0
  | fastWrite =>
    txData.slice 0 4 ++ data.cells 0 :: (data.slice 1 (n - 1)).flatMap (fun b => [aai, b]) ++ [wrdi]

/-- How many of them come before the payload. -/
def commandLength : Routine → ℕ
  | txRx | tx | rx => 0
  | fastRead | fastWrite => 4

/-- A call that reads no cell behind a buffer, writes each cell of the receive buffer
once and in order, with what came in for the payload, and sends just what it is to send. -/
structure Contained (r : Routine) (n : ℕ) (txData data : Traced UInt8) (bus : Bus UInt8 σ)
    (txData' data' : Traced UInt8) (bus' : Bus UInt8 σ) : Prop where
  tx_reads : ∀ a ∈ txData'.accesses, ∃ i < r.txLength n, a = .read i
  data_reads : ∀ i, .read i ∈ data'.accesses → i < n
  data_writes : data'.accesses.filter Access.isWrite =
    if r.receives then (List.range n).map .write else []
  received : r.receives = true →
    data'.slice 0 n = ((bus.select S).received S (r.clocks n txData data)).drop r.commandLength
  clocked : bus'.clocked = bus.clocked ++ r.clocks n txData data

/-- A call on buffers that were not accessed before returns, and is contained. -/
def StaysInside (r : Routine) (transferSize : UInt16) (txData data : ℕ → UInt8)
    (bus : Bus UInt8 σ) : Prop :=
  ∃ txData' data' bus',
    r.call S transferSize ⟨txData, []⟩ ⟨data, []⟩ bus = some (true, txData', data', bus') ∧
      r.Contained S transferSize.toNat ⟨txData, []⟩ ⟨data, []⟩ bus txData' data' bus'

variable {transferSize : UInt16} {bus : Bus UInt8 σ}

theorem reads_loads {a : Access} {cells : ℕ → UInt8} {n : ℕ}
    (h : a ∈ ((⟨cells, []⟩ : Traced UInt8).loads 0 n).accesses) : ∃ i < n, a = .read i := by
  simpa [List.mem_range'_1, eq_comm] using h

theorem filter_writes (n : ℕ) :
    ((List.range' 0 n).map Access.write).filter Access.isWrite = (List.range n).map .write := by
  simp [List.filter_map, Function.comp_def, Access.isWrite, List.range_eq_range']

theorem filter_reads (i n : ℕ) :
    ((List.range' i n).map Access.read).filter Access.isWrite = [] := by
  simp [List.filter_map, Function.comp_def, Access.isWrite]

/-- What came in for the payload is in the receive buffer, and it was written in order. -/
theorem contained_of_stores {r : Routine} (hr : r.receives = true) {n : ℕ}
    {txData data txData' : Traced UInt8} {bus' : Bus UInt8 σ} {answers : List UInt8}
    (hdata : data.accesses = []) (hlength : answers.length = n)
    (htx : ∀ a ∈ txData'.accesses, ∃ i < r.txLength n, a = .read i)
    (hanswers : answers = ((bus.select S).received S (r.clocks n txData data)).drop r.commandLength)
    (hclocked : bus'.clocked = bus.clocked ++ r.clocks n txData data) :
    r.Contained S n txData data bus txData' (data.stores 0 answers) bus' := by
  have haccesses : (data.stores 0 answers).accesses = (List.range' 0 n).map .write := by
    rw [Traced.accesses_stores, hdata, hlength, List.nil_append]
  refine ⟨htx, fun i hi => ?_, ?_, fun _ => ?_, hclocked⟩
  · rw [haccesses] at hi
    simp at hi
  · rw [haccesses, filter_writes, if_pos hr]
  · rw [← hanswers, ← hlength, Traced.slice_stores]

theorem staysInside_tx (h : ¬transferSize < 1) (hbus : bus.sending = []) (txData data : ℕ → UInt8) :
    tx.StaysInside S transferSize txData data bus := by
  have hcall := spiMasterTx_eq S h ⟨txData, []⟩ hbus
  refine ⟨_, ⟨data, []⟩, _, by rw [call, hcall]; rfl, fun a ha => reads_loads ha, nofun, rfl,
    nofun, ?_⟩
  exact Bus.clocked_transact S _ bus

theorem staysInside_rx (h : ¬transferSize < 1) (hbus : bus.sending = []) (txData data : ℕ → UInt8) :
    rx.StaysInside S transferSize txData data bus := by
  have hcall := spiMasterRx_eq S h ⟨data, []⟩ hbus
  refine ⟨⟨txData, []⟩, _, _, by rw [call, hcall]; rfl, ?_⟩
  exact contained_of_stores S rfl rfl (by simp) nofun rfl (Bus.clocked_transact S _ bus)

theorem staysInside_fastRead (h : ¬transferSize < 1) (hbus : bus.sending = [])
    (txData data : ℕ → UInt8) : fastRead.StaysInside S transferSize txData data bus := by
  have hcall := spiMasterTxRxFastRead_eq S h ⟨txData, []⟩ ⟨data, []⟩ hbus
  refine ⟨_, _, _, hcall, ?_⟩
  refine contained_of_stores S rfl rfl (by simp) (fun a ha => reads_loads ha) ?_
    (Bus.clocked_transact S _ bus)
  rw [clocks, Bus.received_append, List.drop_left']
  exact Bus.length_received S _ _

theorem reads_command {a : Access} {cells : ℕ → UInt8}
    (h : a ∈ (readCommand ⟨cells, []⟩).accesses) : ∃ i < 4, a = .read i := by
  have haccesses : (readCommand ⟨cells, []⟩).accesses =
      [3, 2, 1, 0, 1, 2, 3].map Access.read := rfl
  rw [haccesses] at h
  obtain ⟨i, hi, rfl⟩ := List.mem_map.1 h
  exact ⟨i, (by decide : ∀ i ∈ [3, 2, 1, 0, 1, 2, 3], i < 4) i hi, rfl⟩

theorem staysInside_fastWrite (h : ¬transferSize < 1) (hbus : bus.sending = [])
    (txData data : ℕ → UInt8)
    (haddress : commandAddress ⟨txData, []⟩ + transferSize.toNat < 0x1FFFF) :
    fastWrite.StaysInside S transferSize txData data bus := by
  obtain ⟨n, hn⟩ := exists_toNat_eq h
  have hcall := spiMasterTxRxFastWrite_eq S h ⟨txData, []⟩ ⟨data, []⟩ hbus
  have hends : Completes (commandAddress ⟨txData, []⟩) (n + 1) := Or.inr (by omega)
  have hrounds : fastWriteRounds (commandAddress ⟨txData, []⟩) 0 n = n := if_pos (Or.inr (by omega))
  simp only [hn, Nat.add_sub_cancel, hrounds, if_pos hends, decide_eq_true hends] at hcall
  refine ⟨_, _, _, hcall, fun a ha => reads_command ha, fun i hi => ?_, ?_, nofun, ?_⟩
  · obtain ⟨j, hj, heq⟩ := reads_loads hi
    rw [Access.read.inj heq, hn]
    exact hj
  · exact filter_reads 0 (n + 1)
  · have hfirst := Bus.clocked_transact S ((⟨txData, []⟩ : Traced UInt8).slice 0 4 ++ [data 0]) bus
    rw [Bus.clocked_transact, clocked_autoIncrement, hn]
    change (bus.transact S _).clocked ++ _ ++ _ = _
    rw [hfirst]
    simp [clocks]

/-- The routine reads the cell behind the first buffer. -/
theorem not_staysInside_txRx (h : ¬transferSize < 1) (hbus : bus.sending = [])
    (txData data : ℕ → UInt8) : ¬txRx.StaysInside S transferSize txData data bus := by
  rintro ⟨txData', data', bus', hcall, hcontained⟩
  have heq := spiMasterTxRx_eq S h ⟨txData, []⟩ ⟨data, []⟩ hbus
  have htx : txData' = (⟨txData, []⟩ : Traced UInt8).loads 0 (transferSize.toNat + 1) :=
    (congrArg (·.2.1) (Option.some.inj (hcall.symm.trans heq)))
  have hmem : Access.read transferSize.toNat ∈ txData'.accesses := by
    rw [htx, Traced.accesses_loads]
    simp
  obtain ⟨i, hi, hread⟩ := hcontained.tx_reads _ hmem
  exact hi.ne (Access.read.inj hread).symm

/-- Every routine but `spi_master_tx_rx` stays inside its buffers, for every size, with
every slave; the fast write with an address at which it does not reach the last cell. -/
theorem staysInside_iff (r : Routine) (transferSize : UInt16) (h : 1 ≤ transferSize)
    (txData data : ℕ → UInt8) (bus : Bus UInt8 σ) (hbus : bus.sending = [])
    (haddress : r = fastWrite → commandAddress ⟨txData, []⟩ + transferSize.toNat < 0x1FFFF) :
    r.StaysInside S transferSize txData data bus ↔ r ≠ txRx := by
  have hsize : ¬transferSize < 1 := UInt16.not_lt.2 h
  cases r with
  | txRx => exact iff_of_false (not_staysInside_txRx S hsize hbus txData data) (· rfl)
  | tx => exact iff_of_true (staysInside_tx S hsize hbus txData data) nofun
  | rx => exact iff_of_true (staysInside_rx S hsize hbus txData data) nofun
  | fastRead => exact iff_of_true (staysInside_fastRead S hsize hbus txData data) nofun
  | fastWrite =>
    exact iff_of_true (staysInside_fastWrite S hsize hbus txData data (haddress rfl)) nofun

/-- A slave that sends back what it gets. -/
def echo : Slave UInt8 Unit where
  select := id
  exchange b d := (b, d)
  deselect := id

/-- The bus before any transfer. -/
def idle : Bus UInt8 Unit :=
  ⟨(), [], false, 0, []⟩

theorem staysInside_iff_tx : tx.StaysInside echo 2 (fun _ => 7) (fun _ => 0) idle :=
  (staysInside_iff echo tx 2 (by decide) (fun _ => 7) (fun _ => 0) idle rfl nofun).2 nofun

/-- All routines stay inside their buffers. -/
def AllStayInside : Prop :=
  ∀ (σ : Type) (S : Slave UInt8 σ) (r : Routine) (transferSize : UInt16), 1 ≤ transferSize →
    ∀ (txData data : ℕ → UInt8) (bus : Bus UInt8 σ), bus.sending = [] →
      (r = fastWrite → commandAddress ⟨txData, []⟩ + transferSize.toNat < 0x1FFFF) →
        r.StaysInside S transferSize txData data bus

/-- To send one byte `spi_master_tx_rx` reads two. -/
theorem not_allStayInside : ¬AllStayInside := by
  intro h
  have hinside := h Unit echo txRx 1 (by decide) (fun _ => 7) (fun _ => 0) idle rfl nofun
  exact not_staysInside_txRx echo (by decide) rfl _ _ hinside

end Routine

end Spi

end Quadrupel
