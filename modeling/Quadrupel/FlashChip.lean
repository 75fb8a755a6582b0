import Quadrupel.SpiTransfer

/-!
# The flash chip

The flash functions of `spi_flash.c`, and the chip at the other end of the bus. The chip
collects the bytes of a command while it is selected and executes it when it is
deselected. After `WREN`, an `AAI` with an address and a byte programs the cell at the
address and starts auto-increment, in which each further `AAI` with a byte programs the
next cell; `WRDI` ends it and disables writing. Programming clears bits and sets none;
`CHIP_ERASE` sets them all. There is no cell behind the last one to program.

The chip keeps a log of what it did to its cells. `device_flashWriteBytes` says what the
chip has gone through after a call of `flash_write_bytes`.
-/

namespace Quadrupel

/-- `WREN`. -/
def wren : UInt8 :=
  0x06

/-- `CHIP_ERASE`. -/
def chipErase : UInt8 :=
  0x60

namespace Spi

variable {σ : Type*} (S : Slave UInt8 σ)

/-- `SPI_MODULE` sends the bytes, as the flash functions do that have no answer. -/
def sendBytes (bytes : List UInt8) (bus : Bus UInt8 σ) : Option (Bool × Bus UInt8 σ) := do
  let (retval, _, bus) ← spiMasterTx S bytes.length.toUInt16 (.ofList bytes) bus
  return (retval, bus)

/-- `flash_write_enable`. -/
def flashWriteEnable (bus : Bus UInt8 σ) : Option (Bool × Bus UInt8 σ) :=
  sendBytes S [wren] bus

/-- `flash_chip_erase`. -/
def flashChipErase (bus : Bus UInt8 σ) : Option (Bool × Bus UInt8 σ) := do
  let (enabled, bus) ← flashWriteEnable S bus
  if enabled then sendBytes S [chipErase] bus
  else return (false, bus)

/-- The command of `flash_write_bytes`. -/
def writeCommand (address : UInt32) : List UInt8 :=
  [aai, ((address &&& 0xFFFFFF) >>> 16).toUInt8, ((address &&& 0xFFFF) >>> 8).toUInt8,
    (address &&& 0xFF).toUInt8]

/-- `flash_write_bytes`. -/
def flashWriteBytes (address : UInt32) (data : Traced UInt8) (count : UInt32)
    (bus : Bus UInt8 σ) : Option (Bool × Traced UInt8 × Bus UInt8 σ) := do
  let (enabled, bus) ← flashWriteEnable S bus
  if enabled then do
    let (retval, _, data, bus) ←
      spiMasterTxRxFastWrite S count.toUInt16 (.ofList (writeCommand address)) data bus
    return (retval, data, bus)
  else return (false, data, bus)

end Spi

/-! ## The chip -/

/-- The number of cells. -/
def flashSize : ℕ :=
  0x20000

/-- What the chip does to its cells. -/
inductive FlashEvent
  | program (address : ℕ) (old new : UInt8)
  | erase
deriving DecidableEq

/-- The cells, the write-enable latch, the next cell in auto-increment, the bytes of the
command so far, and the log. -/
structure FlashChip where
  cells : ℕ → UInt8
  writeEnabled : Bool
  autoIncrement : Option ℕ
  command : List UInt8
  log : List FlashEvent

namespace FlashChip

/-- A chip that is erased, with nothing done to it. -/
def blank : FlashChip :=
  ⟨fun _ => 0xFF, false, none, [], []⟩

/-- A cell is programmed. -/
def program (address : ℕ) (b : UInt8) (f : FlashChip) : FlashChip :=
  { f with
    cells :=
      if address < flashSize then Function.update f.cells address (f.cells address &&& b)
      else f.cells
    log :=
      if address < flashSize then f.log ++ [.program address (f.cells address) b] else f.log }

/-- All cells are erased. -/
def erase (f : FlashChip) : FlashChip :=
  { f with cells := fun _ => 0xFF, log := f.log ++ [.erase] }

/-- A command is executed. -/
def execute (command : List UInt8) (f : FlashChip) : FlashChip :=
  let f := { f with command := [] }
  match command with
  | [c] =>
    if c = wren then { f with writeEnabled := true }
    else if c = wrdi then { f with writeEnabled := false, autoIncrement := none }
    else if c = chipErase ∧ f.writeEnabled then f.erase
    else f
  | [c, b] =>
    match f.autoIncrement with
    | some next => if c = aai then { f.program next b with autoIncrement := some (next + 1) } else f
    | none => f
  | [c, a2, a1, a0, b] =>
    if c = aai ∧ f.writeEnabled then
      let address := a0.toNat + a1.toNat <<< 8 + a2.toNat <<< 16
      { f.program address b with autoIncrement := some (address + 1) }
    else f
  | _ => f

end FlashChip

/-- The chip on the bus. It does not answer to any of the commands above. -/
def flash : Slave UInt8 FlashChip where
  select f := { f with command := [] }
  exchange b f := (0xFF, { f with command := f.command ++ [b] })
  deselect f := f.execute f.command

/-- The bus to a blank chip, before any transfer. -/
def blankBus : Bus UInt8 FlashChip :=
  ⟨.blank, [], false, 0, []⟩

namespace FlashChip

theorem device_exchangeList (bs : List UInt8) (bus : Bus UInt8 FlashChip) :
    (bus.exchangeList flash bs).device =
      { bus.device with command := bus.device.command ++ bs } := by
  induction bs generalizing bus with
  | nil => simp
  | cons b bs ih => rw [Bus.exchangeList_cons, ih]; simp [Bus.exchangeOne, flash]

/-- In a transaction the chip executes one command. -/
theorem device_transact (bs : List UInt8) (bus : Bus UInt8 FlashChip) :
    (bus.transact flash bs).device = bus.device.execute bs := by
  rw [Bus.transact, Bus.deselect, device_exchangeList]
  rfl

/-- Cells are programmed one after the other. -/
def programAll (address : ℕ) : List UInt8 → FlashChip → FlashChip
  | [], f => f
  | b :: bs, f => programAll (address + 1) bs (f.program address b)

/-- Programming touches the cells and the log. -/
theorem programAll_set (address : ℕ) (bs : List UInt8) (writeEnabled : Bool)
    (autoIncrement : Option ℕ) (command : List UInt8) (f : FlashChip) :
    ({ f with writeEnabled, autoIncrement, command } : FlashChip).programAll address bs =
      { f.programAll address bs with writeEnabled, autoIncrement, command } := by
  induction bs generalizing address f with
  | nil => rfl
  | cons b bs ih => exact ih (address + 1) (f.program address b)

theorem programAll_frame (address : ℕ) (bs : List UInt8) (f : FlashChip) :
    (f.programAll address bs).writeEnabled = f.writeEnabled ∧
      (f.programAll address bs).autoIncrement = f.autoIncrement ∧
      (f.programAll address bs).command = f.command := by
  induction bs generalizing address f with
  | nil => exact ⟨rfl, rfl, rfl⟩
  | cons b bs ih => exact ih (address + 1) (f.program address b)

theorem cells_program (address : ℕ) (b : UInt8) (f : FlashChip) (p : ℕ) :
    (f.program address b).cells p =
      if p = address ∧ p < flashSize then f.cells p &&& b else f.cells p := by
  by_cases hsize : address < flashSize
  · simp only [program, if_pos hsize, Function.update_apply]
    by_cases hp : p = address
    · subst hp
      rw [if_pos rfl, if_pos ⟨rfl, hsize⟩]
    · rw [if_neg hp, if_neg fun h => hp h.1]
  · simp only [program, if_neg hsize]
    rw [if_neg]
    rintro ⟨rfl, h⟩
    exact hsize h

theorem cells_programAll (address : ℕ) (bs : List UInt8) (f : FlashChip) (p : ℕ) :
    (f.programAll address bs).cells p =
      if address ≤ p ∧ p < address + bs.length ∧ p < flashSize then
        f.cells p &&& bs.getD (p - address) 0
      else f.cells p := by
  induction bs generalizing address f with
  | nil => rw [if_neg (by simp; omega)]; rfl
  | cons b bs ih =>
    rw [programAll, ih, cells_program, List.length_cons]
    rcases Nat.lt_trichotomy p address with hlt | rfl | hgt
    · rw [if_neg (by omega), if_neg (by omega), if_neg (by omega)]
    · rw [if_neg (by omega), Nat.sub_self, List.getD_cons_zero]
      exact if_congr (by omega) rfl rfl
    · obtain ⟨k, rfl⟩ := Nat.exists_eq_add_of_lt hgt
      have hk : address + k + 1 - address = k + 1 := by omega
      have hk' : address + k + 1 - (address + 1) = k := by omega
      have hother : ¬(address + k + 1 = address ∧ address + k + 1 < flashSize) := by omega
      rw [if_neg hother, hk, hk', List.getD_cons_succ]
      exact if_congr (by omega) rfl rfl

theorem execute_wren (f : FlashChip) :
    f.execute [wren] = { f with writeEnabled := true, command := [] } :=
  rfl

theorem execute_wrdi (f : FlashChip) :
    f.execute [wrdi] = { f with writeEnabled := false, autoIncrement := none, command := [] } :=
  rfl

theorem execute_aai {f : FlashChip} {next : ℕ} (h : f.autoIncrement = some next) (b : UInt8) :
    f.execute [aai, b] =
      { f.program next b with autoIncrement := some (next + 1), command := [] } := by
  simp only [execute, h, if_true]
  rfl

/-- The bytes of the address. -/
theorem toNat_writeCommand {address : UInt32} (h : address.toNat < flashSize) :
    (address &&& 0xFF).toUInt8.toNat +
      ((address &&& 0xFFFF) >>> 8).toUInt8.toNat <<< 8 +
      ((address &&& 0xFFFFFF) >>> 16).toUInt8.toNat <<< 16 = address.toNat := by
  have hlow : address.toNat &&& 0xFF = address.toNat % 0x100 :=
    Nat.and_two_pow_sub_one_eq_mod address.toNat 8
  have hmiddle : address.toNat &&& 0xFFFF = address.toNat % 0x10000 :=
    Nat.and_two_pow_sub_one_eq_mod address.toNat 16
  have hhigh : address.toNat &&& 0xFFFFFF = address.toNat % 0x1000000 :=
    Nat.and_two_pow_sub_one_eq_mod address.toNat 24
  simp only [UInt32.toNat_toUInt8, UInt32.toNat_shiftRight, UInt32.toNat_and, UInt32.reduceToNat,
    Nat.shiftRight_eq_div_pow, Nat.shiftLeft_eq, Nat.reduceMod, Nat.reducePow, hlow, hmiddle, hhigh]
  unfold flashSize at h
  omega

/-- The command with an address starts auto-increment. -/
theorem execute_writeCommand {f : FlashChip} (henabled : f.writeEnabled = true)
    {address : UInt32} (haddress : address.toNat < flashSize) (b : UInt8) :
    f.execute (Spi.writeCommand address ++ [b]) =
      { f.program address.toNat b with
        autoIncrement := some (address.toNat + 1), command := [] } := by
  have hvalue := toNat_writeCommand haddress
  simp only [execute, Spi.writeCommand, List.cons_append, List.nil_append, henabled, hvalue,
    and_self, if_true, program]

/-- Each further byte programs the next cell. -/
theorem device_autoIncrement (bs : List UInt8) {bus : Bus UInt8 FlashChip} {next : ℕ}
    (h : bus.device.autoIncrement = some next) (hcommand : bus.device.command = []) :
    (Spi.autoIncrement flash bs bus).device =
      { bus.device.programAll next bs with autoIncrement := some (next + bs.length) } := by
  induction bs generalizing next bus with
  | nil =>
    change bus.device = _
    rw [programAll, List.length_nil, Nat.add_zero, ← h]
  | cons b bs ih =>
    have hdevice := (device_transact [aai, b] bus).trans (execute_aai h b)
    have hrest := ih (congrArg FlashChip.autoIncrement hdevice) (congrArg FlashChip.command hdevice)
    have hset := programAll_set (next + 1) bs (bus.device.program next b).writeEnabled
      (some (next + 1)) [] (bus.device.program next b)
    obtain ⟨henabled, -, hcommand'⟩ := programAll_frame (next + 1) bs (bus.device.program next b)
    have hnext : next + 1 + bs.length = next + (b :: bs).length := by
      rw [List.length_cons]
      omega
    have hempty : (bus.device.program next b).command = [] := hcommand
    rw [hdevice] at hrest
    refine hrest.trans ?_
    simp only [hset, programAll, henabled, hcommand', hempty, hnext]

/-! ## The flash functions on the chip -/

variable {bus : Bus UInt8 FlashChip}

/-- A command of one byte. -/
theorem sendBytes_eq (c : UInt8) {bus : Bus UInt8 FlashChip} (hbus : bus.sending = []) :
    Spi.sendBytes flash [c] bus = some (true, (bus.transact flash [c]).withReady) := by
  have hone : ¬[c].length.toUInt16 < 1 := (by decide : ¬(1 : UInt16) < 1)
  rw [Spi.sendBytes, Spi.spiMasterTx_eq flash hone _ hbus]
  rfl

theorem flashChipErase_eq (hbus : bus.sending = []) :
    ∃ bus', Spi.flashChipErase flash bus = some (true, bus') ∧ bus'.sending = [] ∧
      bus'.device = { bus.device.erase with writeEnabled := true, command := [] } := by
  have hidle : (bus.transact flash [wren]).withReady.sending = [] := rfl
  have herase := sendBytes_eq chipErase hidle
  refine ⟨_, ?_, rfl, device_transact [chipErase] (bus.transact flash [wren]).withReady⟩
  rw [Spi.flashChipErase, Spi.flashWriteEnable, sendBytes_eq wren hbus]
  exact herase

/-- A first byte behind the command, and more in auto-increment. -/
theorem device_written {address : UInt32} (haddress : address.toNat < flashSize) (b : UInt8)
    (bs : List UInt8) (henabled : bus.device.writeEnabled = true) :
    (Spi.autoIncrement flash bs
        (bus.transact flash (Spi.writeCommand address ++ [b])).clearReady).device =
      { bus.device.programAll address.toNat (b :: bs) with
        autoIncrement := some (address.toNat + (bs.length + 1)), command := [] } := by
  have hfirst : (bus.transact flash (Spi.writeCommand address ++ [b])).clearReady.device =
      { bus.device.program address.toNat b with
        autoIncrement := some (address.toNat + 1), command := [] } :=
    (device_transact _ bus).trans (execute_writeCommand henabled haddress b)
  have hrest := device_autoIncrement bs (congrArg FlashChip.autoIncrement hfirst)
    (congrArg FlashChip.command hfirst)
  have hset := programAll_set (address.toNat + 1) bs
    (bus.device.program address.toNat b).writeEnabled (some (address.toNat + 1)) []
    (bus.device.program address.toNat b)
  obtain ⟨hframe, -, -⟩ :=
    programAll_frame (address.toNat + 1) bs (bus.device.program address.toNat b)
  have hnext : address.toNat + 1 + bs.length = address.toNat + (bs.length + 1) := by omega
  rw [hfirst] at hrest
  refine hrest.trans ?_
  simp only [hset, programAll, hframe, hnext]

/-- How many bytes `flash_write_bytes` writes when it is to write `n`. -/
def bytesSent (address n : ℕ) : ℕ :=
  Spi.fastWriteRounds address 0 (n - 1) + 1

/-- A call writes the first bytes of the data. It disables writing just if it gets to the
end of its loop, and else auto-increment goes on. -/
theorem device_flashWriteBytes {address count : UInt32} (haddress : address.toNat < flashSize)
    (hcount : ¬count.toUInt16 < 1) (data : Traced UInt8) (hbus : bus.sending = []) :
    let n := bytesSent address.toNat count.toUInt16.toNat
    let completes := Spi.Completes address.toNat count.toUInt16.toNat
    ∃ bus', Spi.flashWriteBytes flash address data count bus =
        some (decide completes, data.loads 0 n, bus') ∧
      bus'.sending = [] ∧
      bus'.device =
        { bus.device.programAll address.toNat (data.slice 0 n) with
          writeEnabled := !decide completes
          autoIncrement := if completes then none else some (address.toNat + n)
          command := [] } := by
  intro n completes
  have hidle : (bus.transact flash [wren]).withReady.sending = [] := rfl
  have hstarted : (bus.transact flash [wren]).withReady.device =
      { bus.device with writeEnabled := true, command := [] } :=
    (device_transact [wren] bus).trans (execute_wren bus.device)
  have hwrite := Spi.spiMasterTxRxFastWrite_eq flash hcount
    (.ofList (Spi.writeCommand address)) data hidle
  have haddress' : Spi.commandAddress (.ofList (Spi.writeCommand address)) = address.toNat :=
    toNat_writeCommand haddress
  have hslice : (Traced.ofList (Spi.writeCommand address)).slice 0 4 = Spi.writeCommand address :=
    rfl
  have henabled := congrArg FlashChip.writeEnabled hstarted
  have hwritten := device_written haddress (data.cells 0)
    (data.slice 1 (Spi.fastWriteRounds address.toNat 0 (count.toUInt16.toNat - 1))) henabled
  rw [Traced.length_slice, ← Traced.slice_succ, hstarted, programAll_set] at hwritten
  simp only [haddress', hslice] at hwrite
  have hquiet := Spi.quiet_autoIncrement flash
    (Bus.quiet_transact flash hidle (Spi.writeCommand address ++ [data.cells 0]))
    (data.slice 1 (Spi.fastWriteRounds address.toNat 0 (count.toUInt16.toNat - 1)))
  set written := Spi.autoIncrement flash (data.slice 1 _) _
  refine ⟨if completes then written.transact flash [wrdi] else written, ?_, ?_, ?_⟩
  · rw [Spi.flashWriteBytes, Spi.flashWriteEnable, sendBytes_eq wren hbus]
    exact congrArg (Option.bind · _) hwrite
  · by_cases hend : completes
    · rw [if_pos hend]
      exact (hquiet.transact flash [wrdi]).sending
    · rw [if_neg hend]
      exact hquiet.sending
  · by_cases hend : completes
    · rw [if_pos hend, device_transact, hwritten, execute_wrdi, if_pos hend, decide_eq_true hend]
      rfl
    · rw [if_neg hend, hwritten, if_neg hend, decide_eq_false hend]
      rfl

end FlashChip

end Quadrupel
