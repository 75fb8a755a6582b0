import Quadrupel.FlashWrite

/-!
# The flash chip with its read-out

The remaining flash functions of `spi_flash.c`, and the chip as they see it. After power-up
its status register protects the cells : until `EWSR` and a `WRSR` of 0, which
`spi_flash_init` sends, the chip neither programs nor erases. `BYTEWRITE` programs a single
cell. While a `BYTEREAD` with an address is going on, the chip answers each further byte with
the next cell, and goes on with the first one behind the last.

A chip that is not protected takes the commands of `FlashChip` as that does (`SameChip`), so
what is known about `flash_write_bytes` there holds here (`flashWriteBytes_eq`).
-/

namespace Quadrupel

/-- `WRSR`. -/
def wrsr : UInt8 :=
  0x01

/-- `BYTEWRITE`. -/
def byteWrite : UInt8 :=
  0x02

/-- `BYTEREAD`. -/
def byteRead : UInt8 :=
  0x03

/-- `EWSR`. -/
def ewsr : UInt8 :=
  0x50

namespace Spi

variable {σ : Type*} (S : Slave UInt8 σ)

/-- A command with an address, as the flash functions build it. -/
def addressCommand (c : UInt8) (address : UInt32) : List UInt8 :=
  [c, ((address &&& 0xFFFFFF) >>> 16).toUInt8, ((address &&& 0xFFFF) >>> 8).toUInt8,
    (address &&& 0xFF).toUInt8]

/-- `flash_enable_WSR`. -/
def flashEnableWsr (bus : Bus UInt8 σ) : Option (Bool × Bus UInt8 σ) :=
  sendBytes S [ewsr] bus

/-- `flash_set_WRSR`. -/
def flashSetWrsr (bus : Bus UInt8 σ) : Option (Bool × Bus UInt8 σ) :=
  sendBytes S [wrsr, 0x00] bus

/-- `flash_write_byte`. -/
def flashWriteByte (address : UInt32) (data : UInt8) (bus : Bus UInt8 σ) :
    Option (Bool × Bus UInt8 σ) := do
  let (enabled, bus) ← flashWriteEnable S bus
  if enabled then sendBytes S (addressCommand byteWrite address ++ [data]) bus
  else return (false, bus)

/-- `flash_read_byte`, with the byte that it stores. -/
def flashReadByte (address : UInt32) (rxData : Traced UInt8) (bus : Bus UInt8 σ) :
    Option (Bool × UInt8 × Bus UInt8 σ) := do
  let (result, _, rxData, bus) ←
    spiMasterTxRx S 5 (.ofList (addressCommand byteRead address ++ [0x00])) rxData bus
  return (result, rxData.cells 4, bus)

/-- `flash_read_bytes`. -/
def flashReadBytes (address : UInt32) (buffer : Traced UInt8) (count : UInt32)
    (bus : Bus UInt8 σ) : Option (Bool × Traced UInt8 × Bus UInt8 σ) := do
  let (result, _, buffer, bus) ←
    spiMasterTxRxFastRead S count.toUInt16 (.ofList (addressCommand byteRead address)) buffer bus
  return (result, buffer, bus)

/-- `spi_flash_init`, behind the setup of the pins. -/
def spiFlashInit (bus : Bus UInt8 σ) : Option (Bool × Bus UInt8 σ) := do
  let (result, bus) ← flashEnableWsr S bus
  if !result then return (false, bus)
  let (result, bus) ← flashSetWrsr S bus
  if !result then return (false, bus)
  let (result, bus) ← flashChipErase S bus
  if !result then return (false, bus)
  let (result, bus) ← flashWriteEnable S bus
  if !result then return (false, bus)
  return (true, bus)

end Spi

/-! ## The chip -/

/-- The chip, the status register, and whether the next `WRSR` is taken. -/
structure SerialFlash where
  chip : FlashChip
  status : UInt8
  statusEnabled : Bool

namespace SerialFlash

/-- The cell at the three bytes of an address. -/
def cellAddress (a2 a1 a0 : UInt8) : ℕ :=
  a0.toNat + a1.toNat <<< 8 + a2.toNat <<< 16

/-- The byte that goes out behind the bytes of the command so far. -/
def answer (f : SerialFlash) : UInt8 :=
  match f.chip.command with
  | c :: a2 :: a1 :: a0 :: rest =>
    if c = byteRead ∧ f.chip.autoIncrement = none then
      f.chip.cells ((cellAddress a2 a1 a0 + rest.length) % flashSize)
    else 0xFF
  | _ => 0xFF

/-- A command that is as in `FlashChip`, unless the cells are protected. -/
def executeChip (command : List UInt8) (f : SerialFlash) : SerialFlash :=
  if f.status = 0 ∨ command = [wren] ∨ command = [wrdi] then
    { f with chip := f.chip.execute command }
  else f

/-- A command is executed. -/
def execute (command : List UInt8) (f : SerialFlash) : SerialFlash :=
  let f : SerialFlash := { f with chip := { f.chip with command := [] } }
  match command with
  | [c] => if c = ewsr then { f with statusEnabled := true } else f.executeChip command
  | [c, b] =>
    if c = wrsr ∧ f.statusEnabled then { f with status := b, statusEnabled := false }
    else f.executeChip command
  | [c, a2, a1, a0, b] =>
    if c = byteWrite ∧ f.chip.writeEnabled ∧ f.status = 0 then
      { f with chip := f.chip.program (cellAddress a2 a1 a0) b }
    else f.executeChip command
  | _ => f.executeChip command

end SerialFlash

/-- The chip on the bus. -/
def serialFlash : Slave UInt8 SerialFlash where
  select f := { f with chip := flash.select f.chip }
  exchange b f := (f.answer, { f with chip := (flash.exchange b f.chip).2 })
  deselect f := f.execute f.chip.command

namespace SerialFlash

theorem device_exchangeList (bs : List UInt8) (bus : Bus UInt8 SerialFlash) :
    (bus.exchangeList serialFlash bs).device =
      { bus.device with
        chip := { bus.device.chip with command := bus.device.chip.command ++ bs } } := by
  induction bs generalizing bus with
  | nil => simp
  | cons b bs ih => rw [Bus.exchangeList_cons, ih]; simp [Bus.exchangeOne, serialFlash, flash]

/-- In a transaction the chip executes one command. -/
theorem device_transact (bs : List UInt8) (bus : Bus UInt8 SerialFlash) :
    (bus.transact serialFlash bs).device =
      bus.device.execute bs := by
  rw [Bus.transact, Bus.deselect, device_exchangeList]
  rfl

/-- A command that is as in `FlashChip`. -/
def Plain (command : List UInt8) : Prop :=
  ∀ c ∈ command.head?, c ≠ ewsr ∧ c ≠ wrsr ∧ c ≠ byteWrite

theorem plain_cons {c : UInt8} (h : c ≠ ewsr ∧ c ≠ wrsr ∧ c ≠ byteWrite) (bs : List UInt8) :
    Plain (c :: bs) := by
  rintro _ ⟨⟩
  exact h

theorem execute_plain {bs : List UInt8} (h : Plain bs) {f : SerialFlash} (hstatus : f.status = 0) :
    f.execute bs = { f with chip := f.chip.execute bs } := by
  have hchip : ({ f with chip := { f.chip with command := [] } } : SerialFlash).executeChip bs =
      { f with chip := f.chip.execute bs } := if_pos (Or.inl hstatus)
  rw [← hchip]
  rcases bs with _ | ⟨c, bs⟩
  · rfl
  · obtain ⟨hewsr, hwrsr, hbyte⟩ := h c rfl
    rcases bs with _ | ⟨_, _ | ⟨_, _ | ⟨_, _ | ⟨_, _ | ⟨_, _⟩⟩⟩⟩⟩
    all_goals simp only [execute, hewsr, hwrsr, hbyte, false_and, if_false]

/-- What a plain transaction leaves on the chip. -/
theorem device_transact_plain {bs : List UInt8} (h : Plain bs) {bus : Bus UInt8 SerialFlash}
    (hstatus : bus.device.status = 0) :
    (bus.transact serialFlash bs).device =
      { bus.device with chip := bus.device.chip.execute bs } := by
  rw [device_transact, execute_plain h hstatus]

/-! ## The chip that is not protected -/

/-- The chip of the first bus is not protected, and is that of the second one. -/
structure SameChip (bus : Bus UInt8 SerialFlash) (bus' : Bus UInt8 FlashChip) : Prop where
  status : bus.device.status = 0
  chip : bus'.device = bus.device.chip

theorem SameChip.transact {bus : Bus UInt8 SerialFlash} {bus' : Bus UInt8 FlashChip}
    (h : SameChip bus bus') {bs : List UInt8} (hbs : Plain bs) :
    SameChip (bus.transact serialFlash bs) (bus'.transact flash bs) := by
  have hdevice := device_transact_plain hbs h.status
  have hchip := FlashChip.device_transact bs bus'
  exact ⟨hdevice ▸ h.status, by rw [hchip, hdevice, h.chip]⟩

theorem SameChip.autoIncrement {bus : Bus UInt8 SerialFlash} {bus' : Bus UInt8 FlashChip}
    (h : SameChip bus bus') (bs : List UInt8) :
    SameChip (Spi.autoIncrement serialFlash bs bus) (Spi.autoIncrement flash bs bus') := by
  induction bs generalizing bus bus' with
  | nil => exact h
  | cons b bs ih => exact ih (h.transact (plain_cons (by decide) [b]))

/-- The event and the data register do not matter. -/
theorem SameChip.of_device {bus written : Bus UInt8 SerialFlash}
    {bus' written' : Bus UInt8 FlashChip} (h : SameChip bus bus')
    (hdevice : written.device = bus.device) (hdevice' : written'.device = bus'.device) :
    SameChip written written' :=
  ⟨hdevice ▸ h.status, by rw [hdevice, hdevice', h.chip]⟩

/-- The fast write does the same to both. -/
theorem SameChip.fastWrite {bus : Bus UInt8 SerialFlash} {bus' : Bus UInt8 FlashChip}
    (h : SameChip bus bus') (hbus : bus.sending = []) (hbus' : bus'.sending = [])
    {count : UInt16} (hcount : ¬count < 1) (address : UInt32) (data : Traced UInt8) :
    ∃ result txData data' written written',
      Spi.spiMasterTxRxFastWrite serialFlash count (.ofList (Spi.writeCommand address)) data bus =
        some (result, txData, data', written) ∧
      Spi.spiMasterTxRxFastWrite flash count (.ofList (Spi.writeCommand address)) data bus' =
        some (result, txData, data', written') ∧
      SameChip written written' ∧ written.sending = [] := by
  have hwrite := Spi.spiMasterTxRxFastWrite_eq serialFlash hcount
    (.ofList (Spi.writeCommand address)) data hbus
  have hwrite' := Spi.spiMasterTxRxFastWrite_eq flash hcount
    (.ofList (Spi.writeCommand address)) data hbus'
  have hslice : (Traced.ofList (Spi.writeCommand address)).slice 0 4 = Spi.writeCommand address :=
    rfl
  have hfirst : Plain (Spi.writeCommand address ++ [data.cells 0]) := plain_cons (by decide) _
  have hstarted :
      SameChip (bus.transact serialFlash (Spi.writeCommand address ++ [data.cells 0])).clearReady
        (bus'.transact flash (Spi.writeCommand address ++ [data.cells 0])).clearReady :=
    (h.transact hfirst).of_device rfl rfl
  simp only [hslice] at hwrite hwrite'
  refine ⟨_, _, _, _, _, hwrite, hwrite', ?_⟩
  generalize Spi.fastWriteRounds _ _ _ = rounds
  have hall := hstarted.autoIncrement (data.slice 1 rounds)
  have hquiet := Spi.quiet_autoIncrement serialFlash
    (Bus.quiet_transact serialFlash hbus (Spi.writeCommand address ++ [data.cells 0]))
    (data.slice 1 rounds)
  split_ifs
  · exact ⟨hall.transact (plain_cons (by decide) []), (hquiet.transact serialFlash [wrdi]).sending⟩
  · exact ⟨hall, hquiet.sending⟩

/-! ## Commands without an answer -/

theorem slice_ofList (bs : List UInt8) : (Traced.ofList bs).slice 0 bs.length = bs := by
  apply List.ext_getElem
  · simp
  · intro i hi hi'
    simp [Traced.slice, Traced.ofList, hi']

theorem sendBytes_eq {σ : Type*} (S : Slave UInt8 σ) {bs : List UInt8} (hpos : bs ≠ [])
    (hlt : bs.length < 2 ^ 16) {bus : Bus UInt8 σ} (hbus : bus.sending = []) :
    Spi.sendBytes S bs bus = some (true, (bus.transact S bs).withReady) := by
  have hlength : bs.length.toUInt16.toNat = bs.length :=
    (UInt16.toNat_ofNat' (n := bs.length)).trans (Nat.mod_eq_of_lt hlt)
  have hone : ¬bs.length.toUInt16 < 1 := by
    rw [UInt16.lt_iff_toNat_lt, hlength]
    exact Nat.not_lt.2 (List.length_pos_iff.2 hpos)
  rw [Spi.sendBytes, Spi.spiMasterTx_eq S hone _ hbus, hlength, slice_ofList]
  rfl

/-! ## Reading -/

/-- The bytes that the chip answers behind the command. -/
theorem received_read (n k : ℕ) {address : UInt32} (haddress : address.toNat < flashSize)
    {bus : Bus UInt8 SerialFlash} (hclosed : bus.device.chip.autoIncrement = none)
    (hcommand : bus.device.chip.command =
      Spi.addressCommand byteRead address ++ List.replicate k 0) :
    bus.received serialFlash (List.replicate n 0) =
      (List.range' k n).map fun i => bus.device.chip.cells ((address.toNat + i) % flashSize) := by
  induction n generalizing k bus with
  | zero => rfl
  | succ n ih =>
    have hvalue := FlashChip.toNat_writeCommand haddress
    have hfirst : bus.device.answer = bus.device.chip.cells ((address.toNat + k) % flashSize) := by
      simp only [answer, hcommand, Spi.addressCommand, List.cons_append, List.nil_append, hclosed,
        and_self, if_true, cellAddress, hvalue, List.length_replicate]
    have hnext : (bus.exchangeOne serialFlash 0).device.chip.command =
        Spi.addressCommand byteRead address ++ List.replicate (k + 1) 0 := by
      change bus.device.chip.command ++ [0] = _
      rw [hcommand, List.replicate_succ', List.append_assoc]
    have hclosed' : (bus.exchangeOne serialFlash 0).device.chip.autoIncrement = none := hclosed
    rw [List.replicate_succ, Bus.received, ih (k + 1) hclosed' hnext, List.range'_succ,
      List.map_cons]
    exact congrArg (· :: _) hfirst

/-! ## The flash functions on the chip -/

/-- Between two calls : nothing is being sent, the cells are not protected, and no
auto-increment is going on. -/
structure Open (bus : Bus UInt8 SerialFlash) : Prop where
  sending : bus.sending = []
  status : bus.device.status = 0
  closed : bus.device.chip.autoIncrement = none

variable {bus : Bus UInt8 SerialFlash}

/-- The chip behind an open bus, on a bus of its own. -/
theorem Open.sameChip (h : Open bus) : SameChip bus ⟨bus.device.chip, [], false, 0, []⟩ :=
  ⟨h.status, rfl⟩

/-- A plain command of one byte. -/
theorem sendBytes_one {c : UInt8} (hc : c ≠ ewsr ∧ c ≠ wrsr ∧ c ≠ byteWrite)
    (hsending : bus.sending = []) (hstatus : bus.device.status = 0) :
    ∃ bus', Spi.sendBytes serialFlash [c] bus = some (true, bus') ∧ bus'.sending = [] ∧
      bus'.device = { bus.device with chip := bus.device.chip.execute [c] } :=
  ⟨_, sendBytes_eq serialFlash (by simp) (by simp) hsending, rfl,
    device_transact_plain (plain_cons hc []) hstatus⟩

/-- `flash_chip_erase` sets all cells. -/
theorem flashChipErase_open (hsending : bus.sending = []) (hstatus : bus.device.status = 0)
    (hclosed : bus.device.chip.autoIncrement = none) :
    ∃ bus', Spi.flashChipErase serialFlash bus = some (true, bus') ∧ Open bus' ∧
      bus'.device.chip.cells = fun _ => 0xFF := by
  obtain ⟨bus₁, hwren, hsending₁, hdevice₁⟩ :=
    sendBytes_one (by decide : wren ≠ ewsr ∧ wren ≠ wrsr ∧ wren ≠ byteWrite) hsending hstatus
  have hstatus₁ : bus₁.device.status = 0 := hdevice₁ ▸ hstatus
  obtain ⟨bus₂, herase, hsending₂, hdevice₂⟩ := sendBytes_one
    (by decide : chipErase ≠ ewsr ∧ chipErase ≠ wrsr ∧ chipErase ≠ byteWrite) hsending₁ hstatus₁
  have hchip : bus₂.device.chip =
      { bus.device.chip.erase with writeEnabled := true, command := [] } := by
    rw [hdevice₂, hdevice₁]
    rfl
  refine ⟨bus₂, ?_, ⟨hsending₂, hdevice₂ ▸ hstatus₁, hchip ▸ hclosed⟩, hchip ▸ rfl⟩
  rw [Spi.flashChipErase, Spi.flashWriteEnable, hwren]
  exact herase

/-- `spi_flash_init` lifts the protection and sets all cells. -/
theorem spiFlashInit_eq (hsending : bus.sending = [])
    (hclosed : bus.device.chip.autoIncrement = none) :
    ∃ bus', Spi.spiFlashInit serialFlash bus = some (true, bus') ∧ Open bus' ∧
      bus'.device.chip.cells = fun _ => 0xFF := by
  have hewsr := sendBytes_eq serialFlash (by simp : [ewsr] ≠ []) (by simp) hsending
  have hwrsr := sendBytes_eq serialFlash (by simp : [wrsr, 0x00] ≠ []) (by simp)
    (rfl : (bus.transact serialFlash [ewsr]).withReady.sending = [])
  have hdevice₁ : (bus.transact serialFlash [ewsr]).withReady.device =
      bus.device.execute [ewsr] := device_transact [ewsr] bus
  have hdevice := device_transact [wrsr, 0x00] (bus.transact serialFlash [ewsr]).withReady
  rw [hdevice₁] at hdevice
  set bus₂ := (bus.transact serialFlash [ewsr]).withReady.transact serialFlash [wrsr, 0x00]
  obtain ⟨bus₃, herase, hopen₃, hcells₃⟩ := flashChipErase_open
    (rfl : bus₂.withReady.sending = []) (congrArg status hdevice)
    ((congrArg (fun f => f.chip.autoIncrement) hdevice).trans hclosed)
  obtain ⟨bus₄, hwren, hsending₄, hdevice₄⟩ :=
    sendBytes_one (by decide : wren ≠ ewsr ∧ wren ≠ wrsr ∧ wren ≠ byteWrite) hopen₃.sending
      hopen₃.status
  refine ⟨bus₄, ?_, ⟨hsending₄, hdevice₄ ▸ hopen₃.status, hdevice₄ ▸ hopen₃.closed⟩,
    hdevice₄ ▸ hcells₃⟩
  simp only [Spi.spiFlashInit, Spi.flashEnableWsr, hewsr, Spi.flashSetWrsr, hwrsr, herase,
    Spi.flashWriteEnable, hwren, Option.bind_eq_bind, Option.bind_some, Bool.not_true,
    Bool.false_eq_true, if_false]
  rfl

/-- What the cells hold when bytes are written from `address` on : each one clears bits. -/
def cleared (address : ℕ) (bs : List UInt8) (cells : ℕ → UInt8) (p : ℕ) : UInt8 :=
  if address ≤ p ∧ p < address + bs.length then cells p &&& bs.getD (p - address) 0 else cells p

theorem cells_programAll_eq {address : ℕ} {bs : List UInt8} (h : address + bs.length ≤ flashSize)
    (f : FlashChip) : (f.programAll address bs).cells = cleared address bs f.cells := by
  funext p
  rw [FlashChip.cells_programAll, cleared]
  exact if_congr (by omega) rfl rfl

/-- `flash_write_byte` writes its byte. -/
theorem flashWriteByte_eq (h : Open bus) {address : UInt32} (haddress : address.toNat < flashSize)
    (b : UInt8) :
    ∃ bus', Spi.flashWriteByte serialFlash address b bus = some (true, bus') ∧ Open bus' ∧
      bus'.device.chip.cells = cleared address.toNat [b] bus.device.chip.cells := by
  obtain ⟨bus₁, hwren, hsending₁, hdevice₁⟩ :=
    sendBytes_one (by decide : wren ≠ ewsr ∧ wren ≠ wrsr ∧ wren ≠ byteWrite) h.sending h.status
  have hstatus₁ : bus₁.device.status = 0 := hdevice₁ ▸ h.status
  have henabled₁ : bus₁.device.chip.writeEnabled = true := by
    rw [hdevice₁]
    rfl
  have hwrite := sendBytes_eq serialFlash
    (by simp : Spi.addressCommand byteWrite address ++ [b] ≠ []) (by simp [Spi.addressCommand])
    hsending₁
  have hvalue := FlashChip.toNat_writeCommand haddress
  have hdevice : (bus₁.transact serialFlash
      (Spi.addressCommand byteWrite address ++ [b])).device =
        { bus₁.device with
          chip := { bus₁.device.chip with command := [] }.program address.toNat b } := by
    rw [device_transact]
    simp only [execute, Spi.addressCommand, List.cons_append, List.nil_append, henabled₁, hstatus₁,
      and_self, if_true, cellAddress, hvalue]
  have hroom : address.toNat + [b].length ≤ flashSize := haddress
  refine ⟨(bus₁.transact serialFlash (Spi.addressCommand byteWrite address ++ [b])).withReady, ?_,
    ⟨rfl, (congrArg status hdevice).trans hstatus₁, ?_⟩, ?_⟩
  · rw [Spi.flashWriteByte, Spi.flashWriteEnable, hwren]
    exact hwrite
  · refine (congrArg (fun f => f.chip.autoIncrement) hdevice).trans ?_
    change bus₁.device.chip.autoIncrement = none
    rw [hdevice₁]
    exact h.closed
  · refine (congrArg (fun f => f.chip.cells) hdevice).trans ?_
    refine (cells_programAll_eq hroom _).trans ?_
    rw [hdevice₁]
    rfl

/-- `flash_write_bytes` writes its bytes if it gets to the end of its loop. -/
theorem flashWriteBytes_eq (h : Open bus) {address count : UInt32}
    (haddress : address.toNat < flashSize) (hpos : 1 ≤ count.toNat) (hlt : count.toNat < 2 ^ 16)
    (hcompletes : Spi.Completes address.toNat count.toNat) (data : Traced UInt8) :
    ∃ data' bus', Spi.flashWriteBytes serialFlash address data count bus =
        some (true, data', bus') ∧ Open bus' ∧
      bus'.device.chip.cells =
        cleared address.toNat (data.slice 0 count.toNat) bus.device.chip.cells := by
  have hcount : count.toUInt16.toNat = count.toNat :=
    (UInt32.toNat_toUInt16 count).trans (Nat.mod_eq_of_lt hlt)
  have hone : ¬count.toUInt16 < 1 := by
    rw [UInt16.lt_iff_toNat_lt, hcount]
    exact Nat.not_lt.2 hpos
  have hwren := sendBytes_eq serialFlash (by simp : [wren] ≠ []) (by simp) h.sending
  have hwren' := sendBytes_eq flash (by simp : [wren] ≠ []) (by simp)
    (rfl : (⟨bus.device.chip, [], false, 0, []⟩ : Bus UInt8 FlashChip).sending = [])
  have hsame : SameChip (bus.transact serialFlash [wren]).withReady
      ((⟨bus.device.chip, [], false, 0, []⟩ : Bus UInt8 FlashChip).transact flash
        [wren]).withReady :=
    (h.sameChip.transact (plain_cons (by decide) [] : Plain [wren])).of_device rfl rfl
  obtain ⟨result, _, data', bus', written', hwrite, hwrite', hsame', hsending⟩ :=
    hsame.fastWrite rfl rfl hone address data
  obtain ⟨written, hcall, -, hdevice⟩ := FlashChip.device_flashWriteBytes haddress hone data
    (rfl : (⟨bus.device.chip, [], false, 0, []⟩ : Bus UInt8 FlashChip).sending = [])
  have hall : Spi.flashWriteBytes flash address data count ⟨bus.device.chip, [], false, 0, []⟩ =
      some (result, data', written') := by
    rw [Spi.flashWriteBytes, Spi.flashWriteEnable, hwren']
    exact congrArg (Option.bind · _) hwrite'
  rw [hcount, FlashChip.bytesSent_of_completes hpos hcompletes, decide_eq_true hcompletes] at *
  rw [if_pos hcompletes] at hdevice
  obtain ⟨rfl, rfl, rfl⟩ : result = true ∧ data' = data.loads 0 count.toNat ∧
      written' = written := by
    simpa using hall.symm.trans hcall
  refine ⟨data.loads 0 count.toNat, bus', ?_, ⟨hsending, hsame'.status, ?_⟩, ?_⟩
  · rw [Spi.flashWriteBytes, Spi.flashWriteEnable, hwren]
    exact congrArg (Option.bind · _) hwrite
  · rw [← hsame'.chip, hdevice]
  · have hsize : flashSize = 0x20000 := rfl
    rw [← hsame'.chip, hdevice]
    refine cells_programAll_eq ?_ bus.device.chip
    rw [Traced.length_slice]
    unfold Spi.Completes at hcompletes
    omega

/-- A read leaves the cells alone. -/
theorem execute_read (bs : List UInt8) (f : FlashChip) :
    f.execute (byteRead :: bs) = { f with command := [] } := by
  rcases bs with _ | ⟨_, _ | ⟨_, _ | ⟨_, _ | ⟨_, _ | ⟨_, _⟩⟩⟩⟩⟩
  · rfl
  · cases hauto : f.autoIncrement <;> simp [FlashChip.execute, hauto, byteRead, aai]
  all_goals rfl

theorem Open.read (h : Open bus) (bs : List UInt8) {bus' : Bus UInt8 SerialFlash}
    (hsending : bus'.sending = [])
    (hdevice : bus'.device = (bus.transact serialFlash (byteRead :: bs)).device) :
    Open bus' ∧ bus'.device.chip.cells = bus.device.chip.cells := by
  rw [device_transact_plain (plain_cons (by decide) bs) h.status, execute_read] at hdevice
  exact ⟨⟨hsending, hdevice ▸ h.status, hdevice ▸ h.closed⟩, hdevice ▸ rfl⟩

/-- The chip when it has the command of a read. -/
theorem received_command (n : ℕ) (h : Open bus) {address : UInt32}
    (haddress : address.toNat < flashSize) :
    ((bus.select serialFlash).exchangeList serialFlash
        (Spi.addressCommand byteRead address)).received serialFlash (List.replicate n 0) =
      (List.range n).map fun i => bus.device.chip.cells ((address.toNat + i) % flashSize) := by
  have hdevice := device_exchangeList (Spi.addressCommand byteRead address)
    (bus.select serialFlash)
  set bus' := (bus.select serialFlash).exchangeList serialFlash
    (Spi.addressCommand byteRead address)
  have hclosed : bus'.device.chip.autoIncrement = none := by
    rw [hdevice]
    exact h.closed
  have hcommand : bus'.device.chip.command =
      Spi.addressCommand byteRead address ++ List.replicate 0 0 := by
    rw [hdevice]
    rfl
  have hcells : bus'.device.chip.cells = bus.device.chip.cells := by
    rw [hdevice]
    rfl
  rw [received_read n 0 haddress hclosed hcommand, hcells, List.range_eq_range']

/-- `flash_read_bytes` fills its buffer with the cells from the address on. -/
theorem flashReadBytes_eq (h : Open bus) {address count : UInt32}
    (haddress : address.toNat < flashSize) (hpos : 1 ≤ count.toNat) (hlt : count.toNat < 2 ^ 16)
    (buffer : Traced UInt8) :
    ∃ bus', Spi.flashReadBytes serialFlash address buffer count bus =
        some (true, buffer.stores 0 ((List.range count.toNat).map fun i =>
          bus.device.chip.cells ((address.toNat + i) % flashSize)), bus') ∧
      Open bus' ∧ bus'.device.chip.cells = bus.device.chip.cells := by
  have hcount : count.toUInt16.toNat = count.toNat :=
    (UInt32.toNat_toUInt16 count).trans (Nat.mod_eq_of_lt hlt)
  have hone : ¬count.toUInt16 < 1 := by
    rw [UInt16.lt_iff_toNat_lt, hcount]
    exact Nat.not_lt.2 hpos
  have hslice : (Traced.ofList (Spi.addressCommand byteRead address)).slice 0 4 =
      Spi.addressCommand byteRead address := rfl
  have hread := Spi.spiMasterTxRxFastRead_eq serialFlash hone
    (.ofList (Spi.addressCommand byteRead address)) buffer h.sending
  rw [hslice, hcount, received_command _ h haddress] at hread
  have hquiet := Bus.quiet_transact serialFlash h.sending
    (Spi.addressCommand byteRead address ++ List.replicate count.toNat 0)
  refine ⟨(bus.transact serialFlash
    (Spi.addressCommand byteRead address ++ List.replicate count.toNat 0)).clearReady, ?_,
    h.read _ hquiet.sending rfl⟩
  rw [Spi.flashReadBytes, hread]
  rfl

/-- `flash_read_byte` gets the cell at the address. -/
theorem flashReadByte_eq (h : Open bus) {address : UInt32} (haddress : address.toNat < flashSize)
    (rxData : Traced UInt8) :
    ∃ bus', Spi.flashReadByte serialFlash address rxData bus =
        some (true, bus.device.chip.cells address.toNat, bus') ∧
      Open bus' ∧ bus'.device.chip.cells = bus.device.chip.cells := by
  have hone : ¬(5 : UInt16) < 1 := by decide
  have hslice : (Traced.ofList (Spi.addressCommand byteRead address ++ [0x00])).slice 0
      (5 : UInt16).toNat = Spi.addressCommand byteRead address ++ [0x00] := rfl
  have hread := Spi.spiMasterTxRx_eq serialFlash hone
    (.ofList (Spi.addressCommand byteRead address ++ [0x00])) rxData h.sending
  have hlast := received_command 1 h haddress
  have hvalue : ((bus.select serialFlash).received serialFlash
      (Spi.addressCommand byteRead address ++ [0x00])).getD 4 (rxData.cells 4) =
        bus.device.chip.cells address.toNat := by
    rw [Bus.received_append, List.getD_append_right _ _ _ _ (by simp [Spi.addressCommand])]
    simp only [Bus.length_received]
    change List.getD (Bus.received serialFlash (List.replicate 1 0) _) 0 _ = _
    rw [hlast]
    simp [Nat.mod_eq_of_lt haddress]
  rw [hslice] at hread
  refine ⟨(bus.transact serialFlash (Spi.addressCommand byteRead address ++ [0x00])).withReady, ?_,
    h.read ((Spi.addressCommand byteRead address ++ [0x00]).tail) rfl rfl⟩
  rw [Spi.flashReadByte, hread]
  simp only [Option.bind_eq_bind, Option.bind_some, Traced.cells_stores, Nat.zero_le, if_true,
    Nat.sub_zero, hvalue]
  rfl

end SerialFlash

end Quadrupel
