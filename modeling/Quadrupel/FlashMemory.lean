import Quadrupel.DataLogger
import Quadrupel.SerialFlash

/-!
# The flash as a memory

Seen from its callers the flash is a memory whose cells lose bits when they are written to
and get them all back when it is erased. `flashMemory` says so, without a bus, a chip or a
command, and `performAll_eq` that any calls in range, one after the other, come to an end
and return what it says.

On it stands the log : after any number of calls of `log_data` the records since the last
erase are in the flash, each in its slot, and `flash_read_bytes` returns them
(`read_logged`). An erase comes with every 8192nd record and takes that one with it.
-/

namespace Quadrupel

/-- A call of a flash function, with the buffer that it reads into. -/
inductive FlashCall
  | init
  | erase
  | writeByte (address : UInt32) (data : UInt8)
  | writeBytes (address : UInt32) (data : Traced UInt8) (count : UInt32)
  | readByte (address : UInt32) (rxData : Traced UInt8)
  | readBytes (address : UInt32) (buffer : Traced UInt8) (count : UInt32)

namespace FlashCall

variable {σ : Type*} (S : Slave UInt8 σ)

/-- The call, with what it returns and the bytes that it reads. -/
def perform (bus : Bus UInt8 σ) : FlashCall → Option ((Bool × List UInt8) × Bus UInt8 σ)
  | init => do
    let (result, bus) ← Spi.spiFlashInit S bus
    return ((result, []), bus)
  | erase => do
    let (result, bus) ← Spi.flashChipErase S bus
    return ((result, []), bus)
  | writeByte address data => do
    let (result, bus) ← Spi.flashWriteByte S address data bus
    return ((result, []), bus)
  | writeBytes address data count => do
    let (result, _, bus) ← Spi.flashWriteBytes S address data count bus
    return ((result, []), bus)
  | readByte address rxData => do
    let (result, b, bus) ← Spi.flashReadByte S address rxData bus
    return ((result, [b]), bus)
  | readBytes address buffer count => do
    let (result, buffer, bus) ← Spi.flashReadBytes S address buffer count bus
    return ((result, buffer.slice 0 count.toNat), bus)

/-- Calls one after the other. -/
def performAll : List FlashCall → Bus UInt8 σ → Option (List (Bool × List UInt8) × Bus UInt8 σ)
  | [], bus => some ([], bus)
  | c :: cs, bus => do
    let (out, bus) ← c.perform S bus
    let (outs, bus) ← performAll cs bus
    return (out :: outs, bus)

/-- The address is that of a cell, the count is one of 16 bits, and the fast write gets to
the end of its loop. -/
def Proper : FlashCall → Prop
  | init | erase => True
  | writeByte address _ | readByte address _ => address.toNat < flashSize
  | writeBytes address _ count => address.toNat < flashSize ∧ 1 ≤ count.toNat ∧
      count.toNat < 2 ^ 16 ∧ Spi.Completes address.toNat count.toNat
  | readBytes address _ count => address.toNat < flashSize ∧ 1 ≤ count.toNat ∧
      count.toNat < 2 ^ 16

instance (c : FlashCall) : Decidable c.Proper :=
  match c with
  | init | erase => inferInstanceAs (Decidable True)
  | writeByte _ _ | readByte _ _ => inferInstanceAs (Decidable (_ < _))
  | writeBytes _ _ _ => inferInstanceAs (Decidable (_ ∧ _ ∧ _ ∧ _))
  | readBytes _ _ _ => inferInstanceAs (Decidable (_ ∧ _ ∧ _))

end FlashCall

/-- The memory that the flash is to its callers. -/
def flashMemory : Machine (ℕ → UInt8) FlashCall (Bool × List UInt8) where
  next cells
    | .init | .erase => fun _ => 0xFF
    | .writeByte address data => SerialFlash.cleared address.toNat [data] cells
    | .writeBytes address data count =>
      SerialFlash.cleared address.toNat (data.slice 0 count.toNat) cells
    | .readByte _ _ | .readBytes _ _ _ => cells
  out cells
    | .readByte address _ => (true, [cells address.toNat])
    | .readBytes address _ count =>
      (true, (List.range count.toNat).map fun i => cells ((address.toNat + i) % flashSize))
    | .init | .erase | .writeByte _ _ | .writeBytes _ _ _ => (true, [])

namespace FlashCall

open SerialFlash (Open)

variable {bus : Bus UInt8 SerialFlash}

/-- A call does what it does to the memory. -/
theorem perform_eq (h : Open bus) {c : FlashCall} (hc : c.Proper) :
    ∃ bus', c.perform serialFlash bus =
        some (flashMemory.out bus.device.chip.cells c, bus') ∧ Open bus' ∧
      bus'.device.chip.cells = flashMemory.next bus.device.chip.cells c := by
  cases c with
  | init =>
    obtain ⟨bus', hcall, hopen, hcells⟩ := SerialFlash.spiFlashInit_eq h.sending h.closed
    exact ⟨bus', by rw [perform, hcall]; rfl, hopen, hcells⟩
  | erase =>
    obtain ⟨bus', hcall, hopen, hcells⟩ :=
      SerialFlash.flashChipErase_open h.sending h.status h.closed
    exact ⟨bus', by rw [perform, hcall]; rfl, hopen, hcells⟩
  | writeByte address data =>
    obtain ⟨bus', hcall, hopen, hcells⟩ := SerialFlash.flashWriteByte_eq h hc data
    exact ⟨bus', by rw [perform, hcall]; rfl, hopen, hcells⟩
  | writeBytes address data count =>
    obtain ⟨haddress, hpos, hlt, hcompletes⟩ := hc
    obtain ⟨data', bus', hcall, hopen, hcells⟩ :=
      SerialFlash.flashWriteBytes_eq h haddress hpos hlt hcompletes data
    exact ⟨bus', by rw [perform, hcall]; rfl, hopen, hcells⟩
  | readByte address rxData =>
    obtain ⟨bus', hcall, hopen, hcells⟩ := SerialFlash.flashReadByte_eq h hc rxData
    exact ⟨bus', by rw [perform, hcall]; rfl, hopen, hcells⟩
  | readBytes address buffer count =>
    obtain ⟨haddress, hpos, hlt⟩ := hc
    obtain ⟨bus', hcall, hopen, hcells⟩ :=
      SerialFlash.flashReadBytes_eq h haddress hpos hlt buffer
    refine ⟨bus', ?_, hopen, hcells⟩
    have hslice := Traced.slice_stores 0 ((List.range count.toNat).map fun i =>
      bus.device.chip.cells ((address.toNat + i) % flashSize)) buffer
    rw [List.length_map, List.length_range] at hslice
    rw [perform, hcall]
    exact congrArg (fun bs => some ((true, bs), bus')) hslice

/-- Calls do what they do to the memory. -/
theorem performAll_eq (h : Open bus) {cs : List FlashCall} (hcs : ∀ c ∈ cs, c.Proper) :
    ∃ bus', performAll serialFlash cs bus =
        some (flashMemory.outputs bus.device.chip.cells cs, bus') ∧ Open bus' ∧
      bus'.device.chip.cells = flashMemory.run bus.device.chip.cells cs := by
  induction cs generalizing bus with
  | nil => exact ⟨bus, rfl, h, rfl⟩
  | cons c cs ih =>
    obtain ⟨hc, hrest⟩ := List.forall_mem_cons.1 hcs
    obtain ⟨bus₁, hcall, hopen₁, hcells₁⟩ := perform_eq h hc
    obtain ⟨bus₂, hcalls, hopen₂, hcells₂⟩ := ih hopen₁ hrest
    rw [hcells₁] at hcalls hcells₂
    refine ⟨bus₂, ?_, hopen₂, hcells₂⟩
    rw [performAll, hcall, Machine.outputs_cons]
    exact congrArg (Option.bind · _) hcalls

/-- From `spi_flash_init` on, whatever the chip was before, any calls in range come to an
end and return what the memory does. -/
theorem flash_is_memory (hsending : bus.sending = [])
    (hclosed : bus.device.chip.autoIncrement = none) {cs : List FlashCall}
    (hcs : ∀ c ∈ cs, c.Proper) :
    ∃ bus', performAll serialFlash (init :: cs) bus =
      some (flashMemory.outputs bus.device.chip.cells (init :: cs), bus') := by
  obtain ⟨bus₁, hcall, hopen, hcells⟩ := SerialFlash.spiFlashInit_eq hsending hclosed
  obtain ⟨bus₂, hcalls, -, -⟩ := performAll_eq hopen hcs
  rw [hcells] at hcalls
  refine ⟨bus₂, ?_⟩
  rw [performAll, perform, hcall, Machine.outputs_cons]
  exact congrArg (Option.bind · _) hcalls

/-- A chip at power-up : protected, with any bytes in its cells. -/
def powerUp (cells : ℕ → UInt8) : Bus UInt8 SerialFlash where
  device := ⟨⟨cells, false, none, [], []⟩, 0x0C, false⟩
  sending := []
  ready := false
  rxd := 0
  clocked := []

/-- A byte is written over another one, and read back. -/
theorem flash_is_memory_twice : ∃ bus',
    performAll serialFlash
        [init, writeByte 5 0x3C, writeByte 5 0x66, readByte 5 (.ofList [])] (powerUp fun _ => 0) =
      some ([(true, []), (true, []), (true, []), (true, [0x24])], bus') :=
  flash_is_memory rfl rfl
    (by decide : ∀ c ∈ [writeByte 5 0x3C, writeByte 5 0x66, readByte 5 (.ofList [])], c.Proper)

end FlashCall

/-! ## The log -/

namespace Spi

variable {σ : Type*} (S : Slave UInt8 σ)

/-- `log_data`, with any slave on the bus. -/
def logData (r : LogRecord) (freePointer : UInt32) (bus : Bus UInt8 σ) :
    Option (UInt32 × Bus UInt8 σ) := do
  let (_, _, bus) ← flashWriteBytes S freePointer (.ofList r.data) 15 bus
  let freePointer := freePointer + 15 + 1
  -- the chip is full
  if 0x01FFFF ≤ freePointer then do
    let (_, bus) ← flashChipErase S bus
    return (0, bus)
  else return (freePointer, bus)

/-- Calls of `log_data`, one after the other. -/
def logAll : List LogRecord → UInt32 → Bus UInt8 σ → Option (UInt32 × Bus UInt8 σ)
  | [], freePointer, bus => some (freePointer, bus)
  | r :: rs, freePointer, bus => do
    let (freePointer, bus) ← logData S r freePointer bus
    logAll rs freePointer bus

/-- The calls of `main` before its loop. -/
def bootFlash (bus : Bus UInt8 σ) : Option (Bus UInt8 σ) := do
  let (_, bus) ← spiFlashInit S bus
  let (_, bus) ← flashChipErase S bus
  return bus

end Spi

/-- On the chip without a read-out it is the `log_data` of the data logger. -/
theorem DataLogger.logData_eq_spi (l : DataLogger) (r : LogRecord) :
    l.logData r = (Spi.logData flash r l.freePointer l.bus).map fun s => ⟨s.1, s.2⟩ := by
  rw [DataLogger.logData, Spi.logData]
  cases Spi.flashWriteBytes flash l.freePointer (.ofList r.data) 15 l.bus with
  | none => rfl
  | some s =>
    by_cases hfull : 0x01FFFF ≤ l.freePointer + 15 + 1
    · simp only [Option.bind_eq_bind, Option.bind_some, if_pos hfull]
      cases Spi.flashChipErase flash s.2.2 <;> rfl
    · simp only [Option.bind_eq_bind, Option.bind_some, if_neg hfull]
      rfl

namespace SerialFlash

/-- The records since the last erase. -/
def kept (rs : List LogRecord) : List LogRecord :=
  rs.drop (rs.length - rs.length % 8192)

theorem length_kept (rs : List LogRecord) : (kept rs).length = rs.length % 8192 := by
  rw [kept, List.length_drop]
  omega

/-- The last record of a round is not kept. -/
theorem kept_concat (rs : List LogRecord) (r : LogRecord) :
    kept (rs ++ [r]) = if (kept rs).length + 1 < 8192 then kept rs ++ [r] else [] := by
  rw [length_kept, kept, List.length_append, List.length_singleton]
  split_ifs with hroom
  · have hsame : rs.length + 1 - (rs.length + 1) % 8192 = rs.length - rs.length % 8192 := by omega
    rw [hsame, List.drop_append_of_le_length (Nat.sub_le _ _)]
    rfl
  · exact List.drop_of_length_le (by simp; omega)

/-- The records are in the flash, one for every 16 cells, and nothing is behind them. -/
structure Logged (rs : List LogRecord) (freePointer : UInt32) (bus : Bus UInt8 SerialFlash) :
    Prop where
  isOpen : Open bus
  pointer : freePointer.toNat = 16 * rs.length
  room : rs.length < 8192
  records : ∀ i j (hi : i < rs.length), j < 15 →
    bus.device.chip.cells (16 * i + j) = rs[i].data.getD j 0
  erased : ∀ p, 16 * rs.length ≤ p → bus.device.chip.cells p = 0xFF

theorem logged_nil {bus : Bus UInt8 SerialFlash} (h : Open bus)
    (hcells : bus.device.chip.cells = fun _ => 0xFF) : Logged [] 0 bus where
  isOpen := h
  pointer := rfl
  room := by decide
  records _ _ hi := absurd hi (Nat.not_lt_zero _)
  erased _ _ := hcells ▸ rfl

/-- A record that is written into the next slot. -/
theorem Logged.written {rs : List LogRecord} {freePointer : UInt32}
    {bus bus' : Bus UInt8 SerialFlash} (h : Logged rs freePointer bus) (r : LogRecord)
    (hcells : bus'.device.chip.cells =
      cleared freePointer.toNat r.data bus.device.chip.cells) :
    (∀ i j (hi : i < (rs ++ [r]).length), j < 15 →
        bus'.device.chip.cells (16 * i + j) = (rs ++ [r])[i].data.getD j 0) ∧
      ∀ p, 16 * (rs ++ [r]).length ≤ p → bus'.device.chip.cells p = 0xFF := by
  have hlength : r.data.length = 15 := rfl
  rw [h.pointer] at hcells
  refine ⟨fun i j hi hj => ?_, fun p hp => ?_⟩
  · rw [hcells, cleared]
    rw [List.length_append, List.length_singleton] at hi
    by_cases hlast : i = rs.length
    · subst hlast
      rw [if_pos (by omega), h.erased _ (by omega), Nat.add_sub_cancel_left,
        List.getElem_concat_length rfl, UInt8.and_comm]
      exact UInt8.and_neg_one
    · have hold : i < rs.length := by omega
      rw [if_neg (by omega), h.records i j hold hj, List.getElem_append_left hold]
  · rw [List.length_append, List.length_singleton] at hp
    rw [hcells, cleared, if_neg (by omega)]
    exact h.erased p (by omega)

/-- A call of `log_data`. -/
theorem Logged.logData {rs : List LogRecord} {freePointer : UInt32} {bus : Bus UInt8 SerialFlash}
    (h : Logged rs freePointer bus) (r : LogRecord) :
    ∃ freePointer' bus', Spi.logData serialFlash r freePointer bus = some (freePointer', bus') ∧
      Logged (if rs.length + 1 < 8192 then rs ++ [r] else []) freePointer' bus' := by
  have hsize : flashSize = 0x20000 := rfl
  have hpointer := h.pointer
  have hroom := h.room
  have hbelow : freePointer.toNat < flashSize := by omega
  have hcompletes : Spi.Completes freePointer.toNat (15 : UInt32).toNat := by
    refine Or.inr ?_
    change freePointer.toNat + 15 < 0x20000
    omega
  obtain ⟨data', bus₁, hwrite, hopen₁, hcells₁⟩ := flashWriteBytes_eq h.isOpen hbelow
    (by decide) (by decide) hcompletes (.ofList r.data)
  obtain ⟨hrecords, herased⟩ := h.written r hcells₁
  have hnext : (freePointer + 15 + 1).toNat = freePointer.toNat + 16 := by
    simp only [UInt32.toNat_add, UInt32.reduceToNat]
    omega
  by_cases hfull : 0x01FFFF ≤ freePointer + 15 + 1
  · have hlast : 0x1FFFF ≤ (freePointer + 15 + 1).toNat := UInt32.le_iff_toNat_le.1 hfull
    obtain ⟨bus₂, herase, hopen₂, hcells₂⟩ :=
      flashChipErase_open hopen₁.sending hopen₁.status hopen₁.closed
    refine ⟨0, bus₂, ?_, ?_⟩
    · rw [Spi.logData, hwrite]
      simp only [Option.bind_eq_bind, Option.bind_some, if_pos hfull, herase]
      rfl
    · rw [if_neg (by omega)]
      exact logged_nil hopen₂ hcells₂
  · have hlt : (freePointer + 15 + 1).toNat < 0x1FFFF :=
      UInt32.lt_iff_toNat_lt.1 (UInt32.not_le.1 hfull)
    refine ⟨freePointer + 15 + 1, bus₁, ?_, ?_⟩
    · rw [Spi.logData, hwrite]
      simp only [Option.bind_eq_bind, Option.bind_some, if_neg hfull]
      rfl
    · rw [if_pos (by omega)]
      refine ⟨hopen₁, ?_, ?_, hrecords, herased⟩
      · rw [hnext, List.length_append, List.length_singleton]
        omega
      · rw [List.length_append, List.length_singleton]
        omega

/-- Any number of calls. -/
theorem logged_logAll {past : List LogRecord} {freePointer : UInt32}
    {bus : Bus UInt8 SerialFlash} (h : Logged (kept past) freePointer bus) (rs : List LogRecord) :
    ∃ freePointer' bus', Spi.logAll serialFlash rs freePointer bus = some (freePointer', bus') ∧
      Logged (kept (past ++ rs)) freePointer' bus' := by
  induction rs generalizing past freePointer bus with
  | nil => exact ⟨freePointer, bus, rfl, by rwa [List.append_nil]⟩
  | cons r rs ih =>
    obtain ⟨freePointer₁, bus₁, hcall, hlogged⟩ := h.logData r
    rw [← kept_concat] at hlogged
    obtain ⟨freePointer₂, bus₂, hcalls, hlogged'⟩ := ih hlogged
    rw [List.append_assoc, List.singleton_append] at hlogged'
    refine ⟨freePointer₂, bus₂, ?_, hlogged'⟩
    rw [Spi.logAll, hcall]
    exact hcalls

/-- The flash functions before the loop of `main` leave an empty log. -/
theorem bootFlash_eq {bus : Bus UInt8 SerialFlash} (hsending : bus.sending = [])
    (hclosed : bus.device.chip.autoIncrement = none) :
    ∃ bus', Spi.bootFlash serialFlash bus = some bus' ∧ Logged [] 0 bus' := by
  obtain ⟨bus₁, hinit, hopen₁, -⟩ := spiFlashInit_eq hsending hclosed
  obtain ⟨bus₂, herase, hopen₂, hcells₂⟩ :=
    flashChipErase_open hopen₁.sending hopen₁.status hopen₁.closed
  refine ⟨bus₂, ?_, logged_nil hopen₂ hcells₂⟩
  rw [Spi.bootFlash, hinit]
  exact congrArg (Option.bind · _) herase

/-- A record is read back from its slot. -/
theorem Logged.read {rs : List LogRecord} {freePointer : UInt32} {bus : Bus UInt8 SerialFlash}
    (h : Logged rs freePointer bus) {i : ℕ} (hi : i < rs.length) (buffer : Traced UInt8) :
    ∃ buffer' bus', Spi.flashReadBytes serialFlash (16 * i).toUInt32 buffer 15 bus =
        some (true, buffer', bus') ∧ buffer'.slice 0 15 = rs[i].data := by
  have hroom := h.room
  have hsize : flashSize = 0x20000 := rfl
  have hslot : (16 * i).toUInt32.toNat = 16 * i :=
    UInt32.toNat_ofNat'.trans (Nat.mod_eq_of_lt (by omega))
  have haddress : (16 * i).toUInt32.toNat < flashSize := by omega
  obtain ⟨bus', hread, -, -⟩ := flashReadBytes_eq h.isOpen haddress
    (by decide : 1 ≤ (15 : UInt32).toNat) (by decide) buffer
  refine ⟨_, bus', hread, ?_⟩
  have hslice := Traced.slice_stores 0 ((List.range (15 : UInt32).toNat).map fun j =>
    bus.device.chip.cells (((16 * i).toUInt32.toNat + j) % flashSize)) buffer
  rw [List.length_map, List.length_range] at hslice
  refine hslice.trans (List.ext_getElem rfl fun j hj hj' => ?_)
  have hlt : j < 15 := hj'
  have hmod : (16 * i + j) % flashSize = 16 * i + j := Nat.mod_eq_of_lt (by omega)
  rw [List.getElem_map, List.getElem_range, hslot, hmod, h.records i j hi hlt,
    List.getD_eq_getElem _ _ hj']

/-- From power-up, after any number of calls of `log_data`, each record since the last erase
is read back from its slot. -/
theorem read_logged {bus : Bus UInt8 SerialFlash} (hsending : bus.sending = [])
    (hclosed : bus.device.chip.autoIncrement = none) (rs : List LogRecord) {i : ℕ}
    (hi : i < rs.length % 8192) (buffer : Traced UInt8) :
    ∃ bus₁ freePointer bus₂ buffer' bus₃ r,
      Spi.bootFlash serialFlash bus = some bus₁ ∧
      Spi.logAll serialFlash rs 0 bus₁ = some (freePointer, bus₂) ∧
      Spi.flashReadBytes serialFlash (16 * i).toUInt32 buffer 15 bus₂ =
        some (true, buffer', bus₃) ∧
      rs[rs.length - rs.length % 8192 + i]? = some r ∧ buffer'.slice 0 15 = r.data := by
  obtain ⟨bus₁, hboot, hstart⟩ := bootFlash_eq hsending hclosed
  have hempty : Logged (kept []) 0 bus₁ := hstart
  obtain ⟨freePointer, bus₂, hlog, hlogged⟩ := logged_logAll hempty rs
  rw [List.nil_append] at hlogged
  have hi' : i < (kept rs).length := (length_kept rs).symm ▸ hi
  obtain ⟨buffer', bus₃, hread, hdata⟩ := hlogged.read hi' buffer
  refine ⟨bus₁, freePointer, bus₂, buffer', bus₃, (kept rs)[i], hboot, hlog, hread, ?_, hdata⟩
  rw [← List.getElem?_drop]
  exact List.getElem?_eq_getElem hi'

/-- The last of three records. -/
theorem read_logged_third : ∃ bus₁ freePointer bus₂ buffer' bus₃ r,
    Spi.bootFlash serialFlash (FlashCall.powerUp fun _ => 0) = some bus₁ ∧
      Spi.logAll serialFlash
        [DataLogger.zeros, DataLogger.zeros, { DataLogger.zeros with motor4Percent := 100 }] 0
        bus₁ = some (freePointer, bus₂) ∧
      Spi.flashReadBytes serialFlash (16 * 2 : ℕ).toUInt32 (.ofList []) 15 bus₂ =
        some (true, buffer', bus₃) ∧
      [DataLogger.zeros, DataLogger.zeros, { DataLogger.zeros with motor4Percent := 100 }][2]? =
        some r ∧ buffer'.slice 0 15 = r.data :=
  read_logged rfl rfl
    [DataLogger.zeros, DataLogger.zeros, { DataLogger.zeros with motor4Percent := 100 }]
    (by decide) (.ofList [])

end SerialFlash

end Quadrupel
