import Quadrupel.FlashWrite
import Quadrupel.Run

/-!
# The data logger

`log_data` of `data_logger.c`, with the chip behind the bus. A record has 15 bytes, and
the next one starts 16 cells further on. The last record ends one cell before the last
one, where `flash_write_bytes` does not yet take its early exit (`Spi.Completes`); after
it the chip is erased, and the log starts from the beginning.

Events use keys, and some free all keys : `NoReuse` says that between any two uses of a key
in a log all keys were freed, and `noReuse_concat` adds an event to such a log. Here the keys
are the cells that are programmed.

`DataLogger.Ready` holds before each call. Its `used` says that what has been programmed
since the last erase is behind `free_pointer`.
-/

namespace Quadrupel

/-! ## Logs without reuse -/

section

variable {ε κ : Type*} (key : ε → Option κ) (frees : ε → Prop)

/-- The key has been used, and not been freed since. -/
def Used (log : List ε) (k : κ) : Prop :=
  ∃ before e after, log = before ++ e :: after ∧ key e = some k ∧ ∀ e' ∈ after, ¬frees e'

/-- No key is used twice without being freed in between. -/
def NoReuse (log : List ε) : Prop :=
  ∀ before first between second after k, log = before ++ first :: (between ++ second :: after) →
    key first = some k → key second = some k → ∃ e ∈ between, frees e

variable {key frees} {log : List ε} {e : ε} {k : κ}

theorem not_used_nil : ¬Used key frees [] k := by
  rintro ⟨before, e, after, h, -⟩
  simp at h

theorem noReuse_nil : NoReuse key frees [] := by
  intro before first between second after k h
  simp at h

/-- A used key is that of the last event, or was used before it and is not freed by it. -/
theorem used_concat (h : Used key frees (log ++ [e]) k) :
    key e = some k ∨ Used key frees log k ∧ ¬frees e := by
  obtain ⟨before, e', after, heq, hkey, hafter⟩ := h
  rcases concat_eq_append_cons heq with ⟨-, -, rfl⟩ | ⟨after', rfl, hlog⟩
  · exact Or.inl hkey
  · exact Or.inr ⟨⟨before, e', after', hlog, hkey, fun x hx => hafter x (by simp [hx])⟩,
      hafter e (by simp)⟩

theorem noReuse_concat (h : NoReuse key frees log)
    (hnew : ∀ k, key e = some k → ¬Used key frees log k) : NoReuse key frees (log ++ [e]) := by
  intro before first between second after k heq hfirst hsecond
  rw [← List.cons_append, ← List.append_assoc] at heq
  rcases concat_eq_append_cons heq with ⟨-, hlog, rfl⟩ | ⟨after', -, hlog⟩
  · by_contra hnone
    exact hnew k hsecond
      ⟨before, first, between, hlog, hfirst, fun x hx hfrees => hnone ⟨x, hx, hfrees⟩⟩
  · rw [List.append_assoc, List.cons_append] at hlog
    exact h before first between second after' k hlog hfirst hsecond

end

/-! ## The logger -/

/-- What is logged. -/
structure LogRecord where
  buttons123 : UInt8
  buttons456 : UInt8
  buttons789 : UInt8
  buttons101112 : UInt8
  frontPercent : UInt8
  sidePercent : UInt8
  yawPercent : UInt8
  powerPercent : UInt8
  baroPercent : UInt8
  rollXPercent : UInt8
  rollYPercent : UInt8
  motor1Percent : UInt8
  motor2Percent : UInt8
  motor3Percent : UInt8
  motor4Percent : UInt8

/-- The bytes of `data`. -/
def LogRecord.data (r : LogRecord) : List UInt8 :=
  [r.buttons123, r.buttons456, r.buttons789, r.buttons101112, r.frontPercent, r.sidePercent,
    r.yawPercent, r.powerPercent, r.baroPercent, r.rollXPercent, r.rollYPercent, r.motor1Percent,
    r.motor2Percent, r.motor3Percent, r.motor4Percent]

/-- `free_pointer`, and the bus to the chip. -/
structure DataLogger where
  freePointer : UInt32
  bus : Bus UInt8 FlashChip

namespace DataLogger

/-- `log_data`. -/
def logData (r : LogRecord) (l : DataLogger) : Option DataLogger := do
  let (_, _, bus) ← Spi.flashWriteBytes flash l.freePointer (.ofList r.data) 15 l.bus
  let freePointer := l.freePointer + 15 + 1
  -- the chip is full
  if 0x01FFFF ≤ freePointer then do
    let (_, bus) ← Spi.flashChipErase flash bus
    return ⟨0, bus⟩
  else return ⟨freePointer, bus⟩

/-- Calls of `log_data`, one after the other. -/
def logAll : List LogRecord → DataLogger → Option DataLogger
  | [], l => some l
  | r :: rs, l => (l.logData r).bind (logAll rs)

end DataLogger

/-! ## What is programmed -/

namespace FlashEvent

/-- The cell that is programmed. -/
def address? : FlashEvent → Option ℕ
  | program a _ _ => some a
  | erase => none

/-- Erased cells are programmed one after the other. -/
def programs (address : ℕ) : List UInt8 → List FlashEvent
  | [] => []
  | b :: bs => program address 0xFF b :: programs (address + 1) bs

/-- The cell has been programmed since the last erase. -/
abbrev Programmed (log : List FlashEvent) (a : ℕ) : Prop :=
  Used address? (· = erase) log a

/-- No cell is programmed twice without an erase in between. -/
abbrev ProgramsOnce (log : List FlashEvent) : Prop :=
  NoReuse address? (· = erase) log

/-- Cells that come after all the programmed ones are programmed for the first time. -/
theorem programsOnce_programs (bs : List UInt8) {log : List FlashEvent} {address : ℕ}
    (honce : ProgramsOnce log) (hbelow : ∀ a, Programmed log a → a < address) :
    ProgramsOnce (log ++ programs address bs) ∧
      ∀ a, Programmed (log ++ programs address bs) a → a < address + bs.length := by
  induction bs generalizing log address with
  | nil => simpa [programs] using ⟨honce, hbelow⟩
  | cons b bs ih =>
    have honce' : ProgramsOnce (log ++ [program address 0xFF b]) := by
      refine noReuse_concat honce fun k hk hused => ?_
      rw [← Option.some.inj hk] at hused
      exact absurd (hbelow _ hused) (lt_irrefl _)
    have hbelow' : ∀ a, Programmed (log ++ [program address 0xFF b]) a → a < address + 1 := by
      intro a ha
      rcases used_concat ha with hlast | ⟨hused, -⟩
      · rw [← Option.some.inj hlast]
        exact Nat.lt_succ_self _
      · exact (hbelow a hused).trans (Nat.lt_succ_self _)
    have hrest := ih honce' hbelow'
    rw [List.append_assoc, List.singleton_append, Nat.add_right_comm, Nat.add_assoc] at hrest
    exact hrest

/-- After an erase no cell is programmed. -/
theorem not_programmed_erase (log : List FlashEvent) (a : ℕ) : ¬Programmed (log ++ [erase]) a := by
  intro h
  rcases used_concat h with hlast | ⟨-, herase⟩
  · exact Option.some_ne_none a hlast.symm
  · exact herase rfl

theorem programsOnce_erase {log : List FlashEvent} (h : ProgramsOnce log) :
    ProgramsOnce (log ++ [erase]) :=
  noReuse_concat h nofun

end FlashEvent

namespace FlashChip

/-- Programming cells that are erased is logged as that. -/
theorem log_programAll (bs : List UInt8) {address : ℕ} {f : FlashChip}
    (hsize : address + bs.length ≤ flashSize) (h : Erased address bs.length f.cells) :
    (f.programAll address bs).log = f.log ++ FlashEvent.programs address bs := by
  induction bs generalizing address f with
  | nil => simp [programAll, FlashEvent.programs]
  | cons b bs ih =>
    rw [List.length_cons] at hsize h
    have hfirst : f.cells address = 0xFF := h address le_rfl (by omega) (by omega)
    have hlog : (f.program address b).log = f.log ++ [.program address 0xFF b] := by
      simp only [program, if_pos (by omega : address < flashSize), hfirst]
    have herased : Erased (address + 1) bs.length (f.program address b).cells := by
      intro p hp hlt hin
      rw [cells_program, if_neg (by omega)]
      exact h p (by omega) (by omega) hin
    rw [programAll, ih (by omega) herased, hlog, FlashEvent.programs, List.append_assoc]
    rfl

end FlashChip

namespace DataLogger

/-- What holds before a call. -/
structure Ready (l : DataLogger) : Prop where
  aligned : l.freePointer.toNat % 16 = 0
  below : l.freePointer.toNat < flashSize
  sending : l.bus.sending = []
  erased : FlashChip.Erased l.freePointer.toNat flashSize l.bus.device.cells
  programmed : ∀ a, FlashEvent.Programmed l.bus.device.log a → a < l.freePointer.toNat
  once : FlashEvent.ProgramsOnce l.bus.device.log

/-- What a call does that keeps to the flash : it writes a record into erased cells, with
success, and erases the chip just if there is no slot for another one. -/
structure Logs (r : LogRecord) (l l' : DataLogger) : Prop where
  aligned : l.freePointer.toNat % 16 = 0
  below : l.freePointer.toNat < 0x20000
  inside : ∀ i < r.data.length, l.freePointer.toNat + i ≤ 0x1FFFE
  writes : ∃ data bus,
    Spi.flashWriteBytes flash l.freePointer (.ofList r.data) 15 l.bus = some (true, data, bus) ∧
      bus.device.autoIncrement = none ∧ bus.device.writeEnabled = false ∧
      bus.device.log = l.bus.device.log ++ FlashEvent.programs l.freePointer.toNat r.data
  log : l'.bus.device.log =
    l.bus.device.log ++ FlashEvent.programs l.freePointer.toNat r.data ++
      if 0x1FFF0 < l.freePointer.toNat + 16 then [.erase] else []
  once : FlashEvent.ProgramsOnce l'.bus.device.log

variable {l : DataLogger}

/-- What the write of a record leaves : a chip that is not written to, the log with one
more record, and room behind it. -/
structure Written (r : LogRecord) (l : DataLogger) (bus : Bus UInt8 FlashChip) : Prop where
  sending : bus.sending = []
  closed : bus.device.autoIncrement = none ∧ bus.device.writeEnabled = false
  erased : FlashChip.Erased (l.freePointer.toNat + 16) flashSize bus.device.cells
  log : bus.device.log = l.bus.device.log ++ FlashEvent.programs l.freePointer.toNat r.data
  programmed : ∀ a, FlashEvent.Programmed bus.device.log a → a < l.freePointer.toNat + 16
  once : FlashEvent.ProgramsOnce bus.device.log

/-- The last slot, too, ends before the last cell. -/
theorem Ready.completes (h : l.Ready) : Spi.Completes l.freePointer.toNat 15 := by
  have haligned := h.aligned
  have hbelow : l.freePointer.toNat < 0x20000 := h.below
  unfold Spi.Completes
  omega

theorem exists_written (h : l.Ready) (r : LogRecord) : ∃ data bus,
    Spi.flashWriteBytes flash l.freePointer (.ofList r.data) 15 l.bus = some (true, data, bus) ∧
      Written r l bus := by
  have hsize : flashSize = 0x20000 := rfl
  have haligned := h.aligned
  have hbelow := h.below
  have hlength : r.data.length = 15 := rfl
  have hcount : ¬(15 : UInt32).toUInt16 < 1 := by decide
  have hcompletes : Spi.Completes l.freePointer.toNat (15 : UInt32).toUInt16.toNat := h.completes
  obtain ⟨bus, hcall, hsending, hdevice⟩ :=
    FlashChip.device_flashWriteBytes h.below hcount (.ofList r.data) h.sending
  rw [FlashChip.bytesSent_of_completes (by decide) hcompletes, decide_eq_true hcompletes] at *
  rw [if_pos hcompletes] at hdevice
  have hcells : bus.device.cells =
      (l.bus.device.programAll l.freePointer.toNat r.data).cells := by
    rw [hdevice]
    rfl
  have hlog : bus.device.log =
      l.bus.device.log ++ FlashEvent.programs l.freePointer.toNat r.data := by
    rw [hdevice]
    exact FlashChip.log_programAll r.data (by omega) fun p hp _ hin => h.erased p hp (by omega) hin
  obtain ⟨honce, hprogrammed⟩ := FlashEvent.programsOnce_programs r.data h.once h.programmed
  rw [← hlog] at honce hprogrammed
  refine ⟨_, bus, hcall, hsending, hdevice ▸ ⟨rfl, rfl⟩, fun p hp _ hin => ?_, hlog,
    fun a ha => (hprogrammed a ha).trans (by omega), honce⟩
  rw [hcells, FlashChip.cells_programAll, if_neg (by omega)]
  exact h.erased p (by omega) (by omega) hin

theorem toNat_next (h : l.freePointer.toNat < flashSize) :
    (l.freePointer + 15 + 1).toNat = l.freePointer.toNat + 16 := by
  have hsize : flashSize = 0x20000 := rfl
  simp only [UInt32.toNat_add, UInt32.reduceToNat]
  omega

/-- A call that erases the chip just if it is full keeps to the flash. -/
theorem Written.logs (h : l.Ready) {r : LogRecord} {data : Traced UInt8}
    {bus : Bus UInt8 FlashChip}
    (hwrite : Spi.flashWriteBytes flash l.freePointer (.ofList r.data) 15 l.bus =
      some (true, data, bus)) (hwritten : Written r l bus) {l' : DataLogger}
    (hlog : l'.bus.device.log = bus.device.log ++
      if 0x1FFF0 < l.freePointer.toNat + 16 then [.erase] else [])
    (honce : FlashEvent.ProgramsOnce l'.bus.device.log) : Logs r l l' where
  aligned := h.aligned
  below := h.below
  inside i hi := by
    have hlt : i < 15 := hi
    have haligned := h.aligned
    have hbelow : l.freePointer.toNat < 0x20000 := h.below
    omega
  writes := ⟨data, bus, hwrite, hwritten.closed.1, hwritten.closed.2, hwritten.log⟩
  log := hwritten.log ▸ hlog
  once := honce

/-- A call keeps `Ready`. -/
theorem logData_eq (h : l.Ready) (r : LogRecord) :
    ∃ l', l.logData r = some l' ∧ l'.Ready ∧ Logs r l l' := by
  have hsize : flashSize = 0x20000 := rfl
  have haligned := h.aligned
  have hbelow := h.below
  obtain ⟨data, bus, hwrite, hwritten⟩ := exists_written h r
  have hnext := toNat_next h.below
  by_cases hfull : 0x01FFFF ≤ l.freePointer + 15 + 1
  · obtain ⟨bus', herase, hsending, hdevice⟩ := FlashChip.flashChipErase_eq hwritten.sending
    have hlast : 0x1FFFF ≤ (l.freePointer + 15 + 1).toNat := UInt32.le_iff_toNat_le.1 hfull
    have hcells : ∀ p, bus'.device.cells p = 0xFF := fun p => hdevice ▸ rfl
    have hlog : bus'.device.log = bus.device.log ++ [.erase] := congrArg FlashChip.log hdevice
    have honce : FlashEvent.ProgramsOnce bus'.device.log :=
      hlog ▸ FlashEvent.programsOnce_erase hwritten.once
    have hnone : ∀ a, ¬FlashEvent.Programmed bus'.device.log a :=
      hlog ▸ FlashEvent.not_programmed_erase _
    refine ⟨⟨0, bus'⟩, ?_, ⟨rfl, (by decide : 0 < flashSize), hsending, fun p _ _ _ => hcells p,
      fun a ha => absurd ha (hnone a), honce⟩, Written.logs h hwrite hwritten ?_ honce⟩
    · rw [logData, hwrite]
      simp only [Option.bind_eq_bind, Option.bind_some, if_pos hfull, herase]
      rfl
    · rw [if_pos (by omega)]
      exact hlog
  · have hroom : (l.freePointer + 15 + 1).toNat < 0x1FFFF :=
      UInt32.lt_iff_toNat_lt.1 (UInt32.not_le.1 hfull)
    refine ⟨⟨l.freePointer + 15 + 1, bus⟩, ?_, ⟨?_, ?_, hwritten.sending, ?_, ?_, hwritten.once⟩,
      Written.logs h hwrite hwritten ?_ hwritten.once⟩
    · rw [logData, hwrite]
      simp only [Option.bind_eq_bind, Option.bind_some, if_neg hfull]
      rfl
    · change (l.freePointer + 15 + 1).toNat % 16 = 0
      omega
    · change (l.freePointer + 15 + 1).toNat < flashSize
      omega
    · change FlashChip.Erased (l.freePointer + 15 + 1).toNat flashSize bus.device.cells
      exact hnext ▸ hwritten.erased
    · change ∀ a, _ → a < (l.freePointer + 15 + 1).toNat
      exact hnext ▸ hwritten.programmed
    · rw [if_neg (by omega), List.append_nil]

/-- Any number of calls. -/
theorem ready_logAll (h : l.Ready) (rs : List LogRecord) :
    ∃ l', logAll rs l = some l' ∧ l'.Ready := by
  induction rs generalizing l with
  | nil => exact ⟨l, rfl, h⟩
  | cons r rs ih =>
    obtain ⟨l', hcall, hready, -⟩ := logData_eq h r
    obtain ⟨l'', hrest, hready'⟩ := ih hready
    exact ⟨l'', by rw [logAll, hcall, Option.bind_some, hrest], hready'⟩

/-- The logger on a chip that was erased. -/
structure Started (l : DataLogger) : Prop where
  freePointer : l.freePointer = 0
  sending : l.bus.sending = []
  erased : FlashChip.Erased 0 flashSize l.bus.device.cells
  log : l.bus.device.log = []

theorem Started.ready (h : l.Started) : l.Ready where
  aligned := by rw [h.freePointer]; rfl
  below := by rw [h.freePointer]; decide
  sending := h.sending
  erased := by rw [h.freePointer]; exact h.erased
  programmed a ha := by
    rw [h.log] at ha
    exact absurd ha not_used_nil
  once := by rw [h.log]; exact noReuse_nil

/-- After any number of calls, the next one keeps to the flash. -/
theorem logs_logAll (h : l.Started) (rs : List LogRecord) (r : LogRecord) :
    ∃ l₁ l₂, logAll rs l = some l₁ ∧ l₁.logData r = some l₂ ∧ Logs r l₁ l₂ := by
  obtain ⟨l₁, hrun, hready⟩ := ready_logAll h.ready rs
  obtain ⟨l₂, hcall, -, hlogs⟩ := logData_eq hready r
  exact ⟨l₁, l₂, hrun, hcall, hlogs⟩

/-- A record of zeros, as the variables are at the start. -/
def zeros : LogRecord :=
  ⟨0, 0, 0, 0, 0, 0, 0, 0, 0, 0, 0, 0, 0, 0, 0⟩

theorem logs_logAll_zeros : ∃ l₁ l₂,
    logAll (List.replicate 8192 zeros) ⟨0, blankBus⟩ = some l₁ ∧ l₁.logData zeros = some l₂ ∧
      Logs zeros l₁ l₂ :=
  logs_logAll ⟨rfl, rfl, fun _ _ _ _ => rfl, rfl⟩ (List.replicate 8192 zeros) zeros

end DataLogger

end Quadrupel
