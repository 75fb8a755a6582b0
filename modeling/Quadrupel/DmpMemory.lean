import Mathlib

/-!
# Loading the DMP

`mpu_load_firmware` writes the program of the DMP into the memory of the sensor chip, 16
bytes at a time, and reads each chunk back. The memory is in banks of 256 bytes : the chip
goes on to the next byte by itself, but only within a bank, and `mpu_write_mem` and
`mpu_read_mem` refuse to cross one.

A cell may not keep what is written into it (`MpuChip.keeps`), as the check after each chunk
expects. A chunk is never across two banks, since 16 divides 256, so the loop ends with 0 iff
every cell keeps its byte, and then the memory holds the program, with nothing after it
changed (`load_firmware`). The drivers refuse a DMP that counts as loaded, and to write while
no sensor is on (`Mpu.Refuses`).
-/

namespace Quadrupel

/-- The registers of the sensor chip that the memory is reached by, and the memory. -/
structure MpuChip where
  bankSel : UInt8
  memStartAddr : UInt8
  prgmStartH : UInt8
  prgmStartL : UInt8
  mem : ℕ → UInt8
  /-- What a cell keeps of a byte. -/
  keeps : ℕ → UInt8 → UInt8

/-- `bank_size`. -/
abbrev bankSize : ℕ :=
  256

namespace MpuChip

/-- The cell that `mem_r_w` reaches. -/
def cell (c : MpuChip) : ℕ :=
  bankSize * c.bankSel.toNat + c.memStartAddr.toNat

/-- A byte is written to one of these registers. -/
def writeByte (reg b : UInt8) (c : MpuChip) : MpuChip :=
  if reg = 0x6D then { c with bankSel := b }
  else if reg = 0x6E then { c with memStartAddr := b }
  else if reg = 0x6F then
    { c with
      mem := Function.update c.mem c.cell (c.keeps c.cell b)
      memStartAddr := c.memStartAddr + 1 }
  else if reg = 0x70 then { c with prgmStartH := b }
  else if reg = 0x71 then { c with prgmStartL := b }
  else c

/-- The register of the next byte. -/
def nextReg (reg : UInt8) : UInt8 :=
  if reg = 0x6F then reg else reg + 1

/-- `i2c_write`. -/
def i2cWrite (reg : UInt8) : List UInt8 → MpuChip → MpuChip
  | [], c => c
  | b :: data, c => i2cWrite (nextReg reg) data (c.writeByte reg b)

/-- `i2c_read` of `mem_r_w`. -/
def i2cReadMem : ℕ → MpuChip → List UInt8 × MpuChip
  | 0, c => ([], c)
  | length + 1, c =>
    let (data, c') := i2cReadMem length { c with memStartAddr := c.memStartAddr + 1 }
    (c.mem c.cell :: data, c')

/-! ## A block of memory -/

theorem toNat_memStartAddr_succ {c : MpuChip} (h : c.memStartAddr.toNat + 1 < bankSize) :
    (c.memStartAddr + 1).toNat = c.memStartAddr.toNat + 1 := by
  rw [UInt8.toNat_add]
  exact Nat.mod_eq_of_lt h

/-- Within a bank, the next cell comes next. -/
theorem cell_succ {c : MpuChip} (h : c.memStartAddr.toNat + 1 < bankSize) :
    ({ c with memStartAddr := c.memStartAddr + 1 } : MpuChip).cell = c.cell + 1 := by
  change bankSize * c.bankSel.toNat + (c.memStartAddr + 1).toNat = _
  rw [toNat_memStartAddr_succ h]
  rfl

/-- The memory after the bytes `data` are written from the cell `start` on. -/
def block (keeps : ℕ → UInt8 → UInt8) (mem : ℕ → UInt8) (start : ℕ) (data : List UInt8) (x : ℕ) :
    UInt8 :=
  if start ≤ x ∧ x < start + data.length then keeps x (data.getD (x - start) 0) else mem x

theorem block_nil (keeps : ℕ → UInt8 → UInt8) (mem : ℕ → UInt8) (start : ℕ) :
    block keeps mem start [] = mem := by
  funext x
  exact if_neg fun hx => absurd hx.2 (Nat.not_lt.2 hx.1)

theorem block_cons (keeps : ℕ → UInt8 → UInt8) (mem : ℕ → UInt8) (start : ℕ) (b : UInt8)
    (data : List UInt8) : block keeps mem start (b :: data) =
      block keeps (Function.update mem start (keeps start b)) (start + 1) data := by
  funext x
  unfold block
  rw [List.length_cons]
  rcases Nat.lt_trichotomy x start with hlt | rfl | hgt
  · rw [if_neg (by omega), if_neg (by omega), Function.update_of_ne hlt.ne]
  · rw [if_pos (by omega), if_neg (by omega), Function.update_self, Nat.sub_self]
    rfl
  · rw [Function.update_of_ne hgt.ne']
    refine if_congr (by omega) ?_ rfl
    obtain ⟨k, rfl⟩ := Nat.exists_eq_add_of_lt hgt
    have hcons : start + k + 1 - start = k + 1 := by omega
    have htail : start + k + 1 - (start + 1) = k := by omega
    rw [hcons, htail, List.getD_cons_succ]

/-- Within a bank, the bytes are written one after the other. -/
theorem i2cWrite_mem (data : List UInt8) (c : MpuChip)
    (h : c.memStartAddr.toNat + data.length ≤ bankSize) : ∃ memStartAddr,
      i2cWrite 0x6F data c = { c with memStartAddr, mem := block c.keeps c.mem c.cell data } := by
  induction data generalizing c with
  | nil =>
    rw [block_nil]
    exact ⟨c.memStartAddr, rfl⟩
  | cons b data ih =>
    have hwrite : i2cWrite 0x6F (b :: data) c = i2cWrite 0x6F data
        { c with
          mem := Function.update c.mem c.cell (c.keeps c.cell b)
          memStartAddr := c.memStartAddr + 1 } := rfl
    rw [List.length_cons] at h
    rw [hwrite, block_cons]
    cases data with
    | nil =>
      rw [block_nil]
      exact ⟨c.memStartAddr + 1, rfl⟩
    | cons b' data =>
      rw [List.length_cons] at h
      have hinside : c.memStartAddr.toNat + 1 < bankSize := by omega
      have hcell := cell_succ hinside
      have hnext := toNat_memStartAddr_succ hinside
      obtain ⟨start, hrest⟩ := ih
        { c with
          mem := Function.update c.mem c.cell (c.keeps c.cell b)
          memStartAddr := c.memStartAddr + 1 }
        (by rw [List.length_cons, hnext]; omega)
      exact ⟨start, hrest.trans (by rw [← hcell]; rfl)⟩

/-- Within a bank, they are read one after the other. -/
theorem i2cReadMem_eq (length : ℕ) (c : MpuChip) (h : c.memStartAddr.toNat + length ≤ bankSize) :
    ∃ memStartAddr, i2cReadMem length c =
      ((List.range length).map fun i => c.mem (c.cell + i), { c with memStartAddr }) := by
  induction length generalizing c with
  | zero => exact ⟨c.memStartAddr, rfl⟩
  | succ length ih =>
    cases length with
    | zero => exact ⟨c.memStartAddr + 1, rfl⟩
    | succ length =>
      have hinside : c.memStartAddr.toNat + 1 < bankSize := by omega
      have hcell := cell_succ hinside
      have hnext := toNat_memStartAddr_succ hinside
      obtain ⟨start, hrest⟩ := ih { c with memStartAddr := c.memStartAddr + 1 }
        (by rw [hnext]; omega)
      refine ⟨start, ?_⟩
      rw [i2cReadMem, hrest, List.range_succ_eq_map (n := length + 1), List.map_cons, List.map_map]
      have hshift : (fun i => c.mem (c.cell + i)) ∘ Nat.succ = fun i => c.mem (c.cell + 1 + i) := by
        funext i
        exact congrArg c.mem (by omega)
      rw [hshift, ← hcell]
      rfl

end MpuChip

/-- The driver, `st`, and the chip. -/
structure Mpu where
  sensors : UInt8
  dmpLoaded : Bool
  dmpSampleRate : UInt16
  chip : MpuChip

namespace Mpu

/-- `mpu_write_mem`. -/
def mpuWriteMem (memAddr length : UInt16) (data : List UInt8) (s : Mpu) : ℤ × Mpu :=
  if s.sensors = 0 then (-1, s)
  else
    let tmp0 := (memAddr >>> 8).toUInt8
    let tmp1 := memAddr.toUInt8
    if bankSize < tmp1.toNat + length.toNat then (-1, s)
    else
      let chip := s.chip.i2cWrite 0x6D [tmp0, tmp1]
      let dataLength := length.toUInt8
      -- `i2c_write` refuses to write nothing.
      if dataLength = 0 then (-1, { s with chip })
      else (0, { s with chip := chip.i2cWrite 0x6F (data.take dataLength.toNat) })

/-- `mpu_read_mem`. -/
def mpuReadMem (memAddr length : UInt16) (s : Mpu) : ℤ × List UInt8 × Mpu :=
  if s.sensors = 0 then (-1, [], s)
  else
    let tmp0 := (memAddr >>> 8).toUInt8
    let tmp1 := memAddr.toUInt8
    if bankSize < tmp1.toNat + length.toNat then (-1, [], s)
    else
      let chip := s.chip.i2cWrite 0x6D [tmp0, tmp1]
      let dataLength := length.toUInt8
      if dataLength = 0 then (-1, [], { s with chip })
      else
        let (data, chip) := chip.i2cReadMem dataLength.toNat
        (0, data, { s with chip })

/-- `LOAD_CHUNK`. -/
def loadChunk : UInt16 :=
  16

/-- The bytes of the chunk at `ii`. -/
def thisWrite (length ii : UInt16) : UInt16 :=
  if loadChunk < length - ii then loadChunk else length - ii

/-- The chunks do not wrap. -/
theorem toNat_thisWrite {length ii : UInt16} (h : ii < length) :
    (thisWrite length ii).toNat = min 16 (length.toNat - ii.toNat) ∧
      (ii + thisWrite length ii).toNat = ii.toNat + min 16 (length.toNat - ii.toNat) := by
  have hlt := UInt16.lt_iff_toNat_lt.1 h
  have hmax := length.toNat_lt
  have hsub : (length - ii).toNat = length.toNat - ii.toNat :=
    UInt16.toNat_sub_of_le _ _ (UInt16.le_iff_toNat_le.2 hlt.le)
  have hmin : (thisWrite length ii).toNat = min 16 (length.toNat - ii.toNat) := by
    have hchunk : loadChunk < length - ii ↔ 16 < (length - ii).toNat := UInt16.lt_iff_toNat_lt
    unfold thisWrite
    split_ifs with hlong
    · exact (Nat.min_eq_left (hsub ▸ (hchunk.1 hlong).le)).symm
    · rw [hsub, Nat.min_eq_right (hsub ▸ Nat.not_lt.1 (mt hchunk.2 hlong))]
  refine ⟨hmin, ?_⟩
  rw [UInt16.toNat_add, hmin]
  exact Nat.mod_eq_of_lt (by omega)

/-- The loop of `mpu_load_firmware`, from the byte `ii`. -/
def loadLoop (length : UInt16) (firmware : List UInt8) (ii : UInt16) (s : Mpu) : ℤ × Mpu :=
  if ii < length then
    let count := thisWrite length ii
    let (written, s) := s.mpuWriteMem ii count (firmware.drop ii.toNat)
    if written ≠ 0 then (-1, s)
    else
      let (read, cur, s) := s.mpuReadMem ii count
      if read ≠ 0 then (-1, s)
      else if (firmware.drop ii.toNat).take count.toNat ≠ cur then (-2, s)
      else loadLoop length firmware (ii + thisWrite length ii) s
  else (0, s)
termination_by length.toNat - ii.toNat
decreasing_by
  have h : ii < length := ‹_›
  have hlt := UInt16.lt_iff_toNat_lt.1 h
  rw [(toNat_thisWrite h).2]
  omega

/-- `mpu_load_firmware`. -/
def mpuLoadFirmware (length : UInt16) (firmware : List UInt8) (startAddr sampleRate : UInt16)
    (s : Mpu) : ℤ × Mpu :=
  if s.dmpLoaded then (-1, s)
  else
    let (result, s) := loadLoop length firmware 0 s
    if result ≠ 0 then (result, s)
    else
      (0, { s with
        chip := s.chip.i2cWrite 0x70 [(startAddr >>> 8).toUInt8, startAddr.toUInt8]
        dmpLoaded := true
        dmpSampleRate := sampleRate })

/-! ## A chunk -/

/-- The chip with another place and memory. -/
def withMem (s : Mpu) (bankSel memStartAddr : UInt8) (mem : ℕ → UInt8) : Mpu :=
  { s with chip := { s.chip with bankSel, memStartAddr, mem } }

/-- The two bytes of an address. -/
theorem cell_address (memAddr : UInt16) :
    bankSize * (memAddr >>> 8).toUInt8.toNat + memAddr.toUInt8.toNat = memAddr.toNat := by
  have hlt := memAddr.toNat_lt
  simp only [UInt16.toNat_toUInt8, UInt16.toNat_shiftRight, UInt16.reduceToNat, Nat.reduceMod,
    Nat.shiftRight_eq_div_pow]
  change 256 * _ + _ = _
  omega

/-- A length that is kept as a byte. -/
theorem toUInt8_length {length : UInt16} (hpos : 0 < length.toNat) (hlt : length.toNat < 256) :
    length.toUInt8.toNat = length.toNat ∧ length.toUInt8 ≠ 0 := by
  have hbyte : length.toUInt8.toNat = length.toNat := by
    rw [UInt16.toNat_toUInt8]
    exact Nat.mod_eq_of_lt hlt
  refine ⟨hbyte, fun hzero => ?_⟩
  rw [hzero] at hbyte
  exact hpos.ne hbyte

/-- Within a bank, the write stores the bytes. -/
theorem mpuWriteMem_eq {s : Mpu} (hsensors : s.sensors ≠ 0) {memAddr length : UInt16}
    (hpos : 0 < length.toNat) (hlt : length.toNat < 256)
    (h : memAddr.toNat % bankSize + length.toNat ≤ bankSize) (data : List UInt8) :
    ∃ bankSel memStartAddr, s.mpuWriteMem memAddr length data = (0, s.withMem bankSel memStartAddr
      (MpuChip.block s.chip.keeps s.chip.mem memAddr.toNat (data.take length.toNat))) := by
  set c : MpuChip :=
    { s.chip with bankSel := (memAddr >>> 8).toUInt8, memStartAddr := memAddr.toUInt8 } with hc
  have hlow : memAddr.toUInt8.toNat + length.toNat ≤ bankSize := by
    rw [UInt16.toNat_toUInt8]
    exact h
  have htake : (data.take length.toNat).length ≤ length.toNat := List.length_take_le _ _
  obtain ⟨start, hwrite⟩ := c.i2cWrite_mem (data.take length.toNat)
    (by change memAddr.toUInt8.toNat + _ ≤ _; omega)
  have hcell : c.cell = memAddr.toNat := cell_address memAddr
  refine ⟨(memAddr >>> 8).toUInt8, start, ?_⟩
  rw [hcell] at hwrite
  have hselect : s.chip.i2cWrite 0x6D [(memAddr >>> 8).toUInt8, memAddr.toUInt8] = c := rfl
  obtain ⟨hbyte, hne⟩ := toUInt8_length hpos hlt
  rw [mpuWriteMem, if_neg hsensors]
  dsimp only
  rw [if_neg (Nat.not_lt.2 hlow), if_neg hne, hselect, hbyte, hwrite]
  rfl

/-- Within a bank, the read finds them. -/
theorem mpuReadMem_eq {s : Mpu} (hsensors : s.sensors ≠ 0) {memAddr length : UInt16}
    (hpos : 0 < length.toNat) (hlt : length.toNat < 256)
    (h : memAddr.toNat % bankSize + length.toNat ≤ bankSize) :
    ∃ bankSel memStartAddr, s.mpuReadMem memAddr length =
      (0, (List.range length.toNat).map fun i => s.chip.mem (memAddr.toNat + i),
        s.withMem bankSel memStartAddr s.chip.mem) := by
  set c : MpuChip :=
    { s.chip with bankSel := (memAddr >>> 8).toUInt8, memStartAddr := memAddr.toUInt8 } with hc
  have hlow : memAddr.toUInt8.toNat + length.toNat ≤ bankSize := by
    rw [UInt16.toNat_toUInt8]
    exact h
  obtain ⟨start, hread⟩ := c.i2cReadMem_eq length.toNat hlow
  have hcell : c.cell = memAddr.toNat := cell_address memAddr
  refine ⟨(memAddr >>> 8).toUInt8, start, ?_⟩
  rw [hcell] at hread
  have hselect : s.chip.i2cWrite 0x6D [(memAddr >>> 8).toUInt8, memAddr.toUInt8] = c := rfl
  obtain ⟨hbyte, hne⟩ := toUInt8_length hpos hlt
  rw [mpuReadMem, if_neg hsensors]
  dsimp only
  rw [if_neg (Nat.not_lt.2 hlow), if_neg hne, hselect, hbyte, hread]
  rfl

/-- The bytes of a chunk. -/
theorem take_drop_eq {firmware : List UInt8} {ii n : ℕ} (h : ii + n ≤ firmware.length) :
    (firmware.drop ii).take n = (List.range n).map fun i => firmware.getD (ii + i) 0 := by
  refine List.ext_getElem (by simp; omega) fun i hi hi' => ?_
  rw [List.length_map, List.length_range] at hi'
  rw [List.getElem_take, List.getElem_drop, List.getElem_map, List.getElem_range,
    List.getD_eq_getElem _ _ (by omega)]

/-! ## The loop -/

/-- The cells from `ii` to `length` keep the bytes of the program. -/
def Keeps (s : Mpu) (firmware : List UInt8) (ii length : ℕ) : Prop :=
  ∀ i, ii ≤ i → i < length → s.chip.keeps i (firmware.getD i 0) = firmware.getD i 0

/-- What the loop does from the byte `ii` on. -/
structure Loads (s : Mpu) (firmware : List UInt8) (ii length : ℕ) (result : ℤ) (s' : Mpu) :
    Prop where
  result_eq : result = 0 ∨ result = -2
  result_iff : result = 0 ↔ s.Keeps firmware ii length
  state : ∃ bankSel memStartAddr, s' = s.withMem bankSel memStartAddr s'.chip.mem
  loaded : result = 0 → ∀ i, ii ≤ i → i < length → s'.chip.mem i = firmware.getD i 0
  frame : ∀ x, x < ii ∨ length ≤ x → s'.chip.mem x = s.chip.mem x

/-- A chunk does not cross a bank. -/
theorem chunk_in_bank {ii : ℕ} (h : ii % 16 = 0) (n : ℕ) :
    ii % bankSize + min 16 n ≤ bankSize := by
  change ii % 256 + min 16 n ≤ 256
  omega

/-- The memory after the write of a chunk. -/
def chunkMem (s : Mpu) (firmware : List UInt8) (ii count : ℕ) : ℕ → UInt8 :=
  MpuChip.block s.chip.keeps s.chip.mem ii ((firmware.drop ii).take count)

theorem chunkMem_inside (s : Mpu) {firmware : List UInt8} {ii count i : ℕ}
    (h : ii + count ≤ firmware.length) (hi : ii ≤ i) (hi' : i < ii + count) :
    s.chunkMem firmware ii count i = s.chip.keeps i (firmware.getD i 0) := by
  have hlength : ((firmware.drop ii).take count).length = count := by
    rw [List.length_take, List.length_drop]
    omega
  obtain ⟨k, rfl⟩ := Nat.exists_eq_add_of_le hi
  refine (if_pos ⟨hi, hlength.symm ▸ hi'⟩).trans (congrArg _ ?_)
  rw [Nat.add_sub_cancel_left, take_drop_eq h, List.getD_eq_getElem _ _ (by simp; omega),
    List.getElem_map, List.getElem_range]

theorem chunkMem_outside (s : Mpu) {firmware : List UInt8} {ii count x : ℕ}
    (hx : x < ii ∨ ii + count ≤ x) : s.chunkMem firmware ii count x = s.chip.mem x := by
  have hlength : ((firmware.drop ii).take count).length ≤ count := List.length_take_le _ _
  refine if_neg fun h => ?_
  omega

/-- The check after a chunk finds whether the cells have kept it. -/
theorem chunk_eq_iff (s : Mpu) {firmware : List UInt8} {ii count : ℕ}
    (h : ii + count ≤ firmware.length) : (firmware.drop ii).take count =
      ((List.range count).map fun i => s.chunkMem firmware ii count (ii + i)) ↔
      s.Keeps firmware ii (ii + count) := by
  rw [take_drop_eq h, List.map_inj_left]
  constructor
  · intro hsame i hi hi'
    obtain ⟨k, rfl⟩ := Nat.exists_eq_add_of_le hi
    have hk := hsame k (List.mem_range.2 (Nat.lt_of_add_lt_add_left hi'))
    exact (hk.trans (s.chunkMem_inside h hi hi')).symm
  · intro hkeeps k hk
    have hk' : ii + k < ii + count := Nat.add_lt_add_left (List.mem_range.1 hk) ii
    have hle := Nat.le_add_right ii k
    exact ((s.chunkMem_inside h hle hk').trans (hkeeps _ hle hk')).symm

/-- A chunk that is kept, and then the rest. -/
theorem Loads.cons {s s' : Mpu} {firmware : List UInt8} {ii count length : ℕ} {result : ℤ}
    {bankSel memStartAddr : UInt8} (hlength : length ≤ firmware.length)
    (hcount : ii + count ≤ length) (hkeeps : s.Keeps firmware ii (ii + count))
    (h : (s.withMem bankSel memStartAddr (s.chunkMem firmware ii count)).Loads firmware (ii + count)
      length result s') : s.Loads firmware ii length result s' := by
  have hinside := hcount.trans hlength
  refine ⟨h.result_eq, h.result_iff.trans ⟨fun hrest i hi hi' => ?_, fun hall i hi hi' => ?_⟩,
    ?_, fun hzero i hi hi' => ?_, fun x hx => ?_⟩
  · rcases Nat.lt_or_ge i (ii + count) with hlt | hge
    · exact hkeeps i hi hlt
    · exact hrest i hge hi'
  · exact hall i ((Nat.le_add_right _ _).trans hi) hi'
  · obtain ⟨bankSel', memStartAddr', hstate⟩ := h.state
    exact ⟨bankSel', memStartAddr', hstate⟩
  · rcases Nat.lt_or_ge i (ii + count) with hlt | hge
    · exact (h.frame i (Or.inl hlt)).trans
        ((s.chunkMem_inside hinside hi hlt).trans (hkeeps i hi hlt))
    · exact h.loaded hzero i hge hi'
  · refine (h.frame x (by omega)).trans ?_
    exact s.chunkMem_outside (by omega)

/-- What the loop does, by induction on the bytes that are left. -/
theorem loadLoop_loads {length : UInt16} {firmware : List UInt8}
    (hlength : length.toNat ≤ firmware.length) (n : ℕ) (ii : UInt16) (s : Mpu)
    (hn : length.toNat - ii.toNat = n) (hsensors : ii < length → s.sensors ≠ 0)
    (hchunk : ii < length → ii.toNat % 16 = 0) :
    s.Loads firmware ii.toNat length.toNat (loadLoop length firmware ii s).1
      (loadLoop length firmware ii s).2 := by
  induction n using Nat.strong_induction_on generalizing ii s with
  | _ n ih =>
    rw [loadLoop]
    by_cases hlt : ii < length
    · replace hsensors := hsensors hlt
      have hlt' := UInt16.lt_iff_toNat_lt.1 hlt
      obtain ⟨hcount, hnext⟩ := toNat_thisWrite hlt
      have hbank := chunk_in_bank (hchunk hlt) (length.toNat - ii.toNat)
      have hle : ii.toNat + (thisWrite length ii).toNat ≤ length.toNat := by omega
      rw [← hcount] at hbank hnext
      have hpos : 0 < (thisWrite length ii).toNat := by omega
      have hsmall : (thisWrite length ii).toNat < 256 := by omega
      obtain ⟨bankSel, start, hwrite⟩ :=
        mpuWriteMem_eq hsensors hpos hsmall hbank (firmware.drop ii.toNat)
      set s₁ := s.withMem bankSel start (s.chunkMem firmware ii.toNat (thisWrite length ii).toNat)
      have hsensors₁ : s₁.sensors ≠ 0 := hsensors
      obtain ⟨bankSel', start', hread⟩ := mpuReadMem_eq hsensors₁ hpos hsmall hbank
      set s₂ := s₁.withMem bankSel' start' s₁.chip.mem
      have hcheck : (firmware.drop ii.toNat).take (thisWrite length ii).toNat =
          ((List.range (thisWrite length ii).toNat).map fun i => s₁.chip.mem (ii.toNat + i)) ↔
          s.Keeps firmware ii.toNat (ii.toNat + (thisWrite length ii).toNat) :=
        s.chunk_eq_iff (hle.trans hlength)
      have hwrite' : s.mpuWriteMem ii (thisWrite length ii) (firmware.drop ii.toNat) = (0, s₁) :=
        hwrite
      rw [if_pos hlt]
      simp only [hwrite', hread, ne_eq, not_true_eq_false, if_false]
      by_cases hkeeps : s.Keeps firmware ii.toNat (ii.toNat + (thisWrite length ii).toNat)
      · rw [if_neg (not_not.2 (hcheck.2 hkeeps))]
        have hchunk' : ii + thisWrite length ii < length →
            (ii + thisWrite length ii).toNat % 16 = 0 := by
          intro hmore
          have hmore' := UInt16.lt_iff_toNat_lt.1 hmore
          have haligned := hchunk hlt
          omega
        have hrest := ih _ (by omega) (ii + thisWrite length ii) s₂ rfl (fun _ => hsensors₁) hchunk'
        rw [hnext] at hrest
        exact Loads.cons hlength hle hkeeps hrest
      · rw [if_pos (mt hcheck.1 hkeeps)]
        have hfail : ¬(-2 : ℤ) = 0 := by decide
        refine ⟨Or.inr rfl, iff_of_false hfail fun hall => hkeeps fun i hi hi' => ?_,
          ⟨_, _, rfl⟩, fun h => absurd h hfail, fun x hx => ?_⟩
        · exact hall i hi (hi'.trans_le hle)
        · exact s.chunkMem_outside (by omega)
    · have hge : length.toNat ≤ ii.toNat := Nat.not_lt.1 (mt UInt16.lt_iff_toNat_lt.2 hlt)
      rw [if_neg hlt]
      have hnone (i : ℕ) (hi : ii.toNat ≤ i) (hi' : i < length.toNat) : False := by omega
      exact ⟨Or.inl rfl, iff_of_true rfl fun i hi hi' => (hnone i hi hi').elim,
        ⟨_, _, rfl⟩, fun _ i hi hi' => (hnone i hi hi').elim, fun _ _ => rfl⟩

/-- Without sensors, the first chunk is refused. -/
theorem loadLoop_refused {length ii : UInt16} {s : Mpu} (hlt : ii < length) (h : s.sensors = 0)
    (firmware : List UInt8) : loadLoop length firmware ii s = (-1, s) := by
  have hwrite (count : UInt16) (data : List UInt8) : s.mpuWriteMem ii count data = (-1, s) :=
    if_pos h
  rw [loadLoop, if_pos hlt]
  simp only [hwrite]
  rfl

/-- The DMP counts as loaded, or there is a chunk to write and no sensor is on. -/
def Refuses (s : Mpu) (length : UInt16) : Prop :=
  s.dmpLoaded = true ∨ s.sensors = 0 ∧ 0 < length.toNat

theorem mpuLoadFirmware_refused {length : UInt16} {s : Mpu} (h : s.Refuses length)
    (firmware : List UInt8) (startAddr sampleRate : UInt16) :
    mpuLoadFirmware length firmware startAddr sampleRate s = (-1, s) := by
  unfold mpuLoadFirmware
  split_ifs with hloaded
  · rfl
  · obtain ⟨hsensors, hpos⟩ := h.resolve_left hloaded
    have hlt : 0 < length := UInt16.lt_iff_toNat_lt.2 hpos
    rw [loadLoop_refused hlt hsensors]
    rfl

/-- `mpu_load_firmware` returns -1, and does nothing, iff the DMP counts as loaded or no sensor
is on. Else it returns 0 iff every cell keeps its byte of the program. Then the memory holds
the program and the DMP starts where it should; if not it returns -2, and the DMP does not
count as loaded. No other cell changes. -/
theorem load_firmware (length : UInt16) (firmware : List UInt8)
    (hlength : length.toNat ≤ firmware.length) (startAddr sampleRate : UInt16) (s : Mpu) :
    let r := mpuLoadFirmware length firmware startAddr sampleRate s
    (r.1 = -1 ↔ s.Refuses length) ∧ (s.Refuses length → r.2 = s) ∧
      (r.1 = 0 ↔ ¬s.Refuses length ∧
        ∀ i < length.toNat, s.chip.keeps i (firmware.getD i 0) = firmware.getD i 0) ∧
      (r.1 = 0 → (∀ i < length.toNat, r.2.chip.mem i = firmware.getD i 0) ∧
        256 * r.2.chip.prgmStartH.toNat + r.2.chip.prgmStartL.toNat = startAddr.toNat ∧
        r.2.dmpLoaded = true ∧ r.2.dmpSampleRate = sampleRate) ∧
      (r.1 ≠ 0 → (r.1 = -1 ∨ r.1 = -2) ∧ r.2.dmpLoaded = s.dmpLoaded) ∧
      ∀ x, length.toNat ≤ x → r.2.chip.mem x = s.chip.mem x := by
  intro r
  by_cases hrefuses : s.Refuses length
  · have hr : r = (-1, s) := mpuLoadFirmware_refused hrefuses firmware startAddr sampleRate
    have hne : ¬(-1 : ℤ) = 0 := by decide
    rw [hr]
    exact ⟨iff_of_true rfl hrefuses, fun _ => rfl, iff_of_false hne fun h => h.1 hrefuses,
      fun h => absurd h hne, fun _ => ⟨Or.inl rfl, rfl⟩, fun _ _ => rfl⟩
  · obtain ⟨hfresh, hon⟩ := not_or.1 hrefuses
    have hsensors (hlt : 0 < length) : s.sensors ≠ 0 := fun h =>
      hon ⟨h, UInt16.lt_iff_toNat_lt.1 hlt⟩
    set t := loadLoop length firmware 0 s with ht
    obtain ⟨hresult, hiff, ⟨bankSel, start, hstate⟩, hmem, hframe⟩ :=
      loadLoop_loads hlength _ 0 s rfl hsensors fun _ => rfl
    have hkeeps : t.1 = 0 ↔ ¬s.Refuses length ∧ ∀ i < length.toNat,
        s.chip.keeps i (firmware.getD i 0) = firmware.getD i 0 :=
      hiff.trans ⟨fun h => ⟨hrefuses, fun i hi => h i (Nat.zero_le i) hi⟩, fun h i _ => h.2 i⟩
    have hr : r = if t.1 ≠ 0 then t else (0, { t.2 with
        chip := t.2.chip.i2cWrite 0x70 [(startAddr >>> 8).toUInt8, startAddr.toUInt8]
        dmpLoaded := true
        dmpSampleRate := sampleRate }) := if_neg hfresh
    by_cases hzero : t.1 = 0
    · have hne : ¬(0 : ℤ) = -1 := by decide
      rw [if_neg (not_not.2 hzero)] at hr
      rw [hr]
      refine ⟨iff_of_false hne hrefuses, fun h => absurd h hrefuses,
        iff_of_true rfl (hkeeps.1 hzero), fun _ => ⟨fun i hi => ?_, ?_, rfl, rfl⟩,
        fun h => absurd rfl h, fun x hx => hframe x (Or.inr hx)⟩
      · exact hmem hzero i (Nat.zero_le i) hi
      · exact cell_address startAddr
    · have htwo : t.1 = -2 := hresult.resolve_left hzero
      have hne : ¬t.1 = -1 := by
        rw [htwo]
        decide
      rw [if_pos hzero] at hr
      rw [hr]
      refine ⟨iff_of_false hne hrefuses, fun h => absurd h hrefuses, hkeeps,
        fun h => absurd h hzero, fun _ => ⟨Or.inr htwo, ?_⟩, fun x hx => hframe x (Or.inr hx)⟩
      have hsame := congrArg (fun u : Mpu => u.dmpLoaded) hstate
      exact hsame

/-- A program as long as that of the DMP, in a memory that keeps everything. -/
theorem load_firmware_all :
    let chip : MpuChip := ⟨0, 0, 0, 0, fun _ => 0, fun _ b => b⟩
    (mpuLoadFirmware 3062 (List.replicate 3062 7) 0x0400 200 ⟨0x78, false, 0, chip⟩).1 = 0 := by
  intro chip
  have hlength : (3062 : UInt16).toNat ≤ (List.replicate 3062 (7 : UInt8)).length := by
    rw [List.length_replicate]
    decide
  have hfresh : ¬(⟨0x78, false, 0, chip⟩ : Mpu).Refuses 3062 := by
    rintro (h | ⟨h, -⟩)
    · cases h
    · exact absurd h (by decide)
  exact (load_firmware 3062 _ hlength 0x0400 200 _).2.2.1.2 ⟨hfresh, fun _ _ => rfl⟩

end Mpu

end Quadrupel
