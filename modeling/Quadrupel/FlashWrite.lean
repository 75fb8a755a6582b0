import Quadrupel.FlashChip

/-!
# Writing all or failing

What `flash_write_bytes` should leave behind, on cells that are erased : the whole of the
data if it returns true, which it does just if the data fits, a front part of the data if
it returns false, and in either case a chip that is no longer written to.

The end-of-memory test is in the loop, where there is always at least one more byte to
count, so a write that ends in the last cell fails there and leaves auto-increment on;
and the fast write takes the count as 16 bits. `writesAllOrFails_iff` is exact.
-/

namespace Quadrupel

namespace FlashChip

/-- From `address` on the first `n` bytes of the data have been written, and no other
cell. -/
def Holds (address n : ℕ) (data before after : ℕ → UInt8) : Prop :=
  ∀ p, after p = if address ≤ p ∧ p < address + n then data (p - address) else before p

/-- The cells are erased. -/
def Erased (address n : ℕ) (cells : ℕ → UInt8) : Prop :=
  ∀ p, address ≤ p → p < address + n → p < flashSize → cells p = 0xFF

theorem getD_slice (data : Traced UInt8) {i n : ℕ} (h : i < n) :
    (data.slice 0 n).getD i 0 = data.cells i := by
  simp [Traced.slice, List.getD_eq_getElem?_getD, h]

theorem holds_programAll {address n : ℕ} (hsize : address + n ≤ flashSize) (data : Traced UInt8)
    {f : FlashChip} (h : Erased address n f.cells) :
    Holds address n data.cells f.cells (f.programAll address (data.slice 0 n)).cells := by
  intro p
  rw [cells_programAll, Traced.length_slice]
  by_cases hp : address ≤ p ∧ p < address + n
  · rw [if_pos ⟨hp.1, hp.2, by omega⟩, if_pos hp, h p hp.1 hp.2 (by omega),
      getD_slice data (by omega), UInt8.and_comm]
    exact UInt8.and_neg_one
  · rw [if_neg fun h => hp ⟨h.1, h.2.1⟩, if_neg hp]

/-- More of the data is there if the rest does not differ from an erased cell. -/
theorem holds_iff_of_le {address n count : ℕ} {data before after : ℕ → UInt8}
    (h : Holds address n data before after) (hle : n ≤ count)
    (hsize : address + count ≤ flashSize) (herased : Erased address count before) :
    Holds address count data before after ↔ ∀ i, n ≤ i → i < count → data i = 0xFF := by
  constructor
  · intro hcount i hi hlt
    have hnew := hcount (address + i)
    have hold := h (address + i)
    rw [if_pos (by omega), Nat.add_sub_cancel_left] at hnew
    rw [if_neg (by omega), herased _ (by omega) (by omega) (by omega)] at hold
    exact hnew.symm.trans hold
  · intro hrest p
    rw [h p]
    by_cases hp : address ≤ p ∧ p < address + n
    · rw [if_pos hp, if_pos (by omega)]
    · rw [if_neg hp]
      by_cases hcount : address ≤ p ∧ p < address + count
      · rw [if_pos hcount, herased p hcount.1 hcount.2 (by omega), hrest _ (by omega) (by omega)]
      · rw [if_neg hcount]

/-- What a call leaves behind. -/
structure AllOrFailure (address count : ℕ) (data : ℕ → UInt8) (before : FlashChip)
    (result : Bool) (after : FlashChip) : Prop where
  returns : result = true ↔ address + count ≤ flashSize
  whole : result = true → Holds address count data before.cells after.cells
  front : result = false →
    ∃ n ≤ count, address + n ≤ flashSize ∧ Holds address n data before.cells after.cells
  closed : after.autoIncrement = none ∧ after.writeEnabled = false

theorem allOrFailure_true_iff {address count : ℕ} {data : ℕ → UInt8} {before after : FlashChip}
    (hclosed : after.autoIncrement = none ∧ after.writeEnabled = false) :
    AllOrFailure address count data before true after ↔
      address + count ≤ flashSize ∧ Holds address count data before.cells after.cells :=
  ⟨fun h => ⟨h.returns.1 rfl, h.whole rfl⟩,
    fun h => ⟨iff_of_true rfl h.1, fun _ => h.2, nofun, hclosed⟩⟩

/-- The call returns, and has written all or failed. -/
def WritesAllOrFails (address count : UInt32) (data : Traced UInt8)
    (bus : Bus UInt8 FlashChip) : Prop :=
  ∃ result data' bus',
    Spi.flashWriteBytes flash address data count bus = some (result, data', bus') ∧
      AllOrFailure address.toNat count.toNat data.cells bus.device result bus'.device

/-- What it takes for that : one byte, or fewer than 65536 that end before the last cell,
or more of which all but the first `count - 65536` are those of an erased cell. -/
def Fits (address count : ℕ) (data : ℕ → UInt8) : Prop :=
  count = 1 ∨ count < 0x10000 ∧ address + count < flashSize ∨
    0x10000 < count ∧ count < 0x20000 ∧ address + count ≤ flashSize ∧
      ∀ i, count - 0x10000 ≤ i → i < count → data i = 0xFF

theorem completes_of_fits {address count : ℕ} {data : ℕ → UInt8} (hpos : 1 ≤ count)
    (h : Fits address count data) :
    1 ≤ count % 0x10000 ∧ Spi.Completes address (count % 0x10000) := by
  have hsize : flashSize = 0x20000 := rfl
  unfold Spi.Completes
  rcases h with h | h | ⟨h, h', h'', -⟩ <;> omega

theorem fits_iff {address count : ℕ} {data : ℕ → UInt8} (haddress : address < flashSize)
    (hcount : count ≤ 0x20000) (hpos : 1 ≤ count % 0x10000)
    (h : Spi.Completes address (count % 0x10000)) :
    Fits address count data ↔ address + count ≤ flashSize ∧
      ∀ i, count % 0x10000 ≤ i → i < count → data i = 0xFF := by
  have hsize : flashSize = 0x20000 := rfl
  unfold Spi.Completes at h
  unfold Fits
  by_cases hlt : count < 0x10000
  · exact iff_of_true (by omega) ⟨by omega, fun i hi hi' => by omega⟩
  · have hmod : count % 0x10000 = count - 0x10000 := by omega
    rw [hmod]
    constructor
    · rintro (h | h | h)
      · omega
      · omega
      · exact ⟨h.2.2.1, h.2.2.2⟩
    · exact fun h => Or.inr (Or.inr ⟨by omega, by omega, h⟩)

variable {address count : UInt32} {bus : Bus UInt8 FlashChip}

theorem writesAllOrFails_iff_of_call {data data' : Traced UInt8} {result : Bool}
    {bus' : Bus UInt8 FlashChip}
    (h : Spi.flashWriteBytes flash address data count bus = some (result, data', bus')) :
    WritesAllOrFails address count data bus ↔
      AllOrFailure address.toNat count.toNat data.cells bus.device result bus'.device := by
  refine ⟨?_, fun hall => ⟨result, data', bus', h, hall⟩⟩
  rintro ⟨result', data'', bus'', h', hall⟩
  obtain ⟨rfl, rfl, rfl⟩ : result = result' ∧ data' = data'' ∧ bus' = bus'' := by
    simpa using h.symm.trans h'
  exact hall

/-- With a count that is 0 in 16 bits, `WREN` is all that is sent. -/
theorem flashWriteBytes_none (address : UInt32) (h : count.toUInt16 < 1) (data : Traced UInt8)
    (hbus : bus.sending = []) : Spi.flashWriteBytes flash address data count bus =
      some (false, data, (bus.transact flash [wren]).withReady) := by
  rw [Spi.flashWriteBytes, Spi.flashWriteEnable, sendBytes_eq wren hbus]
  simp only [Option.bind_eq_bind, Option.bind_some, if_true, Spi.spiMasterTxRxFastWrite, if_pos h]
  rfl

theorem bytesSent_of_completes {address n : ℕ} (hn : 1 ≤ n) (h : Spi.Completes address n) :
    bytesSent address n = n := by
  unfold Spi.Completes at h
  rw [bytesSent, Spi.fastWriteRounds, if_pos (by omega)]
  omega

/-- A call that does not get to the end of its loop leaves auto-increment on. -/
theorem not_writesAllOrFails (haddress : address.toNat < flashSize) (h : ¬count.toUInt16 < 1)
    (hcompletes : ¬Spi.Completes address.toNat count.toUInt16.toNat) (data : Traced UInt8)
    (hbus : bus.sending = []) : ¬WritesAllOrFails address count data bus := by
  obtain ⟨bus', hcall, -, hdevice⟩ := device_flashWriteBytes haddress h data hbus
  rw [writesAllOrFails_iff_of_call hcall, hdevice, if_neg hcompletes]
  exact fun hall => Option.some_ne_none _ hall.closed.1

/-- From an address of the chip, with 1 to 131072 bytes and on erased cells, a call writes
all or fails just if the data fits. -/
theorem writesAllOrFails_iff (haddress : address ≤ 0x1FFFF) (hpos : 1 ≤ count)
    (hcount : count ≤ 0x20000) (data : Traced UInt8) (hbus : bus.sending = [])
    (herased : Erased address.toNat count.toNat bus.device.cells) :
    WritesAllOrFails address count data bus ↔ Fits address.toNat count.toNat data.cells := by
  have haddress' : address.toNat < flashSize :=
    Nat.lt_succ_of_le (UInt32.le_iff_toNat_le.1 haddress)
  have hcount' : count.toNat ≤ 0x20000 := UInt32.le_iff_toNat_le.1 hcount
  have hmod : count.toUInt16.toNat = count.toNat % 0x10000 := UInt32.toNat_toUInt16 count
  have hpos' : 1 ≤ count.toNat := UInt32.le_iff_toNat_le.1 hpos
  by_cases hzero : count.toUInt16 < 1
  · have hnone := flashWriteBytes_none address hzero data hbus
    have hmod' : count.toNat % 0x10000 < 1 := hmod ▸ UInt16.lt_iff_toNat_lt.1 hzero
    rw [writesAllOrFails_iff_of_call hnone]
    -- the chip is left enabled
    exact iff_of_false (fun hall => Bool.noConfusion hall.closed.2)
      fun hfits => absurd (completes_of_fits hpos' hfits).1 (by omega)
  · have hone : 1 ≤ count.toUInt16.toNat := UInt16.le_iff_toNat_le.1 (UInt16.not_lt.1 hzero)
    by_cases hcompletes : Spi.Completes address.toNat count.toUInt16.toNat
    · obtain ⟨bus', hcall, -, hdevice⟩ := device_flashWriteBytes haddress' hzero data hbus
      have hinside : address.toNat + count.toUInt16.toNat ≤ flashSize := by
        unfold Spi.Completes at hcompletes
        unfold flashSize at *
        omega
      have hholds := holds_programAll hinside data fun p hp hlt => herased p hp (by omega)
      rw [writesAllOrFails_iff_of_call hcall, hdevice, bytesSent_of_completes hone hcompletes,
        decide_eq_true hcompletes, if_pos hcompletes, allOrFailure_true_iff ⟨rfl, rfl⟩,
        fits_iff haddress' hcount' (hmod ▸ hone) (hmod ▸ hcompletes)]
      refine and_congr_right fun hsize => ?_
      rw [← hmod]
      exact holds_iff_of_le hholds (by omega) hsize herased
    · have hnot := not_writesAllOrFails haddress' hzero hcompletes data hbus
      refine iff_of_false hnot fun hfits => ?_
      rw [hmod] at hcompletes
      exact hcompletes (completes_of_fits hpos' hfits).2

/-- A record of the logger. -/
theorem writesAllOrFails_iff_record :
    WritesAllOrFails 0x1FFF0 15 ⟨fun i => i.toUInt8, []⟩ blankBus :=
  (writesAllOrFails_iff (by decide) (by decide) (by decide) ⟨fun i => i.toUInt8, []⟩ rfl
    fun _ _ _ _ => rfl).2 (Or.inr (Or.inl (by decide)))

/-- Every call writes all or fails. -/
def AlwaysWritesAllOrFails : Prop :=
  ∀ (address count : UInt32), address ≤ 0x1FFFF → 1 ≤ count → count ≤ 0x20000 →
    ∀ (data : Traced UInt8) (bus : Bus UInt8 FlashChip), bus.sending = [] →
      Erased address.toNat count.toNat bus.device.cells →
        WritesAllOrFails address count data bus

/-- Two bytes for the last two cells. -/
theorem not_alwaysWritesAllOrFails : ¬AlwaysWritesAllOrFails := fun h =>
  not_writesAllOrFails (by decide : (0x1FFFE : UInt32).toNat < flashSize) (by decide) (by decide)
    ⟨fun _ => 7, []⟩ rfl
    (h 0x1FFFE 2 (by decide) (by decide) (by decide) ⟨fun _ => 7, []⟩ blankBus rfl
      fun _ _ _ _ => rfl)

end FlashChip

end Quadrupel
