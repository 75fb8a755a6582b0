import Quadrupel.Divider
import Quadrupel.Frame

/-!
# Which differences the CRC detects

Let `validate_message` accept `n` bytes. Whether it accepts `n` other bytes depends only
on their difference, bit by bit (`accepts_iff`) : the check is additive up to a
constant, and `syndrome` is its additive part. A difference in a single byte has the
syndrome `contribution` : the byte of the type or of the data is shifted through the
register by all bytes that follow it, but the two bytes of the CRC are compared as they
are, the low byte first, and count as zero in the division.

With a single bit each that is `x ^ e` for exponents `e` that differ for different bits
(`contribution_bit`), and the powers of `x` up to the largest of them differ too, so no
two bits cancel. The polynomial is a multiple of `x + 1`, so an odd number of bits does
not cancel either. `rejects_two_or_odd` says so for every message.
-/

open Finset

namespace Quadrupel

/-! ## The division of bytes -/

theorem toBitVec_divideBit (r : UInt16) :
    (divideBit r).toBitVec = divide polynomial.toBitVec r.toBitVec := by
  have htop : r &&& topBit ≠ 0 ↔ r.toBitVec.msb = true := by
    have hpow : topBit.toBitVec = BitVec.twoPow 16 15 := rfl
    rw [ne_eq, ← UInt16.toBitVec_inj, UInt16.toBitVec_and, hpow, BitVec.and_twoPow,
      BitVec.msb_eq_getLsbD_last]
    cases r.toBitVec.getLsbD (16 - 1) <;> decide
  unfold divideBit divide
  simp only [htop]
  split_ifs <;> simp

theorem toBitVec_iterate_divideBit (k : ℕ) (r : UInt16) :
    (divideBit^[k] r).toBitVec = (divide polynomial.toBitVec)^[k] r.toBitVec := by
  induction k generalizing r with
  | zero => rfl
  | succ k ih => rw [Function.iterate_succ_apply, ih, toBitVec_divideBit]; rfl

theorem iterate_divideBit_xor (k : ℕ) (a b : UInt16) :
    divideBit^[k] (a ^^^ b) = divideBit^[k] a ^^^ divideBit^[k] b := by
  rw [← UInt16.toBitVec_inj, UInt16.toBitVec_xor, toBitVec_iterate_divideBit,
    toBitVec_iterate_divideBit, toBitVec_iterate_divideBit, UInt16.toBitVec_xor,
    iterate_divide_xor]

theorem divideBit_injective : Function.Injective divideBit := by
  intro a b h
  rw [← UInt16.toBitVec_inj] at h ⊢
  rw [toBitVec_divideBit, toBitVec_divideBit] at h
  exact divide_injective (by decide) h

@[simp] theorem iterate_divideBit_zero (k : ℕ) : divideBit^[k] 0 = 0 :=
  Function.iterate_fixed (by decide) k

theorem toBitVec_shiftLeft_eight (r : UInt16) : (r <<< 8).toBitVec = r.toBitVec <<< 8 :=
  rfl

theorem toBitVec_shiftRight_eight (r : UInt16) : (r >>> 8).toBitVec = r.toBitVec >>> 8 :=
  rfl

/-- The byte that a step looks up, and the one that it only moves up. -/
theorem xor_shiftLeft_eq (r : UInt16) (b : UInt8) :
    r ^^^ (b.toUInt16 <<< 8) =
      ((b ^^^ (r >>> 8).toUInt8).toUInt16 <<< 8) ^^^ r.toUInt8.toUInt16 := by
  rw [← UInt16.toBitVec_inj]
  refine BitVec.eq_of_getLsbD_eq fun k hk => ?_
  simp only [UInt16.toBitVec_xor, UInt8.toBitVec_toUInt16, UInt8.toBitVec_xor,
    UInt16.toBitVec_toUInt8, BitVec.getLsbD_xor, toBitVec_shiftLeft_eight,
    toBitVec_shiftRight_eight, BitVec.getLsbD_shiftLeft, BitVec.getLsbD_setWidth,
    BitVec.getLsbD_ushiftRight]
  rcases Nat.lt_or_ge k 8 with h | h
  · simp [h, hk]
  · obtain ⟨j, rfl⟩ := Nat.exists_eq_add_of_le h
    have hj : j < 8 := by omega
    have hj16 : j < 16 := by omega
    simpa [hk, hj, hj16] using Bool.xor_comm _ _

theorem toUInt8_shiftLeft (r : UInt16) : r.toUInt8.toUInt16 <<< 8 = r <<< 8 := by
  rw [← UInt16.toNat_inj]
  simp [UInt16.toNat_shiftLeft, Nat.shiftLeft_eq]
  omega

/-- Eight rounds move a byte to the top of the register. -/
theorem iterate_divideBit_toUInt16 (b : UInt8) : divideBit^[8] b.toUInt16 = b.toUInt16 <<< 8 := by
  have hlt : b.toUInt16.toBitVec.toNat * 2 ^ 8 < 2 ^ 16 := by
    have := b.toNat_lt
    change b.toUInt16.toNat * 2 ^ 8 < 2 ^ 16
    rw [UInt8.toNat_toUInt16]
    omega
  rw [← UInt16.toBitVec_inj, toBitVec_iterate_divideBit, iterate_divide_of_lt _ hlt]
  rfl

/-- Eight rounds at once : the table has those of the high byte, and the low byte only
moves up. -/
theorem crcStep_eq (r : UInt16) (b : UInt8) :
    crcStep r b = divideBit^[8] (r ^^^ (b.toUInt16 <<< 8)) := by
  rw [xor_shiftLeft_eq, iterate_divideBit_xor, iterate_divideBit_toUInt16, toUInt8_shiftLeft,
    crcStep, crcTable]

theorem crcStep_xor (r s : UInt16) (b c : UInt8) :
    crcStep (r ^^^ s) (b ^^^ c) = crcStep r b ^^^ crcStep s c := by
  rw [crcStep_eq, crcStep_eq, crcStep_eq, ← iterate_divideBit_xor, UInt8.toUInt16_xor,
    UInt16.shiftLeft_xor]
  ac_rfl

theorem foldl_crcStep_xor (r s : UInt16) {bs cs : List UInt8} (h : bs.length = cs.length) :
    (bs.zipWith (· ^^^ ·) cs).foldl crcStep (r ^^^ s) =
      bs.foldl crcStep r ^^^ cs.foldl crcStep s := by
  induction bs generalizing r s cs with
  | nil =>
    rw [List.length_nil, eq_comm, List.length_eq_zero_iff] at h
    rw [h]
    rfl
  | cons b bs ih =>
    obtain ⟨c, cs, rfl⟩ := List.exists_cons_of_length_eq_add_one h.symm
    rw [List.zipWith_cons_cons, List.foldl_cons, crcStep_xor, ih _ _ (Nat.succ.inj h)]
    rfl

/-! ## The syndrome -/

/-- What the CRC check sees of the difference between two messages. -/
def syndrome (bs : List UInt8) : UInt16 :=
  crcField bs ^^^ (clearCrc bs).foldl crcStep 0

/-- Byte `k` of the packed struct. -/
def Message.byte (m : Message) (k : ℕ) : UInt8 :=
  m.toList.getD k 0

/-- The difference between the first `n` bytes of two messages. -/
def Message.difference (m m' : Message) (n : ℕ) : List UInt8 :=
  (m.bytes n).zipWith (· ^^^ ·) (m'.bytes n)

theorem getD_zipWith_xor {bs cs : List UInt8} (h : bs.length = cs.length) (k : ℕ) :
    (bs.zipWith (· ^^^ ·) cs).getD k 0 = bs.getD k 0 ^^^ cs.getD k 0 := by
  rcases Nat.lt_or_ge k bs.length with hk | hk
  · have hk' : k < cs.length := h ▸ hk
    simp [hk, hk']
  · have hk' : cs.length ≤ k := h ▸ hk
    simp [hk, hk']

/-- Two bytes put together do not overlap. -/
theorem add_shiftLeft_eq_xor (low high : UInt8) :
    low.toUInt16 + (high.toUInt16 <<< 8) = low.toUInt16 ^^^ (high.toUInt16 <<< 8) := by
  have hbit : ∀ k, low.toUInt16.toBitVec.getLsbD k = false ∨
      (high.toUInt16 <<< 8).toBitVec.getLsbD k = false := by
    intro k
    simp only [UInt8.toBitVec_toUInt16, toBitVec_shiftLeft_eight, BitVec.getLsbD_shiftLeft,
      BitVec.getLsbD_setWidth]
    rcases Nat.lt_or_ge k 8 with hk | hk
    · exact .inr (by simp [hk])
    · exact .inl (by simp [hk])
  rw [← UInt16.toBitVec_inj, UInt16.toBitVec_add, UInt16.toBitVec_xor,
    BitVec.add_eq_or_of_and_eq_zero]
  · refine BitVec.eq_of_getLsbD_eq fun k hk => ?_
    rw [BitVec.getLsbD_or, BitVec.getLsbD_xor]
    rcases hbit k with h | h <;> rw [h] <;> simp
  · refine BitVec.eq_of_getLsbD_eq fun k hk => ?_
    rw [BitVec.getLsbD_and, BitVec.getLsbD_zero]
    rcases hbit k with h | h <;> rw [h] <;> simp

theorem crcField_eq (bs : List UInt8) :
    crcField bs = (bs.getD 1 0).toUInt16 ^^^ ((bs.getD 2 0).toUInt16 <<< 8) :=
  add_shiftLeft_eq_xor _ _

theorem crcField_zipWith {bs cs : List UInt8} (h : bs.length = cs.length) :
    crcField (bs.zipWith (· ^^^ ·) cs) = crcField bs ^^^ crcField cs := by
  rw [crcField_eq, crcField_eq, crcField_eq, getD_zipWith_xor h, getD_zipWith_xor h,
    UInt8.toUInt16_xor, UInt8.toUInt16_xor, UInt16.shiftLeft_xor]
  ac_rfl

theorem clearCrc_zipWith (bs cs : List UInt8) :
    clearCrc (bs.zipWith (· ^^^ ·) cs) = (clearCrc bs).zipWith (· ^^^ ·) (clearCrc cs) := by
  apply List.ext_getElem
  · simp [clearCrc]
  · intro k _ _
    simp only [clearCrc, List.getElem_zipWith, List.getElem_set]
    split_ifs <;> simp

theorem length_clearCrc (bs : List UInt8) : (clearCrc bs).length = bs.length := by
  simp [clearCrc]

/-- The remainder that the fold starts with cancels in a difference. -/
theorem syndrome_zipWith_eq (r : UInt16) {bs cs : List UInt8} (h : bs.length = cs.length) :
    syndrome (bs.zipWith (· ^^^ ·) cs) =
      (crcField bs ^^^ (clearCrc bs).foldl crcStep r) ^^^
        (crcField cs ^^^ (clearCrc cs).foldl crcStep r) := by
  have hclear : (clearCrc bs).length = (clearCrc cs).length := by
    rw [length_clearCrc, length_clearCrc, h]
  have hfold := foldl_crcStep_xor r r hclear
  rw [UInt16.xor_self] at hfold
  rw [syndrome, crcField_zipWith h, clearCrc_zipWith, hfold]
  ac_rfl

theorem syndrome_zipWith {bs cs : List UInt8} (h : bs.length = cs.length) :
    syndrome (bs.zipWith (· ^^^ ·) cs) = syndrome bs ^^^ syndrome cs :=
  syndrome_zipWith_eq 0 h

theorem length_bytes (m : Message) {n : ℕ} (hn : n ≤ sizeofMessage) : (m.bytes n).length = n := by
  simp [Message.bytes, hn]

/-- The bytes with the CRC that `validate_message` computes added to the one they carry. -/
def check (bs : List UInt8) : UInt16 :=
  crcField bs ^^^ crcFast (clearCrc bs)

theorem validateMessage_iff (m : Message) {n : ℕ} (h3 : 3 ≤ n) (hn : n ≤ sizeofMessage) :
    (validateMessage m n).1 = true ↔ check (m.bytes n) = 0 := by
  rw [validateMessage_of_le m hn, check, crcField_bytes m h3, beq_iff_eq, UInt16.xor_eq_zero_iff]

theorem syndrome_difference (m m' : Message) {n : ℕ} (hn : n ≤ sizeofMessage) :
    syndrome (m.difference m' n) = check (m.bytes n) ^^^ check (m'.bytes n) := by
  have hlen : (m.bytes n).length = (m'.bytes n).length := by
    rw [length_bytes m hn, length_bytes m' hn]
  exact syndrome_zipWith_eq initialRemainder hlen

/-- Next to an accepted message another one is accepted iff the difference has no
syndrome. -/
theorem accepts_iff {m : Message} {n : ℕ} (h3 : 3 ≤ n) (hn : n ≤ sizeofMessage)
    (hm : (validateMessage m n).1 = true) (m' : Message) :
    (validateMessage m' n).1 = true ↔ syndrome (m.difference m' n) = 0 := by
  rw [validateMessage_iff m h3 hn] at hm
  rw [validateMessage_iff m' h3 hn, syndrome_difference m m' hn, hm, UInt16.zero_xor]

/-! ## Differences in one byte -/

/-- `n` bytes, all of them zero except for byte `i`. -/
def single (n i : ℕ) (b : UInt8) : List UInt8 :=
  (List.replicate n 0).set i b

/-- The syndrome of a difference in byte `i`. -/
def contribution (n i : ℕ) (b : UInt8) : UInt16 :=
  if i = 1 then b.toUInt16
  else if i = 2 then b.toUInt16 <<< 8
  else divideBit^[8 * (n - i)] (b.toUInt16 <<< 8)

theorem foldl_crcStep_replicate (k : ℕ) (r : UInt16) :
    (List.replicate k 0).foldl crcStep r = divideBit^[8 * k] r := by
  induction k generalizing r with
  | zero => rfl
  | succ k ih =>
    have hzero : r ^^^ (UInt8.toUInt16 0 <<< 8) = r := by simp
    rw [List.replicate_succ, List.foldl_cons, ih, crcStep_eq, hzero, Nat.mul_succ,
      Function.iterate_add_apply]

theorem foldl_crcStep_single {n i : ℕ} (hi : i < n) (b : UInt8) :
    (single n i b).foldl crcStep 0 = divideBit^[8 * (n - i)] (b.toUInt16 <<< 8) := by
  have hsplit : single n i b = List.replicate i 0 ++ b :: List.replicate (n - (i + 1)) 0 := by
    rw [single, List.set_eq_take_append_cons_drop, if_pos (by simpa using hi), List.take_replicate,
      List.drop_replicate, Nat.min_eq_left hi.le]
  obtain ⟨k, rfl⟩ := Nat.exists_eq_add_of_lt hi
  have hk : i + k + 1 - (i + 1) = k := by omega
  have hk1 : 8 * (i + k + 1 - i) = 8 * k + 8 := by omega
  rw [hsplit, hk, List.foldl_append, foldl_crcStep_replicate, iterate_divideBit_zero,
    List.foldl_cons, foldl_crcStep_replicate, crcStep_eq, UInt16.zero_xor, hk1,
    Function.iterate_add_apply]

@[simp] theorem getD_single {n i : ℕ} (hi : i < n) (b : UInt8) (k : ℕ) :
    (single n i b).getD k 0 = if i = k then b else 0 := by
  rw [single, List.getD_eq_getElem?_getD, List.getElem?_set, List.getElem?_replicate,
    List.length_replicate, if_pos hi]
  split_ifs <;> rfl

/-- The two bytes of the CRC count as zero in the division. -/
theorem clearCrc_single {n i : ℕ} (b : UInt8) :
    clearCrc (single n i b) = if i = 1 ∨ i = 2 then List.replicate n 0 else single n i b := by
  split_ifs with h
  · apply List.ext_getElem
    · simp [clearCrc, single]
    · intro k _ _
      simp only [clearCrc, single, List.getElem_set, List.getElem_replicate]
      grind
  · apply List.ext_getElem
    · simp [clearCrc, single]
    · intro k _ _
      simp only [clearCrc, single, List.getElem_set, List.getElem_replicate]
      grind

theorem syndrome_single {n i : ℕ} (hi : i < n) (b : UInt8) :
    syndrome (single n i b) = contribution n i b := by
  rw [syndrome, crcField_eq, getD_single hi, getD_single hi, clearCrc_single, contribution]
  by_cases h1 : i = 1
  · simp [h1, foldl_crcStep_replicate]
  by_cases h2 : i = 2
  · simp [h2, foldl_crcStep_replicate]
  · simp [h1, h2, foldl_crcStep_single hi]

/-! ## Bits -/

/-- The first `n` bytes of a message, bit by bit. -/
def Message.bits (m : Message) (n : ℕ) : Fin n × Fin 8 → Bool :=
  fun p => (m.byte p.1).toBitVec.getLsbD p.2

/-- The byte with bit `j` alone. -/
def bit (j : ℕ) : UInt8 :=
  ⟨BitVec.twoPow 8 j⟩

theorem getLsbD_bit {j : ℕ} (hj : j < 8) (l : ℕ) : (bit j).toBitVec.getLsbD l = decide (j = l) := by
  simp [bit, BitVec.getLsbD_twoPow, hj]

theorem getLsbD_single {n i j k : ℕ} (hj : j < 8) (hk : k < (single n i (bit j)).length) (l : ℕ) :
    (single n i (bit j))[k].toBitVec.getLsbD l = decide (i = k ∧ j = l) := by
  simp only [single, List.getElem_set, List.getElem_replicate]
  split_ifs with h <;> simp [getLsbD_bit hj, h]

/-- The power of `x` that bit `j` of byte `i` stands for. -/
def exponent (n i j : ℕ) : ℕ :=
  if i = 1 then j else if i = 2 then 8 + j else 8 * (n - i) + (8 + j)

theorem toBitVec_iterate_divideBit_one {k : ℕ} (hk : k < 16) :
    (divideBit^[k] 1).toBitVec = 1#16 <<< k := by
  rw [toBitVec_iterate_divideBit]
  refine iterate_divide_of_lt _ ?_
  have : (1 : UInt16).toBitVec.toNat * 2 ^ k = 2 ^ k := one_mul _
  rw [this]
  exact Nat.pow_lt_pow_right (by decide) hk

theorem toUInt16_bit {j : ℕ} (hj : j < 8) : (bit j).toUInt16 = divideBit^[j] 1 := by
  rw [← UInt16.toBitVec_inj, toBitVec_iterate_divideBit_one (by omega)]
  interval_cases j <;> rfl

theorem toUInt16_bit_shiftLeft {j : ℕ} (hj : j < 8) :
    (bit j).toUInt16 <<< 8 = divideBit^[8 + j] 1 := by
  rw [← UInt16.toBitVec_inj, UInt16.toBitVec_shiftLeft, toUInt16_bit hj,
    toBitVec_iterate_divideBit_one (by omega), toBitVec_iterate_divideBit_one (by omega),
    Nat.add_comm, BitVec.shiftLeft_add]
  rfl

theorem contribution_bit (n i : ℕ) {j : ℕ} (hj : j < 8) :
    contribution n i (bit j) = divideBit^[exponent n i j] 1 := by
  unfold contribution exponent
  split_ifs
  · exact toUInt16_bit hj
  · exact toUInt16_bit_shiftLeft hj
  · rw [toUInt16_bit_shiftLeft hj, ← Function.iterate_add_apply]

theorem exponent_injective {n i j i' j' : ℕ} (hi : i < n) (hi' : i' < n) (hj : j < 8)
    (hj' : j' < 8) (h : exponent n i j = exponent n i' j') : i = i' ∧ j = j' := by
  unfold exponent at h
  split_ifs at h <;> omega

theorem exponent_lt {n i j : ℕ} (hn : n ≤ sizeofMessage) (hj : j < 8) : exponent n i j < 376 := by
  have h45 : n ≤ 45 := hn
  unfold exponent
  split_ifs <;> omega

/-- The powers of `x` up to the largest that a message uses are not 1. -/
theorem iterate_divideBit_one_ne {k : ℕ} (hk : 0 < k) (hlt : k < 376) : divideBit^[k] 1 ≠ 1 := by
  have hlist : 1 ∉ List.iterate divideBit (divideBit 1) 375 := by decide +kernel
  intro h
  refine hlist (List.mem_iterate.2 ⟨k - 1, by omega, ?_⟩)
  rw [← Function.iterate_succ_apply, Nat.succ_eq_add_one, Nat.sub_add_cancel hk, h]

theorem iterate_divideBit_one_inj {k l : ℕ} (hk : k < 376) (hl : l < 376)
    (h : divideBit^[k] 1 = divideBit^[l] 1) : k = l := by
  wlog hle : k ≤ l generalizing k l
  · exact (this hl hk h.symm (by omega)).symm
  obtain ⟨d, rfl⟩ := Nat.exists_eq_add_of_le hle
  rw [Function.iterate_add_apply] at h
  have hone := (divideBit_injective.iterate k h).symm
  by_contra hne
  exact iterate_divideBit_one_ne (by omega) (by omega) hone

theorem contribution_bit_inj {n i j i' j' : ℕ} (hn : n ≤ sizeofMessage) (hi : i < n)
    (hi' : i' < n) (hj : j < 8) (hj' : j' < 8)
    (h : contribution n i (bit j) = contribution n i' (bit j')) : i = i' ∧ j = j' := by
  rw [contribution_bit n i hj, contribution_bit n i' hj'] at h
  exact exponent_injective hi hi' hj hj' <|
    iterate_divideBit_one_inj (exponent_lt hn hj) (exponent_lt hn hj') h

theorem difference_eq_ofFn (m m' : Message) {n : ℕ} (hn : n ≤ sizeofMessage) :
    m.difference m' n =
      List.ofFn fun i : Fin n => m.byte i ^^^ m'.byte i := by
  apply List.ext_getElem
  · simp [Message.difference, Message.bytes, hn]
  · intro k hk hk'
    rw [List.length_ofFn] at hk'
    have h45 : k < sizeofMessage := by omega
    simp [Message.difference, Message.bytes, Message.byte, h45]

/-- Two messages that differ in two bits differ by the two bytes that have them. -/
theorem difference_of_two {m m' : Message} {n : ℕ} (hn : n ≤ sizeofMessage)
    (h : hammingDist (m.bits n) (m'.bits n) = 2) :
    ∃ i < n, ∃ j < 8, ∃ i' < n, ∃ j' < 8, ¬(i = i' ∧ j = j') ∧
      m.difference m' n = (single n i (bit j)).zipWith (· ^^^ ·) (single n i' (bit j')) := by
  obtain ⟨p, q, hpq, hset⟩ := card_eq_two.1 h
  have hbits : ∀ r, (m.bits n r ^^ m'.bits n r) = (decide (p = r) ^^ decide (q = r)) := fun r => by
    have hr : m.bits n r ≠ m'.bits n r ↔ r = p ∨ r = q := by simpa using congrArg (r ∈ ·) hset
    by_cases hp : p = r
    · have hq : q ≠ r := fun hq => hpq (hp.trans hq.symm)
      simpa [hp, hq] using hr.2 (.inl hp.symm)
    by_cases hq : q = r
    · simpa [hp, hq] using hr.2 (.inr hq.symm)
    · simpa [hp, hq, Ne.symm hp, Ne.symm hq] using hr
  refine ⟨p.1, p.1.isLt, p.2, p.2.isLt, q.1, q.1.isLt, q.2, q.2.isLt, ?_, ?_⟩
  · exact fun heq => hpq (Prod.ext (Fin.ext heq.1) (Fin.ext heq.2))
  rw [difference_eq_ofFn m m' hn]
  apply List.ext_getElem
  · simp [single]
  · intro k hk _
    rw [List.length_ofFn] at hk
    rw [List.getElem_ofFn, List.getElem_zipWith, ← UInt8.toBitVec_inj]
    refine BitVec.eq_of_getLsbD_eq fun l hl => ?_
    have hkl := hbits (⟨k, hk⟩, ⟨l, hl⟩)
    rw [UInt8.toBitVec_xor, UInt8.toBitVec_xor, BitVec.getLsbD_xor, BitVec.getLsbD_xor,
      getLsbD_single p.2.isLt, getLsbD_single q.2.isLt]
    simpa [Message.bits, Prod.ext_iff, Fin.ext_iff] using hkl

/-- Two bits that differ do not cancel. -/
theorem rejects_two {m m' : Message} {n : ℕ} (h3 : 3 ≤ n) (hn : n ≤ sizeofMessage)
    (hm : (validateMessage m n).1 = true) (h : hammingDist (m.bits n) (m'.bits n) = 2) :
    (validateMessage m' n).1 = false := by
  obtain ⟨i, hi, j, hj, i', hi', j', hj', hne, hdiff⟩ := difference_of_two hn h
  rw [Bool.eq_false_iff, ne_eq, accepts_iff h3 hn hm, hdiff, syndrome_zipWith (by simp [single]),
    syndrome_single hi, syndrome_single hi', UInt16.xor_eq_zero_iff]
  exact fun heq => hne (contribution_bit_inj hn hi hi' hj hj' heq)

/-! ## The parity of the bits -/

theorem parity_divideBit (r : UInt16) : parity (divideBit r).toBitVec = parity r.toBitVec := by
  rw [toBitVec_divideBit, parity_divide (by decide)]

theorem parity_iterate_divideBit (k : ℕ) (r : UInt16) :
    parity (divideBit^[k] r).toBitVec = parity r.toBitVec := by
  induction k generalizing r with
  | zero => rfl
  | succ k ih => rw [Function.iterate_succ_apply, ih, parity_divideBit]

theorem parity_toUInt16 (b : UInt8) : parity b.toUInt16.toBitVec = parity b.toBitVec := by
  rw [UInt8.toBitVec_toUInt16, parity_setWidth (by decide)]

theorem parity_shiftLeft_toUInt16 (b : UInt8) :
    parity (b.toUInt16 <<< 8).toBitVec = parity b.toBitVec := by
  rw [← iterate_divideBit_toUInt16, parity_iterate_divideBit, parity_toUInt16]

@[simp] theorem parity_zero (w : ℕ) : parity 0#w = 0 := by
  simp [parity]

theorem parity_crcStep (r : UInt16) (b : UInt8) :
    parity (crcStep r b).toBitVec = parity r.toBitVec + parity b.toBitVec := by
  rw [crcStep_eq, parity_iterate_divideBit, UInt16.toBitVec_xor, parity_xor,
    parity_shiftLeft_toUInt16]

theorem parity_foldl_crcStep (r : UInt16) (bs : List UInt8) :
    parity (bs.foldl crcStep r).toBitVec =
      parity r.toBitVec + (bs.map fun b => parity b.toBitVec).sum := by
  induction bs generalizing r with
  | nil => simp
  | cons b bs ih =>
    rw [List.foldl_cons, ih, parity_crcStep, List.map_cons, List.sum_cons, add_assoc]

/-- The polynomial is a multiple of `x + 1`, so the syndrome has the parity of the
difference. -/
theorem parity_syndrome {bs : List UInt8} (h3 : 3 ≤ bs.length) :
    parity (syndrome bs).toBitVec = (bs.map fun b => parity b.toBitVec).sum := by
  obtain ⟨a, low, high, bs, rfl⟩ : ∃ a low high bs', bs = a :: low :: high :: bs' := by
    rcases bs with _ | ⟨a, _ | ⟨low, _ | ⟨high, bs⟩⟩⟩
    · simp at h3
    · simp at h3
    · simp at h3
    · exact ⟨a, low, high, bs, rfl⟩
  have hclear : clearCrc (a :: low :: high :: bs) = a :: 0 :: 0 :: bs := rfl
  rw [syndrome, crcField_eq, hclear, UInt16.toBitVec_xor, UInt16.toBitVec_xor, parity_xor,
    parity_xor, parity_foldl_crcStep, parity_toUInt16, parity_shiftLeft_toUInt16]
  have hzero : parity (0 : UInt8).toBitVec = 0 := parity_zero 8
  have hzero16 : parity (0 : UInt16).toBitVec = 0 := parity_zero 16
  have hlow : (a :: low :: high :: bs).getD 1 0 = low := rfl
  have hhigh : (a :: low :: high :: bs).getD 2 0 = high := rfl
  simp only [List.map_cons, List.sum_cons, hzero, hzero16, hlow, hhigh]
  ring

/-- The number of bits that differ, modulo 2. -/
theorem hammingDist_cast (m m' : Message) {n : ℕ} (hn : n ≤ sizeofMessage) :
    (hammingDist (m.bits n) (m'.bits n) : ZMod 2) =
      ((m.difference m' n).map fun b => parity b.toBitVec).sum := by
  rw [difference_eq_ofFn m m' hn, List.map_ofFn, List.sum_ofFn, hammingDist, card_filter,
    Nat.cast_sum, Fintype.sum_prod_type]
  refine sum_congr rfl fun i _ => ?_
  rw [Function.comp_apply, parity, sum_range]
  refine sum_congr rfl fun j _ => ?_
  rw [UInt8.toBitVec_xor, BitVec.getLsbD_xor, Message.bits, Message.bits]
  cases (m.byte i).toBitVec.getLsbD j <;> cases (m'.byte i).toBitVec.getLsbD j <;> rfl

/-- An odd number of bits that differ does not cancel. -/
theorem rejects_odd {m m' : Message} {n : ℕ} (h3 : 3 ≤ n) (hn : n ≤ sizeofMessage)
    (hm : (validateMessage m n).1 = true) (h : Odd (hammingDist (m.bits n) (m'.bits n))) :
    (validateMessage m' n).1 = false := by
  rw [Bool.eq_false_iff, ne_eq, accepts_iff h3 hn hm]
  intro hzero
  have hlen : 3 ≤ (m.difference m' n).length := by simpa [difference_eq_ofFn m m' hn] using h3
  have hpar := parity_syndrome hlen
  rw [hzero, ← hammingDist_cast m m' hn, ZMod.natCast_eq_one_iff_odd.2 h] at hpar
  exact absurd hpar (by decide)

/-- `validate_message` rejects what differs from an accepted message in two bits, or in
an odd number of them. -/
theorem rejects_two_or_odd {m m' : Message} {n : ℕ} (h3 : 3 ≤ n) (hn : n ≤ sizeofMessage)
    (hm : (validateMessage m n).1 = true)
    (h : hammingDist (m.bits n) (m'.bits n) = 2 ∨ Odd (hammingDist (m.bits n) (m'.bits n))) :
    (validateMessage m' n).1 = false :=
  h.elim (rejects_two h3 hn hm) (rejects_odd h3 hn hm)

theorem rejects_two_or_odd_mode :
    (validateMessage ((buildMessage 1 [2]).2.setData 0 1) 4).1 = false :=
  rejects_two_or_odd (m := (buildMessage 1 [2]).2) (by decide) (by decide) (by decide +kernel)
    (.inl (by decide +kernel))

end Quadrupel
