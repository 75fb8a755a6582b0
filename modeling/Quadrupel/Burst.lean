import Quadrupel.Syndrome

/-!
# Bursts in two adjacent bytes

A CRC behind the data detects every burst that is no longer than itself. Here the CRC
stands between the type and the data, and that is so only away from its edges. For the
bytes `i` and `i + 1` of a message of `n` bytes (`burst_rejected_iff`) :

* inside the CRC and inside the data every difference is detected;
* type and CRC : the type is shifted over the `n + 1` bytes that follow it in the
  register, and the difference is missed if this gives the difference of the low byte of
  the CRC;
* CRC and data : the first byte of the data is shifted over `n - 3` bytes, and the
  difference is missed if this gives the difference of the high byte of the CRC.

A byte other than 0 that such a shift takes to a byte exists for few lengths only
(`exists_meets_iff`). They are found with the register as a number, `divideNat`; as a
shift is additive, those of the eight bits give those of all bytes (`combinations`).
-/

namespace Quadrupel

/-! ## Shifts that take a byte to a byte -/

/-- `divideBit` on numbers. -/
def divideNat (r : ℕ) : ℕ :=
  (2 * r) ^^^ (r / 0x8000 * 0x11021)

theorem toNat_divideBit (r : UInt16) : (divideBit r).toNat = divideNat r.toNat := by
  have hlt := r.toNat_lt
  have hshift : (r.toBitVec <<< 1).toNat = 2 * r.toNat % 2 ^ 16 := by
    rw [BitVec.toNat_shiftLeft, Nat.shiftLeft_eq, pow_one, Nat.mul_comm]
    rfl
  have htop : r.toBitVec.msb = decide (2 ^ 15 ≤ r.toNat) := BitVec.msb_eq_decide _
  rw [← UInt16.toNat_toBitVec, toBitVec_divideBit, divide, htop, divideNat]
  simp only [decide_eq_true_eq]
  split_ifs with h
  · have hdiv : r.toNat / 0x8000 = 1 := by omega
    have hhigh : (2 * r.toNat ^^^ 0x11021) / 2 ^ 16 = 0 := by
      have hr : 2 * r.toNat / 2 ^ 16 = 1 := by omega
      rw [Nat.xor_div_two_pow, hr]
      rfl
    rw [BitVec.toNat_xor, hshift, hdiv, one_mul]
    have hmod : (2 * r.toNat ^^^ 0x11021) % 2 ^ 16 = 2 * r.toNat % 2 ^ 16 ^^^ 0x1021 :=
      Nat.xor_mod_two_pow
    exact hmod.symm.trans (Nat.mod_eq_of_lt (by omega))
  · have hdiv : r.toNat / 0x8000 = 0 := by omega
    rw [hshift, hdiv, zero_mul, Nat.xor_zero]
    omega

theorem toNat_iterate_divideBit (k : ℕ) (r : UInt16) :
    (divideBit^[k] r).toNat = divideNat^[k] r.toNat := by
  induction k generalizing r with
  | zero => rfl
  | succ k ih => rw [Function.iterate_succ_apply, ih, toNat_divideBit]; rfl

/-- Shifted over `k` bytes, `δ` is `ε`. -/
def Meets (k : ℕ) (δ ε : UInt8) : Prop :=
  divideBit^[8 * k] δ.toUInt16 = ε.toUInt16

/-- The shifts over 1 to 46 bytes that take some byte to a byte, each with the first
such byte. -/
def meetings : List (ℕ × UInt8) :=
  [(2, 137), (3, 239), (7, 113), (8, 93), (11, 26), (12, 133), (15, 119), (16, 227), (19, 3),
    (21, 14), (23, 177), (26, 117), (27, 94), (34, 115), (37, 227), (39, 123), (45, 87)]

theorem meets_of_mem : ∀ p ∈ meetings, p.2 ≠ 0 ∧ divideNat^[8 * p.1] p.2.toNat < 256 := by
  decide +kernel

theorem meets_iff (k : ℕ) (δ ε : UInt8) :
    Meets k δ ε ↔ divideNat^[8 * k] δ.toNat = ε.toNat := by
  rw [Meets, ← UInt16.toNat_inj, toNat_iterate_divideBit, UInt8.toNat_toUInt16,
    UInt8.toNat_toUInt16]

theorem Meets.eq_zero {k : ℕ} {δ ε : UInt8} (h : Meets k δ ε) (hδ : δ = 0) : ε = 0 := by
  have hzero : (0 : UInt8).toUInt16 = 0 := rfl
  rw [Meets, hδ, hzero, iterate_divideBit_zero, eq_comm, ← hzero] at h
  exact UInt8.toUInt16_inj.1 h

theorem iterate_divideNat_xor (m : ℕ) (a b : UInt8) :
    divideNat^[m] (a ^^^ b).toNat = divideNat^[m] a.toNat ^^^ divideNat^[m] b.toNat := by
  rw [← UInt8.toNat_toUInt16, ← UInt8.toNat_toUInt16 a, ← UInt8.toNat_toUInt16 b,
    ← toNat_iterate_divideBit, ← toNat_iterate_divideBit, ← toNat_iterate_divideBit,
    UInt8.toUInt16_xor, iterate_divideBit_xor, UInt16.toNat_xor]

theorem toNat_bit {j : ℕ} (hj : j < 8) : (bit j).toNat = 2 ^ j := by
  interval_cases j <;> rfl

/-- The numbers with a single bit, below `2 ^ n`. -/
def powers : ℕ → List ℕ
  | 0 => []
  | n + 1 => 2 ^ n :: powers n

/-- What the numbers add up to, bit by bit, with each taken or not. -/
def combinations : List ℕ → List ℕ
  | [] => [0]
  | v :: vs => combinations vs ++ (combinations vs).map (v ^^^ ·)

/-- A byte without the bits from `n` on is shifted to a combination of the shifted bits. -/
theorem iterate_divideNat_mem (m : ℕ) {n : ℕ} (hn : n ≤ 8) {δ : UInt8}
    (h : ∀ l, n ≤ l → δ.toBitVec.getLsbD l = false) :
    divideNat^[m] δ.toNat ∈ combinations ((powers n).map divideNat^[m]) := by
  induction n generalizing δ with
  | zero =>
    have hzero : δ = 0 := by
      rw [← UInt8.toBitVec_inj]
      exact BitVec.eq_of_getLsbD_eq fun l _ => (h l l.zero_le).trans (BitVec.getLsbD_zero).symm
    rw [hzero]
    exact List.mem_singleton.2 (Function.iterate_fixed (by decide) m)
  | succ n ih =>
    cases hbit : δ.toBitVec.getLsbD n with
    | false =>
      refine List.mem_append_left _ (ih (by omega) fun l hl => ?_)
      rcases hl.eq_or_lt with rfl | hlt
      · exact hbit
      · exact h l hlt
    | true =>
      have hsplit : δ = bit n ^^^ (bit n ^^^ δ) := by
        rw [← UInt8.xor_assoc, UInt8.xor_self, UInt8.zero_xor]
      rw [hsplit, iterate_divideNat_xor, toNat_bit (by omega)]
      refine List.mem_append_right _ (List.mem_map_of_mem (ih (by omega) fun l hl => ?_))
      rw [UInt8.toBitVec_xor, BitVec.getLsbD_xor, getLsbD_bit (by omega)]
      rcases hl.eq_or_lt with rfl | hlt
      · rw [hbit]
        simp
      · rw [h l hlt]
        simp [hlt.ne]

theorem iterate_divideNat_ne_zero (m : ℕ) {δ : UInt8} (hδ : δ ≠ 0) :
    divideNat^[m] δ.toNat ≠ 0 := by
  intro h
  have hzero : divideBit^[m] δ.toUInt16 = divideBit^[m] (0 : UInt8).toUInt16 := by
    rw [← UInt16.toNat_inj, toNat_iterate_divideBit, UInt8.toNat_toUInt16, h]
    exact (congrArg UInt16.toNat (iterate_divideBit_zero m)).symm
  exact hδ (UInt8.toUInt16_inj.1 (divideBit_injective.iterate m hzero))

theorem iterate_map {α : Type*} (f : α → α) (m : ℕ) (l : List α) :
    (List.map f)^[m] l = l.map f^[m] := by
  induction m generalizing l with
  | zero => simp
  | succ m ih => rw [Function.iterate_succ_apply, ih, List.map_map, Function.iterate_succ]

/-- For the other lengths the eight shifted bits combine to no byte but 0. -/
theorem combinations_table :
    ∀ p ∈ (List.iterate (List.map divideNat^[8]) ((powers 8).map divideNat^[8]) 46).zipIdx,
      p.2 + 1 ∈ meetings.map Prod.fst ∨ ∀ v ∈ combinations p.1, v = 0 ∨ 256 ≤ v := by
  decide +kernel

/-- The lengths of the shifts that take some byte other than 0 to a byte. -/
theorem exists_meets_iff {k : ℕ} (h1 : 1 ≤ k) (h46 : k ≤ 46) :
    (∃ δ ε, δ ≠ 0 ∧ Meets k δ ε) ↔ k ∈ meetings.map Prod.fst := by
  constructor
  · rintro ⟨δ, ε, hδ, h⟩
    rw [meets_iff] at h
    have hrow : (List.map divideNat^[8])^[k - 1] ((powers 8).map divideNat^[8]) =
        (powers 8).map divideNat^[8 * k] := by
      rw [iterate_map, List.map_map, ← Function.iterate_succ, Nat.succ_eq_add_one,
        Nat.sub_add_cancel h1, Function.iterate_mul]
    have hmem : ((powers 8).map divideNat^[8 * k], k - 1) ∈
        (List.iterate (List.map divideNat^[8]) ((powers 8).map divideNat^[8]) 46).zipIdx := by
      rw [List.mem_zipIdx_iff_getElem?, List.getElem?_iterate _ _ _ _ (by omega), hrow]
    have hcomb := iterate_divideNat_mem (8 * k) le_rfl fun l hl =>
      BitVec.getLsbD_of_ge δ.toBitVec l hl
    rcases combinations_table _ hmem with hlist | hbig
    · rwa [Nat.sub_add_cancel h1] at hlist
    · have hlt := ε.toNat_lt
      rcases hbig _ hcomb with hzero | h256
      · exact absurd hzero (iterate_divideNat_ne_zero _ hδ)
      · omega
  · intro h
    obtain ⟨⟨k, δ⟩, hp, rfl⟩ := List.mem_map.1 h
    obtain ⟨hδ, hlt⟩ := meets_of_mem _ hp
    refine ⟨δ, UInt8.ofNat (divideNat^[8 * k] δ.toNat), hδ, (meets_iff _ _ _).2 ?_⟩
    rw [UInt8.toNat_ofNat_of_lt' hlt]

/-! ## Adjacent bytes -/

/-- The two differences, in the bytes `i` and `i + 1` of `n` bytes, have one syndrome. -/
def Cancels (n i : ℕ) (δ ε : UInt8) : Prop :=
  contribution n i δ = contribution n (i + 1) ε

/-- A byte and a byte moved up overlap only in 0. -/
theorem toUInt16_eq_shiftLeft {a b : UInt8} : a.toUInt16 = b.toUInt16 <<< 8 ↔ a = 0 ∧ b = 0 := by
  have ha := a.toNat_lt
  have hb := b.toNat_lt
  rw [← UInt16.toNat_inj, ← UInt8.toNat_inj, ← UInt8.toNat_inj]
  simp [UInt16.toNat_shiftLeft, Nat.shiftLeft_eq]
  omega

theorem contribution_of_ne (n : ℕ) {i : ℕ} (h1 : i ≠ 1) (h2 : i ≠ 2) (b : UInt8) :
    contribution n i b = divideBit^[8 * (n - i + 1)] b.toUInt16 := by
  rw [contribution, if_neg h1, if_neg h2, ← iterate_divideBit_toUInt16,
    ← Function.iterate_add_apply, Nat.mul_succ]

theorem cancels_type_iff (n : ℕ) (δ ε : UInt8) :
    Cancels n 0 δ ε ↔ Meets (n + 1) δ ε := by
  rw [Cancels, contribution_of_ne n (by decide) (by decide)]
  rfl

theorem cancels_crc_iff (n : ℕ) (δ ε : UInt8) : Cancels n 1 δ ε ↔ δ = 0 ∧ ε = 0 :=
  toUInt16_eq_shiftLeft

theorem cancels_edge_iff (n : ℕ) (δ ε : UInt8) :
    Cancels n 2 δ ε ↔ Meets (n - 3) ε δ := by
  have hk : 8 * (n - 3 + 1) = 8 + 8 * (n - 3) := by omega
  have hdata : contribution n (2 + 1) ε = divideBit^[8 * (n - 3 + 1)] ε.toUInt16 :=
    contribution_of_ne n (by decide) (by decide) ε
  rw [Cancels, hdata, hk, Function.iterate_add_apply]
  change δ.toUInt16 <<< 8 = _ ↔ _
  rw [← iterate_divideBit_toUInt16, (divideBit_injective.iterate 8).eq_iff, eq_comm]
  rfl

theorem cancels_data_iff {n i : ℕ} (h3 : 3 ≤ i) (hi : i + 1 < n) (δ ε : UInt8) :
    Cancels n i δ ε ↔ δ = 0 ∧ ε = 0 := by
  have hk : 8 * (n - i + 1) = 8 * (n - (i + 1) + 1) + 8 := by omega
  rw [Cancels, contribution_of_ne n (by omega) (by omega),
    contribution_of_ne n (by omega) (by omega), hk, Function.iterate_add_apply,
    (divideBit_injective.iterate _).eq_iff, iterate_divideBit_toUInt16, eq_comm,
    toUInt16_eq_shiftLeft, and_comm]

/-- The lengths at which a difference in the type and the low byte of the CRC is missed. -/
def typeLengths : List ℕ :=
  [6, 7, 10, 11, 14, 15, 18, 20, 22, 25, 26, 33, 36, 38, 44]

/-- The lengths at which a difference in the high byte of the CRC and the first byte of
the data is missed. -/
def dataLengths : List ℕ :=
  [5, 6, 10, 11, 14, 15, 18, 19, 22, 24, 26, 29, 30, 37, 40, 42]

theorem typeLengths_eq : ∀ n < 46, 3 ≤ n → (n + 1 ∈ meetings.map Prod.fst ↔ n ∈ typeLengths) := by
  decide

theorem dataLengths_eq : ∀ n < 46, 4 ≤ n → (n - 3 ∈ meetings.map Prod.fst ↔ n ∈ dataLengths) := by
  decide

/-- Where a difference can be missed at all. -/
theorem exists_cancels_iff {n i : ℕ} (h3 : 3 ≤ n) (hn : n ≤ sizeofMessage) (hi : i + 1 < n) :
    (∃ δ ε, ¬(δ = 0 ∧ ε = 0) ∧ Cancels n i δ ε) ↔
      i = 0 ∧ n ∈ typeLengths ∨ i = 2 ∧ n ∈ dataLengths := by
  have h45 : n < 46 := Nat.lt_succ_of_le hn
  rcases Nat.lt_or_ge 2 i with hdata | hi2
  · simp [cancels_data_iff hdata hi, show i ≠ 0 by omega, show i ≠ 2 by omega]
  interval_cases i
  · simp only [cancels_type_iff]
    have hzero : ∀ δ ε, ¬(δ = 0 ∧ ε = 0) ∧ Meets (n + 1) δ ε ↔ δ ≠ 0 ∧ Meets (n + 1) δ ε :=
      fun δ ε => and_congr_left fun h => not_congr (and_iff_left_of_imp h.eq_zero)
    simp only [hzero, exists_meets_iff (k := n + 1) (by omega) (by omega), typeLengths_eq n h45 h3]
    simp
  · simp [cancels_crc_iff]
  · simp only [cancels_edge_iff]
    have hzero : ∀ δ ε, ¬(δ = 0 ∧ ε = 0) ∧ Meets (n - 3) ε δ ↔ ε ≠ 0 ∧ Meets (n - 3) ε δ :=
      fun δ ε => and_congr_left fun h => not_congr (and_iff_right_of_imp h.eq_zero)
    rw [exists_comm]
    simp only [hzero, exists_meets_iff (k := n - 3) (by omega) (by omega), dataLengths_eq n h45 hi]
    simp

/-! ## Bursts -/

/-- The first `n` bytes of the messages differ, and only in the bytes `i` and `i + 1`. -/
def DiffersOnlyAt (m m' : Message) (n i : ℕ) : Prop :=
  (∃ k < n, m.byte k ≠ m'.byte k) ∧ ∀ k < n, m.byte k ≠ m'.byte k → k = i ∨ k = i + 1

/-- Every such difference from an accepted message is detected. -/
def DetectsBurst (n i : ℕ) : Prop :=
  ∀ m m' : Message, (validateMessage m n).1 = true → DiffersOnlyAt m m' n i →
    (validateMessage m' n).1 = false

theorem difference_of_burst {m m' : Message} {n i : ℕ} (hn : n ≤ sizeofMessage)
    (h : DiffersOnlyAt m m' n i) :
    m.difference m' n = (single n i (m.byte i ^^^ m'.byte i)).zipWith (· ^^^ ·)
      (single n (i + 1) (m.byte (i + 1) ^^^ m'.byte (i + 1))) := by
  rw [difference_eq_ofFn m m' hn]
  apply List.ext_getElem
  · simp [single]
  · intro k hk _
    rw [List.length_ofFn] at hk
    simp only [List.getElem_ofFn, List.getElem_zipWith, single, List.getElem_set,
      List.getElem_replicate]
    by_cases hki : k = i
    · simp [hki]
    by_cases hki1 : k = i + 1
    · simp [hki1]
    · have hsame : m.byte k = m'.byte k := by
        by_contra hne
        exact (h.2 k hk hne).elim hki hki1
      simp [hsame, Ne.symm hki, Ne.symm hki1]

/-- A burst is missed iff its two bytes cancel. -/
theorem accepts_burst_iff {m m' : Message} {n i : ℕ} (h3 : 3 ≤ n) (hn : n ≤ sizeofMessage)
    (hi : i + 1 < n) (hm : (validateMessage m n).1 = true) (h : DiffersOnlyAt m m' n i) :
    (validateMessage m' n).1 = true ↔
      Cancels n i (m.byte i ^^^ m'.byte i) (m.byte (i + 1) ^^^ m'.byte (i + 1)) := by
  rw [accepts_iff h3 hn hm, difference_of_burst hn h, syndrome_zipWith (by simp [single]),
    syndrome_single (by omega), syndrome_single hi, UInt16.xor_eq_zero_iff, Cancels]

/-- The two bytes of a burst are not both 0. -/
theorem DiffersOnlyAt.ne_zero {m m' : Message} {n i : ℕ} (h : DiffersOnlyAt m m' n i) :
    ¬(m.byte i ^^^ m'.byte i = 0 ∧ m.byte (i + 1) ^^^ m'.byte (i + 1) = 0) := by
  obtain ⟨⟨k, hk, hne⟩, honly⟩ := h
  rw [UInt8.xor_eq_zero_iff, UInt8.xor_eq_zero_iff]
  rintro ⟨h0, h1⟩
  rcases honly k hk hne with rfl | rfl
  · exact hne h0
  · exact hne h1

/-- Some message of any length is accepted. -/
theorem exists_accepts {n : ℕ} (h3 : 3 ≤ n) (hn : n ≤ sizeofMessage) :
    ∃ m : Message, (validateMessage m n).1 = true := by
  have hlen : (List.replicate (n - 3) (0 : UInt8)).length ≤ sizeofData := by
    rw [List.length_replicate]
    exact Nat.sub_le_sub_right hn 3
  have hbytes := bytes_buildMessage 0 hlen
  rw [List.length_replicate, Nat.sub_add_cancel h3] at hbytes
  refine ⟨(buildMessage 0 (List.replicate (n - 3) 0)).2, ?_⟩
  rw [validateMessage_iff _ h3 hn, hbytes, check, crcField_messageBytes, UInt16.xor_self]

theorem byte_setIfInBounds (m : Message) {i : ℕ} (hi : i < sizeofMessage) (b : UInt8) (k : ℕ) :
    Message.byte (m.setIfInBounds i b) k = if i = k then b else m.byte k := by
  have hlen : i < m.toList.length := by simpa using hi
  rw [Message.byte, Vector.toList_setIfInBounds, List.getD_eq_getElem?_getD, List.getElem?_set,
    if_pos hlen]
  split_ifs <;> rfl

/-- Next to any message there is one that differs from it by any two bytes. -/
theorem exists_differsOnlyAt (m : Message) {n i : ℕ} (hn : n ≤ sizeofMessage) (hi : i + 1 < n)
    {δ ε : UInt8} (h : ¬(δ = 0 ∧ ε = 0)) :
    ∃ m', DiffersOnlyAt m m' n i ∧ m.byte i ^^^ m'.byte i = δ ∧
      m.byte (i + 1) ^^^ m'.byte (i + 1) = ε := by
  have hi45 : i + 1 < sizeofMessage := by omega
  set m' : Message := (m.setIfInBounds i (m.byte i ^^^ δ)).setIfInBounds (i + 1)
    (m.byte (i + 1) ^^^ ε)
  have hlow : m.byte i ^^^ m'.byte i = δ := by
    rw [byte_setIfInBounds _ hi45, byte_setIfInBounds _ (by omega)]
    simp
  have hhigh : m.byte (i + 1) ^^^ m'.byte (i + 1) = ε := by
    rw [byte_setIfInBounds _ hi45]
    simp
  refine ⟨m', ⟨?_, fun k _ hk => ?_⟩, hlow, hhigh⟩
  · by_contra hsame
    push Not at hsame
    refine h ⟨?_, ?_⟩
    · rw [← hlow, hsame i (by omega), UInt8.xor_self]
    · rw [← hhigh, hsame (i + 1) hi, UInt8.xor_self]
  · by_contra hother
    rw [not_or] at hother
    rw [byte_setIfInBounds _ hi45, byte_setIfInBounds _ (by omega), if_neg (Ne.symm hother.2),
      if_neg (Ne.symm hother.1)] at hk
    exact hk rfl

theorem detectsBurst_iff {n i : ℕ} (h3 : 3 ≤ n) (hn : n ≤ sizeofMessage) (hi : i + 1 < n) :
    DetectsBurst n i ↔ ¬∃ δ ε, ¬(δ = 0 ∧ ε = 0) ∧ Cancels n i δ ε := by
  constructor
  · rintro hdetect ⟨δ, ε, hne, hcancel⟩
    obtain ⟨m, hm⟩ := exists_accepts h3 hn
    obtain ⟨m', hdiff, rfl, rfl⟩ := exists_differsOnlyAt m hn hi hne
    have haccept := (accepts_burst_iff h3 hn hi hm hdiff).2 hcancel
    simp [hdetect m m' hm hdiff] at haccept
  · intro hnone m m' hm hdiff
    rw [Bool.eq_false_iff, ne_eq, accepts_burst_iff h3 hn hi hm hdiff]
    exact fun hcancel => hnone ⟨_, _, hdiff.ne_zero, hcancel⟩

/-- Bursts in two adjacent bytes are detected except at the edges of the CRC for some
lengths, and there except for those that cancel. -/
theorem burst_rejected_iff {n i : ℕ} (h3 : 3 ≤ n) (hn : n ≤ sizeofMessage) (hi : i + 1 < n) :
    (DetectsBurst n i ↔ ¬(i = 0 ∧ n ∈ typeLengths ∨ i = 2 ∧ n ∈ dataLengths)) ∧
      ∀ m m' : Message, (validateMessage m n).1 = true → DiffersOnlyAt m m' n i →
        ((validateMessage m' n).1 = false ↔
          ¬Cancels n i (m.byte i ^^^ m'.byte i) (m.byte (i + 1) ^^^ m'.byte (i + 1))) := by
  refine ⟨?_, fun m m' hm hdiff => ?_⟩
  · rw [detectsBurst_iff h3 hn hi, exists_cancels_iff h3 hn hi]
  · rw [← accepts_burst_iff h3 hn hi hm hdiff, Bool.not_eq_true]

theorem burst_rejected_edge : DetectsBurst 4 2 :=
  (burst_rejected_iff (by decide) (by decide) (by decide)).1.2 (by decide)

/-- A message of 5 bytes, with the high byte of the CRC and the first byte of the data
changed. -/
theorem not_detectsBurst :
    ¬∀ n, 3 ≤ n → n ≤ sizeofMessage → ∀ i, i + 1 < n → DetectsBurst n i := by
  intro h
  have hrejected := h 5 (by decide) (by decide) 2 (by decide) (buildMessage 1 [0, 0]).2
    (((buildMessage 1 [0, 0]).2.setData 0 137).set 2 ((buildMessage 1 [0, 0]).2.byte 2 ^^^ 161))
    (by decide +kernel) ⟨by decide +kernel, by decide +kernel⟩
  revert hrejected
  decide +kernel

end Quadrupel
