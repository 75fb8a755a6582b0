import Mathlib

/-!
# Division by a polynomial over two elements

A register of `w` bits holds a polynomial of degree below `w` with coefficients in the
field of two elements. `divide p` multiplies it by `x` and takes the remainder after the
polynomial `x ^ w + p` : one round of a division bit by bit.

It is additive (`divide_xor`), injective if `p` has a constant term
(`divide_injective`), and if `x + 1` divides `x ^ w + p`, that is if `p` has an odd number of
terms, it keeps the parity of the number of bits that are set (`parity_divide`).
-/

open Finset

namespace Quadrupel

variable {w : ℕ}

/-- One round of the division. -/
def divide (p r : BitVec w) : BitVec w :=
  if r.msb then (r <<< 1) ^^^ p else r <<< 1

theorem divide_xor (p a b : BitVec w) : divide p (a ^^^ b) = divide p a ^^^ divide p b := by
  have hshift : (a ^^^ b) <<< 1 = (a <<< 1) ^^^ (b <<< 1) := BitVec.shiftLeft_xor_distrib a b 1
  unfold divide
  rw [BitVec.msb_xor, hshift]
  cases a.msb <;> cases b.msb
  · rfl
  · exact BitVec.xor_assoc _ _ _
  · exact (BitVec.xor_assoc _ _ _).trans <|
      (congrArg _ (BitVec.xor_comm _ _)).trans (BitVec.xor_assoc _ _ _).symm
  · -- the polynomial is subtracted from both, and cancels
    change _ = (a <<< 1) ^^^ p ^^^ ((b <<< 1) ^^^ p)
    rw [BitVec.xor_comm (b <<< 1) p, ← BitVec.xor_assoc, BitVec.xor_assoc (a <<< 1) p p,
      BitVec.xor_self, BitVec.xor_zero]
    rfl

theorem iterate_divide_xor (p : BitVec w) (k : ℕ) (a b : BitVec w) :
    (divide p)^[k] (a ^^^ b) = (divide p)^[k] a ^^^ (divide p)^[k] b := by
  induction k generalizing a b with
  | zero => rfl
  | succ k ih => rw [Function.iterate_succ_apply, divide_xor, ih]; rfl

/-- Below the degree of the divisor a round only shifts. -/
theorem iterate_divide_of_lt (p : BitVec w) {r : BitVec w} {k : ℕ} (h : r.toNat * 2 ^ k < 2 ^ w) :
    (divide p)^[k] r = r <<< k := by
  induction k generalizing r with
  | zero => simp
  | succ k ih =>
    rw [Nat.pow_succ'] at h
    have hlt : 2 * r.toNat < 2 ^ w := by
      have := Nat.le_mul_of_pos_right (2 * r.toNat) (Nat.two_pow_pos k)
      linarith
    have hmsb : r.msb = false := BitVec.msb_eq_false_iff_two_mul_lt.2 hlt
    have hnat : (r <<< 1).toNat = 2 * r.toNat := by
      rw [BitVec.toNat_shiftLeft, Nat.shiftLeft_eq, pow_one, Nat.mul_comm, Nat.mod_eq_of_lt hlt]
    have hdiv : divide p r = r <<< 1 := by simp [divide, hmsb]
    rw [Function.iterate_succ_apply, hdiv, ih (by rw [hnat]; linarith), Nat.add_comm,
      BitVec.shiftLeft_add]

theorem getLsbD_shiftLeft_succ (r : BitVec w) {k : ℕ} (hk : k + 1 < w) :
    (r <<< 1).getLsbD (k + 1) = r.getLsbD k := by
  rw [BitVec.getLsbD_shiftLeft, decide_eq_true hk]
  rfl

/-- A polynomial with a constant term divides no multiple of `x` but zero. -/
theorem divide_eq_zero {p r : BitVec w} (hp : p.getLsbD 0 = true) (h : divide p r = 0#w) :
    r = 0#w := by
  unfold divide at h
  split_ifs at h with hmsb
  · have hlow := congrArg (BitVec.getLsbD · 0) h
    simp [hp] at hlow
  · refine BitVec.eq_of_getLsbD_eq fun k hk => ?_
    rw [BitVec.getLsbD_zero]
    rcases Nat.lt_or_ge (k + 1) w with hnext | htop
    · rw [← getLsbD_shiftLeft_succ r hnext, h, BitVec.getLsbD_zero]
    · obtain rfl : k = w - 1 := by omega
      rw [← BitVec.msb_eq_getLsbD_last]
      simpa using hmsb

theorem divide_injective {p : BitVec w} (hp : p.getLsbD 0 = true) :
    Function.Injective (divide p) := by
  intro a b h
  have hzero : divide p (a ^^^ b) = 0#w := by rw [divide_xor, h, BitVec.xor_self]
  exact BitVec.xor_eq_zero_iff.1 (divide_eq_zero hp hzero)

/-- The number of bits that are set, modulo 2. -/
def parity (r : BitVec w) : ZMod 2 :=
  ∑ k ∈ range w, if r.getLsbD k then 1 else 0

theorem parity_xor (a b : BitVec w) : parity (a ^^^ b) = parity a + parity b := by
  rw [parity, parity, parity, ← sum_add_distrib]
  refine sum_congr rfl fun k _ => ?_
  rw [BitVec.getLsbD_xor]
  cases a.getLsbD k <;> cases b.getLsbD k <;> decide

theorem parity_setWidth {v : ℕ} (hwv : w ≤ v) (r : BitVec w) :
    parity (r.setWidth v) = parity r := by
  rw [parity, parity]
  refine (sum_subset (range_mono hwv) fun k _ hk => ?_).symm.trans (sum_congr rfl fun k hk => ?_)
  · rw [BitVec.getLsbD_setWidth, BitVec.getLsbD_of_ge r k (by simpa using hk), Bool.and_false]
    rfl
  · rw [BitVec.getLsbD_setWidth, decide_eq_true ((mem_range.1 hk).trans_le hwv), Bool.true_and]

/-- A shift loses the top bit. -/
theorem parity_shiftLeft (r : BitVec w) :
    parity (r <<< 1) + (if r.msb then 1 else 0) = parity r := by
  cases w with
  | zero => simp [parity, BitVec.of_length_zero]
  | succ w =>
    rw [parity, parity, sum_range_succ', sum_range_succ]
    have hlow : (r <<< 1).getLsbD 0 = false := by simp
    have hsum : ∑ k ∈ range w, (if (r <<< 1).getLsbD (k + 1) then (1 : ZMod 2) else 0) =
        ∑ k ∈ range w, if r.getLsbD k then 1 else 0 :=
      sum_congr rfl fun k hk =>
        by rw [getLsbD_shiftLeft_succ r (Nat.succ_lt_succ (mem_range.1 hk))]
    rw [hsum, hlow, BitVec.msb_eq_getLsbD_last]
    simp

theorem parity_divide {p : BitVec w} (hp : parity p = 1) (r : BitVec w) :
    parity (divide p r) = parity r := by
  rw [← parity_shiftLeft r]
  unfold divide
  split_ifs
  · rw [parity_xor, hp]
  · rw [add_zero]

end Quadrupel
