import Mathlib

/-!
# Arithmetic on machine integers

Expressions over `int`s. `eval round` passes the result of every operation through
`round`, which is the wrap of the machine; `value` is the exact value. If no value on the
way leaves the range that `round` keeps, the two are the same (`eval_of_fits`).

`bounds` encloses the value in an interval, from intervals for the variables
(`value_mem_bounds`), so that an expression fits if all its intervals do
(`fits_of_within`), which can be computed.
-/

namespace Quadrupel

/-! ## Intervals -/

/-- The integers from `lo` to `hi`. -/
structure Interval where
  lo : ℤ
  hi : ℤ
deriving DecidableEq

namespace Interval

instance : Membership ℤ Interval where
  mem I x := I.lo ≤ x ∧ x ≤ I.hi

instance (x : ℤ) (I : Interval) : Decidable (x ∈ I) :=
  inferInstanceAs (Decidable (_ ∧ _))

theorem mem_def {I : Interval} {x : ℤ} : x ∈ I ↔ I.lo ≤ x ∧ x ≤ I.hi :=
  Iff.rfl

/-- Every element of `I` is one of `J`. -/
def Within (I J : Interval) : Prop :=
  J.lo ≤ I.lo ∧ I.hi ≤ J.hi

instance (I J : Interval) : Decidable (I.Within J) :=
  inferInstanceAs (Decidable (_ ∧ _))

theorem Within.mem {I J : Interval} (h : I.Within J) {x : ℤ} (hx : x ∈ I) : x ∈ J :=
  ⟨h.1.trans hx.1, hx.2.trans h.2⟩

/-- The image under a monotone function. -/
def map (f : ℤ → ℤ) (I : Interval) : Interval :=
  ⟨f I.lo, f I.hi⟩

theorem mem_map {f : ℤ → ℤ} (hf : Monotone f) {I : Interval} {x : ℤ} (hx : x ∈ I) :
    f x ∈ I.map f :=
  ⟨hf hx.1, hf hx.2⟩

/-- The sums. -/
def add (I J : Interval) : Interval :=
  ⟨I.lo + J.lo, I.hi + J.hi⟩

/-- The differences. -/
def sub (I J : Interval) : Interval :=
  ⟨I.lo - J.hi, I.hi - J.lo⟩

/-- The products : the corners enclose them. -/
def mul (I J : Interval) : Interval :=
  ⟨min (min (I.lo * J.lo) (I.lo * J.hi)) (min (I.hi * J.lo) (I.hi * J.hi)),
    max (max (I.lo * J.lo) (I.lo * J.hi)) (max (I.hi * J.lo) (I.hi * J.hi))⟩

theorem add_mem {I J : Interval} {x y : ℤ} (hx : x ∈ I) (hy : y ∈ J) : x + y ∈ I.add J :=
  ⟨add_le_add hx.1 hy.1, add_le_add hx.2 hy.2⟩

theorem sub_mem {I J : Interval} {x y : ℤ} (hx : x ∈ I) (hy : y ∈ J) : x - y ∈ I.sub J :=
  ⟨sub_le_sub hx.1 hy.2, sub_le_sub hx.2 hy.1⟩

theorem mul_le_max {l u y : ℤ} (c : ℤ) (hl : l ≤ y) (hu : y ≤ u) : c * y ≤ max (c * l) (c * u) := by
  rcases le_total 0 c with hc | hc
  · exact (mul_le_mul_of_nonneg_left hu hc).trans (le_max_right _ _)
  · exact (mul_le_mul_of_nonpos_left hl hc).trans (le_max_left _ _)

theorem min_le_mul {l u y : ℤ} (c : ℤ) (hl : l ≤ y) (hu : y ≤ u) : min (c * l) (c * u) ≤ c * y := by
  rcases le_total 0 c with hc | hc
  · exact (min_le_left _ _).trans (mul_le_mul_of_nonneg_left hl hc)
  · exact (min_le_right _ _).trans (mul_le_mul_of_nonpos_left hu hc)

theorem mul_mem {I J : Interval} {x y : ℤ} (hx : x ∈ I) (hy : y ∈ J) : x * y ∈ I.mul J := by
  have hlo := min_le_mul x hy.1 hy.2
  have hhi := mul_le_max x hy.1 hy.2
  have hlo1 := min_le_mul J.lo hx.1 hx.2
  have hlo2 := min_le_mul J.hi hx.1 hx.2
  have hhi1 := mul_le_max J.lo hx.1 hx.2
  have hhi2 := mul_le_max J.hi hx.1 hx.2
  simp only [mem_def, mul, mul_comm J.lo, mul_comm J.hi] at *
  omega

end Interval

/-! ## Expressions -/

/-- Expressions over `int`s, with the variables `ν`. -/
inductive IntExpr (ν : Type*) where
  | lit (n : ℤ)
  | var (v : ν)
  | add (a b : IntExpr ν)
  | sub (a b : IntExpr ν)
  | mul (a b : IntExpr ν)
  /-- Division by a positive constant, which drops the fraction. -/
  | div (a : IntExpr ν) (n : ℕ)
  | shl (a : IntExpr ν) (n : ℕ)
  | shr (a : IntExpr ν) (n : ℕ)
  /-- The branches that cut a value off at `±n`. -/
  | cap (a : IntExpr ν) (n : ℕ)

namespace IntExpr

variable {ν : Type*}

instance : Add (IntExpr ν) := ⟨add⟩

instance : Sub (IntExpr ν) := ⟨sub⟩

instance : Mul (IntExpr ν) := ⟨mul⟩

instance (n : ℕ) : OfNat (IntExpr ν) n := ⟨lit n⟩

/-- Cutting off at `±n`. -/
def capAt (n x : ℤ) : ℤ :=
  if x > n then n else if x < -n then -n else x

theorem capAt_mono (n : ℕ) : Monotone (capAt n) := by
  intro x y h
  unfold capAt
  split_ifs <;> omega

/-- The value with every result rounded. -/
def eval (round : ℤ → ℤ) (env : ν → ℤ) : IntExpr ν → ℤ
  | lit n => n
  | var v => env v
  | add a b => round (a.eval round env + b.eval round env)
  | sub a b => round (a.eval round env - b.eval round env)
  | mul a b => round (a.eval round env * b.eval round env)
  | div a n => round ((a.eval round env).tdiv n)
  | shl a n => round (a.eval round env <<< n)
  | shr a n => round (a.eval round env >>> n)
  | cap a n => capAt n (a.eval round env)

/-- The exact value. -/
def value (env : ν → ℤ) (e : IntExpr ν) : ℤ :=
  e.eval id env

/-- The expression and all its parts. -/
def parts : IntExpr ν → List (IntExpr ν)
  | lit n => [lit n]
  | var v => [var v]
  | add a b => add a b :: (a.parts ++ b.parts)
  | sub a b => sub a b :: (a.parts ++ b.parts)
  | mul a b => mul a b :: (a.parts ++ b.parts)
  | div a n => div a n :: a.parts
  | shl a n => shl a n :: a.parts
  | shr a n => shr a n :: a.parts
  | cap a n => cap a n :: a.parts

/-- No value on the way leaves the range. -/
def Fits (I : Interval) (env : ν → ℤ) (e : IntExpr ν) : Prop :=
  ∀ a ∈ e.parts, a.value env ∈ I

theorem mem_parts (e : IntExpr ν) : e ∈ e.parts := by
  cases e <;> simp [parts]

section Fits

variable {I : Interval} {env : ν → ℤ} {a b : IntExpr ν} {n : ℕ}

theorem fits_add :
    (a + b).Fits I env ↔ (a + b).value env ∈ I ∧ a.Fits I env ∧ b.Fits I env := by
  change (∀ c ∈ add a b :: (a.parts ++ b.parts), _) ↔ _
  rw [List.forall_mem_cons, List.forall_mem_append]
  rfl

theorem fits_sub :
    (a - b).Fits I env ↔ (a - b).value env ∈ I ∧ a.Fits I env ∧ b.Fits I env := by
  change (∀ c ∈ sub a b :: (a.parts ++ b.parts), _) ↔ _
  rw [List.forall_mem_cons, List.forall_mem_append]
  rfl

theorem fits_mul :
    (a * b).Fits I env ↔ (a * b).value env ∈ I ∧ a.Fits I env ∧ b.Fits I env := by
  change (∀ c ∈ mul a b :: (a.parts ++ b.parts), _) ↔ _
  rw [List.forall_mem_cons, List.forall_mem_append]
  rfl

theorem fits_div : (div a n).Fits I env ↔ (div a n).value env ∈ I ∧ a.Fits I env :=
  List.forall_mem_cons

theorem fits_shl : (shl a n).Fits I env ↔ (shl a n).value env ∈ I ∧ a.Fits I env :=
  List.forall_mem_cons

theorem fits_shr : (shr a n).Fits I env ↔ (shr a n).value env ∈ I ∧ a.Fits I env :=
  List.forall_mem_cons

theorem fits_cap : (cap a n).Fits I env ↔ (cap a n).value env ∈ I ∧ a.Fits I env :=
  List.forall_mem_cons

end Fits

theorem Fits.value_mem {I : Interval} {env : ν → ℤ} {e : IntExpr ν} (h : e.Fits I env) :
    e.value env ∈ I :=
  h e e.mem_parts

/-- What fits is computed exactly. -/
theorem eval_of_fits {I : Interval} {round : ℤ → ℤ} (hround : ∀ x ∈ I, round x = x)
    {env : ν → ℤ} {e : IntExpr ν} (h : e.Fits I env) : e.eval round env = e.value env := by
  induction e with
  | lit n => rfl
  | var v => rfl
  | add a b iha ihb =>
    obtain ⟨hmem, ha, hb⟩ := fits_add.1 h
    rw [eval, iha ha, ihb hb]
    exact hround _ hmem
  | sub a b iha ihb =>
    obtain ⟨hmem, ha, hb⟩ := fits_sub.1 h
    rw [eval, iha ha, ihb hb]
    exact hround _ hmem
  | mul a b iha ihb =>
    obtain ⟨hmem, ha, hb⟩ := fits_mul.1 h
    rw [eval, iha ha, ihb hb]
    exact hround _ hmem
  | div a n ih =>
    obtain ⟨hmem, ha⟩ := fits_div.1 h
    rw [eval, ih ha]
    exact hround _ hmem
  | shl a n ih =>
    obtain ⟨hmem, ha⟩ := fits_shl.1 h
    rw [eval, ih ha]
    exact hround _ hmem
  | shr a n ih =>
    obtain ⟨hmem, ha⟩ := fits_shr.1 h
    rw [eval, ih ha]
    exact hround _ hmem
  | cap a n ih =>
    rw [eval, ih (fits_cap.1 h).2]
    rfl

/-- The interval of the value. -/
def bounds (box : ν → Interval) : IntExpr ν → Interval
  | lit n => ⟨n, n⟩
  | var v => box v
  | add a b => (a.bounds box).add (b.bounds box)
  | sub a b => (a.bounds box).sub (b.bounds box)
  | mul a b => (a.bounds box).mul (b.bounds box)
  | div a n => (a.bounds box).map (·.tdiv n)
  | shl a n => (a.bounds box).map (· <<< n)
  | shr a n => (a.bounds box).map (· >>> n)
  | cap a n => (a.bounds box).map (capAt n)

/-- The intervals of all parts are in the range. -/
def Within (I : Interval) (box : ν → Interval) (e : IntExpr ν) : Prop :=
  ∀ a ∈ e.parts, (a.bounds box).Within I

instance (I : Interval) (box : ν → Interval) (e : IntExpr ν) : Decidable (e.Within I box) :=
  inferInstanceAs (Decidable (∀ a ∈ e.parts, _))

theorem tdiv_mono (n : ℕ) : Monotone fun x : ℤ => x.tdiv n := by
  intro x y h
  rcases Nat.eq_zero_or_pos n with rfl | hn
  · simp
  · exact Int.tdiv_le_tdiv (by exact_mod_cast hn) h

theorem shiftLeft_mono (n : ℕ) : Monotone fun x : ℤ => x <<< n := by
  intro x y h
  simp only [Int.shiftLeft_eq]
  exact mul_le_mul_of_nonneg_right h (by positivity)

theorem shiftRight_mono (n : ℕ) : Monotone fun x : ℤ => x >>> n := by
  intro x y h
  simp only [Int.shiftRight_eq_div_pow]
  exact Int.ediv_le_ediv (by positivity) h

theorem value_mem_bounds {box : ν → Interval} {env : ν → ℤ} (henv : ∀ v, env v ∈ box v)
    (e : IntExpr ν) : e.value env ∈ e.bounds box := by
  induction e with
  | lit n => exact ⟨le_rfl, le_rfl⟩
  | var v => exact henv v
  | add a b iha ihb => exact Interval.add_mem iha ihb
  | sub a b iha ihb => exact Interval.sub_mem iha ihb
  | mul a b iha ihb => exact Interval.mul_mem iha ihb
  | div a n ih => exact Interval.mem_map (tdiv_mono n) ih
  | shl a n ih => exact Interval.mem_map (shiftLeft_mono n) ih
  | shr a n ih => exact Interval.mem_map (shiftRight_mono n) ih
  | cap a n ih => exact Interval.mem_map (capAt_mono n) ih

theorem fits_of_within {I : Interval} {box : ν → Interval} {env : ν → ℤ}
    (henv : ∀ v, env v ∈ box v) {e : IntExpr ν} (h : e.Within I box) : e.Fits I env :=
  fun a ha => (h a ha).mem (a.value_mem_bounds henv)

end IntExpr

end Quadrupel
