import Mathlib

/-!
# A leaky integrator that learns a bias

On every tick the filter adds the rate, less the bias that it has learnt, to an angle,
lets the angle leak towards a reference, and moves the bias if the angle has drifted
too far from it. All divisions drop the fraction (`Integrator.next`).

With a rate at its limit the angle settles where the leak balances it, which may be far
out. It is the bias that keeps it in : beyond the `threshold` it moves by one on every
tick, against the rate. How far the angle overshoots the threshold on the way depends
on where the bias comes from. An `Envelope` bounds this overshoot for each
bias, and shows that the bias stops at `±top`; every tick keeps a state inside it
(`Envelope.Inside.next`), whatever the rates and references within their limits are. The
two signs of the angle are mirror images (`next_neg`), so the proof bounds it from above
and reads the bound from below in the mirror.
-/

namespace Quadrupel

/-- The constants of the filter. -/
structure Integrator where
  gain : ℤ
  leak : ℤ
  scale : ℤ
  gain_pos : 0 < gain
  leak_pos : 0 < leak
  scale_pos : 0 < scale

namespace Integrator

/-- The angle and the bias. -/
@[ext] structure State where
  angle : ℤ
  bias : ℤ
deriving DecidableEq

instance : Neg State where
  neg x := ⟨-x.angle, -x.bias⟩

@[simp] theorem neg_angle (x : State) : (-x).angle = -x.angle :=
  rfl

@[simp] theorem neg_bias (x : State) : (-x).bias = -x.bias :=
  rfl

variable (f : Integrator)

/-- One tick. -/
def next (rate reference : ℤ) (x : State) : State :=
  let angle := x.angle + (rate - x.bias) * f.gain
  let angle := angle - (angle - reference).tdiv f.leak
  ⟨angle, x.bias + ((angle - reference).tdiv f.gain).tdiv f.scale⟩

/-- The drift at which the bias starts to move. -/
def threshold : ℤ :=
  f.gain * f.scale

theorem threshold_pos : 0 < f.threshold :=
  Int.mul_pos f.gain_pos f.scale_pos

theorem next_neg (rate reference : ℤ) (x : State) :
    f.next (-rate) (-reference) (-x) = -f.next rate reference x := by
  have hadd : -x.angle + (-rate - -x.bias) * f.gain = -(x.angle + (rate - x.bias) * f.gain) := by
    ring
  have hsub (a : ℤ) : -a - -reference = -(a - reference) := by ring
  have hangle : (f.next (-rate) (-reference) (-x)).angle = -(f.next rate reference x).angle := by
    simp only [next, neg_angle, neg_bias]
    rw [hadd, hsub, Int.neg_tdiv]
    ring
  refine State.ext hangle ?_
  change -x.bias +
      (((f.next (-rate) (-reference) (-x)).angle - -reference).tdiv f.gain).tdiv f.scale =
    -(x.bias + (((f.next rate reference x).angle - reference).tdiv f.gain).tdiv f.scale)
  rw [hangle, hsub, Int.neg_tdiv, Int.neg_tdiv, neg_add]

theorem tdiv_tdiv_of_nonneg {y : ℤ} (h : 0 ≤ y) (hy : y < 2 * f.threshold) :
    ((y.tdiv f.gain).tdiv f.scale = 0 ∧ y < f.threshold) ∨
      ((y.tdiv f.gain).tdiv f.scale = 1 ∧ f.threshold ≤ y) := by
  have hdiv : (y.tdiv f.gain).tdiv f.scale = y / f.threshold := by
    rw [Int.tdiv_eq_ediv_of_nonneg h,
      Int.tdiv_eq_ediv_of_nonneg (Int.ediv_nonneg h f.gain_pos.le),
      Int.ediv_ediv_of_nonneg f.gain_pos.le, threshold]
  rw [hdiv]
  rcases lt_or_ge y f.threshold with hlt | hge
  · exact .inl ⟨Int.ediv_eq_zero_of_lt h hlt, hlt⟩
  · have hpos := f.threshold_pos
    have hlt : y / f.threshold < 2 := Int.ediv_lt_of_lt_mul hpos hy
    have hle : 1 ≤ y / f.threshold := Int.le_ediv_of_mul_le hpos (by rwa [one_mul])
    exact .inr ⟨by omega, hge⟩

/-- The bias moves by one at a time while the drift is below twice the threshold. -/
theorem tdiv_tdiv_cases {y : ℤ} (hy : |y| < 2 * f.threshold) :
    ((y.tdiv f.gain).tdiv f.scale = 0 ∧ |y| < f.threshold) ∨
      ((y.tdiv f.gain).tdiv f.scale = 1 ∧ f.threshold ≤ y) ∨
      ((y.tdiv f.gain).tdiv f.scale = -1 ∧ y ≤ -f.threshold) := by
  rcases le_total 0 y with h | h
  · rw [abs_of_nonneg h] at hy ⊢
    rcases f.tdiv_tdiv_of_nonneg h hy with ⟨hd, hlt⟩ | hd
    · exact .inl ⟨hd, hlt⟩
    · exact .inr (.inl hd)
  · rw [abs_of_nonpos h] at hy ⊢
    have hneg := f.tdiv_tdiv_of_nonneg (neg_nonneg.2 h) hy
    rw [Int.neg_tdiv, Int.neg_tdiv] at hneg
    rcases hneg with ⟨hd, hlt⟩ | ⟨hd, hle⟩
    · exact .inl ⟨neg_eq_zero.1 hd, hlt⟩
    · exact .inr (.inr ⟨by omega, by omega⟩)

/-- A bound on the overshoot, for rates up to `rates` and references up to
`references`. -/
structure Envelope (rates references : ℤ) where
  /-- The largest bias. -/
  top : ℕ
  /-- The overshoot at a bias of `k - top`. -/
  overshoot : ℕ → ℤ
  two_references_le : ∀ k, 2 * references ≤ overshoot k
  overshoot_lt : ∀ k ≤ 2 * top, overshoot k < f.threshold
  /-- The bias moves up. -/
  step : ∀ k < 2 * top,
    (f.leak - 1) * (f.threshold - references + overshoot k + (rates - (k - top)) * f.gain) +
      references + f.leak - 1 ≤ f.leak * (f.threshold - references + overshoot (k + 1))
  /-- At the largest bias the angle falls back. -/
  stop : (f.leak - 1) *
      (f.threshold - references + overshoot (2 * top) + (rates - top) * f.gain) +
    references + f.leak - 1 < f.leak * (f.threshold - references)

namespace Envelope

variable {f} {rates references : ℤ} (E : f.Envelope rates references)

/-- The state is inside the envelope, seen from above and from below. -/
def Inside (x : State) : Prop :=
  ∃ k l : ℕ, k + l = 2 * E.top ∧ x.bias = k - E.top ∧
    x.angle ≤ f.threshold - references + E.overshoot k ∧
    -x.angle ≤ f.threshold - references + E.overshoot l

/-- The angle after a tick, from above. -/
theorem leak_mul_angle_le {x : State} {k : ℕ} (hbias : x.bias = k - E.top)
    (habove : x.angle ≤ f.threshold - references + E.overshoot k) {rate reference : ℤ}
    (hrate : rate ≤ rates) (hreference : reference ≤ references) :
    f.leak * (f.next rate reference x).angle ≤
      (f.leak - 1) * (f.threshold - references + E.overshoot k + (rates - (k - E.top)) * f.gain) +
        references + f.leak - 1 := by
  set angle := x.angle + (rate - x.bias) * f.gain with hangle
  have hle : angle ≤ f.threshold - references + E.overshoot k + (rates - (k - E.top)) * f.gain := by
    rw [hangle, hbias]
    have hgain := mul_le_mul_of_nonneg_right
      (sub_le_sub_right hrate ((k : ℤ) - E.top)) f.gain_pos.le
    linarith
  -- the division takes off at least a `leak`-th, less a rounding error
  have hdiv := Int.mul_tdiv_add_tmod (angle - reference) f.leak
  have hmod := Int.tmod_lt_of_pos (angle - reference) f.leak_pos
  have hnext : (f.next rate reference x).angle = angle - (angle - reference).tdiv f.leak := rfl
  have hleak : f.leak * (f.next rate reference x).angle ≤
      (f.leak - 1) * angle + reference + f.leak - 1 := by
    rw [hnext, mul_sub]
    linarith
  have hmul := mul_le_mul_of_nonneg_left hle (by linarith [f.leak_pos] : 0 ≤ f.leak - 1)
  linarith

/-- The angle after a tick, for a bias that moves up, and at the largest bias. -/
theorem next_angle_cases {x : State} {k : ℕ} (hk : k ≤ 2 * E.top) (hbias : x.bias = k - E.top)
    (habove : x.angle ≤ f.threshold - references + E.overshoot k) {rate reference : ℤ}
    (hrate : rate ≤ rates) (hreference : reference ≤ references) :
    (k < 2 * E.top ∧
        (f.next rate reference x).angle ≤ f.threshold - references + E.overshoot (k + 1)) ∨
      (k = 2 * E.top ∧ (f.next rate reference x).angle < f.threshold - references) := by
  have hle := E.leak_mul_angle_le hbias habove hrate hreference
  rcases hk.lt_or_eq with hlt | rfl
  · exact .inl ⟨hlt, le_of_mul_le_mul_left (hle.trans (E.step k hlt)) f.leak_pos⟩
  · refine .inr ⟨rfl, lt_of_mul_lt_mul_left (hle.trans_lt ?_) f.leak_pos.le⟩
    have htop : ((2 * E.top : ℕ) : ℤ) - E.top = E.top := by omega
    rw [htop]
    exact E.stop

variable {E}

/-- Every tick keeps a state inside the envelope. -/
theorem Inside.next {x : State} (h : E.Inside x) {rate reference : ℤ} (hrate : |rate| ≤ rates)
    (hreference : |reference| ≤ references) : E.Inside (f.next rate reference x) := by
  obtain ⟨k, l, hkl, hbias, habove, hbelow⟩ := h
  have hrate' := abs_le.1 hrate
  have hreference' := abs_le.1 hreference
  have hup := E.next_angle_cases (by omega) hbias habove hrate'.2 hreference'.2
  have hdown : (l < 2 * E.top ∧
        -(f.next rate reference x).angle ≤ f.threshold - references + E.overshoot (l + 1)) ∨
      (l = 2 * E.top ∧ -(f.next rate reference x).angle < f.threshold - references) := by
    have hmirror : (-x).bias = l - E.top := by
      rw [neg_bias, hbias]
      omega
    have hneg := E.next_angle_cases (by omega) hmirror hbelow
      (neg_le.1 hrate'.1) (neg_le.1 hreference'.1)
    rwa [next_neg, neg_angle] at hneg
  have hk := E.two_references_le k
  have hl := E.two_references_le l
  have hpos := f.threshold_pos
  have hdrift : |(f.next rate reference x).angle - reference| < 2 * f.threshold := by
    rw [abs_lt]
    constructor
    · rcases hdown with ⟨hlt, hle⟩ | ⟨-, hlt⟩
      · have := E.overshoot_lt (l + 1) hlt
        omega
      · omega
    · rcases hup with ⟨hlt, hle⟩ | ⟨-, hlt⟩
      · have := E.overshoot_lt (k + 1) hlt
        omega
      · omega
  have hnext : (f.next rate reference x).bias =
      x.bias + (((f.next rate reference x).angle - reference).tdiv f.gain).tdiv f.scale := rfl
  rcases f.tdiv_tdiv_cases hdrift with ⟨hd, hy⟩ | ⟨hd, hy⟩ | ⟨hd, hy⟩
  · rw [abs_lt] at hy
    exact ⟨k, l, hkl, by omega, by omega, by omega⟩
  · have hlt : k < 2 * E.top := by omega
    have hl1 := E.two_references_le (l - 1)
    exact ⟨k + 1, l - 1, by omega, by omega, by omega, by omega⟩
  · have hlt : l < 2 * E.top := by omega
    have hk1 := E.two_references_le (k - 1)
    exact ⟨k - 1, l + 1, by omega, by omega, by omega, by omega⟩

/-- Inside, the angle is bounded. -/
theorem Inside.angle_le {x : State} (h : E.Inside x) {bound : ℤ}
    (hbound : ∀ k ≤ 2 * E.top, E.overshoot k ≤ bound) :
    |x.angle| ≤ f.threshold - references + bound := by
  obtain ⟨k, l, hkl, -, habove, hbelow⟩ := h
  have hk := hbound k (by omega)
  have hl := hbound l (by omega)
  rw [abs_le]
  omega

theorem Inside.bias_le {x : State} (h : E.Inside x) : |x.bias| ≤ E.top := by
  obtain ⟨k, l, hkl, hbias, -, -⟩ := h
  rw [abs_le]
  omega

end Envelope

end Integrator

end Quadrupel
