import Quadrupel.Joystick

/-!
# Deadlines

`add_time_millis` and `compare_time` on times that were read from the clock, and on what
is added to them. The loop of `add_time_millis` stops at a `tv_nsec` of one second, so a
sum that is a whole number of seconds is not normalised (`settle`); `compare_time` then
takes the normalised form of the same instant for a later one. Nothing else goes wrong
(`deadlines_iff`).
-/

namespace Quadrupel

namespace Timespec

/-- The time in ns. -/
def total (t : Timespec) : ℤ :=
  t.tvSec * second + t.tvNsec

/-- The nanoseconds are less than a second. -/
def Normalised (t : Timespec) : Prop :=
  0 ≤ t.tvNsec ∧ t.tvNsec < second

instance (t : Timespec) : Decidable t.Normalised :=
  inferInstanceAs (Decidable (_ ∧ _))

/-- Nanoseconds are added. -/
def addNsec (t : Timespec) (n : ℤ) : Timespec :=
  { t with tvNsec := t.tvNsec + n }

/-- The second time is where the loop of `add_time_millis` ends from the first : the same
instant, between 0 and one second, and at 0 only if it has to be. -/
structure Settles (t u : Timespec) : Prop where
  total : u.total = t.total
  nonneg : 0 ≤ u.tvNsec
  le_second : u.tvNsec ≤ second
  of_zero : u.tvNsec = 0 → t.tvNsec ≤ 0
  of_second : u.tvNsec = second → 0 < t.tvNsec

theorem Settles.unique {t u v : Timespec} (hu : t.Settles u) (hv : t.Settles v) : u = v := by
  obtain ⟨s, n⟩ := u
  obtain ⟨s', n'⟩ := v
  obtain ⟨htotal, h0, h1, hzero, hsecond⟩ := hu
  obtain ⟨htotal', h0', h1', hzero', hsecond'⟩ := hv
  simp only [Timespec.total, Quadrupel.second, mk.injEq] at *
  omega

/-- It is determined by the quotient and the remainder. -/
def settle (t : Timespec) : Timespec :=
  if 0 < t.tvNsec ∧ t.tvNsec % second = 0 then ⟨t.tvSec + t.tvNsec / second - 1, second⟩
  else ⟨t.tvSec + t.tvNsec / second, t.tvNsec % second⟩

theorem settles_settle (t : Timespec) : t.Settles t.settle := by
  unfold settle
  by_cases h : 0 < t.tvNsec ∧ t.tvNsec % second = 0
  · rw [if_pos h]
    constructor <;> simp only [Timespec.total, second] at * <;> omega
  · rw [if_neg h]
    constructor <;> simp only [Timespec.total, second] at * <;> omega

theorem Settles.eq {t u : Timespec} (h : t.Settles u) : t.settle = u :=
  (settles_settle t).unique h

theorem settle_of_le {t : Timespec} (h0 : 0 ≤ t.tvNsec) (h : t.tvNsec ≤ second) :
    t.settle = t :=
  Settles.eq ⟨rfl, h0, h, fun h => h.le, fun h => by rw [h]; decide⟩

theorem settle_carry {t : Timespec} (h : t.tvNsec > second) :
    settle ⟨t.tvSec + 1, t.tvNsec - second⟩ = t.settle := by
  obtain ⟨htotal, h0, h1, hzero, hsecond⟩ := settles_settle t
  refine Settles.eq ⟨htotal.trans ?_, h0, h1, ?_, ?_⟩
  all_goals
    simp only [Timespec.total, second] at *
    omega

/-- To settle twice is to settle once. -/
theorem settle_addNsec {t : Timespec} (h0 : 0 ≤ t.tvNsec) {n : ℤ} (hn : 0 ≤ n) :
    (t.settle.addNsec n).settle = (t.addNsec n).settle := by
  have hfirst := settles_settle t
  have hboth := settles_settle (t.addNsec n)
  generalize t.settle = u at *
  generalize (t.addNsec n).settle = v at *
  obtain ⟨htotal, hu0, hu1, huzero, husecond⟩ := hfirst
  obtain ⟨htotal', hv0, hv1, hvzero, hvsecond⟩ := hboth
  refine Settles.eq ⟨htotal'.trans ?_, hv0, hv1, ?_, ?_⟩
  all_goals
    simp only [Timespec.total, addNsec, second] at *
    omega

end Timespec

open Timespec

/-- With enough rounds the loop ends where it settles. -/
theorem carrySeconds_eq (rounds : ℕ) {t : Timespec} (h0 : 0 ≤ t.tvNsec)
    (h : t.tvNsec < (rounds + 1) * second) : carrySeconds rounds t = t.settle := by
  induction rounds generalizing t with
  | zero => exact (settle_of_le h0 (by omega)).symm
  | succ rounds ih =>
    rw [carrySeconds]
    by_cases hcarry : t.tvNsec > second
    · rw [if_pos hcarry, ← settle_carry hcarry]
      refine ih ?_ ?_
      · change 0 ≤ t.tvNsec - second
        omega
      · change t.tvNsec - second < _
        unfold second at *
        omega
    · rw [if_neg hcarry, settle_of_le h0 (by omega)]

theorem addTimeMillis_eq {t : Timespec} {millis : ℤ} (h0 : 0 ≤ t.tvNsec) (hm : 0 ≤ millis) :
    addTimeMillis t millis = (t.addNsec (millis * milliSec)).settle := by
  refine carrySeconds_eq _ ?_ ?_
  · change 0 ≤ t.tvNsec + millis * milliSec
    unfold milliSec
    omega
  · change t.tvNsec + millis * milliSec <
      (((t.tvNsec + millis * milliSec) / second).toNat + 1) * second
    unfold second milliSec at *
    omega

/-! ## Times and what is added to them -/

/-- A time of the clock. -/
structure ClockTime extends Timespec where
  normalised : toTimespec.Normalised

/-- Milliseconds to add : their nanoseconds fit an `int`. -/
structure Delay where
  millis : ℤ
  nonneg : 0 ≤ millis
  fits : millis * milliSec ≤ 2147483647

/-- A time of the clock, and what is added to it one after the other. -/
structure Deadline where
  clock : ClockTime
  delays : List Delay

/-- Something is added, and the sum is a whole number of seconds. -/
def LandsOnSecond (t : ClockTime) (millis : ℤ) : Prop :=
  0 < millis ∧ (t.tvNsec + millis * milliSec) % second = 0

namespace Deadline

/-- The milliseconds added. -/
def millis (d : Deadline) : ℤ :=
  (d.delays.map Delay.millis).sum

/-- The `timespec`. -/
def time (d : Deadline) : Timespec :=
  d.delays.foldl (fun t m => addTimeMillis t m.millis) d.clock.toTimespec

/-- The instant, in ns. -/
def instant (d : Deadline) : ℤ :=
  d.clock.total + d.millis * milliSec

theorem sum_millis_nonneg (ms : List Delay) : 0 ≤ (ms.map Delay.millis).sum :=
  List.sum_nonneg fun x hx => by
    obtain ⟨m, -, rfl⟩ := List.mem_map.1 hx
    exact m.nonneg

/-- Adding one after the other is adding all at once. -/
theorem foldl_addTimeMillis (ms : List Delay) {t : Timespec} (h0 : 0 ≤ t.tvNsec)
    (h : t.tvNsec ≤ second) : ms.foldl (fun t m => addTimeMillis t m.millis) t =
      (t.addNsec ((ms.map Delay.millis).sum * milliSec)).settle := by
  induction ms generalizing t with
  | nil =>
    have hzero : t.addNsec 0 = t := congrArg (Timespec.mk t.tvSec) (add_zero t.tvNsec)
    rw [List.map_nil, List.sum_nil, zero_mul, hzero, settle_of_le h0 h]
    rfl
  | cons m ms ih =>
    have hsettles := settles_settle (t.addNsec (m.millis * milliSec))
    have hm : 0 ≤ m.millis * milliSec := Int.mul_nonneg m.nonneg (by decide)
    have hms : 0 ≤ (ms.map Delay.millis).sum * milliSec :=
      Int.mul_nonneg (sum_millis_nonneg ms) (by decide)
    have hfirst : 0 ≤ (t.addNsec (m.millis * milliSec)).tvNsec := Int.add_nonneg h0 hm
    rw [List.foldl_cons, addTimeMillis_eq h0 m.nonneg, ih hsettles.nonneg hsettles.le_second,
      settle_addNsec hfirst hms, List.map_cons, List.sum_cons, add_mul]
    simp only [addNsec, add_assoc]

theorem settles_time (d : Deadline) :
    (d.clock.addNsec (d.millis * milliSec)).Settles d.time := by
  have hclock := d.clock.normalised
  rw [time, foldl_addTimeMillis d.delays hclock.1 hclock.2.le]
  exact settles_settle _

theorem total_time (d : Deadline) : d.time.total = d.instant :=
  d.settles_time.total.trans (add_assoc _ _ _).symm

/-- The deadlines that land on a second are those that are not normalised. -/
theorem tvNsec_time_eq_iff (d : Deadline) :
    d.time.tvNsec = second ↔ LandsOnSecond d.clock d.millis := by
  obtain ⟨hnonneg, hlt⟩ := d.clock.normalised
  have hmillis : 0 ≤ d.millis := sum_millis_nonneg d.delays
  obtain ⟨htotal, h0, h1, hzero, hsecond⟩ := d.settles_time
  unfold LandsOnSecond
  simp only [Timespec.total, addNsec, second, milliSec] at *
  omega

end Deadline

/-- `add_time_millis` ends, with a normalised time at the right instant. -/
structure AddsExactly (t : ClockTime) (m : Delay) : Prop where
  /-- The condition of the loop is false. -/
  ends : ¬(addTimeMillis t.toTimespec m.millis).tvNsec > second
  /-- More rounds would change nothing. -/
  steady : ∀ rounds : ℕ, ((t.tvNsec + m.millis * milliSec) / second).toNat ≤ rounds →
    carrySeconds rounds (t.addNsec (m.millis * milliSec)) = addTimeMillis t.toTimespec m.millis
  normalised : (addTimeMillis t.toTimespec m.millis).Normalised
  total : (addTimeMillis t.toTimespec m.millis).total = t.total + m.millis * milliSec

theorem addsExactly_iff (t : ClockTime) (m : Delay) :
    AddsExactly t m ↔ ¬LandsOnSecond t m.millis := by
  have hmillis : Deadline.millis ⟨t, [m]⟩ = m.millis := List.sum_singleton
  have hlands := Deadline.tvNsec_time_eq_iff ⟨t, [m]⟩
  have hsettles := Deadline.settles_time ⟨t, [m]⟩
  rw [hmillis] at hlands hsettles
  rw [← hlands]
  constructor
  · intro h
    exact h.normalised.2.ne
  · intro h
    have hnonneg : 0 ≤ t.tvNsec + m.millis * milliSec :=
      Int.add_nonneg t.normalised.1 (Int.mul_nonneg m.nonneg (by decide))
    refine ⟨hsettles.le_second.not_gt, fun rounds hrounds => ?_,
      ⟨hsettles.nonneg, lt_of_le_of_ne hsettles.le_second h⟩,
      hsettles.total.trans (add_assoc _ _ _).symm⟩
    rw [addTimeMillis_eq t.normalised.1 m.nonneg]
    refine carrySeconds_eq rounds hnonneg ?_
    change t.tvNsec + m.millis * milliSec < _
    unfold second at *
    omega

/-- `compare_time` compares the instants. -/
def ComparesExactly (a b : Deadline) : Prop :=
  compareTime a.time b.time = true ↔ a.time.total > b.time.total

/-- The second deadline lands on a second, and the first is the same instant and does
not. -/
def Collide (a b : Deadline) : Prop :=
  LandsOnSecond b.clock b.millis ∧ ¬LandsOnSecond a.clock a.millis ∧ a.instant = b.instant

theorem compareTime_iff (t u : Timespec) : compareTime t u = true ↔
    t.tvSec > u.tvSec ∨ t.tvSec = u.tvSec ∧ t.tvNsec > u.tvNsec := by
  unfold compareTime
  split_ifs with hgt hlt
  · exact iff_of_true rfl (Or.inl hgt)
  · exact iff_of_false not_false (by omega)
  · rw [decide_eq_true_iff]
    omega

theorem comparesExactly_iff (a b : Deadline) : ComparesExactly a b ↔ ¬Collide a b := by
  obtain ⟨-, ha0, ha1, -, -⟩ := a.settles_time
  obtain ⟨-, hb0, hb1, -, -⟩ := b.settles_time
  unfold ComparesExactly Collide
  rw [← a.tvNsec_time_eq_iff, ← b.tvNsec_time_eq_iff, ← a.total_time, ← b.total_time,
    compareTime_iff]
  unfold Timespec.total second at *
  omega

/-- `compare_time` is a strict linear order of the instants. -/
structure OrdersInstants (D : Set Deadline) : Prop where
  irrefl : ∀ a ∈ D, ∀ b ∈ D, a.time.total = b.time.total → compareTime a.time b.time = false
  trans : ∀ a ∈ D, ∀ b ∈ D, ∀ c ∈ D, compareTime a.time b.time = true →
    compareTime b.time c.time = true → compareTime a.time c.time = true
  total : ∀ a ∈ D, ∀ b ∈ D, a.time.total ≠ b.time.total →
    compareTime a.time b.time = true ∨ compareTime b.time a.time = true

theorem ordersInstants_iff (D : Set Deadline) :
    OrdersInstants D ↔ ∀ a ∈ D, ∀ b ∈ D, ¬Collide a b := by
  constructor
  · intro h a ha b hb hcollide
    have hequal : a.time.total = b.time.total := by
      rw [a.total_time, b.total_time, hcollide.2.2]
    have hfalse := h.irrefl a ha b hb hequal
    have hexact : ComparesExactly a b := by
      rw [ComparesExactly, hfalse, hequal]
      exact iff_of_false Bool.false_ne_true (lt_irrefl _)
    exact (comparesExactly_iff a b).1 hexact hcollide
  · intro h
    have hexact : ∀ a ∈ D, ∀ b ∈ D, ComparesExactly a b := fun a ha b hb =>
      (comparesExactly_iff a b).2 (h a ha b hb)
    refine ⟨fun a ha b hb hequal => ?_, fun a ha b hb c hc hab hbc => ?_, fun a ha b hb hne => ?_⟩
    · exact Bool.eq_false_iff.2 fun hgt => ((hexact a ha b hb).1 hgt).ne' hequal
    · exact (hexact a ha c hc).2 (((hexact b hb c hc).1 hbc).trans ((hexact a ha b hb).1 hab))
    · exact hne.lt_or_gt.symm.imp (hexact a ha b hb).2 (hexact b hb a ha).2

/-- The arithmetic is exact for what does not land on a second, and the comparison for
deadlines that do not collide. -/
theorem deadlines_iff (t : ClockTime) (m : Delay) (a b : Deadline) (D : Set Deadline) :
    (AddsExactly t m ↔ ¬LandsOnSecond t m.millis) ∧ (ComparesExactly a b ↔ ¬Collide a b) ∧
      (OrdersInstants D ↔ ∀ a ∈ D, ∀ b ∈ D, ¬Collide a b) :=
  ⟨addsExactly_iff t m, comparesExactly_iff a b, ordersInstants_iff D⟩

/-- All deadlines are exact, and their order is that of the instants. -/
def DeadlinesExact : Prop :=
  (∀ (t : ClockTime) (m : Delay), AddsExactly t m) ∧ (∀ a b : Deadline, ComparesExactly a b) ∧
    OrdersInstants Set.univ

/-- 200 ms after 0.8 s. -/
theorem not_deadlinesExact : ¬DeadlinesExact := fun h =>
  absurd (h.1 ⟨⟨0, 800000000⟩, by decide⟩ ⟨200, by decide, by decide⟩).normalised (by decide)

end Quadrupel
