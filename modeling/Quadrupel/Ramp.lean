import Mathlib.Algebra.Order.Ring.Abs
import Mathlib.Order.Interval.Set.Basic
import Mathlib.Tactic.Linarith
import Mathlib.Tactic.Ring
import Mathlib.Tactic.Push

/-!
# Ramping levels down to zero

A family of levels follows a setpoint that itself falls to zero. On every tick each level
approaches the setpoint by at most `δ`, without overshooting it, and the setpoint falls
by `δ`, but not below zero (`Ramp.tick`). The levels may start on either side of the
setpoint and may meet or cross it; an interval around the target shrinks by `δ` on each
tick all the same (`approach_shrink`). So a ramp whose levels are within `(n + 1) δ` of
zero and whose setpoint is at most `n δ` comes one `δ` closer on every tick
(`Ramp.Within.tick`) and has all levels at zero after `n + 1` of them
(`Ramp.Within.level_tick`).
-/

open Set

namespace Quadrupel

variable {α : Type*} [CommRing α] [LinearOrder α] [IsStrictOrderedRing α]

/-- One move from `x` towards `t`, by at most `δ`. -/
def approach (δ t x : α) : α :=
  if x < t then x + min (t - x) δ else if t < x then x - min (x - t) δ else x

theorem abs_approach_sub_le {δ : α} (hδ : 0 ≤ δ) (t x : α) : |approach δ t x - x| ≤ δ := by
  unfold approach
  split_ifs with h1 h2
  · have h := min_le_right (t - x) δ
    have h' : 0 ≤ min (t - x) δ := le_min (by linarith) hδ
    rw [add_sub_cancel_left, abs_of_nonneg h']
    exact h
  · have h := min_le_right (x - t) δ
    have h' : 0 ≤ min (x - t) δ := le_min (by linarith) hδ
    rw [sub_sub_cancel_left, abs_neg, abs_of_nonneg h']
    exact h
  · rwa [sub_self, abs_zero]

/-- A move towards a target in an interval, from at most `δ` outside it, ends inside. -/
theorem approach_shrink {δ t x a b : α} (ht : t ∈ Icc a b)
    (hx : x ∈ Icc (a - δ) (b + δ)) : approach δ t x ∈ Icc a b := by
  obtain ⟨hta, htb⟩ := ht
  obtain ⟨hxa, hxb⟩ := hx
  unfold approach
  split_ifs with h1 h2
  · rcases min_cases (t - x) δ with ⟨hm, -⟩ | ⟨hm, hlt⟩ <;> rw [hm] <;> constructor <;> linarith
  · rcases min_cases (x - t) δ with ⟨hm, -⟩ | ⟨hm, hlt⟩ <;> rw [hm] <;> constructor <;> linarith
  · constructor <;> linarith

/-- An interval that holds the level and the target holds the level after the move. -/
theorem approach_mem {δ t x a b : α} (hδ : 0 ≤ δ) (ht : t ∈ Icc a b) (hx : x ∈ Icc a b) :
    approach δ t x ∈ Icc a b :=
  approach_shrink ht ⟨by linarith [hx.1], by linarith [hx.2]⟩

/-- Levels and the setpoint that they follow. -/
structure Ramp (ι α : Type*) where
  setpoint : α
  level : ι → α

namespace Ramp

variable {ι : Type*}

/-- One tick of the ramp. -/
def tick (δ : α) (s : Ramp ι α) : Ramp ι α where
  setpoint := max 0 (s.setpoint - δ)
  level i := approach δ s.setpoint (s.level i)

/-- The ramp is at most `n + 1` ticks from the end. -/
structure Within (δ : α) (n : ℕ) (s : Ramp ι α) : Prop where
  setpoint_nonneg : 0 ≤ s.setpoint
  setpoint_le : s.setpoint ≤ n * δ
  level_mem : ∀ i, s.level i ∈ Icc (-((n + 1) * δ)) ((n + 1) * δ)

/-- The setpoint is in every level's band and the level too. -/
structure Banded (lo : α) (hi : ι → α) (s : Ramp ι α) : Prop where
  setpoint_mem : ∀ i, s.setpoint ∈ Icc lo (hi i)
  level_mem : ∀ i, s.level i ∈ Icc lo (hi i)

/-- The setpoint is not above zero and all levels. -/
def Covered (s : Ramp ι α) : Prop :=
  s.setpoint ≤ 0 ∨ ∃ i, s.setpoint ≤ s.level i

theorem Covered.tick {δ : α} (hδ : 0 ≤ δ) {s : Ramp ι α} (h : s.Covered) :
    (s.tick δ).Covered := by
  rcases le_or_gt (s.setpoint - δ) 0 with hlow | hhigh
  · exact Or.inl (max_le (le_refl 0) hlow)
  · rcases h with hzero | ⟨i, hi⟩
    · linarith
    · have hmem : (s.tick δ).level i ∈ Icc s.setpoint (s.level i) :=
        approach_mem hδ ⟨le_refl _, hi⟩ ⟨hi, le_refl _⟩
      exact Or.inr ⟨i, (max_le (by linarith) (by linarith)).trans hmem.1⟩

theorem Within.tick {δ : α} (hδ : 0 ≤ δ) {n : ℕ} {s : Ramp ι α} (h : s.Within δ (n + 1)) :
    (s.tick δ).Within δ n := by
  obtain ⟨h0, hle, hlevel⟩ := h
  have hn : (0 : α) ≤ n * δ := mul_nonneg n.cast_nonneg hδ
  push_cast at hle hlevel
  refine ⟨le_max_left _ _, max_le hn (by linarith), fun i => ?_⟩
  obtain ⟨hlo, hhi⟩ := hlevel i
  exact approach_shrink ⟨by linarith, hle⟩ ⟨by linarith, by linarith⟩

theorem Within.level_tick {δ : α} {s : Ramp ι α} (h : s.Within δ 0) (i : ι) :
    (s.tick δ).level i = 0 := by
  obtain ⟨h0, hle, hlevel⟩ := h
  simp only [Nat.cast_zero, zero_mul, zero_add, one_mul] at hle hlevel
  have hmem : (s.tick δ).level i ∈ Icc (0 : α) 0 :=
    approach_shrink ⟨h0, hle⟩ ⟨by linarith [(hlevel i).1], by linarith [(hlevel i).2]⟩
  exact le_antisymm hmem.2 hmem.1

theorem Banded.tick {δ lo : α} (hδ : 0 ≤ δ) {hi : ι → α} {s : Ramp ι α} (h : s.Banded lo hi)
    (hlo : lo ≤ 0) (hhi : ∀ i, 0 ≤ hi i) : (s.tick δ).Banded lo hi :=
  ⟨fun i => ⟨hlo.trans (le_max_left _ _), max_le (hhi i) (by linarith [(h.setpoint_mem i).2])⟩,
    fun i => approach_mem hδ (h.setpoint_mem i) (h.level_mem i)⟩

end Ramp

end Quadrupel
