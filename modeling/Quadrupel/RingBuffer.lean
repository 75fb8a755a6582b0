import Mathlib.Data.List.Basic
import Mathlib.Data.Nat.ModEq
import Mathlib.Logic.Function.Basic
import Mathlib.Tactic.TypeStar

/-!
# Ring buffers

A ring of `n` slots with the index of the oldest element, the index of the newest one and
their number. `contents` is the list that it holds, oldest first. As long as the ring is
well formed, which says where the newest element is and that there are at most `n`, an
element that is put into a ring with a free slot goes to the end of the list
(`contents_enqueue`), and the one taken from a ring that is not empty is its head
(`contents_dequeue`). Put into a full ring, an element takes the place of the oldest one,
before all the others, and stands behind them as well (`contents_enqueue_full`).
-/

namespace Quadrupel

/-- A ring buffer. The slots from `n` on are not used. -/
structure RingBuffer (α : Type*) where
  slot : ℕ → α
  first : ℕ
  last : ℕ
  count : ℕ

namespace RingBuffer

variable {α : Type*} (n : ℕ)

/-- Put an element behind the newest one. -/
def enqueue (x : α) (r : RingBuffer α) : RingBuffer α :=
  let last := (r.last + 1) % n
  { r with slot := Function.update r.slot last x, last, count := r.count + 1 }

/-- Take the oldest element. -/
def dequeue (r : RingBuffer α) : α × RingBuffer α :=
  (r.slot r.first, { r with first := (r.first + 1) % n, count := r.count - 1 })

/-- The elements, oldest first. -/
def contents (r : RingBuffer α) : List α :=
  (List.range r.count).map fun i => r.slot ((r.first + i) % n)

/-- The indices and the number of elements fit together. -/
structure WellFormed (r : RingBuffer α) : Prop where
  first_lt : r.first < n
  last_succ : (r.last + 1) % n = (r.first + r.count) % n
  count_le : r.count ≤ n

variable {n}

@[simp] theorem length_contents (r : RingBuffer α) : (r.contents n).length = r.count := by
  simp [contents]

/-- Two places of the ring less than a round apart are different slots. -/
theorem add_mod_ne {first i j : ℕ} (hij : i < j) (hj : j < n) :
    (first + i) % n ≠ (first + j) % n := by
  intro h
  have hmod : i ≡ j [MOD n] := Nat.ModEq.add_left_cancel' first h
  rw [Nat.ModEq, Nat.mod_eq_of_lt (hij.trans hj), Nat.mod_eq_of_lt hj] at hmod
  exact hij.ne hmod

theorem WellFormed.enqueue {r : RingBuffer α} (h : r.WellFormed n) (hcount : r.count < n) (x : α) :
    (r.enqueue n x).WellFormed n where
  first_lt := h.first_lt
  last_succ := by
    simp only [RingBuffer.enqueue]
    rw [h.last_succ, Nat.mod_add_mod, Nat.add_assoc]
  count_le := hcount

theorem contents_enqueue {r : RingBuffer α} (h : r.WellFormed n) (hcount : r.count < n) (x : α) :
    (r.enqueue n x).contents n = r.contents n ++ [x] := by
  simp only [contents, enqueue, List.range_succ, List.map_append, List.map_cons, List.map_nil]
  congr 1
  · refine List.map_congr_left fun i hi => ?_
    rw [h.last_succ, Function.update_of_ne]
    exact add_mod_ne (List.mem_range.1 hi) hcount
  · rw [h.last_succ, Function.update_self]

theorem contents_enqueue_full {r : RingBuffer α} (h : r.WellFormed n) (hcount : r.count = n)
    (x : α) : (r.enqueue n x).contents n = x :: (r.contents n).tail ++ [x] := by
  obtain ⟨k, rfl⟩ : ∃ k, n = k + 1 := ⟨n - 1, by have := h.first_lt; omega⟩
  have hlast : (r.last + 1) % (k + 1) = r.first := by
    rw [h.last_succ, hcount, Nat.add_mod_right, Nat.mod_eq_of_lt h.first_lt]
  have hnewest : (r.first + (k + 1)) % (k + 1) = r.first := by
    rw [Nat.add_mod_right, Nat.mod_eq_of_lt h.first_lt]
  simp only [contents, enqueue, hlast, hcount]
  rw [List.range_succ, List.map_append, List.range_succ_eq_map]
  simp only [List.map_cons, List.map_nil, List.map_map, List.tail_cons, hnewest,
    Function.update_self, Nat.add_zero, Nat.mod_eq_of_lt h.first_lt]
  congr 2
  refine List.map_congr_left fun i hi => ?_
  have hne : (r.first + 0) % (k + 1) ≠ (r.first + (i + 1)) % (k + 1) :=
    add_mod_ne (Nat.succ_pos i) (Nat.succ_lt_succ (List.mem_range.1 hi))
  rw [Nat.add_zero, Nat.mod_eq_of_lt h.first_lt] at hne
  exact Function.update_of_ne hne.symm _ _

theorem WellFormed.dequeue {r : RingBuffer α} (h : r.WellFormed n) (hcount : 0 < r.count) :
    (r.dequeue n).2.WellFormed n where
  first_lt := Nat.mod_lt _ (Nat.zero_lt_of_lt h.first_lt)
  last_succ := by
    have hsum : r.first + 1 + (r.count - 1) = r.first + r.count := by omega
    simp only [RingBuffer.dequeue]
    rw [h.last_succ, Nat.mod_add_mod, hsum]
  count_le := Nat.le_trans (Nat.sub_le _ _) h.count_le

theorem contents_dequeue {r : RingBuffer α} (h : r.WellFormed n) (hcount : 0 < r.count) :
    r.contents n = (r.dequeue n).1 :: (r.dequeue n).2.contents n := by
  obtain ⟨k, hk⟩ : ∃ k, r.count = k + 1 := ⟨r.count - 1, by omega⟩
  simp only [contents, dequeue, hk, List.range_succ_eq_map, List.map_cons, List.map_map,
    Nat.add_sub_cancel, Nat.add_zero, Nat.mod_eq_of_lt h.first_lt]
  congr 1
  refine List.map_congr_left fun i _ => ?_
  simp only [Function.comp_apply, Nat.mod_add_mod, Nat.succ_eq_add_one]
  congr 2
  omega

end RingBuffer

end Quadrupel
