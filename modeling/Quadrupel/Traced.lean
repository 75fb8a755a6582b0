import Mathlib.Data.List.Basic
import Mathlib.Logic.Function.Basic
import Mathlib.Tactic.TypeStar

/-!
# A memory that records its accesses

`Traced` is a memory that any index can be read from and written to, with the accesses
so far. `Within n` says of the memory before and after a computation that every access
in between was below `n` and that the cells from `n` on are as they were. It holds of
`load` and `store` below `n`, composes (`Within.trans`), and is all that a caller needs to
know to stay in its buffer.

`loads` and `stores` are runs of accesses to one cell after the other.
-/

namespace Quadrupel

/-- A read or a write, at an index. -/
inductive Access
  | read (index : ℕ)
  | write (index : ℕ)
deriving DecidableEq, Repr

/-- Where the access is. -/
def Access.index : Access → ℕ
  | read i => i
  | write i => i

def Access.isWrite : Access → Bool
  | read _ => false
  | write _ => true

/-- The cells of a memory, and the accesses to them. -/
structure Traced (α : Type*) where
  cells : ℕ → α
  accesses : List Access

namespace Traced

variable {α : Type*}

/-- A read. -/
def load (i : ℕ) (m : Traced α) : α × Traced α :=
  (m.cells i, { m with accesses := m.accesses ++ [.read i] })

/-- A write. -/
def store (i : ℕ) (a : α) (m : Traced α) : Traced α where
  cells := Function.update m.cells i a
  accesses := m.accesses ++ [.write i]

@[simp] theorem load_fst (i : ℕ) (m : Traced α) : (m.load i).1 = m.cells i :=
  rfl

@[simp] theorem cells_load (i : ℕ) (m : Traced α) : (m.load i).2.cells = m.cells :=
  rfl

@[simp] theorem cells_store (i : ℕ) (a : α) (m : Traced α) :
    (m.store i a).cells = Function.update m.cells i a :=
  rfl

/-- From `m` to `m'` every access is below `n`, and no cell from `n` on changes. -/
structure Within (n : ℕ) (m m' : Traced α) : Prop where
  accesses : ∀ a ∈ m'.accesses, a ∈ m.accesses ∨ a.index < n
  cells : ∀ i, n ≤ i → m'.cells i = m.cells i

theorem Within.refl (n : ℕ) (m : Traced α) : m.Within n m :=
  ⟨fun _ ha => Or.inl ha, fun _ _ => rfl⟩

theorem Within.trans {n : ℕ} {m m' m'' : Traced α} (h : m.Within n m') (h' : m'.Within n m'') :
    m.Within n m'' := by
  refine ⟨fun a ha => ?_, fun i hi => (h'.cells i hi).trans (h.cells i hi)⟩
  rcases h'.accesses a ha with hold | hlt
  · exact h.accesses a hold
  · exact Or.inr hlt

theorem within_load {n i : ℕ} (hi : i < n) (m : Traced α) : m.Within n (m.load i).2 := by
  refine ⟨fun a ha => ?_, fun _ _ => rfl⟩
  refine (List.mem_append.1 ha).imp_right fun ha => ?_
  rw [List.mem_singleton.1 ha]
  exact hi

theorem within_store {n i : ℕ} (hi : i < n) (a : α) (m : Traced α) :
    m.Within n (m.store i a) := by
  refine ⟨fun b hb => ?_, fun j hj => Function.update_of_ne (by omega) _ _⟩
  refine (List.mem_append.1 hb).imp_right fun hb => ?_
  rw [List.mem_singleton.1 hb]
  exact hi

/-! ## Runs of accesses -/

/-- A memory that holds the list, not accessed yet. -/
def ofList [Inhabited α] (as : List α) : Traced α where
  cells i := as.getD i default
  accesses := []

/-- Reads of `n` cells from `i` on. -/
def loads (i n : ℕ) (m : Traced α) : Traced α :=
  { m with accesses := m.accesses ++ (List.range' i n).map .read }

/-- The `n` cells from `i` on. -/
def slice (i n : ℕ) (m : Traced α) : List α :=
  (List.range' i n).map m.cells

/-- Writes of the list from `i` on. -/
def stores (i : ℕ) : List α → Traced α → Traced α
  | [], m => m
  | a :: as, m => stores (i + 1) as (m.store i a)

@[simp] theorem accesses_loads (i n : ℕ) (m : Traced α) :
    (m.loads i n).accesses = m.accesses ++ (List.range' i n).map .read :=
  rfl

@[simp] theorem slice_zero (i : ℕ) (m : Traced α) : m.slice i 0 = [] :=
  rfl

theorem slice_succ (i n : ℕ) (m : Traced α) :
    m.slice i (n + 1) = m.cells i :: m.slice (i + 1) n :=
  rfl

@[simp] theorem length_slice (i n : ℕ) (m : Traced α) : (m.slice i n).length = n := by
  simp [slice]

theorem loads_zero (i : ℕ) (m : Traced α) : m.loads i 0 = m := by
  simp [loads]

theorem loads_load (i n : ℕ) (m : Traced α) : (m.load i).2.loads (i + 1) n = m.loads i (n + 1) := by
  simp [loads, load, List.range'_succ]

@[simp] theorem accesses_stores (i : ℕ) (as : List α) (m : Traced α) :
    (m.stores i as).accesses = m.accesses ++ (List.range' i as.length).map .write := by
  induction as generalizing i m with
  | nil => simp [stores]
  | cons a as ih => simp [stores, ih, store, List.range'_succ]

theorem cells_stores (i : ℕ) (as : List α) (m : Traced α) (j : ℕ) :
    (m.stores i as).cells j = if i ≤ j then as.getD (j - i) (m.cells j) else m.cells j := by
  induction as generalizing i m with
  | nil => simp [stores]
  | cons a as ih =>
    rw [stores, ih, cells_store]
    rcases Nat.lt_trichotomy j i with hlt | rfl | hgt
    · rw [if_neg (by omega), if_neg (by omega), Function.update_of_ne (Nat.ne_of_lt hlt)]
    · rw [if_neg (by omega), if_pos (Nat.le_refl j), Function.update_self, Nat.sub_self,
        List.getD_cons_zero]
    · obtain ⟨k, rfl⟩ := Nat.exists_eq_add_of_lt hgt
      have hk : i + k + 1 - i = k + 1 := by omega
      have hk' : i + k + 1 - (i + 1) = k := by omega
      rw [if_pos (by omega), if_pos (by omega), hk, hk', List.getD_cons_succ,
        Function.update_of_ne (by omega)]

theorem slice_stores (i : ℕ) (as : List α) (m : Traced α) :
    (m.stores i as).slice i as.length = as := by
  apply List.ext_getElem
  · simp
  · intro j hj hj'
    have hcell := cells_stores i as m (i + j)
    rw [if_pos (Nat.le_add_right i j), Nat.add_sub_cancel_left] at hcell
    simp [slice, hcell, hj']

end Traced

end Quadrupel
