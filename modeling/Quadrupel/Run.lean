import Mathlib.Data.List.Induction
import Mathlib.Tactic.TypeStar

/-!
# Runs of an event-driven machine

A `Machine` reads events one at a time; on each it moves to a next state and gives an
output. `run` is the state after a list of events, `outputs` the outputs on the way.

`Along good` says that every step of a run is good : it is the form of a condition on
the steps of a run, and of a property that every step is to have (`along_iff` reads it
at each split of the events). An invariant that good steps keep holds in every state of
such a run (`run_invariant`), and whatever it gives at one step holds along the run
(`along_of_invariant`; `along_iff_of_invariant` if only good steps give it), and what it
counts down to is reached after so many helpful steps (`run_countdown`).
`Happens mark` says that some step of a run is marked, and `happens_of_run` that a
property which only marked steps bring about has its mark in the run, and
`exists_mark_within` that a mark which is counted down to comes in time; `OnlyAfter mark`
says that the steps with a property come only after a marked one, and `InOrder marks` that
there are steps with all the marks, one after the other.

`history_invariant` is the rule for invariants that also speak of the outputs so far,
`trace_invariant` the one for those that speak of the events as well, `run_refines` the
one for a machine whose every step is a run of another (`run_related` if that is so only
up to a relation of the states), and `run_simulates` the one for a machine whose every
step is a step of another.
-/

namespace Quadrupel

/-- An element of a list with one more at its end is the last one, or was there before. -/
theorem concat_eq_append_cons {α : Type*} {as before after : List α} {a b : α}
    (h : as ++ [a] = before ++ b :: after) : after = [] ∧ as = before ∧ a = b ∨
      ∃ after', after = after' ++ [a] ∧ as = before ++ b :: after' := by
  induction after using List.reverseRecOn with
  | nil =>
    obtain ⟨has, hlast⟩ := List.append_inj' h rfl
    exact Or.inl ⟨rfl, has, List.singleton_inj.1 hlast⟩
  | append_singleton after' last =>
    rw [← List.cons_append, ← List.append_assoc] at h
    obtain ⟨has, hlast⟩ := List.append_inj' h rfl
    exact Or.inr ⟨after', by rw [List.singleton_inj.1 hlast], has⟩

/-- A deterministic machine with states `σ`, events `ε` and outputs `ο`. -/
structure Machine (σ ε ο : Type*) where
  /-- The state after an event. -/
  next : σ → ε → σ
  /-- The output on an event. -/
  out : σ → ε → ο

namespace Machine

variable {σ ε ο : Type*} (M : Machine σ ε ο)

/-- The state after the events `es`. -/
def run (s : σ) (es : List ε) : σ :=
  es.foldl M.next s

/-- The outputs on the events `es`, in order. -/
def outputs : σ → List ε → List ο
  | _, [] => []
  | s, e :: es => M.out s e :: outputs (M.next s e) es

@[simp] theorem run_nil (s : σ) : M.run s [] = s :=
  rfl

@[simp] theorem run_cons (s : σ) (e : ε) (es : List ε) :
    M.run s (e :: es) = M.run (M.next s e) es :=
  rfl

@[simp] theorem run_append (s : σ) (es fs : List ε) :
    M.run s (es ++ fs) = M.run (M.run s es) fs :=
  List.foldl_append

@[simp] theorem outputs_nil (s : σ) : M.outputs s [] = [] :=
  rfl

@[simp] theorem outputs_cons (s : σ) (e : ε) (es : List ε) :
    M.outputs s (e :: es) = M.out s e :: M.outputs (M.next s e) es :=
  rfl

@[simp] theorem length_outputs (s : σ) (es : List ε) : (M.outputs s es).length = es.length := by
  induction es generalizing s with
  | nil => rfl
  | cons e es ih => simp [ih]

theorem outputs_append (s : σ) (es fs : List ε) :
    M.outputs s (es ++ fs) = M.outputs s es ++ M.outputs (M.run s es) fs := by
  induction es generalizing s with
  | nil => rfl
  | cons e es ih => simp [ih]

/-! ## Properties of every step -/

/-- Every step of the run from `s` on the events is `good`. -/
def Along (good : σ → ε → Prop) : σ → List ε → Prop
  | _, [] => True
  | s, e :: es => good s e ∧ Along good (M.next s e) es

instance decidableAlong (good : σ → ε → Prop) [∀ s e, Decidable (good s e)] :
    ∀ s es, Decidable (M.Along good s es)
  | _, [] => inferInstanceAs (Decidable True)
  | s, e :: es =>
    have := decidableAlong good (M.next s e) es
    inferInstanceAs (Decidable (good s e ∧ M.Along good (M.next s e) es))

@[simp] theorem along_nil (good : σ → ε → Prop) (s : σ) : M.Along good s [] :=
  trivial

@[simp] theorem along_cons (good : σ → ε → Prop) (s : σ) (e : ε) (es : List ε) :
    M.Along good s (e :: es) ↔ good s e ∧ M.Along good (M.next s e) es :=
  Iff.rfl

theorem along_append (good : σ → ε → Prop) (s : σ) (es fs : List ε) :
    M.Along good s (es ++ fs) ↔ M.Along good s es ∧ M.Along good (M.run s es) fs := by
  induction es generalizing s with
  | nil => simp
  | cons e es ih => simp [ih, and_assoc]

/-- A property holds along a run iff it holds at the step on every event, taken in the
state that the events before it lead to. -/
theorem along_iff (good : σ → ε → Prop) (s : σ) (es : List ε) :
    M.Along good s es ↔ ∀ pre e post, es = pre ++ e :: post → good (M.run s pre) e := by
  constructor
  · rintro h pre e post rfl
    rw [along_append, along_cons] at h
    exact h.2.1
  · intro h
    induction es generalizing s with
    | nil => trivial
    | cons e es ih =>
      refine ⟨h [] e es rfl, ih _ fun pre e' post hes => ?_⟩
      exact h (e :: pre) e' post (by rw [hes, List.cons_append])

theorem along_congr {good good' : σ → ε → Prop} (h : ∀ s e, good s e ↔ good' s e) (s : σ)
    (es : List ε) : M.Along good s es ↔ M.Along good' s es := by
  induction es generalizing s with
  | nil => rfl
  | cons e es ih => rw [along_cons, along_cons, h, ih]

theorem along_mono {good good' : σ → ε → Prop} (h : ∀ s e, good s e → good' s e) {s : σ}
    {es : List ε} (hes : M.Along good s es) : M.Along good' s es := by
  induction es generalizing s with
  | nil => trivial
  | cons e es ih => exact ⟨h s e hes.1, ih hes.2⟩

/-- A condition on the events alone. -/
theorem along_events (good : ε → Prop) (s : σ) (es : List ε) :
    M.Along (fun _ e => good e) s es ↔ ∀ e ∈ es, good e := by
  induction es generalizing s with
  | nil => simp
  | cons e es ih => rw [along_cons, ih, List.forall_mem_cons]

theorem along_and (good good' : σ → ε → Prop) (s : σ) (es : List ε) :
    M.Along (fun s e => good s e ∧ good' s e) s es ↔ M.Along good s es ∧ M.Along good' s es := by
  induction es generalizing s with
  | nil => simp
  | cons e es ih => rw [along_cons, along_cons, along_cons, ih, and_and_and_comm]

/-- An invariant that good steps keep holds after a run of good steps. -/
theorem run_invariant {Inv : σ → Prop} {good : σ → ε → Prop}
    (hstep : ∀ s e, Inv s → good s e → Inv (M.next s e)) {s : σ} {es : List ε} (hs : Inv s)
    (hes : M.Along good s es) : Inv (M.run s es) := by
  induction es generalizing s with
  | nil => exact hs
  | cons e es ih => exact ih (hstep s e hs hes.1) hes.2

/-- An invariant that every step keeps holds after every run. -/
theorem run_always {Inv : σ → Prop} (hstep : ∀ s e, Inv s → Inv (M.next s e)) {s : σ}
    (es : List ε) (hs : Inv s) : Inv (M.run s es) := by
  induction es generalizing s with
  | nil => exact hs
  | cons e es ih => exact ih (hstep s e hs)

/-- What an invariant gives at each good step holds along a run of good steps. -/
theorem along_of_invariant {Inv : σ → Prop} {good prop : σ → ε → Prop}
    (hstep : ∀ s e, Inv s → good s e → Inv (M.next s e) ∧ prop s e) {s : σ} {es : List ε}
    (hs : Inv s) (hes : M.Along good s es) : M.Along prop s es := by
  induction es generalizing s with
  | nil => trivial
  | cons e es ih =>
    obtain ⟨hnext, hprop⟩ := hstep s e hs hes.1
    exact ⟨hprop, ih hnext hes.2⟩

/-- What an invariant gives at each step holds along every run. -/
theorem along_always {Inv : σ → Prop} {prop : σ → ε → Prop}
    (hstep : ∀ s e, Inv s → Inv (M.next s e) ∧ prop s e) {s : σ} (es : List ε) (hs : Inv s) :
    M.Along prop s es := by
  induction es generalizing s with
  | nil => trivial
  | cons e es ih => exact ⟨(hstep s e hs).2, ih (hstep s e hs).1⟩

/-- If, on the states of an invariant, the good steps are those with the property, and
they keep the invariant, then a run has the property along it iff all its steps are
good. -/
theorem along_iff_of_invariant {Inv : σ → Prop} {good prop : σ → ε → Prop}
    (hiff : ∀ s e, Inv s → (prop s e ↔ good s e))
    (hstep : ∀ s e, Inv s → good s e → Inv (M.next s e)) {s : σ} (es : List ε) (hs : Inv s) :
    M.Along prop s es ↔ M.Along good s es := by
  induction es generalizing s with
  | nil => exact Iff.rfl
  | cons e es ih =>
    rw [along_cons, along_cons, hiff s e hs]
    exact and_congr_right fun hgood => ih (hstep s e hs hgood)

/-- An invariant of the state and the outputs so far. -/
theorem history_invariant {Inv : σ → List ο → Prop}
    (hstep : ∀ s h e, Inv s h → Inv (M.next s e) (h ++ [M.out s e])) {s : σ} {h : List ο}
    (es : List ε) (hs : Inv s h) : Inv (M.run s es) (h ++ M.outputs s es) := by
  induction es generalizing s h with
  | nil => simpa using hs
  | cons e es ih => simpa using ih (hstep s h e hs)

/-- An invariant of the events and the outputs so far and the state, which good steps
keep. -/
theorem trace_invariant {Inv : List ε → List ο → σ → Prop} {good : σ → ε → Prop}
    (hstep : ∀ es h s e, Inv es h s → good s e → Inv (es ++ [e]) (h ++ [M.out s e]) (M.next s e))
    {s : σ} {es : List ε} (hs : Inv [] [] s) (hes : M.Along good s es) :
    Inv es (M.outputs s es) (M.run s es) := by
  induction es using List.reverseRecOn with
  | nil => exact hs
  | append_singleton es e ih =>
    rw [along_append, along_cons] at hes
    rw [outputs_append, run_append]
    exact hstep es _ _ e (ih hes.1) hes.2.1

/-- The number of helpful steps of the run from `s` on the events. -/
def count (helpful : σ → ε → Bool) : σ → List ε → ℕ
  | _, [] => 0
  | s, e :: es => (if helpful s e then 1 else 0) + count helpful (M.next s e) es

/-- If it is the events that are helpful, they are counted. -/
theorem count_events (helpful : ε → Bool) (s : σ) (es : List ε) :
    M.count (fun _ e => helpful e) s es = es.countP helpful := by
  induction es generalizing s with
  | nil => rfl
  | cons e es ih => rw [count, ih, List.countP_cons, Nat.add_comm]

/-- An invariant with a counter : if good steps keep it, and the helpful ones lower the
counter, then so do the helpful steps of a run together. -/
theorem run_countdown {Inv : ℕ → σ → Prop} {good : σ → ε → Prop} {helpful : σ → ε → Bool}
    (hstep : ∀ n s e, Inv n s → good s e → Inv (if helpful s e then n - 1 else n) (M.next s e))
    {n : ℕ} {s : σ} {es : List ε} (hs : Inv n s) (hes : M.Along good s es) :
    Inv (n - M.count helpful s es) (M.run s es) := by
  induction es generalizing n s with
  | nil => exact hs
  | cons e es ih =>
    have hrest := ih (hstep n s e hs hes.1) hes.2
    rw [count]
    cases he : helpful s e with
    | true =>
      rw [he, if_pos rfl, Nat.sub_sub] at hrest
      exact hrest
    | false =>
      rw [he] at hrest
      rw [if_neg Bool.false_ne_true, Nat.zero_add]
      exact hrest

/-! ## Marked steps -/

/-- Some step of the run from `s` on the events is marked. -/
def Happens (mark : σ → ε → Prop) (s : σ) (es : List ε) : Prop :=
  ¬M.Along (fun s e => ¬mark s e) s es

instance decidableHappens (mark : σ → ε → Prop) [∀ s e, Decidable (mark s e)] (s : σ)
    (es : List ε) : Decidable (M.Happens mark s es) :=
  inferInstanceAs (Decidable (¬_))

theorem happens_iff (mark : σ → ε → Prop) (s : σ) (es : List ε) :
    M.Happens mark s es ↔ ∃ pre e post, es = pre ++ e :: post ∧ mark (M.run s pre) e := by
  simp only [Happens, along_iff, not_forall, not_not, exists_prop]

theorem happens_cons (mark : σ → ε → Prop) (s : σ) (e : ε) (es : List ε) :
    M.Happens mark s (e :: es) ↔ mark s e ∨ M.Happens mark (M.next s e) es := by
  simp only [Happens, along_cons, not_and_or, not_not]

/-- What only marked steps bring about holds after a run only if it held before or a step
of the run is marked. -/
theorem happens_of_run (prop : σ → Prop) {mark : σ → ε → Prop}
    (hstep : ∀ s e, prop (M.next s e) → prop s ∨ mark s e) {s : σ} {es : List ε}
    (h : prop (M.run s es)) : prop s ∨ M.Happens mark s es := by
  induction es generalizing s with
  | nil => exact Or.inl h
  | cons e es ih =>
    rw [happens_cons]
    rcases ih h with hnext | hlater
    · exact (hstep s e hnext).imp_right Or.inl
    · exact Or.inr (Or.inr hlater)

/-- If the helpful events count down to a marked step, then the run has one before so many
of them are over. -/
theorem exists_mark_within {Inv : ℕ → σ → Prop} {mark : σ → ε → Prop} {helpful : ε → Bool}
    (hstep : ∀ n s e, Inv n s → ¬mark s e → Inv (if helpful e then n - 1 else n) (M.next s e))
    (hzero : ∀ s, ¬Inv 0 s) {n : ℕ} {s : σ} {es : List ε} (hs : Inv n s)
    (hes : n ≤ es.countP helpful) :
    ∃ pre e post, es = pre ++ e :: post ∧ pre.countP helpful < n ∧ mark (M.run s pre) e := by
  have hpos (n : ℕ) (s : σ) (h : Inv n s) : 0 < n :=
    Nat.pos_of_ne_zero fun h0 => hzero s (h0 ▸ h)
  induction es generalizing n s with
  | nil => exact absurd (hpos n s hs) (Nat.not_lt.2 hes)
  | cons e es ih =>
    by_cases hmark : mark s e
    · exact ⟨[], e, es, rfl, hpos n s hs, hmark⟩
    · have hnext := hstep n s e hs hmark
      have hleft := hpos _ _ hnext
      have hcount : (if helpful e then n - 1 else n) ≤ es.countP helpful := by
        rw [List.countP_cons] at hes
        split_ifs at hes ⊢ <;> omega
      obtain ⟨pre, e', post, rfl, hlt, hmark'⟩ := ih hnext hcount
      refine ⟨e :: pre, e', post, rfl, ?_, hmark'⟩
      rw [List.countP_cons]
      split_ifs at hlt hleft ⊢ <;> omega

/-- No step of the run has the property until a step before it is marked. -/
def OnlyAfter (mark prop : σ → ε → Prop) : σ → List ε → Prop
  | _, [] => True
  | s, e :: es => ¬prop s e ∧ (mark s e ∨ OnlyAfter mark prop (M.next s e) es)

instance decidableOnlyAfter (mark prop : σ → ε → Prop) [∀ s e, Decidable (mark s e)]
    [∀ s e, Decidable (prop s e)] : ∀ s es, Decidable (M.OnlyAfter mark prop s es)
  | _, [] => inferInstanceAs (Decidable True)
  | s, e :: es =>
    have := decidableOnlyAfter mark prop (M.next s e) es
    inferInstanceAs (Decidable (¬prop s e ∧ (mark s e ∨ M.OnlyAfter mark prop (M.next s e) es)))

theorem onlyAfter_iff (mark prop : σ → ε → Prop) (s : σ) (es : List ε) :
    M.OnlyAfter mark prop s es ↔
      ∀ pre e post, es = pre ++ e :: post → prop (M.run s pre) e → M.Happens mark s pre := by
  induction es generalizing s with
  | nil => simp [OnlyAfter]
  | cons e es ih =>
    rw [OnlyAfter, ih]
    constructor
    · rintro ⟨hfirst, hrest⟩ pre e' post hes hprop
      cases pre with
      | nil =>
        obtain ⟨rfl, -⟩ := List.cons.inj hes
        exact absurd hprop hfirst
      | cons a pre =>
        obtain ⟨rfl, rfl⟩ := List.cons.inj hes
        exact (M.happens_cons mark s e pre).2 (hrest.imp_right fun h => h pre e' post rfl hprop)
    · intro h
      refine ⟨fun hprop => h [] e es rfl hprop (M.along_nil _ s), ?_⟩
      refine Classical.or_iff_not_imp_left.2 fun hmark pre e' post hes hprop => ?_
      have hhappens := h (e :: pre) e' post (by rw [hes, List.cons_append]) hprop
      exact ((M.happens_cons mark s e pre).1 hhappens).resolve_left hmark

/-- If an invariant excludes the property, and of the good steps only marked ones and those
that have the cause break it, then in a good run the property comes only after a marked step,
as its cause does. -/
theorem onlyAfter_of_invariant {Inv : σ → Prop} {good mark cause prop : σ → ε → Prop}
    (hstep : ∀ s e, Inv s → good s e → ¬mark s e → ¬cause s e → Inv (M.next s e))
    (hprop : ∀ s e, Inv s → ¬prop s e) {s : σ} {es : List ε} (hs : Inv s)
    (hes : M.Along good s es) (h : M.OnlyAfter mark cause s es) : M.OnlyAfter mark prop s es := by
  induction es generalizing s with
  | nil => trivial
  | cons e es ih =>
    obtain ⟨hcause, hrest⟩ := h
    refine ⟨hprop s e hs, Classical.or_iff_not_imp_left.2 fun hmark => ?_⟩
    exact ih (hstep s e hs hes.1 hmark hcause) hes.2 (hrest.resolve_left hmark)

/-! ## Marks in order -/

/-- The run has a step with each of the marks, in this order. -/
def InOrder : List (σ → ε → Prop) → σ → List ε → Prop
  | [], _, _ => True
  | mark :: marks, s, es => ∃ pre e post, es = pre ++ e :: post ∧ mark (M.run s pre) e ∧
      InOrder marks (M.next (M.run s pre) e) post

/-- One more mark, on a step after the others. -/
theorem InOrder.snoc {marks : List (σ → ε → Prop)} {mark : σ → ε → Prop} {s : σ} {es : List ε}
    {e : ε} (h : M.InOrder marks s es) (he : mark (M.run s es) e) (post : List ε) :
    M.InOrder (marks ++ [mark]) s (es ++ e :: post) := by
  induction marks generalizing s es with
  | nil => exact ⟨es, e, post, rfl, he, trivial⟩
  | cons first marks ih =>
    obtain ⟨pre, e', rest, rfl, hfirst, hrest⟩ := h
    refine ⟨pre, e', rest ++ e :: post, by rw [List.append_assoc, List.cons_append], hfirst, ?_⟩
    exact ih hrest (by simpa using he)

/-- If in a good run what is pending ends only with its mark, and each mark but the first
needs the end of what was pending before, then the run in which the last of them has ended has
all the marks in order. -/
theorem inOrder_of_pending {Inv : σ → Prop} {good : σ → ε → Prop} {pending : ℕ → σ → Prop}
    {mark : ℕ → σ → ε → Prop} (hinv : ∀ s e, Inv s → good s e → Inv (M.next s e))
    (hkeep : ∀ i s e, Inv s → good s e → pending i s → ¬mark i s e → pending i (M.next s e))
    (hneed : ∀ i s e, Inv s → mark (i + 1) s e → ¬pending i s) {s : σ} (hs : Inv s)
    (hstart : ∀ i, pending i s) (n : ℕ) {es : List ε} (hes : M.Along good s es)
    (hend : ¬pending n (M.run s es)) : M.InOrder ((List.range (n + 1)).map mark) s es := by
  have hmark (i : ℕ) (es : List ε) (hes : M.Along good s es) (h : ¬pending i (M.run s es)) :
      ∃ pre e post, es = pre ++ e :: post ∧ mark i (M.run s pre) e := by
    rw [← M.happens_iff, Happens]
    intro hnone
    have hboth (s : σ) (e : ε) (h : Inv s ∧ pending i s) (he : good s e ∧ ¬mark i s e) :
        Inv (M.next s e) ∧ pending i (M.next s e) :=
      ⟨hinv s e h.1 he.1, hkeep i s e h.1 he.1 h.2 he.2⟩
    exact h (M.run_invariant hboth ⟨hs, hstart i⟩ ((M.along_and _ _ _ _).2 ⟨hes, hnone⟩)).2
  induction n generalizing es with
  | zero =>
    obtain ⟨pre, e, post, rfl, he⟩ := hmark 0 es hes hend
    exact ⟨pre, e, post, rfl, he, trivial⟩
  | succ n ih =>
    obtain ⟨pre, e, post, rfl, he⟩ := hmark (n + 1) es hes hend
    have hpre := ((M.along_append _ _ _ _).1 hes).1
    rw [List.range_succ, List.map_append]
    exact (ih hpre (hneed n _ e (M.run_invariant hinv hs hpre) he)).snoc M he post

/-! ## Refinement -/

variable {σ' ε' ο' : Type*} (N : Machine σ' ε' ο')

/-- The events of the other machine that stand for the events `es`, where `tr s e` are
those that stand for `e` in state `s`. -/
def translate (tr : σ → ε → List ε') : σ → List ε → List ε'
  | _, [] => []
  | s, e :: es => tr s e ++ translate tr (M.next s e) es

/-- If the view of every step is a run of `N` on the events that stand for it, the view
of a run is a run of `N`. -/
theorem run_refines {view : σ → σ'} {tr : σ → ε → List ε'}
    (hstep : ∀ s e, view (M.next s e) = N.run (view s) (tr s e)) (s : σ) (es : List ε) :
    view (M.run s es) = N.run (view s) (M.translate tr s es) := by
  induction es generalizing s with
  | nil => rfl
  | cons e es ih => simp [translate, ih, hstep]

/-- If on related states every good step of `M` is a run of `N` that leads to related states,
then so is a run of good steps. -/
theorem run_related {R : σ → σ' → Prop} {good : σ → ε → Prop} {tr : σ → ε → List ε'}
    (hstep : ∀ s t e, R s t → good s e → R (M.next s e) (N.run t (tr s e))) {s : σ} {t : σ'}
    {es : List ε} (h : R s t) (hes : M.Along good s es) :
    R (M.run s es) (N.run t (M.translate tr s es)) := by
  induction es generalizing s t with
  | nil => exact h
  | cons e es ih =>
    rw [translate, run_append]
    exact ih (hstep s t e h hes.1) hes.2

/-- If they answer alike, so do the runs. -/
theorem outputs_related {α : Type*} {R : σ → σ' → Prop} {good : σ → ε → Prop}
    {tr : σ → ε → List ε'} {answer : ο → List α} {answer' : ο' → List α}
    (hstep : ∀ s t e, R s t → good s e → R (M.next s e) (N.run t (tr s e)) ∧
      (N.outputs t (tr s e)).flatMap answer' = answer (M.out s e)) {s : σ} {t : σ'} {es : List ε}
    (h : R s t) (hes : M.Along good s es) :
    (N.outputs t (M.translate tr s es)).flatMap answer' =
      (M.outputs s es).flatMap answer := by
  induction es generalizing s t with
  | nil => rfl
  | cons e es ih =>
    obtain ⟨hnext, hout⟩ := hstep s t e h hes.1
    rw [translate, outputs_append, List.flatMap_append, hout, ih hnext hes.2, outputs_cons,
      List.flatMap_cons]

theorem forall_mem_translate {tr : σ → ε → List ε'} {p : ε' → Prop} (s : σ) (es : List ε) :
    (∀ e' ∈ M.translate tr s es, p e') ↔ M.Along (fun s e => ∀ e' ∈ tr s e, p e') s es := by
  induction es generalizing s with
  | nil => simp [translate]
  | cons e es ih => rw [translate, List.forall_mem_append, ih, along_cons]

/-- If on the states of an invariant every step of `M` is, seen through `view` and
`answer`, the step of `N`, then a run of `M` is the run of `N` on the same events. -/
theorem run_simulates {N : Machine σ' ε ο'} {Inv : σ → Prop} {view : σ → σ'} {answer : ο → ο'}
    (hstep : ∀ s e, Inv s → Inv (M.next s e) ∧ view (M.next s e) = N.next (view s) e ∧
      answer (M.out s e) = N.out (view s) e) {s : σ} (es : List ε) (hs : Inv s) :
    view (M.run s es) = N.run (view s) es ∧
      (M.outputs s es).map answer = N.outputs (view s) es := by
  induction es generalizing s with
  | nil => exact ⟨rfl, rfl⟩
  | cons e es ih =>
    obtain ⟨hinv, hview, hout⟩ := hstep s e hs
    obtain ⟨hrun, houts⟩ := ih hinv
    rw [run_cons, run_cons, outputs_cons, outputs_cons, List.map_cons, hrun, houts, hview, hout]
    exact ⟨rfl, rfl⟩

end Machine

end Quadrupel
