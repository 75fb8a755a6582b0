import Quadrupel.RingBuffer
import Quadrupel.Run
import Mathlib

/-!
# The byte queues

`queue.c`, on the ring of 256 bytes that the drone keeps for the bytes it receives and
for those it sends. A queue is a `RingBuffer` (`ring_enqueue`, `ring_dequeue`), so while
`enqueue` finds a free slot, the bytes leave it in the order in which they came. Nothing
checks that it does : `enqueue` on a full queue overwrites the oldest byte, leaves `first`
where it is, and counts on. `intact_iff` says that a queue is intact after any run of
calls iff the backlog never exceeds 256 bytes.
-/

namespace Quadrupel

/-- `QUEUE_SIZE`. -/
abbrev queueSize : ℕ :=
  256

/-- `queue`. -/
structure Queue where
  data : Vector UInt8 queueSize
  first : UInt16
  last : UInt16
  count : UInt16
deriving DecidableEq

namespace Queue

/-- `init_queue`, which leaves the data as they are. -/
def initQueue (q : Queue) : Queue :=
  { q with first := 0, last := 255, count := 0 }

/-- `enqueue`. -/
def enqueue (x : UInt8) (q : Queue) : Queue :=
  let last := (q.last + 1) % 256
  { q with last, data := q.data.setIfInBounds last.toNat x, count := q.count + 1 }

/-- `dequeue`. -/
def dequeue (q : Queue) : UInt8 × Queue :=
  (q.data[q.first.toNat]?.getD 0, { q with first := (q.first + 1) % 256, count := q.count - 1 })

/-! ## The ring -/

/-- The ring buffer that the queue is. -/
def ring (q : Queue) : RingBuffer UInt8 where
  slot i := q.data[i]?.getD 0
  first := q.first.toNat
  last := q.last.toNat
  count := q.count.toNat

/-- The bytes in the queue, oldest first. -/
def contents (q : Queue) : List UInt8 :=
  q.ring.contents queueSize

/-- The indices and the count fit together, and at most 256 bytes wait. -/
def WellFormed (q : Queue) : Prop :=
  q.ring.WellFormed queueSize

theorem wellFormed_initQueue (q : Queue) : q.initQueue.WellFormed where
  first_lt := Nat.zero_lt_succ _
  last_succ := by
    change ((255 : UInt16).toNat + 1) % 256 = ((0 : UInt16).toNat + (0 : UInt16).toNat) % 256
    decide
  count_le := Nat.zero_le _

@[simp] theorem length_contents (q : Queue) : q.contents.length = q.count.toNat :=
  RingBuffer.length_contents _

theorem contents_eq_nil {q : Queue} (h : q.count = 0) : q.contents = [] :=
  List.length_eq_zero_iff.1 ((length_contents q).trans (congrArg UInt16.toNat h))

/-- The successor of an index, which wraps at 2^16 and at 256. -/
theorem toNat_succ_mod (i : UInt16) : ((i + 1) % 256).toNat = (i.toNat + 1) % queueSize := by
  rw [UInt16.toNat_mod, UInt16.toNat_add]
  exact Nat.mod_mod_of_dvd _ (by decide)

theorem toNat_count_enqueue {q : Queue} (h : q.count.toNat ≤ queueSize) (x : UInt8) :
    (q.enqueue x).count.toNat = q.count.toNat + 1 := by
  change (q.count + 1).toNat = _
  rw [UInt16.toNat_add]
  exact Nat.mod_eq_of_lt (Nat.lt_of_le_of_lt (Nat.succ_le_succ h) (by decide))

theorem ring_enqueue {q : Queue} (h : q.count.toNat ≤ queueSize) (x : UInt8) :
    (q.enqueue x).ring = q.ring.enqueue queueSize x := by
  have hcount : (q.count + 1).toNat = q.count.toNat + 1 := toNat_count_enqueue h x
  have hlast := toNat_succ_mod q.last
  have hlt : (q.last.toNat + 1) % queueSize < queueSize := Nat.mod_lt _ (by decide)
  simp only [ring, enqueue, RingBuffer.enqueue, hcount, hlast]
  congr 1
  funext i
  rw [Vector.getElem?_setIfInBounds, Function.update_apply]
  by_cases hi : i = (q.last.toNat + 1) % queueSize
  · rw [if_pos hi, if_pos hi.symm, if_pos hlt]
    rfl
  · rw [if_neg hi, if_neg (Ne.symm hi)]

theorem ring_dequeue {q : Queue} (h : 0 < q.count) :
    (q.dequeue.1, q.dequeue.2.ring) = q.ring.dequeue queueSize := by
  have hcount : (q.count - 1).toNat = q.count.toNat - 1 :=
    UInt16.toNat_sub_of_le _ _ (UInt16.le_iff_toNat_le.2 (UInt16.lt_iff_toNat_lt.1 h))
  simp only [ring, dequeue, RingBuffer.dequeue, hcount, toNat_succ_mod]

theorem WellFormed.count_le {q : Queue} (h : q.WellFormed) : q.count.toNat ≤ queueSize :=
  RingBuffer.WellFormed.count_le h

theorem WellFormed.enqueue {q : Queue} (h : q.WellFormed) (hcount : q.count.toNat < queueSize)
    (x : UInt8) : (q.enqueue x).WellFormed := by
  unfold WellFormed
  rw [ring_enqueue hcount.le]
  exact RingBuffer.WellFormed.enqueue h hcount x

theorem contents_enqueue {q : Queue} (h : q.WellFormed) (hcount : q.count.toNat < queueSize)
    (x : UInt8) : (q.enqueue x).contents = q.contents ++ [x] := by
  unfold contents
  rw [ring_enqueue hcount.le]
  exact RingBuffer.contents_enqueue h hcount x

theorem WellFormed.dequeue {q : Queue} (h : q.WellFormed) (hcount : 0 < q.count) :
    q.dequeue.2.WellFormed := by
  have hring : q.dequeue.2.ring = (q.ring.dequeue queueSize).2 :=
    congrArg Prod.snd (ring_dequeue hcount)
  unfold WellFormed
  rw [hring]
  exact RingBuffer.WellFormed.dequeue h (UInt16.lt_iff_toNat_lt.1 hcount)

theorem contents_dequeue {q : Queue} (h : q.WellFormed) (hcount : 0 < q.count) :
    q.contents = q.dequeue.1 :: q.dequeue.2.contents := by
  have hbyte : q.dequeue.1 = (q.ring.dequeue queueSize).1 :=
    congrArg Prod.fst (ring_dequeue hcount)
  have hring : q.dequeue.2.ring = (q.ring.dequeue queueSize).2 :=
    congrArg Prod.snd (ring_dequeue hcount)
  unfold contents
  rw [hbyte, hring]
  exact RingBuffer.contents_dequeue h (UInt16.lt_iff_toNat_lt.1 hcount)

/-- The byte put into a full queue is the next to leave it, before all that wait, and
leaves it once more after them. -/
theorem contents_enqueue_full {q : Queue} (h : q.WellFormed) (hcount : q.count.toNat = queueSize)
    (x : UInt8) : (q.enqueue x).contents = x :: q.contents.tail ++ [x] := by
  unfold contents
  rw [ring_enqueue hcount.le]
  exact RingBuffer.contents_enqueue_full h hcount x

end Queue

/-! ## Runs -/

/-- A call on a queue. -/
inductive QueueOp
  | enqueue (x : UInt8)
  | dequeue
deriving DecidableEq

namespace QueueOp

/-- The byte that the call puts into the queue. -/
def byte? : QueueOp → Option UInt8
  | enqueue x => some x
  | dequeue => none

/-- The callers take a byte only from a queue whose count is not zero. -/
def Checked (q : Queue) (op : QueueOp) : Prop :=
  op = dequeue → 0 < q.count

instance (q : Queue) (op : QueueOp) : Decidable (Checked q op) :=
  inferInstanceAs (Decidable (_ → _))

end QueueOp

/-- A queue, with the byte that each call takes from it. -/
def queueOps : Machine Queue QueueOp (Option UInt8) where
  next q
    | .enqueue x => q.enqueue x
    | .dequeue => q.dequeue.2
  out q
    | .enqueue _ => none
    | .dequeue => some q.dequeue.1

namespace Queue

/-- The bytes put into the queue, in order. -/
def enqueued (ops : List QueueOp) : List UInt8 :=
  ops.filterMap QueueOp.byte?

/-- The bytes taken from the queue, in order. -/
def dequeued (q : Queue) (ops : List QueueOp) : List UInt8 :=
  (queueOps.outputs q ops).filterMap id

/-- The count never exceeds the size of the ring, and the bytes leave the queue at most
once each, in the order in which they came. -/
structure Intact (q : Queue) (ops : List QueueOp) : Prop where
  count_le : ∀ pre, pre <+: ops → (queueOps.run q pre).count.toNat ≤ queueSize
  sublist : (q.dequeued ops).Sublist (enqueued ops)

/-- At no time more than 256 of the bytes put into the queue have not been asked for. -/
def NeverFull (ops : List QueueOp) : Prop :=
  ∀ pre, pre <+: ops → (enqueued pre).length ≤ pre.count .dequeue + queueSize

theorem NeverFull.of_prefix {pre ops : List QueueOp} (h : NeverFull ops) (hpre : pre <+: ops) :
    NeverFull pre :=
  fun p hp => h p (hp.trans hpre)

/-- A list of calls never overfills the queue if no call does after calls that never did. -/
theorem neverFull_of_forall {ops : List QueueOp}
    (h : ∀ pre op, pre ++ [op] <+: ops → NeverFull pre →
      (enqueued (pre ++ [op])).length ≤ (pre ++ [op]).count .dequeue + queueSize) :
    NeverFull ops := by
  have hearlier : ∀ pre, pre <+: ops → NeverFull pre := by
    intro pre hpre
    induction pre using List.reverseRecOn with
    | nil =>
      intro p hp
      rw [List.prefix_nil.1 hp]
      exact Nat.zero_le _
    | append_singleton pre op ih =>
      have hbefore := ih ((List.prefix_append _ _).trans hpre)
      intro p hp
      rcases List.prefix_concat_iff.1 hp with rfl | hp
      · exact h pre op hpre hbefore
      · exact hbefore p hp
  exact hearlier ops (List.prefix_refl _)

theorem neverFull_of_length_le {ops : List QueueOp} (h : ops.length ≤ queueSize) :
    NeverFull ops := by
  intro pre hpre
  have henqueued : (enqueued pre).length ≤ pre.length := List.length_filterMap_le _ _
  have hlength := hpre.length_le
  omega

@[simp] theorem enqueued_append (ops ops' : List QueueOp) :
    enqueued (ops ++ ops') = enqueued ops ++ enqueued ops' :=
  List.filterMap_append

theorem dequeued_append (q : Queue) (ops ops' : List QueueOp) :
    q.dequeued (ops ++ ops') = q.dequeued ops ++ (queueOps.run q ops).dequeued ops' := by
  rw [dequeued, Machine.outputs_append, List.filterMap_append]
  rfl

/-- Every call of `dequeue` takes a byte. -/
theorem length_dequeued (q : Queue) (ops : List QueueOp) :
    (q.dequeued ops).length = ops.count .dequeue := by
  induction ops generalizing q with
  | nil => rfl
  | cons op ops ih =>
    have hrest := ih (queueOps.next q op)
    cases op with
    | enqueue x => simpa [dequeued, queueOps] using hrest
    | dequeue => simpa [dequeued, queueOps] using hrest

/-- After checked calls that never overfill the queue, the bytes put into it are those
taken from it and then its contents. -/
theorem enqueued_eq {q : Queue} {ops : List QueueOp}
    (h : queueOps.Along QueueOp.Checked q.initQueue ops) (hroom : NeverFull ops) :
    (queueOps.run q.initQueue ops).WellFormed ∧
      enqueued ops = q.initQueue.dequeued ops ++ (queueOps.run q.initQueue ops).contents := by
  induction ops using List.reverseRecOn with
  | nil => exact ⟨wellFormed_initQueue q, rfl⟩
  | append_singleton ops op ih =>
    rw [Machine.along_append, Machine.along_cons] at h
    obtain ⟨hwf, heq⟩ := ih h.1 (hroom.of_prefix (List.prefix_append _ _))
    rw [Machine.run_append, enqueued_append, dequeued_append, heq]
    generalize hr : queueOps.run q.initQueue ops = r at h hwf heq
    cases op with
    | enqueue x =>
      have hcount : r.count.toNat < queueSize := by
        have hlength := congrArg List.length heq
        have hbound := hroom _ (List.prefix_refl _)
        simp [length_dequeued, enqueued, QueueOp.byte?] at hlength hbound
        omega
      refine ⟨hwf.enqueue hcount x, ?_⟩
      change _ ++ [x] = _ ++ [] ++ (r.enqueue x).contents
      rw [contents_enqueue hwf hcount, List.append_nil, List.append_assoc]
    | dequeue =>
      have hcount : 0 < r.count := h.2.1 rfl
      refine ⟨hwf.dequeue hcount, ?_⟩
      change _ ++ [] = _ ++ [r.dequeue.1] ++ r.dequeue.2.contents
      rw [contents_dequeue hwf hcount, List.append_nil, List.append_assoc, List.singleton_append]

/-- Checked calls on a queue leave it intact iff at no time more than 256 bytes wait. -/
theorem intact_iff (q : Queue) (ops : List QueueOp)
    (h : queueOps.Along QueueOp.Checked q.initQueue ops) :
    q.initQueue.Intact ops ↔ NeverFull ops := by
  have hearlier : ∀ pre, pre <+: ops → queueOps.Along QueueOp.Checked q.initQueue pre := by
    rintro pre ⟨post, rfl⟩
    exact ((Machine.along_append _ _ _ _ _).1 h).1
  constructor
  · intro hintact
    refine neverFull_of_forall fun pre op hpre hroom => ?_
    have hchecked := hearlier _ (List.IsPrefix.trans (List.prefix_append pre [op]) hpre)
    obtain ⟨hwf, heq⟩ := enqueued_eq hchecked hroom
    have hcount := hintact.count_le _ hpre
    have hlength := congrArg List.length heq
    rw [List.length_append, length_dequeued, length_contents] at hlength
    rw [Machine.run_append] at hcount
    rw [enqueued_append, List.length_append, List.count_append, hlength]
    cases op with
    | enqueue x =>
      -- A full queue would count to 257.
      have hnext := toNat_count_enqueue hwf.count_le x
      change ((queueOps.run q.initQueue pre).enqueue x).count.toNat ≤ queueSize at hcount
      change _ + 1 ≤ _ + 0 + queueSize
      omega
    | dequeue =>
      have hle := hwf.count_le
      change _ + 0 ≤ _ + 1 + queueSize
      omega
  · intro hroom
    refine ⟨fun pre hpre => ?_, ?_⟩
    · exact (enqueued_eq (hearlier pre hpre) (hroom.of_prefix hpre)).1.count_le
    · rw [(enqueued_eq h hroom).2]
      exact List.sublist_append_left _ _

/-- A queue of zeros. -/
def zeros : Queue where
  data := Vector.replicate queueSize 0
  first := 0
  last := 255
  count := 0

/-- Two bytes put into an empty queue leave it in order. -/
theorem intact_two : zeros.Intact [.enqueue 1, .enqueue 2, .dequeue, .dequeue] :=
  (intact_iff zeros _ (by decide +kernel)).2 (neverFull_of_length_le (by decide))

/-- `n` bytes 0 in a queue of zeros. -/
def filled (n : ℕ) : Queue :=
  { zeros with last := UInt16.ofNat (n + 255) % 256, count := UInt16.ofNat n }

theorem run_filled (n : ℕ) :
    queueOps.run zeros.initQueue (List.replicate n (.enqueue 0)) = filled n := by
  induction n with
  | zero => rfl
  | succ n ih =>
    have hlast : (UInt16.ofNat (n + 255) % 256 + 1) % 256 = UInt16.ofNat (n + 1 + 255) % 256 := by
      rw [← UInt16.toNat_inj, toNat_succ_mod, UInt16.toNat_mod, UInt16.toNat_mod,
        UInt16.toNat_ofNat', UInt16.toNat_ofNat']
      change ((n + 255) % 2 ^ 16 % 256 + 1) % 256 = (n + 1 + 255) % 2 ^ 16 % 256
      omega
    have hdata (i : ℕ) : zeros.data.setIfInBounds i 0 = zeros.data :=
      Vector.setIfInBounds_replicate_self
    have hcount : UInt16.ofNat n + 1 = UInt16.ofNat (n + 1) := (UInt16.ofNat_add n 1).symm
    rw [List.replicate_succ', Machine.run_append, ih]
    change (filled n).enqueue 0 = filled (n + 1)
    simp only [filled, enqueue, hlast, hdata, hcount]

theorem along_filled (n : ℕ) (q : Queue) :
    queueOps.Along QueueOp.Checked q (List.replicate n (.enqueue 0)) := by
  induction n generalizing q with
  | zero => trivial
  | succ n ih => exact ⟨nofun, ih _⟩

theorem dequeued_filled (n : ℕ) (q : Queue) :
    q.dequeued (List.replicate n (.enqueue 0)) = [] := by
  rw [← List.length_eq_zero_iff, length_dequeued, List.count_replicate]
  rfl

/-- 256 bytes 0, then a byte 1, and two calls of `dequeue`. -/
def overfull : List QueueOp :=
  List.replicate 256 (.enqueue 0) ++ [.enqueue 1, .dequeue, .dequeue]

/-- The count reaches 257, and the byte 1, the last to come, leaves the queue first. -/
theorem not_intact_overfull :
    queueOps.Along QueueOp.Checked zeros.initQueue overfull ∧
      (queueOps.run zeros.initQueue (overfull.take 257)).count = 257 ∧
      zeros.initQueue.dequeued overfull = [1, 0] ∧ ¬zeros.initQueue.Intact overfull := by
  have hdequeued : zeros.initQueue.dequeued overfull = [1, 0] := by
    rw [overfull, dequeued_append, dequeued_filled, run_filled]
    decide +kernel
  have hsplit : overfull =
      List.replicate 256 (.enqueue 0) ++ [.enqueue 1] ++ [.dequeue, .dequeue] :=
    (List.append_assoc _ [_] _).symm
  have htake : overfull.take 257 = List.replicate 256 (.enqueue 0) ++ [.enqueue 1] := by
    rw [hsplit, List.take_left']
    rw [List.length_append, List.length_replicate]
    rfl
  refine ⟨?_, ?_, hdequeued, fun hintact => ?_⟩
  · rw [overfull, Machine.along_append, run_filled]
    exact ⟨along_filled 256 _, by decide +kernel⟩
  · rw [htake, Machine.run_append, run_filled]
    rfl
  · -- No byte 1 comes before a byte 0.
    have hsublist : ¬[1, 0].Sublist (enqueued overfull) := by decide +kernel
    exact hsublist (hdequeued ▸ hintact.sublist)

end Queue

end Quadrupel
