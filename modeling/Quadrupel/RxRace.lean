import Quadrupel.Queue

/-!
# The receive queue under its interrupt

`main` takes the bytes from `rx_queue` with interrupts enabled, and the handler of `RXDRDY`
may put one there between any two steps of `dequeue`. All of these but one are harmless :
`count -= 1` loads the count and stores it, and what the handler adds to it in between is
lost.

`rxRace` is the machine of these steps. `lag` counts the interrupts that came in between.
The bytes themselves stay in the ring, so they still leave it in order, once each
(`delayed`); but the count that `main` tests is too small by `lag` from then on, and as many
bytes wait until others push them forward.
-/

namespace Quadrupel

/-- Where a call of `dequeue` is : it has begun, read the byte `x`, advanced `first`, or
loaded the count. -/
inductive DequeueCall
  | begun
  | read (x : UInt8)
  | advanced (x : UInt8)
  | loaded (x : UInt8) (count : UInt16)
deriving DecidableEq

/-- The queue, the call of `main` that is under way, and the number of interrupts that came
between the load and the store of a count. -/
structure RxRace where
  queue : Queue
  call : Option DequeueCall
  lag : ℕ
deriving DecidableEq

/-- A step of `main`, or the interrupt. -/
inductive RxEvent
  | step
  | rxdrdy (rxd : UInt8)
deriving DecidableEq

/-- The byte that the event brings. -/
def RxEvent.byte? : RxEvent → Option UInt8
  | .step => none
  | .rxdrdy rxd => some rxd

namespace RxRace

/-- After `init_queue`. -/
def start (q : Queue) : RxRace :=
  ⟨q.initQueue, none, 0⟩

/-- The call is between the load and the store of the count. -/
def isLoaded (s : RxRace) : Bool :=
  match s.call with
  | some (.loaded _ _) => true
  | _ => false

/-- A step of `main`, which calls `dequeue` if the count is not zero, with the byte that the
call returns. -/
def step (s : RxRace) : RxRace × Option UInt8 :=
  match s.call with
  | none => (if s.queue.count ≠ 0 then { s with call := some .begun } else s, none)
  | some .begun =>
    ({ s with call := some (.read (s.queue.data[s.queue.first.toNat]?.getD 0)) }, none)
  | some (.read x) =>
    ({ s with
      queue := { s.queue with first := (s.queue.first + 1) % 256 }
      call := some (.advanced x) }, none)
  | some (.advanced x) => ({ s with call := some (.loaded x s.queue.count) }, none)
  | some (.loaded x count) =>
    ({ s with queue := { s.queue with count := count - 1 }, call := none }, some x)

/-- The interrupt. -/
def rxdrdy (rxd : UInt8) (s : RxRace) : RxRace :=
  { s with queue := s.queue.enqueue rxd, lag := if s.isLoaded then s.lag + 1 else s.lag }

end RxRace

/-- The receive queue between `main` and its interrupt, with the bytes that `main` gets. -/
def rxRace : Machine RxRace RxEvent (Option UInt8) where
  next s
    | .step => s.step.1
    | .rxdrdy rxd => s.rxdrdy rxd
  out s
    | .step => s.step.2
    | .rxdrdy _ => none

namespace RxRace

/-- The bytes that the interrupts bring, in order. -/
def received (es : List RxEvent) : List UInt8 :=
  es.filterMap RxEvent.byte?

/-- The bytes that `main` gets, in order. -/
def returned (s : RxRace) (es : List RxEvent) : List UInt8 :=
  (rxRace.outputs s es).filterMap id

/-- Without an interrupt the five steps are the test and the call. -/
theorem run_step {q : Queue} (h : q.count ≠ 0) (lag : ℕ) :
    rxRace.run ⟨q, none, lag⟩ (List.replicate 5 .step) = ⟨q.dequeue.2, none, lag⟩ ∧
      returned ⟨q, none, lag⟩ (List.replicate 5 .step) = [q.dequeue.1] := by
  simp [returned, rxRace, step, h, List.replicate, Queue.dequeue]

/-- The number of the bytes in the ring that `main` has not taken. -/
def waitingCount (s : RxRace) : ℕ :=
  match s.call with
  | none | some .begun | some (.read _) => s.queue.count.toNat + s.lag
  | some (.advanced _) => s.queue.count.toNat - 1 + s.lag
  | some (.loaded _ count) => count.toNat - 1 + s.lag

/-- The ring of these bytes. -/
def waiting (s : RxRace) : RingBuffer UInt8 :=
  { s.queue.ring with count := s.waitingCount }

/-- The byte that the call has taken and not returned yet. -/
def held (s : RxRace) : Option UInt8 :=
  match s.call with
  | some (.advanced x) | some (.loaded x _) => some x
  | _ => none

/-- The call has found a byte, and the count it has loaded is short by at most `lag`. -/
def Underway (s : RxRace) : Prop :=
  match s.call with
  | none => True
  | some .begun => s.queue.count ≠ 0
  | some (.read x) => s.queue.count ≠ 0 ∧ x = s.waiting.slot s.waiting.first
  | some (.advanced _) => s.queue.count ≠ 0
  | some (.loaded _ count) =>
    count ≠ 0 ∧ count.toNat ≤ s.queue.count.toNat ∧ s.queue.count.toNat ≤ count.toNat + s.lag

/-- The bytes received are those returned, the one held and those in the ring. -/
structure Holds (received returned : List UInt8) (s : RxRace) : Prop where
  wellFormed : s.waiting.WellFormed queueSize
  received_eq : received = returned ++ (s.held.toList ++ s.waiting.contents queueSize)
  underway : s.Underway

/-- The ring has a free slot for the byte of an interrupt. -/
def HasRoom (s : RxRace) : RxEvent → Prop
  | .step => True
  | .rxdrdy _ => s.waitingCount < queueSize

instance (s : RxRace) (e : RxEvent) : Decidable (s.HasRoom e) :=
  match e with
  | .step => inferInstanceAs (Decidable True)
  | .rxdrdy _ => inferInstanceAs (Decidable (_ < _))

/-- The count is at most one more than what waits. -/
theorem count_le {s : RxRace} (h : s.Underway) : s.queue.count.toNat ≤ s.waitingCount + 1 := by
  obtain ⟨queue, call, lag⟩ := s
  rcases call with _ | _ | _ | _ | ⟨_, count⟩
  · exact Nat.le_succ_of_le (Nat.le_add_right _ _)
  · exact Nat.le_succ_of_le (Nat.le_add_right _ _)
  · exact Nat.le_succ_of_le (Nat.le_add_right _ _)
  · change queue.count.toNat ≤ queue.count.toNat - 1 + lag + 1
    omega
  · obtain ⟨-, -, hle⟩ := h
    change queue.count.toNat ≤ count.toNat + lag at hle
    change queue.count.toNat ≤ count.toNat - 1 + lag + 1
    omega

theorem toNat_pos {count : UInt16} (h : count ≠ 0) : 0 < count.toNat :=
  UInt16.lt_iff_toNat_lt.1 (UInt16.pos_iff_ne_zero.2 h)

/-- One more byte waits after an interrupt, whether the count says so or not. -/
theorem waitingCount_rxdrdy {s : RxRace} (h : s.Underway)
    (hcount : s.queue.count.toNat ≤ queueSize) (rxd : UInt8) :
    (s.rxdrdy rxd).waitingCount = s.waitingCount + 1 := by
  have hnext := Queue.toNat_count_enqueue hcount rxd
  obtain ⟨queue, call, lag⟩ := s
  rcases call with _ | _ | _ | _ | ⟨_, count⟩
  · change (queue.enqueue rxd).count.toNat + lag = queue.count.toNat + lag + 1
    rw [hnext]
    exact Nat.add_right_comm _ 1 lag
  · change (queue.enqueue rxd).count.toNat + lag = queue.count.toNat + lag + 1
    rw [hnext]
    exact Nat.add_right_comm _ 1 lag
  · change (queue.enqueue rxd).count.toNat + lag = queue.count.toNat + lag + 1
    rw [hnext]
    exact Nat.add_right_comm _ 1 lag
  · have hpos : 0 < queue.count.toNat := toNat_pos h
    change (queue.enqueue rxd).count.toNat - 1 + lag = queue.count.toNat - 1 + lag + 1
    rw [hnext]
    change queue.count.toNat + 1 - 1 + lag = _
    omega
  · rfl

/-- The interrupt puts its byte behind those that wait. -/
theorem waiting_rxdrdy {s : RxRace} (h : s.Underway)
    (hcount : s.queue.count.toNat ≤ queueSize) (rxd : UInt8) :
    (s.rxdrdy rxd).waiting = s.waiting.enqueue queueSize rxd := by
  have hring : (s.rxdrdy rxd).queue.ring = s.queue.ring.enqueue queueSize rxd :=
    Queue.ring_enqueue hcount rxd
  rw [waiting, waitingCount_rxdrdy h hcount, hring]
  rfl

/-- The interrupt leaves the slot of the next byte alone. -/
theorem slot_rxdrdy {s : RxRace} (hwf : s.waiting.WellFormed queueSize) (h : s.Underway)
    (hroom : s.waitingCount < queueSize) (hpos : 0 < s.waitingCount) (rxd : UInt8) :
    (s.rxdrdy rxd).waiting.slot (s.rxdrdy rxd).waiting.first = s.waiting.slot s.waiting.first := by
  have hne : (s.waiting.first + 0) % queueSize ≠ (s.waiting.first + s.waitingCount) % queueSize :=
    RingBuffer.add_mod_ne hpos hroom
  have hlast : (s.waiting.last + 1) % queueSize = (s.waiting.first + s.waitingCount) % queueSize :=
    hwf.last_succ
  rw [Nat.add_zero, Nat.mod_eq_of_lt hwf.first_lt, ← hlast] at hne
  rw [waiting_rxdrdy h ((count_le h).trans hroom) rxd]
  exact Function.update_of_ne hne _ _

theorem underway_rxdrdy {s : RxRace} (hwf : s.waiting.WellFormed queueSize) (h : s.Underway)
    (hroom : s.waitingCount < queueSize) (rxd : UInt8) : (s.rxdrdy rxd).Underway := by
  have hslot := slot_rxdrdy hwf h hroom
  have hnext : (s.queue.enqueue rxd).count.toNat = s.queue.count.toNat + 1 :=
    Queue.toNat_count_enqueue ((count_le h).trans hroom) rxd
  have hcount : (s.queue.enqueue rxd).count ≠ 0 := fun hzero => by
    rw [hzero] at hnext
    exact Nat.succ_ne_zero _ hnext.symm
  obtain ⟨queue, call, lag⟩ := s
  rcases call with _ | _ | x | _ | ⟨_, count⟩
  · trivial
  · exact hcount
  · obtain ⟨hpos, hx⟩ := h
    have hwaits : 0 < queue.count.toNat + lag := Nat.add_pos_left (toNat_pos hpos) lag
    exact ⟨hcount, hx.trans (hslot hwaits rxd).symm⟩
  · exact hcount
  · obtain ⟨hpos, hle, hlag⟩ := h
    change (queue.enqueue rxd).count.toNat = queue.count.toNat + 1 at hnext
    change count.toNat ≤ queue.count.toNat at hle
    change queue.count.toNat ≤ count.toNat + lag at hlag
    refine ⟨hpos, ?_, ?_⟩
    · change count.toNat ≤ (queue.enqueue rxd).count.toNat
      omega
    · change (queue.enqueue rxd).count.toNat ≤ count.toNat + (lag + 1)
      omega

theorem Holds.rxdrdy {received returned : List UInt8} {s : RxRace} (h : Holds received returned s)
    (hroom : s.waitingCount < queueSize) (rxd : UInt8) :
    Holds (received ++ [rxd]) returned (s.rxdrdy rxd) := by
  obtain ⟨hwf, heq, hunder⟩ := h
  have hwaiting := waiting_rxdrdy hunder ((count_le hunder).trans hroom) rxd
  have hheld : (s.rxdrdy rxd).held = s.held := rfl
  refine ⟨?_, ?_, underway_rxdrdy hwf hunder hroom rxd⟩
  · rw [hwaiting]
    exact RingBuffer.WellFormed.enqueue hwf hroom rxd
  · rw [hwaiting, hheld, RingBuffer.contents_enqueue hwf hroom, heq]
    simp only [List.append_assoc]

/-- A step of `main` that takes no byte from the ring and returns none. -/
theorem Holds.of_waiting_eq {received returned : List UInt8} {s s' : RxRace}
    (h : Holds received returned s) (hwaiting : s'.waiting = s.waiting) (hheld : s'.held = s.held)
    (hunder : s'.Underway) : Holds received returned s' :=
  ⟨hwaiting ▸ h.wellFormed, by rw [hwaiting, hheld, h.received_eq], hunder⟩

/-- Advancing `first` takes the byte that was read. -/
theorem Holds.advance {received returned : List UInt8} {q : Queue} {x : UInt8} {lag : ℕ}
    (h : Holds received returned ⟨q, some (.read x), lag⟩) :
    Holds received returned (step ⟨q, some (.read x), lag⟩).1 := by
  obtain ⟨hwf, heq, hcount, hx⟩ := h
  have hpos : 0 < q.count.toNat + lag := Nat.add_pos_left (toNat_pos hcount) lag
  have hwaiting : (step ⟨q, some (.read x), lag⟩).1.waiting =
      (RingBuffer.dequeue queueSize (waiting ⟨q, some (.read x), lag⟩)).2 := by
    have hless : q.count.toNat - 1 + lag = q.count.toNat + lag - 1 := by
      have hcountPos : 0 < q.count.toNat := toNat_pos hcount
      omega
    simp only [step, waiting, waitingCount, Queue.ring, RingBuffer.dequeue, hless,
      Queue.toNat_succ_mod]
  refine ⟨?_, ?_, hcount⟩
  · rw [hwaiting]
    exact RingBuffer.WellFormed.dequeue hwf hpos
  · rw [hwaiting, heq, RingBuffer.contents_dequeue hwf hpos]
    change _ = returned ++ ([x] ++ _)
    rw [hx]
    rfl

/-- The store of the count, with the byte returned. -/
theorem Holds.store {received returned : List UInt8} {q : Queue} {x : UInt8} {count : UInt16}
    {lag : ℕ} (h : Holds received returned ⟨q, some (.loaded x count), lag⟩) :
    Holds received (returned ++ [x]) (step ⟨q, some (.loaded x count), lag⟩).1 := by
  obtain ⟨hwf, heq, hcount, -, -⟩ := h
  have hstore : (count - 1).toNat = count.toNat - 1 :=
    UInt16.toNat_sub_of_le _ _ (UInt16.le_iff_toNat_le.2 (toNat_pos hcount))
  have hwaiting : (step ⟨q, some (.loaded x count), lag⟩).1.waiting =
      waiting ⟨q, some (.loaded x count), lag⟩ := by
    simp only [step, waiting, waitingCount, Queue.ring, hstore]
  refine ⟨hwaiting ▸ hwf, ?_, trivial⟩
  rw [hwaiting, heq]
  simp [step, held]

theorem Holds.step {received returned : List UInt8} {s : RxRace} (h : Holds received returned s) :
    Holds received (returned ++ s.step.2.toList) s.step.1 := by
  have hunder := h.underway
  obtain ⟨q, call, lag⟩ := s
  rcases call with _ | _ | x | x | ⟨x, count⟩
  · by_cases hcount : q.count ≠ 0
    · simp only [RxRace.step, if_pos hcount, Option.toList_none, List.append_nil]
      exact h.of_waiting_eq rfl rfl hcount
    · simpa only [RxRace.step, if_neg hcount, Option.toList_none, List.append_nil] using h
  · simp only [RxRace.step, Option.toList_none, List.append_nil]
    exact h.of_waiting_eq rfl rfl ⟨hunder, rfl⟩
  · simpa only [RxRace.step, Option.toList_none, List.append_nil] using h.advance
  · simp only [RxRace.step, Option.toList_none, List.append_nil]
    exact h.of_waiting_eq rfl rfl ⟨hunder, le_rfl, Nat.le_add_right _ _⟩
  · exact h.store

theorem holds_start (q : Queue) : Holds [] [] (start q) where
  wellFormed := Queue.wellFormed_initQueue q
  received_eq := rfl
  underway := trivial

/-- What holds after a run in which no interrupt finds the ring full. -/
theorem holds_run {q : Queue} {es : List RxEvent} (h : rxRace.Along HasRoom (start q) es) :
    Holds (received es) (returned (start q) es) (rxRace.run (start q) es) := by
  have hstep (es : List RxEvent) (outs : List (Option UInt8)) (s : RxRace) (e : RxEvent)
      (hs : Holds (received es) (outs.filterMap id) s) (he : s.HasRoom e) :
      Holds (received (es ++ [e])) ((outs ++ [rxRace.out s e]).filterMap id)
        (rxRace.next s e) := by
    have hreceived : received (es ++ [e]) = received es ++ e.byte?.toList :=
      List.filterMap_append.trans (congrArg _ (by cases e <;> rfl))
    have hreturned : (outs ++ [rxRace.out s e]).filterMap id =
        outs.filterMap id ++ (rxRace.out s e).toList :=
      List.filterMap_append.trans (congrArg _ (by cases rxRace.out s e <;> rfl))
    rw [hreceived, hreturned]
    cases e with
    | step =>
      rw [RxEvent.byte?, Option.toList_none, List.append_nil]
      exact hs.step
    | rxdrdy rxd =>
      rw [RxEvent.byte?, Option.toList_some]
      exact (List.append_nil (outs.filterMap id)).symm ▸ hs.rxdrdy he rxd
  exact rxRace.trace_invariant hstep (holds_start q) h

/-- However the interrupts fall into the calls, the bytes that `main` gets are the first of
those received, in order and once each. When no call is under way, as many as the count says
wait, and `lag` more that it leaves out. -/
theorem delayed {q : Queue} {es : List RxEvent} (h : rxRace.Along HasRoom (start q) es) :
    returned (start q) es <+: received es ∧
      ((rxRace.run (start q) es).call = none →
        (received es).length = (returned (start q) es).length +
          ((rxRace.run (start q) es).queue.count.toNat + (rxRace.run (start q) es).lag)) := by
  obtain ⟨-, heq, -⟩ := holds_run h
  refine ⟨⟨_, heq.symm⟩, fun hcall => ?_⟩
  rw [heq, List.length_append, List.length_append, RingBuffer.length_contents]
  simp only [held, waiting, waitingCount, hcall, Option.toList_none, List.length_nil, Nat.zero_add]

/-- A byte comes between the load and the store of the count : `main` finds the count 0
while the byte waits. -/
theorem delayed_lost_count :
    returned (start Queue.zeros) [.rxdrdy 1, .step, .step, .step, .step, .rxdrdy 2, .step] <+:
        [1, 2] ∧
      ((rxRace.run (start Queue.zeros)
        [.rxdrdy 1, .step, .step, .step, .step, .rxdrdy 2, .step]).call = none → 2 = 1 + (0 + 1)) :=
  @delayed Queue.zeros [.rxdrdy 1, .step, .step, .step, .step, .rxdrdy 2, .step]
    (by decide +kernel)

end RxRace

end Quadrupel
