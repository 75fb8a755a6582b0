import Quadrupel.DroneMain
import Mathlib

/-!
# Time-keeping

`timers.c`. `TIMER2` counts eighths of a microsecond; when it reaches 2500 it restarts, and
`TIMER2_IRQHandler` adds 312 to `global_time`. `get_time_us` reads `global_time` and the
counter one after the other, and again until `global_time` is what it was before : then
no period ended between the two reads, and the sum is the time at the second one.

`timers` is the machine of the counter, the handler and one reader. Its events are one
tick of the counter, which runs the handler if a period ends, and one step of the reader,
so that any number of ticks may come between two steps. Time is the number of ticks
(`counts_run`), and an instant of a call is a split of its events.

`getTimeUs_consistent` says that a call returns the time at one of its instants, modulo
2^32. It needs `global_time` not to be 0 at the call, since the loop is then not entered;
after 2^29 periods it is 0 once more.
-/

namespace Quadrupel

/-- Where `get_time_us` is, with the values of `high` and `low`. -/
inductive Reader
  | idle
  | compare (high low : UInt32)
  | readHigh (high low : UInt32)
  | capture (high low : UInt32)
  | readLow (high low : UInt32)
deriving DecidableEq

/-- `global_time`, `TIMER2` and the motors that its handler drives, and the reader. -/
structure Timers where
  globalTime : UInt32
  counter : ℕ
  cc0 : UInt32
  cc1 : UInt32
  cc2 : UInt32
  motor2 : Int16
  motor3 : Int16
  reader : Reader
deriving DecidableEq

/-- A tick of the counter, a call of `get_time_us`, a step of the call, and a write of the
motors by the control loop. -/
inductive TimerEvent
  | tick (radioActive : Bool)
  | call
  | step
  | drive (motor2 motor3 : Int16)
deriving DecidableEq

namespace Timers

/-- `timers_init`, which leaves the capture register and the motors as they are. -/
def timersInit (cc2 : UInt32) (motor2 motor3 : Int16) : Timers where
  globalTime := 0
  counter := 0
  cc0 := 1000
  cc1 := 1000
  cc2 := cc2
  motor2 := motor2
  motor3 := motor3
  reader := .idle

/-- The bounds of a motor. -/
def clampMotor (motor : Int16) : Int16 :=
  if motor < 1000 then if motor < 0 then 0 else motor else 1000

/-- `TASKS_CAPTURE[2]`. -/
def captureCounter (t : Timers) : Timers :=
  { t with cc2 := UInt32.ofNat t.counter }

/-- `TIMER2_IRQHandler`, when a period has ended. -/
def timer2IRQHandler (radioActive : Bool) (t : Timers) : Timers :=
  let t := { t with globalTime := t.globalTime + 312 }.captureCounter
  if !radioActive && t.cc2 < 500 then
    let motor2 := clampMotor t.motor2
    let motor3 := clampMotor t.motor3
    { t with
      motor2, motor3
      cc0 := UInt32.ofInt (1000 + motor2.toInt)
      cc1 := UInt32.ofInt (1000 + motor3.toInt) }
  else t

/-- A tick of the counter. -/
def tick (radioActive : Bool) (t : Timers) : Timers :=
  if t.counter + 1 = 2500 then { t with counter := 0 }.timer2IRQHandler radioActive
  else { t with counter := t.counter + 1 }

/-- A step of `get_time_us`, with the value that it returns. -/
def readerStep (t : Timers) : Timers × Option UInt32 :=
  match t.reader with
  | .idle => (t, none)
  | .compare high low =>
    if high ≠ t.globalTime then ({ t with reader := .readHigh high low }, none)
    else ({ t with reader := .idle }, some (high + low))
  | .readHigh _ low => ({ t with reader := .capture t.globalTime low }, none)
  | .capture high low => ({ t with reader := .readLow high low }.captureCounter, none)
  | .readLow high _ => ({ t with reader := .compare high (t.cc2 >>> 3) }, none)

/-- `get_time_us` is called, if it is not running. -/
def callReader (t : Timers) : Timers :=
  match t.reader with
  | .idle => { t with reader := .compare 0 0 }
  | _ => t

end Timers

/-- The timer and the reader, with the values that the reader returns. -/
def timers : Machine Timers TimerEvent (Option UInt32) where
  next t
    | .tick radioActive => t.tick radioActive
    | .call => t.callReader
    | .step => t.readerStep.1
    | .drive motor2 motor3 => { t with motor2, motor3 }
  out t
    | .step => t.readerStep.2
    | _ => none

namespace Timers

/-- The number of ticks. -/
def ticks (es : List TimerEvent) : ℕ :=
  es.countP fun
    | .tick _ => true
    | _ => false

/-- The time after `n` ticks, in µs : 312 for each period that ended, and an eighth of the
counter. -/
def clock (n : ℕ) : ℕ :=
  312 * (n / 2500) + n % 2500 / 8

/-- The timer has counted `n` ticks. -/
structure Counts (n : ℕ) (t : Timers) : Prop where
  counter_eq : t.counter = n % 2500
  globalTime_eq : t.globalTime = UInt32.ofNat (312 * (n / 2500))

@[simp] theorem ticks_append (es fs : List TimerEvent) : ticks (es ++ fs) = ticks es + ticks fs :=
  List.countP_append

/-- The handler writes the time, the registers and the motors. -/
theorem tick_cases (radioActive : Bool) (t : Timers) :
    (t.counter + 1 ≠ 2500 ∧ t.tick radioActive = { t with counter := t.counter + 1 }) ∨
      (t.counter + 1 = 2500 ∧ ∃ cc0 cc1 motor2 motor3, t.tick radioActive = { t with
        globalTime := t.globalTime + 312, counter := 0, cc0, cc1, cc2 := 0, motor2, motor3 }) := by
  by_cases h : t.counter + 1 = 2500
  · rw [tick, if_pos h]
    refine Or.inr ⟨h, ?_⟩
    unfold timer2IRQHandler
    dsimp only [captureCounter]
    split <;> exact ⟨_, _, _, _, rfl⟩
  · exact Or.inl ⟨h, if_neg h⟩

/-- The other events leave the time alone. -/
theorem next_of_ne_tick (t : Timers) {e : TimerEvent} (he : ∀ radioActive, e ≠ .tick radioActive) :
    (timers.next t e).counter = t.counter ∧ (timers.next t e).globalTime = t.globalTime := by
  cases e with
  | tick radioActive => exact absurd rfl (he radioActive)
  | call =>
    simp only [timers, callReader]
    split <;> exact ⟨rfl, rfl⟩
  | step =>
    simp only [timers, readerStep]
    split
    · exact ⟨rfl, rfl⟩
    · split <;> exact ⟨rfl, rfl⟩
    all_goals exact ⟨rfl, rfl⟩
  | drive => exact ⟨rfl, rfl⟩

theorem ticks_mono {es fs : List TimerEvent} (h : es <+: fs) : ticks es ≤ ticks fs :=
  h.sublist.countP_le

theorem clock_mono : Monotone clock := by
  intro m n h
  have hperiod : m / 2500 ≤ n / 2500 := Nat.div_le_div_right h
  unfold clock
  rcases hperiod.lt_or_eq with hlt | heq
  · omega
  · omega

theorem Counts.next {n : ℕ} {t : Timers} (h : Counts n t) (e : TimerEvent) :
    Counts (n + ticks [e]) (timers.next t e) := by
  obtain ⟨hcounter, hglobal⟩ := h
  by_cases he : ∃ radioActive, e = .tick radioActive
  · obtain ⟨radioActive, rfl⟩ := he
    change Counts (n + 1) (t.tick radioActive)
    rcases t.tick_cases radioActive with ⟨hne, htick⟩ | ⟨heq, cc0, cc1, motor2, motor3, htick⟩
    · have hperiod : (n + 1) / 2500 = n / 2500 := by omega
      rw [htick]
      refine ⟨?_, ?_⟩
      · change t.counter + 1 = (n + 1) % 2500
        omega
      · rw [hperiod]
        exact hglobal
    · have hperiod : (n + 1) / 2500 = n / 2500 + 1 := by omega
      rw [htick]
      refine ⟨?_, ?_⟩
      · change 0 = (n + 1) % 2500
        omega
      · change t.globalTime + 312 = _
        rw [hperiod, hglobal, Nat.mul_add, UInt32.ofNat_add]
        rfl
  · have hne : ∀ radioActive, e ≠ .tick radioActive := fun radioActive heq => he ⟨_, heq⟩
    have hzero : ticks [e] = 0 := by
      cases e with
      | tick radioActive => exact absurd rfl (hne radioActive)
      | call | step | drive => rfl
    obtain ⟨hcounter', hglobal'⟩ := t.next_of_ne_tick hne
    rw [hzero]
    exact ⟨hcounter'.trans hcounter, hglobal'.trans hglobal⟩

theorem Counts.run {n : ℕ} {t : Timers} (h : Counts n t) (es : List TimerEvent) :
    Counts (n + ticks es) (timers.run t es) := by
  induction es generalizing n t with
  | nil => exact h
  | cons e es ih =>
    have hticks : ticks (e :: es) = ticks [e] + ticks es := ticks_append [e] es
    rw [hticks, ← Nat.add_assoc]
    exact ih (h.next e)

/-- After a run from `timers_init` the counter and `global_time` are what the number of
ticks says. -/
theorem counts_run (cc2 : UInt32) (motor2 motor3 : Int16) (es : List TimerEvent) :
    Counts (ticks es) (timers.run (timersInit cc2 motor2 motor3) es) := by
  have hinit : Counts 0 (timersInit cc2 motor2 motor3) := ⟨rfl, rfl⟩
  simpa using hinit.run es

/-! ## A call -/

/-- `get_time_us` is called after the events `past`, and the step after `mid` more returns
`value`. -/
structure Returns (t : Timers) (past mid : List TimerEvent) (value : UInt32) : Prop where
  idle : (timers.run t past).reader = .idle
  busy : timers.Along (fun t _ => t.reader ≠ .idle) (timers.run t (past ++ [.call])) mid
  value_eq : timers.out (timers.run t (past ++ .call :: mid)) .step = some value

/-- `global_time` does not wrap during the call. -/
def Unwrapped (t : Timers) (past mid : List TimerEvent) : Prop :=
  timers.Along (fun t e => t.globalTime ≤ (timers.next t e).globalTime)
    (timers.run t (past ++ [.call])) mid

/-- What `global_time` is after `n` ticks if it was `g` after `n₀` and does not wrap. -/
def timeAt (g n₀ n : ℕ) : ℕ :=
  g + 312 * (n / 2500 - n₀ / 2500)

/-- What the reader knows after `n` ticks, if it was called after `n₀` : when it has read
`high`, that was `global_time` after some `r` ticks, and when it has triggered the
capture, the register holds the counter after some `c ≥ r` ticks, from the capture or from
the handler, which comes at the end of a period. -/
def Knows (g n₀ n : ℕ) (cc2 : UInt32) : Reader → Prop
  | .idle => True
  | .compare high low => high = 0 ∨ ∃ r c, n₀ ≤ r ∧ r ≤ c ∧ c ≤ n ∧
    high.toNat = timeAt g n₀ r ∧ low = UInt32.ofNat (c % 2500 / 8)
  | .readHigh _ _ => True
  | .capture high _ => ∃ r, n₀ ≤ r ∧ r ≤ n ∧ high.toNat = timeAt g n₀ r
  | .readLow high _ => ∃ r c, n₀ ≤ r ∧ r ≤ c ∧ c ≤ n ∧
    high.toNat = timeAt g n₀ r ∧ cc2 = UInt32.ofNat (c % 2500)

/-- The invariant of a call. -/
structure InCall (g n₀ n : ℕ) (t : Timers) : Prop where
  counts : Counts n t
  globalTime_eq : t.globalTime.toNat = timeAt g n₀ n
  le : n₀ ≤ n
  knows : Knows g n₀ n t.cc2 t.reader

theorem toNat_counter (n : ℕ) : (UInt32.ofNat (n % 2500)).toNat = n % 2500 :=
  UInt32.toNat_ofNat_of_lt' ((Nat.mod_lt n (by decide)).trans (by decide))

theorem counter_shift (n : ℕ) :
    UInt32.ofNat (n % 2500) >>> 3 = UInt32.ofNat (n % 2500 / 8) := by
  refine UInt32.toNat_inj.1 ?_
  have hlt : n % 2500 / 8 < 2 ^ 32 := by omega
  rw [UInt32.toNat_shiftRight, toNat_counter, UInt32.toNat_ofNat_of_lt' hlt,
    Nat.shiftRight_eq_div_pow]
  rfl

theorem Knows.tick {g n₀ n : ℕ} {cc2 : UInt32} {reader : Reader} (h : Knows g n₀ n cc2 reader) :
    Knows g n₀ (n + 1) cc2 reader := by
  cases reader with
  | idle | readHigh => trivial
  | compare high low =>
    refine h.imp_right ?_
    rintro ⟨r, c, hr, hc, hn, hrest⟩
    exact ⟨r, c, hr, hc, hn.trans (Nat.le_succ n), hrest⟩
  | capture high low =>
    obtain ⟨r, hr, hn, hrest⟩ := h
    exact ⟨r, hr, hn.trans (Nat.le_succ n), hrest⟩
  | readLow high low =>
    obtain ⟨r, c, hr, hc, hn, hrest⟩ := h
    exact ⟨r, c, hr, hc, hn.trans (Nat.le_succ n), hrest⟩

/-- The capture of the handler is one of the counter, which has just restarted. -/
theorem Knows.interrupt {g n₀ n : ℕ} {cc2 : UInt32} {reader : Reader}
    (h : Knows g n₀ n cc2 reader) (hn : (n + 1) % 2500 = 0) : Knows g n₀ (n + 1) 0 reader := by
  cases reader with
  | idle | readHigh | compare | capture => exact h.tick
  | readLow high low =>
    obtain ⟨r, c, hr, hc, hcn, hhigh, -⟩ := h
    exact ⟨r, n + 1, hr, by omega, le_rfl, hhigh, by rw [hn]; rfl⟩

theorem InCall.knows_step {g n₀ n : ℕ} {t : Timers} (h : InCall g n₀ n t) :
    Knows g n₀ n t.readerStep.1.cc2 t.readerStep.1.reader := by
  obtain ⟨⟨hcounter, -⟩, hglobal, hle, hknows⟩ := h
  unfold readerStep
  split
  · exact hknows
  · split <;> trivial
  · exact ⟨n, hle, le_rfl, hglobal⟩
  · next hreader =>
    rw [hreader] at hknows
    obtain ⟨r, hr, hn, hhigh⟩ := hknows
    exact ⟨r, n, hr, hn, le_rfl, hhigh, congrArg UInt32.ofNat hcounter⟩
  · next hreader =>
    rw [hreader] at hknows
    obtain ⟨r, c, hr, hc, hn, hhigh, hcc⟩ := hknows
    exact Or.inr ⟨r, c, hr, hc, hn, hhigh, by rw [hcc, counter_shift]⟩

theorem InCall.tick {g n₀ n : ℕ} {t : Timers} (h : InCall g n₀ n t) {radioActive : Bool}
    (hwrap : t.globalTime ≤ (t.tick radioActive).globalTime) :
    InCall g n₀ (n + 1) (t.tick radioActive) := by
  have hcounts : Counts (n + 1) (t.tick radioActive) := h.counts.next (.tick radioActive)
  obtain ⟨⟨hcounter, -⟩, hglobal, hle, hknows⟩ := h
  rcases t.tick_cases radioActive with ⟨hne, htick⟩ | ⟨heq, cc0, cc1, motor2, motor3, htick⟩
  · have htime : timeAt g n₀ (n + 1) = timeAt g n₀ n := by
      unfold timeAt
      omega
    rw [htick] at hcounts ⊢
    exact ⟨hcounts, hglobal.trans htime.symm, by omega, hknows.tick⟩
  · have hzero : (n + 1) % 2500 = 0 := by omega
    have htime : timeAt g n₀ (n + 1) = timeAt g n₀ n + 312 := by
      unfold timeAt
      omega
    rw [htick] at hcounts hwrap ⊢
    refine ⟨hcounts, ?_, by omega, hknows.interrupt hzero⟩
    have hle : t.globalTime.toNat ≤ (t.globalTime + 312).toNat := UInt32.le_iff_toNat_le.1 hwrap
    rw [UInt32.toNat_add] at hle
    change (t.globalTime + 312).toNat = _
    rw [htime, ← hglobal, UInt32.toNat_add]
    have hsize := t.globalTime.toNat_lt
    change (t.globalTime.toNat + 312) % 2 ^ 32 = t.globalTime.toNat + 312
    change t.globalTime.toNat ≤ (t.globalTime.toNat + 312) % 2 ^ 32 at hle
    omega

theorem InCall.next {g n₀ n : ℕ} {t : Timers} (h : InCall g n₀ n t) (hbusy : t.reader ≠ .idle)
    {e : TimerEvent} (hwrap : t.globalTime ≤ (timers.next t e).globalTime) :
    InCall g n₀ (n + ticks [e]) (timers.next t e) := by
  cases e with
  | tick radioActive => exact h.tick hwrap
  | call =>
    have hsame : t.callReader = t := by
      unfold callReader
      split
      · next hidle => exact absurd hidle hbusy
      · rfl
    change InCall g n₀ n t.callReader
    rw [hsame]
    exact h
  | step =>
    obtain ⟨-, hglobal⟩ := t.next_of_ne_tick (e := .step) nofun
    exact ⟨h.counts.next .step, (congrArg UInt32.toNat hglobal).trans h.globalTime_eq, h.le,
      h.knows_step⟩
  | drive => exact ⟨h.counts.next (.drive ..), h.globalTime_eq, h.le, h.knows⟩

/-- What a call returns is the time at some instant since it began. -/
theorem InCall.value_eq {g n₀ n : ℕ} {t : Timers} (h : InCall g n₀ n t) (hg : 0 < g)
    {value : UInt32} (hvalue : t.readerStep.2 = some value) :
    ∃ c, n₀ ≤ c ∧ c ≤ n ∧ value = getTimeUs (clock c) := by
  obtain ⟨⟨-, htime⟩, hglobal, hle, hknows⟩ := h
  unfold readerStep at hvalue
  split at hvalue
  case h_2 high low hreader =>
    split_ifs at hvalue with hne
    obtain rfl := Option.some.inj hvalue
    have hhigh : high = t.globalTime := not_not.1 hne
    rw [hreader] at hknows
    rcases hknows with hzero | ⟨r, c, hr, hc, hn, hread, rfl⟩
    · have hglobal' : timeAt g n₀ n = 0 := by
        rw [← hglobal, ← hhigh, hzero]
        rfl
      unfold timeAt at hglobal'
      omega
    · -- No period ended between the two reads.
      have hsame : timeAt g n₀ r = timeAt g n₀ n := by rw [← hread, hhigh, hglobal]
      have hperiod : c / 2500 = n / 2500 := by
        have hrc : r / 2500 ≤ c / 2500 := Nat.div_le_div_right hc
        have hcn : c / 2500 ≤ n / 2500 := Nat.div_le_div_right hn
        have hnr : n₀ / 2500 ≤ r / 2500 := Nat.div_le_div_right hr
        unfold timeAt at hsame
        omega
      refine ⟨c, hr.trans hc, hn, ?_⟩
      rw [hhigh, htime, ← hperiod, ← UInt32.ofNat_add]
      rfl
  all_goals cases hvalue

/-- Between the ticks before a list of events and those after it, each number of ticks is
reached. -/
theorem exists_prefix_ticks {n c : ℕ} (hn : n ≤ c) (es : List TimerEvent) (hc : c ≤ n + ticks es) :
    ∃ pre, pre <+: es ∧ n + ticks pre = c := by
  induction es using List.reverseRecOn with
  | nil => exact ⟨[], List.prefix_refl _, le_antisymm hn hc |>.trans rfl⟩
  | append_singleton es e ih =>
    by_cases hle : c ≤ n + ticks es
    · obtain ⟨pre, hpre, heq⟩ := ih hle
      exact ⟨pre, hpre.trans (List.prefix_append _ _), heq⟩
    · have hone : ticks [e] ≤ 1 := List.countP_le_length
      rw [ticks_append] at hc
      refine ⟨es ++ [e], List.prefix_refl _, ?_⟩
      rw [ticks_append]
      omega

/-- A call in progress knows what `Knows` says. -/
theorem Returns.inCall {cc2 : UInt32} {motor2 motor3 : Int16} {past mid : List TimerEvent}
    {value : UInt32} (h : Returns (timersInit cc2 motor2 motor3) past mid value)
    (hwrap : Unwrapped (timersInit cc2 motor2 motor3) past mid) :
    InCall (timers.run (timersInit cc2 motor2 motor3) past).globalTime.toNat (ticks past)
      (ticks past + ticks mid)
      (timers.run (timersInit cc2 motor2 motor3) (past ++ .call :: mid)) := by
  have hcounts := counts_run cc2 motor2 motor3 past
  have hidle := h.idle
  have hgood := (timers.along_and _ _ _ _).2 ⟨h.busy, hwrap⟩
  rw [Machine.run_append] at hgood
  rw [Machine.run_append, Machine.run_cons]
  generalize timers.run (timersInit cc2 motor2 motor3) past = t at hcounts hidle hgood ⊢
  have hcall : timers.next t .call = { t with reader := .compare 0 0 } := by
    simp only [timers, callReader, hidle]
  have hstart : InCall t.globalTime.toNat (ticks past) (ticks past) (timers.next t .call) := by
    rw [hcall]
    refine ⟨⟨hcounts.counter_eq, hcounts.globalTime_eq⟩, ?_, le_rfl, Or.inl rfl⟩
    simp only [timeAt, Nat.sub_self, Nat.mul_zero, Nat.add_zero]
  have hstep (es : List TimerEvent) (_ : List (Option UInt32)) (u : Timers) (e : TimerEvent)
      (hu : InCall t.globalTime.toNat (ticks past) (ticks past + ticks es) u)
      (he : u.reader ≠ .idle ∧ u.globalTime ≤ (timers.next u e).globalTime) :
      InCall t.globalTime.toNat (ticks past) (ticks past + ticks (es ++ [e]))
        (timers.next u e) := by
    rw [ticks_append, ← Nat.add_assoc]
    exact hu.next he.1 he.2
  exact timers.trace_invariant hstep hstart hgood

/-- What a call of `get_time_us` returns is the time at one of its instants. -/
theorem Returns.snapshot {cc2 : UInt32} {motor2 motor3 : Int16} {past mid : List TimerEvent}
    {value : UInt32} (h : Returns (timersInit cc2 motor2 motor3) past mid value)
    (hstarted : (timers.run (timersInit cc2 motor2 motor3) past).globalTime ≠ 0)
    (hwrap : Unwrapped (timersInit cc2 motor2 motor3) past mid) :
    ∃ pre, pre <+: mid ∧ value = getTimeUs (clock (ticks (past ++ pre))) := by
  have hpos : 0 < (timers.run (timersInit cc2 motor2 motor3) past).globalTime.toNat :=
    UInt32.lt_iff_toNat_lt.1 (UInt32.pos_iff_ne_zero.2 hstarted)
  obtain ⟨c, hle, hc, hvalue⟩ := (h.inCall hwrap).value_eq hpos h.value_eq
  obtain ⟨pre, hpre, heq⟩ := exists_prefix_ticks hle mid hc
  exact ⟨pre, hpre, by rw [hvalue, ticks_append, heq]⟩

/-- Every call of `get_time_us` returns the time at one of its instants, and of two calls
the second does not return less unless the time passes a multiple of 2^32 in between. -/
theorem getTimeUs_consistent (cc2 : UInt32) (motor2 motor3 : Int16) (past mid : List TimerEvent)
    (value : UInt32) (h : Returns (timersInit cc2 motor2 motor3) past mid value)
    (hstarted : (timers.run (timersInit cc2 motor2 motor3) past).globalTime ≠ 0)
    (hwrap : Unwrapped (timersInit cc2 motor2 motor3) past mid) :
    ∃ pre, pre <+: mid ∧ value = getTimeUs (clock (ticks (past ++ pre))) ∧
      ∀ past' mid' value', past ++ .call :: mid ++ [.step] <+: past' →
        Returns (timersInit cc2 motor2 motor3) past' mid' value' →
        (timers.run (timersInit cc2 motor2 motor3) past').globalTime ≠ 0 →
        Unwrapped (timersInit cc2 motor2 motor3) past' mid' →
        ∃ pre', pre' <+: mid' ∧ value' = getTimeUs (clock (ticks (past' ++ pre'))) ∧
          (clock (ticks (past ++ pre)) / 2 ^ 32 = clock (ticks (past' ++ pre')) / 2 ^ 32 →
            value ≤ value') := by
  obtain ⟨pre, hpre, hvalue⟩ := h.snapshot hstarted hwrap
  refine ⟨pre, hpre, hvalue, fun past' mid' value' hpast h' hstarted' hwrap' => ?_⟩
  obtain ⟨pre', hpre', hvalue'⟩ := h'.snapshot hstarted' hwrap'
  refine ⟨pre', hpre', hvalue', fun hround => ?_⟩
  have hticks : ticks (past ++ pre) ≤ ticks (past' ++ pre') := by
    have hpre := ticks_mono hpre
    have hpast := ticks_mono hpast
    rw [List.append_assoc, ticks_append] at hpast
    have hcall : ticks (.call :: mid ++ [.step]) = ticks mid := by
      rw [ticks_append]
      rfl
    rw [ticks_append, ticks_append]
    omega
  have hclock := clock_mono hticks
  have hmod (n : ℕ) : (getTimeUs n).toNat = n % 2 ^ 32 := UInt32.toNat_ofNat'
  rw [hvalue, hvalue', UInt32.le_iff_toNat_le, hmod, hmod]
  omega

/-- The timer after `n` ticks with the radio active. -/
def counted (n : ℕ) : Timers :=
  { timersInit 0 0 0 with globalTime := UInt32.ofNat (312 * (n / 2500)), counter := n % 2500 }

/-- While the radio is active, ticks touch the time and nothing else. -/
theorem run_ticks (n : ℕ) :
    timers.run (timersInit 0 0 0) (List.replicate n (.tick true)) = counted n := by
  induction n with
  | zero => rfl
  | succ n ih =>
    have hn : Counts n (counted n) := ⟨rfl, rfl⟩
    have hcounts : Counts (n + 1) ((counted n).tick true) := hn.next (.tick true)
    have htick : (counted n).tick true = { timersInit 0 0 0 with
        globalTime := ((counted n).tick true).globalTime
        counter := ((counted n).tick true).counter } := by
      unfold tick
      split_ifs <;> rfl
    rw [List.replicate_succ', Machine.run_append, ih]
    change (counted n).tick true = _
    rw [htick, hcounts.counter_eq, hcounts.globalTime_eq]
    rfl

/-- One tick before the end of the second period. -/
def late : List TimerEvent :=
  List.replicate 4999 (.tick true)

/-- The second period ends between the read of `global_time` and the capture. -/
def interrupted : List TimerEvent :=
  [.step, .step, .tick true, .step, .step, .step, .step, .step, .step]

/-- The interrupted call starts over, and returns 2 · 312. -/
theorem getTimeUs_consistent_interrupted : ∃ pre, pre <+: interrupted ∧
    (624 : UInt32) = getTimeUs (clock (ticks (late ++ pre))) := by
  have hlate := run_ticks 4999
  have hreturns : Returns (timersInit 0 0 0) late interrupted 624 := by
    refine ⟨?_, ?_, ?_⟩
    · rw [late, hlate]
      rfl
    · rw [Machine.run_append, late, hlate]
      decide +kernel
    · rw [Machine.run_append, late, hlate]
      decide +kernel
  have hwrap : Unwrapped (timersInit 0 0 0) late interrupted := by
    rw [Unwrapped, Machine.run_append, late, hlate]
    decide +kernel
  have hstarted : (timers.run (timersInit 0 0 0) late).globalTime ≠ 0 := by
    rw [late, hlate]
    decide +kernel
  obtain ⟨pre, hpre, hvalue, -⟩ :=
    getTimeUs_consistent 0 0 0 late interrupted 624 hreturns hstarted hwrap
  exact ⟨pre, hpre, hvalue⟩

/-! ## A call that is not interrupted -/

/-- The steps of a call before it returns. -/
def quiet : List TimerEvent :=
  [.step, .step, .step, .step]

/-- A call during which the timer stands still returns after one round of the loop. -/
theorem returns_quiet {t : Timers} {past : List TimerEvent} {n : ℕ}
    (hcounts : Counts n (timers.run t past)) (hidle : (timers.run t past).reader = .idle)
    (hstarted : (timers.run t past).globalTime ≠ 0) :
    Returns t past quiet (getTimeUs (clock n)) ∧ Unwrapped t past quiet ∧
      (timers.run t (past ++ .call :: quiet ++ [.step])).reader = .idle := by
  have hvalue : (timers.run t past).globalTime +
      UInt32.ofNat (timers.run t past).counter >>> 3 = getTimeUs (clock n) := by
    rw [hcounts.counter_eq, hcounts.globalTime_eq, counter_shift, ← UInt32.ofNat_add]
    rfl
  have hne : 0 ≠ (timers.run t past).globalTime := hstarted.symm
  rw [Unwrapped, List.append_assoc]
  refine ⟨⟨hidle, ?_, ?_⟩, ?_, ?_⟩
  all_goals
    rw [Machine.run_append]
    generalize timers.run t past = u at hidle hne hvalue ⊢
    simp [timers, callReader, readerStep, captureCounter, quiet, hidle, hne, hvalue]

/-- A call when `global_time` is 0 returns 0. -/
theorem returns_zero {t : Timers} {past : List TimerEvent}
    (hidle : (timers.run t past).reader = .idle) (hzero : (timers.run t past).globalTime = 0) :
    Returns t past [] 0 := by
  refine ⟨hidle, trivial, ?_⟩
  rw [Machine.run_append]
  generalize timers.run t past = u at hidle hzero ⊢
  simp [timers, callReader, readerStep, hidle, hzero]

/-- Ticks leave the reader alone. -/
theorem reader_run_ticks (t : Timers) (n : ℕ) :
    (timers.run t (List.replicate n (.tick true))).reader = t.reader := by
  induction n generalizing t with
  | zero => rfl
  | succ n ih =>
    refine (ih _).trans ?_
    change (t.tick true).reader = t.reader
    rcases t.tick_cases true with ⟨-, htick⟩ | ⟨-, cc0, cc1, motor2, motor3, htick⟩
    · rw [htick]
    · rw [htick]

theorem ticks_replicate (n : ℕ) : ticks (List.replicate n (.tick true)) = n := by
  simp [ticks, List.countP_replicate]

/-- A call returns the time at some moment between its start and its end. -/
def AlwaysSnapshot : Prop :=
  ∀ (cc2 : UInt32) (motor2 motor3 : Int16) (past mid : List TimerEvent) (value : UInt32),
    Returns (timersInit cc2 motor2 motor3) past mid value → 2500 ≤ ticks past →
    Unwrapped (timersInit cc2 motor2 motor3) past mid →
    ∃ pre, pre <+: mid ∧ value = getTimeUs (clock (ticks (past ++ pre)))

/-- A call that starts after another one has ended returns no earlier time. -/
def NeverBackwards : Prop :=
  ∀ (cc2 : UInt32) (motor2 motor3 : Int16) (past mid past' mid' : List TimerEvent)
    (value value' : UInt32),
    Returns (timersInit cc2 motor2 motor3) past mid value → 2500 ≤ ticks past →
    Unwrapped (timersInit cc2 motor2 motor3) past mid →
    past ++ .call :: mid ++ [.step] <+: past' →
    Returns (timersInit cc2 motor2 motor3) past' mid' value' →
    Unwrapped (timersInit cc2 motor2 motor3) past' mid' → value ≤ value'

/-- After periods that add up to a multiple of 2^32, a call returns 0 at any counter. -/
theorem not_alwaysSnapshot {n : ℕ} (hn : 2500 ≤ n) (hzero : 312 * (n / 2500) % 2 ^ 32 = 0)
    (hcounter : 8 ≤ n % 2500) : ¬AlwaysSnapshot := by
  intro h
  have hcounts := counts_run 0 0 0 (List.replicate n (.tick true))
  have hidle := reader_run_ticks (timersInit 0 0 0) n
  rw [ticks_replicate] at hcounts
  have hglobal :
      (timers.run (timersInit 0 0 0) (List.replicate n (.tick true))).globalTime = 0 := by
    rw [hcounts.globalTime_eq]
    exact UInt32.toNat_inj.1 (UInt32.toNat_ofNat'.trans hzero)
  obtain ⟨pre, hpre, hvalue⟩ := h 0 0 0 (List.replicate n (.tick true)) [] 0
    (returns_zero hidle hglobal) (by rwa [ticks_replicate]) trivial
  rw [List.prefix_nil.1 hpre, List.append_nil, ticks_replicate] at hvalue
  have hmod : 0 = clock n % 2 ^ 32 := (congrArg UInt32.toNat hvalue).trans UInt32.toNat_ofNat'
  unfold clock at hmod
  omega

/-- Two calls before and after the sum passes 2^32, which may be before `global_time`
does. -/
theorem not_neverBackwards {n m : ℕ} (hn : 2500 ≤ n) (hperiod : (n + m) / 2500 = n / 2500)
    (hsmall : 312 * (n / 2500) % 2 ^ 32 ≠ 0)
    (hsum : clock (n + m) % 2 ^ 32 < clock n % 2 ^ 32) : ¬NeverBackwards := by
  intro h
  let past := List.replicate n (TimerEvent.tick true)
  let past' := past ++ .call :: quiet ++ [.step] ++ List.replicate m (.tick true)
  have hticks : ticks past = n := ticks_replicate n
  have hticks' : ticks past' = n + m := by
    simp only [past', ticks_append, hticks, ticks_replicate]
    rfl
  have hcounts : Counts n (timers.run (timersInit 0 0 0) past) :=
    hticks ▸ counts_run 0 0 0 past
  have hcounts' : Counts (n + m) (timers.run (timersInit 0 0 0) past') :=
    hticks' ▸ counts_run 0 0 0 past'
  have hnonzero : UInt32.ofNat (312 * (n / 2500)) ≠ 0 := fun hzero =>
    hsmall (UInt32.toNat_ofNat'.symm.trans (congrArg UInt32.toNat hzero))
  obtain ⟨hreturns, hwrap, hidle⟩ := returns_quiet hcounts
    (reader_run_ticks (timersInit 0 0 0) n) (hcounts.globalTime_eq.trans_ne hnonzero)
  have hidle' : (timers.run (timersInit 0 0 0) past').reader = .idle := by
    rw [Machine.run_append, reader_run_ticks]
    exact hidle
  obtain ⟨hreturns', hwrap', -⟩ := returns_quiet hcounts' hidle'
    (by rw [hcounts'.globalTime_eq, hperiod]; exact hnonzero)
  have hle := h 0 0 0 past quiet past' quiet _ _ hreturns (hticks.symm ▸ hn) hwrap
    (List.prefix_append _ _) hreturns' hwrap'
  rw [UInt32.le_iff_toNat_le] at hle
  have hmod (k : ℕ) : (getTimeUs k).toNat = k % 2 ^ 32 := UInt32.toNat_ofNat'
  rw [hmod, hmod] at hle
  exact not_le_of_gt hsum hle

/-- A call returns no time of its own 2^29 periods after the start, and one goes backwards
13765920 periods after it, 255 and 262 µs into the next. -/
theorem not_consistent : ¬AlwaysSnapshot ∧ ¬NeverBackwards :=
  ⟨not_alwaysSnapshot (n := 2500 * 2 ^ 29 + 100) (by norm_num) (by norm_num) (by norm_num),
    not_neverBackwards (n := 2500 * 13765920 + 2040) (m := 60) (by norm_num) (by norm_num)
      (by norm_num) (by norm_num [clock])⟩

end Timers

end Quadrupel
