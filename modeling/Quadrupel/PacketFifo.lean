import Quadrupel.Run
import Mathlib

/-!
# The FIFO of the sensor chip

In every period the sensor chip writes a packet into its FIFO, byte by byte. A call of the
driver takes the oldest packet out of it : it reads how many bytes there are, then the overflow
bit, if more than half of the FIFO is used, and then the bytes. The chip goes on in between,
and a byte that comes to a full FIFO pushes out the oldest one. The driver finds that out only
in its next call, and then resets the FIFO.

Nothing in a packet says where it begins. `packetFifo` is the machine of the chip and the
driver, for a `PacketFormat`. The bytes that wait are whole packets, or the FIFO is about to
be reset (`Holds`), as long as no byte is pushed out while a packet is being read (`Calm`) :
the packets taken are then those that were measured, in order and once each (`taken_measured`).
Without overflow and refused packets there is no other one (`taken_all`). In any other run,
the packet that is torn is the last one before the FIFO is reset (`onlyAfter_clear`).
-/

namespace Quadrupel

/-- `max_fifo`. -/
abbrev maxFifo : ℕ :=
  1024

/-- What a driver knows of the packets `π`, and the values `σ` that they are stored in. -/
structure PacketFormat (π σ : Type*) where
  /-- The bytes of a packet. -/
  size : ℕ
  bytes : π → List UInt8
  /-- A packet is accepted, and stored. -/
  accepts : List UInt8 → Bool
  store : List UInt8 → σ → σ
  /-- The number of packets left, if there is none. -/
  moreIfShort : UInt8 → UInt8
  /-- The values of `user_ctrl` that reset the FIFO and that start it again, and that of
  `fifo_en`. -/
  fifoReset : UInt8
  running : UInt8
  fifoEnable : UInt8
  /-- With these values of `user_ctrl` and `fifo_en` the chip writes packets. -/
  enabled : UInt8 → UInt8 → Bool
  enabled_running : enabled running fifoEnable = true
  length_bytes : ∀ p, (bytes p).length = size
  moreIfShort_le : ∀ more, (moreIfShort more).toNat ≤ more.toNat
  size_pos : 0 < size
  size_lt : size < maxFifo / 2

/-- Where the call of the driver is. -/
inductive FifoCall
  | idle
  | begun
  | counted (fifoCount : UInt16)
  | reading (fifoCount : UInt16) (data : List UInt8)
  | quit
  | stop
  | clear
  | start
  | enable
deriving DecidableEq

/-- The chip, the call of the driver, and what the calls leave. -/
structure PacketFifo (σ : Type*) where
  fifo : List UInt8
  /-- What is still to be written of the packet. -/
  pending : List UInt8
  overflow : Bool
  userCtrl : UInt8
  fifoEn : UInt8
  call : FifoCall
  more : UInt8
  value : σ

/-- A packet is measured, its next byte is written, and the driver takes a step. -/
inductive FifoEvent (π : Type*)
  | measure (p : π)
  | push
  | step (intPin : Bool)

namespace PacketFifo

variable {π σ : Type*} (F : PacketFormat π σ)

/-- The chip after `mpu_reset_fifo`. -/
def init (value : σ) : PacketFifo σ where
  fifo := []
  pending := []
  overflow := false
  userCtrl := F.running
  fifoEn := F.fifoEnable
  call := .idle
  more := 0
  value := value

/-- A packet is ready. -/
def measure (p : π) (s : PacketFifo σ) : PacketFifo σ :=
  if F.enabled s.userCtrl s.fifoEn && s.pending.isEmpty then { s with pending := F.bytes p } else s

/-- The next byte goes into the FIFO. -/
def push (s : PacketFifo σ) : PacketFifo σ :=
  match s.pending with
  | [] => s
  | b :: rest =>
    if !F.enabled s.userCtrl s.fifoEn then s
    else if s.fifo.length < maxFifo then { s with fifo := s.fifo ++ [b], pending := rest }
    else { s with fifo := s.fifo.tail ++ [b], pending := rest, overflow := true }

/-- A step of the driver. The call begins if `check_sensor_int_flag` holds; it is
`mpu_read_fifo_stream` or `mpu_read_fifo`, and `mpu_reset_fifo` from `quit` on. -/
def step (intPin : Bool) (s : PacketFifo σ) : PacketFifo σ :=
  match s.call with
  | .idle => if intPin || s.more != 0 then { s with call := .begun } else s
  | .begun =>
    let fifoCount := UInt16.ofNat s.fifo.length
    if fifoCount.toNat < F.size then { s with more := F.moreIfShort s.more, call := .idle }
    else if maxFifo / 2 < fifoCount.toNat then { s with call := .counted fifoCount }
    else { s with call := .reading fifoCount [] }
  | .counted fifoCount =>
    if s.overflow then { s with overflow := false, call := .quit }
    else { s with call := .reading fifoCount [] }
  | .reading fifoCount data =>
    if data.length < F.size then
      { s with fifo := s.fifo.tail, call := .reading fifoCount (data ++ [s.fifo.headD 0]) }
    else
      let more := UInt8.ofNat (fifoCount.toNat / F.size - 1)
      if F.accepts data then
        { s with value := F.store data s.value, more := more, call := .idle }
      else { s with more := more, call := .quit }
  | .quit => { s with fifoEn := 0, call := .stop }
  | .stop => { s with userCtrl := 0, call := .clear }
  | .clear => { s with userCtrl := F.fifoReset, fifo := [], pending := [], call := .start }
  | .start => { s with userCtrl := F.running, call := .enable }
  | .enable => { s with fifoEn := F.fifoEnable, call := .idle }

/-- The bytes that the step stores, if it stores a packet. -/
def stored (s : PacketFifo σ) : Option (List UInt8) :=
  match s.call with
  | .reading _ data => if data.length < F.size || !F.accepts data then none else some data
  | _ => none

end PacketFifo

/-- The chip and its driver, with the bytes of the packets that are stored. -/
def packetFifo {π σ : Type*} (F : PacketFormat π σ) :
    Machine (PacketFifo σ) (FifoEvent π) (Option (List UInt8)) where
  next s
    | .measure p => s.measure F p
    | .push => s.push F
    | .step intPin => s.step F intPin
  out s
    | .step _ => s.stored F
    | _ => none

/-- The packets that the events measure. -/
def FifoEvent.measured {π : Type*} : FifoEvent π → Option π
  | .measure p => some p
  | _ => none

namespace FifoCall

/-- The bytes that the call has read. -/
def held : FifoCall → List UInt8
  | .reading _ data => data
  | _ => []

/-- The call reads bytes. -/
def isReading : FifoCall → Bool
  | .reading _ _ => true
  | _ => false

/-- The call counts on a whole packet. -/
def counts : FifoCall → Bool
  | .counted _ | .reading _ _ => true
  | _ => false

/-- The call is about to empty the FIFO. -/
def isQuitting : FifoCall → Bool
  | .quit | .stop | .clear => true
  | _ => false

/-- The call has emptied the FIFO, and starts it again. -/
def isStarting : FifoCall → Bool
  | .start | .enable => true
  | _ => false

end FifoCall

namespace PacketFifo

variable {π σ : Type*} {F : PacketFormat π σ}

/-- The bytes that wait are those of the packets `waiting`. -/
structure Fits (F : PacketFormat π σ) (waiting : List π) (s : PacketFifo σ) : Prop where
  running : s.call.isQuitting = false
  bytes : s.call.held ++ s.fifo ++ s.pending = waiting.flatMap F.bytes
  held_le : s.call.held.length ≤ F.size
  enough : s.call.counts = true → F.size ≤ s.call.held.length + s.fifo.length

/-- The FIFO is about to be emptied, or the next call finds that it has overflowed. -/
def Doomed (F : PacketFormat π σ) (s : PacketFifo σ) : Prop :=
  s.call.isQuitting = true ∨
    s.call.isReading = false ∧ s.overflow = true ∧ maxFifo - F.size ≤ s.fifo.length

/-- The FIFO has overflowed while a packet was read. -/
structure Torn (F : PacketFormat π σ) (s : PacketFifo σ) : Prop where
  reading : s.call.isReading = true
  overflow : s.overflow = true
  held_le : s.call.held.length ≤ F.size
  full : maxFifo ≤ s.call.held.length + s.fifo.length

/-- No byte is pushed out of the FIFO while a packet is read. -/
def Calm (s : PacketFifo σ) : FifoEvent π → Prop
  | .push => s.call.isReading = true → s.fifo.length < maxFifo
  | _ => True

instance (s : PacketFifo σ) (e : FifoEvent π) : Decidable (Calm s e) :=
  match e with
  | .push => inferInstanceAs (Decidable (_ → _))
  | .measure _ | .step _ => inferInstanceAs (Decidable True)

/-- The FIFO has the packets that the last call left, or the bytes that this one has counted. -/
def Left (F : PacketFormat π σ) (s : PacketFifo σ) : Prop :=
  match s.call with
  | .idle | .begun => s.more.toNat * F.size ≤ s.fifo.length
  | .counted fifoCount => fifoCount.toNat ≤ s.fifo.length
  | .reading fifoCount data => fifoCount.toNat ≤ data.length + s.fifo.length
  | _ => True

/-- Nothing is pushed out of the FIFO, and a packet that is measured comes after the one before
has been written, and will be accepted. -/
def Room (F : PacketFormat π σ) (s : PacketFifo σ) : FifoEvent π → Prop
  | .push => s.fifo.length < maxFifo
  | .measure p => s.pending = [] ∧ F.accepts (F.bytes p) = true
  | .step _ => True

instance (s : PacketFifo σ) (e : FifoEvent π) : Decidable (Room F s e) :=
  match e with
  | .push => inferInstanceAs (Decidable (_ < _))
  | .measure _ => inferInstanceAs (Decidable (_ ∧ _))
  | .step _ => inferInstanceAs (Decidable True)

/-- Nothing is pushed out of the FIFO, and no packet that is measured would be refused. The chip
may leave out one that comes too soon. -/
def Ample (F : PacketFormat π σ) (s : PacketFifo σ) : FifoEvent π → Prop
  | .push => s.fifo.length < maxFifo
  | .measure p => F.accepts (F.bytes p) = true
  | .step _ => True

instance (s : PacketFifo σ) (e : FifoEvent π) : Decidable (Ample F s e) :=
  match e with
  | .push => inferInstanceAs (Decidable (_ < _))
  | .measure _ => inferInstanceAs (Decidable (_ = _))
  | .step _ => inferInstanceAs (Decidable True)

theorem Room.ample {s : PacketFifo σ} {e : FifoEvent π} (h : Room F s e) : Ample F s e := by
  cases e with
  | measure p => exact h.2
  | push | step => exact h

/-- The driver empties the FIFO. -/
def Clears (s : PacketFifo σ) : FifoEvent π → Prop
  | .step _ => s.call = .clear
  | _ => False

/-! ## The chip -/

/-- A packet that is measured waits behind the others. -/
theorem Fits.load {waiting : List π} {s : PacketFifo σ} (h : Fits F waiting s)
    (hempty : s.pending = []) (p : π) :
    Fits F (waiting ++ [p]) { s with pending := F.bytes p } := by
  refine ⟨h.running, ?_, h.held_le, h.enough⟩
  have hbytes := h.bytes
  rw [hempty, List.append_nil] at hbytes
  change s.call.held ++ s.fifo ++ F.bytes p = _
  rw [hbytes, List.flatMap_append, List.flatMap_singleton]

theorem Fits.measure {waiting : List π} {s : PacketFifo σ} (h : Fits F waiting s) (p : π) :
    Fits F waiting (s.measure F p) ∨ Fits F (waiting ++ [p]) (s.measure F p) := by
  unfold PacketFifo.measure
  split_ifs with hready
  · exact Or.inr (h.load (List.isEmpty_iff.1 (Bool.and_eq_true_iff.1 hready).2) p)
  · exact Or.inl h

/-- What writing a byte can do. -/
theorem push_cases (F : PacketFormat π σ) (s : PacketFifo σ) : s.push F = s ∨
    ∃ b rest, s.pending = b :: rest ∧
      (s.fifo.length < maxFifo ∧
          s.push F = { s with fifo := s.fifo ++ [b], pending := rest } ∨
        ¬s.fifo.length < maxFifo ∧
          s.push F = { s with fifo := s.fifo.tail ++ [b], pending := rest, overflow := true }) := by
  obtain ⟨fifo, pending, overflow, userCtrl, fifoEn, call, more, value⟩ := s
  cases pending with
  | nil => exact Or.inl rfl
  | cons b rest =>
    by_cases hstopped : (!F.enabled userCtrl fifoEn) = true
    · exact Or.inl (if_pos hstopped)
    · refine Or.inr ⟨b, rest, rfl, ?_⟩
      by_cases hroom : fifo.length < maxFifo
      · exact Or.inl ⟨hroom, (if_neg hstopped).trans (if_pos hroom)⟩
      · exact Or.inr ⟨hroom, (if_neg hstopped).trans (if_neg hroom)⟩

/-- Without overflow, a byte that is written stays in line. -/
theorem Fits.push {waiting : List π} {s : PacketFifo σ} (h : Fits F waiting s)
    (hroom : s.fifo.length < maxFifo) : Fits F waiting (s.push F) := by
  obtain hsame | ⟨b, rest, hpending, ⟨-, hpush⟩ | ⟨hfull, -⟩⟩ := push_cases F s
  · rwa [hsame]
  · rw [hpush]
    have hbytes := h.bytes
    refine ⟨h.running, ?_, h.held_le, fun hcounts => ?_⟩
    · rw [hpending] at hbytes
      simpa using hbytes
    · have henough := h.enough hcounts
      change F.size ≤ s.call.held.length + (s.fifo ++ [b]).length
      rw [List.length_append]
      omega
  · exact absurd hroom hfull

/-- A byte that comes to a full FIFO pushes out another one. -/
theorem push_full {s : PacketFifo σ} (hlength : s.fifo.length = maxFifo) :
    s.push F = s ∨ (s.push F).call = s.call ∧ (s.push F).overflow = true ∧
      (s.push F).fifo.length = maxFifo := by
  obtain hsame | ⟨b, rest, -, ⟨hroom, -⟩ | ⟨-, hpush⟩⟩ := push_cases F s
  · exact Or.inl hsame
  · exact absurd hroom (Nat.not_lt.2 hlength.ge)
  · refine Or.inr ⟨hpush ▸ rfl, hpush ▸ rfl, ?_⟩
    rw [hpush]
    change (s.fifo.tail ++ [b]).length = maxFifo
    rw [List.length_append, List.length_tail, hlength]
    rfl

theorem length_push {s : PacketFifo σ} (h : s.fifo.length ≤ maxFifo) :
    s.fifo.length ≤ (s.push F).fifo.length ∧ (s.push F).fifo.length ≤ maxFifo := by
  obtain hsame | ⟨b, rest, -, ⟨hroom, hpush⟩ | ⟨hfull, -⟩⟩ := push_cases F s
  · rw [hsame]
    exact ⟨le_rfl, h⟩
  · rw [hpush]
    change s.fifo.length ≤ (s.fifo ++ [b]).length ∧ (s.fifo ++ [b]).length ≤ maxFifo
    rw [List.length_append]
    exact ⟨Nat.le_add_right _ _, hroom⟩
  · obtain hsame | ⟨-, -, hlength⟩ := push_full (F := F) (h.antisymm (Nat.not_lt.1 hfull))
    · rw [hsame]
      exact ⟨le_rfl, h⟩
    · rw [hlength]
      exact ⟨h, le_rfl⟩

/-- The chip does not see the call, nor the values. -/
theorem push_frame (F : PacketFormat π σ) (s : PacketFifo σ) : (s.push F).call = s.call ∧
    (s.push F).value = s.value ∧ (s.overflow = true → (s.push F).overflow = true) := by
  obtain hsame | ⟨b, rest, -, ⟨-, hpush⟩ | ⟨-, hpush⟩⟩ := push_cases F s
  · rw [hsame]
    exact ⟨rfl, rfl, id⟩
  · rw [hpush]
    exact ⟨rfl, rfl, id⟩
  · rw [hpush]
    exact ⟨rfl, rfl, fun _ => rfl⟩

theorem measure_frame (F : PacketFormat π σ) (s : PacketFifo σ) (p : π) :
    (s.measure F p).call = s.call ∧ (s.measure F p).value = s.value ∧
      (s.measure F p).fifo = s.fifo ∧ (s.measure F p).overflow = s.overflow := by
  unfold PacketFifo.measure
  split_ifs
  · exact ⟨rfl, rfl, rfl, rfl⟩
  · exact ⟨rfl, rfl, rfl, rfl⟩

/-! ## The driver -/

/-- The count that the driver reads. -/
theorem toNat_fifoCount {fifo : List UInt8} (h : fifo.length ≤ maxFifo) :
    (UInt16.ofNat fifo.length).toNat = fifo.length := by
  rw [UInt16.toNat_ofNat']
  exact Nat.mod_eq_of_lt (h.trans_lt (by decide))

theorem length_step (F : PacketFormat π σ) (intPin : Bool) {s : PacketFifo σ}
    (h : s.fifo.length ≤ maxFifo) : (s.step F intPin).fifo.length ≤ maxFifo := by
  have htail : s.fifo.tail.length ≤ maxFifo := by
    rw [List.length_tail]
    omega
  unfold PacketFifo.step
  cases hcall : s.call with
  | idle | begun | counted =>
    dsimp only
    split_ifs <;> exact h
  | reading =>
    dsimp only
    split_ifs
    · exact htail
    · exact h
    · exact h
  | clear => exact Nat.zero_le _
  | quit | stop | start | enable => exact h

/-- One more byte is read. -/
theorem Fits.readByte {waiting : List π} {s : PacketFifo σ} (h : Fits F waiting s)
    {fifoCount : UInt16} {data : List UInt8} (hcall : s.call = .reading fifoCount data)
    (hshort : data.length < F.size) : Fits F waiting
      { s with fifo := s.fifo.tail, call := .reading fifoCount (data ++ [s.fifo.headD 0]) } := by
  obtain ⟨-, hbytes, -, henough⟩ := h
  rw [hcall] at hbytes henough
  have hboth : F.size ≤ data.length + s.fifo.length := henough rfl
  cases hfifo : s.fifo with
  | nil =>
    rw [hfifo] at hboth
    exact absurd hboth (Nat.not_le.2 hshort)
  | cons b fifo =>
    rw [hfifo] at hbytes hboth
    refine ⟨rfl, ?_, ?_, fun _ => ?_⟩
    · change data ++ [b] ++ fifo ++ s.pending = _
      rw [List.append_assoc data, List.singleton_append]
      exact hbytes
    · change (data ++ [b]).length ≤ F.size
      rw [List.length_append]
      exact hshort
    · change F.size ≤ (data ++ [b]).length + fifo.length
      rw [List.length_cons] at hboth
      rw [List.length_append, List.length_singleton]
      omega

/-- A whole packet has been read : it is the oldest one. -/
theorem Fits.oldest {waiting : List π} {s : PacketFifo σ} (h : Fits F waiting s)
    (hlength : ¬s.call.held.length < F.size) : ∃ p rest, waiting = p :: rest ∧
      s.call.held = F.bytes p ∧ s.fifo ++ s.pending = rest.flatMap F.bytes := by
  have hbytes := h.bytes
  rw [List.append_assoc] at hbytes
  have hheld : s.call.held.length = F.size := h.held_le.antisymm (Nat.not_lt.1 hlength)
  cases waiting with
  | nil =>
    have hnil : s.call.held = [] := (List.append_eq_nil_iff.1 hbytes).1
    have hpos := F.size_pos
    rw [hnil, List.length_nil] at hheld
    omega
  | cons p rest =>
    rw [List.flatMap_cons] at hbytes
    obtain ⟨hfirst, hrest⟩ := List.append_inj hbytes (hheld.trans (F.length_bytes p).symm)
    exact ⟨p, rest, rfl, hfirst, hrest⟩

/-- What a step of the driver can do while the bytes that wait are whole packets : it stores
nothing, or the oldest packet, or it is going to reset the FIFO. -/
theorem Fits.step {waiting : List π} {s : PacketFifo σ} (h : Fits F waiting s)
    (hle : s.fifo.length ≤ maxFifo) (intPin : Bool) :
    s.stored F = none ∧ (s.step F intPin).value = s.value ∧ Fits F waiting (s.step F intPin) ∨
    (∃ p rest, waiting = p :: rest ∧ F.accepts (F.bytes p) = true ∧
      s.stored F = some (F.bytes p) ∧
      (s.step F intPin).value = F.store (F.bytes p) s.value ∧ Fits F rest (s.step F intPin)) ∨
    s.stored F = none ∧ (s.step F intPin).value = s.value ∧
      (s.step F intPin).call.isQuitting = true ∧
      (s.overflow = true ∨ ∃ p ∈ waiting, F.accepts (F.bytes p) = false) := by
  obtain ⟨hrunning, hbytes, hheld, henough⟩ := id h
  have hnot {P : Prop} (h : false = true) : P := absurd h Bool.false_ne_true
  unfold PacketFifo.step stored
  cases hcall : s.call with
  | idle =>
    rw [hcall] at hbytes hheld
    refine Or.inl ⟨rfl, ?_⟩
    dsimp only
    split_ifs
    · exact ⟨rfl, rfl, hbytes, hheld, hnot⟩
    · exact ⟨rfl, h⟩
  | begun =>
    rw [hcall] at hbytes hheld
    refine Or.inl ⟨rfl, ?_⟩
    dsimp only
    rw [toNat_fifoCount hle]
    split_ifs with hshort hhalf
    · exact ⟨rfl, rfl, hbytes, hheld, hnot⟩
    · exact ⟨rfl, rfl, hbytes, hheld, fun _ => (Nat.not_lt.1 hshort).trans (Nat.le_add_left _ _)⟩
    · exact ⟨rfl, rfl, hbytes, hheld, fun _ => (Nat.not_lt.1 hshort).trans (Nat.le_add_left _ _)⟩
  | counted fifoCount =>
    rw [hcall] at hbytes hheld henough
    dsimp only
    split_ifs with hoverflow
    · exact Or.inr (Or.inr ⟨rfl, rfl, rfl, Or.inl hoverflow⟩)
    · exact Or.inl ⟨rfl, rfl, rfl, hbytes, hheld, fun _ => henough rfl⟩
  | reading fifoCount data =>
    have holdest := h.oldest
    rw [hcall] at holdest
    dsimp only
    by_cases hshort : data.length < F.size
    · rw [if_pos hshort, decide_eq_true hshort, Bool.true_or]
      exact Or.inl ⟨rfl, rfl, h.readByte hcall hshort⟩
    · obtain ⟨p, rest, rfl, hfirst, hrest⟩ := holdest hshort
      change data = F.bytes p at hfirst
      subst hfirst
      rw [if_neg hshort, decide_eq_false hshort, Bool.false_or]
      cases haccepts : F.accepts (F.bytes p) with
      | true =>
        have hnext : Fits F rest { s with
            value := F.store (F.bytes p) s.value
            more := UInt8.ofNat (fifoCount.toNat / F.size - 1)
            call := .idle } := ⟨rfl, hrest, Nat.zero_le _, hnot⟩
        exact Or.inr (Or.inl ⟨p, rest, rfl, haccepts, rfl, rfl, hnext⟩)
      | false => exact Or.inr (Or.inr ⟨rfl, rfl, rfl, Or.inr ⟨p, List.mem_cons_self, haccepts⟩⟩)
  | quit | stop | clear =>
    rw [hcall] at hrunning
    exact absurd hrunning Bool.noConfusion
  | start | enable =>
    rw [hcall] at hbytes hheld
    exact Or.inl ⟨rfl, rfl, rfl, hbytes, hheld, hnot⟩

/-! ## Overflow -/

/-- What has overflowed stays so until the FIFO is emptied, and nothing is stored before. -/
theorem Doomed.step {s : PacketFifo σ} (h : Doomed F s) (hle : s.fifo.length ≤ maxFifo)
    (intPin : Bool) : s.stored F = none ∧ (s.step F intPin).value = s.value ∧
      (Doomed F (s.step F intPin) ∧ s.call ≠ .clear ∨
        Fits F [] (s.step F intPin) ∧ s.call = .clear) := by
  have hsize := F.size_lt
  have hrest (hquit : s.call.isQuitting = false) : s.call.isReading = false ∧
      s.overflow = true ∧ maxFifo - F.size ≤ s.fifo.length :=
    h.resolve_left fun h => Bool.false_ne_true (hquit.symm.trans h)
  unfold PacketFifo.step stored
  cases hcall : s.call with
  | idle =>
    obtain ⟨-, hoverflow, hfull⟩ := hrest (by rw [hcall]; rfl)
    dsimp only
    split_ifs
    · exact ⟨rfl, rfl, Or.inl ⟨Or.inr ⟨rfl, hoverflow, hfull⟩, by simp⟩⟩
    · exact ⟨rfl, rfl, Or.inl ⟨h, by simp⟩⟩
  | begun =>
    obtain ⟨-, hoverflow, hfull⟩ := hrest (by rw [hcall]; rfl)
    dsimp only
    rw [toNat_fifoCount hle, if_neg (by omega), if_pos (by omega)]
    exact ⟨rfl, rfl, Or.inl ⟨Or.inr ⟨rfl, hoverflow, hfull⟩, by simp⟩⟩
  | counted fifoCount =>
    obtain ⟨-, hoverflow, -⟩ := hrest (by rw [hcall]; rfl)
    dsimp only
    rw [if_pos hoverflow]
    exact ⟨rfl, rfl, Or.inl ⟨Or.inl rfl, by simp⟩⟩
  | reading fifoCount data =>
    obtain ⟨hreading, -⟩ := hrest (by rw [hcall]; rfl)
    rw [hcall] at hreading
    exact absurd hreading Bool.noConfusion
  | quit | stop => exact ⟨rfl, rfl, Or.inl ⟨Or.inl rfl, by simp⟩⟩
  | clear =>
    have hnot (h : false = true) : F.size ≤ 0 := absurd h Bool.false_ne_true
    exact ⟨rfl, rfl, Or.inr ⟨⟨rfl, rfl, Nat.zero_le _, hnot⟩, rfl⟩⟩
  | start | enable =>
    obtain ⟨-, hoverflow, hfull⟩ := hrest (by rw [hcall]; rfl)
    exact ⟨rfl, rfl, Or.inl ⟨Or.inr ⟨rfl, hoverflow, hfull⟩, by simp⟩⟩

theorem Doomed.measure {s : PacketFifo σ} (h : Doomed F s) (p : π) : Doomed F (s.measure F p) := by
  obtain ⟨hcall, -, hfifo, hoverflow⟩ := measure_frame F s p
  rw [Doomed, hcall, hfifo, hoverflow]
  exact h

theorem Doomed.push {s : PacketFifo σ} (h : Doomed F s) (hle : s.fifo.length ≤ maxFifo) :
    Doomed F (s.push F) := by
  obtain ⟨hcall, -, hoverflow⟩ := push_frame F s
  rw [Doomed, hcall]
  refine h.imp_right ?_
  rintro ⟨hreading, hover, hfull⟩
  exact ⟨hreading, hoverflow hover, hfull.trans (length_push hle).1⟩

/-- The packet that is torn is the last one before the FIFO is emptied. -/
theorem Torn.step {s : PacketFifo σ} (h : Torn F s) (intPin : Bool) :
    s.stored F = none ∧ Torn F (s.step F intPin) ∨ Doomed F (s.step F intPin) := by
  have hsize := F.size_lt
  obtain ⟨hreading, hoverflow, hheld, hfull⟩ := h
  unfold PacketFifo.step stored
  cases hcall : s.call with
  | reading fifoCount data =>
    rw [hcall] at hheld hfull
    change data.length ≤ F.size at hheld
    change maxFifo ≤ data.length + s.fifo.length at hfull
    dsimp only
    by_cases hshort : data.length < F.size
    · rw [if_pos hshort, decide_eq_true hshort, Bool.true_or]
      refine Or.inl ⟨rfl, rfl, hoverflow, ?_, ?_⟩
      · change (data ++ [s.fifo.headD 0]).length ≤ F.size
        rw [List.length_append]
        exact hshort
      · change maxFifo ≤ (data ++ [s.fifo.headD 0]).length + s.fifo.tail.length
        rw [List.length_append, List.length_singleton, List.length_tail]
        omega
    · rw [if_neg hshort]
      have hleft : maxFifo - F.size ≤ s.fifo.length := by omega
      cases F.accepts data with
      | true => exact Or.inr (Or.inr ⟨rfl, hoverflow, hleft⟩)
      | false => exact Or.inr (Or.inl rfl)
  | idle | begun | counted | quit | stop | clear | start | enable =>
    rw [hcall] at hreading
    exact absurd hreading Bool.noConfusion

theorem Torn.measure {s : PacketFifo σ} (h : Torn F s) (p : π) : Torn F (s.measure F p) := by
  obtain ⟨hcall, -, hfifo, hoverflow⟩ := measure_frame F s p
  obtain ⟨hreading, hover, hheld, hfull⟩ := h
  exact ⟨hcall ▸ hreading, hoverflow ▸ hover, hcall ▸ hheld, hcall ▸ hfifo ▸ hfull⟩

theorem Torn.push {s : PacketFifo σ} (h : Torn F s) (hle : s.fifo.length ≤ maxFifo) :
    Torn F (s.push F) := by
  obtain ⟨hcall, -, hoverflow⟩ := push_frame F s
  obtain ⟨hreading, hover, hheld, hfull⟩ := h
  have hgrow := (length_push (F := F) hle).1
  refine ⟨hcall ▸ hreading, hoverflow hover, hcall ▸ hheld, ?_⟩
  rw [hcall]
  omega

/-! ## Runs -/

/-- The packets that the events measure, in order. -/
def measured (es : List (FifoEvent π)) : List π :=
  es.filterMap FifoEvent.measured

/-- The bytes that wait are those of the packets `waiting`, or there is none that counts. -/
def Holds (F : PacketFormat π σ) (waiting : List π) (s : PacketFifo σ) : Prop :=
  s.fifo.length ≤ maxFifo ∧ (Fits F waiting s ∨ Doomed F s ∧ waiting = [])

/-- The packets `taken` are stored in a step from `s` to `s'`. -/
structure Stores (F : PacketFormat π σ) (s s' : PacketFifo σ) (stored : Option (List UInt8))
    (taken : List π) : Prop where
  stored : stored.toList = taken.map F.bytes
  accepted : ∀ p ∈ taken, F.accepts (F.bytes p) = true
  value : s'.value = taken.foldl (fun value p => F.store (F.bytes p) value) s.value

theorem Stores.none {s s' : PacketFifo σ} (h : s'.value = s.value) :
    Stores F s s' none [] :=
  ⟨rfl, by simp, h⟩

/-- What a calm step stores, and what then waits, are the oldest of the packets. -/
theorem Holds.next {waiting : List π} {s : PacketFifo σ} (h : Holds F waiting s)
    {e : FifoEvent π} (he : Calm s e) : ∃ taken left, Holds F left ((packetFifo F).next s e) ∧
      Stores F s ((packetFifo F).next s e) ((packetFifo F).out s e) taken ∧
      (taken ++ left).Sublist (waiting ++ measured [e]) := by
  obtain ⟨hle, h⟩ := h
  cases e with
  | measure p =>
    obtain ⟨hcall, hvalue, hfifo, -⟩ := measure_frame F s p
    have hle' : (s.measure F p).fifo.length ≤ maxFifo := hfifo ▸ hle
    rcases h with hfits | ⟨hdoomed, rfl⟩
    · rcases hfits.measure p with hsame | hmore
      · exact ⟨[], waiting, ⟨hle', Or.inl hsame⟩, .none hvalue, List.sublist_append_left _ _⟩
      · exact ⟨[], waiting ++ [p], ⟨hle', Or.inl hmore⟩, .none hvalue, List.Sublist.refl _⟩
    · exact ⟨[], [], ⟨hle', Or.inr ⟨hdoomed.measure p, rfl⟩⟩, .none hvalue, List.nil_sublist _⟩
  | push =>
    obtain ⟨hcall, hvalue, -⟩ := push_frame F s
    have hle' : (s.push F).fifo.length ≤ maxFifo := (length_push hle).2
    rcases h with hfits | ⟨hdoomed, rfl⟩
    · by_cases hroom : s.fifo.length < maxFifo
      · refine ⟨[], waiting, ⟨hle', Or.inl (hfits.push hroom)⟩, .none hvalue, ?_⟩
        exact List.sublist_append_left _ _
      · rcases push_full (F := F) (hle.antisymm (Nat.not_lt.1 hroom)) with hsame | hover
        · refine ⟨[], waiting, ⟨hle', Or.inl ?_⟩, .none hvalue, List.sublist_append_left _ _⟩
          change Fits F waiting (s.push F)
          rwa [hsame]
        · refine ⟨[], [], ⟨hle', Or.inr ⟨Or.inr ⟨?_, hover.2.1, ?_⟩, rfl⟩⟩, .none hvalue,
            List.nil_sublist _⟩
          · change (s.push F).call.isReading = false
            rw [hcall]
            exact Bool.eq_false_iff.2 fun hreading => hroom (he hreading)
          · exact hover.2.2.symm ▸ Nat.sub_le _ _
    · exact ⟨[], [], ⟨hle', Or.inr ⟨hdoomed.push hle, rfl⟩⟩, .none hvalue, List.nil_sublist _⟩
  | step intPin =>
    have hle' := length_step F intPin hle
    change ∃ taken left, Holds F left (s.step F intPin) ∧
      Stores F s (s.step F intPin) (s.stored F) taken ∧ (taken ++ left).Sublist (waiting ++ [])
    rw [List.append_nil]
    rcases h with hfits | ⟨hdoomed, rfl⟩
    · obtain ⟨hstored, hvalue, hfits⟩ | ⟨p, rest, rfl, haccepts, hstored, hvalue, hfits⟩ |
        ⟨hstored, hvalue, hquit, -⟩ := hfits.step hle intPin
      · rw [hstored]
        exact ⟨[], waiting, ⟨hle', Or.inl hfits⟩, .none hvalue, List.Sublist.refl _⟩
      · rw [hstored]
        refine ⟨[p], rest, ⟨hle', Or.inl hfits⟩, ⟨rfl, ?_, hvalue⟩, List.Sublist.refl _⟩
        exact List.forall_mem_singleton.2 haccepts
      · rw [hstored]
        exact ⟨[], [], ⟨hle', Or.inr ⟨Or.inl hquit, rfl⟩⟩, .none hvalue, List.nil_sublist _⟩
    · obtain ⟨hstored, hvalue, ⟨hdoomed, -⟩ | ⟨hfits, -⟩⟩ := hdoomed.step hle intPin
      · rw [hstored]
        exact ⟨[], [], ⟨hle', Or.inr ⟨hdoomed, rfl⟩⟩, .none hvalue, List.Sublist.refl _⟩
      · rw [hstored]
        exact ⟨[], [], ⟨hle', Or.inl hfits⟩, .none hvalue, List.Sublist.refl _⟩

/-- If in every good step the packets stored, and those that then wait, relate to those that
waited before and the one that is measured, then so they do in a run. -/
theorem stores_run (Inv : List π → PacketFifo σ → Prop) (R : List π → List π → Prop)
    {good : PacketFifo σ → FifoEvent π → Prop} (hleft : ∀ a b c, R b c → R (a ++ b) (a ++ c))
    (hright : ∀ a b c, R a b → R (a ++ c) (b ++ c)) (htrans : ∀ a b c, R a b → R b c → R a c)
    (hstep : ∀ waiting s e, Inv waiting s → good s e → ∃ taken left,
      Inv left ((packetFifo F).next s e) ∧
      Stores F s ((packetFifo F).next s e) ((packetFifo F).out s e) taken ∧
      R (taken ++ left) (waiting ++ measured [e]))
    {s : PacketFifo σ} {es : List (FifoEvent π)} (hs : Inv [] s) (hnil : R [] [])
    (hes : (packetFifo F).Along good s es) : ∃ taken waiting,
      ((packetFifo F).outputs s es).reduceOption = taken.map F.bytes ∧
      (∀ p ∈ taken, F.accepts (F.bytes p) = true) ∧
      ((packetFifo F).run s es).value =
        taken.foldl (fun value p => F.store (F.bytes p) value) s.value ∧
      Inv waiting ((packetFifo F).run s es) ∧ R (taken ++ waiting) (measured es) := by
  induction es using List.reverseRecOn with
  | nil => exact ⟨[], [], rfl, by simp, rfl, hs, hnil⟩
  | append_singleton es e ih =>
    rw [Machine.along_append, Machine.along_cons] at hes
    obtain ⟨taken, waiting, houts, haccepted, hvalue, hinv, hrel⟩ := ih hes.1
    obtain ⟨new, left, hnext, ⟨hstored, hnew, hvalue'⟩, hrel'⟩ := hstep waiting _ e hinv hes.2.1
    rw [Machine.outputs_append, Machine.run_append]
    refine ⟨taken ++ new, left, ?_, ?_, ?_, hnext, ?_⟩
    · rw [List.reduceOption_append, houts, List.map_append, ← hstored]
      exact congrArg _ (List.reduceOption_singleton _)
    · exact List.forall_mem_append.2 ⟨haccepted, hnew⟩
    · rw [Machine.run_cons, Machine.run_nil, hvalue', hvalue, List.foldl_append]
    · have hfirst := hleft taken _ _ hrel'
      have hsecond := hright _ _ (measured [e]) hrel
      rw [List.append_assoc] at hsecond
      rw [List.append_assoc, measured, List.filterMap_append]
      exact htrans _ _ _ hfirst hsecond

theorem fits_init (F : PacketFormat π σ) (value : σ) : Fits F [] (init F value) :=
  ⟨rfl, rfl, Nat.zero_le _, fun h => absurd h Bool.false_ne_true⟩

/-- In a run in which no byte is pushed out while a packet is read, the packets taken are
those that were measured, in order and once each. -/
theorem taken_measured {value : σ} {es : List (FifoEvent π)}
    (hes : (packetFifo F).Along Calm (init F value) es) : ∃ taken waiting,
      ((packetFifo F).outputs (init F value) es).reduceOption = taken.map F.bytes ∧
      (∀ p ∈ taken, F.accepts (F.bytes p) = true) ∧
      ((packetFifo F).run (init F value) es).value =
        taken.foldl (fun value p => F.store (F.bytes p) value) value ∧
      Holds F waiting ((packetFifo F).run (init F value) es) ∧
      (taken ++ waiting).Sublist (measured es) :=
  stores_run (Holds F) List.Sublist (fun a _ _ h => h.append_left a)
    (fun _ _ c h => h.append_right c) (fun _ _ _ => List.Sublist.trans) (fun _ _ _ h => h.next)
    ⟨Nat.zero_le _, Or.inl (fits_init F value)⟩ (List.Sublist.refl _) hes

/-- Nothing has overflowed, no packet will be refused, and the chip goes on. -/
structure Flows (F : PacketFormat π σ) (waiting : List π) (s : PacketFifo σ) : Prop where
  length_le : s.fifo.length ≤ maxFifo
  fits : Fits F waiting s
  overflow : s.overflow = false
  accepted : ∀ p ∈ waiting, F.accepts (F.bytes p) = true
  goes : s.call.isStarting = false
  userCtrl : s.userCtrl = F.running
  fifoEn : s.fifoEn = F.fifoEnable
  left : Left F s

/-- A step of a call that neither resets the FIFO nor starts it leaves the chip. -/
theorem step_frame (F : PacketFormat π σ) {s : PacketFifo σ} (intPin : Bool)
    (hquit : s.call.isQuitting = false) (hstart : s.call.isStarting = false) :
    (s.step F intPin).userCtrl = s.userCtrl ∧ (s.step F intPin).fifoEn = s.fifoEn ∧
      (s.step F intPin).call.isStarting = false ∧
      (s.overflow = false → (s.step F intPin).overflow = false) := by
  unfold PacketFifo.step
  cases hcall : s.call with
  | idle | begun | counted | reading =>
    dsimp only
    split_ifs <;> simp_all [FifoCall.isStarting]
  | quit | stop | clear =>
    rw [hcall] at hquit
    exact absurd hquit Bool.noConfusion
  | start | enable =>
    rw [hcall] at hstart
    exact absurd hstart Bool.noConfusion

/-- More bytes in the FIFO. -/
theorem Left.mono {s s' : PacketFifo σ} (h : Left F s) (hcall : s'.call = s.call)
    (hmore : s'.more = s.more) (hfifo : s.fifo.length ≤ s'.fifo.length) : Left F s' := by
  unfold Left at h ⊢
  rw [hcall, hmore]
  cases hat : s.call with
  | idle | begun | counted =>
    rw [hat] at h
    exact le_trans h hfifo
  | reading =>
    rw [hat] at h
    exact le_trans h (Nat.add_le_add_left hfifo _)
  | quit | stop | clear | start | enable => trivial

/-- The number of packets that the call leaves. -/
theorem toNat_more (F : PacketFormat π σ) (fifoCount : UInt16) :
    (UInt8.ofNat (fifoCount.toNat / F.size - 1)).toNat * F.size ≤ fifoCount.toNat - F.size := by
  have hle : (UInt8.ofNat (fifoCount.toNat / F.size - 1)).toNat ≤ fifoCount.toNat / F.size - 1 := by
    rw [UInt8.toNat_ofNat']
    exact Nat.mod_le _ _
  calc (UInt8.ofNat (fifoCount.toNat / F.size - 1)).toNat * F.size
      ≤ (fifoCount.toNat / F.size - 1) * F.size := Nat.mul_le_mul_right _ hle
    _ = fifoCount.toNat / F.size * F.size - F.size := by rw [Nat.sub_mul, Nat.one_mul]
    _ ≤ fifoCount.toNat - F.size := Nat.sub_le_sub_right (Nat.div_mul_le_self _ _) _

theorem Left.step {waiting : List π} {s : PacketFifo σ} (h : Left F s)
    (hle : s.fifo.length ≤ maxFifo) (hfits : Fits F waiting s)
    (hgoes : s.call.isStarting = false) (intPin : Bool) : Left F (s.step F intPin) := by
  obtain ⟨hrunning, -, hheld, henough⟩ := hfits
  unfold PacketFifo.step
  unfold Left at h
  cases hcall : s.call with
  | idle =>
    rw [hcall] at h
    dsimp only
    split_ifs
    · exact h
    · unfold Left
      rwa [hcall]
  | begun =>
    rw [hcall] at h
    dsimp only
    split_ifs
    · exact (Nat.mul_le_mul_right _ (F.moreIfShort_le s.more)).trans h
    · exact (toNat_fifoCount hle).le
    · exact (toNat_fifoCount hle).le.trans (Nat.le_add_left _ _)
  | counted fifoCount =>
    rw [hcall] at h
    dsimp only
    split_ifs
    · trivial
    · exact le_trans h (Nat.le_add_left _ _)
  | reading fifoCount data =>
    rw [hcall] at h hheld henough
    have hboth : F.size ≤ data.length + s.fifo.length := henough rfl
    change data.length ≤ F.size at hheld
    dsimp only at h ⊢
    split_ifs with hshort
    · change fifoCount.toNat ≤ (data ++ [s.fifo.headD 0]).length + s.fifo.tail.length
      rw [List.length_append, List.length_singleton, List.length_tail]
      omega
    · have hmore := toNat_more F fifoCount
      change (UInt8.ofNat (fifoCount.toNat / F.size - 1)).toNat * F.size ≤ s.fifo.length
      omega
    · trivial
  | quit | stop | clear =>
    rw [hcall] at hrunning
    exact absurd hrunning Bool.noConfusion
  | start | enable =>
    rw [hcall] at hgoes
    exact absurd hgoes Bool.noConfusion

/-- A packet that is measured waits behind the others, or it is left out. -/
theorem Flows.measure {waiting : List π} {s : PacketFifo σ} (h : Flows F waiting s) {p : π}
    (hp : F.accepts (F.bytes p) = true) :
    Flows F (waiting ++ [p]) (s.measure F p) ∨
      s.pending ≠ [] ∧ Flows F waiting (s.measure F p) := by
  obtain ⟨hle, hfits, hoverflow, haccepted, hgoes, huserCtrl, hfifoEn, hleft⟩ := id h
  by_cases hempty : s.pending = []
  · have hready : (F.enabled s.userCtrl s.fifoEn && s.pending.isEmpty) = true := by
      rw [huserCtrl, hfifoEn, F.enabled_running, hempty]
      rfl
    have hmeasure : s.measure F p = { s with pending := F.bytes p } := if_pos hready
    rw [hmeasure]
    have haccepted' := List.forall_mem_append.2 ⟨haccepted, List.forall_mem_singleton.2 hp⟩
    exact Or.inl ⟨hle, hfits.load hempty p, hoverflow, haccepted', hgoes, huserCtrl, hfifoEn,
      hleft⟩
  · have hbusy : ¬(F.enabled s.userCtrl s.fifoEn && s.pending.isEmpty) = true := fun hready =>
      hempty (List.isEmpty_iff.1 (Bool.and_eq_true_iff.1 hready).2)
    have hmeasure : s.measure F p = s := if_neg hbusy
    rw [hmeasure]
    exact Or.inr ⟨hempty, h⟩

/-- A step takes the oldest of the packets, and one that is measured comes behind them. -/
theorem Flows.next {waiting : List π} {s : PacketFifo σ} (h : Flows F waiting s)
    {e : FifoEvent π} (he : Ample F s e) : ∃ taken left, Flows F left ((packetFifo F).next s e) ∧
      Stores F s ((packetFifo F).next s e) ((packetFifo F).out s e) taken ∧
      (taken ++ left = waiting ++ measured [e] ∨ ¬Room F s e) := by
  obtain ⟨hle, hfits, hoverflow, haccepted, hgoes, huserCtrl, hfifoEn, hleft⟩ := id h
  cases e with
  | measure p =>
    have hstores : Stores F s (s.measure F p) none [] := .none (measure_frame F s p).2.1
    rcases h.measure he with hmore | ⟨hbusy, hsame⟩
    · exact ⟨[], waiting ++ [p], hmore, hstores, Or.inl rfl⟩
    · exact ⟨[], waiting, hsame, hstores, Or.inr fun h => hbusy h.1⟩
  | push =>
    refine ⟨[], waiting, ?_, .none (push_frame F s).2.1, Or.inl (List.append_nil _).symm⟩
    have hnext := hfits.push he
    obtain ⟨hgrow, hle'⟩ := length_push (F := F) hle
    change Flows F waiting (s.push F)
    obtain hsame | ⟨b, rest, -, ⟨-, hpush⟩ | ⟨hfull, -⟩⟩ := push_cases F s
    · rw [hsame]
      exact h
    · rw [hpush] at hnext hle' hgrow ⊢
      exact ⟨hle', hnext, hoverflow, haccepted, hgoes, huserCtrl, hfifoEn,
        hleft.mono rfl rfl hgrow⟩
    · exact absurd he hfull
  | step intPin =>
    obtain ⟨hctrl, hen, hgoes', hoverflow'⟩ := step_frame F intPin hfits.running hgoes
    change ∃ taken left, Flows F left (s.step F intPin) ∧
      Stores F s (s.step F intPin) (s.stored F) taken ∧ (taken ++ left = waiting ++ [] ∨ _)
    rw [List.append_nil]
    have hflows (rest : List π) (hrest : Fits F rest (s.step F intPin))
        (hsub : ∀ p ∈ rest, F.accepts (F.bytes p) = true) : Flows F rest (s.step F intPin) :=
      ⟨length_step F intPin hle, hrest, hoverflow' hoverflow, hsub, hgoes', hctrl.trans huserCtrl,
        hen.trans hfifoEn, hleft.step hle hfits hgoes intPin⟩
    obtain ⟨hstored, hvalue, hnext⟩ | ⟨p, rest, rfl, hp, hstored, hvalue, hnext⟩ |
      ⟨-, -, -, hover | ⟨p, hp, hrefused⟩⟩ := hfits.step hle intPin
    · rw [hstored]
      exact ⟨[], waiting, hflows waiting hnext haccepted, .none hvalue, Or.inl rfl⟩
    · rw [hstored]
      rw [List.forall_mem_cons] at haccepted
      refine ⟨[p], rest, hflows rest hnext haccepted.2, ⟨rfl, ?_, hvalue⟩, Or.inl rfl⟩
      exact List.forall_mem_singleton.2 hp
    · exact absurd (hoverflow.symm.trans hover) Bool.false_ne_true
    · exact absurd (hrefused.symm.trans (haccepted p hp)) Bool.false_ne_true

theorem flows_init (F : PacketFormat π σ) (value : σ) : Flows F [] (init F value) :=
  ⟨Nat.zero_le _, fits_init F value, rfl, by simp, rfl, rfl, rfl, by simp [Left, init]⟩

/-- In a run in which nothing is pushed out of the FIFO, and no packet is refused, the packets
taken and those that wait are all that were measured. -/
theorem taken_all {value : σ} {es : List (FifoEvent π)}
    (hes : (packetFifo F).Along (Room F) (init F value) es) : ∃ taken waiting,
      ((packetFifo F).outputs (init F value) es).reduceOption = taken.map F.bytes ∧
      (∀ p ∈ taken, F.accepts (F.bytes p) = true) ∧
      ((packetFifo F).run (init F value) es).value =
        taken.foldl (fun value p => F.store (F.bytes p) value) value ∧
      Flows F waiting ((packetFifo F).run (init F value) es) ∧
      taken ++ waiting = measured es := by
  refine stores_run (Flows F) Eq (fun a _ _ h => congrArg (a ++ ·) h)
    (fun _ _ c h => congrArg (· ++ c) h) (fun _ _ _ => Eq.trans) ?_ (flows_init F value) rfl hes
  intro waiting s e hflows he
  obtain ⟨taken, left, hnext, hstores, hall⟩ := hflows.next he.ample
  exact ⟨taken, left, hnext, hstores, hall.resolve_right (not_not.2 he)⟩

/-- Also if the chip leaves packets out, a call that begins since the one before has left a packet
finds it. -/
theorem finds_packet {value : σ} {es : List (FifoEvent π)}
    (hes : (packetFifo F).Along (Ample F) (init F value) es) :
    (packetFifo F).Along (fun s _ => s.call = .idle → s.more ≠ 0 → F.size ≤ s.fifo.length)
      (init F value) es := by
  have hstep (s : PacketFifo σ) (e : FifoEvent π) (h : ∃ waiting, Flows F waiting s)
      (he : Ample F s e) : (∃ waiting, Flows F waiting ((packetFifo F).next s e)) ∧
        (s.call = .idle → s.more ≠ 0 → F.size ≤ s.fifo.length) := by
    obtain ⟨waiting, hflows⟩ := h
    obtain ⟨-, left, hnext, -⟩ := hflows.next he
    refine ⟨⟨left, hnext⟩, fun hidle hmore => ?_⟩
    have hleft := hflows.left
    unfold Left at hleft
    rw [hidle] at hleft
    have hpos : 1 ≤ s.more.toNat := Nat.one_le_iff_ne_zero.2 fun h => hmore (UInt8.toNat_inj.1 h)
    exact (Nat.le_mul_of_pos_left _ hpos).trans hleft
  exact (packetFifo F).along_of_invariant hstep ⟨[], flows_init F value⟩ hes

theorem length_next {s : PacketFifo σ} (h : s.fifo.length ≤ maxFifo) (e : FifoEvent π) :
    ((packetFifo F).next s e).fifo.length ≤ maxFifo := by
  cases e with
  | measure p => exact (measure_frame F s p).2.2.1 ▸ h
  | push => exact (length_push h).2
  | step intPin => exact length_step F intPin h

theorem Doomed.next {s : PacketFifo σ} (h : Doomed F s) (hle : s.fifo.length ≤ maxFifo)
    (e : FifoEvent π) : (packetFifo F).out s e = none ∧
      (Doomed F ((packetFifo F).next s e) ∨ Fits F [] ((packetFifo F).next s e) ∧ Clears s e) := by
  cases e with
  | measure p => exact ⟨rfl, Or.inl (h.measure p)⟩
  | push => exact ⟨rfl, Or.inl (h.push hle)⟩
  | step intPin =>
    obtain ⟨hstored, -, hnext⟩ := h.step hle intPin
    exact ⟨hstored, hnext.imp_left And.left⟩

theorem Torn.next {s : PacketFifo σ} (h : Torn F s) (hle : s.fifo.length ≤ maxFifo)
    (e : FifoEvent π) : (packetFifo F).out s e = none ∧ Torn F ((packetFifo F).next s e) ∨
      Doomed F ((packetFifo F).next s e) := by
  cases e with
  | measure p => exact Or.inl ⟨rfl, h.measure p⟩
  | push => exact Or.inl ⟨rfl, h.push hle⟩
  | step intPin => exact h.step intPin

/-- A byte that is pushed out while a packet is read. -/
theorem Fits.torn {waiting : List π} {s : PacketFifo σ} (h : Fits F waiting s)
    (hle : s.fifo.length ≤ maxFifo) (hreading : s.call.isReading = true)
    (hfull : ¬s.fifo.length < maxFifo) : Fits F waiting (s.push F) ∨ Torn F (s.push F) := by
  obtain hsame | ⟨hcall, hoverflow, hlength⟩ :=
    push_full (F := F) (hle.antisymm (Nat.not_lt.1 hfull))
  · exact Or.inl (hsame.symm ▸ h)
  · refine Or.inr ⟨hcall ▸ hreading, hoverflow, hcall ▸ h.held_le, ?_⟩
    rw [hlength]
    exact Nat.le_add_left _ _

/-- In every run, the bytes that wait are those of packets that were measured, or the FIFO has
overflowed. -/
theorem fits_or_overflow (value : σ) (es : List (FifoEvent π)) :
    ((packetFifo F).run (init F value) es).fifo.length ≤ maxFifo ∧
      ((∃ waiting, waiting ⊆ measured es ∧ Fits F waiting ((packetFifo F).run (init F value) es)) ∨
        Doomed F ((packetFifo F).run (init F value) es) ∨
        Torn F ((packetFifo F).run (init F value) es)) := by
  induction es using List.reverseRecOn with
  | nil => exact ⟨Nat.zero_le _, Or.inl ⟨[], List.Subset.refl _, fits_init F value⟩⟩
  | append_singleton es e ih =>
    rw [Machine.run_append, Machine.run_cons, Machine.run_nil]
    generalize (packetFifo F).run (init F value) es = s at ih ⊢
    obtain ⟨hle, h⟩ := ih
    refine ⟨length_next hle e, ?_⟩
    have hmeasured : measured (es ++ [e]) = measured es ++ measured [e] := List.filterMap_append
    rw [hmeasured]
    rcases h with ⟨waiting, hsub, hfits⟩ | hdoomed | htorn
    · by_cases hcalm : Calm s e
      · obtain ⟨taken, left, ⟨-, hnext⟩, -, hleft⟩ := Holds.next ⟨hle, Or.inl hfits⟩ hcalm
        refine hnext.imp (fun hnext => ⟨left, fun p hp => ?_, hnext⟩) fun hnext => Or.inl hnext.1
        have hp' := hleft.subset (List.mem_append_right taken hp)
        exact List.append_subset.2 ⟨List.Subset.trans hsub (List.subset_append_left _ _),
          List.subset_append_right _ _⟩ hp'
      · cases e with
        | push =>
          obtain ⟨hreading, hfull⟩ := Classical.not_imp.1 hcalm
          refine (hfits.torn hle hreading hfull).imp (fun h => ⟨waiting, ?_, h⟩) Or.inr
          exact List.Subset.trans hsub (List.subset_append_left _ _)
        | measure | step => exact absurd trivial hcalm
    · exact (hdoomed.next hle e).2.symm.imp (fun h => ⟨[], List.nil_subset _, h.1⟩) Or.inl
    · exact Or.inr ((htorn.next hle e).symm.imp_right And.right)

/-- What is stored in any step is a packet that was measured, or the FIFO has overflowed while it
was read, and is emptied before anything is stored again. -/
theorem onlyAfter_clear (value : σ) (pre : List (FifoEvent π)) (e : FifoEvent π)
    (post : List (FifoEvent π)) :
    (packetFifo F).out ((packetFifo F).run (init F value) pre) e = none ∨
      (∃ p ∈ measured pre,
        (packetFifo F).out ((packetFifo F).run (init F value) pre) e = some (F.bytes p)) ∨
      Torn F ((packetFifo F).run (init F value) pre) ∧
        (packetFifo F).OnlyAfter Clears (fun s e => (packetFifo F).out s e ≠ none)
          ((packetFifo F).run (init F value) (pre ++ [e])) post := by
  obtain ⟨hle, hpre⟩ := fits_or_overflow value pre
  rw [Machine.run_append, Machine.run_cons, Machine.run_nil]
  generalize (packetFifo F).run (init F value) pre = s at hle hpre ⊢
  rcases hpre with ⟨waiting, hsub, hfits⟩ | hdoomed | htorn
  · cases e with
    | measure | push => exact Or.inl rfl
    | step intPin =>
      obtain ⟨hstored, -⟩ | ⟨p, rest, rfl, -, hstored, -⟩ | ⟨hstored, -⟩ := hfits.step hle intPin
      · exact Or.inl hstored
      · exact Or.inr (Or.inl ⟨p, hsub List.mem_cons_self, hstored⟩)
      · exact Or.inl hstored
  · exact Or.inl (hdoomed.next hle e).1
  · refine (htorn.next hle e).imp And.left fun hdoomed => Or.inr ⟨htorn, ?_⟩
    have hstep (s : PacketFifo σ) (e : FifoEvent π) (h : s.fifo.length ≤ maxFifo ∧ Doomed F s)
        (_ : True) (hclears : ¬Clears s e) (_ : ¬False) :
        ((packetFifo F).next s e).fifo.length ≤ maxFifo ∧ Doomed F ((packetFifo F).next s e) :=
      ⟨length_next h.1 e, (h.2.next h.1 e).2.resolve_right fun h => hclears h.2⟩
    have hprop (s : PacketFifo σ) (e : FifoEvent π) (h : s.fifo.length ≤ maxFifo ∧ Doomed F s) :
        ¬(packetFifo F).out s e ≠ none := not_not.2 (h.2.next h.1 e).1
    exact (packetFifo F).onlyAfter_of_invariant hstep hprop ⟨length_next hle e, hdoomed⟩
      (((packetFifo F).along_events (fun _ => True) _ _).2 fun _ _ => trivial)
      (((packetFifo F).onlyAfter_iff _ _ _ _).2 fun _ _ _ _ h => h.elim)

end PacketFifo

end Quadrupel
