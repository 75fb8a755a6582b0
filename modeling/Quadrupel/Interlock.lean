import Quadrupel.Lossy

/-!
# The flight-mode interlock

The drone takes any mode that a `SET_MODE` asks for, so a rule about the mode it leaves
for another is a rule about the order of the modes on their way to it. `trail` is its
mode followed by those : no flight mode in it may come behind anything but `SAFE_MODE`
or itself. That is a property of every sublist of a list that has it, so the links cannot
break it; a send or a failsafe can (`KeepsApart`), and so can a frame whose bytes the parser
takes for a `SET_MODE`. The PC does not know the mode of the drone, and `not_interlock` is a
run in which it sends a flight mode because a request for `SAFE_MODE` that never arrived
opened its gate.
-/

namespace Quadrupel

/-- The modes between which the drone is not to switch directly. -/
def flightModes : List ModeType :=
  [.manualMode, .calibrationMode, .yawControlMode, .fullControlMode, .rawMode]

/-- The value is one of those modes. -/
def Flight (mode : UInt8) : Prop :=
  ∃ m ∈ flightModes, mode = m.toByte

instance (mode : UInt8) : Decidable (Flight mode) :=
  inferInstanceAs (Decidable (∃ m ∈ flightModes, _))

/-- From `mode`, or behind it, the drone may go to `next`. -/
def Admits (mode next : UInt8) : Prop :=
  Flight next → mode = ModeType.safeMode ∨ mode = next

instance (mode next : UInt8) : Decidable (Admits mode next) :=
  inferInstanceAs (Decidable (_ → _))

namespace Joint

/-- The failsafe of the drone starts a panic. -/
def FailsafeStarts (s : Joint) : JointEvent → Prop
  | .timer batVolt now => s.drone.Failsafe batVolt now ∧ ¬s.InPanic
  | _ => False

instance (s : Joint) : ∀ e, Decidable (s.FailsafeStarts e)
  | .timer batVolt now => inferInstanceAs (Decidable (s.drone.Failsafe batVolt now ∧ ¬s.InPanic))
  | .joystick .. | .keyboard .. | .pcReceive | .resend _ | .control _ | .droneReceive _
  | .terminate | .loseToDrone _ | .loseToPc _ => inferInstanceAs (Decidable False)

/-- If the PC sends a flight mode, then the drone is in `SAFE_MODE` or that mode and all
requests on their way ask for one of the two; and if the failsafe starts a panic, then no
flight mode is on its way. -/
def KeepsApart (s : Joint) (e : JointEvent) : Prop :=
  (∀ m ∈ s.sent e, Flight m → ∀ x ∈ s.trail, x = ModeType.safeMode ∨ x = m) ∧
    (s.FailsafeStarts e → ∀ m ∈ s.modesToDrone, ¬Flight m)

instance (s : Joint) (e : JointEvent) : Decidable (s.KeepsApart e) :=
  have : Decidable (∀ m ∈ s.sent e, Flight m → ∀ x ∈ s.trail, x = ModeType.safeMode ∨ x = m) :=
    inferInstance
  have : Decidable (s.FailsafeStarts e → ∀ m ∈ s.modesToDrone, ¬Flight m) := inferInstance
  inferInstanceAs (Decidable (_ ∧ _))

/-- No flight mode comes behind anything but `SAFE_MODE` and itself. -/
def Apart (s : Joint) : Prop :=
  s.trail.Pairwise Admits

theorem Apart.snoc {s : Joint} (h : s.Apart) {e : JointEvent} (he : s.KeepsApart e) :
    (s.trail ++ (s.sent e).toList).Pairwise Admits := by
  refine List.pairwise_append.2 ⟨h, ?_, fun x hx m hm hflight => ?_⟩
  · cases s.sent e <;> simp
  · exact he.1 m (Option.mem_toList.1 hm) hflight x hx

/-- Behind a mode that is neither `SAFE_MODE` nor a flight mode comes no flight mode. -/
theorem not_flight_of_pairwise {mode : UInt8} {l : List UInt8}
    (h : (mode :: l).Pairwise Admits) (hsafe : mode ≠ ModeType.safeMode) (hmode : ¬Flight mode) :
    ∀ m ∈ l, ¬Flight m := by
  intro m hm hflight
  rcases List.rel_of_pairwise_cons h hm hflight with heq | rfl
  · exact hsafe heq
  · exact hmode hflight

theorem pairwise_panic {l : List UInt8} (h : l.Pairwise Admits) (hl : ∀ m ∈ l, ¬Flight m) :
    (ModeType.panicMode.toByte :: l).Pairwise Admits :=
  List.pairwise_cons.2 ⟨fun m hm hflight => absurd hflight (hl m hm), h⟩

theorem Apart.next {s : Joint} (h : s.Apart) {e : JointEvent} (he : s.KeepsApart e) :
    (joint.next s e).Apart := by
  have hall := h.snoc he
  have hmodes := s.modesToDrone_next e
  have hrest : (joint.next s e).modesToDrone.Pairwise Admits :=
    (List.pairwise_cons.1 hall).2.sublist hmodes
  unfold Apart trail
  rcases s.next_currentMode_cases e with hsame | haccept | ⟨-, -, hsafe, -⟩ | ⟨-, hterm, hpanic⟩ |
    ⟨⟨batVolt, now, rfl, hfail⟩, hpanic⟩
  · rw [hsame]
    exact hall.sublist (hmodes.cons_cons _)
  · rw [← modesToDrone_of_accepting haccept]
    exact (List.pairwise_cons.1 h).2
  · rw [hsafe]
    exact List.pairwise_cons.2 ⟨fun m _ _ => Or.inl rfl, hrest⟩
  · rw [hpanic]
    have hnone := not_flight_of_pairwise hall (hterm ▸ by decide) (hterm ▸ by decide)
    exact pairwise_panic hrest fun m hm => hnone m (hmodes.subset hm)
  · rw [hpanic]
    refine pairwise_panic hrest fun m hm => ?_
    have hold : m ∈ s.modesToDrone := by simpa [sent] using hmodes.subset hm
    by_cases hin : s.InPanic
    · exact not_flight_of_pairwise h (hin ▸ by decide) (hin ▸ by decide) m hold
    · exact he.2 ⟨hfail, hin⟩ m hold

theorem not_flight_safe : ¬Flight ModeType.safeMode := by
  decide

theorem not_flight_panic : ¬Flight ModeType.panicMode := by
  decide

theorem Apart.admits {s : Joint} (h : s.Apart) {e : JointEvent} {m : UInt8}
    (hm : s.accepting e = some m) : Admits s.drone.currentMode m := by
  refine List.rel_of_pairwise_cons h ?_
  rw [modesToDrone_of_accepting hm]
  exact List.mem_cons_self

end Joint

namespace Lossy

/-- The event accepts no flight mode but from `SAFE_MODE` or itself, and does not switch
from one to another. -/
def Interlock (s : Lossy) (e : LossyEvent) : Prop :=
  (∀ m ∈ s.accepting e, Flight m →
      s.main.drone.currentMode = ModeType.safeMode ∨ s.main.drone.currentMode = m) ∧
    (Flight s.main.drone.currentMode → Flight (lossy.next s e).main.drone.currentMode →
      (lossy.next s e).main.drone.currentMode = s.main.drone.currentMode)

instance (s : Lossy) (e : LossyEvent) : Decidable (s.Interlock e) :=
  inferInstanceAs (Decidable ((∀ m ∈ s.accepting e, _) ∧ _))

theorem interlocked {s : Lossy} (hs : s.Midway) (h : s.joint.Apart) {e : LossyEvent}
    (he : s.Clean e) : s.Interlock e := by
  have haccepts : ∀ m ∈ s.accepting e, Admits s.main.drone.currentMode m := by
    intro m hm
    rw [accepting_eq hs] at hm
    obtain ⟨e', -, hm'⟩ := Option.bind_eq_some_iff.1 hm
    exact h.admits hm'
  refine ⟨haccepts, fun hflight hflight' => ?_⟩
  rcases next_currentMode_cases hs he with hsame | haccept | ⟨-, -, hsafe, -⟩ | hpanic
  · exact hsame
  · rcases haccepts _ haccept hflight' with hsafe | hsame
    · exact absurd (hsafe ▸ hflight) Joint.not_flight_safe
    · exact hsame.symm
  · exact absurd (hsafe ▸ hflight') Joint.not_flight_safe
  · exact absurd (hpanic ▸ hflight') Joint.not_flight_panic

/-- In a run in which each frame arrives as its message or not at all, and sends and failsafes
keep the flight modes apart, the drone accepts each flight mode in `SAFE_MODE` or in that
mode, and never switches from one to another. -/
theorem interlock (now tMessageExpect : Timespec) (sendBuffer receiveBuffer : Message) (time : ℕ)
    (es : List LossyEvent)
    (hclean : lossy.Along Clean (start now tMessageExpect sendBuffer receiveBuffer time) es)
    (hes : lossy.Along (Each Joint.KeepsApart)
      (start now tMessageExpect sendBuffer receiveBuffer time) es) :
    lossy.Along Interlock (start now tMessageExpect sendBuffer receiveBuffer time) es := by
  have hstart : (start now tMessageExpect sendBuffer receiveBuffer time).joint.Apart :=
    List.pairwise_singleton _ _
  have hstep (s : Lossy) (e : LossyEvent) (hs : s.Midway ∧ s.joint.Apart)
      (he : s.Clean e ∧ s.Each Joint.KeepsApart e) :
      ((lossy.next s e).Midway ∧ (lossy.next s e).joint.Apart) ∧ s.Interlock e :=
    ⟨invariant_next (fun _ _ _ _ h _ => h) hs.1 he.1 hs.2 fun e' he' => hs.2.next (he.2 e' he'),
      interlocked hs.1 hs.2 he.1⟩
  exact lossy.along_of_invariant hstep ⟨midway_start _ _ _ _ _, hstart⟩
    ((lossy.along_and _ _ _ _).2 ⟨hclean, hes⟩)

/-- The calibration, back to `SAFE_MODE`, and then `MANUAL_MODE`, each confirmed. -/
theorem interlock_manual :
    lossy.Along Interlock powerUp
      (.joystick ⟨1, 0⟩ [⟨32767, 0x02, 3⟩] :: chars 9 ++
        .keyboard ⟨1, 0⟩ 0x33 :: chars 6 ++ serials 6 ++
        .keyboard ⟨1, 0⟩ 0x30 :: chars 6 ++ serials 6 ++
        .keyboard ⟨1, 0⟩ 0x32 :: chars 6 ++ serials 6) :=
  interlock _ _ _ _ _ _ (clean_of_plain (by decide +kernel)) (by decide +kernel)

/-- In `YAW_CONTROL_MODE` the request for `SAFE_MODE` is lost, and `'3'` follows at once. -/
theorem not_interlock :
    ¬∀ (now tMessageExpect : Timespec) (sendBuffer receiveBuffer : Message) (time : ℕ)
      (es : List LossyEvent),
      lossy.Along Interlock (start now tMessageExpect sendBuffer receiveBuffer time) es := by
  intro h
  let es : List LossyEvent :=
    .joystick ⟨1, 0⟩ [⟨32767, 0x02, 3⟩] :: chars 9 ++
      .keyboard ⟨1, 0⟩ 0x34 :: chars 6 ++ serials 6 ++
      [.keyboard ⟨1, 5000000⟩ 0x30, .loseToDrone 0, .keyboard ⟨1, 9000000⟩ 0x33] ++ chars 6
  have hbad : ¬lossy.Along Interlock powerUp es := by decide +kernel
  exact hbad (h _ _ _ _ _ es)

end Lossy

end Quadrupel
