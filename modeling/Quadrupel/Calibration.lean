import Quadrupel.Lossy
import Quadrupel.Requests

/-!
# Calibration before controlled flight

`YAW_CONTROL_MODE` and `FULL_CONTROL_MODE` subtract the offsets that a tick in
`CALIBRATION_MODE` stores. The drone flies in any mode that it is asked for, so the rule
that a calibration comes first is the PC's : it refuses some keys until `'3'` was
pressed. But `'4'` is not among them, and the key press is not the calibration, whose
request may be lost.

Only a key brings one of the two modes into the system : a resend repeats a request. So in a
clean run the drone flies in them only after a calibration if they are asked for only after
one (`calibrated_first`). `not_calibratedFirst` is the run with `'4'`; a lost request for the
calibration does the same for `'5'`.
-/

namespace Quadrupel

/-- The mode's control law subtracts the offsets of the calibration. -/
def Subtracts (mode : UInt8) : Prop :=
  mode = ModeType.yawControlMode ∨ mode = ModeType.fullControlMode

instance (mode : UInt8) : Decidable (Subtracts mode) :=
  inferInstanceAs (Decidable (_ ∨ _))

namespace Joint

/-- A key on which the PC sends a request for such a mode. -/
def AsksControl (s : Joint) : JointEvent → Prop
  | .keyboard now c => ∃ m ∈ s.pc.sent (.keyboard now c), Subtracts m
  | _ => False

/-- Neither the drone nor a request is about a mode that subtracts the offsets. -/
structure Uncontrolled (s : Joint) : Prop where
  requested_lt : s.pc.modeRequested < 0x0F
  requested : ¬Subtracts s.pc.modeRequested
  trail : ∀ m ∈ s.trail, ¬Subtracts m

/-- A mode that is requested is `SAFE_MODE` or is sent too. -/
theorem requests_sent {s : Joint} {e : JointEvent} {m : UInt8} (h : s.requests e = some m) :
    m = ModeType.safeMode ∨ s.sent e = some m := by
  cases e with
  | joystick now events => exact Pc.requested_sent (e := .joystick now events) h
  | keyboard now c => exact Pc.requested_sent (e := .keyboard now c) h
  | pcReceive | resend | control | droneReceive | timer | terminate | loseToDrone | loseToPc =>
    cases h

theorem Uncontrolled.sent {s : Joint} (h : s.Uncontrolled) {e : JointEvent}
    (he : ¬s.AsksControl e) : ∀ m ∈ s.sent e, ¬Subtracts m := by
  intro m hm hsub
  cases e with
  | joystick now events =>
    simp only [Joint.sent, Pc.sent] at hm
    split_ifs at hm
    · obtain rfl := Option.some.inj hm
      exact absurd hsub (by decide)
    · cases hm
  | keyboard now c => exact he ⟨m, hm, hsub⟩
  | resend now =>
    rcases Pc.sent_cases h.requested_lt (e := .resend now) hm with hrequested | ⟨-, rfl⟩
    · cases hrequested
    · exact h.requested hsub
  | pcReceive | control | droneReceive | timer | terminate | loseToDrone | loseToPc => cases hm

theorem Uncontrolled.next {s : Joint} (h : s.Uncontrolled) {e : JointEvent}
    (he : ¬s.AsksControl e) : (joint.next s e).Uncontrolled := by
  have hsent := h.sent he
  refine ⟨next_modeRequested_lt h.requested_lt e, ?_, ?_⟩
  · rw [next_modeRequested]
    cases hreq : s.requests e with
    | none => exact h.requested
    | some m =>
      rcases requests_sent hreq with rfl | hm
      · exact (by decide : ¬Subtracts ModeType.safeMode)
      · exact hsent m hm
  · have hmodes : ∀ m ∈ (joint.next s e).modesToDrone, ¬Subtracts m := by
      intro m hm
      rcases List.mem_append.1 ((s.modesToDrone_next e).subset hm) with hold | hnew
      · exact h.trail m (List.mem_cons_of_mem _ hold)
      · exact hsent m (Option.mem_toList.1 hnew)
    refine List.forall_mem_cons.2 ⟨?_, hmodes⟩
    rcases s.next_currentMode_cases e with hsame | haccept | ⟨-, -, hsafe, -⟩ | ⟨-, -, hpanic⟩ |
      ⟨-, hpanic⟩
    · rw [hsame]
      exact h.trail _ List.mem_cons_self
    · refine h.trail _ (List.mem_cons_of_mem _ ?_)
      rw [modesToDrone_of_accepting haccept]
      exact List.mem_cons_self
    · rw [hsafe]
      decide
    · rw [hpanic]
      decide
    · rw [hpanic]
      decide

end Joint

namespace Lossy

/-- The drone stores the offsets. -/
def Calibrates (s : Lossy) : LossyEvent → Prop
  | .control _ _ =>
    s.main.drone.currentMode = ModeType.calibrationMode ∧ s.main.drone.inCalibrationMode = false
  | _ => False

/-- A tick that subtracts them, with the lift up. -/
def FliesControlled (s : Lossy) : LossyEvent → Prop
  | .control _ _ => Subtracts s.main.drone.currentMode ∧ s.main.drone.liftdata ≠ -127
  | _ => False

/-- A key on which the PC sends a request for such a mode. -/
def AsksControl (s : Lossy) : LossyEvent → Prop
  | .keyboard now c => ∃ m ∈ s.terminal.pc.sent (.keyboard now c), Subtracts m
  | _ => False

instance (s : Lossy) : ∀ e, Decidable (s.Calibrates e)
  | .control _ _ => inferInstanceAs (Decidable (_ ∧ _))
  | .joystick .. | .keyboard .. | .serial | .resend _ | .char _ | .timer .. | .terminate
  | .loseToDrone _ | .loseToPc _ => inferInstanceAs (Decidable False)

instance (s : Lossy) : ∀ e, Decidable (s.FliesControlled e)
  | .control _ _ => inferInstanceAs (Decidable (_ ∧ _))
  | .joystick .. | .keyboard .. | .serial | .resend _ | .char _ | .timer .. | .terminate
  | .loseToDrone _ | .loseToPc _ => inferInstanceAs (Decidable False)

instance (s : Lossy) : ∀ e, Decidable (s.AsksControl e)
  | .keyboard now c =>
    inferInstanceAs (Decidable (∃ m ∈ s.terminal.pc.sent (.keyboard now c), Subtracts m))
  | .joystick .. | .control _ _ | .serial | .resend _ | .char _ | .timer .. | .terminate
  | .loseToDrone _ | .loseToPc _ => inferInstanceAs (Decidable False)

/-- Such a key is one of `joint`. -/
theorem asksControl_of_event {s : Lossy} {e : LossyEvent} {e' : JointEvent}
    (h : s.event e = some e') (hasks : s.joint.AsksControl e') : s.AsksControl e := by
  cases e' with
  | keyboard now c =>
    obtain rfl := eq_keyboard_of_event h
    exact hasks
  | joystick | pcReceive | resend | control | droneReceive | timer | terminate | loseToDrone
  | loseToPc => exact hasks.elim

/-- If each frame arrives as its message or not at all, and the two modes are asked for only
after a calibration of the drone, then it flies in them only after one. -/
theorem calibrated_first (now tMessageExpect : Timespec) (sendBuffer receiveBuffer : Message)
    (time : ℕ) (es : List LossyEvent)
    (hclean : lossy.Along Clean (start now tMessageExpect sendBuffer receiveBuffer time) es)
    (hes : lossy.OnlyAfter Calibrates AsksControl
      (start now tMessageExpect sendBuffer receiveBuffer time) es) :
    lossy.OnlyAfter Calibrates FliesControlled
      (start now tMessageExpect sendBuffer receiveBuffer time) es := by
  have hstep (s : Lossy) (e : LossyEvent) (hs : s.Midway ∧ s.joint.Uncontrolled)
      (he : s.Clean e) (_ : ¬s.Calibrates e) (hasks : ¬s.AsksControl e) :
      (lossy.next s e).Midway ∧ (lossy.next s e).joint.Uncontrolled :=
    invariant_next (fun _ _ _ _ h _ => ⟨h.requested_lt, h.requested, h.trail⟩) hs.1 he hs.2
      fun e' he' => hs.2.next fun h => hasks (asksControl_of_event he' h)
  have hexcluded (s : Lossy) (e : LossyEvent) (h : s.Midway ∧ s.joint.Uncontrolled) :
      ¬s.FliesControlled e := by
    intro hflies
    cases e with
    | control wait sensors => exact h.2.trail _ List.mem_cons_self hflies.1
    | joystick | keyboard | serial | resend | char | timer | terminate | loseToDrone
    | loseToPc => exact hflies
  have hstart :
      (start now tMessageExpect sendBuffer receiveBuffer time).joint.Uncontrolled := by
    have hlt : (0 : UInt8) < 0x0F := by decide
    have hsafe : ¬Subtracts 0 := by decide
    exact ⟨hlt, hsafe, List.forall_mem_singleton.2 hsafe⟩
  exact lossy.onlyAfter_of_invariant hstep hexcluded ⟨midway_start _ _ _ _ _, hstart⟩ hclean hes

/-- The calibration, back to `SAFE_MODE`, and then `YAW_CONTROL_MODE` with the lift up. -/
theorem calibrated_first_yaw :
    lossy.OnlyAfter Calibrates FliesControlled powerUp
      (.joystick ⟨1, 0⟩ [⟨32767, 0x02, 3⟩] :: chars 9 ++
        .keyboard ⟨1, 0⟩ 0x33 :: chars 6 ++ .control 0 .zero :: serials 29 ++
        .keyboard ⟨1, 0⟩ 0x30 :: chars 6 ++ serials 6 ++
        .keyboard ⟨1, 0⟩ 0x34 :: chars 6 ++
        .joystick ⟨2, 0⟩ [⟨0, 0x02, 3⟩] :: chars 9 ++ [.control 0 .zero]) :=
  calibrated_first _ _ _ _ _ _ (clean_of_plain (by decide +kernel)) (by decide +kernel)

/-- In every run the drone flies in a mode that subtracts the offsets, with the lift up, only
after a tick that stores them. -/
def CalibratedFirst : Prop :=
  ∀ (now tMessageExpect : Timespec) (sendBuffer receiveBuffer : Message) (time : ℕ)
    (es : List LossyEvent),
    lossy.OnlyAfter Calibrates FliesControlled
      (start now tMessageExpect sendBuffer receiveBuffer time) es

/-- `'4'` with the sticks at rest, and then the lift goes up. -/
theorem not_calibratedFirst : ¬CalibratedFirst := by
  intro h
  let es : List LossyEvent :=
    .joystick ⟨1, 0⟩ [⟨32767, 0x02, 3⟩] :: chars 9 ++ .keyboard ⟨1, 0⟩ 0x34 :: chars 6 ++
      .joystick ⟨2, 0⟩ [⟨0, 0x02, 3⟩] :: chars 9 ++ [.control 0 .zero]
  have hbad : ¬lossy.OnlyAfter Calibrates FliesControlled powerUp es := by decide +kernel
  exact hbad (h _ _ _ _ _ es)

-- The request for the calibration is lost, and `'5'` follows at once.
example : ¬lossy.OnlyAfter Calibrates FliesControlled powerUp
    (.joystick ⟨1, 0⟩ [⟨32767, 0x02, 3⟩] :: chars 9 ++
      [.keyboard ⟨1, 0⟩ 0x33, .loseToDrone 0, .keyboard ⟨1, 1000000⟩ 0x30,
        .keyboard ⟨1, 2000000⟩ 0x35] ++ chars 12 ++
      .joystick ⟨2, 0⟩ [⟨0, 0x02, 3⟩] :: chars 9 ++ [.control 0 .zero]) := by
  decide +kernel

end Lossy

end Quadrupel
