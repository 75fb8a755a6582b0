import Quadrupel.DroneMain
import Quadrupel.PcMain

/-!
# The PC, the drone and the links between them

`joint` runs the two loops block by block, in any order, with a link in each direction
that keeps the order of its frames and may lose any of them. A frame is delivered whole, as
the message that was sent. The parser at the other end makes that of it if no byte of the
frame is reserved; a frame with such a byte it may refuse, or take for another message. So
`joint` is what the two programs on bytes, `lossy` and `wire`, are to be compared with, and
what an invariant says of it holds of them in the runs in which each frame arrives as its
message or not at all (`Lossy.next_joint`, `Wire.wire_refines`).

Four fields only record the run. `accepted` is the mode of the last `SET_MODE` that the
drone accepted. `clock` counts the steps. A frame carries the step of the key press that
asked for it, `requestKey` is that step for `mode_requested`, so that a resend is
counted to the key press of the request, and `panicBegan` is the step on which the drone
last went to `PANIC_MODE`.
-/

namespace Quadrupel

/-- A frame on its way to the drone, with the step of the key press that asked for it, if
one did. -/
structure Frame where
  msg : Msg
  key : Option ℕ
deriving DecidableEq

/-- The two programs with what is on the links between them, and the record of the run. -/
structure Joint where
  pc : Pc
  drone : Drone
  toDrone : List Frame
  toPc : List Msg
  pcBuffer : Message
  droneBuffer : Message
  accepted : UInt8
  clock : ℕ
  requestKey : Option ℕ
  panicBegan : ℕ

/-- The blocks of the two loops, the end of the drone's loop, and the loss of a frame. -/
inductive JointEvent
  | joystick (now : Timespec) (events : List JsEvent)
  | keyboard (now : Timespec) (c : UInt8)
  | pcReceive
  | resend (now : Timespec)
  | control (sensors : Sensors)
  | droneReceive (now : UInt32)
  | timer (batVolt : UInt16) (now : UInt32)
  | terminate
  | loseToDrone (i : ℕ)
  | loseToPc (i : ℕ)

namespace Joint

/-- Both programs when they enter their loops, with nothing on the links. -/
def start (now tMessageExpect : Timespec) (sendBuffer pcBuffer : Message) (time : UInt32) :
    Joint where
  pc := .start now tMessageExpect sendBuffer
  drone := .powerUp time
  toDrone := []
  toPc := []
  pcBuffer := pcBuffer
  droneBuffer := Vector.replicate sizeofMessage 0
  accepted := ModeType.safeMode
  clock := 0
  requestKey := none
  panicBegan := 0

/-- The system at power-up, for runs on fixed events. -/
def powerUp : Joint :=
  start ⟨0, 0⟩ ⟨0, 0⟩ (Vector.replicate sizeofMessage 0) (Vector.replicate sizeofMessage 0) 0

/-- A block of the PC, counted to the key press `key`. -/
def pcBlock (s : Joint) (e : PcEvent) (key : Option ℕ) : Joint :=
  { s with
    pc := pcLoop.next s.pc e
    toDrone := s.toDrone ++ (pcLoop.out s.pc e).map fun msg => ⟨msg, key⟩
    requestKey := if (s.pc.requested e).isSome then key else s.requestKey }

/-- A block of the drone. -/
def droneBlock (s : Joint) (e : DroneEvent) : Joint :=
  { s with drone := droneLoop.next s.drone e, toPc := s.toPc ++ droneLoop.out s.drone e }

/-- The effect of an event on the programs and the links. -/
def move (s : Joint) : JointEvent → Joint
  | .joystick now events => s.pcBlock (.joystick now events) none
  | .keyboard now c => s.pcBlock (.keyboard now c) (some s.clock)
  | .pcReceive =>
    match s.toPc with
    | [] => s
    | m :: toPc =>
      let pcBuffer := m.received s.pcBuffer
      { s with toPc, pcBuffer }.pcBlock (.receive pcBuffer) none
  | .resend now => s.pcBlock (.resend now) s.requestKey
  | .control sensors => s.droneBlock (.control sensors)
  | .droneReceive now =>
    match s.toDrone with
    | [] => s
    | f :: toDrone =>
      let droneBuffer := f.msg.received s.droneBuffer
      { s with toDrone, droneBuffer, accepted := f.msg.mode?.getD s.accepted }.droneBlock
        (.message droneBuffer now)
  | .timer batVolt now => s.droneBlock (.timer batVolt now)
  | .terminate => if s.drone.demoDone then { s with toPc := s.toPc ++ [.terminate] } else s
  | .loseToDrone i => { s with toDrone := s.toDrone.eraseIdx i }
  | .loseToPc i => { s with toPc := s.toPc.eraseIdx i }

/-- The drone is in `PANIC_MODE`. -/
def InPanic (s : Joint) : Prop :=
  s.drone.currentMode = ModeType.panicMode

instance (s : Joint) : Decidable s.InPanic :=
  inferInstanceAs (Decidable (_ = _))

/-- An event, with the record of the step. -/
def next (s : Joint) (e : JointEvent) : Joint :=
  let s' := s.move e
  { s' with
    clock := s.clock + 1
    panicBegan := if s'.InPanic ∧ ¬s.InPanic then s.clock else s.panicBegan }

/-- The messages that the PC sends on an event. -/
def sends (s : Joint) : JointEvent → List Msg
  | .joystick now events => pcLoop.out s.pc (.joystick now events)
  | .keyboard now c => pcLoop.out s.pc (.keyboard now c)
  | .resend now => pcLoop.out s.pc (.resend now)
  | _ => []

end Joint

/-- The joint system, with the messages that the PC sends. -/
def joint : Machine Joint JointEvent (List Msg) where
  next := Joint.next
  out := Joint.sends

/-! ## Modes on the links -/

/-- A handler does not depend on what the buffer held before. -/
theorem Drone.acceptMessage_stale (m : Msg) (stale stale' : Message) (now : UInt32) (d : Drone) :
    d.acceptMessage (m.received stale) now = d.acceptMessage (m.received stale') now := by
  unfold acceptMessage
  rw [handleMessage_received, handleMessage_received]

theorem Pc.acceptMessage_stale (m : Msg) (stale stale' : Message) (p : Pc) :
    p.acceptMessage (m.received stale) = p.acceptMessage (m.received stale') := by
  have hretval : handleMessage (m.received stale) = handleMessage (m.received stale') := by
    unfold handleMessage
    rw [m.messageType_received, m.messageType_received, MsgType.ofByte?_toByte]
    cases m with
    | modeUpdate x =>
      have h : 0 < (Msg.modeUpdate x).data.length := by simp [Msg.data]
      exact ((Msg.modeUpdate x).data_received stale h).trans
        ((Msg.modeUpdate x).data_received stale' h).symm
    | setMode | inputData | setPValues | pValuesUpdate | calibrationData | terminate => rfl
  unfold acceptMessage
  rw [hretval]

theorem Pc.updatedMode_received {m : Msg} {stale : Message} {mode : UInt8}
    (h : (m.received stale).updatedMode = some mode) : m.update? = some mode := by
  unfold Message.updatedMode handleMessage at h
  rw [m.messageType_received, MsgType.ofByte?_toByte] at h
  cases m with
  | modeUpdate x =>
    have hdata : (Msg.received (.modeUpdate x) stale).data 0 = x :=
      (Msg.modeUpdate x).data_received stale (i := 0) (by simp [Msg.data])
    simp only [Msg.messageType, hdata] at h
    split_ifs at h
    exact h
  | setMode | inputData | setPValues | pValuesUpdate | calibrationData | terminate =>
    simp [Msg.messageType] at h

namespace Drone

theorem acceptMessage_received_currentMode (m : Msg) (stale : Message) (now : UInt32) (d : Drone) :
    (d.acceptMessage (m.received stale) now).1.currentMode =
      (m.mode?.filter (· < 0x0F)).getD d.currentMode := by
  unfold acceptMessage
  rw [handleMessage_received]
  cases m with
  | setMode mode =>
    by_cases h : mode < 0x0F <;> simp [handle, Msg.mode?, Option.filter, h]
  | setPValues select mode value => exact (changePValues_frame select mode value d).1
  | inputData | modeUpdate | pValuesUpdate | calibrationData | terminate => rfl

/-- The drone confirms each mode that it is asked for. -/
theorem acceptMessage_received_replies (m : Msg) (stale : Message) (now : UInt32) (d : Drone) :
    (d.acceptMessage (m.received stale) now).2.filterMap Msg.update? = m.mode?.toList := by
  unfold acceptMessage
  rw [handleMessage_received]
  cases m <;> rfl

end Drone

namespace Joint

/-- The modes on their way to the drone. -/
def modesToDrone (s : Joint) : List UInt8 :=
  sentModes (s.toDrone.map Frame.msg)

/-- The modes on their way to the PC. -/
def updatesToPc (s : Joint) : List UInt8 :=
  s.toPc.filterMap Msg.update?

/-- The mode that the event assigns to `mode_requested`, if it does. -/
def requests (s : Joint) : JointEvent → Option UInt8
  | .joystick now events => s.pc.requested (.joystick now events)
  | .keyboard now c => s.pc.requested (.keyboard now c)
  | _ => none

/-- The mode that the PC sends on the event, if it does. -/
def sent (s : Joint) : JointEvent → Option UInt8
  | .joystick now events => s.pc.sent (.joystick now events)
  | .keyboard now c => s.pc.sent (.keyboard now c)
  | .resend now => s.pc.sent (.resend now)
  | _ => none

/-- The mode of the `SET_MODE` that the drone accepts on the event, if it does. -/
def accepting (s : Joint) : JointEvent → Option UInt8
  | .droneReceive _ => s.toDrone.head?.bind fun f => f.msg.mode?
  | _ => none

theorem next_modeRequested (s : Joint) (e : JointEvent) :
    (joint.next s e).pc.modeRequested = (s.requests e).getD s.pc.modeRequested := by
  change (s.move e).pc.modeRequested = _
  cases e with
  | joystick | keyboard | resend => exact Pc.next_modeRequested _ _
  | pcReceive =>
    simp only [move]
    split
    · rfl
    · exact Pc.next_modeRequested _ _
  | droneReceive now =>
    simp only [move]
    split <;> rfl
  | terminate =>
    simp only [move]
    split_ifs <;> rfl
  | control | timer | loseToDrone | loseToPc => rfl

theorem next_modeRequested_lt {s : Joint} (hs : s.pc.modeRequested < 0x0F) (e : JointEvent) :
    (joint.next s e).pc.modeRequested < 0x0F := by
  rw [next_modeRequested]
  cases h : s.requests e with
  | none => exact hs
  | some m =>
    cases e with
    | joystick now events => exact Pc.requested_lt (e := .joystick now events) h
    | keyboard now c => exact Pc.requested_lt (e := .keyboard now c) h
    | pcReceive | resend | control | droneReceive | timer | terminate | loseToDrone
    | loseToPc => cases h

theorem modesToDrone_pcBlock (s : Joint) (e : PcEvent) (key : Option ℕ) :
    (s.pcBlock e key).modesToDrone = s.modesToDrone ++ (s.pc.sent e).toList := by
  rw [← Pc.sentModes_out]
  simp [modesToDrone, pcBlock, sentModes, Function.comp_def]

theorem modesToDrone_eraseIdx (s : Joint) (i : ℕ) :
    (sentModes ((s.toDrone.eraseIdx i).map Frame.msg)).Sublist s.modesToDrone :=
  (((List.eraseIdx_sublist s.toDrone i).map Frame.msg).filterMap Msg.mode?)

/-- The mode of the drone and those on their way to it, in the order in which they take
effect. -/
def trail (s : Joint) : List UInt8 :=
  s.drone.currentMode :: s.modesToDrone

theorem modesToDrone_cons {s : Joint} {f : Frame} {toDrone : List Frame}
    (h : s.toDrone = f :: toDrone) :
    s.modesToDrone = f.msg.mode?.toList ++ sentModes (toDrone.map Frame.msg) := by
  cases hm : f.msg.mode? <;> simp [modesToDrone, sentModes, h, hm]

theorem modesToDrone_droneReceive {s : Joint} {f : Frame} {toDrone : List Frame}
    (h : s.toDrone = f :: toDrone) (now : UInt32) :
    (s.move (.droneReceive now)).modesToDrone = sentModes (toDrone.map Frame.msg) := by
  simp only [move, h]
  rfl

/-- The drone accepts a mode only from a frame that it receives. -/
theorem exists_received_of_accepting {s : Joint} {e : JointEvent} {m : UInt8}
    (h : s.accepting e = some m) :
    ∃ now f toDrone, e = .droneReceive now ∧ s.toDrone = f :: toDrone ∧ f.msg.mode? = some m := by
  cases e with
  | droneReceive now =>
    cases hlink : s.toDrone with
    | nil => simp [accepting, hlink] at h
    | cons f toDrone =>
      simp only [accepting, hlink, List.head?_cons, Option.bind_some] at h
      exact ⟨now, f, toDrone, rfl, rfl, h⟩
  | joystick | keyboard | pcReceive | resend | control | timer | terminate | loseToDrone
  | loseToPc => cases h

/-- The mode that the drone accepts is the first on its way. -/
theorem modesToDrone_of_accepting {s : Joint} {e : JointEvent} {m : UInt8}
    (h : s.accepting e = some m) : s.modesToDrone = m :: (joint.next s e).modesToDrone := by
  obtain ⟨now, f, toDrone, rfl, hlink, hmode⟩ := exists_received_of_accepting h
  rw [modesToDrone_cons hlink, hmode]
  exact congrArg (m :: ·) (modesToDrone_droneReceive hlink now).symm

/-- An event adds at most the mode that the PC sends to those on their way. -/
theorem modesToDrone_next (s : Joint) (e : JointEvent) :
    (joint.next s e).modesToDrone.Sublist (s.modesToDrone ++ (s.sent e).toList) := by
  change (s.move e).modesToDrone.Sublist _
  have hsame : s.modesToDrone.Sublist (s.modesToDrone ++ []) := by
    rw [List.append_nil]
  have hblock (pe : PcEvent) (key : Option ℕ) :
      (s.pcBlock pe key).modesToDrone.Sublist (s.modesToDrone ++ (s.pc.sent pe).toList) := by
    rw [modesToDrone_pcBlock]
  cases e with
  | joystick now events => exact hblock _ none
  | keyboard now c => exact hblock _ (some s.clock)
  | resend now => exact hblock _ s.requestKey
  | pcReceive =>
    simp only [move]
    split
    · exact hsame
    · rw [modesToDrone_pcBlock]
      exact List.Sublist.refl _
  | droneReceive now =>
    cases hlink : s.toDrone with
    | nil =>
      simp only [move, hlink]
      exact hsame
    | cons f toDrone =>
      rw [modesToDrone_droneReceive hlink, modesToDrone_cons hlink]
      exact (List.sublist_append_right _ _).trans (List.sublist_append_left _ _)
  | loseToDrone i => exact (s.modesToDrone_eraseIdx i).trans hsame
  | terminate =>
    simp only [move]
    split_ifs <;> exact hsame
  | control | timer | loseToPc => exact hsame

/-- What an event does to the mode of the drone. -/
theorem next_currentMode_cases (s : Joint) (e : JointEvent) :
    (joint.next s e).drone.currentMode = s.drone.currentMode ∨
      s.accepting e = some (joint.next s e).drone.currentMode ∨
      (∃ sensors, e = .control sensors) ∧ s.drone.currentMode = ModeType.panicMode ∧
        (joint.next s e).drone.currentMode = ModeType.safeMode ∧
        (∀ i, (joint.next s e).drone.ae i = 0) ∨
      (∃ sensors, e = .control sensors) ∧ s.drone.currentMode = ModeType.terminateMode ∧
        (joint.next s e).drone.currentMode = ModeType.panicMode ∨
      (∃ batVolt now, e = .timer batVolt now ∧ s.drone.Failsafe batVolt now) ∧
        (joint.next s e).drone.currentMode = ModeType.panicMode := by
  change (s.move e).drone.currentMode = _ ∨ s.accepting e = some (s.move e).drone.currentMode ∨
    _ ∧ _ ∧ (s.move e).drone.currentMode = _ ∧ (∀ i, (s.move e).drone.ae i = 0) ∨
    _ ∧ _ ∧ (s.move e).drone.currentMode = _ ∨ _ ∧ (s.move e).drone.currentMode = _
  cases e with
  | control sensors =>
    rcases Drone.controlTick_mode_cases sensors s.drone with h | ⟨h, h', hae⟩ | ⟨h, h'⟩
    · exact Or.inl h
    · exact Or.inr (Or.inr (Or.inl ⟨⟨sensors, rfl⟩, h, h', hae⟩))
    · exact Or.inr (Or.inr (Or.inr (Or.inl ⟨⟨sensors, rfl⟩, h, h'⟩)))
  | droneReceive now =>
    cases hlink : s.toDrone with
    | nil =>
      left
      simp only [move, hlink]
    | cons f toDrone =>
      have hmode := Drone.acceptMessage_received_currentMode f.msg s.droneBuffer now s.drone
      simp only [move, hlink, droneBlock, droneLoop, accepting, List.head?_cons, Option.bind_some]
      rw [hmode]
      cases hm : f.msg.mode? with
      | none => exact Or.inl rfl
      | some m =>
        by_cases hlt : m < 0x0F
        · refine Or.inr (Or.inl ?_)
          simp [Option.filter, hlt]
        · refine Or.inl ?_
          simp [Option.filter, hlt]
  | timer batVolt now =>
    have hmode := Drone.checkTimer_currentMode batVolt now s.drone
    by_cases hfail : s.drone.Failsafe batVolt now
    · rw [if_pos hfail] at hmode
      exact Or.inr (Or.inr (Or.inr (Or.inr ⟨⟨batVolt, now, rfl, hfail⟩, hmode⟩)))
    · rw [if_neg hfail] at hmode
      exact Or.inl hmode
  | pcReceive =>
    left
    simp only [move]
    split <;> rfl
  | terminate =>
    left
    simp only [move]
    split_ifs <;> rfl
  | joystick | keyboard | resend | loseToDrone | loseToPc => exact Or.inl rfl

/-! ## The first frame -/

/-- The first message is lost or read by the PC. -/
theorem run_toPc {t : Joint} {m : Msg} {ms : List Msg} (h : t.toPc = m :: ms) :
    (joint.run t [.loseToPc 0]).toPc = ms ∧ (joint.run t [.pcReceive]).toPc = ms := by
  simp [joint, Joint.next, Joint.move, h, Joint.pcBlock]

theorem run_pcReceive {t : Joint} {m : Msg} {ms : List Msg} (h : t.toPc = m :: ms)
    (hdone : t.pc.demoDone = false) :
    (joint.run t [.pcReceive]).pc = t.pc.acceptMessage (m.received t.pcBuffer) ∧
      (joint.run t [.pcReceive]).drone = t.drone ∧
      (joint.run t [.pcReceive]).toDrone = t.toDrone := by
  simp [joint, Joint.next, Joint.move, h, Joint.pcBlock, pcLoop, Pc.runBlock, hdone]

/-- The first frame is lost or read by the drone. -/
theorem run_toDrone {t : Joint} {m : Msg} {ms : List Msg} (h : t.toDrone.map Frame.msg = m :: ms)
    (now : UInt32) :
    (joint.run t [.loseToDrone 0]).toDrone.map Frame.msg = ms ∧
      (joint.run t [.droneReceive now]).toDrone.map Frame.msg = ms ∧
      (joint.run t [.droneReceive now]).pc = t.pc ∧
      (joint.run t [.droneReceive now]).drone =
        (t.drone.acceptMessage (m.received t.droneBuffer) now).1 ∧
      (joint.run t [.droneReceive now]).toPc =
        t.toPc ++ (t.drone.acceptMessage (m.received t.droneBuffer) now).2 := by
  obtain ⟨f, toDrone, hlink, rfl, rfl⟩ := List.map_eq_cons_iff.1 h
  simp [joint, Joint.next, Joint.move, hlink, Joint.droneBlock, droneLoop]

end Joint

end Quadrupel
