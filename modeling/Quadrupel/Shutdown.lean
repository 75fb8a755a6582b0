import Quadrupel.Agreement
import Quadrupel.Requests
import Quadrupel.Terminate

/-!
# How the two programs end

The PC leaves its loop on a `MSG_TERMINATE`, and the drone sends one when it has left its
own. So the PC ends last, and only if it was asked to : `exit_in_order` puts the six steps
of a shutdown in order, from the key to the PC's end, whatever is lost, delayed or sent
again in between, as long as each frame arrives as its message or not at all. It rests on
two facts about the links. A mode on them is below 0x0F, so no `MODE_UPDATE` passes for the
`MSG_TERMINATE`, whose value for `main` is 27; and the drone ends its loop on a step that
stops the rotors. The steps are first those of `joint`, and then what they are to the
programs on bytes.
-/

namespace Quadrupel

namespace Confirm

variable {α : Type*}

/-- The value requested and those on the links all have the property. -/
structure Forall (P : α → Prop) (s : Confirm α) : Prop where
  requested : P s.requested
  toServer : ∀ x ∈ s.toServer, P x
  toClient : ∀ x ∈ s.toClient, P x

/-- No step makes up a value. -/
theorem Forall.step {P : α → Prop} {s s' : Confirm α} (h : s.Forall P) (hstep : Step s s') :
    s'.Forall P := by
  cases hstep with
  | send =>
    refine ⟨h.requested, fun x hx => ?_, h.toClient⟩
    rcases List.mem_append.1 hx with hx | hx
    · exact h.toServer x hx
    · exact List.mem_singleton.1 hx ▸ h.requested
  | serve m rest hlink =>
    have hall := List.forall_mem_cons.1 (hlink ▸ h.toServer)
    refine ⟨h.requested, hall.2, fun x hx => ?_⟩
    rcases List.mem_append.1 hx with hx | hx
    · exact h.toClient x hx
    · exact List.mem_singleton.1 hx ▸ hall.1
  | confirm m rest hlink =>
    exact ⟨h.requested, h.toServer, (List.forall_mem_cons.1 (hlink ▸ h.toClient)).2⟩
  | lose toServer toClient hs hc =>
    exact ⟨h.requested, fun x hx => h.toServer x (hs.subset hx),
      fun x hx => h.toClient x (hc.subset hx)⟩

theorem Forall.steps {P : α → Prop} {s s' : Confirm α} (h : s.Forall P)
    (hsteps : Relation.ReflTransGen Step s s') : s'.Forall P := by
  induction hsteps with
  | refl => exact h
  | tail _ hstep ih => exact ih.step hstep

end Confirm

/-- Only the keys for it select `TERMINATE_MODE`. -/
theorem Pc.key_of_terminate {c : UInt8} {p : Pc}
    (h : p.selectedMode c = some ModeType.terminateMode.toByte) : c = 0x39 ∨ c = 0x1B := by
  obtain ⟨m, atRest, hkey, -, hm⟩ := selectedMode_eq_some h
  obtain rfl := ModeType.toByte_inj.1 hm
  have hkeys : ∀ c : UInt8, (keyAction c).mode?.map Prod.fst = some .terminateMode →
      c = 0x39 ∨ c = 0x1B := by decide +kernel
  exact hkeys c (by rw [hkey]; rfl)

/-- What `handle_message` of the PC takes for a termination. -/
theorem Pc.handleMessage_terminate {m : Msg} {stale : Message}
    (h : handleMessage (m.received stale) = 27) : m = .terminate ∨ m.update? = some 27 := by
  unfold handleMessage at h
  rw [m.messageType_received, MsgType.ofByte?_toByte] at h
  cases m with
  | modeUpdate x =>
    have hdata : (Msg.received (.modeUpdate x) stale).data 0 = x :=
      (Msg.modeUpdate x).data_received stale (i := 0) (by simp [Msg.data])
    simp only [Msg.messageType, hdata] at h
    exact Or.inr (congrArg some h)
  | terminate => exact Or.inl rfl
  | setMode | inputData | setPValues | pValuesUpdate | calibrationData =>
    have hne : (0xFF : UInt8) ≠ 27 := by decide
    exact absurd h hne

@[simp] theorem Pc.setRequested_demoDone (now : Timespec) (retval : UInt8) (p : Pc) :
    (p.setRequested now retval).demoDone = p.demoDone := by
  unfold setRequested
  split_ifs <;> rfl

theorem Pc.request_demoDone (now : Timespec) (c : UInt8) (p : Pc) :
    (p.request now c).1.demoDone = p.demoDone := by
  obtain ⟨axisOffsets, sendBuffer, hframe⟩ := selectMessage_frame c p
  simp [request, hframe]

/-- Only the receive block ends the loop of the PC. -/
theorem Pc.demoDone_of_next {p : Pc} {e : PcEvent} (h : (pcLoop.next p e).demoDone = true) :
    p.demoDone = true ∨ ∃ buffer, e = .receive buffer ∧ handleMessage buffer = 27 := by
  cases e with
  | joystick now events =>
    refine Or.inl ?_
    simp only [pcLoop, runBlock] at h
    split_ifs at h with hdone
    · exact hdone
    · rcases p.pollJoystick_cases now events with
        ⟨-, -, heq⟩ | ⟨q, sendBuffer, _, _, _, _, rfl, -, ⟨-, heq⟩ | ⟨-, heq⟩⟩
      · rwa [heq] at h
      · rwa [heq] at h
      · rw [heq] at h
        exact (request_demoDone now 0x31 _).symm.trans h
  | keyboard now c =>
    refine Or.inl ?_
    simp only [pcLoop, runBlock] at h
    split_ifs at h with hdone
    · exact hdone
    · rcases readKey_cases now c p with ⟨-, hread⟩ | ⟨-, hread⟩ | ⟨-, -, -, hread⟩
      · rwa [hread] at h
      · rw [hread] at h
        exact (setRequested_demoDone now 0 p).symm.trans h
      · rw [hread] at h
        rwa [request_demoDone] at h
  | receive buffer =>
    simp only [pcLoop, runBlock, acceptMessage] at h
    split_ifs at h with hdone hmode hterm
    · exact Or.inl hdone
    · exact Or.inl h
    · exact Or.inr ⟨buffer, rfl, hterm⟩
    · exact Or.inl h
  | resend now =>
    obtain ⟨axisOffsets, sendBuffer, hframe⟩ := selectMessage_frame (p.modeRequested + 0x30) p
    simp only [pcLoop, runBlock, resend] at h
    split_ifs at h
    · simp only [hframe] at h
      exact Or.inl h
    · exact Or.inl h

namespace Joint

/-! ## The six steps -/

/-- The operator presses a key for `TERMINATE_MODE`, and the PC requests it. -/
def AsksTerminate (s : Joint) (e : JointEvent) : Prop :=
  s.requests e = some ModeType.terminateMode.toByte ∧
    ∃ now c, e = .keyboard now c ∧ (c = 0x39 ∨ c = 0x1B)

/-- The drone accepts the request. -/
def AcceptsTerminate (s : Joint) (e : JointEvent) : Prop :=
  s.accepting e = some ModeType.terminateMode.toByte

/-- The drone ticks in `TERMINATE_MODE`. -/
def TicksTerminate (s : Joint) (e : JointEvent) : Prop :=
  s.drone.currentMode = ModeType.terminateMode ∧ ∃ sensors, e = .control sensors

/-- The drone ends its loop with a tick in `SAFE_MODE`, which stops the rotors. -/
def Exits (s : Joint) (e : JointEvent) : Prop :=
  s.drone.exitInSafeMode = true ∧ s.drone.currentMode = ModeType.safeMode ∧
    (∃ sensors, e = .control sensors) ∧ (joint.next s e).drone.RotorsStopped

/-- The drone sends a `MSG_TERMINATE`. -/
def ReportsExit (s : Joint) (e : JointEvent) : Prop :=
  s.drone.demoDone = true ∧ e = .terminate

/-- The PC reads a `MSG_TERMINATE`. -/
def ReadsExit (s : Joint) (e : JointEvent) : Prop :=
  e = .pcReceive ∧ s.toPc.head? = some .terminate

/-- The steps of a shutdown. -/
def shutdownStep : ℕ → Joint → JointEvent → Prop
  | 0 => AsksTerminate
  | 1 => AcceptsTerminate
  | 2 => TicksTerminate
  | 3 => Exits
  | 4 => ReportsExit
  | 5 => ReadsExit
  | _ => fun _ _ => False

/-- What holds until the step. -/
def shutdownPending : ℕ → Joint → Prop
  | 0 => fun s => s.pc.modeRequested ≠ ModeType.terminateMode ∧
      ModeType.terminateMode.toByte ∉ s.modesToDrone
  | 1 => fun s => s.drone.currentMode ≠ ModeType.terminateMode
  | 2 => fun s => ¬s.drone.exitInSafeMode = true
  | 3 => fun s => ¬s.drone.demoDone = true
  | 4 => fun s => .terminate ∉ s.toPc
  | 5 => fun s => ¬s.pc.demoDone = true
  | _ => fun _ => True

/-- The mode requested and those on the links are below 0x0F. -/
def Bounded (s : Joint) : Prop :=
  s.confirm.Forall (· < 0x0F)

theorem requests_lt {s : Joint} {e : JointEvent} {m : UInt8} (h : s.requests e = some m) :
    m < 0x0F := by
  cases e with
  | joystick now events => exact Pc.requested_lt (e := .joystick now events) h
  | keyboard now c => exact Pc.requested_lt (e := .keyboard now c) h
  | pcReceive | resend | control | droneReceive | timer | terminate | loseToDrone
  | loseToPc => cases h

theorem Bounded.next {s : Joint} (h : s.Bounded) (e : JointEvent) : (joint.next s e).Bounded := by
  have hrequesting : (s.requesting (s.requests e)).Forall (· < 0x0F) := by
    refine ⟨?_, h.toServer, h.toClient⟩
    change (s.requests e).getD s.pc.modeRequested < 0x0F
    cases hreq : s.requests e with
    | none => exact h.requested
    | some m => exact requests_lt hreq
  exact hrequesting.steps (steps_next h.requested e)

/-! ## Each condition ends with its step -/

/-- Only a key requests `TERMINATE_MODE`. -/
theorem asksTerminate_of_requests {s : Joint} {e : JointEvent}
    (h : s.requests e = some ModeType.terminateMode.toByte) : s.AsksTerminate e := by
  refine ⟨h, ?_⟩
  cases e with
  | joystick now events =>
    simp only [requests, Pc.requested] at h
    split_ifs at h
    exact absurd h (by decide)
  | keyboard now c =>
    simp only [requests, Pc.requested, Pc.requestedByKey] at h
    split_ifs at h
    · exact absurd h (by decide)
    · exact ⟨now, c, rfl, Pc.key_of_terminate (Pc.sentByKey_eq_some h).1⟩
  | pcReceive | resend | control | droneReceive | timer | terminate | loseToDrone | loseToPc =>
    cases h

theorem sent_requests {s : Joint} (hs : s.pc.modeRequested < 0x0F) {e : JointEvent} {m : UInt8}
    (h : s.sent e = some m) : s.requests e = some m ∨ m = s.pc.modeRequested := by
  cases e with
  | joystick now events =>
    exact (Pc.sent_cases hs (e := .joystick now events) h).imp_right And.right
  | keyboard now c => exact (Pc.sent_cases hs (e := .keyboard now c) h).imp_right And.right
  | resend now => exact (Pc.sent_cases hs (e := .resend now) h).imp_right And.right
  | pcReceive | control | droneReceive | timer | terminate | loseToDrone | loseToPc => cases h

theorem unasked_next {s : Joint} (hs : s.Bounded) {e : JointEvent} (h : shutdownPending 0 s)
    (he : ¬s.AsksTerminate e) : shutdownPending 0 (joint.next s e) := by
  have hnone : s.requests e ≠ some ModeType.terminateMode.toByte := fun hreq =>
    he (asksTerminate_of_requests hreq)
  refine ⟨?_, fun hmem => ?_⟩
  · rw [next_modeRequested]
    cases hreq : s.requests e with
    | none => exact h.1
    | some m =>
      rintro rfl
      exact hnone hreq
  · rcases List.mem_append.1 ((s.modesToDrone_next e).subset hmem) with hold | hnew
    · exact h.2 hold
    · rcases sent_requests hs.requested (Option.mem_toList.1 hnew) with hreq | hreq
      · exact hnone hreq
      · exact h.1 hreq.symm

theorem unaccepted_next {s : Joint} {e : JointEvent} (h : shutdownPending 1 s)
    (he : ¬s.AcceptsTerminate e) : shutdownPending 1 (joint.next s e) := by
  intro hmode
  rcases s.next_currentMode_cases e with hsame | haccept | ⟨-, -, hsafe, -⟩ | ⟨-, -, hpanic⟩ |
    ⟨-, hpanic⟩
  · exact h (hsame.symm.trans hmode)
  · exact he (haccept.trans (congrArg some hmode))
  · exact absurd (hsafe.symm.trans hmode) (by decide)
  · exact absurd (hpanic.symm.trans hmode) (by decide)
  · exact absurd (hpanic.symm.trans hmode) (by decide)

/-- A step of the drone's loop, or none, on the joint event. -/
theorem next_drone (s : Joint) (e : JointEvent) :
    (joint.next s e).drone = s.drone ∨
      ∃ de, (joint.next s e).drone = droneLoop.next s.drone de ∧
        ∀ sensors, de = .control sensors → e = .control sensors := by
  change (s.move e).drone = s.drone ∨ ∃ de, (s.move e).drone = _ ∧ _
  cases e with
  | control sensors => exact Or.inr ⟨.control sensors, rfl, by simp⟩
  | timer batVolt now => exact Or.inr ⟨.timer batVolt now, rfl, by simp⟩
  | droneReceive now =>
    cases hlink : s.toDrone with
    | nil =>
      left
      simp only [move, hlink]
    | cons f toDrone =>
      refine Or.inr ⟨.message (f.msg.received s.droneBuffer) now, ?_, by simp⟩
      simp only [move, hlink, droneBlock]
  | pcReceive =>
    left
    simp only [move]
    split <;> rfl
  | terminate =>
    left
    simp only [move]
    split_ifs <;> rfl
  | joystick | keyboard | resend | loseToDrone | loseToPc => exact Or.inl rfl

theorem unasked_exit_next {s : Joint} {e : JointEvent} (h : shutdownPending 2 s)
    (he : ¬s.TicksTerminate e) : shutdownPending 2 (joint.next s e) := by
  intro hexit
  rcases s.next_drone e with hsame | ⟨de, hnext, hcontrol⟩
  · exact h (hsame ▸ hexit)
  · rw [hnext, Drone.exitInSafeMode_next] at hexit
    have htick := hexit.resolve_left h
    cases de with
    | control sensors => exact he ⟨htick, sensors, hcontrol sensors rfl⟩
    | message | timer => exact htick.elim

theorem running_next {s : Joint} {e : JointEvent} (h : shutdownPending 3 s)
    (he : ¬s.Exits e) : shutdownPending 3 (joint.next s e) := by
  intro hdone
  rcases s.next_drone e with hsame | ⟨de, hnext, hcontrol⟩
  · exact h (hsame ▸ hdone)
  · have hstop := Drone.rotorsStopped_of_exit (Bool.eq_false_iff.2 h) (hnext ▸ hdone)
    rw [hnext, Drone.demoDone_next] at hdone
    have htick := hdone.resolve_left h
    cases de with
    | control sensors =>
      exact he ⟨htick.2, htick.1, ⟨sensors, hcontrol sensors rfl⟩, hnext ▸ hstop⟩
    | message | timer => exact htick.elim

/-- The loop of the drone sends no `MSG_TERMINATE`. -/
theorem terminate_notMem_out (d : Drone) (e : DroneEvent) : Msg.terminate ∉ droneLoop.out d e := by
  cases e with
  | control sensors =>
    simp only [droneLoop, (d.controlTick_calibration sensors).2.2]
    split_ifs <;> simp
  | message m now =>
    simp only [droneLoop, Drone.acceptMessage, Drone.handleMessage]
    split <;> simp [Drone.pValuesUpdate]
  | timer => exact List.not_mem_nil

theorem unreported_next {s : Joint} {e : JointEvent} (h : shutdownPending 4 s)
    (he : ¬s.ReportsExit e) : shutdownPending 4 (joint.next s e) := by
  have hblock (d : Drone) (de : DroneEvent) : Msg.terminate ∉ s.toPc ++ droneLoop.out d de :=
    fun hmem => (List.mem_append.1 hmem).elim h (terminate_notMem_out d de)
  change Msg.terminate ∉ (s.move e).toPc
  cases e with
  | control sensors => exact hblock s.drone (.control sensors)
  | timer batVolt now => exact hblock s.drone (.timer batVolt now)
  | droneReceive now =>
    simp only [move]
    split
    · exact h
    · exact hblock s.drone _
  | pcReceive =>
    simp only [move]
    split
    · exact h
    · next m toPc hlink => exact fun hmem => h (hlink ▸ List.mem_cons_of_mem m hmem)
  | terminate =>
    simp only [move]
    split_ifs with hdone
    · exact absurd ⟨hdone, rfl⟩ he
    · exact h
  | loseToPc i => exact fun hmem => h ((List.eraseIdx_sublist s.toPc i).subset hmem)
  | joystick | keyboard | resend | loseToDrone => exact h

theorem reading_next {s : Joint} (hs : s.Bounded) {e : JointEvent} (h : shutdownPending 5 s)
    (he : ¬s.ReadsExit e) : shutdownPending 5 (joint.next s e) := by
  have hblock (pe : PcEvent) (hpe : ∀ buffer, pe ≠ .receive buffer) :
      ¬(pcLoop.next s.pc pe).demoDone = true := by
    intro hdone
    rcases Pc.demoDone_of_next hdone with hold | ⟨buffer, rfl, -⟩
    · exact h hold
    · exact hpe buffer rfl
  change ¬(s.move e).pc.demoDone = true
  cases e with
  | joystick | keyboard | resend => exact hblock _ nofun
  | pcReceive =>
    cases hlink : s.toPc with
    | nil =>
      simp only [move, hlink]
      exact h
    | cons m toPc =>
      simp only [move, hlink, pcBlock]
      intro hdone
      obtain ⟨buffer, heq, hterm⟩ := (Pc.demoDone_of_next hdone).resolve_left h
      obtain rfl := PcEvent.receive.inj heq
      rcases Pc.handleMessage_terminate hterm with rfl | hupdate
      · exact he ⟨rfl, by rw [hlink, List.head?_cons]⟩
      · -- 27 is no mode that the links carry.
        have hlt := hs.toClient 27 (by simp [confirm, updatesToPc, hlink, hupdate])
        exact absurd hlt (by decide)
  | droneReceive =>
    simp only [move]
    split <;> exact h
  | terminate =>
    simp only [move]
    split_ifs <;> exact h
  | control | timer | loseToDrone | loseToPc => exact h

theorem shutdownPending_next (i : ℕ) {s : Joint} {e : JointEvent} (hs : s.Bounded)
    (h : shutdownPending i s) (he : ¬shutdownStep i s e) :
    shutdownPending i (joint.next s e) :=
  match i with
  | 0 => unasked_next hs h he
  | 1 => unaccepted_next h he
  | 2 => unasked_exit_next h he
  | 3 => running_next h he
  | 4 => unreported_next h he
  | 5 => reading_next hs h he
  | _ + 6 => trivial

/-- What is pending does not depend on the buffers and the clock. -/
theorem shutdownPending_frame (i : ℕ) {s : Joint} (clock : ℕ) (pcBuffer droneBuffer : Message)
    (h : shutdownPending i s) : shutdownPending i { s with clock, pcBuffer, droneBuffer } :=
  match i with
  | 0 => h
  | 1 => h
  | 2 => h
  | 3 => h
  | 4 => h
  | 5 => h
  | _ + 6 => trivial

end Joint

namespace Lossy

/-! ## The steps on bytes -/

/-- The operator presses a key for `TERMINATE_MODE`, and the PC requests it. -/
def AsksTerminate (s : Lossy) (e : LossyEvent) : Prop :=
  ∃ now c, e = .keyboard now c ∧ (c = 0x39 ∨ c = 0x1B) ∧
    s.terminal.pc.requested (.keyboard now c) = some ModeType.terminateMode.toByte

/-- The drone accepts the request. -/
def AcceptsTerminate (s : Lossy) (e : LossyEvent) : Prop :=
  s.accepting e = some ModeType.terminateMode.toByte

/-- The drone ticks in `TERMINATE_MODE`. -/
def TicksTerminate (s : Lossy) (e : LossyEvent) : Prop :=
  s.main.drone.currentMode = ModeType.terminateMode ∧ ∃ wait sensors, e = .control wait sensors

/-- The drone ends its loop with a tick in `SAFE_MODE`, which stops the rotors. -/
def Exits (s : Lossy) (e : LossyEvent) : Prop :=
  s.main.drone.exitInSafeMode = true ∧ s.main.drone.currentMode = ModeType.safeMode ∧
    (∃ wait sensors, e = .control wait sensors) ∧ (lossy.next s e).main.drone.RotorsStopped

/-- The drone sends a `MSG_TERMINATE`. -/
def ReportsExit (s : Lossy) (e : LossyEvent) : Prop :=
  s.main.drone.demoDone = true ∧ e = .terminate

/-- The PC reads a byte that completes a `MSG_TERMINATE`. -/
def ReadsExit (s : Lossy) (e : LossyEvent) : Prop :=
  e = .serial ∧ ∃ r ∈ s.pcByte?, pcReads r.1 = true ∧
    0 < (parseMessage r.1 s.terminal.parser).1 ∧
    (parseMessage r.1 s.terminal.parser).2.buffer.messageType = MsgType.terminate.toByte

/-- The steps of a shutdown. -/
def shutdownStep : ℕ → Lossy → LossyEvent → Prop
  | 0 => AsksTerminate
  | 1 => AcceptsTerminate
  | 2 => TicksTerminate
  | 3 => Exits
  | 4 => ReportsExit
  | 5 => ReadsExit
  | _ => fun _ _ => False

/-- The message that the PC completes is the first on its way. -/
theorem head_toPc_of_messageType {s : Lossy} (h : s.Midway) {r : UInt8 × Lane Msg}
    (hr : s.pcByte? = some r) (hreads : pcReads r.1 = true)
    (hpos : 0 < (parseMessage r.1 s.terminal.parser).1) : ∃ m, s.toPc.items.head? = some m ∧
      (parseMessage r.1 s.terminal.parser).2.buffer.messageType = m.messageType.toByte := by
  obtain ⟨-, ⟨hzero, -⟩ | ⟨-, m, hitems, hzero | ⟨-, stale, hbuffer⟩⟩⟩ :=
    h.toPc.read rfl hr hreads
  · omega
  · omega
  · exact ⟨m, by rw [hitems, List.head?_cons], by rw [hbuffer, Msg.messageType_received]⟩

/-- A step of `joint` is that step on bytes. -/
theorem shutdownStep_of_event {s : Lossy} (h : s.Midway) {e : LossyEvent} (he : s.Clean e)
    {e' : JointEvent} (hevent : s.event e = some e') (i : ℕ)
    (hstep : Joint.shutdownStep i s.joint e') : shutdownStep i s e := by
  obtain ⟨-, pcBuffer, droneBuffer, hjoint⟩ := next_joint h he
  have hdrone : (lossy.next s e).main.drone =
      (Quadrupel.joint.next s.joint e').drone := by
    rw [hevent] at hjoint
    exact congrArg Joint.drone hjoint
  match i with
  | 0 =>
    obtain ⟨hreq, now, c, rfl, hkey⟩ := hstep
    exact ⟨now, c, eq_keyboard_of_event hevent, hkey, hreq⟩
  | 1 =>
    have haccept := accepting_eq h e
    rw [hevent] at haccept
    exact haccept.trans hstep
  | 2 =>
    obtain ⟨hmode, sensors, rfl⟩ := hstep
    obtain ⟨wait, rfl⟩ := eq_control_of_event hevent
    exact ⟨hmode, wait, sensors, rfl⟩
  | 3 =>
    obtain ⟨hexit, hmode, ⟨sensors, rfl⟩, hstop⟩ := hstep
    obtain ⟨wait, rfl⟩ := eq_control_of_event hevent
    exact ⟨hexit, hmode, ⟨wait, sensors, rfl⟩, hdrone ▸ hstop⟩
  | 4 =>
    obtain ⟨hdone, rfl⟩ := hstep
    exact ⟨hdone, eq_terminate_of_event hevent⟩
  | 5 =>
    obtain ⟨rfl, hhead⟩ := hstep
    obtain ⟨rfl, r, hr, hreads, hpos⟩ := byte_of_pcReceive hevent
    obtain ⟨m, hm, htype⟩ := head_toPc_of_messageType h hr hreads hpos
    obtain rfl := Option.some.inj (hm.symm.trans hhead)
    exact ⟨rfl, r, hr, hreads, hpos, htype⟩
  | _ + 6 => exact hstep.elim

/-- Each step needs the one before. -/
theorem not_shutdownPending (i : ℕ) {s : Lossy} (h : s.Midway) {e : LossyEvent}
    (hstep : shutdownStep (i + 1) s e) : ¬Joint.shutdownPending i s.joint := by
  intro hpending
  match i with
  | 0 =>
    obtain ⟨e', -, hm⟩ := Option.bind_eq_some_iff.1 ((accepting_eq h e).symm.trans hstep)
    exact hpending.2 (by rw [Joint.modesToDrone_of_accepting hm]; exact List.mem_cons_self)
  | 1 => exact hpending hstep.1
  | 2 => exact hpending hstep.1
  | 3 => exact hpending hstep.1
  | 4 =>
    obtain ⟨-, r, hr, hreads, hpos, htype⟩ := hstep
    obtain ⟨m, hm, htype'⟩ := head_toPc_of_messageType h hr hreads hpos
    have hterm : m = .terminate := by
      have hbyte := htype'.symm.trans htype
      cases m with
      | terminate => rfl
      | setMode | inputData | setPValues | modeUpdate | pValuesUpdate | calibrationData =>
        exact absurd hbyte (by simp [Msg.messageType, MsgType.toByte])
    exact hpending (hterm ▸ List.mem_of_mem_head? hm)
  | _ + 5 => exact hstep.elim

theorem bounded_start (now tMessageExpect : Timespec) (sendBuffer receiveBuffer : Message)
    (time : ℕ) : (start now tMessageExpect sendBuffer receiveBuffer time).joint.Bounded := by
  have hlt : (0 : UInt8) < 0x0F := by decide
  exact ⟨hlt, nofun, nofun⟩

/-- In a run in which the PC ends, and each frame arrives as its message or not at all, a key
for `TERMINATE_MODE` was pressed, the drone accepted the request, ticked in that mode, ended
its loop with the rotors stopped, and sent a `MSG_TERMINATE`, and the PC read it, in this
order. -/
theorem exit_in_order (now tMessageExpect : Timespec) (sendBuffer receiveBuffer : Message)
    (time : ℕ) (es : List LossyEvent)
    (hclean : lossy.Along Clean (start now tMessageExpect sendBuffer receiveBuffer time) es)
    (hdone : (lossy.run (start now tMessageExpect sendBuffer receiveBuffer time)
      es).terminal.pc.demoDone = true) :
    lossy.InOrder [AsksTerminate, AcceptsTerminate, TicksTerminate, Exits, ReportsExit, ReadsExit]
      (start now tMessageExpect sendBuffer receiveBuffer time) es := by
  have hsafe : ModeType.safeMode.toByte ≠ ModeType.terminateMode := by decide
  have hstart (i : ℕ) : Joint.shutdownPending i
      (start now tMessageExpect sendBuffer receiveBuffer time).joint :=
    match i with
    | 0 => ⟨hsafe, List.not_mem_nil⟩
    | 1 => hsafe
    | 2 => Bool.false_ne_true
    | 3 => Bool.false_ne_true
    | 4 => List.not_mem_nil
    | 5 => Bool.false_ne_true
    | _ + 6 => trivial
  have hinv (s : Lossy) (e : LossyEvent) (hs : s.Midway ∧ s.joint.Bounded) (he : s.Clean e) :
      (lossy.next s e).Midway ∧ (lossy.next s e).joint.Bounded :=
    invariant_next (fun _ _ _ _ h _ => ⟨h.requested, h.toServer, h.toClient⟩) hs.1 he hs.2
      fun e' _ => hs.2.next e'
  have hkeep (i : ℕ) (s : Lossy) (e : LossyEvent) (hs : s.Midway ∧ s.joint.Bounded)
      (he : s.Clean e) (h : Joint.shutdownPending i s.joint) (hnot : ¬shutdownStep i s e) :
      Joint.shutdownPending i (lossy.next s e).joint :=
    (invariant_next (fun _ clock pcBuffer droneBuffer h _ =>
      Joint.shutdownPending_frame i clock pcBuffer droneBuffer h) hs.1 he h fun e' hevent =>
        Joint.shutdownPending_next i hs.2 h fun hstep =>
          hnot (shutdownStep_of_event hs.1 he hevent i hstep)).2
  exact lossy.inOrder_of_pending hinv hkeep
    (fun i _ _ hs hstep => not_shutdownPending i hs.1 hstep)
    ⟨midway_start _ _ _ _ _, bounded_start _ _ _ _ _⟩ hstart 5 hclean
    (fun hpending => hpending hdone)

/-- A shutdown of a drone at rest. -/
theorem exit_in_order_at_rest :
    lossy.InOrder [AsksTerminate, AcceptsTerminate, TicksTerminate, Exits, ReportsExit, ReadsExit]
      powerUp (.keyboard ⟨1, 0⟩ 0x39 :: chars 6 ++ List.replicate 3 (.control 0 .zero) ++
        .terminate :: serials 11) :=
  exit_in_order _ _ _ _ _ _ (clean_of_plain (by decide +kernel)) (by decide +kernel)

end Lossy

end Quadrupel
