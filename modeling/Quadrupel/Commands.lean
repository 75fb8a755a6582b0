import Quadrupel.Lossy
import Quadrupel.Wire

/-!
# What the operator commands is what the drone flies with

The sticks and the P values of the drone are the operator's commands. A message of the PC
replaces the sticks, or changes one P value from what it was (`Commands.handle`), so that a
lost increment is not made up for by the next one.

`commands_in_order` says that in a clean run the drone holds what the messages that it read
make of the zeros of the start, and that these, and behind them those on their way, are
messages that the PC sent, in order, each at most once, and all of them if no frame is lost or
refused. No other block of the drone touches a command, no reordering is possible, and what
earlier messages left in the buffer does not matter. `commands_of_bytes` says the same of the
drone with its driver : the messages on their way are those whose last byte is on the line or
in the receive queue.
-/

namespace Quadrupel

/-- The sticks and the P values. -/
@[ext]
structure Commands where
  liftdata : Int8
  rolldata : Int8
  pitchdata : Int8
  yawdata : Int8
  pYawControl : Int8
  p1 : Int8
  p2 : Int8
deriving DecidableEq, Repr

namespace Commands

/-- The sticks at rest and no control. -/
def zero : Commands :=
  ⟨0, 0, 0, 0, 0, 0, 0⟩

/-- What a message makes of them. -/
def handle (c : Commands) : Msg → Commands
  | .inputData lift roll pitch yaw =>
    { c with liftdata := lift, rolldata := roll, pitchdata := pitch, yawdata := yaw }
  | .setPValues select mode value =>
    match PValueSelect.ofByte? select with
    | some .pYawControl => { c with pYawControl := Drone.changePValue mode value c.pYawControl }
    | some .p1PitchRollControl => { c with p1 := Drone.changePValue mode value c.p1 }
    | some .p2PitchRollControl => { c with p2 := Drone.changePValue mode value c.p2 }
    | none => c
  | _ => c

end Commands

namespace Drone

/-- Those of the drone. -/
def commands (d : Drone) : Commands :=
  ⟨d.liftdata, d.rolldata, d.pitchdata, d.yawdata, d.pYawControl, d.p1, d.p2⟩

theorem commands_changePValues (select mode value : UInt8) (d : Drone) :
    (d.changePValues select mode value).commands =
      d.commands.handle (.setPValues select mode value) := by
  simp only [changePValues, Commands.handle]
  cases PValueSelect.ofByte? select with
  | none => rfl
  | some s => cases s <;> rfl

/-- A message of the PC changes the commands of the drone as it is to, whatever was in the
buffer. -/
theorem commands_acceptMessage (m : Msg) (stale : Message) (now : UInt32) (d : Drone) :
    (d.acceptMessage (m.received stale) now).1.commands = d.commands.handle m := by
  unfold acceptMessage
  rw [handleMessage_received]
  cases m with
  | setPValues select mode value => exact d.commands_changePValues select mode value
  | setMode | inputData | modeUpdate | pValuesUpdate | calibrationData | terminate => rfl

theorem commands_controlTick (sensors : Sensors) (d : Drone) :
    (d.controlTick sensors).1.commands = d.commands := by
  obtain ⟨_, _, _, _, _, _, _, _, _, _, h⟩ := d.controlTick_eq sensors
  rw [h]
  rfl

theorem commands_checkTimer (batVolt : UInt16) (now : UInt32) (d : Drone) :
    (d.checkTimer batVolt now).commands = d.commands := by
  obtain ⟨_, _, _, h⟩ := d.checkTimer_eq batVolt now
  rw [h]
  rfl

end Drone

/-- A frame to the drone is lost. -/
def JointEvent.losesToDrone : JointEvent → Bool
  | .loseToDrone _ => true
  | _ => false

namespace Joint

/-- The messages on their way to the drone. -/
def unread (s : Joint) : List Msg :=
  s.toDrone.map Frame.msg

/-- The commands of the drone come from the messages `read`, and these and the unread are
among `sent`, all of `sent` if nothing was lost. -/
structure Commanded (lost : Prop) (sent read : List Msg) (s : Joint) : Prop where
  commands : s.drone.commands = read.foldl Commands.handle .zero
  sublist : (read ++ s.unread).Sublist sent
  eq : ¬lost → read ++ s.unread = sent

theorem Commanded.pcBlock {lost : Prop} {sent read : List Msg} {s : Joint}
    (h : s.Commanded lost sent read) (e : PcEvent) (key : Option ℕ) :
    (s.pcBlock e key).Commanded lost (sent ++ pcLoop.out s.pc e) read := by
  have hunread : (s.pcBlock e key).unread = s.unread ++ pcLoop.out s.pc e := by
    simp [unread, Joint.pcBlock, Function.comp_def]
  refine ⟨h.commands, ?_, fun hlost => ?_⟩
  · rw [hunread, ← List.append_assoc]
    exact h.sublist.append_right _
  · rw [hunread, ← List.append_assoc, h.eq hlost]

/-- The drone reads the first of the messages. -/
theorem Commanded.droneReceive {lost : Prop} {sent read : List Msg} {s : Joint}
    (h : s.Commanded lost sent read) (now : UInt32) :
    ∃ read', (s.move (.droneReceive now)).Commanded lost sent read' := by
  cases hlink : s.toDrone with
  | nil => exact ⟨read, by simpa only [move, hlink] using h⟩
  | cons f toDrone =>
    have hunread : (read ++ [f.msg]) ++ (s.move (.droneReceive now)).unread =
        read ++ s.unread := by
      simp [unread, move, hlink, droneBlock]
    refine ⟨read ++ [f.msg], ?_, ?_, fun hlost => hunread.trans (h.eq hlost)⟩
    · have haccept := s.drone.commands_acceptMessage f.msg s.droneBuffer now
      rw [h.commands] at haccept
      rw [List.foldl_append, List.foldl_cons, List.foldl_nil, ← haccept]
      simp only [move, hlink, droneBlock, droneLoop]
    · rw [hunread]
      exact h.sublist

/-- Nothing that a step does brings a command to the drone but a message that it reads. -/
theorem Commanded.next {lost : Prop} {sent read : List Msg} {s : Joint}
    (h : s.Commanded lost sent read) {e : JointEvent} (he : e.losesToDrone = true → lost) :
    ∃ read', (joint.next s e).Commanded lost (sent ++ joint.out s e) read' := by
  suffices hmove : ∃ read', (s.move e).Commanded lost (sent ++ s.sends e) read' by
    obtain ⟨read', hcommands, hsublist, heq⟩ := hmove
    exact ⟨read', hcommands, hsublist, heq⟩
  have hquiet {s' : Joint} (hcommands : s'.drone.commands = s.drone.commands)
      (hunread : s'.unread = s.unread) : ∃ read', s'.Commanded lost (sent ++ []) read' :=
    ⟨read, hcommands.trans h.commands, by simpa only [hunread, List.append_nil] using h.sublist,
      by simpa only [hunread, List.append_nil] using h.eq⟩
  cases e with
  | joystick now events => exact ⟨read, h.pcBlock (.joystick now events) none⟩
  | keyboard now c => exact ⟨read, h.pcBlock (.keyboard now c) (some s.clock)⟩
  | resend now => exact ⟨read, h.pcBlock (.resend now) s.requestKey⟩
  | pcReceive =>
    simp only [move, sends]
    split
    · exact hquiet rfl rfl
    · next m toPc _ =>
      have hnone (buffer : Message) : pcLoop.out s.pc (.receive buffer) = [] := by
        simp only [pcLoop, Pc.runBlock]
        split_ifs <;> rfl
      have hblock := Commanded.pcBlock (s := { s with toPc, pcBuffer := m.received s.pcBuffer })
        ⟨h.commands, h.sublist, h.eq⟩ (.receive (m.received s.pcBuffer)) none
      rw [hnone] at hblock
      exact ⟨read, hblock⟩
  | control sensors => exact hquiet (s.drone.commands_controlTick sensors) rfl
  | droneReceive now =>
    simp only [sends, List.append_nil]
    exact h.droneReceive now
  | timer batVolt now => exact hquiet (s.drone.commands_checkTimer batVolt now) rfl
  | terminate =>
    simp only [move]
    split_ifs <;> exact hquiet rfl rfl
  | loseToDrone i =>
    refine ⟨read, h.commands, ?_, fun hlost => absurd (he rfl) hlost⟩
    have hfewer : (s.move (.loseToDrone i)).unread.Sublist s.unread :=
      (List.eraseIdx_sublist s.toDrone i).map Frame.msg
    simp only [sends, List.append_nil]
    exact (hfewer.append_left read).trans h.sublist
  | loseToPc i => exact hquiet rfl rfl

theorem commanded_run (now tMessageExpect : Timespec) (sendBuffer pcBuffer : Message)
    (time : UInt32) (es : List JointEvent) :
    let s₀ := start now tMessageExpect sendBuffer pcBuffer time
    ∃ read, (joint.run s₀ es).Commanded (∃ e ∈ es, e.losesToDrone = true)
      (joint.outputs s₀ es).flatten read := by
  intro s₀
  set lost := ∃ e ∈ es, e.losesToDrone = true with hlost
  have hstep (_ : List JointEvent) (h : List (List Msg)) (s : Joint) (e : JointEvent)
      (hinv : ∃ read, s.Commanded lost h.flatten read) (he : e.losesToDrone = true → lost) :
      ∃ read, (joint.next s e).Commanded lost (h ++ [joint.out s e]).flatten read := by
    obtain ⟨read, hread⟩ := hinv
    rw [List.flatten_concat]
    exact hread.next he
  have hes : joint.Along (fun _ e => e.losesToDrone = true → lost) s₀ es :=
    (joint.along_events _ s₀ es).2 fun e he hloses => ⟨e, he, hloses⟩
  exact joint.trace_invariant hstep ⟨[], rfl, List.Sublist.refl _, fun _ => rfl⟩ hes

end Joint

namespace Lossy

/-- The messages that the PC sends on a step are those of `joint`. -/
theorem sends_eq (s : Lossy) (e : LossyEvent) : s.sends e = (s.event e).elim [] s.joint.sends := by
  have hbyte {c : UInt8} {p : Parser} {arrives refused : JointEvent}
      (harrives : s.joint.sends arrives = []) (hrefused : s.joint.sends refused = []) :
      (byteEvent c p arrives refused).elim [] s.joint.sends = [] := by
    unfold byteEvent
    split_ifs <;> simp [harrives, hrefused]
  cases e with
  | char wait =>
    simp only [event]
    cases s.droneByte?.map Prod.fst with
    | none => rfl
    | some c => exact (hbyte rfl rfl).symm
  | serial =>
    simp only [event]
    split_ifs
    · rfl
    · cases s.pcByte?.map Prod.fst with
      | none => rfl
      | some c =>
        simp only [Option.bind_some]
        split_ifs
        · exact (hbyte rfl rfl).symm
        · rfl
  | joystick | keyboard | resend | control | timer | terminate | loseToDrone | loseToPc => rfl

/-- No frame to the drone is lost or refused on the event. -/
def Keeps (s : Lossy) (e : LossyEvent) : Prop :=
  ∀ e' ∈ s.event e, e'.losesToDrone = false

theorem commanded_next {lost : Prop} {sent : List Msg} {s : Lossy}
    (h : s.Midway ∧ ∃ read, s.joint.Commanded lost sent read) {e : LossyEvent}
    (he : s.Clean e ∧ (s.Keeps e ∨ lost)) : (lossy.next s e).Midway ∧
      ∃ read, (lossy.next s e).joint.Commanded lost (sent ++ lossy.out s e) read := by
  obtain ⟨hmidway, pcBuffer, droneBuffer, hjoint⟩ := next_joint h.1 he.1
  obtain ⟨read, hread⟩ := h.2
  have hsends : lossy.out s e = (s.event e).elim [] s.joint.sends := s.sends_eq e
  refine ⟨hmidway, ?_⟩
  rw [hjoint, hsends]
  cases hevent : s.event e with
  | none =>
    rw [Option.elim_none, List.append_nil]
    exact ⟨read, hread.commands, hread.sublist, hread.eq⟩
  | some e' =>
    obtain ⟨read', hnext⟩ := hread.next fun hloses => he.2.resolve_left fun hkeeps =>
      Bool.false_ne_true ((hkeeps e' hevent).symm.trans hloses)
    exact ⟨read', hnext.commands, hnext.sublist, hnext.eq⟩

/-- The key for more control of the yaw twice, with the key for `SAFE_MODE` in between, and the
frame of the first is lost. -/
def yawUpTwice : List LossyEvent :=
  [.keyboard ⟨1, 0⟩ 0x75, .loseToDrone 0, .keyboard ⟨1, 0⟩ 0x30, .keyboard ⟨1, 0⟩ 0x75] ++
    chars 14

end Lossy

namespace Wire

/-- The messages that the PC sends on a step are those of `joint`. -/
theorem Refines.flatten_outputs {s : Wire} {t : Joint} (h : Refines s t) (e : WireEvent) :
    (joint.outputs t (s.events e)).flatten = s.sends e := by
  have hpc := h.pc
  cases e with
  | joystick | keyboard | resend =>
    simp only [events, Machine.outputs_cons, Machine.outputs_nil, List.flatten_cons,
      List.flatten_nil, List.append_nil, joint, Joint.sends, hpc]
    rfl
  | serial =>
    simp only [events]
    split_ifs
    · rfl
    · cases s.toPc.head?.filter pcReads with
      | none => rfl
      | some c =>
        simp only [Option.elim_some]
        split_ifs <;> rfl
  | char =>
    simp only [events]
    split_ifs <;> rfl
  | control | timer | terminate | put | rxdrdy | txdrdy => rfl

/-- The drone refuses no frame on the event. -/
def Takes (s : Wire) (e : WireEvent) : Prop :=
  ∀ e' ∈ s.events e, e'.losesToDrone = false

/-- On a regular run on bytes the drone's commands are what the messages that it has read make
of the zeros of the start. These, followed by those that are on their way as long as bytes
are, are messages that the PC sent, in order and each at most once, and all of them if the
drone refuses no frame. -/
theorem commands_of_bytes (now tMessageExpect : Timespec) (sendBuffer receiveBuffer : Message)
    (rxQueue txQueue : Queue) (time : ℕ) (es : List WireEvent) :
    let s₀ := start now tMessageExpect sendBuffer receiveBuffer rxQueue txQueue time
    let s := wire.run s₀ es
    let sent := (wire.outputs s₀ es).flatMap Prod.fst
    wire.Along Regular s₀ es → ∃ read unread,
      s.main.drone.commands = read.foldl Commands.handle .zero ∧
      (read ++ unread).Sublist sent ∧
      (s.line.uart.rxQueue.contents = [] ∧ s.toDrone = [] → unread = []) ∧
      (wire.Along Takes s₀ es → read ++ unread = sent) := by
  intro s₀ s sent hregular
  set t₀ := Joint.start now tMessageExpect sendBuffer receiveBuffer (getTimeUs time)
  have hstart : Refines s₀ t₀ := refines_start _ _ _ _ _ _ _
  have hrel : Refines s (joint.run t₀ (wire.translate events s₀ es)) :=
    wire.run_related joint (fun _ _ _ h he => h.next he) hstart hregular
  have hstep (s : Wire) (t : Joint) (e : WireEvent) (h : Refines s t) (he : s.Regular e) :
      Refines (wire.next s e) (joint.run t (s.events e)) ∧
        (joint.outputs t (s.events e)).flatMap id = Prod.fst (wire.out s e) :=
    ⟨h.next he, List.flatMap_id.trans (h.flatten_outputs e)⟩
  have hsent : (joint.outputs t₀ (wire.translate events s₀ es)).flatten = sent := by
    rw [← List.flatMap_id]
    exact wire.outputs_related joint hstep hstart hregular
  obtain ⟨read, hcommands, hsublist, heq⟩ := Joint.commanded_run now tMessageExpect sendBuffer
    receiveBuffer (getTimeUs time) (wire.translate events s₀ es)
  rw [hsent] at hsublist heq
  refine ⟨read, _, hrel.drone ▸ hcommands, hsublist, fun ⟨hrx, hline⟩ => ?_, fun htakes => ?_⟩
  · have hlink := hrel.toDrone
    rw [hrx, hline, List.append_nil] at hlink
    exact hlink.eq_nil
  · have hkept := (wire.forall_mem_translate s₀ es).2 htakes
    refine heq ?_
    rintro ⟨e, he, hloses⟩
    exact Bool.false_ne_true ((hkept e he).symm.trans hloses)

/-- The key for more control of the yaw, byte by byte. -/
def yawUp : List WireEvent :=
  .keyboard ⟨1, 0⟩ 0x75 :: List.replicate 8 .rxdrdy ++ List.replicate 8 (.char 10 [] [])

/-- A run with one message. -/
theorem commands_of_bytes_yawUp :
    let s₀ := start ⟨0, 0⟩ ⟨0, 0⟩ (Vector.replicate sizeofMessage 0)
      (Vector.replicate sizeofMessage 0) .zeros .zeros 0
    let s := wire.run s₀ yawUp
    let sent := (wire.outputs s₀ yawUp).flatMap Prod.fst
    ∃ read unread, s.main.drone.commands = read.foldl Commands.handle .zero ∧
      (read ++ unread).Sublist sent ∧
      (s.line.uart.rxQueue.contents = [] ∧ s.toDrone = [] → unread = []) ∧
      (wire.Along Takes s₀ yawUp → read ++ unread = sent) :=
  commands_of_bytes ⟨0, 0⟩ ⟨0, 0⟩ (Vector.replicate sizeofMessage 0)
    (Vector.replicate sizeofMessage 0) .zeros .zeros 0 yawUp (regular_of_plain (by decide +kernel))

end Wire

end Quadrupel
