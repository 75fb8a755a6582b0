import Quadrupel.DroneMain

/-!
# The acknowledged mode

`handle_message` acknowledges every `SET_MODE` with the mode that it asks for, before
`main` decides whether to store that mode. `main` stores what is below 0x0F, which is
meant to tell a mode from the 0xFF of the other messages, but no constant of
`mode_type_e` is above 9. So a mode from 10 to 14 is acknowledged and stored, and one
from 15 on acknowledged and not stored. `acknowledged_iff` says that these are the only
ways in which a drone acknowledges a mode that is not in force, or leaves the ten modes.
-/

namespace Quadrupel

namespace Drone

/-- The byte is one of the ten values of `mode_type_e`. -/
def IsMode (mode : UInt8) : Prop :=
  ∃ m : ModeType, mode = m

theorem isMode_iff {mode : UInt8} : IsMode mode ↔ (ModeType.ofByte? mode).isSome := by
  simp only [IsMode, Option.isSome_iff_exists, ModeType.ofByte?_eq_some]

instance (mode : UInt8) : Decidable (IsMode mode) :=
  decidable_of_iff' _ isMode_iff

theorem isMode_toByte (m : ModeType) : IsMode m :=
  ⟨m, rfl⟩

theorem IsMode.lt {mode : UInt8} (h : IsMode mode) : mode < 0x0F := by
  obtain ⟨m, rfl⟩ := h
  cases m <;> decide

/-- When `main` has handled the message, `current_mode` is one of the ten modes and the
one that was acknowledged, if one was. -/
structure InForce (d : Drone) (receiveBuffer : Message) (now : UInt32) : Prop where
  isMode : IsMode (d.acceptMessage receiveBuffer now).1.currentMode
  acknowledged : ∀ mode, Msg.modeUpdate mode ∈ (d.acceptMessage receiveBuffer now).2 →
    mode = (d.acceptMessage receiveBuffer now).1.currentMode

/-- A `SET_MODE` is acknowledged. -/
theorem acknowledges {m : Message} (h : m.messageType = MsgType.setMode.toByte) (now : UInt32)
    (d : Drone) : (d.acceptMessage m now).2 = [.modeUpdate (m.data 0)] := by
  simp only [acceptMessage, handleMessage, h, MsgType.ofByte?_toByte]

theorem inForce_setMode_iff {m : Message} (h : m.messageType = MsgType.setMode.toByte)
    (now : UInt32) (d : Drone) : d.InForce m now ↔ IsMode (m.data 0) := by
  have hmode := d.acceptMessage_currentMode m now
  constructor
  · rintro ⟨hisMode, hack⟩
    rw [hack (m.data 0) (by rw [acknowledges h]; exact List.mem_singleton_self _)]
    exact hisMode
  · intro hisMode
    rw [Message.storedMode, if_pos ⟨h, hisMode.lt⟩, Option.getD_some] at hmode
    refine ⟨hmode ▸ hisMode, fun mode hmem => ?_⟩
    rw [acknowledges h] at hmem
    rw [hmode]
    exact Msg.modeUpdate.inj (List.mem_singleton.1 hmem)

theorem inForce_other_iff {m : Message} (h : m.messageType ≠ MsgType.setMode.toByte)
    (now : UInt32) (d : Drone) : d.InForce m now ↔ IsMode d.currentMode := by
  have hmode := d.acceptMessage_currentMode m now
  rw [Message.storedMode, if_neg fun hset => h hset.1, Option.getD_none] at hmode
  constructor
  · rintro ⟨hisMode, -⟩
    exact hmode ▸ hisMode
  · intro hisMode
    exact ⟨hmode ▸ hisMode, fun mode hmem => absurd (handleMessage_confirms hmem).1 h⟩

/-- After the block `current_mode` is one of the ten modes, and after one that handles a
message also the mode that was acknowledged. -/
def KeepsInForce (d : Drone) : DroneEvent → Prop
  | .message receiveBuffer now => d.InForce receiveBuffer now
  | e => IsMode (droneLoop.next d e).currentMode

/-- The block handles no `SET_MODE` with another value. -/
def AsksForMode : DroneEvent → Prop
  | .message receiveBuffer _ =>
    receiveBuffer.messageType = MsgType.setMode.toByte → IsMode (receiveBuffer.data 0)
  | _ => True

instance : ∀ e, Decidable (AsksForMode e)
  | .message .. => inferInstanceAs (Decidable (_ → _))
  | .control _ | .timer .. => inferInstanceAs (Decidable True)

/-- Neither a tick nor a failsafe leaves the ten modes. -/
theorem isMode_next {d : Drone} (h : IsMode d.currentMode) {e : DroneEvent} (he : AsksForMode e) :
    IsMode (droneLoop.next d e).currentMode := by
  cases e with
  | control sensors =>
    rcases d.controlTick_mode_cases sensors with hsame | ⟨-, hsafe, -⟩ | ⟨-, hpanic⟩
    · exact hsame.symm ▸ h
    · exact hsafe ▸ isMode_toByte .safeMode
    · exact hpanic ▸ isMode_toByte .panicMode
  | message m now =>
    by_cases htype : m.messageType = MsgType.setMode.toByte
    · exact ((inForce_setMode_iff htype now d).2 (he htype)).isMode
    · exact ((inForce_other_iff htype now d).2 h).isMode
  | timer batVolt now =>
    rcases d.checkTimer_mode_cases batVolt now with hsame | hpanic
    · exact hsame.symm ▸ h
    · exact hpanic ▸ isMode_toByte .panicMode

theorem keepsInForce_iff {d : Drone} (h : IsMode d.currentMode) (e : DroneEvent) :
    d.KeepsInForce e ↔ AsksForMode e := by
  cases e with
  | control | timer => exact iff_of_true (isMode_next h trivial) trivial
  | message m now =>
    by_cases htype : m.messageType = MsgType.setMode.toByte
    · exact (inForce_setMode_iff htype now d).trans ⟨fun hmode _ => hmode, fun hasks => hasks htype⟩
    · exact iff_of_true ((inForce_other_iff htype now d).2 h) fun hset => absurd hset htype

/-- After a message, in any state, `current_mode` is one of the ten modes and the one that
was acknowledged iff the message asks for one of the ten, or for none where the mode was
one of them. In a run from power-up it is so after every block iff no `SET_MODE` of the
run asks for another value. -/
theorem acknowledged_iff (d : Drone) (m : Message) (now : UInt32) (es : List DroneEvent) :
    (d.InForce m now ↔
      IsMode (if m.messageType = MsgType.setMode.toByte then m.data 0 else d.currentMode)) ∧
      IsMode (powerUp now).currentMode ∧
      (droneLoop.Along KeepsInForce (powerUp now) es ↔ ∀ e ∈ es, AsksForMode e) := by
  have hstart : IsMode (powerUp now).currentMode := isMode_toByte .safeMode
  refine ⟨?_, hstart, ?_⟩
  · by_cases htype : m.messageType = MsgType.setMode.toByte
    · rw [if_pos htype, inForce_setMode_iff htype]
    · rw [if_neg htype, inForce_other_iff htype]
  · have hstep (d : Drone) (e : DroneEvent) (hd : IsMode d.currentMode) (he : AsksForMode e) :
        IsMode (droneLoop.next d e).currentMode := isMode_next hd he
    rw [← droneLoop.along_events AsksForMode (powerUp now)]
    exact droneLoop.along_iff_of_invariant (fun d e hd => keepsInForce_iff hd e) hstep es hstart

/-- What the acknowledgement promises, in every run. -/
def AlwaysInForce : Prop :=
  ∀ (now : UInt32) (es : List DroneEvent), droneLoop.Along KeepsInForce (powerUp now) es

/-- The receive buffer after a `SET_MODE` that is the first message. -/
def askFor (mode : UInt8) : DroneEvent :=
  .message ((Msg.setMode mode).received (Vector.replicate sizeofMessage 0)) 0

/-- In `SAFE_MODE` mode 200 is acknowledged and not stored, and mode 12 is stored. -/
theorem not_alwaysInForce : ¬AlwaysInForce ∧
    (droneLoop.run (powerUp 0) [askFor 200]).currentMode = ModeType.safeMode ∧
    (droneLoop.run (powerUp 0) [askFor 12]).currentMode = 12 ∧ ¬IsMode 12 := by
  refine ⟨fun h => ?_, by decide +kernel, by decide +kernel, by decide⟩
  have hack := (h 0 [askFor 200]).1.acknowledged 200 (by decide +kernel)
  revert hack
  decide +kernel

end Drone

end Quadrupel
