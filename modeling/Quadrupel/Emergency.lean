import Quadrupel.Joint

/-!
# The emergency keys and the fire button

The operator is to have the keys for `SAFE_MODE`, panic, terminate, trims and gains at any
time, and the fire button whenever the drone flies. The gate of the keyboard block lets
`'0'` pass, but asks for `retval` 0 of the others, and `retval` is whatever the last key,
shot or message left there : after a trim or a gain it is 0xFF. And the joystick block asks
whether the PC holds `PANIC_MODE` for confirmed, not whether the drone is in it.
`available_iff` says that these two tests are all that stands in the way.
-/

namespace Quadrupel

namespace Pc

/-- The keys for `SAFE_MODE`, panic and terminate, the trims and the gains. -/
def alwaysKeys : List UInt8 :=
  ['0', '1', '9', '\x1b', 'a', 'z', 's', 'x', 'd', 'c', 'q', 'w', 'u', 'j', 'i', 'k', 'o', 'l'].map
    fun c => c.toNat.toUInt8

/-- The action has its effect from `p` to `p'`, where the messages `sent` are sent : the
mode is asked for, the offset moves, or the P value is to change. -/
def KeyAction.Effect (p p' : Pc) (sent : List Msg) : KeyAction → Prop
  | .mode m _ => .setMode m ∈ sent
  | .trim axis offset => p'.joystick.axisOffsets axis = p.joystick.axisOffsets axis + offset
  | .pValue select change => .setPValues select.toByte change.toByte 1 ∈ sent
  | .invalid => False

/-- The key has its effect. -/
def ActedOn (p : Pc) (now : Timespec) (c : UInt8) : Prop :=
  (keyAction c).Effect p (pcLoop.next p (.keyboard now c)) (pcLoop.out p (.keyboard now c))

/-- The joystick block is due, and the fire button is pressed when it reads it. -/
def Pressed (p : Pc) (now : Timespec) (events : List JsEvent) : Prop :=
  compareTime now p.tJoystick = true ∧ (p.joystick.readJoystick events).firePressed = true

/-- The action does something, whatever the sticks are at. -/
def KeyAction.unconditional : KeyAction → Bool
  | .mode _ atRest => !atRest
  | .trim _ offset => offset != 0
  | .pValue _ _ => true
  | .invalid => false

theorem alwaysKeys_spec : ∀ c ∈ alwaysKeys,
    c ≠ 0xFF ∧ needsCalibration c = false ∧ (keyAction c).unconditional = true := by
  decide +kernel

theorem gateOpen_iff {p : Pc} {c : UInt8} : p.gateOpen c = true ↔ c = 0x30 ∨ p.retval = 0 := by
  simp [gateOpen]

/-- A call of `select_message` with such a key has its effect. -/
theorem request_effect (now : Timespec) {c : UInt8} (p : Pc)
    (hc : (keyAction c).unconditional = true) :
    (keyAction c).Effect p (p.request now c).1 (p.request now c).2 := by
  unfold request selectMessage
  cases hkey : keyAction c with
  | mode m atRest =>
    have hrest : atRest = false := by simpa [hkey, KeyAction.unconditional] using hc
    simp [KeyAction.Effect, hrest, sendMode_eq]
  | trim axis offset => simp [KeyAction.Effect, trim, Joystick.setOffset]
  | pValue select mode => simp [KeyAction.Effect, sendPValue_eq]
  | invalid => simp [hkey, KeyAction.unconditional] at hc

/-- A key that is refused has no effect. -/
theorem not_effect_refused {a : KeyAction} (ha : a.unconditional = true) (p : Pc) :
    ¬a.Effect p p [] := by
  cases a with
  | mode | pValue => simp [KeyAction.Effect]
  | trim axis offset =>
    have hoffset : offset ≠ 0 := by simpa [KeyAction.unconditional] using ha
    intro h
    exact hoffset (by simpa [KeyAction.Effect] using h.symm)
  | invalid => exact id

/-- A key of the operator has its effect iff the gate is open. -/
theorem actedOn_iff {p : Pc} (hp : p.demoDone = false) (now : Timespec) {c : UInt8}
    (hc : c ∈ alwaysKeys) : p.ActedOn now c ↔ c = 0x30 ∨ p.retval = 0 := by
  obtain ⟨hnone, hcal, haction⟩ := alwaysKeys_spec c hc
  have hrun : p.runBlock (.keyboard now c) = p.readKey now c := by
    simp [runBlock, hp]
  rw [← gateOpen_iff]
  unfold ActedOn
  simp only [pcLoop, hrun]
  rcases readKey_cases now c p with ⟨hclosed, hread⟩ | ⟨huncal, -⟩ | ⟨-, hgate, -, hread⟩
  · rw [hread, hclosed.resolve_left hnone]
    exact iff_of_false (not_effect_refused haction p) Bool.false_ne_true
  · simp [uncalibrated, hcal] at huncal
  · rw [hread]
    exact iff_of_true (request_effect now _ haction) hgate

/-- A poll of the joystick with the fire button pressed sends `PANIC_MODE` iff the PC does not
hold it for confirmed. -/
theorem fired_iff {p : Pc} (hp : p.demoDone = false) {now : Timespec} {events : List JsEvent}
    (h : p.Pressed now events) :
    .setMode ModeType.panicMode ∈ pcLoop.out p (.joystick now events) ↔
      p.modeReceived ≠ ModeType.panicMode := by
  have hfires : p.fires now events = true ↔ p.modeReceived ≠ ModeType.panicMode := by
    simp [fires, firing, h.1, h.2]
  rw [← mem_sentModes, sentModes_out, Option.mem_toList, ← hfires, sent, hp]
  simp

end Pc

namespace Joint

/-- On a key of the operator the key has its effect; and on a poll of the joystick with the
fire button pressed, the drone neither in `PANIC_MODE` nor in `SAFE_MODE`, the PC sends
`PANIC_MODE`. -/
def Available (s : Joint) : JointEvent → Prop
  | .keyboard now c => s.pc.demoDone = false → c ∈ Pc.alwaysKeys → s.pc.ActedOn now c
  | .joystick now events => s.pc.demoDone = false → s.pc.Pressed now events → ¬s.InPanic →
      s.drone.currentMode ≠ ModeType.safeMode →
      .setMode ModeType.panicMode ∈ s.sends (.joystick now events)
  | _ => True

/-- On the same events the key is `'0'` or `retval` is 0, or the PC does not hold
`PANIC_MODE` for confirmed. -/
def Ready (s : Joint) : JointEvent → Prop
  | .keyboard _ c => s.pc.demoDone = false → c ∈ Pc.alwaysKeys → c = 0x30 ∨ s.pc.retval = 0
  | .joystick now events => s.pc.demoDone = false → s.pc.Pressed now events → ¬s.InPanic →
      s.drone.currentMode ≠ ModeType.safeMode → s.pc.modeReceived ≠ ModeType.panicMode
  | _ => True

/-- In every run, the emergency keys and the fire button are available throughout iff at
each such key but `'0'` `retval` is 0, and at each such poll `mode_received` is not
`PANIC_MODE`. -/
theorem available_iff (now tMessageExpect : Timespec) (sendBuffer pcBuffer : Message)
    (time : UInt32) (es : List JointEvent) :
    joint.Along Available (start now tMessageExpect sendBuffer pcBuffer time) es ↔
      joint.Along Ready (start now tMessageExpect sendBuffer pcBuffer time) es := by
  refine joint.along_congr (fun s e => ?_) _ es
  cases e with
  | keyboard now c => exact forall₂_congr fun hp hc => Pc.actedOn_iff hp now hc
  | joystick now events =>
    exact forall₂_congr fun hp h => forall₂_congr fun _ _ => Pc.fired_iff hp h
  | pcReceive | resend | control | droneReceive | timer | terminate | loseToDrone | loseToPc =>
    exact Iff.rfl

/-- After a trim, `'1'` is refused. -/
theorem not_available :
    ¬∀ (now tMessageExpect : Timespec) (sendBuffer pcBuffer : Message) (time : UInt32)
      (es : List JointEvent),
      joint.Along Available (start now tMessageExpect sendBuffer pcBuffer time) es := by
  intro h
  let pre : List JointEvent :=
    [.joystick ⟨1, 0⟩ [], .droneReceive 0, .keyboard ⟨1, 0⟩ 0x61]
  have hrunning : (joint.run powerUp pre).pc.demoDone = false := by decide +kernel
  have hacted := (joint.along_iff _ _ _).1 (h _ _ _ _ _ (pre ++ [.keyboard ⟨1, 5000000⟩ 0x31]))
    pre (.keyboard ⟨1, 5000000⟩ 0x31) [] rfl hrunning (by decide)
  have hrefused : .setMode ModeType.panicMode ∉
      pcLoop.out (joint.run powerUp pre).pc (.keyboard ⟨1, 5000000⟩ 0x31) := by decide +kernel
  exact hrefused hacted

end Joint

end Quadrupel
