import Quadrupel.PcMessages

/-!
# The main loop of the PC

`main` of `pc_terminal.c`. An iteration of its loop runs four blocks, each behind a test
of its own : the joystick, a key, a byte from the drone, the resend. `pcLoop` is the
machine whose events are the blocks, in any order and each with its own reading of the
clock; a byte counts when it completes a message, which is then in the receive buffer.
`demo_done` is set by the third block, and after that only the fourth can still run. The
copies for the GUI and what is printed are left out.

`requested` is the mode that a block assigns to `mode_requested`, and `sent` the mode
that it sends in a `SET_MODE`, if any (`next_modeRequested`, `sentModes_out`). They
differ in two ways : a key refused for want of a calibration requests a mode without
sending it, and a resend sends `mode_requested` once more (`sent_cases`).
-/

namespace Quadrupel

/-- The blocks of the loop. -/
inductive PcEvent
  | joystick (now : Timespec) (events : List JsEvent)
  | keyboard (now : Timespec) (c : UInt8)
  | receive (receiveBuffer : Message)
  | resend (now : Timespec)

namespace Pc

/-- The PC when `main` enters its loop at the time `now`. `t_message_expect` and the
send buffer are not initialised. -/
def start (now tMessageExpect : Timespec) (sendBuffer : Message) : Pc where
  joystick := ⟨fun _ => 0, fun _ => 0, fun _ => 0⟩
  sendBuffer := sendBuffer
  calibrationHasBeenDone := false
  modeRequested := 0
  modeReceived := 0
  retval := 0
  tMessageExpect := tMessageExpect
  tJoystick := now
  demoDone := false

/-- What follows a call of `select_message` : a mode becomes the one requested, with a
reply expected in 200 ms. -/
def setRequested (now : Timespec) (retval : UInt8) (p : Pc) : Pc :=
  if retval < 0x0F then
    { p with retval, modeRequested := retval, tMessageExpect := addTimeMillis now 200 }
  else { p with retval }

/-- A call of `select_message` with what follows it. -/
def request (now : Timespec) (c : UInt8) (p : Pc) : Pc × List Msg :=
  let (retval, p, sent) := p.selectMessage c
  (p.setRequested now retval, sent)

/-- The sticks and their offsets go to the drone. -/
def sendInput (p : Pc) : Pc × List Msg :=
  let total (axis : Axis) : UInt8 := (p.joystick.axisTotals axis).toUInt8
  { p with
    sendBuffer := (((p.sendBuffer.setData 1 (total .roll)).setData 2 (total .pitch)).setData 3
      (total .yaw)).setData 0 (total .lift)
  }.buildAndSendMessage .inputData

/-- The fire button asks for `PANIC_MODE` and the drone has not confirmed it. -/
def firing (p : Pc) : Bool :=
  p.joystick.firePressed && p.modeReceived != ModeType.panicMode

/-- The joystick block. -/
def pollJoystick (now : Timespec) (events : List JsEvent) (p : Pc) : Pc × List Msg :=
  if compareTime now p.tJoystick then
    let p := { p with joystick := p.joystick.readJoystick events }
    let (p, sent) := p.sendInput
    let (p, fired) := if p.firing then p.request now 0x31 else (p, [])
    ({ p with tJoystick := addTimeMillis now 10 }, sent ++ fired)
  else (p, [])

/-- The gate of the keyboard block : only `'0'` passes unless `retval` is 0. -/
def gateOpen (p : Pc) (c : UInt8) : Bool :=
  c = 0x30 || p.retval = 0

/-- The key asks for a mode that needs the calibration first. -/
def needsCalibration (c : UInt8) : Bool :=
  c = 0x32 || c = 0x35 || c = 0x36

/-- The keyboard block. A key 0xFF is -1, which stands for no key. -/
def readKey (now : Timespec) (c : UInt8) (p : Pc) : Pc × List Msg :=
  if c = 0xFF then (p, [])
  else if p.gateOpen c then
    let p := if c = 0x33 then { p with calibrationHasBeenDone := true } else p
    if needsCalibration c && !p.calibrationHasBeenDone then (p.setRequested now p.retval, [])
    else p.request now c
  else (p, [])

/-- The block that handles an accepted message. -/
def acceptMessage (receiveBuffer : Message) (p : Pc) : Pc :=
  let retval := handleMessage receiveBuffer
  let p := { p with retval }
  if retval < 0x0F then { p with modeReceived := retval }
  else if retval = 27 then { p with demoDone := true }
  else p

/-- The reply to the last request is overdue. -/
def overdue (now : Timespec) (p : Pc) : Bool :=
  p.modeRequested != p.modeReceived && compareTime now p.tMessageExpect

/-- The resend block. -/
def resend (now : Timespec) (p : Pc) : Pc × List Msg :=
  if p.overdue now then
    let (_, p, sent) := p.selectMessage (p.modeRequested + 0x30)
    ({ p with tMessageExpect := addTimeMillis now 200 }, sent)
  else (p, [])

/-- A block of the loop. -/
def runBlock (p : Pc) : PcEvent → Pc × List Msg
  | .joystick now events => if p.demoDone then (p, []) else p.pollJoystick now events
  | .keyboard now c => if p.demoDone then (p, []) else p.readKey now c
  | .receive receiveBuffer => if p.demoDone then (p, []) else (p.acceptMessage receiveBuffer, [])
  | .resend now => p.resend now

end Pc

/-- The loop of the PC, with the messages that it sends. -/
def pcLoop : Machine Pc PcEvent (List Msg) where
  next p e := (p.runBlock e).1
  out p e := (p.runBlock e).2

/-! ## What each block does to the modes -/

/-- The mode that `main` of the PC stores when it accepts the message, if any. -/
def Message.updatedMode (m : Message) : Option UInt8 :=
  if Pc.handleMessage m < 0x0F then some (Pc.handleMessage m) else none

namespace Pc

/-- The key passes the gate, but is refused for want of a calibration. -/
def uncalibrated (p : Pc) (c : UInt8) : Bool :=
  p.gateOpen c && needsCalibration c && !p.calibrationHasBeenDone

/-- The mode that a key sends, if it does. -/
def sentByKey (p : Pc) (c : UInt8) : Option UInt8 :=
  if c = 0xFF || !p.gateOpen c || p.uncalibrated c then none else p.selectedMode c

/-- The mode that a key assigns to `mode_requested`, if it does : the one it sends, or 0
if it is refused for want of a calibration. -/
def requestedByKey (p : Pc) (c : UInt8) : Option UInt8 :=
  if p.uncalibrated c then some 0 else p.sentByKey c

/-- The joystick block is due, and on what it reads the fire button asks for a panic. -/
def fires (p : Pc) (now : Timespec) (events : List JsEvent) : Bool :=
  compareTime now p.tJoystick && { p with joystick := p.joystick.readJoystick events }.firing

/-- The mode that the block assigns to `mode_requested`, if it does. -/
def requested (p : Pc) : PcEvent → Option UInt8
  | .joystick now events =>
    if !p.demoDone && p.fires now events then some ModeType.panicMode else none
  | .keyboard _ c => if p.demoDone then none else p.requestedByKey c
  | .receive _ => none
  | .resend _ => none

/-- The mode that the block sends, if it does. -/
def sent (p : Pc) : PcEvent → Option UInt8
  | .joystick now events =>
    if !p.demoDone && p.fires now events then some ModeType.panicMode else none
  | .keyboard _ c => if p.demoDone then none else p.sentByKey c
  | .receive _ => none
  | .resend now => if p.overdue now then p.selectedMode (p.modeRequested + 0x30) else none

theorem toByte_lt (m : ModeType) : m.toByte < 0x0F := by
  cases m <;> decide

theorem setRequested_modeRequested (now : Timespec) {retval : UInt8} (h : retval < 0x0F) (p : Pc) :
    (p.setRequested now retval).modeRequested = retval := by
  rw [setRequested, if_pos h]

@[simp] theorem setRequested_modeReceived (now : Timespec) (retval : UInt8) (p : Pc) :
    (p.setRequested now retval).modeReceived = p.modeReceived := by
  unfold setRequested
  split_ifs <;> rfl

@[simp] theorem setRequested_joystick (now : Timespec) (retval : UInt8) (p : Pc) :
    (p.setRequested now retval).joystick = p.joystick := by
  unfold setRequested
  split_ifs <;> rfl

@[simp] theorem setRequested_calibrationHasBeenDone (now : Timespec) (retval : UInt8) (p : Pc) :
    (p.setRequested now retval).calibrationHasBeenDone = p.calibrationHasBeenDone := by
  unfold setRequested
  split_ifs <;> rfl

/-- A call of `select_message` reads no stick and does no calibration. -/
theorem request_frame (now : Timespec) (c : UInt8) (p : Pc) :
    (p.request now c).1.joystick.axisSmall = p.joystick.axisSmall ∧
      (p.request now c).1.calibrationHasBeenDone = p.calibrationHasBeenDone := by
  obtain ⟨axisOffsets, sendBuffer, hframe⟩ := selectMessage_frame c p
  simp [request, hframe]

/-- A call of `select_message` requests the mode that it sends. -/
theorem request_spec (now : Timespec) (c : UInt8) (p : Pc) :
    (p.request now c).1.modeRequested = (p.selectedMode c).getD p.modeRequested ∧
      (p.request now c).1.modeReceived = p.modeReceived ∧
      sentModes (p.request now c).2 = (p.selectedMode c).toList := by
  obtain ⟨axisOffsets, sendBuffer, hframe⟩ := selectMessage_frame c p
  refine ⟨?_, ?_, sentModes_selectMessage c p⟩
  · simp only [request, hframe, selectMessage_fst]
    cases h : p.selectedMode c with
    | none => rfl
    | some mode =>
      obtain ⟨m, -, -, -, rfl⟩ := selectedMode_eq_some h
      exact setRequested_modeRequested now (toByte_lt m) _
  · simp only [request, hframe, setRequested_modeReceived]

/-- The key with the digit of a mode asks for no other mode. -/
theorem toByte_of_keyAction_digit {m : UInt8} (hm : m < 0x0F) {t : ModeType} {atRest : Bool}
    (h : keyAction (m + 0x30) = .mode t atRest) : t.toByte = m := by
  have hdigit : ∀ k < 15, ∀ a ∈ (keyAction (UInt8.ofNat k + 0x30)).mode?,
      a.1.toByte = UInt8.ofNat k := by decide +kernel
  have hk := hdigit m.toNat (UInt8.lt_iff_toNat_lt.1 hm)
  rw [UInt8.ofNat_toNat, h] at hk
  exact hk (t, atRest) rfl

theorem sendInput_eq (p : Pc) : ∃ sendBuffer lift roll pitch yaw,
    p.sendInput = ({ p with sendBuffer }, [.inputData lift roll pitch yaw]) :=
  ⟨_, _, _, _, _, rfl⟩

/-- The joystick block is not due, or it sends the sticks, and then requests `PANIC_MODE` if
it fires. -/
theorem pollJoystick_cases (now : Timespec) (events : List JsEvent) (p : Pc) :
    (compareTime now p.tJoystick = false ∧ p.fires now events = false ∧
      p.pollJoystick now events = (p, [])) ∨
    ∃ (q : Pc) (sendBuffer : Message) (lift roll pitch yaw : Int8),
      q = { p with joystick := p.joystick.readJoystick events, sendBuffer } ∧
      compareTime now p.tJoystick = true ∧
      ((p.fires now events = false ∧ p.pollJoystick now events =
          ({ q with tJoystick := addTimeMillis now 10 }, [.inputData lift roll pitch yaw])) ∨
        (p.fires now events = true ∧ p.pollJoystick now events =
          ({ (q.request now 0x31).1 with tJoystick := addTimeMillis now 10 },
            .inputData lift roll pitch yaw :: (q.request now 0x31).2))) := by
  unfold pollJoystick fires
  cases compareTime now p.tJoystick with
  | false => exact Or.inl ⟨rfl, rfl, rfl⟩
  | true =>
    set q : Pc := { p with joystick := p.joystick.readJoystick events }
    obtain ⟨sendBuffer, lift, roll, pitch, yaw, hinput⟩ := q.sendInput_eq
    have hfiring : { q with sendBuffer }.firing = q.firing := rfl
    refine Or.inr ⟨{ q with sendBuffer }, sendBuffer, lift, roll, pitch, yaw, rfl, rfl, ?_⟩
    simp only [if_true, hinput, hfiring, Bool.true_and]
    cases q.firing with
    | false => exact Or.inl ⟨rfl, rfl⟩
    | true => exact Or.inr ⟨rfl, rfl⟩

theorem pollJoystick_calibrationHasBeenDone (now : Timespec) (events : List JsEvent) (p : Pc) :
    (p.pollJoystick now events).1.calibrationHasBeenDone = p.calibrationHasBeenDone := by
  rcases p.pollJoystick_cases now events with
    ⟨-, -, h⟩ | ⟨q, sendBuffer, _, _, _, _, rfl, -, ⟨-, h⟩ | ⟨-, h⟩⟩
  · rw [h]
  · rw [h]
  · rw [h]
    exact (request_frame _ _ _).2

theorem pollJoystick_spec (now : Timespec) (events : List JsEvent) (p : Pc) :
    (p.pollJoystick now events).1.modeRequested =
        (if p.fires now events then ModeType.panicMode.toByte else p.modeRequested) ∧
      (p.pollJoystick now events).1.modeReceived = p.modeReceived ∧
      sentModes (p.pollJoystick now events).2 =
        (if p.fires now events then [ModeType.panicMode.toByte] else []) := by
  rcases p.pollJoystick_cases now events with
    ⟨-, hfires, h⟩ | ⟨q, sendBuffer, _, _, _, _, rfl, -, ⟨hfires, h⟩ | ⟨hfires, h⟩⟩
  · rw [h, hfires]
    exact ⟨rfl, rfl, rfl⟩
  · rw [h, hfires]
    exact ⟨rfl, rfl, rfl⟩
  · rw [h, hfires]
    exact request_spec now 0x31
      { p with joystick := p.joystick.readJoystick events, sendBuffer }

/-- A key that is refused for want of a calibration finds `retval` 0. -/
theorem retval_of_uncalibrated {c : UInt8} {p : Pc} (h : p.uncalibrated c = true) :
    p.retval = 0 := by
  simp only [uncalibrated, Bool.and_eq_true] at h
  obtain ⟨⟨hgate, hneeds⟩, -⟩ := h
  have hne : c ≠ 0x30 := by
    rintro rfl
    exact absurd hneeds (by decide)
  simpa [gateOpen, hne] using hgate

/-- The keyboard block does nothing with a key that is none or does not pass the gate; it
refuses one that needs a calibration, and requests 0; and it selects any other. -/
theorem readKey_cases (now : Timespec) (c : UInt8) (p : Pc) :
    ((c = 0xFF ∨ p.gateOpen c = false) ∧ p.readKey now c = (p, [])) ∨
      (p.uncalibrated c = true ∧ p.readKey now c = (p.setRequested now 0, [])) ∨
      (c ≠ 0xFF ∧ p.gateOpen c = true ∧ p.uncalibrated c = false ∧
        p.readKey now c = { p with
          calibrationHasBeenDone := p.calibrationHasBeenDone || c = 0x33 }.request now c) := by
  by_cases hc : c = 0xFF
  · exact Or.inl ⟨Or.inl hc, if_pos hc⟩
  cases hgate : p.gateOpen c with
  | false => exact Or.inl ⟨Or.inr rfl, by simp [readKey, hc, hgate]⟩
  | true =>
    refine Or.inr ?_
    by_cases h3 : c = 0x33
    · subst h3
      exact Or.inr ⟨hc, rfl, by simp [uncalibrated, needsCalibration],
        by simp [readKey, hgate, needsCalibration]⟩
    cases huncal : p.uncalibrated c with
    | true =>
      have hneeds : (needsCalibration c && !p.calibrationHasBeenDone) = true := by
        simpa [uncalibrated, hgate] using huncal
      have hretval := retval_of_uncalibrated huncal
      exact Or.inl ⟨rfl, by simp [readKey, hc, h3, hgate, hneeds, hretval]⟩
    | false =>
      have hneeds : (needsCalibration c && !p.calibrationHasBeenDone) = false := by
        simpa [uncalibrated, hgate] using huncal
      exact Or.inr ⟨hc, rfl, rfl, by simp [readKey, hc, h3, hgate, hneeds]⟩

theorem readKey_spec (now : Timespec) (c : UInt8) (p : Pc) :
    (p.readKey now c).1.modeRequested = (p.requestedByKey c).getD p.modeRequested ∧
      (p.readKey now c).1.modeReceived = p.modeReceived ∧
      sentModes (p.readKey now c).2 = (p.sentByKey c).toList := by
  unfold requestedByKey sentByKey
  rcases readKey_cases now c p with ⟨hc, hread⟩ | ⟨huncal, hread⟩ | ⟨hc, hgate, huncal, hread⟩
  · have huncal : p.uncalibrated c = false := by
      rcases hc with rfl | hgate
      · simp [uncalibrated, needsCalibration]
      · simp [uncalibrated, hgate]
    have hnone : (c = 0xFF || !p.gateOpen c || p.uncalibrated c) = true := by
      rcases hc with rfl | hgate
      · simp
      · simp [hgate]
    rw [hread, huncal, if_neg Bool.false_ne_true, ← huncal, if_pos hnone]
    exact ⟨rfl, rfl, rfl⟩
  · rw [hread, huncal]
    simp only [if_true, Bool.or_true]
    exact ⟨rfl, setRequested_modeReceived _ _ _, rfl⟩
  · rw [hread, huncal, hgate]
    simp only [hc, decide_false, Bool.not_true, Bool.or_self, Bool.false_eq_true, if_false]
    exact request_spec now c
      { p with calibrationHasBeenDone := p.calibrationHasBeenDone || c = 0x33 }

theorem acceptMessage_spec (receiveBuffer : Message) (p : Pc) :
    (p.acceptMessage receiveBuffer).modeRequested = p.modeRequested ∧
      (p.acceptMessage receiveBuffer).modeReceived =
        receiveBuffer.updatedMode.getD p.modeReceived := by
  simp only [acceptMessage, Message.updatedMode]
  split_ifs <;> exact ⟨rfl, rfl⟩

theorem resend_spec (now : Timespec) (p : Pc) :
    (p.resend now).1.modeRequested = p.modeRequested ∧
      (p.resend now).1.modeReceived = p.modeReceived ∧
      sentModes (p.resend now).2 = (p.sent (.resend now)).toList := by
  simp only [resend, sent]
  split_ifs
  · obtain ⟨axisOffsets, sendBuffer, hframe⟩ := selectMessage_frame (p.modeRequested + 0x30) p
    exact ⟨by simp only [hframe], by simp only [hframe], sentModes_selectMessage _ p⟩
  · exact ⟨rfl, rfl, rfl⟩

/-! ## What a step does to the modes -/

theorem next_modeRequested (p : Pc) (e : PcEvent) :
    (pcLoop.next p e).modeRequested = (p.requested e).getD p.modeRequested := by
  cases e with
  | joystick now events =>
    simp only [pcLoop, runBlock, requested]
    cases p.demoDone with
    | true => rfl
    | false =>
      refine (p.pollJoystick_spec now events).1.trans ?_
      cases p.fires now events <;> rfl
  | keyboard now c =>
    simp only [pcLoop, runBlock, requested]
    split_ifs
    · rfl
    · exact (readKey_spec now c p).1
  | receive receiveBuffer =>
    simp only [pcLoop, runBlock, requested]
    split_ifs
    · rfl
    · exact (acceptMessage_spec receiveBuffer p).1
  | resend now => exact (resend_spec now p).1

/-- Only an update from the drone changes `mode_received`. -/
theorem next_modeReceived (p : Pc) (e : PcEvent) :
    (pcLoop.next p e).modeReceived = p.modeReceived ∨
      ∃ receiveBuffer m, e = .receive receiveBuffer ∧ receiveBuffer.updatedMode = some m ∧
        (pcLoop.next p e).modeReceived = m := by
  cases e with
  | joystick now events =>
    refine Or.inl ?_
    simp only [pcLoop, runBlock]
    split_ifs
    · rfl
    · exact (p.pollJoystick_spec now events).2.1
  | keyboard now c =>
    refine Or.inl ?_
    simp only [pcLoop, runBlock]
    split_ifs
    · rfl
    · exact (readKey_spec now c p).2.1
  | receive receiveBuffer =>
    simp only [pcLoop, runBlock]
    split_ifs
    · exact Or.inl rfl
    · have hreceived := (acceptMessage_spec receiveBuffer p).2
      cases hmode : receiveBuffer.updatedMode with
      | none =>
        rw [hmode] at hreceived
        exact Or.inl hreceived
      | some m =>
        rw [hmode] at hreceived
        exact Or.inr ⟨receiveBuffer, m, rfl, hmode, hreceived⟩
  | resend now => exact Or.inl (resend_spec now p).2.1

theorem sentModes_out (p : Pc) (e : PcEvent) :
    sentModes (pcLoop.out p e) = (p.sent e).toList := by
  cases e with
  | joystick now events =>
    simp only [pcLoop, runBlock, sent]
    cases p.demoDone with
    | true => rfl
    | false =>
      refine (p.pollJoystick_spec now events).2.2.trans ?_
      cases p.fires now events <;> rfl
  | keyboard now c =>
    simp only [pcLoop, runBlock, sent]
    split_ifs
    · rfl
    · exact (readKey_spec now c p).2.2
  | receive receiveBuffer =>
    simp only [pcLoop, runBlock, sent]
    split_ifs <;> rfl
  | resend now => exact (resend_spec now p).2.2

theorem sentByKey_eq_some {p : Pc} {c m : UInt8} (h : p.sentByKey c = some m) :
    p.selectedMode c = some m ∧ p.requestedByKey c = some m ∧
      (needsCalibration c = true → p.calibrationHasBeenDone = true) := by
  have hsent := h
  unfold sentByKey at h
  split_ifs at h with hc
  simp only [Bool.or_eq_true, not_or, Bool.not_eq_true, Bool.not_eq_false'] at hc
  obtain ⟨⟨-, hgate⟩, huncal⟩ := hc
  refine ⟨h, ?_, fun hneeds => ?_⟩
  · rw [requestedByKey, if_neg (by simp [huncal]), hsent]
  · simpa [uncalibrated, hgate, hneeds] using huncal

/-- A block sends the mode that it requests, or on a resend `mode_requested`. -/
theorem sent_cases {p : Pc} (hp : p.modeRequested < 0x0F) {e : PcEvent} {m : UInt8}
    (h : p.sent e = some m) :
    p.requested e = some m ∨ (∃ now, e = .resend now) ∧ m = p.modeRequested := by
  cases e with
  | joystick now events => exact Or.inl h
  | keyboard now c =>
    simp only [sent] at h
    split_ifs at h with hdone
    simp only [requested, if_neg hdone]
    exact Or.inl (sentByKey_eq_some h).2.1
  | receive receiveBuffer => cases h
  | resend now =>
    simp only [sent] at h
    split_ifs at h
    obtain ⟨t, atRest, hkey, -, rfl⟩ := selectedMode_eq_some h
    exact Or.inr ⟨⟨now, rfl⟩, toByte_of_keyAction_digit hp hkey⟩

theorem requested_lt {p : Pc} {e : PcEvent} {m : UInt8} (h : p.requested e = some m) :
    m < 0x0F := by
  cases e with
  | joystick now events =>
    simp only [requested] at h
    split_ifs at h
    obtain rfl := Option.some.inj h
    decide
  | keyboard now c =>
    simp only [requested, requestedByKey] at h
    split_ifs at h
    · obtain rfl := Option.some.inj h
      decide
    · obtain ⟨t, -, -, -, rfl⟩ := selectedMode_eq_some (sentByKey_eq_some h).1
      exact toByte_lt t
  | receive | resend => cases h

theorem next_modeRequested_lt {p : Pc} (hp : p.modeRequested < 0x0F) (e : PcEvent) :
    (pcLoop.next p e).modeRequested < 0x0F := by
  rw [next_modeRequested]
  cases h : p.requested e with
  | none => exact hp
  | some m => exact requested_lt h

end Pc

end Quadrupel
