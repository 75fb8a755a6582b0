import Quadrupel.PcMain

/-!
# The modes that the PC requests

Every `SET_MODE` that the PC sends comes out of `select_message`, also on a resend. So
a resend checks the sticks again, and it sends a mode that was sent before or
`SAFE_MODE`, which `mode_requested` starts with and which a refused key assigns. The
calibration counts as done only once `'3'` has sent its request. `Recorded` is the
invariant that ties the variables to what was sent so far, and `sent_restrained` what it
gives for every frame of every run, whatever the drone sends.
-/

namespace Quadrupel

namespace Pc

/-- The modes that some key sends. -/
def keyModes : List ModeType :=
  [.safeMode, .panicMode, .manualMode, .calibrationMode, .yawControlMode, .fullControlMode,
    .rawMode, .terminateMode]

/-- The modes whose keys need the sticks at rest. -/
def restModes : List ModeType :=
  [.manualMode, .yawControlMode, .fullControlMode, .rawMode]

/-- The modes whose keys need a calibration. -/
def calibratedModes : List ModeType :=
  [.manualMode, .fullControlMode, .rawMode]

theorem keyAction_mode {c : UInt8} {m : ModeType} {atRest : Bool}
    (h : keyAction c = .mode m atRest) : m ∈ keyModes ∧ (m ∈ restModes → atRest = true) ∧
      (m ∈ calibratedModes → needsCalibration c = true) := by
  have htable : ∀ k < 256, ∀ a ∈ (keyAction (UInt8.ofNat k)).mode?, a.1 ∈ keyModes ∧
      (a.1 ∈ restModes → a.2 = true) ∧
      (a.1 ∈ calibratedModes → needsCalibration (UInt8.ofNat k) = true) := by decide +kernel
  have hc := htable c.toNat c.toNat_lt
  rw [UInt8.ofNat_toNat, h] at hc
  exact hc (m, atRest) rfl

/-- The modes sent so far, given the messages of each block. -/
def modesSent (history : List (List Msg)) : List UInt8 :=
  sentModes history.flatten

/-- What the variables of the PC say about the modes sent so far. -/
structure Recorded (p : Pc) (history : List (List Msg)) : Prop where
  requested_lt : p.modeRequested < 0x0F
  requested : p.modeRequested = ModeType.safeMode ∨ p.modeRequested ∈ modesSent history
  calibration : p.calibrationHasBeenDone = true →
    ModeType.calibrationMode.toByte ∈ modesSent history
  calibrated : ∀ m ∈ calibratedModes, m.toByte ∈ modesSent history →
    ModeType.calibrationMode.toByte ∈ modesSent history

theorem modesSent_snoc (history : List (List Msg)) (ms : List Msg) :
    modesSent (history ++ [ms]) = modesSent history ++ sentModes ms := by
  simp [modesSent, sentModes]

/-- Only the joystick block reads the sticks. -/
theorem next_axisSmall (p : Pc) {e : PcEvent} (he : ∀ now events, e ≠ .joystick now events) :
    (pcLoop.next p e).joystick.axisSmall = p.joystick.axisSmall := by
  cases e with
  | joystick now events => exact absurd rfl (he now events)
  | keyboard now c =>
    simp only [pcLoop, runBlock]
    split_ifs
    · rfl
    · rcases readKey_cases now c p with ⟨-, hread⟩ | ⟨-, hread⟩ | ⟨-, -, -, hread⟩
      · rw [hread]
      · rw [hread, setRequested_joystick]
      · rw [hread]
        exact (request_frame _ _ _).1
  | receive receiveBuffer =>
    simp only [pcLoop, runBlock, acceptMessage]
    split_ifs <;> rfl
  | resend now =>
    obtain ⟨axisOffsets, sendBuffer, hframe⟩ := selectMessage_frame (p.modeRequested + 0x30) p
    simp only [pcLoop, runBlock, resend]
    split_ifs
    · simp only [hframe]
    · rfl

/-- The calibration counts as done only with its request sent. -/
theorem next_calibration (p : Pc) (e : PcEvent)
    (h : (pcLoop.next p e).calibrationHasBeenDone = true) :
    p.calibrationHasBeenDone = true ∨ p.sent e = some ModeType.calibrationMode.toByte := by
  cases e with
  | joystick now events =>
    refine Or.inl ?_
    simp only [pcLoop, runBlock] at h
    split_ifs at h
    · exact h
    · rwa [pollJoystick_calibrationHasBeenDone] at h
  | keyboard now c =>
    simp only [pcLoop, runBlock] at h
    split_ifs at h with hdone
    · exact Or.inl h
    rcases readKey_cases now c p with ⟨-, hread⟩ | ⟨-, hread⟩ | ⟨hc, hgate, huncal, hread⟩
    · rw [hread] at h
      exact Or.inl h
    · rw [hread, setRequested_calibrationHasBeenDone] at h
      exact Or.inl h
    · rw [hread, (request_frame _ _ _).2, Bool.or_eq_true, decide_eq_true_eq] at h
      refine h.imp_right fun h3 => ?_
      subst h3
      simp only [sent, if_neg hdone, sentByKey, hgate, huncal]
      rfl
  | receive receiveBuffer =>
    refine Or.inl ?_
    simp only [pcLoop, runBlock, acceptMessage] at h
    split_ifs at h <;> exact h
  | resend now =>
    obtain ⟨axisOffsets, sendBuffer, hframe⟩ := selectMessage_frame (p.modeRequested + 0x30) p
    simp only [pcLoop, runBlock, resend] at h
    split_ifs at h
    · simp only [hframe] at h
      exact Or.inl h
    · exact Or.inl h

/-- Where a mode that is sent comes from : the fire button, a key, or the key that a resend
stands for. -/
theorem sent_origin {p : Pc} (hp : p.modeRequested < 0x0F) {e : PcEvent} {m : UInt8}
    (h : p.sent e = some m) :
    m = ModeType.panicMode ∧ (∃ now events, e = .joystick now events) ∨
      ∃ c t atRest, keyAction c = .mode t atRest ∧ m = t ∧
        (atRest = true → (pcLoop.next p e).joystick.AtRest) ∧
        (needsCalibration c = true → p.calibrationHasBeenDone = true ∨ m = p.modeRequested) ∧
        ((∃ now, e = .resend now) → m = p.modeRequested) := by
  have hrest (he : ∀ now events, e ≠ .joystick now events) (hat : p.joystick.AtRest) :
      (pcLoop.next p e).joystick.AtRest := by
    unfold Joystick.AtRest
    rw [next_axisSmall p he]
    exact hat
  cases e with
  | joystick now events =>
    simp only [sent] at h
    split_ifs at h
    exact Or.inl ⟨(Option.some.inj h).symm, now, events, rfl⟩
  | keyboard now c =>
    simp only [sent] at h
    split_ifs at h
    obtain ⟨hselected, -, hcal⟩ := sentByKey_eq_some h
    obtain ⟨t, atRest, hkey, hat, rfl⟩ := selectedMode_eq_some hselected
    refine Or.inr ⟨c, t, atRest, hkey, rfl, fun hr => hrest (by simp) (hat hr), ?_, by simp⟩
    exact fun hneeds => Or.inl (hcal hneeds)
  | receive receiveBuffer => cases h
  | resend now =>
    simp only [sent] at h
    split_ifs at h
    obtain ⟨t, atRest, hkey, hat, rfl⟩ := selectedMode_eq_some h
    have hm := toByte_of_keyAction_digit hp hkey
    exact Or.inr ⟨_, t, atRest, hkey, rfl, fun hr => hrest (by simp) (hat hr),
      fun _ => Or.inr hm, fun _ => hm⟩

/-- What holds of a mode `m` that the block `e` sends, after the modes `earlier`. -/
structure Restrained (p : Pc) (earlier : List UInt8) (e : PcEvent) (m : UInt8) : Prop where
  mode : ∃ t ∈ keyModes, m = t.toByte
  atRest : (∃ t ∈ restModes, m = t.toByte) → (pcLoop.next p e).joystick.AtRest
  calibrated : (∃ t ∈ calibratedModes, m = t.toByte) →
    ModeType.calibrationMode.toByte ∈ earlier
  resend : (∃ now, e = .resend now) → m = ModeType.safeMode ∨ m ∈ earlier

theorem Recorded.restrained {p : Pc} {history : List (List Msg)} (h : p.Recorded history)
    {e : PcEvent} {m : UInt8} (hm : p.sent e = some m) :
    p.Restrained (modesSent history) e m := by
  rcases sent_origin h.requested_lt hm with ⟨rfl, now, events, rfl⟩ |
    ⟨c, t, atRest, hkey, rfl, hrest, hcal, hresend⟩
  · have hne : (∀ t ∈ restModes, ModeType.panicMode.toByte ≠ t.toByte) ∧
        ∀ t ∈ calibratedModes, ModeType.panicMode.toByte ≠ t.toByte := by decide
    exact ⟨⟨.panicMode, by decide, rfl⟩, fun ⟨t, ht, heq⟩ => absurd heq (hne.1 t ht),
      fun ⟨t, ht, heq⟩ => absurd heq (hne.2 t ht), by simp⟩
  · obtain ⟨hmode, hr, hc⟩ := keyAction_mode hkey
    refine ⟨⟨t, hmode, rfl⟩, fun ⟨t', ht', heq⟩ => ?_, fun ⟨t', ht', heq⟩ => ?_, fun he => ?_⟩
    · obtain rfl := ModeType.toByte_inj.1 heq
      exact hrest (hr ht')
    · obtain rfl := ModeType.toByte_inj.1 heq
      rcases hcal (hc ht') with hdone | hlast
      · exact h.calibration hdone
      · rcases h.requested with hsafe | hsent
        · have hne : ∀ t ∈ calibratedModes, t ≠ ModeType.safeMode := by decide
          exact absurd (ModeType.toByte_inj.1 (hlast.trans hsafe)) (hne t ht')
        · exact h.calibrated t ht' (hlast ▸ hsent)
    · rw [hresend he]
      exact h.requested

/-- A mode that is requested is sent too, unless a key was refused : then it is 0. -/
theorem requested_sent {p : Pc} {e : PcEvent} {m : UInt8} (h : p.requested e = some m) :
    m = ModeType.safeMode ∨ p.sent e = some m := by
  cases e with
  | joystick now events => exact Or.inr h
  | keyboard now c =>
    simp only [requested, requestedByKey] at h
    split_ifs at h with hdone
    · exact Or.inl (Option.some.inj h).symm
    · exact Or.inr (by rw [sent, if_neg hdone, h])
  | receive | resend => cases h

theorem Recorded.next {p : Pc} {history : List (List Msg)} (h : p.Recorded history) (e : PcEvent) :
    (pcLoop.next p e).Recorded (history ++ [pcLoop.out p e]) := by
  have hsent : modesSent (history ++ [pcLoop.out p e]) =
      modesSent history ++ (p.sent e).toList := by
    rw [modesSent_snoc, sentModes_out]
  have hold {m : UInt8} (hm : m ∈ modesSent history) :
      m ∈ modesSent (history ++ [pcLoop.out p e]) := by
    rw [hsent]
    exact List.mem_append_left _ hm
  have hnew {m : UInt8} (hm : p.sent e = some m) :
      m ∈ modesSent (history ++ [pcLoop.out p e]) := by
    rw [hsent, hm]
    exact List.mem_append_right _ (List.mem_singleton_self m)
  refine ⟨next_modeRequested_lt h.requested_lt e, ?_, fun hcal => ?_, fun t ht hmem => ?_⟩
  · rw [next_modeRequested]
    cases hreq : p.requested e with
    | none => exact h.requested.imp_right hold
    | some m => exact (requested_sent hreq).imp_right hnew
  · exact (p.next_calibration e hcal).elim (fun hdone => hold (h.calibration hdone)) hnew
  · rw [hsent, List.mem_append, Option.mem_toList] at hmem
    rcases hmem with hmem | hmem
    · exact hold (h.calibrated t ht hmem)
    · exact hold ((h.restrained hmem).calibrated ⟨t, ht, rfl⟩)

/-- Every `SET_MODE` that the PC sends, in any run, asks for the mode of a key; for a mode
that needs it the sticks are at rest at that moment, or the calibration was requested
before; and a resend asks for `SAFE_MODE` or for a mode that was sent before. -/
theorem sent_restrained (now tMessageExpect : Timespec) (sendBuffer : Message)
    (pre : List PcEvent) (e : PcEvent) :
    ∀ m ∈ sentModes (pcLoop.out (pcLoop.run (start now tMessageExpect sendBuffer) pre) e),
      Restrained (pcLoop.run (start now tMessageExpect sendBuffer) pre)
        (modesSent (pcLoop.outputs (start now tMessageExpect sendBuffer) pre)) e m := by
  have hstart : (start now tMessageExpect sendBuffer).Recorded [] := by
    refine ⟨?_, Or.inl rfl, fun h => absurd h Bool.false_ne_true, fun _ _ h => ?_⟩
    · exact (by decide : (0 : UInt8) < 0x0F)
    · exact absurd h List.not_mem_nil
  have hrun := pcLoop.history_invariant (fun _ _ e h => h.next e) pre hstart
  rw [List.nil_append] at hrun
  intro m hm
  rw [sentModes_out, Option.mem_toList] at hm
  exact hrun.restrained hm

/-- The lift stick goes down, and `'2'` follows the calibration and the return to
`SAFE_MODE`. -/
theorem sent_restrained_manual :
    let stale : Message := Vector.replicate sizeofMessage 0
    let now : Timespec := ⟨1, 0⟩
    let pre : List PcEvent :=
      [.joystick now [⟨32767, 0x02, 3⟩], .keyboard now 0x33,
        .receive ((Msg.modeUpdate ModeType.calibrationMode).received stale), .keyboard now 0x30,
        .receive ((Msg.modeUpdate ModeType.safeMode).received stale)]
    Restrained (pcLoop.run (start ⟨0, 0⟩ ⟨0, 0⟩ stale) pre)
      (modesSent (pcLoop.outputs (start ⟨0, 0⟩ ⟨0, 0⟩ stale) pre)) (.keyboard now 0x32)
      ModeType.manualMode :=
  sent_restrained ⟨0, 0⟩ ⟨0, 0⟩ (Vector.replicate sizeofMessage 0) _ _ _ (by decide +kernel)

end Pc

end Quadrupel
