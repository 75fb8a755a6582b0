import Quadrupel.DroneMain

/-!
# The gains

`change_p_values` stores a byte from the message in a signed gain, or adds or subtracts
it, and checks for an overflow on one side only : before it adds, and after it
subtracts. As long as the result of the sum and of the difference fit in an `int8_t` and
an absolute value is at most 127, the gains stay between 0 and 127 and every message does
what it asks for. Otherwise the value wraps, past every check, and the message fails at
once (`changesSanely_iff`).
-/

open Set

namespace Quadrupel

namespace Drone

/-- Every gain lies between 0 and 127. -/
def GainsInRange (d : Drone) : Prop :=
  ∀ s, (d.pValue s).toInt ∈ Icc 0 127

/-- What a `MSG_SET_P_VALUES` in the receive buffer is to do. -/
structure ChangesGains (d : Drone) (m : Message) : Prop where
  range : (d.handleMessage m).2.1.GainsInRange
  increment : ∀ s, PValueSelect.ofByte? (m.data 0) = some s →
    PUpdateMode.ofByte? (m.data 1) = some .increment →
      d.pValue s ≤ (d.handleMessage m).2.1.pValue s
  decrement : ∀ s, PValueSelect.ofByte? (m.data 0) = some s →
    PUpdateMode.ofByte? (m.data 1) = some .decrement →
      (d.handleMessage m).2.1.pValue s ≤ d.pValue s
  absolute : ∀ s, PValueSelect.ofByte? (m.data 0) = some s →
    PUpdateMode.ofByte? (m.data 1) = some .setAbsoluteValue →
      ((d.handleMessage m).2.1.pValue s).toInt = min 127 ((m.data 2).toNat : ℤ)
  other : ∀ s, PValueSelect.ofByte? (m.data 0) ≠ some s →
    (d.handleMessage m).2.1.pValue s = d.pValue s
  unknown : PUpdateMode.ofByte? (m.data 1) = none →
    ∀ s, (d.handleMessage m).2.1.pValue s = d.pValue s
  reply : ∀ s, PValueSelect.ofByte? (m.data 0) = some s → ∃ value : UInt8,
    (d.handleMessage m).2.2 = [.pValuesUpdate (m.data 0) value] ∧
      (value.toNat : ℤ) = ((d.handleMessage m).2.1.pValue s).toInt

/-- The value does not wrap : a sum fits in an `int8_t` unless the gain is too large to be
incremented at all, a difference fits, and an absolute value does. -/
structure FitsInt8 (p : Int8) (mode value : UInt8) : Prop where
  increment : PUpdateMode.ofByte? mode = some .increment → p.toInt < 126 →
    p.toInt + value.toNat ≤ 127
  decrement : PUpdateMode.ofByte? mode = some .decrement → -128 ≤ p.toInt - value.toNat
  absolute : PUpdateMode.ofByte? mode = some .setAbsoluteValue → value.toNat ≤ 127

/-- The event, if it is a `MSG_SET_P_VALUES`, changes the gains as it is to do. -/
def ChangesSanely (d : Drone) : DroneEvent → Prop
  | .message m _ => m.messageType = MsgType.setPValues.toByte → d.ChangesGains m
  | _ => True

/-- The event is no `MSG_SET_P_VALUES` whose value wraps on the gain that it selects. -/
def NoWrap (d : Drone) : DroneEvent → Prop
  | .message m _ => m.messageType = MsgType.setPValues.toByte →
    ∀ s, PValueSelect.ofByte? (m.data 0) = some s → FitsInt8 (d.pValue s) (m.data 1) (m.data 2)
  | _ => True

theorem zero_mem_gains : (0 : Int8).toInt ∈ Icc 0 127 := by
  decide

/-! ## The bytes -/

theorem toInt_toInt8 (v : UInt8) : v.toInt8.toInt = (v.toNat : ℤ).bmod 256 :=
  BitVec.toInt_eq_toNat_bmod v.toBitVec

theorem toInt_add_toInt8 (p : Int8) (v : UInt8) :
    (p + v.toInt8).toInt = (p.toInt + v.toNat).bmod 256 := by
  rw [Int8.toInt_add, toInt_toInt8]
  exact Int.add_bmod_bmod

theorem toInt_sub_toInt8 (p : Int8) (v : UInt8) :
    (p - v.toInt8).toInt = (p.toInt - v.toNat).bmod 256 := by
  rw [Int8.toInt_sub, toInt_toInt8]
  exact Int.sub_bmod_bmod

/-- A sum of a gain and a byte wraps to a negative value or to a smaller one. -/
theorem le_add_toInt8_iff {p : Int8} (hp : 0 ≤ p.toInt) (v : UInt8) :
    0 ≤ (p + v.toInt8).toInt ∧ p.toInt ≤ (p + v.toInt8).toInt ↔ p.toInt + v.toNat ≤ 127 := by
  have hlt := v.toNat_lt
  have hhi := p.toInt_lt
  rw [toInt_add_toInt8, Int.bmod_def]
  split_ifs <;> omega

/-- A difference that wraps becomes larger than the gain. -/
theorem sub_toInt8_le_iff {p : Int8} (hp : 0 ≤ p.toInt) (v : UInt8) :
    (p - v.toInt8).toInt ≤ p.toInt ↔ -128 ≤ p.toInt - v.toNat := by
  have hlt := v.toNat_lt
  have hhi := p.toInt_lt
  rw [toInt_sub_toInt8, Int.bmod_def]
  split_ifs <;> omega

theorem toInt_toInt8_eq_min_iff (v : UInt8) :
    v.toInt8.toInt = min 127 (v.toNat : ℤ) ↔ v.toNat ≤ 127 := by
  have hlt := v.toNat_lt
  rw [toInt_toInt8, Int.bmod_def]
  split_ifs <;> omega

/-! ## One gain -/

/-- The gain after a change of `p` is not negative, and has moved the way that the mode
says. -/
structure ChangesGain (p : Int8) (mode value : UInt8) : Prop where
  nonneg : 0 ≤ (changePValue mode value p).toInt
  increment : PUpdateMode.ofByte? mode = some .increment → p ≤ changePValue mode value p
  decrement : PUpdateMode.ofByte? mode = some .decrement → changePValue mode value p ≤ p
  absolute : PUpdateMode.ofByte? mode = some .setAbsoluteValue →
    (changePValue mode value p).toInt = min 127 (value.toNat : ℤ)

/-- An increment that does not take place lowers nothing. -/
theorem le_changePValue_iff {p : Int8} (hp : 0 ≤ p.toInt) {mode : UInt8}
    (hmode : PUpdateMode.ofByte? mode = some .increment) (value : UInt8) :
    0 ≤ (changePValue mode value p).toInt ∧ p ≤ changePValue mode value p ↔
      (p.toInt < 126 → p.toInt + value.toNat ≤ 127) := by
  have hchange : changePValue mode value p = if p < 126 then p + value.toInt8 else p := by
    simp only [changePValue, hmode]
  have h126 : p < 126 ↔ p.toInt < 126 := Int8.lt_iff_toInt_lt
  rw [hchange]
  split_ifs with hlt
  · rw [Int8.le_iff_toInt_le, le_add_toInt8_iff hp value]
    exact ⟨fun h _ => h, fun h => h (h126.1 hlt)⟩
  · exact ⟨fun _ h => absurd (h126.2 h) hlt, fun _ => ⟨hp, Int8.le_refl p⟩⟩

theorem changePValue_nonneg (p : Int8) {mode : UInt8}
    (hmode : PUpdateMode.ofByte? mode = some .decrement) (value : UInt8) :
    0 ≤ (changePValue mode value p).toInt := by
  have hneg : p - value.toInt8 < 0 ↔ (p - value.toInt8).toInt < 0 := Int8.lt_iff_toInt_lt
  simp only [changePValue, hmode]
  split_ifs with hlow
  · exact le_rfl
  · exact not_lt.1 fun h => hlow (hneg.2 h)

/-- A decrement that stops at 0 does not raise the gain, and neither does a difference that
does not wrap. -/
theorem changePValue_le_iff {p : Int8} (hp : 0 ≤ p.toInt) {mode : UInt8}
    (hmode : PUpdateMode.ofByte? mode = some .decrement) (value : UInt8) :
    changePValue mode value p ≤ p ↔ -128 ≤ p.toInt - value.toNat := by
  have hneg : p - value.toInt8 < 0 ↔ (p - value.toInt8).toInt < 0 := Int8.lt_iff_toInt_lt
  have hzero : (0 : Int8).toInt = 0 := rfl
  rw [Int8.le_iff_toInt_le, ← sub_toInt8_le_iff hp value]
  simp only [changePValue, hmode]
  split_ifs with hlow
  · have hlow := hneg.1 hlow
    omega
  · rfl

theorem changePValue_eq_min_iff (p : Int8) {mode : UInt8}
    (hmode : PUpdateMode.ofByte? mode = some .setAbsoluteValue) (value : UInt8) :
    (changePValue mode value p).toInt = min 127 (value.toNat : ℤ) ↔ value.toNat ≤ 127 := by
  simp only [changePValue, hmode]
  exact toInt_toInt8_eq_min_iff value

theorem changesGain_iff {p : Int8} (hp : 0 ≤ p.toInt) (mode value : UInt8) :
    ChangesGain p mode value ↔ FitsInt8 p mode value := by
  constructor
  · rintro ⟨hnonneg, hup, hdown, habs⟩
    refine ⟨fun hmode => ?_, fun hmode => ?_, fun hmode => ?_⟩
    · exact (le_changePValue_iff hp hmode value).1 ⟨hnonneg, hup hmode⟩
    · exact (changePValue_le_iff hp hmode value).1 (hdown hmode)
    · exact (changePValue_eq_min_iff p hmode value).1 (habs hmode)
  · rintro ⟨hup, hdown, habs⟩
    refine ⟨?_, fun hmode => ?_, fun hmode => ?_, fun hmode => ?_⟩
    · cases hmode : PUpdateMode.ofByte? mode with
      | none => simpa only [changePValue, hmode] using hp
      | some m =>
        cases m with
        | increment => exact ((le_changePValue_iff hp hmode value).2 (hup hmode)).1
        | decrement => exact changePValue_nonneg p hmode value
        | setAbsoluteValue =>
          rw [(changePValue_eq_min_iff p hmode value).2 (habs hmode)]
          omega
    · exact ((le_changePValue_iff hp hmode value).2 (hup hmode)).2
    · exact (changePValue_le_iff hp hmode value).2 (hdown hmode)
    · exact (changePValue_eq_min_iff p hmode value).2 (habs hmode)

/-! ## One message -/

theorem pValue_setPValue (d : Drone) (s t : PValueSelect) (value : Int8) :
    (d.setPValue s value).pValue t = if t = s then value else d.pValue t := by
  cases s <;> cases t <;> rfl

/-- The handler changes the gain that is selected. -/
theorem pValue_handleMessage {m : Message} (h : m.messageType = MsgType.setPValues.toByte)
    (d : Drone) (s : PValueSelect) : (d.handleMessage m).2.1.pValue s =
      if PValueSelect.ofByte? (m.data 0) = some s then
        changePValue (m.data 1) (m.data 2) (d.pValue s)
      else d.pValue s := by
  simp only [handleMessage, h, MsgType.ofByte?_toByte, changePValues]
  cases hselect : PValueSelect.ofByte? (m.data 0) with
  | none => simp
  | some t =>
    simp only [pValue_setPValue, Option.some_inj]
    by_cases hst : s = t
    · rw [if_pos hst, if_pos hst.symm, hst]
    · rw [if_neg hst, if_neg (Ne.symm hst)]

/-- No other message changes a gain. -/
theorem pValue_handleMessage_other {m : Message}
    (h : m.messageType ≠ MsgType.setPValues.toByte) (d : Drone) (s : PValueSelect) :
    (d.handleMessage m).2.1.pValue s = d.pValue s := by
  unfold handleMessage
  split
  · rfl
  · cases s <;> rfl
  · next htype => exact absurd (MsgType.ofByte?_eq_some.1 htype) h
  · rfl

/-- It answers with the gain after the change. -/
theorem replies_handleMessage {m : Message} (h : m.messageType = MsgType.setPValues.toByte)
    (d : Drone) {s : PValueSelect} (hs : PValueSelect.ofByte? (m.data 0) = some s) :
    (d.handleMessage m).2.2 =
      [.pValuesUpdate (m.data 0) ((d.handleMessage m).2.1.pValue s).toUInt8] := by
  simp only [handleMessage, h, MsgType.ofByte?_toByte, pValuesUpdate, hs]

theorem toNat_toUInt8_of_nonneg {p : Int8} (hp : 0 ≤ p.toInt) :
    (p.toUInt8.toNat : ℤ) = p.toInt := by
  have hbyte := toInt_toInt8 p.toUInt8
  have hlt := p.toUInt8.toNat_lt
  rw [Int8.toInt8_toUInt8, Int.bmod_def] at hbyte
  split_ifs at hbyte <;> omega

theorem changesGains_iff {d : Drone} (hd : d.GainsInRange) {m : Message}
    (h : m.messageType = MsgType.setPValues.toByte) :
    d.ChangesGains m ↔ ∀ s, PValueSelect.ofByte? (m.data 0) = some s →
      FitsInt8 (d.pValue s) (m.data 1) (m.data 2) := by
  have hselected (s : PValueSelect) (hs : PValueSelect.ofByte? (m.data 0) = some s) :
      (d.handleMessage m).2.1.pValue s = changePValue (m.data 1) (m.data 2) (d.pValue s) := by
    rw [pValue_handleMessage h, if_pos hs]
  constructor
  · intro hchanges s hs
    refine (changesGain_iff (hd s).1 _ _).1 ⟨?_, fun hmode => ?_, fun hmode => ?_, fun hmode => ?_⟩
    · exact hselected s hs ▸ (hchanges.range s).1
    · exact hselected s hs ▸ hchanges.increment s hs hmode
    · exact hselected s hs ▸ hchanges.decrement s hs hmode
    · exact hselected s hs ▸ hchanges.absolute s hs hmode
  · intro hfits
    have hgain (s : PValueSelect) (hs : PValueSelect.ofByte? (m.data 0) = some s) :
        ChangesGain (d.pValue s) (m.data 1) (m.data 2) :=
      (changesGain_iff (hd s).1 _ _).2 (hfits s hs)
    have hother (s : PValueSelect) (hs : PValueSelect.ofByte? (m.data 0) ≠ some s) :
        (d.handleMessage m).2.1.pValue s = d.pValue s := by
      rw [pValue_handleMessage h, if_neg hs]
    have hrange : (d.handleMessage m).2.1.GainsInRange := by
      intro s
      by_cases hs : PValueSelect.ofByte? (m.data 0) = some s
      · rw [hselected s hs]
        exact ⟨(hgain s hs).nonneg, Int.le_of_lt_add_one (Int8.toInt_lt _)⟩
      · rw [hother s hs]
        exact hd s
    refine ⟨hrange, fun s hs hmode => ?_, fun s hs hmode => ?_, fun s hs hmode => ?_, hother,
      fun hmode s => ?_, fun s hs => ⟨_, replies_handleMessage h d hs, ?_⟩⟩
    · exact (hselected s hs).symm ▸ (hgain s hs).increment hmode
    · exact (hselected s hs).symm ▸ (hgain s hs).decrement hmode
    · exact (hselected s hs).symm ▸ (hgain s hs).absolute hmode
    · rw [pValue_handleMessage h]
      simp only [changePValue, hmode, ite_self]
    · exact toNat_toUInt8_of_nonneg (hrange s).1

/-! ## Every run -/

theorem changesSanely_step_iff {d : Drone} (hd : d.GainsInRange) (e : DroneEvent) :
    d.ChangesSanely e ↔ d.NoWrap e := by
  cases e with
  | message m now => exact forall_congr' fun h => changesGains_iff hd h
  | control | timer => exact Iff.rfl

theorem pValue_controlTick (d : Drone) (sensors : Sensors) (s : PValueSelect) :
    (d.controlTick sensors).1.pValue s = d.pValue s := by
  obtain ⟨_, _, _, _, _, _, _, _, _, _, h⟩ := d.controlTick_eq sensors
  rw [h]
  cases s <;> rfl

theorem pValue_checkTimer (d : Drone) (batVolt : UInt16) (now : UInt32) (s : PValueSelect) :
    (d.checkTimer batVolt now).pValue s = d.pValue s := by
  obtain ⟨_, _, _, h⟩ := d.checkTimer_eq batVolt now
  rw [h]
  cases s <;> rfl

theorem GainsInRange.next {d : Drone} (hd : d.GainsInRange) {e : DroneEvent} (he : d.NoWrap e) :
    (droneLoop.next d e).GainsInRange := by
  intro s
  cases e with
  | control sensors =>
    rw [droneLoop, pValue_controlTick]
    exact hd s
  | message m now =>
    have hsame : (droneLoop.next d (.message m now)).pValue s =
        (d.handleMessage m).2.1.pValue s := by
      cases s <;> rfl
    rw [hsame]
    by_cases h : m.messageType = MsgType.setPValues.toByte
    · exact ((changesGains_iff hd h).2 (he h)).range s
    · rw [pValue_handleMessage_other h]
      exact hd s
  | timer batVolt now =>
    rw [droneLoop, pValue_checkTimer]
    exact hd s

/-- In a run from power-up every message changes the gains as it is to do iff none carries
a value that wraps. -/
theorem changesSanely_iff (now : UInt32) (es : List DroneEvent) :
    droneLoop.Along ChangesSanely (powerUp now) es ↔ droneLoop.Along NoWrap (powerUp now) es := by
  have hstart : (powerUp now).GainsInRange := by
    intro s
    cases s <;> exact zero_mem_gains
  have hiff (d : Drone) (e : DroneEvent) (hd : d.GainsInRange) : d.ChangesSanely e ↔ d.NoWrap e :=
    changesSanely_step_iff hd e
  exact droneLoop.along_iff_of_invariant hiff (fun _ _ hd he => hd.next he) es hstart

/-- Every message of every run changes the gains as it is to do. -/
def GainsStaySane : Prop :=
  ∀ (now : UInt32) (es : List DroneEvent), droneLoop.Along ChangesSanely (powerUp now) es

/-- An increment by 200 makes the gain -56. -/
theorem not_gainsStaySane : ¬GainsStaySane := by
  intro h
  let stale : Message := Vector.replicate sizeofMessage 0
  have hchanges := (h 0 [.message ((Msg.setPValues 1 1 200).received stale) 0]).1
    (by decide +kernel)
  have hnonneg := (hchanges.range .pYawControl).1
  revert hnonneg
  decide +kernel

end Drone

end Quadrupel
