import Quadrupel.Gains
import Quadrupel.PcMessages
import Mathlib

/-!
# The bytes that a message's effect depends on

`handle_message` gets the length of the message and does not look at it, neither on the
drone nor on the PC : it reads the payload of the type where it is in the buffer. If the
message is shorter, the rest of its payload is what earlier messages left there.
`bytesRead` is how far the drone reads, which depends on the type and for the gains on
what the message selects, and `Pc.bytesRead` how far the PC does.

`effectLocal_iff` says that the effect of a message of `n` bytes depends on those bytes
only iff no more than `n` are read. `not_alwaysLocal` shows two streams after which a
`SET_MODE` without a payload sets two different modes.
-/

namespace Quadrupel

namespace Message

/-- The packed `int16_t` at byte `i` of the `data` field. -/
def dataInt16 (m : Message) (i : ℕ) : Int16 :=
  ((m.data i).toUInt16 + ((m.data (i + 1)).toUInt16 <<< 8)).toInt16

/-- The `calibration_data` of the union. -/
def calibrationData (m : Message) : Sensors :=
  ⟨m.dataInt16 0, m.dataInt16 2, m.dataInt16 4, m.dataInt16 6, m.dataInt16 8, m.dataInt16 10,
    m.dataInt16 12, m.dataInt16 14, m.dataInt16 16⟩

theorem data_congr {m m' : Message} {n : ℕ} (h : m'.bytes n = m.bytes n) {i : ℕ}
    (hi : i + 3 < n) : m'.data i = m.data i := by
  have hget := congrArg (fun bytes : List UInt8 => bytes[i + 3]?) h
  simp only [bytes, List.getElem?_take, if_pos hi, Vector.getElem?_toList] at hget
  simp only [data, hget]

theorem messageType_congr {m m' : Message} {n : ℕ} (h : m'.bytes n = m.bytes n) (hn : 1 ≤ n) :
    m'.messageType = m.messageType := by
  have hget := congrArg (fun bytes : List UInt8 => bytes[0]?) h
  simp only [bytes, List.getElem?_take, if_pos (Nat.zero_lt_of_lt hn),
    Vector.getElem?_toList] at hget
  simpa [messageType, sizeofMessage] using hget

/-- A byte of the payload beyond the first `n` bytes of the message. -/
theorem bytes_setData (m : Message) {n i : ℕ} (h : n ≤ i + 3) (b : UInt8) :
    (m.setData i b).bytes n = m.bytes n := by
  simp only [bytes, setData, Vector.toList_setIfInBounds, List.take_set_of_le h]

@[simp] theorem messageType_setData (m : Message) (i : ℕ) (b : UInt8) :
    (m.setData i b).messageType = m.messageType :=
  messageType_congr (m.bytes_setData (Nat.le_add_left 3 i) b) (by decide)

end Message

namespace Drone

/-- What a reply puts on the wire. -/
def replyBytes (m : Msg) : List UInt8 :=
  sendBuilt sendMessage (buildMessage m.messageType.toByte m.data)

/-- What a message in the receive buffer does : the mode that `handle_message` returns,
the globals after it, and the bytes of the reply. -/
def effect (d : Drone) (m : Message) : UInt8 × Drone × List UInt8 :=
  let (retval, d, replies) := d.handleMessage m
  (retval, d, replies.flatMap replyBytes)

/-- The effect of the message is the same in every buffer with its first `n` bytes. -/
def EffectLocal (d : Drone) (n : ℕ) (m : Message) : Prop :=
  ∀ m' : Message, m'.bytes n = m.bytes n → d.effect m' = d.effect m

theorem effect_fst (d : Drone) (m : Message) : (d.effect m).1 = (d.handleMessage m).1 :=
  rfl

/-- The second switch of `change_p_values` reads the value : an unknown mode does not, and
a gain from 126 on is not incremented. -/
def readsValue (mode : UInt8) (p : Int8) : Bool :=
  match PUpdateMode.ofByte? mode with
  | some .increment => p < 126
  | some .decrement => true
  | some .setAbsoluteValue => true
  | none => false

/-- How many bytes of the receive buffer the effect depends on. -/
def bytesRead (d : Drone) (m : Message) : ℕ :=
  match MsgType.ofByte? m.messageType with
  | some .setMode => 4
  | some .inputData => 7
  | some .setPValues =>
    match PValueSelect.ofByte? (m.data 0) with
    | some s => if readsValue (m.data 1) (d.pValue s) then 6 else 5
    | none => 4
  | _ => 1

end Drone

namespace Pc

/-- What `handle_message` of the PC prints. -/
inductive Printed
  | modeUpdate (mode : UInt8)
  | pValue (select : Option PValueSelect) (value : UInt8)
  | calibrationData (data : Sensors)
  | unsupported (messageType : UInt8)
  | nothing
deriving DecidableEq

/-- The values that `handle_message` prints. -/
def printed (m : Message) : Printed :=
  match MsgType.ofByte? m.messageType with
  | some .modeUpdate => .modeUpdate (m.data 0)
  | some .terminate => .nothing
  | some .pValuesUpdate => .pValue (PValueSelect.ofByte? (m.data 0)) (m.data 1)
  | some .calibrationData => .calibrationData m.calibrationData
  | _ => .unsupported m.messageType

/-- What a message in the receive buffer does : what `handle_message` returns and
prints. -/
def effect (m : Message) : UInt8 × Printed :=
  (handleMessage m, printed m)

/-- The effect of the message is the same in every buffer with its first `n` bytes. -/
def EffectLocal (n : ℕ) (m : Message) : Prop :=
  ∀ m' : Message, m'.bytes n = m.bytes n → effect m' = effect m

/-- How many bytes of the receive buffer the effect depends on. -/
def bytesRead (m : Message) : ℕ :=
  match MsgType.ofByte? m.messageType with
  | some .modeUpdate => 4
  | some .pValuesUpdate => 5
  | some .calibrationData => 21
  | _ => 1

end Pc

/-! ## Enough bytes -/

namespace Drone

theorem changePValue_of_not_reads {mode : UInt8} {p : Int8} (h : readsValue mode p = false)
    (value : UInt8) : changePValue mode value p = p := by
  unfold readsValue at h
  unfold changePValue
  cases hmode : PUpdateMode.ofByte? mode with
  | none => rfl
  | some m =>
    simp only [hmode] at h
    cases m with
    | increment => exact if_neg (of_decide_eq_false h)
    | decrement | setAbsoluteValue => cases h

/-- Otherwise the value decides on the gain. -/
theorem exists_changePValue_ne {mode : UInt8} {p : Int8} (h : readsValue mode p = true)
    (r : Int8) : ∃ value, changePValue mode value p ≠ r := by
  have hsome {v w : UInt8} (hvw : changePValue mode v p ≠ changePValue mode w p) :
      ∃ value, changePValue mode value p ≠ r := by
    by_cases hv : changePValue mode v p = r
    · exact ⟨w, hv ▸ hvw.symm⟩
    · exact ⟨v, hv⟩
  unfold readsValue at h
  split at h
  case h_1 hmode =>
    refine hsome (v := 0) (w := 1) ?_
    simp only [changePValue, hmode, if_pos (of_decide_eq_true h)]
    change p + 0 ≠ p + 1
    grind
  case h_2 hmode =>
    refine hsome (v := p.toUInt8) (w := (p - 1).toUInt8) ?_
    have h0 : p - p = 0 := by grind
    have h1 : p - (p - 1) = 1 := by grind
    simp only [changePValue, hmode, Int8.toInt8_toUInt8, h0, h1]
    decide
  case h_3 hmode =>
    refine hsome (v := 0) (w := 1) ?_
    simp only [changePValue, hmode]
    decide
  case h_4 => cases h

theorem changePValues_congr {d : Drone} {m m' : Message} {n : ℕ} (h : m'.bytes n = m.bytes n)
    (htype : MsgType.ofByte? m.messageType = some .setPValues) (hread : d.bytesRead m ≤ n) :
    m'.data 0 = m.data 0 ∧ d.changePValues (m.data 0) (m'.data 1) (m'.data 2) =
      d.changePValues (m.data 0) (m.data 1) (m.data 2) := by
  have hdata (i : ℕ) (hi : i + 3 < n) : m'.data i = m.data i := Message.data_congr h hi
  simp only [bytesRead, htype] at hread
  cases hs : PValueSelect.ofByte? (m.data 0) with
  | none =>
    simp only [hs] at hread
    refine ⟨hdata 0 hread, ?_⟩
    simp only [changePValues, hs]
  | some s =>
    simp only [hs] at hread
    cases hvalue : readsValue (m.data 1) (d.pValue s) with
    | true =>
      rw [hvalue, if_pos rfl] at hread
      rw [hdata 1 (by omega), hdata 2 (by omega)]
      exact ⟨hdata 0 (by omega), rfl⟩
    | false =>
      rw [hvalue, if_neg Bool.false_ne_true] at hread
      refine ⟨hdata 0 (by omega), ?_⟩
      simp only [changePValues, hdata 1 (by omega), hs, changePValue_of_not_reads hvalue]

theorem handleMessage_congr {d : Drone} {m m' : Message} {n : ℕ} (hn : 1 ≤ n)
    (h : m'.bytes n = m.bytes n) (hread : d.bytesRead m ≤ n) :
    d.handleMessage m' = d.handleMessage m := by
  have hdata (i : ℕ) (hi : i + 3 < n) : m'.data i = m.data i := Message.data_congr h hi
  have hlength := hread
  unfold handleMessage
  rw [Message.messageType_congr h hn]
  cases htype : MsgType.ofByte? m.messageType with
  | none => rfl
  | some t =>
    simp only [bytesRead, htype] at hlength
    cases t with
    | setMode =>
      have h0 := hdata 0 hlength
      simp only [h0]
    | inputData =>
      have h7 : 7 ≤ n := hlength
      have h0 := hdata 0 (by omega)
      have h1 := hdata 1 (by omega)
      have h2 := hdata 2 (by omega)
      have h3 := hdata 3 h7
      simp only [h0, h1, h2, h3]
    | setPValues =>
      obtain ⟨h0, hchange⟩ := changePValues_congr h htype hread
      simp only [h0, hchange]
    | modeUpdate | pValuesUpdate | calibrationData | motorData | batteryData | barometerData
    | terminate | loggingData => rfl

/-! ## Too few -/

theorem succ_ne (b : UInt8) : b + 1 ≠ b := by
  grind

/-- The bytes of a reply tell what it is. -/
theorem bytes_of_replyBytes {m m' : Msg} (h : replyBytes m = replyBytes m') :
    m.bytes = m'.bytes := by
  rw [replyBytes, replyBytes, Msg.drone_sendMessage, Msg.drone_sendMessage] at h
  have hframe := List.append_cancel_right (List.append_cancel_right h)
  rw [List.cons_inj_right] at hframe
  rw [← stuffing.unstuff_stuff m.bytes, hframe, stuffing.unstuff_stuff]

/-- A change of a gain is answered with what was selected. -/
theorem exists_reply {m : Message} (h : m.messageType = MsgType.setPValues.toByte) (d : Drone) :
    ∃ value, (d.effect m).2.2 = replyBytes (.pValuesUpdate (m.data 0) value) := by
  simp only [effect, handleMessage, h, MsgType.ofByte?_toByte, List.flatMap_cons,
    List.flatMap_nil, List.append_nil]
  exact ⟨_, rfl⟩

/-- Another selection is answered with another reply. -/
theorem effect_setData_ne {m : Message} (h : m.messageType = MsgType.setPValues.toByte)
    (d : Drone) : d.effect (m.setData 0 (m.data 0 + 1)) ≠ d.effect m := by
  intro heq
  obtain ⟨value, hvalue⟩ := exists_reply h d
  obtain ⟨value', hvalue'⟩ := exists_reply ((m.messageType_setData 0 _).trans h) d
  have hbytes := bytes_of_replyBytes
    (hvalue'.symm.trans ((congrArg (fun e => e.2.2) heq).trans hvalue))
  have hselect : (m.setData 0 (m.data 0 + 1)).data 0 = m.data 0 :=
    congrArg (fun bytes : List UInt8 => bytes.getD 3 0) hbytes
  rw [m.data_setData (by decide), if_pos rfl] at hselect
  exact succ_ne _ hselect

/-- If the value decides on the gain, it decides on the effect. -/
theorem exists_effect_setData_ne {d : Drone} {m : Message} {s : PValueSelect}
    (htype : m.messageType = MsgType.setPValues.toByte)
    (hs : PValueSelect.ofByte? (m.data 0) = some s)
    (hreads : readsValue (m.data 1) (d.pValue s) = true) (r : UInt8 × Drone × List UInt8) :
    ∃ value, d.effect (m.setData 2 value) ≠ r := by
  obtain ⟨value, hvalue⟩ := exists_changePValue_ne hreads (r.2.1.pValue s)
  refine ⟨value, fun heq => hvalue ?_⟩
  have hgain := congrArg (fun e => e.2.1.pValue s) heq
  have hhandle := pValue_handleMessage (m := m.setData 2 value)
    ((m.messageType_setData 2 value).trans htype) d s
  simp only [Message.data_setData m (i := 2) (by decide), if_false, if_true, hs,
    OfNat.ofNat_ne_zero, OfNat.ofNat_ne_one] at hhandle
  exact hhandle.symm.trans hgain

theorem exists_effect_ne {d : Drone} {m : Message} {n : ℕ} (hn : 1 ≤ n)
    (hread : n < d.bytesRead m) :
    ∃ m' : Message, m'.bytes n = m.bytes n ∧ d.effect m' ≠ d.effect m := by
  unfold bytesRead at hread
  split at hread
  case h_1 hmode =>
    refine ⟨m.setData 0 (m.data 0 + 1), m.bytes_setData (by omega) _, fun heq => ?_⟩
    have hretval := congrArg Prod.fst heq
    simp [effect, handleMessage, hmode, sizeofMessage] at hretval
  case h_2 hinput =>
    refine ⟨m.setData 3 (m.data 3 + 1), m.bytes_setData (by omega) _, fun heq => ?_⟩
    have hyaw := congrArg (fun e => e.2.1.yawdata.toUInt8) heq
    simp only [effect, handleMessage, Message.messageType_setData, hinput,
      Message.data_setData m (i := 3) (by decide), if_true, UInt8.toUInt8_toInt8] at hyaw
    exact succ_ne _ hyaw
  case h_3 hvalues =>
    have htype := MsgType.ofByte?_eq_some.1 hvalues
    split at hread
    case h_1 s hs =>
      split_ifs at hread with hreads
      · obtain ⟨value, hne⟩ := exists_effect_setData_ne htype hs hreads (d.effect m)
        exact ⟨m.setData 2 value, m.bytes_setData (by omega) value, hne⟩
      · -- The mode is not among the bytes, and may be one that reads the value.
        have hs' : PValueSelect.ofByte? ((m.setData 1 3).data 0) = some s := by
          rw [m.data_setData (by decide), if_neg (by decide), hs]
        have hreads' : readsValue ((m.setData 1 3).data 1) (d.pValue s) = true := by
          rw [m.data_setData (by decide), if_pos rfl]
          rfl
        obtain ⟨value, hne⟩ := exists_effect_setData_ne
          ((m.messageType_setData 1 3).trans htype) hs' hreads' (d.effect m)
        refine ⟨(m.setData 1 3).setData 2 value, ?_, hne⟩
        rw [Message.bytes_setData _ (by omega), m.bytes_setData (by omega)]
    case h_2 =>
      exact ⟨m.setData 0 (m.data 0 + 1), m.bytes_setData (by omega) _, effect_setData_ne htype d⟩
  case h_4 => omega

end Drone

/-! ## The PC -/

namespace Pc

theorem effect_congr {m m' : Message} {n : ℕ} (hn : 1 ≤ n) (h : m'.bytes n = m.bytes n)
    (hread : bytesRead m ≤ n) : effect m' = effect m := by
  have hdata (i : ℕ) (hi : i + 3 < n) : m'.data i = m.data i := Message.data_congr h hi
  unfold effect handleMessage printed
  rw [Message.messageType_congr h hn]
  cases htype : MsgType.ofByte? m.messageType with
  | none => rfl
  | some t =>
    simp only [bytesRead, htype] at hread
    cases t with
    | modeUpdate =>
      have h0 := hdata 0 hread
      simp only [h0]
    | pValuesUpdate =>
      have h5 : 5 ≤ n := hread
      have h0 := hdata 0 (by omega)
      have h1 := hdata 1 h5
      simp only [h0, h1]
    | calibrationData =>
      have h21 : 21 ≤ n := hread
      have hint (i : ℕ) (hi : i < 17) : m'.dataInt16 i = m.dataInt16 i := by
        rw [Message.dataInt16, hdata i (by omega), hdata (i + 1) (by omega)]
        rfl
      simp only [Message.calibrationData, hint 0 (by decide), hint 2 (by decide),
        hint 4 (by decide), hint 6 (by decide), hint 8 (by decide), hint 10 (by decide),
        hint 12 (by decide), hint 14 (by decide), hint 16 (by decide)]
    | setMode | inputData | setPValues | motorData | batteryData | barometerData | terminate
    | loggingData => rfl

theorem highByte_inj {b c : UInt8} (h : b.toUInt16 <<< 8 = c.toUInt16 <<< 8) : b = c := by
  have hnat := congrArg UInt16.toNat h
  have hb := b.toNat_lt
  have hc := c.toNat_lt
  simp only [UInt16.toNat_shiftLeft, UInt8.toNat_toUInt16, Nat.shiftLeft_eq] at hnat
  refine UInt8.toNat_inj.1 ?_
  change b.toNat * 2 ^ 8 % 2 ^ 16 = c.toNat * 2 ^ 8 % 2 ^ 16 at hnat
  omega

theorem exists_effect_ne {m : Message} {n : ℕ} (hn : 1 ≤ n) (hread : n < bytesRead m) :
    ∃ m' : Message, m'.bytes n = m.bytes n ∧ effect m' ≠ effect m := by
  unfold bytesRead at hread
  split at hread
  case h_1 hmode =>
    refine ⟨m.setData 0 (m.data 0 + 1), m.bytes_setData (by omega) _, fun heq => ?_⟩
    have hretval := congrArg Prod.fst heq
    simp only [effect, handleMessage, Message.messageType_setData, hmode,
      m.data_setData (i := 0) (by decide), if_true] at hretval
    exact Drone.succ_ne _ hretval
  case h_2 hvalues =>
    refine ⟨m.setData 1 (m.data 1 + 1), m.bytes_setData (by omega) _, fun heq => ?_⟩
    have hprinted := congrArg Prod.snd heq
    simp only [effect, printed, Message.messageType_setData, hvalues,
      m.data_setData (i := 1) (by decide), if_true, Printed.pValue.injEq] at hprinted
    exact Drone.succ_ne _ hprinted.2
  case h_3 hcal =>
    refine ⟨m.setData 17 (m.data 17 + 1), m.bytes_setData (by omega) _, fun heq => ?_⟩
    have hprinted := congrArg Prod.snd heq
    simp only [effect, printed, Message.messageType_setData, hcal,
      Printed.calibrationData.injEq] at hprinted
    have hsaz := congrArg (fun data => data.saz.toUInt16) hprinted
    have h16 : (m.setData 17 (m.data 17 + 1)).data 16 = m.data 16 := by
      rw [m.data_setData (by decide), if_neg (by decide)]
    have h17 : (m.setData 17 (m.data 17 + 1)).data 17 = m.data 17 + 1 := by
      rw [m.data_setData (by decide), if_pos rfl]
    simp only [Message.calibrationData, Message.dataInt16, h16, h17] at hsaz
    exact Drone.succ_ne _ (highByte_inj ((UInt16.add_right_inj _).1 hsaz))
  case h_4 => omega

end Pc

/-- The effect of a message depends on its bytes only iff it is as long as what the
handler reads. -/
theorem effectLocal_iff {n : ℕ} (hn : 1 ≤ n) (m : Message) (d : Drone) :
    (d.EffectLocal n m ↔ d.bytesRead m ≤ n) ∧ (Pc.EffectLocal n m ↔ Pc.bytesRead m ≤ n) := by
  refine ⟨⟨fun h => ?_, fun hread m' hm' => ?_⟩, ⟨fun h => ?_, fun hread m' hm' => ?_⟩⟩
  · by_contra hread
    obtain ⟨m', hm', hne⟩ := Drone.exists_effect_ne hn (not_le.1 hread)
    exact hne (h m' hm')
  · rw [Drone.effect, Drone.handleMessage_congr hn hm' hread]
    rfl
  · by_contra hread
    obtain ⟨m', hm', hne⟩ := Pc.exists_effect_ne hn (not_le.1 hread)
    exact hne (h m' hm')
  · exact Pc.effect_congr hn hm' hread

/-- The four bytes of a `SET_MODE` are all that the drone reads of it. -/
theorem effectLocal_iff_setMode : (Drone.powerUp 0).EffectLocal 4 (buildMessage 1 [2]).2 :=
  (effectLocal_iff (by decide) (buildMessage 1 [2]).2 (Drone.powerUp 0)).1.2 (by decide +kernel)

/-- `parse_message` returns `n`, with `m` in the buffer, at the end of some stream. -/
def Accepted (n : ℕ) (m : Message) : Prop :=
  0 < n ∧ ∃ (buffer : Message) (stream : List UInt8) (c : UInt8),
    (parseMessage c (parser.run ⟨0, false, buffer⟩ stream)).1 = n ∧
      (parseMessage c (parser.run ⟨0, false, buffer⟩ stream)).2.buffer = m

/-- Messages that the parser returns with the same bytes have the same effect. -/
def AlwaysLocal : Prop :=
  ∀ (n : ℕ) (m m' : Message) (d : Drone), Accepted n m → Accepted n m' →
    m'.bytes n = m.bytes n → d.effect m' = d.effect m ∧ Pc.effect m' = Pc.effect m

/-- A `SET_MODE` without its payload, less the `END_BYTE`. -/
def shortSetMode : List UInt8 :=
  (Pc.sendMessage (buildMessage 1 []).2 3).dropLast

/-- Input data with the lift 2, and after them a `SET_MODE` without its payload. -/
def staleSetMode : List UInt8 :=
  Pc.sendMessage (buildMessage 3 [2, 0, 0, 0]).2 7 ++ shortSetMode

/-- After the input data, the lift is the mode that the message sets. -/
theorem not_alwaysLocal : ¬AlwaysLocal := by
  intro h
  let zeros : Message := Vector.replicate 45 0
  let m := (parser.run ⟨0, false, zeros⟩ (shortSetMode ++ [endByte])).buffer
  let m' := (parser.run ⟨0, false, zeros⟩ (staleSetMode ++ [endByte])).buffer
  have hm : Accepted 3 m := ⟨by decide, zeros, shortSetMode, endByte, by decide +kernel,
    by decide +kernel⟩
  have hm' : Accepted 3 m' := ⟨by decide, zeros, staleSetMode, endByte, by decide +kernel,
    by decide +kernel⟩
  have hbytes : m'.bytes 3 = m.bytes 3 := by decide +kernel
  have hretval := congrArg Prod.fst (h 3 m m' (.powerUp 0) hm hm' hbytes).1
  have hmodes : ((Drone.powerUp 0).handleMessage m).1 = 0 ∧
      ((Drone.powerUp 0).handleMessage m').1 = 2 := by
    decide +kernel
  rw [Drone.effect_fst, Drone.effect_fst, hmodes.1, hmodes.2] at hretval
  exact absurd hretval (by decide)

end Quadrupel
