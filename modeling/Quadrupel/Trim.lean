import Quadrupel.PcMain

/-!
# Sticks, trims and what is sent

The PC adds a trim to each stick and sends the sum, cut off at 127 and -127. Both are
stored in an `int8_t`, which no one guards : the lift is the negation of a byte, and a
trim counts key presses. So the bytes that are added are the stick and the trim modulo
256, and one pair of bytes, -128 and 0, passes the check with its sum out of range.

`sent_iff` says for every history of joystick events and keys when the value sent is
the sum of stick and trim all the same, cut off : if the bytes have the same sum, or
one beyond the same end, and are not that pair. The histories are those of the PC's `main`
too (`joystick_pcLoop`).
-/

namespace Quadrupel

/-- What moves the sticks and the trims : an event of the joystick, or a key that is
passed to `select_message`. -/
inductive StickEvent
  | js (e : JsEvent)
  | key (c : UInt8)
deriving DecidableEq, Repr

/-! ## The history of an axis -/

namespace Axis

/-- The key that moves the trim up. -/
def up : Axis → UInt8
  | roll => 0x73 -- 's'
  | pitch => 0x63 -- 'c'
  | yaw => 0x77 -- 'w'
  | lift => 0x61 -- 'a'

/-- The key that moves it down. -/
def down : Axis → UInt8
  | roll => 0x78 -- 'x'
  | pitch => 0x64 -- 'd'
  | yaw => 0x71 -- 'q'
  | lift => 0x7A -- 'z'

/-- The value that the event gives the axis, if it is one of the axis. -/
def value? (axis : Axis) : StickEvent → Option Int16
  | .js e =>
    if e.type &&& ~~~0x80 = 0x02 ∧ e.number.toNat = axis.index.val then some e.value else none
  | .key _ => none

/-- The last value of the axis. -/
def last? (axis : Axis) (es : List StickEvent) : Option Int16 :=
  (es.filterMap axis.value?).getLast?

/-- A value scaled to the range of a byte; the lift is inverted. -/
def scale (axis : Axis) (value : Int16) : ℤ :=
  match axis with
  | lift => -value.toInt.tdiv 256
  | roll | pitch | yaw => value.toInt.tdiv 256

/-- The stick, in integers : 0 before any event. -/
def stick (axis : Axis) (es : List StickEvent) : ℤ :=
  ((axis.last? es).map axis.scale).getD 0

/-- The trim, in integers : how often it was moved up, less how often it was moved down. -/
def trim (axis : Axis) (es : List StickEvent) : ℤ :=
  (es.count (.key axis.up) : ℤ) - es.count (.key axis.down)

/-- The byte that holds the stick. -/
def storedStick (axis : Axis) (es : List StickEvent) : ℤ :=
  (axis.stick es).bmod 256

/-- The byte that holds the trim. -/
def storedTrim (axis : Axis) (es : List StickEvent) : ℤ :=
  (axis.trim es).bmod 256

/-- The bytes have the same sum as the stick and the trim, or one beyond the same end, and
are not the pair that the check lets through. -/
structure InputKept (axis : Axis) (es : List StickEvent) : Prop where
  check : ¬(axis.storedStick es = -128 ∧ axis.storedTrim es = 0)
  sum : axis.storedStick es + axis.storedTrim es = axis.stick es + axis.trim es ∨
    127 ≤ axis.storedStick es + axis.storedTrim es ∧ 127 ≤ axis.stick es + axis.trim es ∨
      axis.storedStick es + axis.storedTrim es ≤ -127 ∧ axis.stick es + axis.trim es ≤ -127

end Axis

/-- The values that can be sent. -/
def clampInput (x : ℤ) : ℤ :=
  max (-127) (min 127 x)

namespace Pc

/-- What a case of `select_message` adds to the offset of the axis. -/
def KeyAction.offset (axis : Axis) : KeyAction → Int8
  | .trim a offset => if a = axis then offset else 0
  | _ => 0

end Pc

namespace Joystick

/-- The globals as they start. -/
def start : Joystick :=
  ⟨fun _ => 0, fun _ => 0, fun _ => 0⟩

/-- The part of `select_message` that moves the offsets. -/
def moveOffsets (js : Joystick) (c : UInt8) : Joystick :=
  { js with axisOffsets := fun axis => js.axisOffsets axis + (Pc.keyAction c).offset axis }

end Joystick

/-- The machine that reads joystick events and keys. -/
def sticks : Machine Joystick StickEvent Unit where
  next js
    | .js e => js.readEvent e
    | .key c => js.moveOffsets c
  out _ _ := ()

/-- The value that is placed in the `INPUT_DATA` message for the axis. -/
def sentValue (axis : Axis) (es : List StickEvent) : Int8 :=
  (sticks.run .start es).axisTotals axis

/-! ## What is stored -/

theorem offset_keyAction (axis : Axis) (c : UInt8) : ((Pc.keyAction c).offset axis).toInt =
    (if c = axis.up then 1 else 0) - (if c = axis.down then 1 else 0) := by
  have htable : ∀ k < 256, ((Pc.keyAction (UInt8.ofNat k)).offset axis).toInt =
      (if UInt8.ofNat k = axis.up then 1 else 0) -
        (if UInt8.ofNat k = axis.down then 1 else 0) := by
    cases axis <;> decide +kernel
  have hc := htable c.toNat c.toNat_lt
  rwa [UInt8.ofNat_toNat] at hc

namespace Axis

theorem last?_concat (axis : Axis) (es : List StickEvent) (e : StickEvent) :
    axis.last? (es ++ [e]) = (axis.value? e).or (axis.last? es) := by
  unfold last?
  cases h : axis.value? e <;> simp [h]

theorem trim_concat_key (axis : Axis) (es : List StickEvent) (c : UInt8) :
    axis.trim (es ++ [.key c]) = axis.trim es + ((Pc.keyAction c).offset axis).toInt := by
  have hcount (k : UInt8) : ((es ++ [StickEvent.key c]).count (.key k) : ℤ) =
      es.count (.key k) + if c = k then 1 else 0 := by
    rw [List.count_append, List.count_singleton]
    split_ifs with h h' h' <;> simp_all
  rw [trim, trim, hcount, hcount, offset_keyAction]
  ring

theorem trim_concat_js (axis : Axis) (es : List StickEvent) (e : JsEvent) :
    axis.trim (es ++ [.js e]) = axis.trim es := by
  simp [trim]

end Axis

/-- An event stores the stick of the axis that it is one of. -/
theorem axisSmall_readEvent (js : Joystick) (e : JsEvent) (axis : Axis) :
    (js.readEvent e).axisSmall axis.index =
      ((axis.value? (.js e)).map fun v => Int8.ofInt (axis.scale v)).getD
        (js.axisSmall axis.index) := by
  have hvalue : axis.value? (.js e) =
      if (e.type &&& ~~~0x80).toNat = 0x02 ∧ e.number.toNat = axis.index.val then some e.value
      else none :=
    if_congr (and_congr_left fun _ => UInt8.toNat_inj.symm) rfl rfl
  rw [hvalue]
  unfold Joystick.readEvent
  split
  · next htype =>
    rw [htype, if_neg (by simp)]
    split_ifs <;> rfl
  · next htype =>
    by_cases hnumber : e.number.toNat = axis.index.val
    · have hlift : e.number = 3 ↔ axis = .lift := by
        rw [← UInt8.toNat_inj, hnumber]
        cases axis <;> decide
      have hlt : e.number.toNat < 6 := hnumber.trans_lt axis.index.isLt
      have hindex : axis.index = ⟨e.number.toNat, hlt⟩ := Fin.ext hnumber.symm
      rw [if_pos ⟨htype, hnumber⟩, dif_pos hlt]
      simp only [Joystick.setAxis, hindex, if_true, Option.map_some, Option.getD_some, hlift]
      cases axis with
      | lift => exact (Int8.ofInt_neg _).symm
      | roll | pitch | yaw => rfl
    · rw [if_neg fun h => hnumber h.2]
      by_cases hlt : e.number.toNat < 6
      · rw [dif_pos hlt]
        exact if_neg fun h => hnumber (congrArg Fin.val h).symm
      · rw [dif_neg hlt]
        rfl
  · next htype =>
    rw [if_neg fun h => htype h.1]
    rfl

theorem axisOffsets_readEvent (js : Joystick) (e : JsEvent) :
    (js.readEvent e).axisOffsets = js.axisOffsets := by
  unfold Joystick.readEvent
  split
  · split_ifs <;> rfl
  · split_ifs <;> rfl
  · rfl

theorem axisSmall_run (axis : Axis) (es : List StickEvent) :
    (sticks.run .start es).axisSmall axis.index = Int8.ofInt (axis.stick es) := by
  induction es using List.reverseRecOn with
  | nil => rfl
  | append_singleton es e ih =>
    rw [Machine.run_append, Axis.stick, Axis.last?_concat]
    cases e with
    | js e =>
      refine (axisSmall_readEvent _ e axis).trans ?_
      cases axis.value? (.js e) with
      | none => exact ih
      | some v => rfl
    | key c => exact ih

theorem axisOffsets_run (axis : Axis) (es : List StickEvent) :
    (sticks.run .start es).axisOffsets axis = Int8.ofInt (axis.trim es) := by
  induction es using List.reverseRecOn with
  | nil => rfl
  | append_singleton es e ih =>
    rw [Machine.run_append]
    cases e with
    | js e =>
      rw [axis.trim_concat_js]
      exact (congrFun (axisOffsets_readEvent _ e) axis).trans ih
    | key c =>
      rw [axis.trim_concat_key, Int8.ofInt_add, Int8.ofInt_toInt, ← ih]
      rfl

/-! ## What is sent -/

/-- The sum of two bytes is cut off, unless they are the pair that the check lets
through. -/
theorem toInt_axisTotal (x y : Int8) : (Joystick.axisTotal x y).toInt =
    if x.toInt = -128 ∧ y.toInt = 0 then -128 else clampInput (x.toInt + y.toInt) := by
  have hx : -2 ^ 7 ≤ x.toInt := x.le_toInt
  have hx' : x.toInt < 2 ^ 7 := x.toInt_lt
  have hzero : (0 : Int8).toInt = 0 := rfl
  unfold Joystick.axisTotal clampInput
  simp only [gt_iff_lt, Int8.lt_iff_toInt_lt, hzero]
  split_ifs with hhigh hpair hlow hpair hpair
  · omega
  · have h127 : (127 : Int8).toInt = 127 := rfl
    omega
  · omega
  · have h127 : (-127 : Int8).toInt = -127 := rfl
    omega
  · rw [hpair.1, hpair.2]
    rfl
  · rw [Int8.toInt_ofInt_of_le (by omega) (by omega)]
    omega

/-- `sendInput` sends the four sums. -/
theorem sent_sendInput (p : Pc) : p.sendInput.2 =
    [.inputData (p.joystick.axisTotals .lift) (p.joystick.axisTotals .roll)
      (p.joystick.axisTotals .pitch) (p.joystick.axisTotals .yaw)] := by
  simp [Pc.sendInput, Pc.buildAndSendMessage, Message.toSend?, sizeofMessage]

theorem toInt_sentValue (axis : Axis) (es : List StickEvent) : (sentValue axis es).toInt =
    if axis.storedStick es = -128 ∧ axis.storedTrim es = 0 then -128
    else clampInput (axis.storedStick es + axis.storedTrim es) := by
  rw [sentValue, Joystick.axisTotals, toInt_axisTotal, axisSmall_run, axisOffsets_run,
    Int8.toInt_ofInt, Int8.toInt_ofInt]
  rfl

theorem toInt_sentValue_iff (axis : Axis) (es : List StickEvent) :
    (sentValue axis es).toInt = clampInput (axis.stick es + axis.trim es) ↔
      axis.InputKept es := by
  rw [toInt_sentValue]
  constructor
  · intro h
    split_ifs at h with hpair
    · exact absurd h (by unfold clampInput; omega)
    · refine ⟨hpair, ?_⟩
      unfold clampInput at h
      omega
  · rintro ⟨hcheck, hsum⟩
    rw [if_neg hcheck]
    unfold clampInput
    omega

namespace Axis

theorem clampInput_mono {x y : ℤ} (h : x ≤ y) : clampInput x ≤ clampInput y :=
  max_le_max_left _ (min_le_min_left _ h)

theorem trim_concat_up (axis : Axis) (es : List StickEvent) :
    axis.trim es ≤ axis.trim (es ++ [.key axis.up]) := by
  rw [trim_concat_key, offset_keyAction]
  cases axis <;> simp [up, down]

theorem trim_concat_down (axis : Axis) (es : List StickEvent) :
    axis.trim (es ++ [.key axis.down]) ≤ axis.trim es := by
  rw [trim_concat_key, offset_keyAction]
  cases axis <;> simp [up, down]

theorem stick_concat_key (axis : Axis) (es : List StickEvent) (c : UInt8) :
    axis.stick (es ++ [.key c]) = axis.stick es := by
  rw [stick, last?_concat]
  rfl

/-- The lift stick goes up as its value goes down. -/
theorem stick_concat_lift {es : List StickEvent} {e : JsEvent} {v w : Int16}
    (hlast : lift.last? es = some v) (he : lift.value? (.js e) = some w) (hvw : w ≤ v) :
    lift.stick es ≤ lift.stick (es ++ [.js e]) := by
  have hstick : lift.stick es = -v.toInt.tdiv 256 := by
    rw [stick, hlast]
    rfl
  have hstick' : lift.stick (es ++ [.js e]) = -w.toInt.tdiv 256 := by
    rw [stick, last?_concat, he]
    rfl
  rw [hstick, hstick']
  exact neg_le_neg (Int.tdiv_le_tdiv (by norm_num) (Int16.le_iff_toInt_le.1 hvw))

end Axis

/-- For every history, the message carries for each axis the sum of its stick and its
trim, cut off, iff the bytes keep it; and where they do, a trim key does not move the value
the other way, nor does the lift stick. -/
theorem sent_iff (es : List StickEvent) :
    (∀ p : Pc, ({ p with joystick := sticks.run .start es } : Pc).sendInput.2 =
      [.inputData (sentValue .lift es) (sentValue .roll es) (sentValue .pitch es)
        (sentValue .yaw es)]) ∧
      (∀ axis : Axis, (sentValue axis es).toInt = clampInput (axis.stick es + axis.trim es) ↔
        axis.InputKept es) ∧
      (∀ axis : Axis, axis.InputKept es →
        (axis.InputKept (es ++ [.key axis.up]) →
          sentValue axis es ≤ sentValue axis (es ++ [.key axis.up])) ∧
        (axis.InputKept (es ++ [.key axis.down]) →
          sentValue axis (es ++ [.key axis.down]) ≤ sentValue axis es)) ∧
      (∀ (e : JsEvent) (v w : Int16), Axis.lift.last? es = some v →
        Axis.lift.value? (.js e) = some w → w ≤ v → Axis.lift.InputKept es →
          Axis.lift.InputKept (es ++ [.js e]) →
            sentValue .lift es ≤ sentValue .lift (es ++ [.js e])) := by
  have hmono {axis : Axis} {fs gs : List StickEvent} (hfs : axis.InputKept fs)
      (hgs : axis.InputKept gs) (h : axis.stick fs + axis.trim fs ≤ axis.stick gs + axis.trim gs) :
      sentValue axis fs ≤ sentValue axis gs := by
    rw [Int8.le_iff_toInt_le, (toInt_sentValue_iff axis fs).2 hfs,
      (toInt_sentValue_iff axis gs).2 hgs]
    exact Axis.clampInput_mono h
  refine ⟨fun p => sent_sendInput _, fun axis => toInt_sentValue_iff axis es,
    fun axis hes => ⟨fun hup => hmono hes hup ?_, fun hdown => hmono hdown hes ?_⟩,
    fun e v w hlast he hvw hes hlift => hmono hes hlift ?_⟩
  · rw [axis.stick_concat_key]
    exact Int.add_le_add_left (axis.trim_concat_up es) _
  · rw [axis.stick_concat_key]
    exact Int.add_le_add_left (axis.trim_concat_down es) _
  · rw [Axis.trim_concat_js]
    exact Int.add_le_add_right (Axis.stick_concat_lift hlast he hvw) _

/-- The values sent are the sums, cut off. -/
def SendsSums : Prop :=
  ∀ (es : List StickEvent) (axis : Axis),
    (sentValue axis es).toInt = clampInput (axis.stick es + axis.trim es)

/-- The lift stick at its upper end is sent as -128. -/
theorem not_sendsSums : ¬SendsSums := by
  intro h
  have hlift := h [.js ⟨-32768, 0x02, 3⟩] .lift
  revert hlift
  decide +kernel

-- So is a trim after 128 presses.
example : sentValue .lift (List.replicate 128 (.key 0x61)) = -127 := by
  decide +kernel

/-! ## The main loop of the PC -/

namespace Pc

/-- The events and keys of a block. -/
def stickEvents (p : Pc) : PcEvent → List StickEvent
  | .joystick now events =>
    if p.demoDone || !compareTime now p.tJoystick then []
    else events.map .js ++ if p.fires now events then [.key 0x31] else []
  | .keyboard _ c =>
    if p.demoDone || c = 0xFF || !p.gateOpen c || p.uncalibrated c then [] else [.key c]
  | .receive _ => []
  | .resend now => if p.overdue now then [.key (p.modeRequested + 0x30)] else []

theorem joystick_selectMessage (c : UInt8) (p : Pc) :
    (p.selectMessage c).2.1.joystick = p.joystick.moveOffsets c := by
  have hkept (h : ∀ axis, (keyAction c).offset axis = 0) :
      p.joystick = p.joystick.moveOffsets c := by
    simp [Joystick.moveOffsets, h]
  unfold selectMessage
  cases haction : keyAction c with
  | mode m atRest =>
    simp only [sendMode_eq]
    split_ifs <;> exact hkept fun _ => by rw [haction]; rfl
  | trim axis offset =>
    have hoffsets : (fun a => if a = axis then p.joystick.axisOffsets axis + offset
        else p.joystick.axisOffsets a) =
        fun a => p.joystick.axisOffsets a + (keyAction c).offset a := by
      funext a
      rw [haction]
      by_cases ha : a = axis
      · simp [KeyAction.offset, ha]
      · simp [KeyAction.offset, ha, Ne.symm ha]
    exact congrArg (fun offsets => { p.joystick with axisOffsets := offsets }) hoffsets
  | pValue select mode =>
    simp only [sendPValue_eq]
    exact hkept fun _ => by rw [haction]; rfl
  | invalid => exact hkept fun _ => by rw [haction]; rfl

theorem joystick_request (now : Timespec) (c : UInt8) (p : Pc) :
    (p.request now c).1.joystick = p.joystick.moveOffsets c :=
  (setRequested_joystick now _ _).trans (joystick_selectMessage c p)

theorem run_sticks_js (js : Joystick) (events : List JsEvent) :
    sticks.run js (events.map .js) = js.readJoystick events :=
  List.foldl_map

/-- The joystick block reads the events, if it is due, and passes the key of `PANIC_MODE` on
if they make it fire. -/
theorem joystick_pollJoystick (now : Timespec) (events : List JsEvent) (p : Pc) :
    (p.pollJoystick now events).1.joystick =
      sticks.run p.joystick (if !compareTime now p.tJoystick then []
        else events.map .js ++ if p.fires now events then [.key 0x31] else []) := by
  rcases p.pollJoystick_cases now events with
    ⟨htime, -, h⟩ | ⟨q, sendBuffer, _, _, _, _, rfl, htime, ⟨hfires, h⟩ | ⟨hfires, h⟩⟩
  · rw [h, htime]
    rfl
  · rw [h, htime, hfires]
    simp [run_sticks_js]
  · rw [h, htime, hfires, Bool.not_true, if_neg Bool.false_ne_true, if_pos rfl, Machine.run_append,
      run_sticks_js]
    exact joystick_request now 0x31
      { p with joystick := p.joystick.readJoystick events, sendBuffer }

/-- The keyboard block moves a trim only if the key gets to `select_message`. -/
theorem joystick_readKey (now : Timespec) (c : UInt8) (p : Pc) :
    (p.readKey now c).1.joystick =
      sticks.run p.joystick
        (if c = 0xFF || !p.gateOpen c || p.uncalibrated c then [] else [.key c]) := by
  rcases readKey_cases now c p with ⟨hc, hread⟩ | ⟨huncal, hread⟩ | ⟨hc, hgate, huncal, hread⟩
  · have hnone : (c = 0xFF || !p.gateOpen c || p.uncalibrated c) = true := by
      rcases hc with rfl | hgate
      · simp
      · simp [hgate]
    rw [hread, if_pos hnone]
    rfl
  · rw [hread, if_pos (by simp [huncal])]
    exact setRequested_joystick now 0 p
  · rw [hread, if_neg (by simp [hc, hgate, huncal])]
    exact joystick_request now c _

theorem joystick_next (p : Pc) (e : PcEvent) :
    (pcLoop.next p e).joystick = sticks.run p.joystick (p.stickEvents e) := by
  cases e with
  | joystick now events =>
    simp only [pcLoop, runBlock, stickEvents]
    cases p.demoDone with
    | true => rfl
    | false => exact joystick_pollJoystick now events p
  | keyboard now c =>
    simp only [pcLoop, runBlock, stickEvents]
    cases p.demoDone with
    | true => rfl
    | false =>
      simp only [Bool.false_or, Bool.false_eq_true, if_false]
      exact joystick_readKey now c p
  | receive receiveBuffer =>
    simp only [pcLoop, runBlock, stickEvents, acceptMessage]
    split_ifs <;> rfl
  | resend now =>
    simp only [pcLoop, runBlock, stickEvents, resend]
    split_ifs
    · exact joystick_selectMessage _ p
    · rfl

end Pc

/-- The joystick of the PC after a run of its `main` is the one after the events and keys
of its blocks. -/
theorem joystick_pcLoop (p : Pc) (es : List PcEvent) : (pcLoop.run p es).joystick =
    sticks.run p.joystick (pcLoop.translate Pc.stickEvents p es) :=
  pcLoop.run_refines sticks Pc.joystick_next p es

end Quadrupel
