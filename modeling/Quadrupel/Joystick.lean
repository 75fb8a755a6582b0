import Mathlib

/-!
# The clock and the joystick of the PC

`time_helper.c` and `js.c`. The loop of `add_time_millis` carries whole seconds; it has
as many rounds as seconds to carry. `read_joystick` stores the events that wait in the
device into the globals `axis_small` and `button`. An event with the number of an axis
or a button that the arrays do not have writes outside them, and is left out here.
-/

namespace Quadrupel

/-! ## Time -/

/-- `struct timespec`. -/
structure Timespec where
  tvSec : ℤ
  tvNsec : ℤ
deriving DecidableEq, Repr

/-- `SECOND`, in ns. -/
def second : ℤ :=
  1000000000

/-- `MILLI_SEC`, in ns. -/
def milliSec : ℤ :=
  1000000

/-- At most `rounds` rounds of the loop of `add_time_millis`. -/
def carrySeconds : ℕ → Timespec → Timespec
  | 0, t => t
  | rounds + 1, t =>
    if t.tvNsec > second then carrySeconds rounds ⟨t.tvSec + 1, t.tvNsec - second⟩ else t

/-- `add_time_millis`. -/
def addTimeMillis (time : Timespec) (millis : ℤ) : Timespec :=
  let t : Timespec := { time with tvNsec := time.tvNsec + millis * milliSec }
  carrySeconds (t.tvNsec / second).toNat t

/-- `compare_time` : whether the first time is later. -/
def compareTime (time1 time2 : Timespec) : Bool :=
  if time1.tvSec > time2.tvSec then true
  else if time1.tvSec < time2.tvSec then false
  else time1.tvNsec > time2.tvNsec

/-! ## The joystick -/

/-- `struct js_event`, less its time. -/
structure JsEvent where
  value : Int16
  type : UInt8
  number : UInt8
deriving DecidableEq, Repr

/-- The axes that are sent to the drone. -/
inductive Axis
  | roll
  | pitch
  | yaw
  | lift
deriving DecidableEq, Repr

/-- The place of the axis in `axis_small`, and in `axis_offsets` and `axis_totals`. -/
def Axis.index : Axis → Fin 6
  | roll => 0
  | pitch => 1
  | yaw => 2
  | lift => 3

/-- The globals of `joystick.h`. -/
structure Joystick where
  axisSmall : Fin 6 → Int8
  axisOffsets : Axis → Int8
  button : Fin 12 → ℤ

namespace Joystick

/-- Assignment to `axis_small[i]`. -/
def setAxis (js : Joystick) (i : Fin 6) (x : Int8) : Joystick :=
  { js with axisSmall := fun j => if j = i then x else js.axisSmall j }

/-- Assignment to the axis's place in `axis_offsets`. -/
def setOffset (js : Joystick) (axis : Axis) (x : Int8) : Joystick :=
  { js with axisOffsets := fun a => if a = axis then x else js.axisOffsets a }

/-- Assignment to `button[i]`. -/
def setButton (js : Joystick) (i : Fin 12) (x : ℤ) : Joystick :=
  { js with button := fun j => if j = i then x else js.button j }

/-- A round of the loop of `read_joystick`. -/
def readEvent (js : Joystick) (e : JsEvent) : Joystick :=
  match (e.type &&& ~~~0x80).toNat with
  | 0x01 => if h : e.number.toNat < 12 then js.setButton ⟨e.number.toNat, h⟩ e.value.toInt else js
  | 0x02 =>
    if h : e.number.toNat < 6 then
      let x := Int8.ofInt (e.value.toInt.tdiv 256)
      -- the lift is inverted
      js.setAxis ⟨e.number.toNat, h⟩ (if e.number = 3 then -x else x)
    else js
  | _ => js

/-- `read_joystick`, on the events that wait in the device. -/
def readJoystick (js : Joystick) (events : List JsEvent) : Joystick :=
  events.foldl readEvent js

/-- `is_joystick_zero`. -/
def isJoystickZero (js : Joystick) : Bool :=
  js.axisSmall 0 = 0 && js.axisSmall 1 = 0 && js.axisSmall 2 = 0 && js.axisSmall 3 = -127

/-- A stick with its keyboard offset, checked for overflow. -/
def axisTotal (x y : Int8) : Int8 :=
  if y > 0 ∧ x.toInt > 127 - y.toInt then 127
  else if y < 0 ∧ x.toInt < -127 - y.toInt then -127
  else Int8.ofInt (x.toInt + y.toInt)

/-- `axis_totals`, for one axis. -/
def axisTotals (js : Joystick) (axis : Axis) : Int8 :=
  axisTotal (js.axisSmall axis.index) (js.axisOffsets axis)

/-- The fire button is pressed. -/
def firePressed (js : Joystick) : Bool :=
  js.button 0 > 0

/-- The sticks are at rest : the lift down, the others in the middle. -/
def AtRest (js : Joystick) : Prop :=
  js.axisSmall 0 = 0 ∧ js.axisSmall 1 = 0 ∧ js.axisSmall 2 = 0 ∧ js.axisSmall 3 = -127

theorem isJoystickZero_iff (js : Joystick) : js.isJoystickZero = true ↔ js.AtRest := by
  simp [isJoystickZero, AtRest, and_assoc]

end Joystick

end Quadrupel
