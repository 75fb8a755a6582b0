import Quadrupel.RawFilter

/-!
# What a stick does in each flight mode

Two ticks that differ in one stick : which rotors does it raise, and which does it lower?
A law with a bounds check is its lift plus a `part` for each stick, which grows with the
stick, times a sign for each rotor (`formula_eq_parts`), and the check keeps the order.
`RAW_MODE` checks no bounds, and its torque may wrap, but a stick that moves a rotor there
is one that moves it in no other mode (`sense_rawStick`).

So two modes disagree about a stick and a rotor iff their signs differ, which is between
`MANUAL_MODE` and the other laws : about the yaw for every rotor, and in
`FULL_CONTROL_MODE` about the pitch for the first and the third (`sticksAgree_iff`).
-/

namespace Quadrupel

/-- The sticks, less the lift. -/
inductive Stick
  | roll
  | pitch
  | yaw
deriving DecidableEq, Repr

namespace Drone

/-- The drone with another value of the stick. -/
def setStick (d : Drone) (stick : Stick) (v : Int8) : Drone :=
  match stick with
  | .roll => { d with rolldata := v }
  | .pitch => { d with pitchdata := v }
  | .yaw => { d with yawdata := v }

/-- The rotor after a tick in the mode. -/
def rotorIn (d : Drone) (mode : ModeType) (i : Fin 4) : ℤ :=
  (({ d with currentMode := mode } : Drone).runFiltersAndControl.1.ae i).toInt

/-- In the mode, moving the stick from `v` to `w` raises the rotor. -/
def Raises (d : Drone) (stick : Stick) (v w : Int8) (i : Fin 4) (mode : ModeType) : Prop :=
  (d.setStick stick v).rotorIn mode i < (d.setStick stick w).rotorIn mode i

/-- The same movement raises the rotor in one mode and lowers it in the other. -/
def Opposed (d : Drone) (stick : Stick) (v w : Int8) (i : Fin 4) (m m' : ModeType) : Prop :=
  d.Raises stick v w i m ∧ d.Raises stick w v i m' ∨
    d.Raises stick w v i m ∧ d.Raises stick v w i m'

instance (d : Drone) (stick : Stick) (v w : Int8) (i : Fin 4) (m m' : ModeType) :
    Decidable (d.Opposed stick v w i m m') :=
  inferInstanceAs (Decidable ((_ < _) ∧ (_ < _) ∨ (_ < _) ∧ (_ < _)))

/-- No gain is negative. -/
structure GainsNonneg (d : Drone) : Prop where
  pYawControl : 0 ≤ d.pYawControl.toInt
  p1 : 0 ≤ d.p1.toInt
  p2 : 0 ≤ d.p2.toInt

theorem opposed_comm {d : Drone} {stick : Stick} {v w : Int8} {i : Fin 4} {m m' : ModeType} :
    d.Opposed stick v w i m m' ↔ d.Opposed stick v w i m' m := by
  unfold Opposed
  rw [or_comm, and_comm, and_comm (a := d.Raises stick v w i m)]

theorem not_raises_both {d : Drone} {stick : Stick} {v w : Int8} {i : Fin 4} {m : ModeType} :
    ¬(d.Raises stick v w i m ∧ d.Raises stick w v i m) := fun h =>
  lt_asymm h.1 h.2

end Drone

/-- The two modes never disagree about what the stick does to the rotor. -/
def SticksAgree (i : Fin 4) (stick : Stick) (m m' : ModeType) : Prop :=
  ∀ (d : Drone) (v w : Int8), d.GainsNonneg → d.liftdata ≠ -127 → v < w →
    ¬d.Opposed stick v w i m m'

/-- The modes in which the stick moves the rotor the other way than in `MANUAL_MODE`. -/
def reversedModes (i : Fin 4) : Stick → List ModeType
  | .roll => []
  | .pitch => if i.val % 2 = 0 then [.fullControlMode] else []
  | .yaw => [.yawControlMode, .fullControlMode]

/-- One of the modes is `MANUAL_MODE`, and the other one reverses the stick. -/
def Reversed (i : Fin 4) (stick : Stick) (m m' : ModeType) : Prop :=
  m = .manualMode ∧ m' ∈ reversedModes i stick ∨ m' = .manualMode ∧ m ∈ reversedModes i stick

instance (i : Fin 4) (stick : Stick) (m m' : ModeType) : Decidable (Reversed i stick m m') :=
  inferInstanceAs (Decidable (_ ∧ _ ∨ _ ∧ _))

/-! ## The laws with a bounds check -/

namespace Law

/-- What the stick adds to the rotors that it raises. -/
def part (d : Drone) : Law → Stick → ℤ
  | manual, .roll => 2 * d.rolldata.toInt
  | manual, .pitch => 2 * d.pitchdata.toInt
  | manual, .yaw => 2 * d.yawdata.toInt
  | yawControl, .roll | yawControl, .pitch => 0
  | fullControl, .roll => d.rollTerm
  | fullControl, .pitch => d.pitchTerm
  | yawControl, .yaw | fullControl, .yaw => d.yawTerm

/-- Whether the stick raises the rotor, lowers it, or neither. -/
def sense : Law → Stick → Fin 4 → ℤ
  | manual, .roll | fullControl, .roll => ![0, -1, 0, 1]
  | manual, .pitch => ![1, 0, -1, 0]
  | fullControl, .pitch => ![-1, 0, 1, 0]
  | manual, .yaw => ![-1, 1, -1, 1]
  | yawControl, .yaw | fullControl, .yaw => ![1, -1, 1, -1]
  | yawControl, .roll | yawControl, .pitch => ![0, 0, 0, 0]

theorem formula_eq_parts (law : Law) (d : Drone) (i : Fin 4) :
    law.formula d i = (d.liftdata.toInt + 169) * 2 + law.sense .roll i * law.part d .roll +
      law.sense .pitch i * law.part d .pitch + law.sense .yaw i * law.part d .yaw := by
  cases law <;> fin_cases i <;> simp [formula, sense, part] <;> ring

/-- A stick moves its own part only. -/
theorem part_setStick (law : Law) (d : Drone) {stick other : Stick} (h : other ≠ stick)
    (v w : Int8) : law.part (d.setStick stick v) other = law.part (d.setStick stick w) other := by
  cases law <;> cases stick <;> cases other <;> first | exact absurd rfl h | rfl

theorem formula_sub (law : Law) (d : Drone) (stick : Stick) (v w : Int8) (i : Fin 4) :
    law.formula (d.setStick stick w) i - law.formula (d.setStick stick v) i =
      law.sense stick i *
        (law.part (d.setStick stick w) stick - law.part (d.setStick stick v) stick) := by
  have hlift : (d.setStick stick w).liftdata = (d.setStick stick v).liftdata := by
    cases stick <;> rfl
  have hroll (h : Stick.roll ≠ stick) := law.part_setStick d h w v
  have hpitch (h : Stick.pitch ≠ stick) := law.part_setStick d h w v
  have hyaw (h : Stick.yaw ≠ stick) := law.part_setStick d h w v
  rw [formula_eq_parts, formula_eq_parts, hlift]
  cases stick with
  | roll =>
    rw [hpitch (by decide), hyaw (by decide)]
    ring
  | pitch =>
    rw [hroll (by decide), hyaw (by decide)]
    ring
  | yaw =>
    rw [hroll (by decide), hpitch (by decide)]
    ring

end Law

namespace Drone

theorem yawTerm_mono {d : Drone} (h : 0 ≤ d.pYawControl.toInt) {v w : Int8} (hvw : v ≤ w) :
    (d.setStick .yaw v).yawTerm ≤ (d.setStick .yaw w).yawTerm := by
  rw [Int8.le_iff_toInt_le] at hvw
  refine mul_le_mul_of_nonneg_left (Int.ediv_le_ediv (by norm_num) ?_) h
  simp only [setStick, cappedSr]
  omega

theorem pitchTerm_mono {d : Drone} (h : 0 ≤ d.p1.toInt) {v w : Int8} (hvw : v ≤ w) :
    (d.setStick .pitch v).pitchTerm ≤ (d.setStick .pitch w).pitchTerm := by
  rw [Int8.le_iff_toInt_le] at hvw
  refine Int.ediv_le_ediv (by norm_num) (sub_le_sub_right ?_ _)
  refine mul_le_mul_of_nonneg_left (Int.ediv_le_ediv (by norm_num) ?_) h
  simp only [setStick]
  omega

theorem rollTerm_mono {d : Drone} (h : 0 ≤ d.p1.toInt) {v w : Int8} (hvw : v ≤ w) :
    (d.setStick .roll v).rollTerm ≤ (d.setStick .roll w).rollTerm := by
  rw [Int8.le_iff_toInt_le] at hvw
  refine Int.ediv_le_ediv (by norm_num) (sub_le_sub_right ?_ _)
  refine mul_le_mul_of_nonneg_left (Int.ediv_le_ediv (by norm_num) ?_) h
  simp only [setStick]
  omega

end Drone

theorem Law.part_mono (law : Law) {d : Drone} (h : d.GainsNonneg) (stick : Stick) {v w : Int8}
    (hvw : v ≤ w) : law.part (d.setStick stick v) stick ≤ law.part (d.setStick stick w) stick := by
  have hint : v.toInt ≤ w.toInt := Int8.le_iff_toInt_le.1 hvw
  have htwice : 2 * v.toInt ≤ 2 * w.toInt := by omega
  cases law with
  | manual => cases stick <;> exact htwice
  | yawControl =>
    cases stick with
    | roll | pitch => exact le_rfl
    | yaw => exact Drone.yawTerm_mono h.pYawControl hvw
  | fullControl =>
    cases stick with
    | roll => exact Drone.rollTerm_mono h.p1 hvw
    | pitch => exact Drone.pitchTerm_mono h.p1 hvw
    | yaw => exact Drone.yawTerm_mono h.pYawControl hvw

namespace Drone

theorem liftdata_setStick (d : Drone) (stick : Stick) (v : Int8) :
    (d.setStick stick v).liftdata = d.liftdata := by
  cases stick <;> rfl

theorem rotorIn_law {d : Drone} (hlift : d.liftdata ≠ -127) (law : Law) (i : Fin 4) :
    d.rotorIn law.mode i = max 254 (min 762 (law.formula d i)) := by
  have hformula : law.formula { d with currentMode := law.mode } i = law.formula d i := by
    cases law <;> rfl
  have hsat := (saturates law { d with currentMode := law.mode } rfl hlift i).2.2
  rw [hformula] at hsat
  exact hsat

section

variable {d : Drone} (hgains : d.GainsNonneg) (hlift : d.liftdata ≠ -127) {law : Law}
  {stick : Stick} {v w : Int8} (hvw : v < w) {i : Fin 4}

include hgains hlift hvw

/-- A stick that does not raise the rotor : moving it up does not. -/
theorem not_raises_of_nonpos (h : law.sense stick i ≤ 0) : ¬d.Raises stick v w i law.mode := by
  have hmono := law.part_mono hgains stick (Int8.le_of_lt hvw)
  have hsub := law.formula_sub d stick v w i
  have hfall := mul_nonpos_of_nonpos_of_nonneg h (sub_nonneg.2 hmono)
  unfold Raises
  rw [rotorIn_law ((d.liftdata_setStick stick v).trans_ne hlift),
    rotorIn_law ((d.liftdata_setStick stick w).trans_ne hlift)]
  omega

/-- A stick that does not lower the rotor : moving it down does not raise it. -/
theorem not_raises_of_nonneg (h : 0 ≤ law.sense stick i) : ¬d.Raises stick w v i law.mode := by
  have hmono := law.part_mono hgains stick (Int8.le_of_lt hvw)
  have hsub := law.formula_sub d stick v w i
  have hrise := mul_nonneg h (sub_nonneg.2 hmono)
  unfold Raises
  rw [rotorIn_law ((d.liftdata_setStick stick v).trans_ne hlift),
    rotorIn_law ((d.liftdata_setStick stick w).trans_ne hlift)]
  omega

/-- Two laws agree if their signs do not differ. -/
theorem not_opposed_laws {law' : Law} (h : 0 ≤ law.sense stick i * law'.sense stick i) :
    ¬d.Opposed stick v w i law.mode law'.mode := by
  rcases mul_nonneg_iff.1 h with ⟨hup, hup'⟩ | ⟨hdown, hdown'⟩
  · rintro (⟨-, hlower⟩ | ⟨hlower, -⟩)
    · exact not_raises_of_nonneg hgains hlift hvw hup' hlower
    · exact not_raises_of_nonneg hgains hlift hvw hup hlower
  · rintro (⟨hraise, -⟩ | ⟨-, hraise⟩)
    · exact not_raises_of_nonpos hgains hlift hvw hdown hraise
    · exact not_raises_of_nonpos hgains hlift hvw hdown' hraise

end

/-! ## RAW_MODE -/

/-- The stick that moves a rotor in `RAW_MODE`. -/
def rawStick : Fin 4 → Stick :=
  ![.roll, .pitch, .roll, .pitch]

theorem rotorIn_rawMode (d : Drone) (i : Fin 4) : d.rotorIn .rawMode i =
    if d.liftdata = -127 then 0 else (Int16.ofInt (d.rawSpeed d.rawFilter i)).toInt := by
  set e : Drone := { d with currentMode := ModeType.rawMode } with he
  have hraw := (runFiltersAndControl_raw (d := e) rfl).2.2
  have hrotor : d.rotorIn .rawMode i = (e.rawMode.ae i).toInt :=
    congrArg Int16.toInt (congrFun hraw i)
  rw [hrotor]
  split_ifs with hlift
  · have hdown : e.liftdata = -127 := hlift
    simp only [rawMode, setRotors, if_pos hdown]
    rfl
  · rw [rawMode_ae (d := e) hlift]
    rfl

/-- `K_s_p` of the `RAW_MODE` case. -/
def kSP (d : Drone) (k : Kalman) : ℤ :=
  (i32 (d.p1.toInt * ((d.rolldata.toInt + 127 * 2) * 2 - k.phiKalman) -
    d.p2.toInt * k.pitch)).tdiv 50000

/-- `K_s_t`. -/
def kST (d : Drone) (k : Kalman) : ℤ :=
  (i32 (d.p1.toInt * ((d.pitchdata.toInt + 127 * 2) * 2 - k.thetaKalman) -
    d.p2.toInt * k.roll)).tdiv 50000

theorem rawSpeed_eq (d : Drone) (k : Kalman) : d.rawSpeed k =
    ![d.liftSetpoint + d.kSP k, d.liftSetpoint - d.kST k, d.liftSetpoint - d.kSP k,
      d.liftSetpoint + d.kST k] :=
  rfl

/-- No other one does. -/
theorem rawSpeed_setStick (d : Drone) (k : Kalman) {stick : Stick} {i : Fin 4}
    (h : stick ≠ rawStick i) (v w : Int8) :
    (d.setStick stick v).rawSpeed k i = (d.setStick stick w).rawSpeed k i := by
  have hlift : (d.setStick stick v).liftSetpoint = (d.setStick stick w).liftSetpoint := by
    unfold liftSetpoint
    rw [liftdata_setStick, liftdata_setStick]
  rw [rawSpeed_eq, rawSpeed_eq, hlift]
  cases stick with
  | yaw => rfl
  | roll =>
    have htorque : (d.setStick .roll v).kST k = (d.setStick .roll w).kST k := rfl
    rw [htorque]
    fin_cases i
    · exact absurd rfl h
    · rfl
    · exact absurd rfl h
    · rfl
  | pitch =>
    have htorque : (d.setStick .pitch v).kSP k = (d.setStick .pitch w).kSP k := rfl
    rw [htorque]
    fin_cases i
    · rfl
    · exact absurd rfl h
    · rfl
    · exact absurd rfl h

theorem rotorIn_rawMode_setStick (d : Drone) {stick : Stick} {i : Fin 4} (h : stick ≠ rawStick i)
    (v w : Int8) :
    (d.setStick stick v).rotorIn .rawMode i = (d.setStick stick w).rotorIn .rawMode i := by
  have hfilter : (d.setStick stick v).rawFilter = (d.setStick stick w).rawFilter := by
    cases stick <;> rfl
  rw [rotorIn_rawMode, rotorIn_rawMode, liftdata_setStick, liftdata_setStick, hfilter,
    d.rawSpeed_setStick _ h v w]

theorem not_raises_rawMode {d : Drone} {stick : Stick} {i : Fin 4} (h : stick ≠ rawStick i)
    (v w : Int8) : ¬d.Raises stick v w i .rawMode :=
  not_lt_of_ge (d.rotorIn_rawMode_setStick h w v).le

/-- In the other modes that stick leaves the rotor alone. -/
theorem sense_rawStick (law : Law) (i : Fin 4) : law.sense (rawStick i) i = 0 := by
  cases law <;> fin_cases i <;> rfl

theorem not_opposed_rawMode {d : Drone} (hgains : d.GainsNonneg) (hlift : d.liftdata ≠ -127)
    (law : Law) (stick : Stick) {v w : Int8} (hvw : v < w) (i : Fin 4) :
    ¬d.Opposed stick v w i .rawMode law.mode := by
  by_cases h : stick = rawStick i
  · have hsense : law.sense stick i = 0 := h ▸ sense_rawStick law i
    rintro (⟨-, hlower⟩ | ⟨-, hraise⟩)
    · exact not_raises_of_nonneg hgains hlift hvw hsense.ge hlower
    · exact not_raises_of_nonpos hgains hlift hvw hsense.le hraise
  · rintro (⟨hraise, -⟩ | ⟨hlower, -⟩)
    · exact not_raises_rawMode h v w hraise
    · exact not_raises_rawMode h w v hlower

end Drone

/-! ## Which modes agree -/

theorem reversed_laws_iff (i : Fin 4) (stick : Stick) (law law' : Law) :
    Reversed i stick law.mode law'.mode ↔ law.sense stick i * law'.sense stick i < 0 := by
  cases law <;> cases law' <;> cases stick <;> revert i <;> decide

/-- The lift half way up, with large gains. -/
def steep : Drone :=
  { Drone.powerUp 0 with pYawControl := 127, p1 := 127 }

/-- A stick moved from end to end shows every reversal. -/
theorem opposed_steep (stick : Stick) :
    ∀ i : Fin 4, ∀ m ∈ reversedModes i stick,
      steep.Opposed stick (-127) 127 i .manualMode m := by
  cases stick <;> decide +kernel

/-- Two modes agree about what a stick does to a rotor iff neither reverses it. -/
theorem sticksAgree_iff (i : Fin 4) (stick : Stick) {m m' : ModeType} (hm : m ∈ controlModes)
    (hm' : m' ∈ controlModes) : SticksAgree i stick m m' ↔ ¬Reversed i stick m m' := by
  constructor
  · intro hagree hreversed
    have hgains : steep.GainsNonneg := ⟨by decide, by decide, by decide⟩
    have hnot := hagree steep (-127) 127 hgains (by decide) (by decide)
    rcases hreversed with ⟨rfl, hmem⟩ | ⟨rfl, hmem⟩
    · exact hnot (opposed_steep stick i m' hmem)
    · exact hnot (Drone.opposed_comm.1 (opposed_steep stick i m hmem))
  · intro hreversed d v w hgains hlift hvw
    rcases Law.eq_rawMode_or_law hm with rfl | ⟨law, rfl⟩
    · rcases Law.eq_rawMode_or_law hm' with rfl | ⟨law', rfl⟩
      · rintro (h | h)
        · exact Drone.not_raises_both h
        · exact Drone.not_raises_both h.symm
      · exact Drone.not_opposed_rawMode hgains hlift law' stick hvw i
    · rcases Law.eq_rawMode_or_law hm' with rfl | ⟨law', rfl⟩
      · exact fun h => Drone.not_opposed_rawMode hgains hlift law stick hvw i
          (Drone.opposed_comm.1 h)
      · rw [reversed_laws_iff, not_lt] at hreversed
        exact Drone.not_opposed_laws hgains hlift hvw hreversed

/-- `YAW_CONTROL_MODE` and `FULL_CONTROL_MODE` agree about the yaw. -/
theorem sticksAgree_iff_yaw : SticksAgree 0 .yaw .yawControlMode .fullControlMode :=
  (sticksAgree_iff 0 .yaw (by decide) (by decide)).2 (by decide)

/-- A stick means the same in every mode. -/
def SticksMeanTheSame : Prop :=
  ∀ (i : Fin 4) (stick : Stick), ∀ m ∈ controlModes, ∀ m' ∈ controlModes,
    SticksAgree i stick m m'

/-- Yaw to the right lowers the first rotor in `MANUAL_MODE` and raises it in
`YAW_CONTROL_MODE`. -/
theorem not_sticksMeanTheSame : ¬SticksMeanTheSame := by
  intro h
  have hagree := h 0 .yaw .manualMode (by decide) .yawControlMode (by decide)
  have hopposed : ({ Drone.powerUp 0 with pYawControl := 15 } : Drone).Opposed .yaw 0 127 0
      .manualMode .yawControlMode := by
    decide +kernel
  exact hagree _ 0 127 ⟨by decide, by decide, by decide⟩ (by decide) (by decide) hopposed

end Quadrupel
