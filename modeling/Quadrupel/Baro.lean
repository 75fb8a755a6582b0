import Quadrupel.Saturation

/-!
# The barometer

`read_baro` and `baro_init` of `baro.c`. The compensation is computed with a `long long`
temperature difference, but the difference itself is one of `uint32_t`s, so below the
reference temperature it is too large by 2^32. Then the products are larger too, and
`D1*SENS` may overflow.

The formulas are functions of the difference, and what 2^32 more does to each is exact
(`offset_add` and the lemmas after it). So is the condition of `compensates_iff` : not
below the reference temperature, or a PROM and a pressure for which it makes no
difference.
-/

namespace Quadrupel

/-- A 64-bit result wraps. -/
def i64 (x : ℤ) : ℤ :=
  x.bmod (2 ^ 64)

/-- The values of a `long long`. -/
def int64 : Interval :=
  ⟨-2 ^ 63, 2 ^ 63 - 1⟩

theorem i64_of_mem {x : ℤ} (h : x ∈ int64) : i64 x = x := by
  have hlo : -2 ^ 63 ≤ x := h.1
  have hhi : x ≤ 2 ^ 63 - 1 := h.2
  exact Int.bmod_eq_of_le (by omega) (by omega)

/-- What is read from the sensor : 24 bits. -/
def BaroReading : Type :=
  { x : UInt32 // x.toNat < 2 ^ 24 }

/-- `(data[0] << 16)|(data[1] << 8)|data[2]`. -/
def BaroReading.ofBytes (b0 b1 b2 : UInt8) : BaroReading where
  val := b0.toUInt32 <<< (16 : UInt32) ||| b1.toUInt32 <<< (8 : UInt32) ||| b2.toUInt32
  property := by
    have h0 := b0.toNat_lt
    have h1 := b1.toNat_lt
    have h2 := b2.toNat_lt
    simp only [UInt32.toNat_or, UInt32.toNat_shiftLeft, UInt8.toNat_toUInt32, UInt32.reduceToNat,
      Nat.reduceMod, Nat.shiftLeft_eq]
    exact Nat.or_lt_two_pow (Nat.or_lt_two_pow (by omega) (by omega)) (by omega)

/-- The statics and globals of `baro.c`. The words of `prom` from 8 on do not matter. -/
structure Baro where
  prom : ℕ → UInt16
  loopCount : UInt8
  d1 : BaroReading
  d2 : BaroReading
  initTime : UInt32
  temperature : Int32
  pressure : Int32

/-- What a call of `read_baro` gets : the time when it asks first and when it asks again,
and the bytes that the sensor sends. -/
structure BaroInput where
  now : UInt32
  later : UInt32
  data0 : UInt8
  data1 : UInt8
  data2 : UInt8

/-- The bytes as a reading. -/
def BaroInput.reading (i : BaroInput) : BaroReading :=
  .ofBytes i.data0 i.data1 i.data2

namespace Baro

/-- `baro_init`, with the two bytes of each word of the PROM. -/
def baroInit (bytes : ℕ → UInt8 × UInt8) (s : Baro) : Baro :=
  { s with
    prom := fun c =>
      if c < 8 then (bytes c).1.toUInt16 <<< (8 : UInt16) ||| (bytes c).2.toUInt16 else s.prom c }

/-- The words of the PROM may be any. -/
theorem exists_baroInit (words : ℕ → UInt16) (s : Baro) :
    ∃ bytes, ∀ c < 8, (baroInit bytes s).prom c = words c := by
  refine ⟨fun c => ((words c >>> (8 : UInt16)).toUInt8, (words c).toUInt8), fun c hc => ?_⟩
  have hword := (words c).toNat_lt
  have hlow : (words c).toNat % 2 ^ 8 < 2 ^ 8 := Nat.mod_lt _ (by decide)
  have hor := Nat.shiftLeft_add_eq_or_of_lt hlow ((words c).toNat / 2 ^ 8)
  rw [Nat.shiftLeft_eq] at hor
  have hhigh : (words c).toNat / 2 ^ 8 % 2 ^ 8 * 2 ^ 8 % 2 ^ 16 =
      (words c).toNat / 2 ^ 8 * 2 ^ 8 := by
    omega
  refine (if_pos hc).trans (UInt16.toNat_inj.1 ?_)
  simp only [UInt16.toNat_or, UInt16.toNat_shiftLeft, UInt16.toNat_shiftRight,
    UInt8.toNat_toUInt16, UInt16.toNat_toUInt8, UInt16.reduceToNat, Nat.reduceMod,
    Nat.shiftLeft_eq, Nat.shiftRight_eq_div_pow]
  rw [hhigh, ← hor]
  omega

section Compensation

variable (prom : ℕ → UInt16)

/-- `dT = D2 - (prom[5]<<8)`, a difference of `uint32_t`s. -/
def dT (d2 : BaroReading) : ℤ :=
  (d2.val - (prom 5).toUInt32 <<< (8 : UInt32)).toNat

/-- `OFFSET`. -/
def offset (dT : ℤ) : ℤ :=
  i64 (i64 (((prom 2).toNat : ℤ) <<< (16 : ℕ)) + i64 (i64 (dT * (prom 4).toNat) >>> (7 : ℕ)))

/-- `SENS`. -/
def sens (dT : ℤ) : ℤ :=
  i64 (i64 (((prom 1).toNat : ℤ) <<< (15 : ℕ)) + i64 (i64 (dT * (prom 3).toNat) >>> (8 : ℕ)))

/-- The value for `temperature`. -/
def temperatureOf (dT : ℤ) : ℤ :=
  i64 ((2000 : ℤ) + i64 (i64 (dT * (prom 6).toNat) >>> (23 : ℕ)))

/-- The value for `pressure`. -/
def pressureOf (d1 : BaroReading) (dT : ℤ) : ℤ :=
  i64 (i64 (i64 (i64 (d1.val.toNat * sens prom dT) >>> (21 : ℕ)) - offset prom dT) >>> (15 : ℕ))

end Compensation

/-- `read_baro`. -/
def readBaro (i : BaroInput) (s : Baro) : Baro :=
  if s.loopCount = 0 then { s with loopCount := 1, initTime := i.now }
  else if s.loopCount = 1 then
    if i.now - s.initTime < 10000 then s
    else { s with d1 := i.reading, loopCount := 2, initTime := i.later }
  else if s.loopCount = 2 then
    if i.now - s.initTime < 10000 then s
    else
      let dT := dT s.prom i.reading
      { s with
        d2 := i.reading
        temperature := Int32.ofInt (temperatureOf s.prom dT)
        pressure := Int32.ofInt (pressureOf s.prom s.d1 dT)
        loopCount := 0 }
  else s

/-! ## The formulas -/

namespace Exact

variable (prom : ℕ → UInt16)

/-- The temperature difference, negative below the reference temperature. -/
def dT (d2 : BaroReading) : ℤ :=
  d2.val.toNat - (prom 5).toNat * 2 ^ 8

def offset (dT : ℤ) : ℤ :=
  (prom 2).toNat * 2 ^ 16 + dT * (prom 4).toNat / 2 ^ 7

def sens (dT : ℤ) : ℤ :=
  (prom 1).toNat * 2 ^ 15 + dT * (prom 3).toNat / 2 ^ 8

def temperature (dT : ℤ) : ℤ :=
  2000 + dT * (prom 6).toNat / 2 ^ 23

/-- The pressure before its last division. -/
def scaledPressure (d1 : BaroReading) (dT : ℤ) : ℤ :=
  d1.val.toNat * sens prom dT / 2 ^ 21 - offset prom dT

def pressure (d1 : BaroReading) (dT : ℤ) : ℤ :=
  scaledPressure prom d1 dT / 2 ^ 15

/-- What 2^32 more in the difference add to `scaledPressure`. -/
def excess (d1 : BaroReading) : ℤ :=
  8 * (d1.val.toNat * (prom 3).toNat) - 2 ^ 25 * (prom 4).toNat

theorem offset_add (dT : ℤ) :
    offset prom (dT + 2 ^ 32) = offset prom dT + 2 ^ 25 * (prom 4).toNat := by
  have hmul : (dT + 2 ^ 32) * (prom 4).toNat =
      dT * (prom 4).toNat + 2 ^ 32 * (prom 4).toNat := by
    ring
  unfold offset
  rw [hmul]
  omega

theorem sens_add (dT : ℤ) :
    sens prom (dT + 2 ^ 32) = sens prom dT + 2 ^ 24 * (prom 3).toNat := by
  have hmul : (dT + 2 ^ 32) * (prom 3).toNat =
      dT * (prom 3).toNat + 2 ^ 32 * (prom 3).toNat := by
    ring
  unfold sens
  rw [hmul]
  omega

theorem temperature_add (dT : ℤ) :
    temperature prom (dT + 2 ^ 32) = temperature prom dT + 512 * (prom 6).toNat := by
  have hmul : (dT + 2 ^ 32) * (prom 6).toNat =
      dT * (prom 6).toNat + 2 ^ 32 * (prom 6).toNat := by
    ring
  unfold temperature
  rw [hmul]
  omega

theorem scaledPressure_add (d1 : BaroReading) (dT : ℤ) :
    scaledPressure prom d1 (dT + 2 ^ 32) = scaledPressure prom d1 dT + excess prom d1 := by
  have hmul : (d1.val.toNat : ℤ) * (sens prom dT + 2 ^ 24 * (prom 3).toNat) =
      d1.val.toNat * sens prom dT + 2 ^ 24 * (d1.val.toNat * (prom 3).toNat) := by
    ring
  unfold scaledPressure excess
  rw [sens_add, offset_add, hmul]
  omega

end Exact

/-! ## The expressions -/

/-- The variables of the compensation. -/
inductive Variable
  | prom1 | prom2 | prom3 | prom4 | prom6 | d1 | dT

/-- What a variable holds. -/
def Variable.value (prom : ℕ → UInt16) (d1 : BaroReading) (dT : ℤ) : Variable → ℤ
  | .prom1 => (prom 1).toNat
  | .prom2 => (prom 2).toNat
  | .prom3 => (prom 3).toNat
  | .prom4 => (prom 4).toNat
  | .prom6 => (prom 6).toNat
  | .d1 => d1.val.toNat
  | .dT => dT

/-- The values of the types, and the interval of the difference. -/
def Variable.box (I : Interval) : Variable → Interval
  | .prom1 | .prom2 | .prom3 | .prom4 | .prom6 => ⟨0, 2 ^ 16 - 1⟩
  | .d1 => ⟨0, 2 ^ 24 - 1⟩
  | .dT => I

open IntExpr

namespace Expr

def offset : IntExpr Variable :=
  shl (var .prom2) 16 + shr (var .dT * var .prom4) 7

def sens : IntExpr Variable :=
  shl (var .prom1) 15 + shr (var .dT * var .prom3) 8

def temperature : IntExpr Variable :=
  2000 + shr (var .dT * var .prom6) 23

def pressure : IntExpr Variable :=
  shr (shr (var .d1 * sens) 21 - offset) 15

end Expr

section Values

variable (prom : ℕ → UInt16) (d1 : BaroReading) (dT : ℤ)

theorem eval_temperature :
    Expr.temperature.eval i64 (Variable.value prom d1 dT) = temperatureOf prom dT :=
  rfl

theorem eval_pressure :
    Expr.pressure.eval i64 (Variable.value prom d1 dT) = pressureOf prom d1 dT :=
  rfl

theorem value_offset :
    Expr.offset.value (Variable.value prom d1 dT) = Exact.offset prom dT := by
  change ((prom 2).toNat : ℤ) <<< (16 : ℕ) + (dT * (prom 4).toNat) >>> (7 : ℕ) = _
  rw [Int.shiftLeft_eq, Int.shiftRight_eq_div_pow]
  rfl

theorem value_sens : Expr.sens.value (Variable.value prom d1 dT) = Exact.sens prom dT := by
  change ((prom 1).toNat : ℤ) <<< (15 : ℕ) + (dT * (prom 3).toNat) >>> (8 : ℕ) = _
  rw [Int.shiftLeft_eq, Int.shiftRight_eq_div_pow]
  rfl

theorem value_temperature :
    Expr.temperature.value (Variable.value prom d1 dT) = Exact.temperature prom dT := by
  change (2000 : ℤ) + (dT * (prom 6).toNat) >>> (23 : ℕ) = _
  rw [Int.shiftRight_eq_div_pow]
  rfl

theorem value_pressure :
    Expr.pressure.value (Variable.value prom d1 dT) = Exact.pressure prom d1 dT := by
  change ((d1.val.toNat * Expr.sens.value (Variable.value prom d1 dT)) >>> (21 : ℕ) -
    Expr.offset.value (Variable.value prom d1 dT)) >>> (15 : ℕ) = _
  rw [value_sens, value_offset, Int.shiftRight_eq_div_pow, Int.shiftRight_eq_div_pow]
  rfl

end Values

/-! ## When it is exact -/

section Fits

variable {prom : ℕ → UInt16} {d1 : BaroReading} {dT : ℤ} {I : Interval}

theorem value_mem_box (h : dT ∈ I) (v : Variable) : Variable.value prom d1 dT v ∈ v.box I := by
  have hword : ∀ w : UInt16, (w.toNat : ℤ) ∈ (⟨0, 2 ^ 16 - 1⟩ : Interval) := fun w =>
    ⟨Int.natCast_nonneg _, Int.le_sub_one_of_lt (by exact_mod_cast w.toNat_lt)⟩
  cases v with
  | prom1 => exact hword _
  | prom2 => exact hword _
  | prom3 => exact hword _
  | prom4 => exact hword _
  | prom6 => exact hword _
  | d1 =>
    have hd1 : (d1.val.toNat : ℤ) < 2 ^ 24 := by exact_mod_cast d1.property
    exact ⟨Int.natCast_nonneg _, Int.le_sub_one_of_lt hd1⟩
  | dT => exact h

/-- No difference of `uint32_t`s makes the temperature overflow. -/
theorem temperature_within : Expr.temperature.Within int64 (Variable.box ⟨0, 2 ^ 32 - 1⟩) := by
  decide +kernel

theorem sens_within : Expr.sens.Within int64 (Variable.box ⟨0, 2 ^ 32 - 1⟩) := by
  decide +kernel

theorem offset_within : Expr.offset.Within int64 (Variable.box ⟨0, 2 ^ 32 - 1⟩) := by
  decide +kernel

theorem sens_bounds : (Expr.sens.bounds (Variable.box ⟨0, 2 ^ 32 - 1⟩)).Within ⟨0, 2 ^ 41⟩ := by
  decide +kernel

theorem offset_bounds :
    (Expr.offset.bounds (Variable.box ⟨0, 2 ^ 32 - 1⟩)).Within ⟨0, 2 ^ 42⟩ := by
  decide +kernel

/-- Not below the reference temperature, the pressure does not overflow either. -/
theorem pressure_within : Expr.pressure.Within int64 (Variable.box ⟨0, 2 ^ 24 - 1⟩) := by
  decide +kernel

/-- Below it, the exact product is small. -/
theorem product_bounds :
    ((var Variable.d1 * Expr.sens).bounds (Variable.box ⟨-2 ^ 24, -1⟩)).Within
      ⟨-2 ^ 60, 2 ^ 55⟩ := by
  decide +kernel

/-- If the product with `SENS` does not overflow, nothing else does. -/
theorem fits_pressure (h : dT ∈ (⟨0, 2 ^ 32 - 1⟩ : Interval))
    (hproduct : (d1.val.toNat : ℤ) * Exact.sens prom dT < 2 ^ 63) :
    Expr.pressure.Fits int64 (Variable.value prom d1 dT) := by
  have hbox : ∀ v, Variable.value prom d1 dT v ∈ v.box ⟨0, 2 ^ 32 - 1⟩ := value_mem_box h
  have hd1 : (var Variable.d1).Fits int64 (Variable.value prom d1 dT) :=
    fits_of_within hbox (by decide +kernel)
  have hsens : Exact.sens prom dT ∈ (⟨0, 2 ^ 41⟩ : Interval) :=
    value_sens prom d1 dT ▸ sens_bounds.mem (value_mem_bounds hbox _)
  have hoffset : Exact.offset prom dT ∈ (⟨0, 2 ^ 42⟩ : Interval) :=
    value_offset prom d1 dT ▸ offset_bounds.mem (value_mem_bounds hbox _)
  have hnonneg : 0 ≤ (d1.val.toNat : ℤ) * Exact.sens prom dT :=
    mul_nonneg (Int.natCast_nonneg _) hsens.1
  have hvalue : (var Variable.d1 * Expr.sens).value (Variable.value prom d1 dT) =
      d1.val.toNat * Exact.sens prom dT := congrArg (_ * ·) (value_sens prom d1 dT)
  have hquotient : (shr (var Variable.d1 * Expr.sens) 21).value (Variable.value prom d1 dT) =
      d1.val.toNat * Exact.sens prom dT / 2 ^ 21 := by
    change (var Variable.d1 * Expr.sens).value (Variable.value prom d1 dT) >>> (21 : ℕ) = _
    rw [hvalue, Int.shiftRight_eq_div_pow]
    rfl
  have hdifference : (shr (var Variable.d1 * Expr.sens) 21 - Expr.offset).value
      (Variable.value prom d1 dT) = Exact.scaledPressure prom d1 dT :=
    congrArg₂ (· - ·) hquotient (value_offset prom d1 dT)
  obtain ⟨hoffset0, hoffset1⟩ := hoffset
  refine fits_shr.2 ⟨?_, fits_sub.2 ⟨?_, fits_shr.2 ⟨?_, fits_mul.2 ⟨?_, hd1,
    fits_of_within hbox sens_within⟩⟩, fits_of_within hbox offset_within⟩⟩
  · change Expr.pressure.value _ ∈ _
    rw [value_pressure]
    unfold Exact.pressure Exact.scaledPressure
    constructor <;> simp only [int64] at * <;> omega
  · rw [hdifference]
    unfold Exact.scaledPressure
    constructor <;> simp only [int64] at * <;> omega
  · rw [hquotient]
    constructor <;> simp only [int64] <;> omega
  · rw [hvalue]
    constructor <;> simp only [int64] <;> omega

end Fits

/-- Two values that differ by less than 2^32 are the same in 32 bits only if they are
equal. -/
theorem ofInt_eq_iff {a b : ℤ} (hlo : -2 ^ 32 < a - b) (hhi : a - b < 2 ^ 32) :
    Int32.ofInt a = Int32.ofInt b ↔ a = b := by
  refine ⟨fun h => ?_, congrArg _⟩
  have hbmod := congrArg Int32.toInt h
  have hsize : (Int32.size : ℤ) = 2 ^ 32 := rfl
  simp only [Int32.toInt_ofInt, Int.bmod, hsize] at hbmod
  split_ifs at hbmod <;> omega

variable (prom : ℕ → UInt16) (d1 d2 : BaroReading)

theorem dT_eq_emod : dT prom d2 = Exact.dT prom d2 % 2 ^ 32 := by
  have hd2 := d2.property
  have hword := (prom 5).toNat_lt
  simp only [dT, Exact.dT, UInt32.toNat_sub, UInt32.toNat_shiftLeft, UInt16.toNat_toUInt32,
    UInt32.reduceToNat, Nat.reduceMod, Nat.shiftLeft_eq]
  omega

theorem dT_of_nonneg (h : 0 ≤ Exact.dT prom d2) : dT prom d2 = Exact.dT prom d2 := by
  have hd2 := d2.property
  rw [dT_eq_emod]
  unfold Exact.dT at *
  omega

/-- Below the reference temperature the difference is 2^32 too large. -/
theorem dT_of_neg (h : Exact.dT prom d2 < 0) : dT prom d2 = Exact.dT prom d2 + 2 ^ 32 := by
  have hword := (prom 5).toNat_lt
  rw [dT_eq_emod]
  unfold Exact.dT at *
  omega

/-- A call that completes the measurement sets the values of the formulas, and no result on
the way leaves 64 bits. -/
structure Compensates (i : BaroInput) (s : Baro) : Prop where
  temperature : (s.readBaro i).temperature =
    Int32.ofInt (Exact.temperature s.prom (Exact.dT s.prom i.reading))
  pressure : (s.readBaro i).pressure =
    Int32.ofInt (Exact.pressure s.prom s.d1 (Exact.dT s.prom i.reading))
  temperature_fits :
    Expr.temperature.Fits int64 (Variable.value s.prom s.d1 (dT s.prom i.reading))
  pressure_fits : Expr.pressure.Fits int64 (Variable.value s.prom s.d1 (dT s.prom i.reading))

/-- Not below the reference temperature, or such that what 2^32 more add gets lost. -/
def Compensable : Prop :=
  256 * (prom 5).toNat ≤ d2.val.toNat ∨
    (prom 6).toNat = 0 ∧
      0 ≤ Exact.scaledPressure prom d1 (Exact.dT prom d2) % 2 ^ 15 + Exact.excess prom d1 ∧
      Exact.scaledPressure prom d1 (Exact.dT prom d2) % 2 ^ 15 + Exact.excess prom d1 < 2 ^ 15

variable {prom d1 d2}

theorem temperatureOf_eq {dT : ℤ}
    (h : Expr.temperature.Fits int64 (Variable.value prom d1 dT)) :
    temperatureOf prom dT = Exact.temperature prom dT := by
  rw [← eval_temperature prom d1, eval_of_fits (fun _ => i64_of_mem) h, value_temperature]

theorem pressureOf_eq {dT : ℤ} (h : Expr.pressure.Fits int64 (Variable.value prom d1 dT)) :
    pressureOf prom d1 dT = Exact.pressure prom d1 dT := by
  rw [← eval_pressure, eval_of_fits (fun _ => i64_of_mem) h, value_pressure]

/-- Below the reference temperature, the temperature is too large by 512 times a word of the
PROM. -/
theorem ofInt_temperature_iff (dT : ℤ) : Int32.ofInt (Exact.temperature prom (dT + 2 ^ 32)) =
    Int32.ofInt (Exact.temperature prom dT) ↔ (prom 6).toNat = 0 := by
  have hword := (prom 6).toNat_lt
  rw [Exact.temperature_add, ofInt_eq_iff (by omega) (by omega)]
  omega

theorem ofInt_pressure_iff (dT : ℤ) : Int32.ofInt (Exact.pressure prom d1 (dT + 2 ^ 32)) =
    Int32.ofInt (Exact.pressure prom d1 dT) ↔
      0 ≤ Exact.scaledPressure prom d1 dT % 2 ^ 15 + Exact.excess prom d1 ∧
        Exact.scaledPressure prom d1 dT % 2 ^ 15 + Exact.excess prom d1 < 2 ^ 15 := by
  have hd1 := d1.property
  have hword3 := (prom 3).toNat_lt
  have hword4 := (prom 4).toNat_lt
  have hproduct : (d1.val.toNat : ℤ) * (prom 3).toNat ≤ 2 ^ 24 * 2 ^ 16 := by
    exact_mod_cast Nat.mul_le_mul hd1.le hword3.le
  have hproduct0 : 0 ≤ (d1.val.toNat : ℤ) * (prom 3).toNat := by positivity
  have hexcess : -2 ^ 41 ≤ Exact.excess prom d1 ∧ Exact.excess prom d1 ≤ 2 ^ 43 := by
    unfold Exact.excess
    omega
  unfold Exact.pressure
  rw [Exact.scaledPressure_add, ofInt_eq_iff (by omega) (by omega)]
  omega

/-- If it gets lost, the product with `SENS` does not overflow. -/
theorem product_lt (h : Exact.dT prom d2 < 0) (hexcess : Exact.excess prom d1 < 2 ^ 15) :
    (d1.val.toNat : ℤ) * Exact.sens prom (Exact.dT prom d2 + 2 ^ 32) < 2 ^ 63 := by
  have hd2 := d2.property
  have hword4 := (prom 4).toNat_lt
  have hword5 := (prom 5).toNat_lt
  have hdT : Exact.dT prom d2 ∈ (⟨-2 ^ 24, -1⟩ : Interval) := by
    constructor <;> unfold Exact.dT at * <;> simp only <;> omega
  have hbound : (d1.val.toNat : ℤ) * Exact.sens prom (Exact.dT prom d2) ≤ 2 ^ 55 := by
    have hbox : ∀ v, Variable.value prom d1 (Exact.dT prom d2) v ∈ v.box ⟨-2 ^ 24, -1⟩ :=
      value_mem_box hdT
    exact value_sens prom d1 _ ▸ (product_bounds.mem (value_mem_bounds hbox _)).2
  have hmul : (d1.val.toNat : ℤ) *
      (Exact.sens prom (Exact.dT prom d2) + 2 ^ 24 * (prom 3).toNat) =
      d1.val.toNat * Exact.sens prom (Exact.dT prom d2) +
        2 ^ 24 * (d1.val.toNat * (prom 3).toNat) := by
    ring
  rw [Exact.sens_add, hmul]
  unfold Exact.excess at hexcess
  omega

/-- The call that completes the measurement. -/
theorem readBaro_eq {s : Baro} {i : BaroInput} (h : s.loopCount = 2)
    (htime : 10000 ≤ i.now - s.initTime) : s.readBaro i =
      { s with
        d2 := i.reading
        temperature := Int32.ofInt (temperatureOf s.prom (dT s.prom i.reading))
        pressure := Int32.ofInt (pressureOf s.prom s.d1 (dT s.prom i.reading))
        loopCount := 0 } := by
  have hzero : s.loopCount ≠ 0 := by rw [h]; decide
  have hone : s.loopCount ≠ 1 := by rw [h]; decide
  rw [readBaro, if_neg hzero, if_neg hone, if_pos h, if_neg (UInt32.not_lt.2 htime)]

theorem compensates_of_warm {s : Baro} {i : BaroInput} (h : s.loopCount = 2)
    (htime : 10000 ≤ i.now - s.initTime) (hwarm : 0 ≤ Exact.dT s.prom i.reading) :
    Compensates i s := by
  have hd2 := i.reading.property
  have hdT := dT_of_nonneg s.prom i.reading hwarm
  have hlt : Exact.dT s.prom i.reading ≤ 2 ^ 24 - 1 := by
    unfold Exact.dT
    omega
  have hbox : ∀ v, Variable.value s.prom s.d1 (dT s.prom i.reading) v ∈ v.box ⟨0, 2 ^ 24 - 1⟩ :=
    value_mem_box (hdT ▸ ⟨hwarm, hlt⟩)
  have htemperature := fits_of_within hbox (by decide +kernel : Expr.temperature.Within int64 _)
  have hpressure := fits_of_within hbox pressure_within
  refine ⟨?_, ?_, htemperature, hpressure⟩
  · rw [readBaro_eq h htime, temperatureOf_eq htemperature, hdT]
  · rw [readBaro_eq h htime, pressureOf_eq hpressure, hdT]

theorem compensates_iff_of_cold {s : Baro} {i : BaroInput} (h : s.loopCount = 2)
    (htime : 10000 ≤ i.now - s.initTime) (hcold : Exact.dT s.prom i.reading < 0) :
    Compensates i s ↔ (s.prom 6).toNat = 0 ∧
      0 ≤ Exact.scaledPressure s.prom s.d1 (Exact.dT s.prom i.reading) % 2 ^ 15 +
        Exact.excess s.prom s.d1 ∧
      Exact.scaledPressure s.prom s.d1 (Exact.dT s.prom i.reading) % 2 ^ 15 +
        Exact.excess s.prom s.d1 < 2 ^ 15 := by
  have hword := (s.prom 5).toNat_lt
  have hdT := dT_of_neg s.prom i.reading hcold
  have hmem : dT s.prom i.reading ∈ (⟨0, 2 ^ 32 - 1⟩ : Interval) := by
    rw [hdT]
    constructor <;> unfold Exact.dT at * <;> simp only <;> omega
  have hbox : ∀ v, Variable.value s.prom s.d1 (dT s.prom i.reading) v ∈ v.box ⟨0, 2 ^ 32 - 1⟩ :=
    value_mem_box hmem
  have htemperature := fits_of_within hbox temperature_within
  constructor
  · intro hexact
    have htemperature' := hexact.temperature
    have hpressure' := hexact.pressure
    rw [readBaro_eq h htime] at htemperature' hpressure'
    dsimp only at htemperature' hpressure'
    rw [temperatureOf_eq htemperature, hdT, ofInt_temperature_iff] at htemperature'
    rw [pressureOf_eq hexact.pressure_fits, hdT, ofInt_pressure_iff] at hpressure'
    exact ⟨htemperature', hpressure'⟩
  · rintro ⟨hzero, hlost⟩
    have hproduct := product_lt hcold (by omega : Exact.excess s.prom s.d1 < 2 ^ 15)
    have hpressure := fits_pressure hmem (hdT ▸ hproduct)
    refine ⟨?_, ?_, htemperature, hpressure⟩
    · rw [readBaro_eq h htime, temperatureOf_eq htemperature, hdT]
      exact (ofInt_temperature_iff _).2 hzero
    · rw [readBaro_eq h htime, pressureOf_eq hpressure, hdT]
      exact (ofInt_pressure_iff _).2 hlost

/-- A call that completes the measurement is exact just if the difference is, or if its
error gets lost. -/
theorem compensates_iff (s : Baro) (i : BaroInput) (h : s.loopCount = 2)
    (htime : 10000 ≤ i.now - s.initTime) :
    Compensates i s ↔ Compensable s.prom s.d1 i.reading := by
  rcases le_or_gt 0 (Exact.dT s.prom i.reading) with hwarm | hcold
  · refine iff_of_true (compensates_of_warm h htime hwarm) (Or.inl ?_)
    unfold Exact.dT at hwarm
    omega
  · rw [compensates_iff_of_cold h htime hcold, Compensable, or_iff_right]
    unfold Exact.dT at hcold
    omega

/-- The PROM of a sensor, with its reference at 20 °C. -/
def sensorProm : ℕ → UInt16
  | 1 => 40127
  | 2 => 36924
  | 3 => 23317
  | 4 => 23282
  | 5 => 33464
  | 6 => 28312
  | _ => 0

/-- It has been read once, and the second reading is due. -/
def due : Baro :=
  ⟨sensorProm, 2, ⟨9085466, by decide⟩, ⟨0, by decide⟩, 0, 0, 0⟩

theorem compensates_iff_due : Compensates ⟨10000, 10050, 0x82, 0xC1, 0x3E⟩ due :=
  (compensates_iff due ⟨10000, 10050, 0x82, 0xC1, 0x3E⟩ rfl (by decide)).2
    (Or.inl (by decide))

/-- Every call that completes the measurement is exact. -/
def AlwaysCompensates : Prop :=
  ∀ (s : Baro) (i : BaroInput), s.loopCount = 2 → 10000 ≤ i.now - s.initTime → Compensates i s

/-- A little below the reference temperature. -/
theorem not_alwaysCompensates : ¬AlwaysCompensates := by
  intro h
  have hcold := h due ⟨10000, 10050, 0x82, 0xB7, 0xFF⟩ rfl (by decide)
  rw [compensates_iff_of_cold rfl (by decide) (by decide)] at hcold
  exact absurd hcold.1 (by decide)

end Baro

end Quadrupel
