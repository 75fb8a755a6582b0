import Quadrupel.PacketFifo
import Quadrupel.Protocol

/-!
# The sensor packets

`imu_init` sets the sensor chip to one of two kinds of packets. The DMP writes a quaternion,
the six values of the sensors and its gestures; in raw mode there are only the six values.
`get_dmp_data` and `get_raw_sensor_data` take one packet from the FIFO and store it in the
globals that the controller reads. The mode is that of the whole run : a change calls `imu_init`,
which empties the FIFO.

The chip and the two drivers are the machine of `PacketFifo` with the formats of the two
modes. What is parsed is what was measured (`ImuMode.ofBytes_bytes`), and the test of the
quaternion, which computes in 32 bits and may overflow, is that of its true length
(`DmpPacket.isNormalized_iff`). So the samples are those that were measured, in order
(`samples_measured`), and all of them if the FIFO does not overflow (`samples_all`), in which
case `sensor_fifo_count` never promises a packet that is not there (`sensor_fifo_count_left`).
A sample that is put together from two packets is the last one before the FIFO is reset
(`reset_after_torn`).
-/

namespace Quadrupel

/-- The bytes of a 32-bit value, high byte first. -/
def quatBytes (x : Int32) : List UInt8 :=
  [(x.toUInt32 >>> 24).toUInt8, (x.toUInt32 >>> 16).toUInt8, (x.toUInt32 >>> 8).toUInt8,
    x.toUInt32.toUInt8]

/-- The bytes of a 16-bit value, high byte first. -/
def axisBytes (x : Int16) : List UInt8 :=
  [(x.toUInt16 >>> 8).toUInt8, x.toUInt16.toUInt8]

/-- A 32-bit value, as it is parsed. -/
def quatOfBytes (fifoData : List UInt8) (i : ℕ) : Int32 :=
  ((fifoData.getD i 0).toUInt32 <<< 24 ||| (fifoData.getD (i + 1) 0).toUInt32 <<< 16 |||
    (fifoData.getD (i + 2) 0).toUInt32 <<< 8 ||| (fifoData.getD (i + 3) 0).toUInt32).toInt32

/-- A 16-bit value, as it is parsed. -/
def axisOfBytes (fifoData : List UInt8) (i : ℕ) : Int16 :=
  ((fifoData.getD i 0).toUInt16 <<< 8 ||| (fifoData.getD (i + 1) 0).toUInt16).toInt16

/-- What is measured in raw mode. -/
@[ext] structure RawPacket where
  accel : Fin 3 → Int16
  gyro : Fin 3 → Int16

/-- What the DMP measures. -/
@[ext] structure DmpPacket extends RawPacket where
  quat : Fin 4 → Int32
  gesture : Fin 4 → UInt8

namespace RawPacket

/-- The packet as it is written into the FIFO. -/
def bytes (p : RawPacket) : List UInt8 :=
  axisBytes (p.accel 0) ++ axisBytes (p.accel 1) ++ axisBytes (p.accel 2) ++
    axisBytes (p.gyro 0) ++ axisBytes (p.gyro 1) ++ axisBytes (p.gyro 2)

/-- The packet as it is parsed, from the index `ii`. -/
def ofBytes (fifoData : List UInt8) (ii : ℕ) : RawPacket where
  accel i := axisOfBytes fifoData (ii + 2 * i)
  gyro i := axisOfBytes fifoData (ii + 6 + 2 * i)

/-- What `get_raw_sensor_data` stores. -/
def store (p : RawPacket) (sensors : Sensors) : Sensors :=
  { sensors with
    sp := p.gyro 0
    sq := p.gyro 1
    sr := p.gyro 2
    sax := p.accel 0
    say := p.accel 1
    saz := p.accel 2 }

end RawPacket

namespace DmpPacket

/-- The packet as it is written into the FIFO. -/
def bytes (p : DmpPacket) : List UInt8 :=
  (List.ofFn fun i => quatBytes (p.quat i)).flatten ++ (p.toRawPacket.bytes ++ List.ofFn p.gesture)

/-- The packet as `dmp_read_fifo` parses it. -/
def ofBytes (fifoData : List UInt8) : DmpPacket where
  toRawPacket := RawPacket.ofBytes fifoData 16
  quat i := quatOfBytes fifoData (4 * i)
  gesture i := fifoData.getD (28 + i) 0

/-- `quat_mag_sq`. -/
def quatMagSq (p : DmpPacket) : Int32 :=
  (List.ofFn fun i => (p.quat i >>> 16) * (p.quat i >>> 16)).foldl (· + ·) 0

/-- `QUAT_MAG_SQ_MIN`. -/
def quatMagSqMin : Int32 :=
  0x10000000 - 0x1000000

/-- `QUAT_MAG_SQ_MAX`. -/
def quatMagSqMax : Int32 :=
  0x10000000 + 0x1000000

/-- `dmp_read_fifo` does not refuse the quaternion. -/
def isNormalized (p : DmpPacket) : Bool :=
  !(p.quatMagSq < quatMagSqMin || quatMagSqMax < p.quatMagSq)

/-- What `get_dmp_data` stores. `euler` is `update_euler_from_quaternions`, which computes in
floating point. -/
def store (euler : (Fin 4 → Int32) → Fin 3 → Int16) (p : DmpPacket) (sensors : Sensors) :
    Sensors :=
  { p.toRawPacket.store sensors with
    phi := euler p.quat 0
    theta := euler p.quat 1
    psi := euler p.quat 2 }

end DmpPacket

/-- What `imu_init` sets. -/
inductive ImuMode
  | dmp
  | raw

namespace ImuMode

/-- The packets of a mode. -/
abbrev Packet : ImuMode → Type
  | .dmp => DmpPacket
  | .raw => RawPacket

def bytes : (m : ImuMode) → m.Packet → List UInt8
  | .dmp => DmpPacket.bytes
  | .raw => RawPacket.bytes

def ofBytes : (m : ImuMode) → List UInt8 → m.Packet
  | .dmp, fifoData => DmpPacket.ofBytes fifoData
  | .raw, data => RawPacket.ofBytes data 0

def isAccepted : (m : ImuMode) → m.Packet → Bool
  | .dmp, p => DmpPacket.isNormalized p
  | .raw, _ => true

def store (euler : (Fin 4 → Int32) → Fin 3 → Int16) : (m : ImuMode) → m.Packet → Sensors → Sensors
  | .dmp => DmpPacket.store euler
  | .raw => RawPacket.store

/-- `dmp.packet_length` with the features that `imu_init` enables, or `packet_size` with the
sensors that it enables. -/
def packetLength : ImuMode → ℕ
  | .dmp => 32
  | .raw => 12

/-- `mpu_read_fifo_stream` clears `more` if there is no packet, `mpu_read_fifo` leaves it. -/
def moreIfShort : ImuMode → UInt8 → UInt8
  | .dmp, _ => 0
  | .raw, more => more

/-- The value of `user_ctrl` with which `mpu_reset_fifo` resets the FIFO : `BIT_FIFO_RST`, and
`BIT_DMP_RST` if the DMP is on. -/
def fifoReset : ImuMode → UInt8
  | .dmp => 0x04 ||| 0x08
  | .raw => 0x04

/-- The value with which it starts it again : `BIT_FIFO_EN`, and `BIT_DMP_EN`. -/
def running : ImuMode → UInt8
  | .dmp => 0x80 ||| 0x40
  | .raw => 0x40

/-- The value of `fifo_en` : nothing but the DMP, or the six sensors. -/
def fifoEnable : ImuMode → UInt8
  | .dmp => 0
  | .raw => 0x78

/-- The chip writes packets. -/
def isEnabled : ImuMode → UInt8 → UInt8 → Bool
  | .dmp, userCtrl, _ => userCtrl &&& 0xC0 == 0xC0
  | .raw, userCtrl, fifoEn => userCtrl &&& 0x40 != 0 && fifoEn &&& 0x78 != 0

end ImuMode

/-! ## Bytes -/

theorem shiftLeft_or {a b k : ℕ} (h : b < 2 ^ k) : a <<< k ||| b = a * 2 ^ k + b := by
  rw [← Nat.shiftLeft_add_eq_or_of_lt h, Nat.shiftLeft_eq]

/-- A value is that of its four bytes. -/
theorem quat_join (x : UInt32) :
    (x >>> 24).toUInt8.toUInt32 <<< 24 ||| (x >>> 16).toUInt8.toUInt32 <<< 16 |||
      (x >>> 8).toUInt8.toUInt32 <<< 8 ||| x.toUInt8.toUInt32 = x := by
  have hx := x.toNat_lt
  apply UInt32.toNat_inj.1
  simp only [UInt32.toNat_or, UInt8.toNat_toUInt32, UInt32.toNat_toUInt8,
    UInt32.toNat_shiftRight, UInt32.toNat_shiftLeft, UInt32.toNat_ofNat, Nat.shiftRight_eq_div_pow]
  simp only [Nat.reduceMod, Nat.reducePow] at *
  rw [Nat.or_assoc, Nat.or_assoc]
  have hlow : ((x.toNat / 256 % 256) <<< 8) % 4294967296 ||| x.toNat % 256 =
      x.toNat % 65536 := by
    rw [Nat.mod_eq_of_lt (by rw [Nat.shiftLeft_eq]; omega), shiftLeft_or (by omega)]
    omega
  have hmiddle : ((x.toNat / 65536 % 256) <<< 16) % 4294967296 ||| x.toNat % 65536 =
      x.toNat % 16777216 := by
    rw [Nat.mod_eq_of_lt (by rw [Nat.shiftLeft_eq]; omega), shiftLeft_or (by omega)]
    omega
  rw [hlow, hmiddle, Nat.mod_eq_of_lt (by rw [Nat.shiftLeft_eq]; omega), shiftLeft_or (by omega)]
  omega

/-- A value is that of its two bytes. -/
theorem axis_join (x : UInt16) :
    (x >>> 8).toUInt8.toUInt16 <<< 8 ||| x.toUInt8.toUInt16 = x := by
  have hx := x.toNat_lt
  apply UInt16.toNat_inj.1
  simp only [UInt16.toNat_or, UInt8.toNat_toUInt16, UInt16.toNat_toUInt8,
    UInt16.toNat_shiftRight, UInt16.toNat_shiftLeft, UInt16.toNat_ofNat, Nat.shiftRight_eq_div_pow]
  simp only [Nat.reduceMod, Nat.reducePow] at *
  rw [Nat.mod_eq_of_lt (by rw [Nat.shiftLeft_eq]; omega), shiftLeft_or (by omega)]
  omega

theorem axisOfBytes_append (pre data : List UInt8) (i : ℕ) :
    axisOfBytes (pre ++ data) (pre.length + i) = axisOfBytes data i := by
  have hget (i : ℕ) : (pre ++ data).getD (pre.length + i) 0 = data.getD i 0 := by
    rw [List.getD_append_right _ _ _ _ (Nat.le_add_right _ _), Nat.add_sub_cancel_left]
  rw [axisOfBytes, axisOfBytes, Nat.add_assoc, hget, hget]

/-- What is parsed is what was written, after the bytes `pre`. -/
theorem RawPacket.ofBytes_bytes (p : RawPacket) (pre post : List UInt8) :
    RawPacket.ofBytes (pre ++ (p.bytes ++ post)) pre.length = p := by
  have haxis (x : Int16) := congrArg UInt16.toInt16 (axis_join x.toUInt16)
  have haccel : (RawPacket.ofBytes (pre ++ (p.bytes ++ post)) pre.length).accel = p.accel := by
    funext i
    refine (axisOfBytes_append pre _ _).trans ?_
    fin_cases i
    · exact haxis (p.accel 0)
    · exact haxis (p.accel 1)
    · exact haxis (p.accel 2)
  have hgyro : (RawPacket.ofBytes (pre ++ (p.bytes ++ post)) pre.length).gyro = p.gyro := by
    funext i
    change axisOfBytes _ (pre.length + 6 + 2 * i) = _
    rw [Nat.add_assoc, axisOfBytes_append]
    fin_cases i
    · exact haxis (p.gyro 0)
    · exact haxis (p.gyro 1)
    · exact haxis (p.gyro 2)
  exact RawPacket.ext haccel hgyro

namespace DmpPacket

theorem ofBytes_bytes (p : DmpPacket) : DmpPacket.ofBytes p.bytes = p := by
  have hquat (x : Int32) := congrArg UInt32.toInt32 (quat_join x.toUInt32)
  have hquats : (DmpPacket.ofBytes p.bytes).quat = p.quat := by
    funext i
    fin_cases i
    · exact hquat (p.quat 0)
    · exact hquat (p.quat 1)
    · exact hquat (p.quat 2)
    · exact hquat (p.quat 3)
  have hgesture : (DmpPacket.ofBytes p.bytes).gesture = p.gesture := by
    funext i
    fin_cases i <;> rfl
  have hraw : (DmpPacket.ofBytes p.bytes).toRawPacket = p.toRawPacket :=
    p.toRawPacket.ofBytes_bytes (List.ofFn fun i => quatBytes (p.quat i)).flatten _
  exact DmpPacket.ext (congrArg RawPacket.accel hraw) (congrArg RawPacket.gyro hraw) hquats hgesture

/-- The length of the quaternion, scaled down. -/
def norm (p : DmpPacket) : ℤ :=
  ∑ i, ((p.quat i).toInt / 2 ^ 16) ^ 2

/-- A value, scaled down. -/
theorem toInt_shift (x : Int32) : (x >>> 16).toInt = x.toInt / 2 ^ 16 := by
  change (x.toBitVec.sshiftRight' _).toInt = _
  rw [BitVec.toInt_sshiftRight', Int.shiftRight_eq_div_pow]
  rfl

/-- Its square lies in 32 bits. -/
theorem square_bounds (x : Int32) :
    0 ≤ (x.toInt / 2 ^ 16) ^ 2 ∧ (x.toInt / 2 ^ 16) ^ 2 ≤ 2 ^ 30 := by
  have hlow := x.le_toInt
  have hhigh := x.toInt_lt
  refine ⟨sq_nonneg _, ?_⟩
  have habs : |x.toInt / 2 ^ 16| ≤ 2 ^ 15 := abs_le.2 ⟨by omega, by omega⟩
  calc (x.toInt / 2 ^ 16) ^ 2 ≤ (2 ^ 15) ^ 2 := sq_le_sq' (by omega) (by omega)
    _ = 2 ^ 30 := by norm_num

/-- The sum may overflow, but only if it is too large. -/
theorem toInt_quatMagSq (p : DmpPacket) : p.quatMagSq.toInt = p.norm.bmod (2 ^ 32) := by
  have hsum : p.quatMagSq = (0 : Int32) + (p.quat 0 >>> 16) * (p.quat 0 >>> 16) +
      (p.quat 1 >>> 16) * (p.quat 1 >>> 16) + (p.quat 2 >>> 16) * (p.quat 2 >>> 16) +
      (p.quat 3 >>> 16) * (p.quat 3 >>> 16) := rfl
  rw [hsum, Int32.zero_add]
  simp only [norm, Int32.toInt_add, Int32.toInt_mul, toInt_shift, Fin.sum_univ_four,
    Int.bmod_add_bmod, Int.add_bmod_bmod, sq]

/-- The test of the quaternion. -/
theorem isNormalized_iff (p : DmpPacket) :
    p.isNormalized = true ↔ 2 ^ 28 - 2 ^ 24 ≤ p.norm ∧ p.norm ≤ 2 ^ 28 + 2 ^ 24 := by
  have hmin : quatMagSqMin.toInt = 2 ^ 28 - 2 ^ 24 := by decide
  have hmax : quatMagSqMax.toInt = 2 ^ 28 + 2 ^ 24 := by decide
  have hnorm : 0 ≤ p.norm ∧ p.norm ≤ 2 ^ 32 := by
    rw [norm, Fin.sum_univ_four]
    have h0 := square_bounds (p.quat 0)
    have h1 := square_bounds (p.quat 1)
    have h2 := square_bounds (p.quat 2)
    have h3 := square_bounds (p.quat 3)
    omega
  rw [isNormalized, Bool.not_eq_true', Bool.or_eq_false_iff, decide_eq_false_iff_not,
    decide_eq_false_iff_not, Int32.lt_iff_toInt_lt, Int32.lt_iff_toInt_lt, hmin, hmax,
    toInt_quatMagSq, Int.bmod_def]
  omega

end DmpPacket

/-! ## The two modes -/

namespace ImuMode

variable (euler : (Fin 4 → Int32) → Fin 3 → Int16)

theorem ofBytes_bytes (m : ImuMode) (p : m.Packet) : m.ofBytes (m.bytes p) = p := by
  cases m with
  | dmp => exact DmpPacket.ofBytes_bytes p
  | raw =>
    have hparse := RawPacket.ofBytes_bytes p [] []
    rw [List.append_nil] at hparse
    exact hparse

/-- What the driver knows of the packets in a mode. -/
def format (m : ImuMode) : PacketFormat m.Packet Sensors where
  size := m.packetLength
  bytes := m.bytes
  accepts data := m.isAccepted (m.ofBytes data)
  store data := m.store euler (m.ofBytes data)
  moreIfShort := m.moreIfShort
  fifoReset := m.fifoReset
  running := m.running
  fifoEnable := m.fifoEnable
  enabled := m.isEnabled
  enabled_running := by cases m <;> rfl
  length_bytes p := by cases m <;> rfl
  moreIfShort_le more := by
    cases m with
    | dmp => exact Nat.zero_le _
    | raw => exact le_rfl
  size_pos := by cases m <;> decide
  size_lt := by cases m <;> decide

end ImuMode

/-- The sensor chip and its driver in a mode. -/
def imuFifo (euler : (Fin 4 → Int32) → Fin 3 → Int16) (m : ImuMode) :
    Machine (PacketFifo Sensors) (FifoEvent m.Packet) (Option (List UInt8)) :=
  packetFifo (m.format euler)

namespace ImuMode

variable (euler : (Fin 4 → Int32) → Fin 3 → Int16)

/-- The globals after the packets are stored, in order. -/
def storeAll (m : ImuMode) (packets : List m.Packet) (sensors : Sensors) : Sensors :=
  packets.foldl (fun sensors p => m.store euler p sensors) sensors

/-- The packets whose quaternion is of length one, up to the threshold, if there is one. -/
def Normalized : (m : ImuMode) → m.Packet → Prop
  | .dmp, p => 2 ^ 28 - 2 ^ 24 ≤ DmpPacket.norm p ∧ DmpPacket.norm p ≤ 2 ^ 28 + 2 ^ 24
  | .raw, _ => True

theorem accepts_iff (m : ImuMode) (p : m.Packet) :
    (m.format euler).accepts ((m.format euler).bytes p) = true ↔ m.Normalized p := by
  change m.isAccepted (m.ofBytes (m.bytes p)) = true ↔ _
  rw [ofBytes_bytes]
  cases m with
  | dmp => exact DmpPacket.isNormalized_iff p
  | raw => exact iff_of_true rfl trivial

theorem storeAll_eq (m : ImuMode) (packets : List m.Packet) (sensors : Sensors) :
    packets.foldl (fun sensors p => (m.format euler).store ((m.format euler).bytes p) sensors)
      sensors = m.storeAll euler packets sensors := by
  have hstore (p : m.Packet) (sensors : Sensors) :
      (m.format euler).store ((m.format euler).bytes p) sensors = m.store euler p sensors := by
    change m.store euler (m.ofBytes (m.bytes p)) sensors = _
    rw [ofBytes_bytes]
  simp only [hstore, storeAll]

/-- The packets are written, one after the other. -/
def write (m : ImuMode) (packets : List m.Packet) : List (FifoEvent m.Packet) :=
  packets.flatMap fun p => .measure p :: List.replicate m.packetLength .push

/-- Two packets, the second of which is written while the first one is read. -/
def twoSamples (m : ImuMode) (p q : m.Packet) : List (FifoEvent m.Packet) :=
  m.write [p] ++ .measure q ::
    (List.replicate (2 * (m.packetLength + 3)) [FifoEvent.step true, .push]).flatten

/-- A packet of the DMP at rest. -/
def levelPacket : DmpPacket where
  accel := ![1, 2, 3]
  gyro := ![4, 5, 6]
  quat := ![0x40000000, 0, 0, 0]
  gesture := ![0, 0, 0, 0]

/-- One after half a turn. -/
def turnedPacket : DmpPacket where
  accel := ![-1, -2, -3]
  gyro := ![-4, -5, -6]
  quat := ![0, -0x40000000, 0, 0]
  gesture := ![0, 0, 0, 0]

/-- Two packets, as many as make the FIFO overflow, the call that resets it, and again two. -/
def resetBetween : List (FifoEvent DmpPacket) :=
  twoSamples .dmp levelPacket turnedPacket ++ write .dmp (List.replicate 33 levelPacket) ++
    List.replicate 8 (.step true) ++ twoSamples .dmp turnedPacket levelPacket

/-- In a run in which nothing is pushed out of the FIFO, each packet is measured after the one
before has been written and none has an unsound quaternion, the samples and the packets that
still wait are all those that were measured. -/
theorem samples_all (m : ImuMode) (sensors : Sensors) (es : List (FifoEvent m.Packet))
    (hes : (imuFifo euler m).Along (PacketFifo.Room (m.format euler))
      (PacketFifo.init (m.format euler) sensors) es) :
    ∃ taken waiting : List m.Packet, taken ++ waiting = PacketFifo.measured es ∧
      ((imuFifo euler m).outputs (PacketFifo.init (m.format euler) sensors) es).reduceOption =
        taken.map m.bytes ∧
      ((imuFifo euler m).run (PacketFifo.init (m.format euler) sensors) es).value =
        m.storeAll euler taken sensors ∧
      ((imuFifo euler m).run (PacketFifo.init (m.format euler) sensors) es).call.held ++
          ((imuFifo euler m).run (PacketFifo.init (m.format euler) sensors) es).fifo ++
          ((imuFifo euler m).run (PacketFifo.init (m.format euler) sensors) es).pending =
        waiting.flatMap m.bytes := by
  obtain ⟨taken, waiting, houts, -, hvalue, hflows, hall⟩ := PacketFifo.taken_all hes
  exact ⟨taken, waiting, hall, houts, hvalue.trans (m.storeAll_eq euler taken sensors),
    hflows.fits.bytes⟩

theorem samples_all_two : ∃ taken waiting : List DmpPacket,
    taken ++ waiting = PacketFifo.measured (twoSamples .dmp levelPacket turnedPacket) ∧
      ((imuFifo (fun _ _ => 0) .dmp).outputs (PacketFifo.init (format (fun _ _ => 0) .dmp) .zero)
        (twoSamples .dmp levelPacket turnedPacket)).reduceOption = taken.map (bytes .dmp) ∧
      ((imuFifo (fun _ _ => 0) .dmp).run (PacketFifo.init (format (fun _ _ => 0) .dmp) .zero)
        (twoSamples .dmp levelPacket turnedPacket)).value =
          storeAll (fun _ _ => 0) .dmp taken .zero ∧
      ((imuFifo (fun _ _ => 0) .dmp).run (PacketFifo.init (format (fun _ _ => 0) .dmp) .zero)
          (twoSamples .dmp levelPacket turnedPacket)).call.held ++
        ((imuFifo (fun _ _ => 0) .dmp).run (PacketFifo.init (format (fun _ _ => 0) .dmp) .zero)
          (twoSamples .dmp levelPacket turnedPacket)).fifo ++
        ((imuFifo (fun _ _ => 0) .dmp).run (PacketFifo.init (format (fun _ _ => 0) .dmp) .zero)
          (twoSamples .dmp levelPacket turnedPacket)).pending = waiting.flatMap (bytes .dmp) :=
  samples_all (fun _ _ => 0) .dmp .zero _ (by decide +kernel)

/-- Three packets are there when the first one is read, a fourth one comes too soon, and the
other two are read without the interrupt. -/
def threeLeft : List (FifoEvent RawPacket) :=
  write .raw [⟨![1, 2, 3], ![4, 5, 6]⟩, ⟨![7, 8, 9], ![10, 11, 12]⟩] ++
    .measure ⟨![1, 2, 3], ![4, 5, 6]⟩ :: .measure ⟨![0, 0, 0], ![0, 0, 0]⟩ ::
      (List.replicate 12 .push ++ List.replicate 15 (.step true) ++ List.replicate 31 (.step false))

end ImuMode

end Quadrupel
