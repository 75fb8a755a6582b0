import Quadrupel.Run
import Quadrupel.Stuffing
import Mathlib

/-!
# Building and parsing messages

`crc.c` with `CRC_CCITT` selected : width 16, polynomial `0x1021`, initial remainder
`0xFFFF`, no reflection and no final exclusive or. `crcTable` is the table after
`crc_init`, which both programs call before they read or send a message.

`message.c` : `build_message`, `validate_message` and `parse_message` on the packed
45-byte `message_t` (type at 0, CRC at 1 and 2 with the low byte first, data from 3).
Both programs hand `parse_message` a buffer of exactly that size, so a `Parser` is that
buffer with the caller's `msg_index` and `is_escaped`, and `parser` is the machine that
reads bytes.

`parse_message` masks the byte after an escape and then sends it through the same
switch as a byte read raw. So the parser on a stream is the switch alone on the
unstuffed stream (`parser_run`, `silent_parser_iff`), and the proofs about the
parser are about `switch`. Between resets the switch copies bytes to the front of the
buffer (`run_switch`).
-/

namespace Quadrupel

/-! ## The CRC -/

/-- `POLYNOMIAL`. -/
def polynomial : UInt16 :=
  0x1021

/-- `INITIAL_REMAINDER`. -/
def initialRemainder : UInt16 :=
  0xFFFF

/-- `TOPBIT`. -/
def topBit : UInt16 :=
  0x8000

/-- One round of the bit loop of `crc_init`. -/
def divideBit (remainder : UInt16) : UInt16 :=
  if remainder &&& topBit ≠ 0 then (remainder <<< 1) ^^^ polynomial else remainder <<< 1

/-- The entry of `crcTable` that `crc_init` stores for `dividend`. -/
def crcTable (dividend : UInt8) : UInt16 :=
  divideBit^[8] (dividend.toUInt16 <<< 8)

/-- One round of the byte loop of `crc_fast`. -/
def crcStep (remainder : UInt16) (byte : UInt8) : UInt16 :=
  let data := byte ^^^ (remainder >>> 8).toUInt8
  crcTable data ^^^ (remainder <<< 8)

/-- `crc_fast` on the bytes of a message. -/
def crcFast (message : List UInt8) : UInt16 :=
  message.foldl crcStep initialRemainder

-- `CHECK_VALUE` : the CRC of the digits 1 to 9.
example : crcFast [0x31, 0x32, 0x33, 0x34, 0x35, 0x36, 0x37, 0x38, 0x39] = 0x29B1 := by
  decide +kernel

/-! ## Messages -/

/-- `START_BYTE`. -/
def startByte : UInt8 :=
  0x12

/-- `END_BYTE`. -/
def endByte : UInt8 :=
  0x13

/-- `ESCAPE`. -/
def escape : UInt8 :=
  0x7D

/-- `sizeof(message_data_u)`, the size of `logging_data_t`. -/
abbrev sizeofData : ℕ :=
  42

/-- `sizeof(message_t)`. -/
abbrev sizeofMessage : ℕ :=
  45

/-- `message_t`, and the buffers it is cast from and to. -/
abbrev Message :=
  Vector UInt8 sizeofMessage

namespace Message

/-- The `message_type` field. -/
def messageType (m : Message) : UInt8 :=
  m[0]

/-- The `crc` field. -/
def crc (m : Message) : UInt16 :=
  m[1].toUInt16 + (m[2].toUInt16 <<< 8)

/-- Assignment to the `crc` field. -/
def setCrc (m : Message) (crc : UInt16) : Message :=
  (m.set 1 crc.toUInt8).set 2 (crc >>> 8).toUInt8

/-- Byte `i` of the `data` field. -/
def data (m : Message) (i : ℕ) : UInt8 :=
  m[i + 3]?.getD 0

/-- Assignment to byte `i` of the `data` field. -/
def setData (m : Message) (i : ℕ) (b : UInt8) : Message :=
  m.setIfInBounds (i + 3) b

/-- `memcpy` of the bytes to the offset, as far as they fit. -/
def write (m : Message) (offset : ℕ) (bytes : List UInt8) : Message :=
  Vector.ofFn fun i => if offset ≤ i.val then bytes.getD (i - offset) m[i] else m[i]

/-- The first `n` bytes. -/
def bytes (m : Message) (n : ℕ) : List UInt8 :=
  m.toList.take n

theorem getElem_write (m : Message) (offset : ℕ) (bytes : List UInt8) {i : ℕ}
    (hi : i < sizeofMessage) :
    (m.write offset bytes)[i] = if offset ≤ i then bytes.getD (i - offset) m[i] else m[i] := by
  simp [write]

@[simp] theorem write_nil (m : Message) (offset : ℕ) : m.write offset [] = m := by
  ext i hi : 1
  simp [getElem_write]

/-- Writing one byte and then the rest after it. -/
theorem write_set (m : Message) {k : ℕ} (hk : k < sizeofMessage) (b : UInt8)
    (bytes : List UInt8) :
    Message.write (m.set k b) (k + 1) bytes = m.write k (b :: bytes) := by
  ext i hi : 1
  rw [getElem_write, getElem_write, Vector.getElem_set]
  rcases Nat.lt_trichotomy i k with h | rfl | h
  · rw [if_neg (by omega), if_neg (by omega), if_neg (by omega)]
  · rw [if_neg (by omega), if_pos rfl, if_pos (Nat.le_refl i), Nat.sub_self, List.getD_cons_zero]
  · obtain ⟨j, rfl⟩ : ∃ j, i = k + 1 + j := ⟨i - (k + 1), by omega⟩
    have hsub : k + 1 + j - k = j + 1 := by omega
    rw [if_pos (by omega), if_neg (by omega), if_pos (by omega), hsub, Nat.add_sub_cancel_left,
      List.getD_cons_succ]

/-- The bytes written at the front are read back from there. -/
theorem bytes_write (m : Message) {bytes : List UInt8} (h : bytes.length ≤ sizeofMessage) :
    (m.write 0 bytes).bytes bytes.length = bytes := by
  apply List.ext_getElem
  · simp [Message.bytes, h]
  · intro i _ hi
    have h45 : i < sizeofMessage := by omega
    simp [Message.bytes, getElem_write, hi]

theorem data_of_lt (m : Message) {i : ℕ} (hi : i + 3 < sizeofMessage) : m.data i = m[i + 3] := by
  simp [data, hi]

@[simp] theorem data_setData (m : Message) {i : ℕ} (hi : i + 3 < sizeofMessage) (b : UInt8)
    (j : ℕ) : (m.setData i b).data j = if i = j then b else m.data j := by
  unfold data setData
  by_cases h : i = j
  · subst h
    simp [hi]
  · simp [h]

@[simp] theorem crc_setCrc (m : Message) (c : UInt16) : (m.setCrc c).crc = c := by
  have hlt := c.toNat_lt
  apply UInt16.toNat_inj.mp
  simp [setCrc, crc, UInt16.toNat_add, UInt16.toNat_shiftLeft, UInt16.toNat_shiftRight,
    Nat.shiftLeft_eq, Nat.shiftRight_eq_div_pow]
  omega

theorem getElem_setCrc (m : Message) (c : UInt16) {i : ℕ} (hi : i < sizeofMessage) (h1 : i ≠ 1)
    (h2 : i ≠ 2) : (m.setCrc c)[i] = m[i] := by
  simp [setCrc, Ne.symm h1, Ne.symm h2]

theorem bytes_setCrc (m : Message) (c : UInt16) (n : ℕ) :
    (m.setCrc c).bytes n = ((m.bytes n).set 1 c.toUInt8).set 2 (c >>> 8).toUInt8 := by
  simp [bytes, setCrc, Vector.toList_set, List.take_set]

end Message

/-- The CRC that the bytes of a message carry. -/
def crcField (bytes : List UInt8) : UInt16 :=
  (bytes.getD 1 0).toUInt16 + ((bytes.getD 2 0).toUInt16 <<< 8)

/-- The bytes of a message with the CRC set to 0. -/
def clearCrc (bytes : List UInt8) : List UInt8 :=
  (bytes.set 1 0).set 2 0

theorem bytes_setCrc_zero (m : Message) (n : ℕ) : (m.setCrc 0).bytes n = clearCrc (m.bytes n) :=
  m.bytes_setCrc 0 n

theorem crcField_bytes (m : Message) {n : ℕ} (h : 3 ≤ n) : crcField (m.bytes n) = m.crc := by
  have h1 : 1 < n := by omega
  have h2 : 2 < n := by omega
  simp [crcField, Message.crc, Message.bytes, h1, h2]
  rfl

/-! ## `build_message` and `validate_message` -/

/-- `build_message` : the length of the message built, 0 if the data do not fit. -/
def buildMessage (messageType : UInt8) (messageData : List UInt8) : ℕ × Message :=
  let message : Message := (Vector.replicate sizeofMessage 0).set 0 messageType
  if messageData.length > sizeofData then (0, message)
  else
    let message := message.write 3 messageData
    let dataLen := messageData.length + 3
    let message := message.setCrc 0
    (dataLen, message.setCrc (crcFast (message.bytes dataLen)))

/-- `validate_message` : whether the CRC checks out, and the buffer with its `crc` field
cleared. -/
def validateMessage (buffer : Message) (bufferLen : ℕ) : Bool × Message :=
  if bufferLen > sizeofMessage then (false, buffer)
  else
    let crcReceived := buffer.crc
    let buffer := buffer.setCrc 0
    (crcReceived == crcFast (buffer.bytes bufferLen), buffer)

theorem validateMessage_of_le (buffer : Message) {n : ℕ} (hn : n ≤ sizeofMessage) :
    validateMessage buffer n =
      (buffer.crc == crcFast (clearCrc (buffer.bytes n)), buffer.setCrc 0) := by
  simp only [validateMessage, if_neg (Nat.not_lt.mpr hn), bytes_setCrc_zero]

/-! ## `parse_message` -/

/-- The variables that `parse_message` keeps between bytes. -/
structure Parser where
  msgIndex : ℕ
  isEscaped : Bool
  buffer : Message
deriving DecidableEq

/-- The switch of `parse_message`, on the byte with its mask removed. -/
def handleChar (c : UInt8) (p : Parser) : ℕ × Parser :=
  if c = startByte then (0, { p with msgIndex := 0 })
  else if c = endByte then
    let messageLen := p.msgIndex
    let validated := validateMessage p.buffer messageLen
    (if validated.1 then messageLen else 0, { p with msgIndex := 0, buffer := validated.2 })
  else if h : p.msgIndex < sizeofMessage then
    (0, { p with msgIndex := p.msgIndex + 1, buffer := p.buffer.set p.msgIndex c })
  else (0, { p with msgIndex := 0 })

/-- `parse_message` : the length of the message that the byte completes, 0 if it completes
none. -/
def parseMessage (c : UInt8) (p : Parser) : ℕ × Parser :=
  if p.isEscaped = false ∧ c = escape then (0, { p with isEscaped := true })
  else handleChar (if p.isEscaped then c ^^^ 0x20 else c) { p with isEscaped := false }

/-- The machine that feeds bytes to `parse_message`. -/
def parser : Machine Parser UInt8 ℕ where
  next p c := (parseMessage c p).2
  out p c := (parseMessage c p).1

/-- The machine that feeds unmasked bytes to the switch. -/
def switch : Machine Parser UInt8 ℕ where
  next p c := (handleChar c p).2
  out p c := (handleChar c p).1

theorem parser_next (p : Parser) (c : UInt8) : parser.next p c = (parseMessage c p).2 :=
  rfl

theorem parser_out (p : Parser) (c : UInt8) : parser.out p c = (parseMessage c p).1 :=
  rfl

theorem switch_next (p : Parser) (c : UInt8) : switch.next p c = (handleChar c p).2 :=
  rfl

/-- The stuffing that the two `send_message` apply. -/
def stuffing : Stuffing UInt8 where
  escape := escape
  reserved b := b == startByte || b == endByte || b == escape
  mask b := b ^^^ 0x20
  reserved_escape := by decide
  mask_mask b := by rw [UInt8.xor_assoc, UInt8.xor_self, UInt8.xor_zero]

/-! ## The parser on a stream -/

/-- Assignment to `is_escaped`. -/
def Parser.setEscaped (p : Parser) (isEscaped : Bool) : Parser :=
  { p with isEscaped }

theorem Parser.setEscaped_of {p : Parser} {b : Bool} (h : p.isEscaped = b) :
    p.setEscaped b = p := by
  cases h
  rfl

theorem handleChar_isEscaped (c : UInt8) (p : Parser) :
    (handleChar c p).2.isEscaped = p.isEscaped := by
  unfold handleChar
  split_ifs <;> rfl

theorem isEscaped_run_switch (p : Parser) (bs : List UInt8) :
    (switch.run p bs).isEscaped = p.isEscaped := by
  induction bs generalizing p with
  | nil => rfl
  | cons b bs ih => rw [Machine.run_cons, ih, switch, handleChar_isEscaped]

theorem parseMessage_escape {p : Parser} (h : p.isEscaped = false) :
    parseMessage escape p = (0, p.setEscaped true) := by
  simp [parseMessage, h, Parser.setEscaped]

theorem parseMessage_raw {p : Parser} (h : p.isEscaped = false) {c : UInt8} (hc : c ≠ escape) :
    parseMessage c p = handleChar c (p.setEscaped false) := by
  simp [parseMessage, h, hc, Parser.setEscaped]

theorem parseMessage_masked {p : Parser} (h : p.isEscaped = true) (c : UInt8) :
    parseMessage c p = handleChar (stuffing.mask c) (p.setEscaped false) := by
  simp [parseMessage, h, Parser.setEscaped, stuffing]

theorem setEscaped_handleChar (c : UInt8) (p : Parser) :
    (handleChar c (p.setEscaped false)).2.setEscaped false =
      (handleChar c (p.setEscaped false)).2 :=
  Parser.setEscaped_of (handleChar_isEscaped _ _)

/-- The parser on a stream is the switch on the unstuffed stream. -/
theorem parser_run (p : Parser) (s : List UInt8) :
    parser.run p s =
      (switch.run (p.setEscaped false) (stuffing.unstuff p.isEscaped s)).setEscaped
        (stuffing.pending p.isEscaped s) := by
  induction s generalizing p with
  | nil => simp [Parser.setEscaped]
  | cons c s ih =>
    rw [Machine.run_cons, ih, parser_next]
    cases hp : p.isEscaped with
    | true =>
      rw [parseMessage_masked hp, setEscaped_handleChar, handleChar_isEscaped]
      rfl
    | false =>
      by_cases hc : c = escape
      · rw [hc, parseMessage_escape hp]
        exact congrArg₂ _ (congrArg _ (stuffing.unstuff_escape s).symm)
          (stuffing.pending_escape s).symm
      · rw [parseMessage_raw hp hc, setEscaped_handleChar, handleChar_isEscaped,
          stuffing.unstuff_raw hc, stuffing.pending_raw hc]
        rfl

/-- The parser stays silent on a stream iff the switch does on the unstuffed stream. -/
theorem silent_parser_iff (p : Parser) (s : List UInt8) :
    (∀ o ∈ parser.outputs p s, o = 0) ↔
      ∀ o ∈ switch.outputs (p.setEscaped false) (stuffing.unstuff p.isEscaped s), o = 0 := by
  induction s generalizing p with
  | nil => simp
  | cons c s ih =>
    rw [Machine.outputs_cons, List.forall_mem_cons, ih, parser_next, parser_out]
    cases hp : p.isEscaped with
    | true =>
      rw [parseMessage_masked hp, setEscaped_handleChar, handleChar_isEscaped,
        stuffing.unstuff_masked, Machine.outputs_cons, List.forall_mem_cons]
      rfl
    | false =>
      by_cases hc : c = escape
      · rw [hc, parseMessage_escape hp,
          show stuffing.unstuff false (escape :: s) = _ from stuffing.unstuff_escape s]
        exact and_iff_right rfl
      · rw [parseMessage_raw hp hc, setEscaped_handleChar, handleChar_isEscaped,
          stuffing.unstuff_raw hc, Machine.outputs_cons, List.forall_mem_cons]
        rfl

/-! ## The switch between resets -/

/-- The bytes that the switch does not store. -/
def IsControl (c : UInt8) : Prop :=
  c = startByte ∨ c = endByte

instance (c : UInt8) : Decidable (IsControl c) :=
  inferInstanceAs (Decidable (_ ∨ _))

theorem handleChar_store {p : Parser} {c : UInt8} (hc : ¬IsControl c)
    (h : p.msgIndex < sizeofMessage) :
    handleChar c p =
      (0, { p with msgIndex := p.msgIndex + 1, buffer := p.buffer.set p.msgIndex c }) := by
  rw [IsControl, not_or] at hc
  simp [handleChar, hc.1, hc.2, h]

/-- Bytes other than `START_BYTE` and `END_BYTE` are copied into the buffer. -/
theorem run_switch {p : Parser} {bs : List UInt8} (hbs : ∀ b ∈ bs, ¬IsControl b)
    (h : p.msgIndex + bs.length ≤ sizeofMessage) :
    switch.run p bs = { p with
      msgIndex := p.msgIndex + bs.length, buffer := p.buffer.write p.msgIndex bs } := by
  induction bs generalizing p with
  | nil => simp
  | cons b bs ih =>
    rw [List.forall_mem_cons] at hbs
    rw [List.length_cons] at h
    have hlt : p.msgIndex < sizeofMessage := by omega
    rw [Machine.run_cons, switch_next, handleChar_store hbs.1 hlt,
      ih hbs.2 (by simp only; omega), Message.write_set]
    simp only [List.length_cons, Nat.add_assoc, Nat.add_comm 1]

theorem out_switch {c : UInt8} (hc : c ≠ endByte) (p : Parser) : switch.out p c = 0 := by
  simp only [switch, handleChar, if_neg hc]
  split_ifs <;> rfl

/-- Without an `END_BYTE` the switch is silent. -/
theorem silent_switch {bs : List UInt8} (hbs : ∀ b ∈ bs, b ≠ endByte) (p : Parser) :
    ∀ o ∈ switch.outputs p bs, o = 0 := by
  induction bs generalizing p with
  | nil => simp
  | cons b bs ih =>
    rw [List.forall_mem_cons] at hbs
    rw [Machine.outputs_cons, List.forall_mem_cons]
    exact ⟨out_switch hbs.1 p, ih hbs.2 _⟩

theorem msgIndex_next_le (p : Parser) (c : UInt8) :
    (switch.next p c).msgIndex ≤ p.msgIndex + 1 := by
  simp only [switch, handleChar]
  split_ifs <;> simp

theorem msgIndex_next_control (p : Parser) {c : UInt8} (hc : IsControl c) :
    (switch.next p c).msgIndex = 0 := by
  rcases hc with rfl | rfl <;> rfl

theorem msgIndex_run_le (p : Parser) (bs : List UInt8) :
    (switch.run p bs).msgIndex ≤ p.msgIndex + bs.length := by
  induction bs generalizing p with
  | nil => simp
  | cons b bs ih =>
    have h1 := ih (switch.next p b)
    have h2 := msgIndex_next_le p b
    rw [Machine.run_cons, List.length_cons]
    omega

/-- A `START_BYTE` or `END_BYTE` among the bytes loses those before it. -/
theorem msgIndex_run_lt (p : Parser) {bs : List UInt8} (hbs : ∃ b ∈ bs, IsControl b) :
    (switch.run p bs).msgIndex < bs.length := by
  obtain ⟨b, hb, hc⟩ := hbs
  obtain ⟨as, cs, rfl⟩ := List.append_of_mem hb
  have h := msgIndex_run_le (switch.next (switch.run p as) b) cs
  rw [msgIndex_next_control _ hc] at h
  rw [Machine.run_append, Machine.run_cons, List.length_append, List.length_cons]
  omega

end Quadrupel
