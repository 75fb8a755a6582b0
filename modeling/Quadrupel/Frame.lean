import Quadrupel.Message

/-!
# Frames and their decoding

The two `send_message`, and what `parse_message` makes of the frames they emit. A frame
decodes to its message iff none of the message's bytes is `START_BYTE` or `END_BYTE`
(`decodes_frame_iff`) : those are escaped on the wire, but the parser unmasks them and
then takes them for the real ones. An `ESCAPE` in the message does no harm.

`bytes_buildMessage` lists the bytes of a built message, and `decodeUndoesEncode_iff`
puts the two together for every message that `build_message` makes.

A frame also ends in one state of the parser, whatever it began in
(`self_synchronising`) : its last byte resets the index, and no escape is pending there,
even if one before the frame turned its `START_BYTE` into data.
-/

namespace Quadrupel

/-- `send_message` of the PC : the bytes put on the wire. -/
def Pc.sendMessage (message : Message) (messageLen : ℕ) : List UInt8 :=
  startByte :: stuffing.stuff (message.bytes messageLen) ++ [endByte]

/-- `send_message` of the drone, which adds a newline to flush the send buffer. -/
def Drone.sendMessage (message : Message) (messageLen : ℕ) : List UInt8 :=
  startByte :: stuffing.stuff (message.bytes messageLen) ++ [endByte, 0x0A]

/-- What every caller of `build_message` does with its result. -/
def sendBuilt (sendMessage : Message → ℕ → List UInt8) (built : ℕ × Message) : List UInt8 :=
  if built.1 > 0 then sendMessage built.2 built.1 else []

/-- Fed with a frame, the parser answers 0 on every byte but the last and `n` on the
last, and then its buffer starts with the first `n` bytes of `m` with the CRC cleared. -/
structure Decodes (p : Parser) (frame : List UInt8) (n : ℕ) (m : Message) : Prop where
  outputs : parser.outputs p frame = List.replicate (frame.length - 1) 0 ++ [n]
  content : (parser.run p frame).buffer.bytes n = (m.setCrc 0).bytes n

/-! ## The bytes of a built message -/

/-- The bytes that `build_message` fills in : type, CRC, data. -/
def messageBytes (messageType : UInt8) (messageData : List UInt8) : List UInt8 :=
  let crc := crcFast (messageType :: 0 :: 0 :: messageData)
  messageType :: crc.toUInt8 :: (crc >>> 8).toUInt8 :: messageData

theorem bytes_write_header (m : Message) {d : List UInt8} (hd : d.length ≤ sizeofData) :
    (m.write 3 d).bytes (d.length + 3) = m[0] :: m[1] :: m[2] :: d := by
  unfold sizeofData at hd
  apply List.ext_getElem
  · simp only [Message.bytes, List.length_take, Vector.length_toList, List.length_cons,
      sizeofMessage]
    omega
  · intro i _ hi
    simp only [List.length_cons] at hi
    have h45 : i < sizeofMessage := by
      unfold sizeofMessage
      omega
    simp only [Message.bytes, List.getElem_take, Vector.getElem_toList, Message.getElem_write]
    by_cases h3 : 3 ≤ i
    · obtain ⟨j, rfl⟩ := Nat.exists_eq_add_of_le' h3
      have hlt : j < d.length := by omega
      rw [if_pos h3, Nat.add_sub_cancel, List.getD_eq_getElem _ _ hlt]
      rfl
    · rw [if_neg h3]
      interval_cases i <;> rfl

theorem setCrc_zero_of_cleared {m : Message} (h1 : m[1] = 0) (h2 : m[2] = 0) : m.setCrc 0 = m := by
  ext i hi : 1
  simp only [Message.setCrc, Vector.getElem_set]
  split_ifs with h h'
  · subst h
    exact h2.symm
  · subst h'
    exact h1.symm
  · rfl

theorem length_buildMessage (t : UInt8) {d : List UInt8} (hd : d.length ≤ sizeofData) :
    (buildMessage t d).1 = d.length + 3 := by
  simp [buildMessage, Nat.not_lt.mpr hd]

theorem buildMessage_too_long (t : UInt8) {d : List UInt8} (hd : sizeofData < d.length) :
    (buildMessage t d).1 = 0 := by
  simp [buildMessage, hd]

/-- The message that `build_message` leaves, up to the length it returns. -/
theorem bytes_buildMessage (t : UInt8) {d : List UInt8} (hd : d.length ≤ sizeofData) :
    (buildMessage t d).2.bytes (d.length + 3) = messageBytes t d := by
  set blank : Message := (Vector.replicate sizeofMessage 0).set 0 t with hblank
  have hbytes : (blank.write 3 d).bytes (d.length + 3) = t :: 0 :: 0 :: d := by
    rw [bytes_write_header _ hd]
    rfl
  have hclear : (blank.write 3 d).setCrc 0 = blank.write 3 d := by
    apply setCrc_zero_of_cleared <;> rw [Message.getElem_write, if_neg (by decide)] <;> rfl
  have hbuilt : (buildMessage t d).2 =
      ((blank.write 3 d).setCrc 0).setCrc (crcFast (t :: 0 :: 0 :: d)) := by
    simp only [buildMessage, if_neg (Nat.not_lt.mpr hd), ← hblank, hclear, hbytes]
  rw [hbuilt, hclear, Message.bytes_setCrc, hbytes]
  rfl

/-! ## Decoding -/

/-- A frame and the bytes that a parser without a pending escape takes it for. -/
theorem unstuff_frame (bs : List UInt8) :
    stuffing.unstuff false (startByte :: stuffing.stuff bs) = startByte :: bs := by
  rw [stuffing.unstuff_raw (by decide), stuffing.unstuff_stuff]

theorem pending_frame (bs : List UInt8) :
    stuffing.pending false (startByte :: stuffing.stuff bs) = false := by
  rw [stuffing.pending_raw (by decide), stuffing.pending_stuff]

theorem Parser.reset_next (p : Parser) :
    switch.next p startByte = { p with msgIndex := 0 } :=
  rfl

/-- The parser after the frame's bytes but the last. -/
theorem run_frame (i : ℕ) (buffer : Message) (bs : List UInt8) :
    parser.run ⟨i, false, buffer⟩ (startByte :: stuffing.stuff bs) =
      switch.run ⟨0, false, buffer⟩ bs := by
  rw [parser_run, unstuff_frame, pending_frame]
  exact Parser.setEscaped_of (isEscaped_run_switch _ _)

theorem parser_endByte {p : Parser} (hp : p.isEscaped = false) :
    parseMessage endByte p = handleChar endByte p := by
  rw [parseMessage_raw hp (by decide), Parser.setEscaped_of hp]

theorem handleChar_endByte {p : Parser} (hp : p.msgIndex ≤ sizeofMessage) :
    handleChar endByte p =
      (if p.buffer.crc == crcFast (clearCrc (p.buffer.bytes p.msgIndex)) then p.msgIndex else 0,
        { p with msgIndex := 0, buffer := p.buffer.setCrc 0 }) := by
  simp [handleChar, validateMessage_of_le _ hp, show endByte ≠ startByte by decide]

theorem handleChar_endByte_le (p : Parser) : (handleChar endByte p).1 ≤ p.msgIndex := by
  simp only [handleChar, if_neg (show endByte ≠ startByte by decide), if_true]
  split_ifs
  · exact Nat.le_refl _
  · exact Nat.zero_le _

/-- If the bytes hold neither `START_BYTE` nor `END_BYTE`, and the CRC they carry is
theirs, the `END_BYTE` after them completes the message. -/
theorem endByte_accepts (buffer : Message) {bs : List UInt8} (hbs : ∀ b ∈ bs, ¬IsControl b)
    (h3 : 3 ≤ bs.length) (h45 : bs.length ≤ sizeofMessage)
    (hcrc : crcField bs = crcFast (clearCrc bs)) :
    handleChar endByte (switch.run ⟨0, false, buffer⟩ bs) =
      (bs.length, ⟨0, false, (buffer.write 0 bs).setCrc 0⟩) := by
  have hrun : switch.run ⟨0, false, buffer⟩ bs = ⟨bs.length, false, buffer.write 0 bs⟩ := by
    rw [run_switch hbs (by simpa using h45)]
    simp
  have hb := buffer.bytes_write h45
  rw [hrun, handleChar_endByte h45]
  simp only [hb, ← crcField_bytes _ h3, hcrc, beq_self_eq_true, if_true]

/-- Whatever frame the bytes come in, the parser decodes it iff none of them is
`START_BYTE` or `END_BYTE`. -/
theorem decodes_frame_iff (i : ℕ) (buffer : Message) {bs : List UInt8} (h3 : 3 ≤ bs.length)
    (h45 : bs.length ≤ sizeofMessage) (hcrc : crcField bs = crcFast (clearCrc bs)) {m : Message}
    (hm : m.bytes bs.length = bs) :
    Decodes ⟨i, false, buffer⟩ (startByte :: stuffing.stuff bs ++ [endByte]) bs.length m ↔
      ∀ b ∈ bs, ¬IsControl b := by
  have hrun := run_frame i buffer bs
  set body := startByte :: stuffing.stuff bs with hbody
  have hesc : (switch.run ⟨0, false, buffer⟩ bs).isEscaped = false := isEscaped_run_switch _ _
  have houts : parser.outputs ⟨i, false, buffer⟩ (body ++ [endByte]) =
      parser.outputs ⟨i, false, buffer⟩ body ++
        [(handleChar endByte (switch.run ⟨0, false, buffer⟩ bs)).1] := by
    rw [Machine.outputs_append, hrun, ← parser_endByte hesc]
    rfl
  constructor
  · rintro ⟨hout, -⟩ b hb hc
    rw [houts, List.length_append, List.length_singleton, Nat.add_sub_cancel] at hout
    have hlast := List.append_inj_right' hout rfl
    rw [List.singleton_inj] at hlast
    have hle := handleChar_endByte_le (switch.run ⟨0, false, buffer⟩ bs)
    have hlt := msgIndex_run_lt ⟨0, false, buffer⟩ ⟨b, hb, hc⟩
    omega
  · intro hbs
    have hend := endByte_accepts buffer hbs h3 h45 hcrc
    have hsilent : ∀ o ∈ parser.outputs ⟨i, false, buffer⟩ body, o = 0 := by
      rw [silent_parser_iff, hbody, unstuff_frame]
      refine silent_switch (List.forall_mem_cons.2 ⟨by decide, fun b hb h => hbs b hb (Or.inr h)⟩) _
    constructor
    · rw [houts, hend, List.length_append, List.length_singleton, Nat.add_sub_cancel]
      rw [List.eq_replicate_iff.2 ⟨Machine.length_outputs _ _ _, hsilent⟩]
    · rw [Machine.run_append, hrun, Machine.run_cons, Machine.run_nil, parser_next,
        parser_endByte hesc, hend, bytes_setCrc_zero, bytes_setCrc_zero, buffer.bytes_write h45, hm]

/-! ## Decoding what was built -/

theorem length_messageBytes (t : UInt8) (d : List UInt8) :
    (messageBytes t d).length = d.length + 3 :=
  rfl

@[simp] theorem clearCrc_messageBytes (t : UInt8) (d : List UInt8) :
    clearCrc (messageBytes t d) = t :: 0 :: 0 :: d :=
  rfl

/-- A built message carries its own CRC. -/
theorem crcField_messageBytes (t : UInt8) (d : List UInt8) :
    crcField (messageBytes t d) = crcFast (clearCrc (messageBytes t d)) := by
  rw [clearCrc_messageBytes]
  exact Message.crc_setCrc (Vector.replicate sizeofMessage 0) (crcFast (t :: 0 :: 0 :: d))

/-- Decoding undoes encoding for one message and one state of the parser : what either
program sends is decoded to it, and data that do not fit are not sent. -/
def DecodeUndoesEncode (messageType : UInt8) (messageData : List UInt8) (p : Parser) : Prop :=
  let built := buildMessage messageType messageData
  (messageData.length ≤ sizeofData →
    Decodes p (Pc.sendMessage built.2 built.1) built.1 built.2 ∧
      Decodes p (Drone.sendMessage built.2 built.1).dropLast built.1 built.2) ∧
  (sizeofData < messageData.length →
    built.1 = 0 ∧ sendBuilt Pc.sendMessage built = [] ∧ sendBuilt Drone.sendMessage built = [])

theorem dropLast_sendMessage (m : Message) (n : ℕ) :
    (Drone.sendMessage m n).dropLast = Pc.sendMessage m n := by
  rw [Drone.sendMessage, Pc.sendMessage, show ([endByte, 0x0A] : List UInt8) = [endByte] ++ [0x0A]
    from rfl, ← List.append_assoc, List.dropLast_concat]

/-- Decoding undoes encoding iff the data do not fit or no byte of the message (type,
CRC, data) is `START_BYTE` or `END_BYTE`. -/
theorem decodeUndoesEncode_iff (messageType : UInt8) (messageData : List UInt8) (msgIndex : ℕ)
    (buffer : Message) :
    DecodeUndoesEncode messageType messageData ⟨msgIndex, false, buffer⟩ ↔
      (messageData.length ≤ sizeofData →
        ∀ b ∈ messageBytes messageType messageData, b ≠ startByte ∧ b ≠ endByte) := by
  simp only [DecodeUndoesEncode, dropLast_sendMessage, and_self]
  have hlong : sizeofData < messageData.length →
      (buildMessage messageType messageData).1 = 0 ∧
        sendBuilt Pc.sendMessage (buildMessage messageType messageData) = [] ∧
        sendBuilt Drone.sendMessage (buildMessage messageType messageData) = [] := by
    intro h
    simp [sendBuilt, buildMessage_too_long messageType h]
  rw [and_iff_left hlong]
  refine forall_congr' fun hd => ?_
  have hbytes := bytes_buildMessage messageType hd
  rw [length_buildMessage messageType hd, Pc.sendMessage, hbytes, ← length_messageBytes messageType,
    decodes_frame_iff msgIndex buffer (by simp [length_messageBytes])
      (by simpa [length_messageBytes, sizeofMessage] using hd)
      (crcField_messageBytes messageType messageData) hbytes]
  simp only [IsControl, not_or]

/-- An `INPUT_DATA` message with lift `0x12` is lost : its payload byte resets the
parser. -/
theorem not_decodeUndoesEncode_inputData :
    ¬DecodeUndoesEncode 0x03 [0x12, 0x00, 0x00, 0x00] ⟨0, false, Vector.replicate 45 0⟩ := by
  rintro ⟨h, -⟩
  have hout := (h (by decide)).1.outputs
  revert hout
  decide +kernel

/-! ## Synchronisation -/

/-- What a parser takes a frame for : if an escape is pending, the `START_BYTE` is masked,
and the rest is the same. -/
theorem unstuff_sendMessage (isEscaped : Bool) (m : Message) (n : ℕ) :
    stuffing.unstuff isEscaped (Pc.sendMessage m n) =
      (if isEscaped then stuffing.mask startByte else startByte) :: m.bytes n ++ [endByte] := by
  have hend : stuffing.unstuff false [endByte] = [endByte] := rfl
  have hbody : stuffing.unstuff false (stuffing.stuff (m.bytes n) ++ [endByte]) =
      m.bytes n ++ [endByte] := by
    rw [stuffing.unstuff_append, stuffing.unstuff_stuff, stuffing.pending_stuff, hend]
  cases isEscaped with
  | true => exact congrArg (stuffing.mask startByte :: ·) hbody
  | false => exact (stuffing.unstuff_raw (by decide) _).trans (congrArg (startByte :: ·) hbody)

theorem pending_sendMessage (isEscaped : Bool) (m : Message) (n : ℕ) :
    stuffing.pending isEscaped (Pc.sendMessage m n) = false := by
  have hbody : stuffing.pending false (stuffing.stuff (m.bytes n) ++ [endByte]) = false := by
    rw [stuffing.pending_append, stuffing.pending_stuff]
    rfl
  cases isEscaped with
  | true => exact hbody
  | false => exact (stuffing.pending_raw (by decide) _).trans hbody

/-- Whatever the parser has read before, at the end of a frame of the PC it is where it
started : no message is begun and no escape is pending. -/
theorem self_synchronising (p : Parser) (noise : List UInt8) (m : Message) (n : ℕ) :
    (parser.run p (noise ++ Pc.sendMessage m n)).msgIndex = 0 ∧
      (parser.run p (noise ++ Pc.sendMessage m n)).isEscaped = false := by
  have hend (q : Parser) (bs : List UInt8) : (switch.run q (bs ++ [endByte])).msgIndex = 0 := by
    rw [Machine.run_append]
    exact msgIndex_next_control (switch.run q bs) (Or.inr rfl)
  rw [Machine.run_append, parser_run, unstuff_sendMessage, pending_sendMessage]
  exact ⟨hend _ _, rfl⟩

end Quadrupel
