import Quadrupel.Frame

/-!
# Which accepted messages are real frames

`RealFrame` says that the message the parser accepts on a byte is the frame that the
stream carries there : a raw `END_BYTE`, a raw `START_BYTE` before it, and between the two the
escaped image of the message and of the CRC it was checked against.

The parser asks less. It takes an escaped `START_BYTE` or `END_BYTE` for a raw one, it
needs no `START_BYTE`, it accepts fewer than the three bytes of type and CRC, whose
CRC it then reads from what an earlier frame left in the buffer, and it starts again
in the middle of a frame that is too long. `realFrame_iff` says that these are the only
ways : an accepted message is a real frame iff the stream is `WellFramed` there.
-/

namespace Quadrupel

/-- `seg` are the bytes of `s` after its last `START_BYTE` that no escape precedes. -/
structure LastStart (s seg : List UInt8) : Prop where
  start : ∃ pre, s = pre ++ startByte :: seg ∧ stuffing.pending false pre = false
  last : ∀ as bs, seg = as ++ startByte :: bs → stuffing.pending false as = true

/-- After the bytes `s`, the byte `c` ends a frame of `n` bytes that carry their own CRC,
and `buffer` starts with these bytes, the CRC cleared. -/
structure RealFrame (s : List UInt8) (c : UInt8) (n : ℕ) (buffer : Message) : Prop where
  ends : c = endByte ∧ stuffing.pending false s = false
  frame : ∃ seg, LastStart s seg ∧ (stuffing.unstuff false seg).length = n ∧
    buffer.bytes n = clearCrc (stuffing.unstuff false seg) ∧
    crcField (stuffing.unstuff false seg) = crcFast (clearCrc (stuffing.unstuff false seg))
  lower : 3 ≤ n
  upper : n ≤ sizeofMessage

/-- After the bytes `s`, the byte `c` is a raw `END_BYTE`, and the bytes since the last
`START_BYTE` stand for 3 to 45 bytes, none of them `START_BYTE` or `END_BYTE`. -/
structure WellFramed (s : List UInt8) (c : UInt8) : Prop where
  ends : c = endByte ∧ stuffing.pending false s = false
  frame : ∃ seg, LastStart s seg ∧ 3 ≤ (stuffing.unstuff false seg).length ∧
    (stuffing.unstuff false seg).length ≤ sizeofMessage ∧
    ∀ b ∈ stuffing.unstuff false seg, ¬IsControl b

/-- After a stream with a last start, the parser is the switch on the bytes since. -/
theorem LastStart.exists_switch_run {s seg : List UInt8} (h : LastStart s seg)
    (hs : stuffing.pending false s = false) (buffer : Message) :
    ∃ stale, parser.run ⟨0, false, buffer⟩ s =
      switch.run ⟨0, false, stale⟩ (stuffing.unstuff false seg) := by
  obtain ⟨pre, rfl, hpre⟩ := h.start
  have hun : stuffing.unstuff false (pre ++ startByte :: seg) =
      stuffing.unstuff false pre ++ startByte :: stuffing.unstuff false seg := by
    rw [stuffing.unstuff_append, hpre, stuffing.unstuff_raw (by decide)]
  -- the state at that start, whose escape flag is down
  obtain ⟨q, hq⟩ : ∃ q, switch.run ⟨0, false, buffer⟩ (stuffing.unstuff false pre) = q := ⟨_, rfl⟩
  have hesc : q.isEscaped = false := hq ▸ isEscaped_run_switch _ _
  have hstart : switch.next q startByte = ⟨0, false, q.buffer⟩ := by
    rw [Parser.reset_next, hesc]
  refine ⟨q.buffer, ?_⟩
  rw [parser_run, hs, hun, Machine.run_append, Machine.run_cons]
  rw [show Parser.setEscaped ⟨0, false, buffer⟩ false = ⟨0, false, buffer⟩ from rfl, hq, hstart]
  exact Parser.setEscaped_of (isEscaped_run_switch _ _)

/-- Whenever the parser accepts a message, at any point of any stream from its initial
state, the message is a real frame iff the stream is well framed there. -/
theorem realFrame_iff (buffer : Message) (s : List UInt8) (c : UInt8)
    (h : 0 < parser.out (parser.run ⟨0, false, buffer⟩ s) c) :
    RealFrame s c (parser.out (parser.run ⟨0, false, buffer⟩ s) c)
        (parser.next (parser.run ⟨0, false, buffer⟩ s) c).buffer ↔
      WellFramed s c := by
  constructor
  · rintro ⟨⟨rfl, hs⟩, ⟨seg, hseg, hlen, -, -⟩, h3, h45⟩
    refine ⟨⟨rfl, hs⟩, seg, hseg, hlen ▸ h3, hlen ▸ h45, fun b hb hc => ?_⟩
    obtain ⟨stale, hrun⟩ := hseg.exists_switch_run hs buffer
    have hlt := msgIndex_run_lt ⟨0, false, stale⟩ ⟨b, hb, hc⟩
    have hout : parser.out (parser.run ⟨0, false, buffer⟩ s) endByte =
        (handleChar endByte (switch.run ⟨0, false, stale⟩ (stuffing.unstuff false seg))).1 := by
      rw [hrun, parser_out, parser_endByte (isEscaped_run_switch _ _)]
    have hle := handleChar_endByte_le (switch.run ⟨0, false, stale⟩ (stuffing.unstuff false seg))
    omega
  · rintro ⟨⟨rfl, hs⟩, seg, hseg, h3, h45, hclean⟩
    obtain ⟨stale, hrun⟩ := hseg.exists_switch_run hs buffer
    set u := stuffing.unstuff false seg with hu
    have hswitch : switch.run ⟨0, false, stale⟩ u = ⟨u.length, false, stale.write 0 u⟩ := by
      rw [run_switch hclean (by simpa using h45)]
      simp
    have hbytes := stale.bytes_write h45
    have hparse : parseMessage endByte (parser.run ⟨0, false, buffer⟩ s) =
        (if crcField u == crcFast (clearCrc u) then u.length else 0,
          ⟨0, false, (stale.write 0 u).setCrc 0⟩) := by
      rw [hrun, hswitch, parser_endByte rfl, handleChar_endByte h45]
      simp only [hbytes, ← crcField_bytes _ h3]
    rw [parser_out, hparse] at h ⊢
    rw [parser_next, hparse]
    by_cases hcrc : crcField u = crcFast (clearCrc u)
    · simp only [hcrc, beq_self_eq_true, if_true] at h ⊢
      refine ⟨⟨rfl, hs⟩, ⟨seg, hseg, rfl, ?_, hcrc⟩, h3, h45⟩
      rw [bytes_setCrc_zero, hbytes]
    · simp [hcrc] at h

/-- A `SET_MODE SAFE_MODE` frame, as the PC sends it. -/
theorem realFrame_iff_setMode :
    let s : List UInt8 := [0x12, 0x01, 0x74, 0xF2, 0x00]
    let p := parser.run ⟨0, false, Vector.replicate 45 0⟩ s
    0 < parser.out p 0x13 ∧
      (RealFrame s 0x13 (parser.out p 0x13) (parser.next p 0x13).buffer ↔ WellFramed s 0x13) :=
  ⟨by decide +kernel, realFrame_iff _ _ _ (by decide +kernel)⟩

/-- A frame cut off after the CRC `0xF1D1` leaves it in the buffer, and the one-byte frame
after it is accepted with that CRC. -/
theorem not_realFrame_of_stale_crc :
    ¬∀ (buffer : Message) (s : List UInt8) (c : UInt8),
      0 < parser.out (parser.run ⟨0, false, buffer⟩ s) c →
        RealFrame s c (parser.out (parser.run ⟨0, false, buffer⟩ s) c)
          (parser.next (parser.run ⟨0, false, buffer⟩ s) c).buffer := by
  intro h
  have h3 := (h (Vector.replicate 45 0) [0x12, 0x01, 0xD1, 0xF1, 0x12, 0x01] 0x13
    (by decide +kernel)).lower
  revert h3
  decide +kernel

end Quadrupel
