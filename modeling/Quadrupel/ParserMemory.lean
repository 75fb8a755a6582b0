import Quadrupel.Message
import Quadrupel.Traced

/-!
# The parser on memory

`crc_fast`, `validate_message` and `parse_message` as they are in C : the buffer is a
pointer, `msg_index` a `uint8_t`, and nothing but the code's own tests keeps an access in
the buffer. Indices count from the pointer. What is beyond the 45 bytes that the callers
supply may hold anything.

`parser_inBounds` says that no stream leads out of the buffer, by the invariant that
`msg_index` is at most its size. Hence the parser on memory is the `parser` on vectors
(`run_rawParser`), and what is proved about the latter holds of the C code.
-/

namespace Quadrupel

namespace Raw

/-- `crc_fast` on the memory behind `message`. -/
def crcFast (nBytes : ℕ) (m : Traced UInt8) : UInt16 × Traced UInt8 :=
  (List.range nBytes).foldl
    (fun (remainder, m) byte =>
      let (data, m) := m.load byte
      (crcStep remainder data, m))
    (initialRemainder, m)

/-- `validate_message`. The `crc` field is at the indices 1 and 2. -/
def validateMessage (bufferLen : UInt8) (m : Traced UInt8) : Bool × Traced UInt8 :=
  if bufferLen.toNat > sizeofMessage then (false, m)
  else
    let (low, m) := m.load 1
    let (high, m) := m.load 2
    let crcReceived := low.toUInt16 + (high.toUInt16 <<< 8)
    let m := (m.store 1 0).store 2 0
    let (crcCalculated, m) := crcFast bufferLen.toNat m
    (crcReceived == crcCalculated, m)

end Raw

/-- The variables that `parse_message` keeps between bytes, and the memory. -/
structure RawParser where
  msgIndex : UInt8
  isEscaped : Bool
  memory : Traced UInt8

/-- The length that `parse_message` returns, and the one that it calls `validate_message`
with, if it does. -/
structure Parsed where
  messageLen : UInt8
  validated : Option UInt8

namespace RawParser

/-- The byte with its mask removed. -/
def unescaped (c : UInt8) (p : RawParser) : UInt8 :=
  if p.isEscaped then c ^^^ 0x20 else c

/-- The switch of `parse_message`. -/
def handleChar (c : UInt8) (p : RawParser) : Parsed × RawParser :=
  if c = startByte then (⟨0, none⟩, { p with msgIndex := 0 })
  else if c = endByte then
    let messageLen := p.msgIndex
    let (valid, memory) := Raw.validateMessage messageLen p.memory
    (⟨if valid then messageLen else 0, some messageLen⟩, { p with msgIndex := 0, memory })
  else if p.msgIndex.toNat ≥ sizeofMessage then (⟨0, none⟩, { p with msgIndex := 0 })
  else
    (⟨0, none⟩,
      { p with msgIndex := p.msgIndex + 1, memory := p.memory.store p.msgIndex.toNat c })

/-- `parse_message`. -/
def parseMessage (c : UInt8) (p : RawParser) : Parsed × RawParser :=
  if p.isEscaped = false ∧ c = escape then (⟨0, none⟩, { p with isEscaped := true })
  else handleChar (p.unescaped c) { p with isEscaped := false }

end RawParser

/-- The machine that feeds bytes to `parse_message` on memory. -/
def rawParser : Machine RawParser UInt8 Parsed where
  next p c := (p.parseMessage c).2
  out p c := (p.parseMessage c).1

/-! ## In the buffer -/

namespace Raw

theorem crcFast_succ (n : ℕ) (m : Traced UInt8) :
    crcFast (n + 1) m =
      (crcStep (crcFast n m).1 ((crcFast n m).2.cells n), ((crcFast n m).2.load n).2) := by
  rw [crcFast, List.range_succ, List.foldl_append]
  rfl

theorem within_crcFast {n : ℕ} (hn : n ≤ sizeofMessage) (m : Traced UInt8) :
    m.Within sizeofMessage (crcFast n m).2 := by
  induction n with
  | zero => exact .refl _ _
  | succ n ih =>
    rw [crcFast_succ]
    exact (ih (Nat.le_of_succ_le hn)).trans (Traced.within_load hn _)

theorem within_validateMessage (bufferLen : UInt8) (m : Traced UInt8) :
    m.Within sizeofMessage (validateMessage bufferLen m).2 := by
  unfold validateMessage
  split_ifs with hlong
  · exact .refl _ _
  · have h1 : 1 < sizeofMessage := by decide
    have h2 : 2 < sizeofMessage := by decide
    have hcrc := within_crcFast (Nat.not_lt.1 hlong)
      (((m.load 1).2.load 2).2.store 1 0 |>.store 2 0)
    exact (Traced.within_load h1 m).trans <| (Traced.within_load h2 _).trans <|
      (Traced.within_store h1 _ _).trans <| (Traced.within_store h2 _ _).trans hcrc

end Raw

namespace RawParser

/-- What a call of `parse_message` may do : it keeps `msg_index` and all accesses in the
buffer, validates and returns no longer message, and returns one only on an `END_BYTE`. -/
structure Bounded (p : RawParser) (c : UInt8) : Prop where
  msgIndex_le : (p.parseMessage c).2.msgIndex.toNat ≤ sizeofMessage
  within : p.memory.Within sizeofMessage (p.parseMessage c).2.memory
  validated_le : ∀ len ∈ (p.parseMessage c).1.validated, len.toNat ≤ sizeofMessage
  messageLen_le : (p.parseMessage c).1.messageLen.toNat ≤ sizeofMessage
  endByte : (p.parseMessage c).1.messageLen ≠ 0 → p.unescaped c = endByte

/-- In the buffer the index does not wrap. -/
theorem toNat_succ {i : UInt8} (h : i.toNat < sizeofMessage) : (i + 1).toNat = i.toNat + 1 := by
  have hfits : i.toNat + 1 < 2 ^ 8 := lt_of_le_of_lt h (by decide)
  rw [UInt8.toNat_add]
  exact Nat.mod_eq_of_lt hfits

theorem handleChar_bounded {p : RawParser} (h : p.msgIndex.toNat ≤ sizeofMessage) (c : UInt8) :
    (p.handleChar c).2.msgIndex.toNat ≤ sizeofMessage ∧
      p.memory.Within sizeofMessage (p.handleChar c).2.memory ∧
      (∀ len ∈ (p.handleChar c).1.validated, len.toNat ≤ sizeofMessage) ∧
      (p.handleChar c).1.messageLen.toNat ≤ sizeofMessage ∧
      ((p.handleChar c).1.messageLen ≠ 0 → c = Quadrupel.endByte) := by
  have hzero : (0 : UInt8).toNat ≤ sizeofMessage := Nat.zero_le _
  have hnone : ∀ len ∈ (none : Option UInt8), len.toNat ≤ sizeofMessage := by simp
  unfold handleChar
  split_ifs with hstart hend hfull
  · exact ⟨hzero, .refl _ _, hnone, hzero, fun hne => absurd rfl hne⟩
  · refine ⟨hzero, Raw.within_validateMessage _ _, ?_, ?_, fun _ => hend⟩
    · intro len hlen
      rw [← Option.some.inj hlen]
      exact h
    · simp only
      split_ifs
      · exact h
      · exact hzero
  · exact ⟨hzero, .refl _ _, hnone, hzero, fun hne => absurd rfl hne⟩
  · have hlt : p.msgIndex.toNat < sizeofMessage := Nat.lt_of_not_le hfull
    refine ⟨?_, Traced.within_store hlt _ _, hnone, hzero, fun hne => absurd rfl hne⟩
    simp only [toNat_succ hlt]
    exact hlt

theorem bounded {p : RawParser} (h : p.msgIndex.toNat ≤ sizeofMessage) (c : UInt8) :
    p.Bounded c := by
  by_cases hesc : p.isEscaped = false ∧ c = escape
  · have hparse : p.parseMessage c = (⟨0, none⟩, { p with isEscaped := true }) := if_pos hesc
    constructor <;> rw [hparse]
    · exact h
    · exact .refl _ _
    · simp
    · exact Nat.zero_le _
    · exact fun hne => absurd rfl hne
  · have hparse : p.parseMessage c = handleChar (p.unescaped c) { p with isEscaped := false } :=
      if_neg hesc
    have hchar := handleChar_bounded (p := { p with isEscaped := false }) h (p.unescaped c)
    constructor <;> rw [hparse]
    · exact hchar.1
    · exact hchar.2.1
    · exact hchar.2.2.1
    · exact hchar.2.2.2.1
    · exact hchar.2.2.2.2

/-- Whatever the bytes and the memory, a parser that starts with `msg_index` 0 stays in
the buffer : so it does with every byte, and after all of them every access was in it, and
what is beyond it is as it was. -/
theorem parser_inBounds (isEscaped : Bool) (cells : ℕ → UInt8) (s : List UInt8) :
    let p : RawParser := ⟨0, isEscaped, ⟨cells, []⟩⟩
    rawParser.Along Bounded p s ∧
      (rawParser.run p s).msgIndex.toNat ≤ sizeofMessage ∧
      (∀ a ∈ (rawParser.run p s).memory.accesses, a.index < sizeofMessage) ∧
      ∀ i, sizeofMessage ≤ i → (rawParser.run p s).memory.cells i = cells i := by
  intro p
  have hstep (q : RawParser) (c : UInt8)
      (hq : q.msgIndex.toNat ≤ sizeofMessage ∧ p.memory.Within sizeofMessage q.memory) :
      ((rawParser.next q c).msgIndex.toNat ≤ sizeofMessage ∧
        p.memory.Within sizeofMessage (rawParser.next q c).memory) ∧ q.Bounded c := by
    have hbounded := bounded hq.1 c
    exact ⟨⟨hbounded.msgIndex_le, hq.2.trans hbounded.within⟩, hbounded⟩
  have hstart : p.msgIndex.toNat ≤ sizeofMessage ∧ p.memory.Within sizeofMessage p.memory :=
    ⟨Nat.zero_le _, .refl _ _⟩
  obtain ⟨hle, hwithin⟩ := rawParser.run_always (fun q c hq => (hstep q c hq).1) s hstart
  refine ⟨rawParser.along_always hstep s hstart, hle, fun a ha => ?_, hwithin.cells⟩
  exact (hwithin.accesses a ha).resolve_left List.not_mem_nil

end RawParser

/-! ## The parser on vectors -/

namespace Traced

/-- The buffer. -/
def toMessage (m : Traced UInt8) : Message :=
  Vector.ofFn fun i => m.cells i

theorem getElem_toMessage (m : Traced UInt8) {i : ℕ} (hi : i < sizeofMessage) :
    m.toMessage[i] = m.cells i := by
  simp [toMessage]

theorem toMessage_congr {m m' : Traced UInt8} (h : m'.cells = m.cells) :
    m'.toMessage = m.toMessage := by
  rw [toMessage, toMessage, h]

theorem toMessage_store (m : Traced UInt8) {i : ℕ} (hi : i < sizeofMessage) (b : UInt8) :
    (m.store i b).toMessage = m.toMessage.set i b := by
  ext j hj : 1
  rw [getElem_toMessage _ hj, Vector.getElem_set, getElem_toMessage _ hj, cells_store,
    Function.update_apply]
  simp only [eq_comm]

theorem bytes_toMessage (m : Traced UInt8) {n : ℕ} (hn : n ≤ sizeofMessage) :
    m.toMessage.bytes n = (List.range n).map m.cells := by
  apply List.ext_getElem
  · simp [Message.bytes, hn]
  · intro i hi _
    have hlt : i < sizeofMessage := by
      simp [Message.bytes] at hi
      omega
    simp [Message.bytes, toMessage]

end Traced

namespace Raw

theorem crcFast_eq (n : ℕ) (m : Traced UInt8) :
    (crcFast n m).1 = Quadrupel.crcFast ((List.range n).map m.cells) ∧
      (crcFast n m).2.cells = m.cells := by
  induction n with
  | zero => exact ⟨rfl, rfl⟩
  | succ n ih =>
    obtain ⟨hcrc, hcells⟩ := ih
    rw [crcFast_succ]
    refine ⟨?_, hcells⟩
    rw [List.range_succ, List.map_append, Quadrupel.crcFast, List.foldl_append, hcells, hcrc]
    rfl

theorem validateMessage_eq (bufferLen : UInt8) (m : Traced UInt8) :
    (validateMessage bufferLen m).1 =
        (Quadrupel.validateMessage m.toMessage bufferLen.toNat).1 ∧
      (validateMessage bufferLen m).2.toMessage =
        (Quadrupel.validateMessage m.toMessage bufferLen.toNat).2 := by
  unfold validateMessage Quadrupel.validateMessage
  split_ifs with hlong
  · exact ⟨rfl, rfl⟩
  · set cleared := ((m.load 1).2.load 2).2.store 1 0 |>.store 2 0 with hcleared
    have hset : cleared.toMessage = m.toMessage.setCrc 0 := by
      rw [hcleared, Traced.toMessage_store _ (by decide), Traced.toMessage_store _ (by decide)]
      rfl
    have hfield : m.toMessage.crc = (m.cells 1).toUInt16 + ((m.cells 2).toUInt16 <<< 8) := by
      rw [← m.getElem_toMessage (by decide), ← m.getElem_toMessage (by decide)]
      rfl
    obtain ⟨hcrc, hcells⟩ := crcFast_eq bufferLen.toNat cleared
    rw [← cleared.bytes_toMessage (Nat.not_lt.1 hlong), hset] at hcrc
    refine ⟨?_, ?_⟩
    · simp only [hfield, ← hcrc]
      rfl
    · exact (Traced.toMessage_congr hcells).trans hset

end Raw

namespace RawParser

/-- The state of the parser on vectors. -/
def toParser (p : RawParser) : Parser where
  msgIndex := p.msgIndex.toNat
  isEscaped := p.isEscaped
  buffer := p.memory.toMessage

theorem handleChar_eq {p : RawParser} (h : p.msgIndex.toNat ≤ sizeofMessage) (c : UInt8) :
    (p.handleChar c).2.toParser = (Quadrupel.handleChar c p.toParser).2 ∧
      (p.handleChar c).1.messageLen.toNat = (Quadrupel.handleChar c p.toParser).1 := by
  have hindex : p.toParser.msgIndex = p.msgIndex.toNat := rfl
  unfold handleChar Quadrupel.handleChar
  split_ifs with hstart hend hfull hlt hlt
  · exact ⟨rfl, rfl⟩
  · obtain ⟨hvalid, hbuffer⟩ := Raw.validateMessage_eq p.msgIndex p.memory
    simp only [toParser, hvalid, hbuffer]
    refine ⟨rfl, ?_⟩
    exact apply_ite UInt8.toNat _ _ _
  · omega
  · exact ⟨rfl, rfl⟩
  · refine ⟨?_, rfl⟩
    have hstore := p.memory.toMessage_store hlt c
    simp only [toParser, toNat_succ hlt]
    exact congrArg (Parser.mk _ _) hstore
  · omega

theorem parseMessage_eq {p : RawParser} (h : p.msgIndex.toNat ≤ sizeofMessage) (c : UInt8) :
    (p.parseMessage c).2.toParser = (Quadrupel.parseMessage c p.toParser).2 ∧
      (p.parseMessage c).1.messageLen.toNat = (Quadrupel.parseMessage c p.toParser).1 := by
  have hchar := handleChar_eq (p := { p with isEscaped := false }) h (p.unescaped c)
  unfold parseMessage Quadrupel.parseMessage
  by_cases hesc : p.isEscaped = false ∧ c = escape
  · have hesc' : p.toParser.isEscaped = false ∧ c = escape := hesc
    rw [if_pos hesc, if_pos hesc']
    exact ⟨rfl, rfl⟩
  · have hesc' : ¬(p.toParser.isEscaped = false ∧ c = escape) := hesc
    rw [if_neg hesc, if_neg hesc']
    exact hchar

/-- The parser on memory is the parser on vectors. -/
theorem run_rawParser {p : RawParser} (h : p.msgIndex.toNat ≤ sizeofMessage) (s : List UInt8) :
    (rawParser.run p s).toParser = parser.run p.toParser s ∧
      (rawParser.outputs p s).map (·.messageLen.toNat) = parser.outputs p.toParser s := by
  have hstep (q : RawParser) (c : UInt8) (hq : q.msgIndex.toNat ≤ sizeofMessage) :
      (rawParser.next q c).msgIndex.toNat ≤ sizeofMessage ∧
        (rawParser.next q c).toParser = parser.next q.toParser c ∧
        (rawParser.out q c).messageLen.toNat = parser.out q.toParser c :=
    ⟨(bounded hq c).msgIndex_le, parseMessage_eq hq c⟩
  exact rawParser.run_simulates hstep s h

end RawParser

end Quadrupel
