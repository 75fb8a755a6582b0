import Quadrupel.Protocol
import Quadrupel.WireFormat

/-!
# A link that carries frames and text

Items travel as the symbols of their codes, one code behind the other, and the reader takes
one symbol at a time (`Reading`). The next symbol is the next one of the first item, and
either it is its last one, or the reading goes on (`Reading.next`).

The drone prints text between its frames, over the same line, and a program feeds what it
reads to its parser byte by byte. `OnLink keep ms unread p` says that the messages `ms` are
on their way, that `unread` is what is still to be read, and that `p` is the parser after
what was read of the first frame; `keep` are the bytes that reach the parser at all.

`OnLink.read` is the step of the reader. A byte before the end of a frame completes no
message, and neither does one of the text. The `END_BYTE` of a frame completes its message,
if no byte of it is reserved; if one is, the frame is assumed to be mute, that is, the
parser takes it for no message at all.
-/

namespace Quadrupel

/-! ## Items read symbol by symbol -/

/-- The symbols read are those of the first item, but not all of them, and those unread are
the rest of all the items. -/
structure Reading {α β : Type*} (code : α → List β) (items : List α) (read unread : List β) :
    Prop where
  code_eq : items.flatMap code = read ++ unread
  within : read ≠ [] → ∃ a rest, items = a :: rest ∧ read.length < (code a).length

namespace Reading

variable {α β : Type*} {code : α → List β} {items : List α} {read unread : List β}

theorem nil (code : α → List β) : Reading code [] [] [] :=
  ⟨rfl, fun h => absurd rfl h⟩

/-- More items are sent. -/
theorem append (h : Reading code items read unread) (new : List α) :
    Reading code (items ++ new) read (unread ++ new.flatMap code) := by
  refine ⟨by rw [List.flatMap_append, h.code_eq, List.append_assoc], fun hread => ?_⟩
  obtain ⟨a, rest, rfl, hlt⟩ := h.within hread
  exact ⟨a, rest ++ new, rfl, hlt⟩

/-- Nothing is on its way when nothing is unread. -/
theorem eq_nil (hcode : ∀ a, code a ≠ []) (h : Reading code items read []) : items = [] := by
  have heq := h.code_eq
  rw [List.append_nil] at heq
  by_cases hread : read = []
  · rw [hread, List.flatMap_eq_nil_iff] at heq
    exact List.eq_nil_iff_forall_not_mem.2 fun a ha => hcode a (heq a ha)
  · obtain ⟨a, rest, rfl, hlt⟩ := h.within hread
    rw [← heq, List.flatMap_cons, List.length_append] at hlt
    omega

/-- The next symbol is one of the first item. -/
theorem next (hcode : ∀ a, code a ≠ []) {b : β} (h : Reading code items read (b :: unread)) :
    ∃ a rest tail, items = a :: rest ∧ code a = read ++ b :: tail ∧
      (tail = [] → Reading code rest [] unread) ∧
      (tail ≠ [] → Reading code items (read ++ [b]) unread) := by
  obtain ⟨a, rest, rfl, hlt⟩ : ∃ a rest, items = a :: rest ∧ read.length < (code a).length := by
    by_cases hread : read = []
    · cases items with
      | nil => simpa using h.code_eq
      | cons a rest =>
        refine ⟨a, rest, rfl, ?_⟩
        rw [hread, List.length_nil]
        exact List.length_pos_iff.2 (hcode a)
    · exact h.within hread
  have heq := h.code_eq
  rw [List.flatMap_cons] at heq
  obtain ⟨extra, hread, -⟩ | ⟨left, ha, hleft⟩ := List.append_eq_append_iff.1 heq
  · rw [hread, List.length_append] at hlt
    omega
  · cases left with
    | nil =>
      rw [ha, List.append_nil] at hlt
      exact absurd hlt (Nat.lt_irrefl _)
    | cons b' tail =>
      obtain ⟨rfl, hunread⟩ := List.cons.inj hleft
      refine ⟨a, rest, tail, rfl, ha, fun htail => ?_, fun htail => ?_⟩
      · refine ⟨?_, fun hnil => absurd rfl hnil⟩
        rw [hunread, htail]
        rfl
      · refine ⟨by rw [h.code_eq, List.append_assoc, List.singleton_append], fun _ => ?_⟩
        refine ⟨a, rest, rfl, ?_⟩
        have hpos := List.length_pos_iff.2 htail
        simp only [ha, List.length_append, List.length_cons, List.length_nil]
        omega

end Reading

/-! ## Frames that arrive -/

/-- All bytes reach the parser of the drone. -/
def droneReads (_ : UInt8) : Bool :=
  true

/-- The byte 0xFF does not reach the parser of the PC. -/
def pcReads (c : UInt8) : Bool :=
  c ≠ 0xFF

namespace Msg

/-- To a parser between two frames the bytes are just this message. -/
structure Accepted (m : Msg) (seen : List UInt8) : Prop where
  outputs : ∀ p : Parser, p.isEscaped = false →
    parser.outputs p seen = List.replicate (seen.length - 1) 0 ++ [m.bytes.length]
  buffer : ∀ p : Parser, p.isEscaped = false →
    (parser.run p seen).buffer = m.received p.buffer

/-- To a parser between two frames the bytes are no message. -/
def Mute (seen : List UInt8) : Prop :=
  ∀ p : Parser, p.isEscaped = false → ∀ o ∈ parser.outputs p seen, o = 0

/-- The frame arrives as the message or not at all. -/
def Clean (keep : UInt8 → Bool) (m : Msg) : Prop :=
  m.Accepted (m.frame.filter keep) ∨ Mute (m.frame.filter keep)

theorem frame_eq (m : Msg) : m.frame = startByte :: stuffing.stuff m.bytes ++ [endByte] :=
  rfl

theorem accepted_frame {m : Msg} (hm : ∀ b ∈ m.bytes, ¬IsControl b) : m.Accepted m.frame := by
  have h3 : 3 ≤ m.bytes.length := by
    rw [length_bytes]
    omega
  have hbuilt : (buildMessage m.messageType.toByte m.data).2.bytes m.bytes.length = m.bytes :=
    bytes_buildMessage _ m.length_data_le
  have hcrc : crcField m.bytes = crcFast (clearCrc m.bytes) := crcField_messageBytes _ _
  refine ⟨fun p hp => ?_, fun p hp => ?_⟩
  · obtain ⟨i, isEscaped, stale⟩ := p
    obtain rfl : isEscaped = false := hp
    rw [frame_eq]
    exact ((decodes_frame_iff i stale h3 m.length_bytes_le hcrc hbuilt).2 hm).outputs
  · obtain ⟨i, isEscaped, stale⟩ := p
    obtain rfl : isEscaped = false := hp
    rw [frame_eq, m.parser_frame hm]

/-- A message without reserved bytes arrives, if all bytes of its frame reach the parser. -/
theorem clean_of_plain {keep : UInt8 → Bool} {m : Msg} (hm : ∀ b ∈ m.bytes, ¬IsControl b)
    (hkeep : ∀ b ∈ m.frame, keep b = true) : m.Clean keep := by
  rw [Clean, List.filter_eq_self.2 hkeep]
  exact Or.inl (accepted_frame hm)

theorem frame_ne_nil (m : Msg) : m.frame ≠ [] := by
  simp [frame]

/-- Only the last byte of a frame is an `END_BYTE`. -/
theorem endByte_cases {m : Msg} {read tail : List UInt8} {b : UInt8}
    (h : m.frame = read ++ b :: tail) :
    tail = [] ∧ b = endByte ∨ (∃ front, tail = front ++ [endByte]) ∧ b ≠ endByte := by
  have hnot : endByte ∉ startByte :: stuffing.stuff m.bytes := by
    rw [List.mem_cons, not_or]
    exact ⟨by decide, endByte_notMem_stuff m.bytes⟩
  rcases concat_eq_append_cons h with ⟨rfl, -, rfl⟩ | ⟨front, rfl, hbody⟩
  · exact Or.inl ⟨rfl, rfl⟩
  · refine Or.inr ⟨⟨front, rfl⟩, ?_⟩
    rintro rfl
    exact hnot (hbody ▸ by simp)

/-- What the parser makes of one more byte of a frame. -/
theorem Clean.next {keep : UInt8 → Bool} (hkeep : keep endByte = true) {m : Msg}
    (h : m.Clean keep) {read tail : List UInt8} {b : UInt8} (hframe : m.frame = read ++ b :: tail)
    (hb : keep b = true) {p : Parser} (hp : p.isEscaped = false) :
    let q := parser.run p (read.filter keep)
    (parseMessage b q).1 = 0 ∨ tail = [] ∧ 0 < (parseMessage b q).1 ∧
      (parseMessage b q).2.buffer = m.received p.buffer := by
  intro q
  have hseen : m.frame.filter keep = read.filter keep ++ b :: tail.filter keep := by
    rw [hframe, List.filter_append, List.filter_cons_of_pos hb]
  have houts : parser.outputs p (m.frame.filter keep) =
      parser.outputs p (read.filter keep) ++
        (parseMessage b q).1 :: parser.outputs (parseMessage b q).2 (tail.filter keep) := by
    rw [hseen, Machine.outputs_append]
    rfl
  rcases h with haccepted | hmute
  · have hframes := haccepted.outputs p hp
    rw [houts] at hframes
    rcases concat_eq_append_cons hframes.symm with ⟨hnone, -, hlast⟩ | ⟨outs, -, hzeros⟩
    · have htail : tail = [] := by
        have hlen := congrArg List.length hnone
        rw [Machine.length_outputs] at hlen
        rcases endByte_cases hframe with ⟨rfl, -⟩ | ⟨⟨front, rfl⟩, -⟩
        · rfl
        · simp [List.filter_append, hkeep] at hlen
      refine Or.inr ⟨htail, ?_, ?_⟩
      · rw [← hlast, length_bytes]
        omega
      · rw [← haccepted.buffer p hp, hseen, htail, Machine.run_append]
        rfl
    · have hmem : (parseMessage b q).1 ∈ List.replicate ((m.frame.filter keep).length - 1) 0 := by
        rw [hzeros]
        simp
      exact Or.inl (List.eq_of_mem_replicate hmem)
  · refine Or.inl (hmute p hp _ ?_)
    rw [houts]
    simp

end Msg

/-- After an `END_BYTE` no escape is pending. -/
theorem isEscaped_endByte (p : Parser) : (parseMessage endByte p).2.isEscaped = false := by
  unfold parseMessage
  rw [if_neg (by simp [show endByte ≠ escape by decide]), handleChar_isEscaped]

/-! ## Frames and text -/

/-- A byte of text, or a frame. -/
inductive Chunk
  | text (b : UInt8)
  | msg (m : Msg)

namespace Chunk

/-- The bytes on the line. -/
def code : Chunk → List UInt8
  | text b => [b]
  | msg m => m.frame

/-- The message, if it is one. -/
def msg? : Chunk → Option Msg
  | text _ => none
  | msg m => some m

/-- Text has no byte that a frame reserves, and a frame arrives as its message or not at
all. -/
def Clean (keep : UInt8 → Bool) : Chunk → Prop
  | text b => ¬IsControl b ∧ b ≠ escape
  | msg m => m.Clean keep

theorem code_ne_nil (c : Chunk) : c.code ≠ [] := by
  cases c with
  | text b => exact List.cons_ne_nil b []
  | msg m => exact m.frame_ne_nil

end Chunk

/-- A byte of text completes no message. -/
theorem parseMessage_text {b : UInt8} (hb : ¬IsControl b ∧ b ≠ escape) {p : Parser}
    (hp : p.isEscaped = false) :
    (parseMessage b p).1 = 0 ∧ (parseMessage b p).2.isEscaped = false := by
  rw [parseMessage_raw hp hb.2, Parser.setEscaped_of hp]
  refine ⟨out_switch (fun h => hb.1 (Or.inr h)) p, ?_⟩
  rw [handleChar_isEscaped, hp]

/-- The messages are on their way among text, `unread` is to be read, and the parser has read
the bytes that it gets of the first chunk. -/
def OnLink (keep : UInt8 → Bool) (ms : List Msg) (unread : List UInt8) (p : Parser) : Prop :=
  ∃ (chunks : List Chunk) (read : List UInt8) (start : Parser),
    chunks.filterMap Chunk.msg? = ms ∧ Reading Chunk.code chunks read unread ∧
      (∀ c ∈ chunks, c.Clean keep) ∧ start.isEscaped = false ∧
      p = parser.run start (read.filter keep)

namespace OnLink

variable {keep : UInt8 → Bool} {ms : List Msg} {unread : List UInt8} {p : Parser}

theorem nil (keep : UInt8 → Bool) (hp : p.isEscaped = false) : OnLink keep [] [] p :=
  ⟨[], [], p, rfl, .nil _, nofun, hp, rfl⟩

/-- With nothing to be read no message is on its way. -/
theorem eq_nil (h : OnLink keep ms [] p) : ms = [] := by
  obtain ⟨chunks, read, start, rfl, hreading, -⟩ := h
  rw [hreading.eq_nil Chunk.code_ne_nil, List.filterMap_nil]

theorem append (h : OnLink keep ms unread p) (new : List Chunk) (hnew : ∀ c ∈ new, c.Clean keep) :
    OnLink keep (ms ++ new.filterMap Chunk.msg?) (unread ++ new.flatMap Chunk.code) p := by
  obtain ⟨chunks, read, start, rfl, hreading, hclean, hstart, hp⟩ := h
  refine ⟨chunks ++ new, read, start, List.filterMap_append, hreading.append new, fun c hc => ?_,
    hstart, hp⟩
  exact (List.mem_append.1 hc).elim (hclean c) (hnew c)

/-- A text is printed. -/
theorem print (h : OnLink keep ms unread p) {text : List UInt8}
    (htext : ∀ b ∈ text, ¬IsControl b ∧ b ≠ escape) : OnLink keep ms (unread ++ text) p := by
  have hnew : ∀ c ∈ text.map Chunk.text, c.Clean keep := by
    intro c hc
    obtain ⟨b, hb, rfl⟩ := List.mem_map.1 hc
    exact htext b hb
  have hmsgs : (text.map Chunk.text).filterMap Chunk.msg? = [] := by
    rw [List.filterMap_map]
    exact List.filterMap_eq_nil_iff.2 fun _ _ => rfl
  have hcode : (text.map Chunk.text).flatMap Chunk.code = text := by
    rw [List.flatMap_map]
    exact List.flatMap_singleton' text
  simpa only [hmsgs, hcode, List.append_nil] using h.append _ hnew

/-- Messages are sent, with the same text behind each. -/
theorem send (h : OnLink keep ms unread p) {new : List Msg} (hnew : ∀ m ∈ new, m.Clean keep)
    (trailer : List UInt8) (htrailer : ∀ b ∈ trailer, ¬IsControl b ∧ b ≠ escape) :
    OnLink keep (ms ++ new) (unread ++ new.flatMap fun m => m.frame ++ trailer) p := by
  induction new generalizing ms unread with
  | nil => simpa using h
  | cons m new ih =>
    have hfirst := h.append [.msg m] (by simpa [Chunk.Clean] using hnew m (by simp))
    have hrest := ih (hfirst.print htrailer) fun m' hm' => hnew m' (List.mem_cons_of_mem m hm')
    simpa [Chunk.code, Chunk.msg?] using hrest

/-- A byte that does not reach the parser. -/
theorem skip {b : UInt8} (hend : keep endByte = true) (h : OnLink keep ms (b :: unread) p)
    (hb : keep b = false) : OnLink keep ms unread p := by
  obtain ⟨chunks, read, start, rfl, hreading, hclean, hstart, hp⟩ := h
  obtain ⟨c, rest, tail, rfl, hcode, hlast, hmore⟩ := hreading.next Chunk.code_ne_nil
  have hread : (read ++ [b]).filter keep = read.filter keep := by
    simp [List.filter_append, hb]
  by_cases htail : tail = []
  · cases c with
    | text b' =>
      have hnil : read = [] := by
        have hlen := congrArg List.length hcode
        simp only [Chunk.code, List.length_append, List.length_cons, List.length_nil] at hlen
        exact List.length_eq_zero_iff.1 (by omega)
      refine ⟨rest, [], start, rfl, hlast htail, ?_, hstart, ?_⟩
      · exact (List.forall_mem_cons.1 hclean).2
      · rw [hp, hnil]
    | msg m =>
      rcases Msg.endByte_cases hcode with ⟨-, rfl⟩ | ⟨⟨front, hfront⟩, -⟩
      · exact absurd (hend.symm.trans hb) nofun
      · simp [htail] at hfront
  · exact ⟨c :: rest, read ++ [b], start, rfl, hmore htail, hclean, hstart, by rw [hread, hp]⟩

/-- A byte that the parser reads : it completes no message, and is no `END_BYTE`, or it is
the last of a frame, which arrives or is lost. -/
theorem read {b : UInt8} (hend : keep endByte = true) (h : OnLink keep ms (b :: unread) p)
    (hb : keep b = true) :
    ((parseMessage b p).1 = 0 ∧ b ≠ endByte ∧ OnLink keep ms unread (parseMessage b p).2) ∨
      ∃ m rest, ms = m :: rest ∧ b = endByte ∧ OnLink keep rest unread (parseMessage b p).2 ∧
        ((parseMessage b p).1 = 0 ∨ 0 < (parseMessage b p).1 ∧
          ∃ stale, (parseMessage b p).2.buffer = m.received stale) := by
  obtain ⟨chunks, read, start, rfl, hreading, hclean, hstart, rfl⟩ := h
  obtain ⟨c, rest, tail, rfl, hcode, hlast, hmore⟩ := hreading.next Chunk.code_ne_nil
  obtain ⟨hc, hrest⟩ := List.forall_mem_cons.1 hclean
  have hrun : parser.run start ((read ++ [b]).filter keep) =
      (parseMessage b (parser.run start (read.filter keep))).2 := by
    rw [List.filter_append, List.filter_cons_of_pos hb, List.filter_nil, Machine.run_append]
    rfl
  cases c with
  | text b' =>
    -- A byte of text is all of its chunk.
    have hlen := congrArg List.length hcode
    simp only [Chunk.code, List.length_append, List.length_cons, List.length_nil] at hlen
    have hread : read = [] := List.length_eq_zero_iff.1 (by omega)
    have htail : tail = [] := List.length_eq_zero_iff.1 (by omega)
    rw [hread, List.nil_append] at hcode
    obtain rfl := (List.cons.inj hcode).1
    rw [hread, List.filter_nil, Machine.run_nil]
    obtain ⟨hout, hescaped⟩ := parseMessage_text hc hstart
    refine Or.inl ⟨hout, fun h => hc.1 (Or.inr h), rest, [], _, rfl, hlast htail, hrest, hescaped,
      rfl⟩
  | msg m =>
    have hnext := Msg.Clean.next hend hc hcode hb hstart
    rcases Msg.endByte_cases hcode with ⟨htail, rfl⟩ | ⟨⟨front, hfront⟩, hne⟩
    · refine Or.inr ⟨m, _, rfl, rfl, ?_, hnext.imp_right fun h => ⟨h.2.1, _, h.2.2⟩⟩
      exact ⟨rest, [], _, rfl, hlast htail, hrest, isEscaped_endByte _, rfl⟩
    · have htail : tail ≠ [] := by simp [hfront]
      refine Or.inl ⟨hnext.resolve_right fun h => htail h.1, hne, ?_⟩
      exact ⟨.msg m :: rest, read ++ [b], start, rfl, hmore htail, hclean, hstart, hrun.symm⟩

end OnLink

end Quadrupel
