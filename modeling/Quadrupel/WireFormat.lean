import Quadrupel.Frame

/-!
# Unique decoding

The frames of the two `send_message` can be told apart : a stream of them is that of one
sequence of messages only (`sendMessage_uniquely`). `END_BYTE` marks the end of a frame
because it does not occur in the stuffed bytes, whatever the message holds; in
particular none of 0x32, 0x33 and 0x5D, the bytes that follow an `ESCAPE`, is reserved
itself.
-/

namespace Quadrupel

/-- The loop of either `send_message`, with `message_ptr` at the first of the bytes. -/
def sendLoop : List UInt8 → List UInt8
  | [] => []
  | b :: bs =>
    if b = startByte ∨ b = endByte ∨ b = escape then escape :: (b ^^^ 0x20) :: sendLoop bs
    else b :: sendLoop bs

theorem reserved_iff (b : UInt8) :
    stuffing.reserved b = true ↔ b = startByte ∨ b = endByte ∨ b = escape := by
  simp [stuffing, or_assoc]

theorem stuff_eq_sendLoop (bs : List UInt8) : stuffing.stuff bs = sendLoop bs := by
  induction bs with
  | nil => rfl
  | cons b bs ih =>
    rw [Stuffing.stuff_cons, Stuffing.stuffOne, sendLoop, ih]
    by_cases h : stuffing.reserved b = true
    · rw [if_pos h, if_pos ((reserved_iff b).1 h)]
      rfl
    · rw [if_neg h, if_neg (mt (reserved_iff b).2 h)]
      rfl

/-- `send_message` of the PC as a frame. -/
theorem Pc.sendMessage_eq (message : Message) (messageLen : ℕ) :
    Pc.sendMessage message messageLen =
      stuffing.frame startByte endByte [] (message.bytes messageLen) :=
  rfl

theorem Drone.sendMessage_eq (message : Message) (messageLen : ℕ) :
    Drone.sendMessage message messageLen =
      stuffing.frame startByte endByte [0x0A] (message.bytes messageLen) :=
  rfl

/-- What the two functions send, written as the source has it : the `START_BYTE`, the bytes
from the loop, the `END_BYTE`, and on the drone a newline. -/
theorem sendMessage_eq_sendLoop (message : Message) (messageLen : ℕ) :
    Pc.sendMessage message messageLen =
        startByte :: (sendLoop (message.bytes messageLen) ++ [endByte]) ∧
      Drone.sendMessage message messageLen =
        startByte :: (sendLoop (message.bytes messageLen) ++ [endByte, 0x0A]) := by
  rw [← stuff_eq_sendLoop]
  exact ⟨rfl, rfl⟩

/-- No reserved byte is the mask of one. -/
theorem mask_ne_of_reserved {a b : UInt8} (ha : stuffing.reserved a = true)
    (hb : stuffing.reserved b = true) : stuffing.mask b ≠ a := by
  rcases (reserved_iff a).1 ha with rfl | rfl | rfl <;>
    rcases (reserved_iff b).1 hb with rfl | rfl | rfl <;> decide

theorem startByte_notMem_stuff (bs : List UInt8) : startByte ∉ stuffing.stuff bs :=
  stuffing.notMem_stuff rfl (by decide) (fun _ => mask_ne_of_reserved rfl) bs

theorem endByte_notMem_stuff (bs : List UInt8) : endByte ∉ stuffing.stuff bs :=
  stuffing.notMem_stuff rfl (by decide) (fun _ => mask_ne_of_reserved rfl) bs

/-- A message of 3 to 45 bytes. -/
structure Packet where
  message : Message
  messageLen : ℕ
  three_le : 3 ≤ messageLen
  le_sizeofMessage : messageLen ≤ sizeofMessage

/-- The bytes that are sent. -/
def Packet.bytes (p : Packet) : List UInt8 :=
  p.message.bytes p.messageLen

/-- A `START_BYTE`, what is neither that nor `END_BYTE` and has an escaped byte behind each
`ESCAPE`, an `END_BYTE`, and the trailer. -/
def Delimited (trailer frame : List UInt8) : Prop :=
  ∃ body, frame = startByte :: (body ++ endByte :: trailer) ∧ startByte ∉ body ∧ endByte ∉ body ∧
    ∀ before after, body = before ++ escape :: after →
      ∃ b rest, (b = startByte ∨ b = endByte ∨ b = escape) ∧ after = (b ^^^ 0x20) :: rest

theorem delimited_frame (trailer bs : List UInt8) :
    Delimited trailer (stuffing.frame startByte endByte trailer bs) := by
  refine ⟨stuffing.stuff bs, rfl, startByte_notMem_stuff bs, endByte_notMem_stuff bs, ?_⟩
  intro before after h
  obtain ⟨b, rest, hb, hafter⟩ := stuffing.after_escape (fun _ => mask_ne_of_reserved rfl) h
  exact ⟨b, rest, (reserved_iff b).1 hb, hafter⟩

/-- Equal streams are those of equal sequences of messages. -/
def UniquelyDecodes (sendMessage : Message → ℕ → List UInt8) : Prop :=
  ∀ ps qs : List Packet,
    (ps.flatMap fun p => sendMessage p.message p.messageLen) =
        (qs.flatMap fun q => sendMessage q.message q.messageLen) →
      ps.map Packet.bytes = qs.map Packet.bytes

theorem uniquelyDecodes_frame {sendMessage : Message → ℕ → List UInt8} {trailer : List UInt8}
    (h : ∀ m n, sendMessage m n = stuffing.frame startByte endByte trailer (m.bytes n)) :
    UniquelyDecodes sendMessage := by
  have hinj : Function.Injective fun ass : List (List UInt8) =>
      ass.flatMap (stuffing.frame startByte endByte trailer) :=
    stuffing.flatMap_frame_injective endByte_notMem_stuff
  have hmap : ∀ ps : List Packet, (ps.flatMap fun p => sendMessage p.message p.messageLen) =
      (ps.map Packet.bytes).flatMap (stuffing.frame startByte endByte trailer) := fun ps => by
    simp only [h, List.flatMap_map]
    rfl
  intro ps qs heq
  rw [hmap, hmap] at heq
  exact hinj heq

/-- The wire format is uniquely decodable, and the two programs put the same bytes on the
wire for a message, up to the newline. -/
theorem sendMessage_uniquely :
    UniquelyDecodes Pc.sendMessage ∧ UniquelyDecodes Drone.sendMessage ∧
      ∀ p : Packet,
        Delimited [] (Pc.sendMessage p.message p.messageLen) ∧
          Delimited [0x0A] (Drone.sendMessage p.message p.messageLen) ∧
          Drone.sendMessage p.message p.messageLen =
            Pc.sendMessage p.message p.messageLen ++ [0x0A] := by
  refine ⟨uniquelyDecodes_frame Pc.sendMessage_eq, uniquelyDecodes_frame Drone.sendMessage_eq,
    fun p => ⟨delimited_frame [] p.bytes, delimited_frame [0x0A] p.bytes, ?_⟩⟩
  rw [Pc.sendMessage, Drone.sendMessage, List.append_assoc]
  rfl

end Quadrupel
