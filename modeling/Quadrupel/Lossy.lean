import Quadrupel.Joint
import Quadrupel.Link
import Quadrupel.PcTerminal

/-!
# The programs on bytes, the links on frames

`lossy` joins the two programs as they read their bytes, `pcTerminal` and `droneMain`, by a
link in each direction that keeps the order of its frames and may lose any of them. A frame
that is not lost is read byte by byte, between the other blocks of the loop, and the program
sees what its parser makes of the bytes : the message, another one, or none. Only the text
that the drone prints between its frames is left out, of which no byte completes a message
(`parseMessage_text`).

A `Lane` is such a link. As long as each frame on it arrives as its message or not at all
(`Msg.Clean`), the parser is in the middle of the first of them (`Lane.Midway`), and the byte
that ends a frame completes its message or loses it. So a step of which that is true
(`Lossy.Clean`) is a step of `joint`, or a silent byte (`Lossy.next_joint`), and what holds of
`joint` by an invariant holds of the programs on bytes in every clean run. The frames that ask
for a mode or confirm one are clean (`Msg.clean_setMode`, `Msg.clean_modeUpdate`), but not
all others : the drone can take the sticks for a request that nobody made.
-/

namespace Quadrupel

/-! ## A link that loses frames -/

/-- A link that keeps the order of its frames : the one that is being read, with its bytes
that are still to be read, and those behind it. -/
structure Lane (α : Type*) where
  arriving : Option (α × List UInt8)
  waiting : List α

namespace Lane

variable {α : Type*}

/-- The link with nothing on it. -/
def clear : Lane α :=
  ⟨none, []⟩

/-- The frames on the link. -/
def items (l : Lane α) : List α :=
  (l.arriving.map Prod.fst).toList ++ l.waiting

/-- More frames are sent. -/
def send (l : Lane α) (new : List α) : Lane α :=
  { l with waiting := l.waiting ++ new }

/-- A frame is lost of which nothing was read. -/
def lose (l : Lane α) (i : ℕ) : Lane α :=
  { l with waiting := l.waiting.eraseIdx i }

/-- The first frame, its bytes that are still to be read, and the frames behind it. -/
def first? (code : α → List UInt8) (l : Lane α) : Option (α × List UInt8 × List α) :=
  match l.arriving, l.waiting with
  | some (a, unread), waiting => some (a, unread, waiting)
  | none, a :: waiting => some (a, code a, waiting)
  | none, [] => none

/-- The next byte, and the link when it is read. -/
def read? (code : α → List UInt8) (l : Lane α) : Option (UInt8 × Lane α) :=
  match l.first? code with
  | some (a, b :: unread, waiting) =>
    some (b, ⟨if unread = [] then none else some (a, unread), waiting⟩)
  | _ => none

theorem items_send (l : Lane α) (new : List α) : (l.send new).items = l.items ++ new := by
  simp [items, send]

theorem items_lose (l : Lane α) (i : ℕ) :
    (l.lose i).items = l.items.eraseIdx (l.arriving.toList.length + i) := by
  cases h : l.arriving with
  | none => simp [items, lose, h]
  | some a => simp [items, lose, h, Nat.add_comm 1 i]

theorem items_first? {code : α → List UInt8} {l : Lane α} {a : α} {unread : List UInt8}
    {waiting : List α} (h : l.first? code = some (a, unread, waiting)) :
    l.items = a :: waiting ∧
      (l.arriving = some (a, unread) ∨ l.arriving = none ∧ unread = code a) := by
  unfold first? at h
  split at h
  · next a' unread' harriving =>
    obtain ⟨rfl, hrest⟩ := Prod.mk.inj (Option.some.inj h)
    obtain ⟨rfl, rfl⟩ := Prod.mk.inj hrest
    exact ⟨by simp [items, harriving], Or.inl harriving⟩
  · next b waiting' harriving hwaiting =>
    obtain ⟨rfl, hrest⟩ := Prod.mk.inj (Option.some.inj h)
    obtain ⟨rfl, rfl⟩ := Prod.mk.inj hrest
    exact ⟨by simp [items, harriving, hwaiting], Or.inr ⟨harriving, rfl⟩⟩
  · cases h

theorem exists_first?_of_read? {code : α → List UInt8} {l l' : Lane α} {b : UInt8}
    (h : l.read? code = some (b, l')) : ∃ a unread waiting,
      l.first? code = some (a, b :: unread, waiting) ∧
        l' = ⟨if unread = [] then none else some (a, unread), waiting⟩ := by
  unfold read? at h
  split at h
  · next a b' unread waiting hfirst =>
    obtain ⟨rfl, rfl⟩ := Prod.mk.inj (Option.some.inj h)
    exact ⟨a, unread, waiting, hfirst, rfl⟩
  · cases h

/-- Each frame on the link arrives as its message or not at all, and the parser has read
the bytes that it gets of the one that is being read. -/
structure Midway (keep : UInt8 → Bool) (msg : α → Msg) (l : Lane α) (p : Parser) : Prop where
  clean : ∀ a ∈ l.items, (msg a).Clean keep
  between : l.arriving = none → p.isEscaped = false
  within : ∀ a unread, l.arriving = some (a, unread) → ∃ read start,
    (msg a).frame = read ++ unread ∧ start.isEscaped = false ∧
      p = parser.run start (read.filter keep)

namespace Midway

variable {keep : UInt8 → Bool} {msg : α → Msg} {l l' : Lane α} {p : Parser}

theorem clear (hp : p.isEscaped = false) : Midway keep msg .clear p :=
  ⟨nofun, fun _ => hp, nofun⟩

theorem send (h : Midway keep msg l p) {new : List α} (hnew : ∀ a ∈ new, (msg a).Clean keep) :
    Midway keep msg (l.send new) p := by
  refine ⟨fun a ha => ?_, h.between, h.within⟩
  rw [items_send, List.mem_append] at ha
  exact ha.elim (h.clean a) (hnew a)

theorem lose (h : Midway keep msg l p) (i : ℕ) : Midway keep msg (l.lose i) p := by
  refine ⟨fun a ha => h.clean a ?_, h.between, h.within⟩
  rw [items_lose] at ha
  exact (List.eraseIdx_sublist _ _).subset ha

/-- The parser has read a part of the first frame, maybe none. -/
theorem exists_read (h : Midway keep msg l p) {a : α} {unread : List UInt8} {waiting : List α}
    (hfirst : l.first? (fun a => (msg a).frame) = some (a, unread, waiting)) :
    ∃ read start, (msg a).frame = read ++ unread ∧ start.isEscaped = false ∧
      p = parser.run start (read.filter keep) := by
  obtain ⟨-, harriving | ⟨hnone, rfl⟩⟩ := items_first? hfirst
  · exact h.within a unread harriving
  · exact ⟨[], p, rfl, h.between hnone, rfl⟩

/-- After a byte of the frame, the parser is within the frame, or behind it with no escape
pending. -/
theorem advance (h : Midway keep msg l p) {a : α} {read unread : List UInt8} {waiting : List α}
    {start q : Parser} (hitems : l.items = a :: waiting) (hframe : (msg a).frame = read ++ unread)
    (hstart : start.isEscaped = false) (hq : q = parser.run start (read.filter keep))
    (hend : unread = [] → q.isEscaped = false) :
    Midway keep msg ⟨if unread = [] then none else some (a, unread), waiting⟩ q := by
  have hclean := hitems ▸ h.clean
  by_cases hlast : unread = []
  · rw [if_pos hlast]
    exact ⟨fun a' ha' => hclean a' (List.mem_cons_of_mem a ha'), fun _ => hend hlast, nofun⟩
  · rw [if_neg hlast]
    refine ⟨hclean, nofun, fun a' unread' heq => ?_⟩
    obtain ⟨rfl, rfl⟩ := Prod.mk.inj (Option.some.inj heq)
    exact ⟨read, start, hframe, hstart, hq⟩

theorem items_advance (a : α) (unread : List UInt8) (waiting : List α) :
    items ⟨if unread = [] then none else some (a, unread), waiting⟩ =
      if unread = [] then waiting else a :: waiting := by
  split_ifs <;> simp [items]

/-- A byte that does not reach the parser. -/
theorem skip (hend : keep endByte = true) (h : Midway keep msg l p) {b : UInt8}
    (hread : l.read? (fun a => (msg a).frame) = some (b, l')) (hb : keep b = false) :
    l'.items = l.items ∧ Midway keep msg l' p := by
  obtain ⟨a, unread, waiting, hfirst, rfl⟩ := exists_first?_of_read? hread
  obtain ⟨hitems, -⟩ := items_first? hfirst
  obtain ⟨read, start, hframe, hstart, rfl⟩ := h.exists_read hfirst
  rcases Msg.endByte_cases hframe with ⟨-, rfl⟩ | ⟨⟨front, hfront⟩, -⟩
  · exact absurd (hend.symm.trans hb) nofun
  · have hmore : unread ≠ [] := by simp [hfront]
    rw [items_advance, if_neg hmore]
    have hframe' : (msg a).frame = (read ++ [b]) ++ unread :=
      hframe.trans (List.append_cons read b unread)
    refine ⟨hitems.symm, h.advance hitems hframe' hstart ?_ fun hlast => absurd hlast hmore⟩
    simp [List.filter_append, hb]

/-- A byte that the parser reads : it completes no message and is no `END_BYTE`, or it is the
last of the first frame, which arrives or is refused. -/
theorem read (hend : keep endByte = true) (h : Midway keep msg l p) {b : UInt8}
    (hread : l.read? (fun a => (msg a).frame) = some (b, l')) (hb : keep b = true) :
    Midway keep msg l' (parseMessage b p).2 ∧
      ((parseMessage b p).1 = 0 ∧ b ≠ endByte ∧ l'.items = l.items ∨
        b = endByte ∧ ∃ a, l.items = a :: l'.items ∧ ((parseMessage b p).1 = 0 ∨
          0 < (parseMessage b p).1 ∧
            ∃ stale, (parseMessage b p).2.buffer = (msg a).received stale)) := by
  obtain ⟨a, unread, waiting, hfirst, rfl⟩ := exists_first?_of_read? hread
  obtain ⟨hitems, -⟩ := items_first? hfirst
  obtain ⟨read, start, hframe, hstart, rfl⟩ := h.exists_read hfirst
  have hclean := h.clean a (hitems ▸ List.mem_cons_self)
  have hnext := hclean.next hend hframe hb hstart
  have hrun : (parseMessage b (parser.run start (read.filter keep))).2 =
      parser.run start ((read ++ [b]).filter keep) := by
    rw [List.filter_append, List.filter_cons_of_pos hb, List.filter_nil, Machine.run_append]
    rfl
  have hframe' : (msg a).frame = (read ++ [b]) ++ unread :=
    hframe.trans (List.append_cons read b unread)
  rw [items_advance]
  rcases Msg.endByte_cases hframe with ⟨rfl, rfl⟩ | ⟨⟨front, hfront⟩, hne⟩
  · refine ⟨h.advance hitems hframe' hstart hrun fun _ => isEscaped_endByte _, Or.inr ⟨rfl, a, ?_⟩⟩
    exact ⟨hitems, hnext.imp_right fun h => ⟨h.2.1, _, h.2.2⟩⟩
  · have hmore : unread ≠ [] := by simp [hfront]
    refine ⟨h.advance hitems hframe' hstart hrun fun hlast => absurd hlast hmore, Or.inl ?_⟩
    rw [if_neg hmore]
    exact ⟨hnext.resolve_right fun h => hmore h.1, hne, hitems.symm⟩

end Midway

end Lane

/-! ## The system -/

namespace Msg

/-- A `SET_MODE` for a mode arrives. -/
theorem clean_setMode (t : ModeType) : (setMode t).Clean droneReads :=
  clean_of_plain (by cases t <;> decide +kernel) fun _ _ => rfl

/-- A `MODE_UPDATE` for a mode arrives, also at a PC that reads no 0xFF. -/
theorem clean_modeUpdate (t : ModeType) : (modeUpdate t).Clean pcReads :=
  clean_of_plain (by cases t <;> decide +kernel) (by cases t <;> decide +kernel)

end Msg

/-- The mode that the message asks for, if it is a `SET_MODE`. -/
def Message.setMode? (m : Message) : Option UInt8 :=
  if m.messageType = MsgType.setMode.toByte then some (m.data 0) else none

/-- The mode of the `SET_MODE` that the byte completes, if it does. -/
def DroneMain.accepting (s : DroneMain) (c : UInt8) : Option UInt8 :=
  if 0 < (parseMessage c s.parser).1 then (parseMessage c s.parser).2.buffer.setMode? else none

/-- The mode that the block assigns to `mode_requested`, if it does. -/
def PcTerminal.requested (s : PcTerminal) : TerminalEvent → Option UInt8
  | .joystick now events => s.pc.requested (.joystick now events)
  | .keyboard now c => s.pc.requested (.keyboard now c)
  | .serial _ | .resend _ => none

/-- The two programs with the links between them, and the record of the run, as in `Joint`. -/
structure Lossy where
  terminal : PcTerminal
  main : DroneMain
  toDrone : Lane Frame
  toPc : Lane Msg
  accepted : UInt8
  clock : ℕ
  requestKey : Option ℕ
  panicBegan : ℕ

/-- The blocks of the two loops, `wait` µs after the one before on the drone, the end of the
drone's loop, and the loss of a frame. -/
inductive LossyEvent
  | joystick (now : Timespec) (events : List JsEvent)
  | keyboard (now : Timespec) (c : UInt8)
  | serial
  | resend (now : Timespec)
  | control (wait : ℕ) (sensors : Sensors)
  | char (wait : ℕ)
  | timer (wait : ℕ) (batVolt : UInt16)
  | terminate
  | loseToDrone (i : ℕ)
  | loseToPc (i : ℕ)

/-- The drone reads `n` bytes, for runs on fixed events. -/
def chars (n : ℕ) : List LossyEvent :=
  List.replicate n (.char 0)

/-- The PC reads `n` bytes. -/
def serials (n : ℕ) : List LossyEvent :=
  List.replicate n .serial

namespace Lossy

/-- Both programs when they enter their loops, with nothing on the links. -/
def start (now tMessageExpect : Timespec) (sendBuffer receiveBuffer : Message) (time : ℕ) :
    Lossy where
  terminal := .start now tMessageExpect sendBuffer receiveBuffer
  main := .start time
  toDrone := .clear
  toPc := .clear
  accepted := ModeType.safeMode
  clock := 0
  requestKey := none
  panicBegan := 0

/-- The system at power-up, for runs on fixed events. -/
def powerUp : Lossy :=
  start ⟨0, 0⟩ ⟨0, 0⟩ (Vector.replicate sizeofMessage 0) (Vector.replicate sizeofMessage 0) 0

/-- The next byte for the drone. -/
def droneByte? (s : Lossy) : Option (UInt8 × Lane Frame) :=
  s.toDrone.read? fun f => f.msg.frame

/-- The next byte for the PC. -/
def pcByte? (s : Lossy) : Option (UInt8 × Lane Msg) :=
  s.toPc.read? fun m => m.frame

/-- A block of the PC, counted to the key press `key`. -/
def pcBlock (s : Lossy) (e : TerminalEvent) (key : Option ℕ) : Lossy :=
  { s with
    terminal := pcTerminal.next s.terminal e
    toDrone := s.toDrone.send ((pcTerminal.out s.terminal e).sent.map fun msg => ⟨msg, key⟩)
    requestKey := if (s.terminal.requested e).isSome then key else s.requestKey }

/-- A block of the drone. -/
def droneBlock (s : Lossy) (e : MainEvent) : Lossy :=
  { s with main := droneMain.next s.main e, toPc := s.toPc.send (droneMain.out s.main e) }

/-- The effect of an event on the programs and the links. -/
def move (s : Lossy) : LossyEvent → Lossy
  | .joystick now events => s.pcBlock (.joystick now events) none
  | .keyboard now c => s.pcBlock (.keyboard now c) (some s.clock)
  | .serial =>
    if s.terminal.pc.demoDone then s
    else
      match s.pcByte? with
      | none => s
      | some (c, toPc) => { s with toPc }.pcBlock (.serial (some c)) none
  | .resend now => s.pcBlock (.resend now) s.requestKey
  | .control wait sensors => s.droneBlock ⟨wait, .control sensors⟩
  | .char wait =>
    match s.droneByte? with
    | none => s
    | some (c, toDrone) =>
      { s with toDrone, accepted := (s.main.accepting c).getD s.accepted }.droneBlock
        ⟨wait, .char c⟩
  | .timer wait batVolt => s.droneBlock ⟨wait, .timer batVolt⟩
  | .terminate =>
    if s.main.drone.demoDone then { s with toPc := s.toPc.send [.terminate] } else s
  | .loseToDrone i => { s with toDrone := s.toDrone.lose i }
  | .loseToPc i => { s with toPc := s.toPc.lose i }

/-- The drone is in `PANIC_MODE`. -/
def InPanic (s : Lossy) : Prop :=
  s.main.drone.currentMode = ModeType.panicMode

instance (s : Lossy) : Decidable s.InPanic :=
  inferInstanceAs (Decidable (_ = _))

/-- An event, with the record of the step. -/
def next (s : Lossy) (e : LossyEvent) : Lossy :=
  let s' := s.move e
  { s' with
    clock := s.clock + 1
    panicBegan := if s'.InPanic ∧ ¬s.InPanic then s.clock else s.panicBegan }

/-- The messages that the PC sends on an event. -/
def sends (s : Lossy) : LossyEvent → List Msg
  | .joystick now events => (pcTerminal.out s.terminal (.joystick now events)).sent
  | .keyboard now c => (pcTerminal.out s.terminal (.keyboard now c)).sent
  | .resend now => (pcTerminal.out s.terminal (.resend now)).sent
  | _ => []

/-- The messages that the drone sends on an event. -/
def reports (s : Lossy) : LossyEvent → List Msg
  | .control wait sensors => droneMain.out s.main ⟨wait, .control sensors⟩
  | .char wait => s.droneByte?.elim [] fun r => droneMain.out s.main ⟨wait, .char r.1⟩
  | .timer wait batVolt => droneMain.out s.main ⟨wait, .timer batVolt⟩
  | .terminate => if s.main.drone.demoDone then [.terminate] else []
  | _ => []

/-- The mode of the `SET_MODE` that the drone accepts on the event, if it does. -/
def accepting (s : Lossy) : LossyEvent → Option UInt8
  | .char _ => s.droneByte?.bind fun r => s.main.accepting r.1
  | _ => none

end Lossy

/-- The joint system with the programs on bytes, and the messages that the PC sends. -/
def lossy : Machine Lossy LossyEvent (List Msg) where
  next := Lossy.next
  out := Lossy.sends

namespace Lossy

/-- Each frame that is sent on the event arrives as its message or not at all. -/
structure Clean (s : Lossy) (e : LossyEvent) : Prop where
  sends : ∀ m ∈ s.sends e, m.Clean droneReads
  reports : ∀ m ∈ s.reports e, m.Clean pcReads

-- Two polls of the joystick, with no key pressed, and the drone goes to `YAW_CONTROL_MODE` : the
-- second frame has a reserved byte, and the parser finds the rest of a request in the first.
example : (lossy.run powerUp
    (.joystick ⟨1, 0⟩ [⟨-1024, 2, 3⟩] :: chars 9 ++
      .joystick ⟨2, 0⟩ [⟨256, 2, 0⟩, ⟨-21504, 2, 1⟩, ⟨-1280, 2, 2⟩, ⟨-4608, 2, 3⟩] ::
        chars 10)).main.drone.currentMode = ModeType.yawControlMode := by
  decide +kernel

/-- No message of the step has a reserved byte, and those of the drone have no byte 0xFF. -/
structure Plain (s : Lossy) (e : LossyEvent) : Prop where
  sends : ∀ m ∈ s.sends e, ∀ b ∈ m.bytes, ¬IsControl b
  reports : ∀ m ∈ s.reports e, (∀ b ∈ m.bytes, ¬IsControl b) ∧ ∀ b ∈ m.frame, pcReads b = true

instance (s : Lossy) (e : LossyEvent) : Decidable (s.Plain e) :=
  decidable_of_iff ((∀ m ∈ s.sends e, ∀ b ∈ m.bytes, ¬IsControl b) ∧
    ∀ m ∈ s.reports e, (∀ b ∈ m.bytes, ¬IsControl b) ∧ ∀ b ∈ m.frame, pcReads b = true)
    ⟨fun ⟨h, h'⟩ => ⟨h, h'⟩, fun ⟨h, h'⟩ => ⟨h, h'⟩⟩

theorem Plain.clean {s : Lossy} {e : LossyEvent} (h : s.Plain e) : s.Clean e :=
  ⟨fun m hm => Msg.clean_of_plain (h.sends m hm) fun _ _ => rfl,
    fun m hm => Msg.clean_of_plain (h.reports m hm).1 (h.reports m hm).2⟩

theorem clean_of_plain {s : Lossy} {es : List LossyEvent} (h : lossy.Along Plain s es) :
    lossy.Along Clean s es :=
  lossy.along_mono (fun _ _ he => he.clean) h

/-! ## As steps of `joint` -/

/-- The state of `joint` in which each frame is on its way until its last byte is read. -/
def joint (s : Lossy) : Joint where
  pc := s.terminal.pc
  drone := s.main.drone
  toDrone := s.toDrone.items
  toPc := s.toPc.items
  pcBuffer := s.terminal.parser.buffer
  droneBuffer := s.main.parser.buffer
  accepted := s.accepted
  clock := s.clock
  requestKey := s.requestKey
  panicBegan := s.panicBegan

/-- The event of `joint` that a byte is to a program : the arrival of the first frame or its
loss, or none. -/
def byteEvent (c : UInt8) (p : Parser) (arrives refused : JointEvent) : Option JointEvent :=
  if 0 < (parseMessage c p).1 then some arrives else if c = endByte then some refused else none

/-- The event of `joint` that the event is, if it is one. -/
def event (s : Lossy) : LossyEvent → Option JointEvent
  | .joystick now events => some (.joystick now events)
  | .keyboard now c => some (.keyboard now c)
  | .serial =>
    if s.terminal.pc.demoDone then none
    else
      (s.pcByte?.map Prod.fst).bind fun c =>
        if pcReads c then byteEvent c s.terminal.parser .pcReceive (.loseToPc 0) else none
  | .resend now => some (.resend now)
  | .control _ sensors => some (.control sensors)
  | .char wait =>
    (s.droneByte?.map Prod.fst).bind fun c =>
      byteEvent c s.main.parser (.droneReceive (getTimeUs (s.main.time + wait))) (.loseToDrone 0)
  | .timer wait batVolt => some (.timer batVolt (getTimeUs (s.main.time + wait)))
  | .terminate => some .terminate
  | .loseToDrone i => some (.loseToDrone (s.toDrone.arriving.toList.length + i))
  | .loseToPc i => some (.loseToPc (s.toPc.arriving.toList.length + i))

/-- Both parsers are in the middle of the first frame on their way. -/
structure Midway (s : Lossy) : Prop where
  toDrone : s.toDrone.Midway droneReads Frame.msg s.main.parser
  toPc : s.toPc.Midway pcReads (fun m => m) s.terminal.parser

theorem midway_start (now tMessageExpect : Timespec) (sendBuffer receiveBuffer : Message)
    (time : ℕ) : (start now tMessageExpect sendBuffer receiveBuffer time).Midway :=
  ⟨.clear rfl, .clear rfl⟩

/-- Up to the buffers of the parsers, `t'` is the state after the event. -/
def LeadsTo (t : Joint) (e : Option JointEvent) (t' : Joint) : Prop :=
  ∃ pcBuffer droneBuffer, t' = { e.elim t t.move with pcBuffer, droneBuffer }

/-- A block of the PC that reads no byte. -/
theorem pcBlock_joint {s : Lossy} (h : s.Midway) {e : TerminalEvent} (pe : PcEvent)
    (hnext : pcTerminal.next s.terminal e =
      { s.terminal with pc := pcLoop.next s.terminal.pc pe })
    (hsent : (pcTerminal.out s.terminal e).sent = pcLoop.out s.terminal.pc pe)
    (hrequested : s.terminal.requested e = s.terminal.pc.requested pe)
    (hclean : ∀ m ∈ (pcTerminal.out s.terminal e).sent, m.Clean droneReads) (key : Option ℕ) :
    (s.pcBlock e key).Midway ∧ (s.pcBlock e key).joint = s.joint.pcBlock pe key := by
  refine ⟨⟨h.toDrone.send fun f hf => ?_, ?_⟩, ?_⟩
  · obtain ⟨m, hm, rfl⟩ := List.mem_map.1 hf
    exact hclean m hm
  · have hparser : (s.pcBlock e key).terminal.parser = s.terminal.parser := by
      rw [pcBlock, hnext]
    exact hparser ▸ h.toPc
  · simp only [joint, pcBlock, Joint.pcBlock, hnext, hsent, hrequested, Lane.items_send]
    rfl

/-- A block of the drone that reads no byte. -/
theorem droneBlock_joint {s : Lossy} (h : s.Midway) {e : MainEvent} (de : DroneEvent)
    (hdrone : (droneMain.next s.main e).drone = droneLoop.next s.main.drone de)
    (hparser : (droneMain.next s.main e).parser = s.main.parser)
    (hout : droneMain.out s.main e = droneLoop.out s.main.drone de)
    (hclean : ∀ m ∈ droneMain.out s.main e, m.Clean pcReads) :
    (s.droneBlock e).Midway ∧ (s.droneBlock e).joint = s.joint.droneBlock de := by
  refine ⟨⟨hparser.symm ▸ h.toDrone, h.toPc.send hclean⟩, ?_⟩
  simp only [joint, droneBlock, Joint.droneBlock, hdrone, hparser, hout, Lane.items_send]

/-- The PC reads a byte. -/
theorem serial_joint {s : Lossy} (h : s.Midway) (hdone : s.terminal.pc.demoDone = false)
    {c : UInt8} {toPc : Lane Msg} (hbyte : s.pcByte? = some (c, toPc)) :
    (s.move .serial).Midway ∧ LeadsTo s.joint (s.event .serial) (s.move .serial).joint := by
  have hmove : s.move .serial =
      { s with toPc, terminal := (s.terminal.readSerial (some c)).1 } := by
    simp [move, hbyte, hdone, pcBlock, pcTerminal, PcTerminal.runBlock, PcTerminal.requested,
      Lane.send]
  have hevent : s.event .serial = if pcReads c then
      byteEvent c s.terminal.parser .pcReceive (.loseToPc 0) else none := by
    simp [event, hbyte, hdone]
  rw [hmove, hevent, PcTerminal.readSerial_some]
  by_cases hc : c = 0xFF
  · have hskip : pcReads c = false := by simp [pcReads, hc]
    obtain ⟨hitems, hmidway⟩ := h.toPc.skip rfl hbyte hskip
    rw [if_pos hc, hskip, if_neg Bool.false_ne_true]
    refine ⟨⟨h.toDrone, hmidway⟩, s.terminal.parser.buffer, s.main.parser.buffer, ?_⟩
    simp only [joint, hitems, Option.elim_none]
  · have hkeep : pcReads c = true := by simp [pcReads, hc]
    obtain ⟨hmidway, hcases⟩ := h.toPc.read rfl hbyte hkeep
    rw [if_neg hc, hkeep, if_pos rfl, byteEvent]
    refine ⟨⟨h.toDrone, hmidway⟩, (parseMessage c s.terminal.parser).2.buffer,
      s.main.parser.buffer, ?_⟩
    rcases hcases with ⟨hzero, hne, hitems⟩ | ⟨rfl, m, hitems, hzero | ⟨hpos, stale, hbuffer⟩⟩
    · rw [if_neg (by omega), if_neg hne]
      simp [joint, PcTerminal.handleChar, hzero, hitems]
    · rw [if_neg (by omega), if_pos rfl]
      simp [joint, PcTerminal.handleChar, hzero, hitems, Joint.move]
    · rw [if_pos hpos]
      have haccept := Pc.acceptMessage_stale m stale s.terminal.parser.buffer s.terminal.pc
      rw [← hbuffer] at haccept
      simp [joint, PcTerminal.handleChar, hpos, hitems, Joint.move, Joint.pcBlock, pcLoop,
        Pc.runBlock, hdone, haccept, Pc.requested]

theorem Message.setMode?_received (m : Msg) (stale : Message) :
    (m.received stale).setMode? = m.mode? := by
  unfold Message.setMode?
  rw [m.messageType_received]
  cases m with
  | setMode mode =>
    have hdata : (Msg.received (.setMode mode) stale).data 0 = mode :=
      (Msg.setMode mode).data_received stale (i := 0) (by simp [Msg.data])
    exact (if_pos rfl).trans (congrArg some hdata)
  | inputData | setPValues | modeUpdate | pValuesUpdate | calibrationData | terminate => rfl

/-- The drone reads a byte. -/
theorem char_joint {s : Lossy} (h : s.Midway) {c : UInt8} {toDrone : Lane Frame}
    (hbyte : s.droneByte? = some (c, toDrone)) (wait : ℕ) (he : s.Clean (.char wait)) :
    (s.move (.char wait)).Midway ∧
      LeadsTo s.joint (s.event (.char wait)) (s.move (.char wait)).joint := by
  have hmove : s.move (.char wait) = { s with
      toDrone, accepted := (s.main.accepting c).getD s.accepted }.droneBlock ⟨wait, .char c⟩ := by
    simp [move, hbyte]
  have hevent : s.event (.char wait) = byteEvent c s.main.parser
      (.droneReceive (getTimeUs (s.main.time + wait))) (.loseToDrone 0) := by
    simp [event, hbyte]
  have hreports : ∀ m ∈ droneMain.out s.main ⟨wait, .char c⟩, m.Clean pcReads := by
    simpa [reports, hbyte] using he.reports
  obtain ⟨hparser, hsilent, haccepted⟩ := droneMain_char s.main wait c
  obtain ⟨hmidway, hcases⟩ := h.toDrone.read rfl hbyte rfl
  rw [hmove, hevent, byteEvent]
  refine ⟨⟨hparser ▸ hmidway, h.toPc.send hreports⟩, s.terminal.parser.buffer,
    (parseMessage c s.main.parser).2.buffer, ?_⟩
  simp only [joint, droneBlock, Lane.items_send, hparser, DroneMain.accepting]
  rcases hcases with ⟨hzero, hne, hitems⟩ | ⟨rfl, f, hitems, hzero | ⟨hpos, stale, hbuffer⟩⟩
  · obtain ⟨hdrone, hout⟩ := hsilent hzero
    rw [if_neg (by omega), if_neg hne]
    simp [hdrone, hout, hitems, hzero]
  · obtain ⟨hdrone, hout⟩ := hsilent hzero
    rw [if_neg (by omega), if_pos rfl]
    simp [hdrone, hout, hitems, hzero, Joint.move]
  · obtain ⟨hdrone, hout⟩ := haccepted hpos
    rw [hbuffer, Drone.acceptMessage_stale f.msg stale s.main.parser.buffer] at hdrone hout
    rw [if_pos hpos, if_pos hpos, hbuffer, Message.setMode?_received]
    simp [hdrone, hout, hitems, Joint.move, Joint.droneBlock, droneLoop]

theorem move_joint {s : Lossy} (h : s.Midway) {e : LossyEvent} (he : s.Clean e) :
    (s.move e).Midway ∧ LeadsTo s.joint (s.event e) (s.move e).joint := by
  have hsame {s' : Lossy} {t : Joint} (hmidway : s'.Midway ∧ s'.joint = t) :
      s'.Midway ∧ ∃ pcBuffer droneBuffer, s'.joint = { t with pcBuffer, droneBuffer } :=
    ⟨hmidway.1, t.pcBuffer, t.droneBuffer, hmidway.2⟩
  cases e with
  | joystick now events =>
    exact hsame (pcBlock_joint h (.joystick now events) rfl rfl rfl he.sends none)
  | keyboard now c =>
    exact hsame (pcBlock_joint h (.keyboard now c) rfl rfl rfl he.sends (some s.clock))
  | serial =>
    cases hdone : s.terminal.pc.demoDone with
    | true =>
      have hmove : s.move .serial = s := by simp [move, hdone]
      have hevent : s.event .serial = none := by simp [event, hdone]
      rw [hmove, hevent]
      exact hsame ⟨h, rfl⟩
    | false =>
      cases hbyte : s.pcByte? with
      | none =>
        have hmove : s.move .serial = s := by simp [move, hbyte]
        have hevent : s.event .serial = none := by simp [event, hbyte]
        rw [hmove, hevent]
        exact hsame ⟨h, rfl⟩
      | some r => exact serial_joint h hdone hbyte
  | resend now => exact hsame (pcBlock_joint h (.resend now) rfl rfl rfl he.sends s.requestKey)
  | control wait sensors =>
    exact hsame (droneBlock_joint h (.control sensors) rfl rfl rfl he.reports)
  | char wait =>
    cases hbyte : s.droneByte? with
    | none =>
      have hmove : s.move (.char wait) = s := by simp [move, hbyte]
      have hevent : s.event (.char wait) = none := by simp [event, hbyte]
      rw [hmove, hevent]
      exact hsame ⟨h, rfl⟩
    | some r => exact char_joint h hbyte wait he
  | timer wait batVolt =>
    exact hsame (droneBlock_joint h (.timer batVolt (getTimeUs (s.main.time + wait))) rfl rfl rfl
      he.reports)
  | terminate =>
    have hclean := he.reports
    simp only [move, reports, event, LeadsTo, Option.elim_some, Joint.move] at hclean ⊢
    split_ifs at hclean with hdone
    · rw [if_pos hdone, if_pos (show s.joint.drone.demoDone = true from hdone)]
      refine hsame ⟨⟨h.toDrone, h.toPc.send hclean⟩, ?_⟩
      simp only [joint, Lane.items_send]
    · rw [if_neg hdone, if_neg (show ¬s.joint.drone.demoDone = true from hdone)]
      exact hsame ⟨h, rfl⟩
  | loseToDrone i =>
    refine hsame ⟨⟨h.toDrone.lose i, h.toPc⟩, ?_⟩
    simp only [joint, move, Lane.items_lose, event, Option.elim_some, Joint.move]
  | loseToPc i =>
    refine hsame ⟨⟨h.toDrone, h.toPc.lose i⟩, ?_⟩
    simp only [joint, move, Lane.items_lose, event, Option.elim_some, Joint.move]

end Lossy

/-- The state after an event, or after a step on which nothing happens. -/
def Joint.after (s : Joint) : Option JointEvent → Joint
  | some e => Quadrupel.joint.next s e
  | none => { s with clock := s.clock + 1 }

namespace Lossy

/-- A clean step is a step of `joint`, or none, up to the buffers of the parsers. -/
theorem next_joint {s : Lossy} (h : s.Midway) {e : LossyEvent} (he : s.Clean e) :
    (lossy.next s e).Midway ∧ ∃ pcBuffer droneBuffer,
      (lossy.next s e).joint = { s.joint.after (s.event e) with pcBuffer, droneBuffer } := by
  obtain ⟨hmidway, pcBuffer, droneBuffer, hjoint⟩ := move_joint h he
  refine ⟨⟨hmidway.toDrone, hmidway.toPc⟩, pcBuffer, droneBuffer, ?_⟩
  have hrecord : (lossy.next s e).joint = { (s.move e).joint with
      clock := s.clock + 1
      panicBegan := if (s.move e).joint.InPanic ∧ ¬s.joint.InPanic then s.clock
        else s.panicBegan } := rfl
  rw [hrecord, hjoint]
  cases hevent : s.event e with
  | none =>
    have hsame : ¬({ none.elim s.joint s.joint.move with pcBuffer, droneBuffer }.InPanic ∧
        ¬s.joint.InPanic) := fun hnew => hnew.2 hnew.1
    rw [if_neg hsame]
    rfl
  | some e' => rfl

theorem accepting_byteEvent {t : Joint} {c : UInt8} {p : Parser} {arrives refused : JointEvent}
    (harrives : t.accepting arrives = none) (hrefused : t.accepting refused = none) :
    (byteEvent c p arrives refused).bind t.accepting = none := by
  unfold byteEvent
  split_ifs <;> simp [harrives, hrefused]

/-- The mode that the drone accepts is that of the frame that arrives. -/
theorem accepting_eq {s : Lossy} (h : s.Midway) (e : LossyEvent) :
    s.accepting e = (s.event e).bind s.joint.accepting := by
  cases e with
  | char wait =>
    cases hbyte : s.droneByte? with
    | none => simp [accepting, event, hbyte]
    | some r =>
      obtain ⟨c, toDrone⟩ := r
      obtain ⟨-, ⟨hzero, hne, -⟩ | ⟨rfl, f, hitems, hzero | ⟨hpos, stale, hbuffer⟩⟩⟩ :=
        h.toDrone.read rfl hbyte rfl
      · simp [accepting, event, hbyte, DroneMain.accepting, byteEvent, hzero, hne]
      · simp [accepting, event, hbyte, DroneMain.accepting, byteEvent, hzero, Joint.accepting]
      · simp [accepting, event, hbyte, DroneMain.accepting, byteEvent, hpos, Joint.accepting,
          joint, hitems, hbuffer, Message.setMode?_received]
  | serial =>
    simp only [accepting, event]
    split_ifs
    · rfl
    · cases s.pcByte?.map Prod.fst with
      | none => rfl
      | some c =>
        simp only [Option.bind_some]
        split_ifs
        · exact (accepting_byteEvent rfl rfl).symm
        · rfl
  | joystick | keyboard | resend | control | timer | terminate | loseToDrone | loseToPc => rfl

/-- The event of `joint` that the event is, if it is one, has the property. -/
def Each (good : Joint → JointEvent → Prop) (s : Lossy) (e : LossyEvent) : Prop :=
  ∀ e' ∈ s.event e, good s.joint e'

instance (good : Joint → JointEvent → Prop) [∀ t e, Decidable (good t e)] (s : Lossy)
    (e : LossyEvent) : Decidable (s.Each good e) :=
  inferInstanceAs (Decidable (∀ e' ∈ s.event e, good s.joint e'))

/-- An invariant of `joint` that speaks neither of the buffers nor of the clock holds on, if
the event of `joint` keeps it. -/
theorem invariant_next {Inv : Joint → Prop} (hframe : ∀ t clock pcBuffer droneBuffer, Inv t →
      t.clock ≤ clock → Inv { t with clock, pcBuffer, droneBuffer })
    {s : Lossy} (h : s.Midway) {e : LossyEvent} (he : s.Clean e) (hs : Inv s.joint)
    (hstep : s.Each (fun t e' => Inv (Quadrupel.joint.next t e')) e) :
    (lossy.next s e).Midway ∧ Inv (lossy.next s e).joint := by
  obtain ⟨hmidway, pcBuffer, droneBuffer, hjoint⟩ := next_joint h he
  refine ⟨hmidway, ?_⟩
  rw [hjoint]
  cases hevent : s.event e with
  | none => exact hframe s.joint _ pcBuffer droneBuffer hs (Nat.le_succ _)
  | some e' => exact hframe _ _ pcBuffer droneBuffer (hstep e' hevent) le_rfl

/-! ## What the events are -/

theorem byteEvent_cases {c : UInt8} {p : Parser} {arrives refused e' : JointEvent}
    (h : byteEvent c p arrives refused = some e') : e' = arrives ∨ e' = refused := by
  unfold byteEvent at h
  split_ifs at h
  · exact Or.inl (Option.some.inj h).symm
  · exact Or.inr (Option.some.inj h).symm

/-- The events of `joint` that an event may be. -/
def May : LossyEvent → JointEvent → Prop
  | .joystick now events, e' => e' = .joystick now events
  | .keyboard now c, e' => e' = .keyboard now c
  | .serial, e' => e' = .pcReceive ∨ e' = .loseToPc 0
  | .resend now, e' => e' = .resend now
  | .control _ sensors, e' => e' = .control sensors
  | .char _, e' => (∃ now, e' = .droneReceive now) ∨ e' = .loseToDrone 0
  | .timer _ batVolt, e' => ∃ now, e' = .timer batVolt now
  | .terminate, e' => e' = .terminate
  | .loseToDrone _, e' => ∃ i, e' = .loseToDrone i
  | .loseToPc _, e' => ∃ i, e' = .loseToPc i

theorem may_of_event {s : Lossy} {e : LossyEvent} {e' : JointEvent} (h : s.event e = some e') :
    May e e' := by
  cases e with
  | joystick | keyboard | resend | control | terminate => exact (Option.some.inj h).symm
  | timer | loseToDrone | loseToPc => exact ⟨_, (Option.some.inj h).symm⟩
  | serial =>
    simp only [event] at h
    split_ifs at h
    obtain ⟨c, -, hc⟩ := Option.bind_eq_some_iff.1 h
    split_ifs at hc
    exact byteEvent_cases hc
  | char wait =>
    obtain ⟨c, -, hc⟩ := Option.bind_eq_some_iff.1 h
    exact (byteEvent_cases hc).imp_left fun heq => ⟨_, heq⟩

theorem eq_control_of_event {s : Lossy} {e : LossyEvent} {sensors : Sensors}
    (h : s.event e = some (.control sensors)) : ∃ wait, e = .control wait sensors := by
  have hmay := may_of_event h
  cases e <;> simp_all [May]

theorem eq_keyboard_of_event {s : Lossy} {e : LossyEvent} {now : Timespec} {c : UInt8}
    (h : s.event e = some (.keyboard now c)) : e = .keyboard now c := by
  have hmay := may_of_event h
  cases e <;> simp_all [May]

theorem eq_terminate_of_event {s : Lossy} {e : LossyEvent} (h : s.event e = some .terminate) :
    e = .terminate := by
  have hmay := may_of_event h
  cases e <;> simp_all [May]

/-- A message arrives at the PC with the byte that completes it. -/
theorem byte_of_pcReceive {s : Lossy} {e : LossyEvent} (h : s.event e = some .pcReceive) :
    e = .serial ∧ ∃ r, s.pcByte? = some r ∧ pcReads r.1 = true ∧
      0 < (parseMessage r.1 s.terminal.parser).1 := by
  have hmay := may_of_event h
  cases e with
  | serial =>
    simp only [event] at h
    split_ifs at h
    obtain ⟨c, hbyte, hc⟩ := Option.bind_eq_some_iff.1 h
    obtain ⟨r, hr, rfl⟩ := Option.map_eq_some_iff.1 hbyte
    split_ifs at hc with hreads
    unfold byteEvent at hc
    split_ifs at hc with hpos
    · exact ⟨rfl, r, hr, hreads, hpos⟩
    · cases hc
  | joystick | keyboard | resend | control | char | timer | terminate | loseToDrone
  | loseToPc => simp [May] at hmay

/-- What a clean step does to the mode of the drone. -/
theorem next_currentMode_cases {s : Lossy} (h : s.Midway) {e : LossyEvent} (he : s.Clean e) :
    (lossy.next s e).main.drone.currentMode = s.main.drone.currentMode ∨
      s.accepting e = some (lossy.next s e).main.drone.currentMode ∨
      (∃ wait sensors, e = .control wait sensors) ∧
        s.main.drone.currentMode = ModeType.panicMode ∧
        (lossy.next s e).main.drone.currentMode = ModeType.safeMode ∧
        (∀ i, (lossy.next s e).main.drone.ae i = 0) ∨
      (lossy.next s e).main.drone.currentMode = ModeType.panicMode := by
  obtain ⟨-, pcBuffer, droneBuffer, hjoint⟩ := next_joint h he
  have hdrone : (lossy.next s e).main.drone = (s.joint.after (s.event e)).drone :=
    congrArg Joint.drone hjoint
  rw [accepting_eq h, hdrone]
  cases hevent : s.event e with
  | none => exact Or.inl rfl
  | some e' =>
    rcases s.joint.next_currentMode_cases e' with hsame | haccept |
      ⟨⟨sensors, rfl⟩, hpanic, hsafe, hae⟩ | ⟨-, -, hpanic⟩ | ⟨-, hpanic⟩
    · exact Or.inl hsame
    · exact Or.inr (Or.inl haccept)
    · obtain ⟨wait, rfl⟩ := eq_control_of_event hevent
      exact Or.inr (Or.inr (Or.inl ⟨⟨wait, sensors, rfl⟩, hpanic, hsafe, hae⟩))
    · exact Or.inr (Or.inr (Or.inr hpanic))
    · exact Or.inr (Or.inr (Or.inr hpanic))

end Lossy

end Quadrupel
