import Quadrupel.Lossy

/-!
# Panics and requests made before them

Once the drone is in `PANIC_MODE`, a `SET_MODE` is to take it out of there only if the
operator pressed its key after the panic began. The drone does not tell the PC of a panic
that it starts by itself, and the PC sends an unconfirmed request again every 200 ms. So
the rule holds in a clean run if no panic begins with an older request on its way, and no
older request is sent again during one (`RespectsPanic`) : then every frame that can take
the drone out of its panic is newer than the panic (`Kept.next`). In `not_leavesPanic` a
resend takes it out.
-/

namespace Quadrupel

/-- The frame asks for no mode but `PANIC_MODE`, or its key was pressed after the step
`began`. -/
def Frame.Newer (began : ℕ) (f : Frame) : Prop :=
  ∀ m ∈ f.msg.mode?, m = ModeType.panicMode ∨ ∃ k ∈ f.key, began < k

namespace Joint

/-- The key press that the frames sent on the event are counted to. -/
def keyOf (s : Joint) : JointEvent → Option ℕ
  | .keyboard _ _ => some s.clock
  | .resend _ => s.requestKey
  | _ => none

/-- During a panic a resend asks for `PANIC_MODE`, or repeats a request whose key was
pressed after the panic began. -/
def ResendsNewer (s : Joint) : JointEvent → Prop
  | .resend now => s.InPanic →
      ∀ m ∈ s.pc.sent (.resend now), m = ModeType.panicMode ∨ ∃ k ∈ s.requestKey, s.panicBegan < k
  | _ => True

instance (s : Joint) : ∀ e, Decidable (s.ResendsNewer e)
  | .resend now => inferInstanceAs (Decidable (_ → ∀ m ∈ s.pc.sent (.resend now), _))
  | .joystick .. | .keyboard .. | .pcReceive | .control _ | .droneReceive _ | .timer ..
  | .terminate | .loseToDrone _ | .loseToPc _ => inferInstanceAs (Decidable True)

/-- The drone is not in `PANIC_MODE`, and the event takes it there : the end of
`TERMINATE_MODE`, a request, or the failsafe. -/
def BeginsPanic (s : Joint) (e : JointEvent) : Prop :=
  ¬s.InPanic ∧ match e with
    | .control _ => s.drone.currentMode = ModeType.terminateMode
    | .droneReceive now => s.accepting (.droneReceive now) = some ModeType.panicMode.toByte
    | .timer batVolt now => s.drone.Failsafe batVolt now
    | _ => False

instance (s : Joint) : ∀ e, Decidable (s.BeginsPanic e)
  | .control _ => inferInstanceAs (Decidable (_ ∧ s.drone.currentMode = _))
  | .droneReceive now => inferInstanceAs (Decidable (_ ∧ s.accepting (.droneReceive now) = _))
  | .timer batVolt now => inferInstanceAs (Decidable (_ ∧ s.drone.Failsafe batVolt now))
  | .joystick .. | .keyboard .. | .pcReceive | .resend _ | .terminate | .loseToDrone _
  | .loseToPc _ => inferInstanceAs (Decidable (_ ∧ False))

/-- If a panic begins with the event, then all requests on their way ask for
`PANIC_MODE`; and a resend during a panic repeats no older request. -/
def RespectsPanic (s : Joint) (e : JointEvent) : Prop :=
  (s.BeginsPanic e → ∀ m ∈ s.modesToDrone, m = ModeType.panicMode) ∧ s.ResendsNewer e

instance (s : Joint) (e : JointEvent) : Decidable (s.RespectsPanic e) :=
  inferInstanceAs (Decidable ((_ → ∀ m ∈ s.modesToDrone, _) ∧ _))

theorem beginsPanic_of_next {s : Joint} (h : ¬s.InPanic) {e : JointEvent}
    (h' : (joint.next s e).InPanic) : s.BeginsPanic e := by
  refine ⟨h, ?_⟩
  rcases s.next_currentMode_cases e with hsame | haccept | ⟨-, -, hsafe, -⟩ |
    ⟨⟨sensors, rfl⟩, hterm, -⟩ | ⟨⟨batVolt, now, rfl, hfail⟩, -⟩
  · exact absurd (hsame.symm.trans h') h
  · have hpanic : s.accepting e = some ModeType.panicMode.toByte := haccept.trans (congrArg some h')
    cases e with
    | droneReceive now => exact hpanic
    | joystick | keyboard | pcReceive | resend | control | timer | terminate | loseToDrone
    | loseToPc => cases hpanic
  · exact absurd (ModeType.toByte_inj.1 (hsafe.symm.trans h')) (by decide)
  · exact hterm
  · exact hfail

/-- The PC sends nothing on such an event. -/
theorem BeginsPanic.modesToDrone_next {s : Joint} {e : JointEvent} (h : s.BeginsPanic e) :
    (joint.next s e).modesToDrone.Sublist s.modesToDrone := by
  have hsent : s.sent e = none := by
    cases e with
    | control | droneReceive | timer => rfl
    | joystick | keyboard | pcReceive | resend | terminate | loseToDrone | loseToPc =>
      exact absurd h.2 id
  have hsub := s.modesToDrone_next e
  rwa [hsent, Option.toList_none, List.append_nil] at hsub

/-- A frame on its way was on its way before, or is sent on the event. -/
theorem mem_toDrone_next {s : Joint} {e : JointEvent} {f : Frame}
    (hf : f ∈ (joint.next s e).toDrone) :
    f ∈ s.toDrone ∨ (∀ m ∈ f.msg.mode?, s.sent e = some m) ∧ f.key = s.keyOf e := by
  have hblock {t : Joint} {pe : PcEvent} {key : Option ℕ} (h : f ∈ (t.pcBlock pe key).toDrone) :
      f ∈ t.toDrone ∨ (∀ m ∈ f.msg.mode?, t.pc.sent pe = some m) ∧ f.key = key := by
    rcases List.mem_append.1 h with h | h
    · exact Or.inl h
    · obtain ⟨msg, hmsg, rfl⟩ := List.mem_map.1 h
      refine Or.inr ⟨fun m hm => ?_, rfl⟩
      have hmem : m ∈ sentModes (pcLoop.out t.pc pe) := List.mem_filterMap.2 ⟨msg, hmsg, hm⟩
      rwa [Pc.sentModes_out, Option.mem_toList] at hmem
  change f ∈ (s.move e).toDrone at hf
  cases e with
  | joystick | keyboard | resend => exact hblock hf
  | pcReceive =>
    simp only [move] at hf
    split at hf
    · exact Or.inl hf
    · exact (hblock hf).imp_right fun h => ⟨h.1, h.2⟩
  | droneReceive now =>
    cases hlink : s.toDrone with
    | nil =>
      simp only [move, hlink] at hf
      simp at hf
    | cons g toDrone =>
      simp only [move, hlink] at hf
      exact Or.inl (List.mem_cons_of_mem g hf)
  | loseToDrone i => exact Or.inl ((List.eraseIdx_sublist _ _).subset hf)
  | terminate =>
    simp only [move] at hf
    split_ifs at hf <;> exact Or.inl hf
  | control | timer | loseToPc => exact Or.inl hf

/-- The record of the panic is older than the next step, and no frame on its way can undo
the panic. -/
structure Kept (s : Joint) : Prop where
  began : s.InPanic → s.panicBegan < s.clock
  newer : s.InPanic → ∀ f ∈ s.toDrone, f.Newer s.panicBegan

theorem clock_next (s : Joint) (e : JointEvent) : (joint.next s e).clock = s.clock + 1 :=
  rfl

theorem panicBegan_next (s : Joint) (e : JointEvent) : (joint.next s e).panicBegan =
    if (joint.next s e).InPanic ∧ ¬s.InPanic then s.clock else s.panicBegan :=
  rfl

theorem panicBegan_of_inPanic {s : Joint} (h : s.InPanic) (e : JointEvent) :
    (joint.next s e).panicBegan = s.panicBegan := by
  rw [panicBegan_next, if_neg fun hnew => hnew.2 h]

theorem panicBegan_of_begins {s : Joint} (h : ¬s.InPanic) {e : JointEvent}
    (h' : (joint.next s e).InPanic) : (joint.next s e).panicBegan = s.clock := by
  rw [panicBegan_next, if_pos ⟨h', h⟩]

/-- What the PC sends during a panic can undo it only if a key was pressed since. -/
theorem newer_of_sent {s : Joint} (hk : s.Kept) (h : s.InPanic) {e : JointEvent}
    (he : s.ResendsNewer e) {m : UInt8} (hm : s.sent e = some m) :
    m = ModeType.panicMode ∨ ∃ k ∈ s.keyOf e, s.panicBegan < k := by
  cases e with
  | joystick now events =>
    simp only [sent, Pc.sent] at hm
    split_ifs at hm
    exact Or.inl (Option.some.inj hm).symm
  | keyboard now c => exact Or.inr ⟨s.clock, rfl, hk.began h⟩
  | resend now => exact he h m hm
  | pcReceive | control | droneReceive | timer | terminate | loseToDrone | loseToPc => cases hm

theorem Kept.next {s : Joint} (hk : s.Kept) {e : JointEvent} (he : s.RespectsPanic e) :
    (joint.next s e).Kept := by
  by_cases h : s.InPanic
  · refine ⟨fun _ => ?_, fun _ f hf m hm => ?_⟩
    · rw [panicBegan_of_inPanic h, clock_next]
      exact Nat.lt_succ_of_lt (hk.began h)
    · rw [panicBegan_of_inPanic h]
      rcases mem_toDrone_next hf with hold | ⟨hsent, hkey⟩
      · exact hk.newer h f hold m hm
      · rw [hkey]
        exact newer_of_sent hk h he.2 (hsent m hm)
  · refine ⟨fun h' => ?_, fun h' f hf m hm => Or.inl ?_⟩
    · rw [panicBegan_of_begins h h', clock_next]
      exact Nat.lt_succ_self _
    · have hbegins := beginsPanic_of_next h h'
      have hmem : m ∈ (joint.next s e).modesToDrone :=
        List.mem_filterMap.2 ⟨f.msg, List.mem_map_of_mem hf, hm⟩
      exact he.1 hbegins m (hbegins.modesToDrone_next.subset hmem)

/-- The frame whose mode is accepted is the first on its way. -/
theorem Kept.newer_of_accepting {s : Joint} (hk : s.Kept) (h : s.InPanic) {e : JointEvent}
    {m : UInt8} (hm : s.accepting e = some m) (hne : m ≠ ModeType.panicMode) :
    ∃ k ∈ s.toDrone.head?.bind Frame.key, s.panicBegan < k := by
  obtain ⟨now, f, toDrone, rfl, hlink, hmode⟩ := exists_received_of_accepting hm
  rw [hlink]
  exact (hk.newer h f (hlink ▸ List.mem_cons_self) m hmode).resolve_left hne

end Joint

/-- The event is a tick of the control loop. -/
def LossyEvent.isControl : LossyEvent → Bool
  | .control _ _ => true
  | _ => false

namespace Lossy

/-- The key press that the frame of which a byte is read on the event is counted to. -/
def receivedKey (s : Lossy) : LossyEvent → Option ℕ
  | .char _ => s.toDrone.items.head?.bind Frame.key
  | _ => none

/-- If the event ends a panic, then it is the end of the ramp with the rotors stopped, or
a `SET_MODE` whose key was pressed after the panic began. -/
def LeavesPanic (s : Lossy) (e : LossyEvent) : Prop :=
  s.InPanic → ¬(lossy.next s e).InPanic →
    (e.isControl = true ∧ (lossy.next s e).main.drone.currentMode = ModeType.safeMode ∧
        ∀ i, (lossy.next s e).main.drone.ae i = 0) ∨
      (s.accepting e).isSome = true ∧ ∃ k ∈ s.receivedKey e, s.panicBegan < k

instance (s : Lossy) (e : LossyEvent) : Decidable (s.LeavesPanic e) :=
  inferInstanceAs (Decidable (_ → _ → _ ∧ _ ∧ (∀ _, _) ∨ _ ∧ ∃ k ∈ s.receivedKey e, _))

theorem leaves_panic {s : Lossy} (hs : s.Midway) (hk : s.joint.Kept) {e : LossyEvent}
    (he : s.Clean e) : s.LeavesPanic e := by
  intro h hnot
  rcases next_currentMode_cases hs he with hsame | haccept |
    ⟨⟨wait, sensors, rfl⟩, -, hsafe, hae⟩ | hpanic
  · exact absurd (hsame.trans h) hnot
  · refine Or.inr ⟨by rw [haccept]; rfl, ?_⟩
    have hkey : s.receivedKey e = s.toDrone.items.head?.bind Frame.key := by
      cases e with
      | char => rfl
      | joystick | keyboard | serial | resend | control | timer | terminate | loseToDrone
      | loseToPc => cases haccept
    rw [accepting_eq hs] at haccept
    obtain ⟨e', -, hm⟩ := Option.bind_eq_some_iff.1 haccept
    rw [hkey]
    exact hk.newer_of_accepting h hm hnot
  · exact Or.inl ⟨rfl, hsafe, hae⟩
  · exact absurd hpanic hnot

/-- In a run in which each frame arrives as its message or not at all, no panic begins with an
older request on its way, and no older request is sent again during one, the drone leaves
`PANIC_MODE` only at the end of the ramp or for a key that was pressed after the panic
began. -/
theorem leavesPanic (now tMessageExpect : Timespec) (sendBuffer receiveBuffer : Message)
    (time : ℕ) (es : List LossyEvent)
    (hclean : lossy.Along Clean (start now tMessageExpect sendBuffer receiveBuffer time) es)
    (hes : lossy.Along (Each Joint.RespectsPanic)
      (start now tMessageExpect sendBuffer receiveBuffer time) es) :
    lossy.Along LeavesPanic (start now tMessageExpect sendBuffer receiveBuffer time) es := by
  have hstart : (start now tMessageExpect sendBuffer receiveBuffer time).joint.Kept := by
    have hnot : ¬(start now tMessageExpect sendBuffer receiveBuffer time).joint.InPanic := fun h =>
      absurd (ModeType.toByte_inj (m := .safeMode).1 h) (by decide)
    exact ⟨fun h => absurd h hnot, fun h => absurd h hnot⟩
  have hstep (s : Lossy) (e : LossyEvent) (hs : s.Midway ∧ s.joint.Kept)
      (he : s.Clean e ∧ s.Each Joint.RespectsPanic e) :
      ((lossy.next s e).Midway ∧ (lossy.next s e).joint.Kept) ∧ s.LeavesPanic e := by
    refine ⟨invariant_next (fun t clock _ _ h hle => ?_) hs.1 he.1 hs.2 fun e' he' =>
      hs.2.next (he.2 e' he'), leaves_panic hs.1 hs.2 he.1⟩
    exact ⟨fun hin => (h.began hin).trans_le hle, h.newer⟩
  exact lossy.along_of_invariant hstep ⟨midway_start _ _ _ _ _, hstart⟩
    ((lossy.along_and _ _ _ _).2 ⟨hclean, hes⟩)

/-- A low battery starts a panic, and the operator asks for `SAFE_MODE`. -/
theorem leavesPanic_key :
    lossy.Along LeavesPanic powerUp
      (.timer 0 0 :: .joystick ⟨1, 0⟩ [] :: chars 9 ++ .keyboard ⟨1, 0⟩ 0x30 :: chars 6) :=
  leavesPanic _ _ _ _ _ _ (clean_of_plain (by decide +kernel)) (by decide +kernel)

/-- The confirmation of `YAW_CONTROL_MODE` is lost, a low battery starts a panic, and the
resend takes the drone back. -/
theorem not_leavesPanic :
    ¬∀ (now tMessageExpect : Timespec) (sendBuffer receiveBuffer : Message) (time : ℕ)
      (es : List LossyEvent),
      lossy.Along LeavesPanic (start now tMessageExpect sendBuffer receiveBuffer time) es := by
  intro h
  let es : List LossyEvent :=
    .joystick ⟨1, 0⟩ [⟨32767, 0x02, 3⟩] :: chars 9 ++ .keyboard ⟨1, 0⟩ 0x34 :: chars 6 ++
      [.loseToPc 0, .timer 0 0, .resend ⟨2, 0⟩] ++ chars 6
  have hbad : ¬lossy.Along LeavesPanic powerUp es := by decide +kernel
  exact hbad (h _ _ _ _ _ es)

end Lossy

end Quadrupel
