import Quadrupel.Agreement

/-!
# A mode that is sent is confirmed

Whatever happened before, a `SET_MODE` that the PC sends in a clean run settles the mode, if
from then on no frame is lost or refused and nothing else is requested (`confirmed_of_sent`) :
once the drone has accepted as many messages as were on their way to it, and after that the
PC as many as were on their way back, the drone has accepted the mode, the PC takes it for
confirmed, and no resend is due. So one resend that arrives, and whose reply does, undoes
every loss. `Behind f m n l` says that among the first `n` elements of a queue there is one
that `f` reads as `m`, and behind it nothing else.

The blocks may run in any order, and either loop may add frames of its own. A step that is
not a delivery only adds frames behind those on the links (`quiet_cases`), and the modes
that the PC adds are the one requested.
-/

namespace Quadrupel

/-! ## What is behind in a queue -/

/-- One of the first `n` elements reads as `m`, and those behind it as `m` or as nothing. -/
def Behind {α β : Type*} (f : α → Option β) (m : β) (n : ℕ) (l : List α) : Prop :=
  ∃ as a bs, l = as ++ a :: bs ∧ as.length < n ∧ f a = some m ∧ ∀ x ∈ bs.filterMap f, x = m

/-- All readings are `m` iff the first is, if there is one, and those behind it are. -/
theorem forall_filterMap_cons {α β : Type*} {f : α → Option β} {m : β} {a : α} {l : List α} :
    (∀ x ∈ (a :: l).filterMap f, x = m) ↔ (∀ x ∈ f a, x = m) ∧ ∀ x ∈ l.filterMap f, x = m := by
  cases h : f a with
  | none => simp [List.filterMap_cons_none h]
  | some b => simp [List.filterMap_cons_some h]

namespace Behind

variable {α β : Type*} {f : α → Option β} {m : β}

theorem append {n : ℕ} {l l' : List α} (h : Behind f m n l) (h' : ∀ x ∈ l'.filterMap f, x = m) :
    Behind f m n (l ++ l') := by
  obtain ⟨as, a, bs, rfl, hlt, ha, hbs⟩ := h
  refine ⟨as, a, bs ++ l', by rw [List.append_assoc, List.cons_append], hlt, ha, fun x hx => ?_⟩
  rw [List.filterMap_append, List.mem_append] at hx
  exact hx.elim (hbs x) (h' x)

/-- The first element is the one, and behind it there is only `m`, or it is now nearer. -/
theorem pop {n : ℕ} {a : α} {l : List α} (h : Behind f m n (a :: l)) :
    (f a = some m ∧ ∀ x ∈ l.filterMap f, x = m) ∨ Behind f m (n - 1) l := by
  obtain ⟨as, a', bs, heq, hlt, ha, hbs⟩ := h
  cases as with
  | nil =>
    obtain ⟨rfl, rfl⟩ := List.cons.inj heq
    exact Or.inl ⟨ha, hbs⟩
  | cons b as =>
    obtain ⟨rfl, rfl⟩ := List.cons.inj heq
    rw [List.length_cons] at hlt
    exact Or.inr ⟨as, a', bs, rfl, by omega, ha, hbs⟩

/-- The queue whose last reading is `m`. -/
theorem of_filterMap {l : List α} {ms : List β} (h : l.filterMap f = ms ++ [m]) :
    Behind f m l.length l := by
  obtain ⟨l₁, l₂, rfl, -, h₂⟩ := List.filterMap_eq_append_iff.1 h
  obtain ⟨as, a, bs, rfl, -, ha, hbs⟩ := List.filterMap_eq_cons_iff.1 h₂
  refine ⟨l₁ ++ as, a, bs, (List.append_assoc _ _ _).symm, ?_, ha, ?_⟩
  · simp only [List.length_append, List.length_cons]
    omega
  · rw [hbs]
    exact fun x hx => absurd hx List.not_mem_nil

theorem ne_nil {n : ℕ} {l : List α} (h : Behind f m n l) : l ≠ [] := by
  obtain ⟨as, a, bs, rfl, -⟩ := h
  simp

theorem length_le {n : ℕ} {l : List α} (h : Behind f m n l) : Behind f m l.length l := by
  obtain ⟨as, a, bs, rfl, -, ha, hbs⟩ := h
  exact ⟨as, a, bs, rfl, by simp, ha, hbs⟩

theorem not_zero {l : List α} : ¬Behind f m 0 l :=
  fun ⟨_, _, _, _, hlt, _⟩ => absurd hlt (Nat.not_lt_zero _)

end Behind

/-! ## Quiet steps -/

namespace JointEvent

/-- The drone reads a frame. -/
def isDroneReceive : JointEvent → Bool
  | .droneReceive _ => true
  | _ => false

/-- The PC reads a frame. -/
def isPcReceive : JointEvent → Bool
  | .pcReceive => true
  | _ => false

/-- A frame is lost. -/
def loses : JointEvent → Bool
  | .loseToDrone _ | .loseToPc _ => true
  | _ => false

end JointEvent

/-- The mode that the frame asks for. -/
def Frame.mode? (f : Frame) : Option UInt8 :=
  f.msg.mode?

/-- The mode that the PC stores on a message, if any. -/
theorem Pc.updatedMode_received_eq (m : Msg) (stale : Message) :
    (m.received stale).updatedMode = m.update?.filter (· < 0x0F) := by
  unfold Message.updatedMode handleMessage
  rw [m.messageType_received, MsgType.ofByte?_toByte]
  cases m with
  | modeUpdate x =>
    have hdata : (Msg.received (.modeUpdate x) stale).data 0 = x :=
      (Msg.modeUpdate x).data_received stale (i := 0) (by simp [Msg.data])
    by_cases h : x < 0x0F <;> simp [Msg.messageType, hdata, Msg.update?, Option.filter, h]
  | setMode | inputData | setPValues | pValuesUpdate | calibrationData | terminate => rfl

theorem Pc.next_demoDone {p : Pc} {e : PcEvent} (h : p.demoDone = true) :
    (pcLoop.next p e).demoDone = true := by
  cases e with
  | joystick | keyboard | receive => simp [pcLoop, runBlock, h]
  | resend now =>
    simp only [pcLoop, runBlock, resend]
    split_ifs
    · obtain ⟨axisOffsets, sendBuffer, hframe⟩ := selectMessage_frame (p.modeRequested + 0x30) p
      simpa only [hframe] using h
    · exact h

namespace Joint

/-- The event loses no frame and requests no mode. -/
def Quiet (s : Joint) (e : JointEvent) : Prop :=
  s.requests e = none ∧ e.loses = false

instance (s : Joint) (e : JointEvent) : Decidable (s.Quiet e) :=
  inferInstanceAs (Decidable (_ ∧ _))

/-- Frames are added behind those on the links, with no mode but the one requested. -/
structure Grown (s s' : Joint) : Prop where
  toDrone : ∃ fs, s'.toDrone = s.toDrone ++ fs ∧
    ∀ x ∈ fs.filterMap Frame.mode?, x = s.pc.modeRequested
  toPc : ∃ ms, s'.toPc = s.toPc ++ ms ∧ ms.filterMap Msg.update? = []
  received : s'.pc.modeReceived = s.pc.modeReceived
  accepted : s'.accepted = s.accepted

/-- The PC reads a frame, and stores the mode that it confirms while its loop reads any. -/
structure Confirmed (s s' : Joint) (m : Msg) : Prop where
  toDrone : s'.toDrone = s.toDrone
  toPc : s.toPc = m :: s'.toPc
  received : s.pc.demoDone = false →
    s'.pc.modeReceived = (m.update?.filter (· < 0x0F)).getD s.pc.modeReceived
  accepted : s'.accepted = s.accepted

/-- The drone reads a frame, and accepts and confirms the mode that it asks for. -/
structure Served (s s' : Joint) (f : Frame) : Prop where
  toDrone : s.toDrone = f :: s'.toDrone
  toPc : ∃ ms, s'.toPc = s.toPc ++ ms ∧ ms.filterMap Msg.update? = f.mode?.toList
  received : s'.pc.modeReceived = s.pc.modeReceived
  accepted : s'.accepted = f.mode?.getD s.accepted

theorem Grown.same {s s' : Joint} (hdrone : s'.toDrone = s.toDrone) (hpc : s'.toPc = s.toPc)
    (hreceived : s'.pc.modeReceived = s.pc.modeReceived) (haccepted : s'.accepted = s.accepted) :
    Grown s s' :=
  ⟨⟨[], by rw [hdrone, List.append_nil], by simp⟩, ⟨[], by rw [hpc, List.append_nil], rfl⟩,
    hreceived, haccepted⟩

theorem grown_pcBlock {s : Joint} (hs : s.pc.modeRequested < 0x0F) {e : PcEvent}
    (he : ∀ receiveBuffer, e ≠ .receive receiveBuffer) (hnone : s.pc.requested e = none)
    (key : Option ℕ) : Grown s (s.pcBlock e key) := by
  refine ⟨⟨_, rfl, fun x hx => ?_⟩, ⟨[], (List.append_nil _).symm, rfl⟩, ?_, rfl⟩
  · have hmodes : (((pcLoop.out s.pc e).map fun msg => (⟨msg, key⟩ : Frame)).filterMap
        Frame.mode?) = (s.pc.sent e).toList := by
      rw [← Pc.sentModes_out, sentModes, List.filterMap_map]
      rfl
    rw [hmodes, Option.mem_toList] at hx
    rcases Pc.sent_cases hs hx with hreq | ⟨-, hreq⟩
    · rw [hnone] at hreq
      cases hreq
    · exact hreq
  · rcases s.pc.next_modeReceived e with h | ⟨buffer, m, rfl, -, -⟩
    · exact h
    · exact absurd rfl (he buffer)

theorem confirmed_pcReceive {s : Joint} {m : Msg} {toPc : List Msg} (h : s.toPc = m :: toPc) :
    Confirmed s (s.move .pcReceive) m := by
  simp only [move, h]
  refine ⟨?_, h, fun hdone => ?_, rfl⟩
  · have hsilent (buffer : Message) : pcLoop.out s.pc (.receive buffer) = [] := by
      simp only [pcLoop, Pc.runBlock]
      split_ifs <;> rfl
    simp only [pcBlock, hsilent, List.map_nil, List.append_nil]
  · simp only [pcBlock, pcLoop, Pc.runBlock, hdone, if_neg Bool.false_ne_true]
    rw [(Pc.acceptMessage_spec _ _).2, Pc.updatedMode_received_eq]

theorem served_droneReceive {s : Joint} {f : Frame} {toDrone : List Frame}
    (h : s.toDrone = f :: toDrone) (now : UInt32) :
    Served s (s.move (.droneReceive now)) f := by
  have hreplies := Drone.acceptMessage_received_replies f.msg s.droneBuffer now s.drone
  simp only [move, h, droneBlock, droneLoop]
  exact ⟨h, ⟨_, rfl, hreplies⟩, rfl, rfl⟩

/-- A quiet step adds frames, or a link that is not empty delivers one. -/
theorem quiet_cases {s : Joint} (hs : s.pc.modeRequested < 0x0F) {e : JointEvent}
    (h : s.Quiet e) :
    (Grown s (joint.next s e) ∧ (e.isDroneReceive = true → s.toDrone = []) ∧
        (e.isPcReceive = true → s.toPc = [])) ∨
      (e.isDroneReceive = false ∧ e.isPcReceive = true ∧ ∃ m, Confirmed s (joint.next s e) m) ∨
      (e.isDroneReceive = true ∧ e.isPcReceive = false ∧ ∃ f, Served s (joint.next s e) f) := by
  have hmove {t : Joint} (hgrown : Grown s t) (c b : ℕ) :
      Grown s { t with clock := c, panicBegan := b } := ⟨hgrown.1, hgrown.2, hgrown.3, hgrown.4⟩
  have hnot {P : Prop} (hfalse : false = true) : P := absurd hfalse Bool.false_ne_true
  cases e with
  | joystick now events =>
    have hgrown := grown_pcBlock (e := .joystick now events) hs (by simp) h.1 none
    exact Or.inl ⟨hmove hgrown _ _, hnot, hnot⟩
  | keyboard now c =>
    have hgrown := grown_pcBlock (e := .keyboard now c) hs (by simp) h.1 (some s.clock)
    exact Or.inl ⟨hmove hgrown _ _, hnot, hnot⟩
  | resend now =>
    have hgrown := grown_pcBlock (e := .resend now) hs (by simp) rfl s.requestKey
    exact Or.inl ⟨hmove hgrown _ _, hnot, hnot⟩
  | pcReceive =>
    cases hlink : s.toPc with
    | nil =>
      have hsame : s.move .pcReceive = s := by simp only [move, hlink]
      refine Or.inl ⟨hmove ?_ _ _, hnot, fun _ => rfl⟩
      rw [hsame]
      exact .same rfl rfl rfl rfl
    | cons m toPc =>
      obtain ⟨h₁, h₂, h₃, h₄⟩ := confirmed_pcReceive hlink
      exact Or.inr (Or.inl ⟨rfl, rfl, m, h₁, h₂, h₃, h₄⟩)
  | droneReceive now =>
    cases hlink : s.toDrone with
    | nil =>
      have hsame : s.move (.droneReceive now) = s := by simp only [move, hlink]
      refine Or.inl ⟨hmove ?_ _ _, fun _ => rfl, hnot⟩
      rw [hsame]
      exact .same rfl rfl rfl rfl
    | cons f toDrone =>
      obtain ⟨h₁, h₂, h₃, h₄⟩ := served_droneReceive hlink now
      exact Or.inr (Or.inr ⟨rfl, rfl, f, h₁, h₂, h₃, h₄⟩)
  | control sensors =>
    refine Or.inl ⟨hmove (t := s.move (.control sensors)) ?_ _ _, hnot, hnot⟩
    exact ⟨⟨[], (List.append_nil _).symm, by simp⟩,
      ⟨_, rfl, Drone.controlTick_replies sensors s.drone⟩, rfl, rfl⟩
  | timer batVolt now =>
    refine Or.inl ⟨hmove (t := s.move (.timer batVolt now)) ?_ _ _, hnot, hnot⟩
    exact ⟨⟨[], (List.append_nil _).symm, by simp⟩, ⟨[], rfl, rfl⟩, rfl, rfl⟩
  | terminate =>
    refine Or.inl ⟨hmove (t := s.move .terminate) ?_ _ _, hnot, hnot⟩
    simp only [move]
    split_ifs
    · exact ⟨⟨[], (List.append_nil _).symm, by simp⟩, ⟨[.terminate], rfl, rfl⟩, rfl, rfl⟩
    · exact .same rfl rfl rfl rfl
  | loseToDrone | loseToPc => exact absurd h.2.symm Bool.false_ne_true

/-! ## The way there and back -/

/-- The mode `m` is the one requested, and the PC may store it. -/
structure Requesting (s : Joint) (m : UInt8) : Prop where
  requested : s.pc.modeRequested = m
  lt : m < 0x0F

theorem Requesting.next {s : Joint} {m : UInt8} (h : s.Requesting m) {e : JointEvent}
    (he : s.Quiet e) : (joint.next s e).Requesting m := by
  refine ⟨?_, h.lt⟩
  rw [next_modeRequested, he.1]
  exact h.requested

/-- The drone has accepted `m`, and no other mode is on its way to it. -/
structure AtDrone (s : Joint) (m : UInt8) : Prop where
  accepted : s.accepted = m
  toDrone : ∀ x ∈ s.toDrone.filterMap Frame.mode?, x = m

/-- The PC takes `m` for confirmed, and no other mode is on its way to it. -/
structure AtPc (s : Joint) (m : UInt8) : Prop where
  received : s.pc.modeReceived = m
  toPc : ∀ x ∈ s.toPc.filterMap Msg.update?, x = m

/-- One of the next `n` frames for the PC confirms `m`, or it reads no more, or it takes `m`
for confirmed. -/
def Returning (s : Joint) (m : UInt8) (n : ℕ) : Prop :=
  Behind Msg.update? m n s.toPc ∨ s.pc.demoDone = true ∨ s.AtPc m

/-- The drone has accepted `m`, and the confirmation returns. -/
structure Answered (m : UInt8) (n : ℕ) (s : Joint) : Prop where
  requesting : s.Requesting m
  atDrone : s.AtDrone m
  returning : s.Returning m n

/-- One of the next `n` frames for the drone asks for `m`, or the drone has answered. -/
structure Asked (m : UInt8) (n : ℕ) (s : Joint) : Prop where
  requesting : s.Requesting m
  asked : Behind Frame.mode? m n s.toDrone ∨ s.AtDrone m ∧ ∃ k, s.Returning m k

theorem AtDrone.next {s : Joint} {m : UInt8} (h : s.AtDrone m) (hreq : s.Requesting m)
    {e : JointEvent} (he : s.Quiet e) : (joint.next s e).AtDrone m := by
  rcases quiet_cases (hreq.requested ▸ hreq.lt) he with
    ⟨⟨⟨fs, hfs, hmodes⟩, -, -, haccepted⟩, -⟩ | ⟨-, -, _, hdrone, -, -, haccepted⟩ |
      ⟨-, -, f, hdrone, -, -, haccepted⟩
  · refine ⟨haccepted.trans h.accepted, fun x hx => ?_⟩
    rw [hfs, List.filterMap_append, List.mem_append] at hx
    exact hx.elim (h.toDrone x) fun hx => (hmodes x hx).trans hreq.requested
  · exact ⟨haccepted.trans h.accepted, hdrone ▸ h.toDrone⟩
  · obtain ⟨hfirst, hrest⟩ := forall_filterMap_cons.1 (hdrone ▸ h.toDrone)
    refine ⟨?_, hrest⟩
    rw [haccepted]
    cases hm : f.mode? with
    | none => exact h.accepted
    | some x => exact hfirst x hm

theorem next_demoDone {s : Joint} (h : s.pc.demoDone = true) (e : JointEvent) :
    (joint.next s e).pc.demoDone = true := by
  change (s.move e).pc.demoDone = true
  cases e with
  | joystick | keyboard | resend => exact Pc.next_demoDone h
  | pcReceive =>
    simp only [move]
    split
    · exact h
    · exact Pc.next_demoDone h
  | droneReceive =>
    simp only [move]
    split <;> exact h
  | terminate =>
    simp only [move]
    split_ifs <;> exact h
  | control | timer | loseToDrone | loseToPc => exact h

/-- Frames that confirm nothing but `m` do not delay the confirmation. -/
theorem Returning.append {s s' : Joint} {m : UInt8} {n : ℕ} (h : s.Returning m n) {e : JointEvent}
    (hs' : s' = joint.next s e) {ms : List Msg} (hpc : s'.toPc = s.toPc ++ ms)
    (hms : ∀ x ∈ ms.filterMap Msg.update?, x = m)
    (hreceived : s'.pc.modeReceived = s.pc.modeReceived) : s'.Returning m n := by
  rcases h with hbehind | hdone | ⟨hstored, hall⟩
  · exact Or.inl (hpc ▸ hbehind.append hms)
  · exact Or.inr (Or.inl (hs' ▸ next_demoDone hdone e))
  · refine Or.inr (Or.inr ⟨hreceived.trans hstored, fun x hx => ?_⟩)
    rw [hpc, List.filterMap_append, List.mem_append] at hx
    exact hx.elim (hall x) (hms x)

theorem Returning.next {s : Joint} {m : UInt8} {n : ℕ} (h : s.Returning m n)
    (hdrone : s.AtDrone m) (hreq : s.Requesting m) {e : JointEvent} (he : s.Quiet e) :
    (joint.next s e).Returning m (if e.isPcReceive then n - 1 else n) := by
  rcases quiet_cases (hreq.requested ▸ hreq.lt) he with
    ⟨⟨-, ⟨ms, hpc, hms⟩, hreceived, -⟩, -, hempty⟩ | ⟨-, hpop, m', -, hpc, hstored, -⟩ |
      ⟨-, hpop, f, hlink, ⟨ms, hpc, hms⟩, hreceived, -⟩
  · have hgrown (k : ℕ) (hk : s.Returning m k) : (joint.next s e).Returning m k :=
      hk.append rfl hpc (by simp [hms]) hreceived
    split_ifs with hreceive
    · -- Nothing is there to be read, so nothing is on its way.
      refine hgrown (n - 1) (h.imp_left fun hbehind => ?_)
      exact absurd (hempty hreceive) hbehind.ne_nil
    · exact hgrown n h
  · rw [if_pos hpop]
    have hread (hfirst : ∀ x ∈ m'.update?, x = m) (hsome : m'.update? = some m ∨
        s.pc.modeReceived = m) (hdone : s.pc.demoDone = false) :
        (joint.next s e).pc.modeReceived = m := by
      rw [hstored hdone]
      cases hm : m'.update? with
      | none =>
        rw [hm] at hsome
        exact hsome.resolve_left nofun
      | some x =>
        obtain rfl := hfirst x hm
        simp [Option.filter, hreq.lt]
    cases hdone : s.pc.demoDone with
    | true => exact Or.inr (Or.inl (next_demoDone hdone e))
    | false =>
      rcases h with hbehind | hdone' | ⟨hsame, hall⟩
      · rcases (hpc ▸ hbehind).pop with ⟨hm, hall⟩ | hnearer
        · exact Or.inr (Or.inr ⟨hread (by simp [hm]) (Or.inl hm) hdone, hall⟩)
        · exact Or.inl hnearer
      · exact absurd (hdone'.symm.trans hdone) nofun
      · obtain ⟨hfirst, hrest⟩ := forall_filterMap_cons.1 (hpc ▸ hall)
        exact Or.inr (Or.inr ⟨hread hfirst (Or.inr hsame) hdone, hrest⟩)
  · rw [hpop, if_neg Bool.false_ne_true]
    obtain ⟨hfirst, -⟩ := forall_filterMap_cons.1 (hlink ▸ hdrone.toDrone)
    refine h.append rfl hpc (fun x hx => hfirst x ?_) hreceived
    rwa [hms, Option.mem_toList] at hx

theorem Answered.next {s : Joint} {m : UInt8} {n : ℕ} (h : Answered m n s) {e : JointEvent}
    (he : s.Quiet e) : Answered m (if e.isPcReceive then n - 1 else n) (joint.next s e) :=
  ⟨h.requesting.next he, h.atDrone.next h.requesting he,
    h.returning.next h.atDrone h.requesting he⟩

theorem Asked.next {s : Joint} {m : UInt8} {n : ℕ} (h : Asked m n s) {e : JointEvent}
    (he : s.Quiet e) : Asked m (if e.isDroneReceive then n - 1 else n) (joint.next s e) := by
  refine ⟨h.requesting.next he, ?_⟩
  rcases h.asked with hbehind | ⟨hdrone, k, hreturn⟩
  · rcases quiet_cases (h.requesting.requested ▸ h.requesting.lt) he with
      ⟨⟨⟨fs, hfs, hmodes⟩, -, -, -⟩, hempty, -⟩ | ⟨hpop, -, m', hsame, -, -, -⟩ |
        ⟨hpop, -, f, hlink, ⟨ms, hpc, hms⟩, -, haccepted⟩
    · have hdelivers : e.isDroneReceive = false :=
        Bool.eq_false_iff.2 fun hreceive => hbehind.ne_nil (hempty hreceive)
      rw [hdelivers, if_neg Bool.false_ne_true, hfs]
      exact Or.inl (hbehind.append fun x hx => (hmodes x hx).trans h.requesting.requested)
    · rw [hpop, if_neg Bool.false_ne_true, hsame]
      exact Or.inl hbehind
    · rw [if_pos hpop]
      rcases (hlink ▸ hbehind).pop with ⟨hm, hall⟩ | hnearer
      · rw [hm] at haccepted hms
        have hlast : (joint.next s e).toPc.filterMap Msg.update? =
            s.toPc.filterMap Msg.update? ++ [m] := by
          rw [hpc, List.filterMap_append, hms]
          rfl
        exact Or.inr ⟨⟨haccepted, hall⟩, _, Or.inl (Behind.of_filterMap hlast)⟩
      · exact Or.inl hnearer
  · exact Or.inr ⟨hdrone.next h.requesting he, _, hreturn.next hdrone h.requesting he⟩

/-- The frame that asks for the mode is the last on its way that asks for one. -/
theorem asked_of_sent {s : Joint} (hs : s.pc.modeRequested < 0x0F) {e : JointEvent} {m : UInt8}
    (h : s.sent e = some m) :
    Asked m (joint.next s e).toDrone.length (joint.next s e) := by
  have hblock (pe : PcEvent) (key : Option ℕ) (hsent : s.pc.sent pe = some m) (c b : ℕ) :
      Asked m (s.pcBlock pe key).toDrone.length
        { s.pcBlock pe key with clock := c, panicBegan := b } := by
    have hmodes := s.modesToDrone_pcBlock pe key
    rw [hsent, modesToDrone, sentModes, List.filterMap_map] at hmodes
    refine ⟨?_, Or.inl (Behind.of_filterMap hmodes)⟩
    rcases Pc.sent_cases hs hsent with hreq | ⟨⟨now, rfl⟩, rfl⟩
    · refine ⟨?_, Pc.requested_lt hreq⟩
      exact (Pc.next_modeRequested s.pc pe).trans (by rw [hreq, Option.getD_some])
    · exact ⟨Pc.next_modeRequested s.pc _, hs⟩
  cases e with
  | joystick now events => exact hblock (.joystick now events) none h _ _
  | keyboard now c => exact hblock (.keyboard now c) (some s.clock) h _ _
  | resend now => exact hblock (.resend now) s.requestKey h _ _
  | pcReceive | control | droneReceive | timer | terminate | loseToDrone | loseToPc => cases h

/-! ## Buffers and the clock -/

section

variable {s : Joint} {m : UInt8} {n : ℕ} (clock : ℕ) (pcBuffer droneBuffer : Message)

theorem Requesting.frame (h : s.Requesting m) :
    { s with clock, pcBuffer, droneBuffer }.Requesting m :=
  ⟨h.requested, h.lt⟩

theorem AtDrone.frame (h : s.AtDrone m) : { s with clock, pcBuffer, droneBuffer }.AtDrone m :=
  ⟨h.accepted, h.toDrone⟩

theorem Returning.frame (h : s.Returning m n) :
    { s with clock, pcBuffer, droneBuffer }.Returning m n :=
  h.imp_right (Or.imp_right fun h => ⟨h.received, h.toPc⟩)

theorem Answered.frame (h : Answered m n s) :
    Answered m n { s with clock, pcBuffer, droneBuffer } :=
  ⟨h.requesting.frame _ _ _, h.atDrone.frame _ _ _, h.returning.frame _ _ _⟩

theorem Asked.frame (h : Asked m n s) : Asked m n { s with clock, pcBuffer, droneBuffer } :=
  ⟨h.requesting.frame _ _ _, h.asked.imp_right fun ⟨hdrone, k, hreturn⟩ =>
    ⟨hdrone.frame _ _ _, k, hreturn.frame _ _ _⟩⟩

end

end Joint

namespace Lossy

/-- The drone accepts a message on the event. -/
def droneAccepts (s : Lossy) (e : LossyEvent) : Bool :=
  (s.event e).any JointEvent.isDroneReceive

/-- The PC accepts a message on the event. -/
def pcAccepts (s : Lossy) (e : LossyEvent) : Bool :=
  (s.event e).any JointEvent.isPcReceive

/-- A mode that the PC sends is one that it sends in `joint`. -/
theorem exists_sent_of_mem_sends {s : Lossy} {e : LossyEvent} {m : UInt8}
    (h : .setMode m ∈ s.sends e) : ∃ e', s.event e = some e' ∧ s.joint.sent e' = some m := by
  have hsent (pe : PcEvent) (hmem : .setMode m ∈ pcLoop.out s.terminal.pc pe) :
      s.terminal.pc.sent pe = some m := by
    rwa [← mem_sentModes, Pc.sentModes_out, Option.mem_toList] at hmem
  cases e with
  | joystick now events => exact ⟨_, rfl, hsent (.joystick now events) h⟩
  | keyboard now c => exact ⟨_, rfl, hsent (.keyboard now c) h⟩
  | resend now => exact ⟨_, rfl, hsent (.resend now) h⟩
  | serial | control | char | timer | terminate | loseToDrone | loseToPc =>
    exact absurd h List.not_mem_nil

theorem modeRequested_lt_next (s : Lossy) (e : LossyEvent)
    (h : s.Midway ∧ s.terminal.pc.modeRequested < 0x0F) (he : s.Clean e) :
    (lossy.next s e).Midway ∧ (lossy.next s e).terminal.pc.modeRequested < 0x0F :=
  invariant_next (fun t _ _ _ (ht : t.pc.modeRequested < 0x0F) _ => ht) h.1 he h.2
    fun e' _ => Joint.next_modeRequested_lt h.2 e'

/-- What a quiet event of `joint` counts down, a quiet step counts down. -/
theorem countdown_next {Inv : ℕ → Joint → Prop} {helps : JointEvent → Bool}
    (hframe : ∀ n t clock pcBuffer droneBuffer, Inv n t →
      Inv n { t with clock, pcBuffer, droneBuffer })
    (hstep : ∀ n t e', Inv n t → t.Quiet e' →
      Inv (if helps e' then n - 1 else n) (Quadrupel.joint.next t e'))
    (n : ℕ) (s : Lossy) (e : LossyEvent) (h : s.Midway ∧ Inv n s.joint)
    (he : s.Clean e ∧ s.Each Joint.Quiet e) : (lossy.next s e).Midway ∧
      Inv (if (s.event e).any helps then n - 1 else n) (lossy.next s e).joint := by
  obtain ⟨hmidway, pcBuffer, droneBuffer, hjoint⟩ := next_joint h.1 he.1
  refine ⟨hmidway, ?_⟩
  rw [hjoint]
  cases hevent : s.event e with
  | none => exact hframe n s.joint _ _ _ h.2
  | some e' => exact hframe _ _ _ _ _ (hstep n s.joint e' h.2 (he.2 e' hevent))

theorem asked_next (m : UInt8) (n : ℕ) (s : Lossy) (e : LossyEvent)
    (h : s.Midway ∧ Joint.Asked m n s.joint) (he : s.Clean e ∧ s.Each Joint.Quiet e) :
    (lossy.next s e).Midway ∧
      Joint.Asked m (if s.droneAccepts e then n - 1 else n) (lossy.next s e).joint :=
  countdown_next (fun _ _ _ _ _ h => h.frame _ _ _) (fun _ _ _ h he => h.next he) n s e h he

theorem answered_next (m : UInt8) (n : ℕ) (s : Lossy) (e : LossyEvent)
    (h : s.Midway ∧ Joint.Answered m n s.joint) (he : s.Clean e ∧ s.Each Joint.Quiet e) :
    (lossy.next s e).Midway ∧
      Joint.Answered m (if s.pcAccepts e then n - 1 else n) (lossy.next s e).joint :=
  countdown_next (fun _ _ _ _ _ h => h.frame _ _ _) (fun _ _ _ h he => h.next he) n s e h he

/-- The frame that asks for the mode is among those then on their way. -/
theorem asked_of_mem_sends {s : Lossy} (h : s.Midway)
    (hlt : s.terminal.pc.modeRequested < 0x0F) {e : LossyEvent} (he : s.Clean e) {m : UInt8}
    (hsent : .setMode m ∈ s.sends e) : (lossy.next s e).Midway ∧
      Joint.Asked m (lossy.next s e).toDrone.items.length (lossy.next s e).joint := by
  obtain ⟨hmidway, pcBuffer, droneBuffer, hjoint⟩ := next_joint h he
  obtain ⟨e', hevent, hsent'⟩ := exists_sent_of_mem_sends hsent
  have hitems : (lossy.next s e).toDrone.items =
      (Quadrupel.joint.next s.joint e').toDrone := by
    rw [hevent] at hjoint
    exact congrArg Joint.toDrone hjoint
  refine ⟨hmidway, ?_⟩
  rw [hitems, hjoint, hevent]
  exact (Joint.asked_of_sent hlt hsent').frame _ _ _

/-- The drone has accepted the mode, the PC takes it for requested and confirmed, and no
resend is due. -/
structure SettledOn (s : Lossy) (m : UInt8) : Prop where
  accepted : s.accepted = m
  requested : s.terminal.pc.modeRequested = m
  received : s.terminal.pc.modeReceived = m
  notDue : ∀ now, s.terminal.pc.overdue now = false

/-- After a mode is sent, if each frame arrives as its message or not at all, and as long as no
frame is lost or refused and nothing else is requested, it is accepted and confirmed once the
drone has accepted what was on its way to it and then the PC what was on its way back, if the
PC still reads at all. From then on no resend is due. -/
theorem confirmed_of_sent (now tMessageExpect : Timespec) (sendBuffer receiveBuffer : Message)
    (time : ℕ) (pre : List LossyEvent) (e : LossyEvent) {m : UInt8}
    (outward back : List LossyEvent)
    (hclean : lossy.Along Clean (start now tMessageExpect sendBuffer receiveBuffer time)
      (pre ++ [e] ++ (outward ++ back)))
    (hsent : .setMode m ∈
      (lossy.run (start now tMessageExpect sendBuffer receiveBuffer time) pre).sends e)
    (hquiet : lossy.Along (Each Joint.Quiet)
      (lossy.run (start now tMessageExpect sendBuffer receiveBuffer time) (pre ++ [e]))
      (outward ++ back))
    (houtward : (lossy.run (start now tMessageExpect sendBuffer receiveBuffer time)
        (pre ++ [e])).toDrone.items.length ≤
      lossy.count droneAccepts (lossy.run
        (start now tMessageExpect sendBuffer receiveBuffer time) (pre ++ [e])) outward)
    (hback : (lossy.run (start now tMessageExpect sendBuffer receiveBuffer time)
        (pre ++ [e] ++ outward)).toPc.items.length ≤
      lossy.count pcAccepts (lossy.run
        (start now tMessageExpect sendBuffer receiveBuffer time) (pre ++ [e] ++ outward)) back)
    (hreads : (lossy.run (start now tMessageExpect sendBuffer receiveBuffer time)
      (pre ++ [e] ++ outward ++ back)).terminal.pc.demoDone = false) :
    (lossy.run (start now tMessageExpect sendBuffer receiveBuffer time)
      (pre ++ [e] ++ outward ++ back)).SettledOn m := by
  set s₀ := start now tMessageExpect sendBuffer receiveBuffer time
  have hzero : (0 : UInt8) < 0x0F := by decide
  have hstart : s₀.Midway ∧ s₀.terminal.pc.modeRequested < 0x0F :=
    ⟨midway_start _ _ _ _ _, hzero⟩
  simp only [lossy.along_append, lossy.along_cons, Machine.run_append, Machine.run_cons,
    Machine.run_nil] at *
  obtain ⟨⟨hpre, he, -⟩, houtClean, hbackClean⟩ := hclean
  obtain ⟨hmidway, hlt⟩ : (lossy.run s₀ pre).Midway ∧
      (lossy.run s₀ pre).terminal.pc.modeRequested < 0x0F :=
    lossy.run_invariant modeRequested_lt_next hstart hpre
  set s₁ := lossy.next (lossy.run s₀ pre) e
  set s₂ := lossy.run s₁ outward
  obtain ⟨hmidway₂, hasked⟩ : s₂.Midway ∧ Joint.Asked m
      (s₁.toDrone.items.length - lossy.count droneAccepts s₁ outward) s₂.joint :=
    lossy.run_countdown (asked_next m)
      (asked_of_mem_sends hmidway hlt he hsent) ((lossy.along_and _ _ _ _).2 ⟨houtClean, hquiet.1⟩)
  rw [Nat.sub_eq_zero_of_le houtward] at hasked
  obtain ⟨hatDrone, k, hreturn⟩ := hasked.asked.resolve_left Behind.not_zero
  have hanswered : Joint.Answered m s₂.toPc.items.length s₂.joint :=
    ⟨hasked.requesting, hatDrone, hreturn.imp_left Behind.length_le⟩
  obtain ⟨-, hend⟩ : (lossy.run s₂ back).Midway ∧ Joint.Answered m
      (s₂.toPc.items.length - lossy.count pcAccepts s₂ back) (lossy.run s₂ back).joint :=
    lossy.run_countdown (answered_next m) ⟨hmidway₂, hanswered⟩
      ((lossy.along_and _ _ _ _).2 ⟨hbackClean, hquiet.2⟩)
  rw [Nat.sub_eq_zero_of_le hback] at hend
  obtain hdone | hatPc := hend.returning.resolve_left Behind.not_zero
  · exact absurd (hdone.symm.trans hreads) nofun
  · have hsame := hend.requesting.requested.trans hatPc.received.symm
    refine ⟨hend.atDrone.accepted, hend.requesting.requested, hatPc.received, fun now => ?_⟩
    simp [Pc.overdue, show (lossy.run s₂ back).terminal.pc.modeRequested =
      (lossy.run s₂ back).terminal.pc.modeReceived from hsame]

/-- The confirmation of a calibration is lost, and one resend settles it. -/
theorem confirmed_of_sent_resend :
    (lossy.run powerUp (.keyboard ⟨1, 0⟩ 0x33 :: chars 6 ++ [.loseToPc 0] ++ [.resend ⟨2, 0⟩] ++
      chars 6 ++ serials 6)).SettledOn ModeType.calibrationMode :=
  confirmed_of_sent _ _ _ _ _ _ _ _ _ (clean_of_plain (by decide +kernel)) (by decide +kernel)
    (by decide +kernel) (by decide +kernel) (by decide +kernel) (by decide +kernel)

end Lossy

end Quadrupel
