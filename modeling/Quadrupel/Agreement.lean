import Quadrupel.Confirm
import Quadrupel.Lossy

/-!
# Agreement on the mode

Seen from the modes alone the joint system is a client that requests values of a server
(`Joint.confirm`) : between the assignments to `mode_requested`, each of its steps is a
step of `Confirm` or none (`steps_next`). The confirmations carry no number, so in a clean
run the PC and the drone agree if each request was clear when it was made (`agreement`).
They need not otherwise : a confirmation that was still true when its request was confirmed
passes for that of a later request that never arrived (`not_agreement`).
-/

open Relation

namespace Quadrupel

namespace Joint

/-- The joint system as a client and a server. -/
def confirm (s : Joint) : Confirm UInt8 where
  requested := s.pc.modeRequested
  received := s.pc.modeReceived
  accepted := s.accepted
  toServer := s.modesToDrone
  toClient := s.updatesToPc

/-- The same with another request. -/
def requesting (s : Joint) (m : Option UInt8) : Confirm UInt8 :=
  { s.confirm with requested := m.getD s.pc.modeRequested }

/-- A block of the PC other than the receive block sends the mode that is now requested,
or no mode. -/
theorem steps_pcBlock {s : Joint} (hs : s.pc.modeRequested < 0x0F) {e : PcEvent}
    (he : ∀ receiveBuffer, e ≠ .receive receiveBuffer) (key : Option ℕ) :
    ReflTransGen Confirm.Step (s.requesting (s.pc.requested e)) (s.pcBlock e key).confirm := by
  have hreceived : (pcLoop.next s.pc e).modeReceived = s.pc.modeReceived := by
    rcases s.pc.next_modeReceived e with h | ⟨buffer, m, rfl, -, -⟩
    · exact h
    · exact absurd rfl (he buffer)
  have hconfirm : (s.pcBlock e key).confirm = { s.requesting (s.pc.requested e) with
      toServer := s.modesToDrone ++ (s.pc.sent e).toList } := by
    rw [confirm, modesToDrone_pcBlock]
    simp only [pcBlock, s.pc.next_modeRequested, hreceived]
    rfl
  rw [hconfirm]
  cases hsent : s.pc.sent e with
  | none =>
    rw [Option.toList_none, List.append_nil]
    exact .refl
  | some m =>
    have hm : (s.requesting (s.pc.requested e)).requested = m := by
      rcases Pc.sent_cases hs hsent with hreq | ⟨⟨now, rfl⟩, rfl⟩
      · simp [requesting, hreq]
      · rfl
    rw [Option.toList_some, ← hm]
    exact .single (.send _)

/-- A confirmation that arrives is received, or ignored and so lost. -/
theorem steps_pcReceive (s : Joint) :
    ReflTransGen Confirm.Step s.confirm (s.move .pcReceive).confirm := by
  cases hlink : s.toPc with
  | nil =>
    have hmove : s.move .pcReceive = s := by simp only [move, hlink]
    rw [hmove]
  | cons m toPc =>
    set buffer := m.received s.pcBuffer with hbuffer
    set t : Joint := { s with toPc := toPc, pcBuffer := buffer } with ht
    have hmove : s.move .pcReceive = t.pcBlock (.receive buffer) none := by
      simp only [move, hlink, ht, hbuffer]
    have hclient : s.updatesToPc = m.update?.toList ++ t.updatesToPc := by
      cases hm : m.update? <;> simp [updatesToPc, hlink, ht, hm]
    have hconfirm : (t.pcBlock (.receive buffer) none).confirm = { s.confirm with
        received := (pcLoop.next s.pc (.receive buffer)).modeReceived
        toClient := t.updatesToPc } := by
      rw [confirm, modesToDrone_pcBlock]
      simp only [pcBlock, t.pc.next_modeRequested, Pc.requested, Pc.sent, Option.toList_none,
        List.append_nil]
      rfl
    rw [hmove, hconfirm]
    rcases s.pc.next_modeReceived (.receive buffer) with hsame | ⟨_, mode, heq, hmode, hnew⟩
    · have hsub : t.updatesToPc.Sublist s.updatesToPc :=
        hclient ▸ List.sublist_append_right _ _
      rw [hsame]
      exact .single (.lose s.confirm s.modesToDrone t.updatesToPc (List.Sublist.refl _) hsub)
    · obtain rfl := PcEvent.receive.inj heq
      rw [hnew]
      rw [Pc.updatedMode_received hmode] at hclient
      exact .single (.confirm s.confirm mode t.updatesToPc hclient)

/-- A `SET_MODE` that arrives is accepted and confirmed. -/
theorem steps_droneReceive (s : Joint) (now : UInt32) :
    ReflTransGen Confirm.Step s.confirm (s.move (.droneReceive now)).confirm := by
  cases hlink : s.toDrone with
  | nil =>
    have hmove : s.move (.droneReceive now) = s := by simp only [move, hlink]
    rw [hmove]
  | cons f toDrone =>
    have hreplies := Drone.acceptMessage_received_replies f.msg s.droneBuffer now s.drone
    have hserver := modesToDrone_cons hlink
    have hconfirm : (s.move (.droneReceive now)).confirm = { s.confirm with
        accepted := f.msg.mode?.getD s.accepted
        toServer := sentModes (toDrone.map Frame.msg)
        toClient := s.updatesToPc ++ f.msg.mode?.toList } := by
      rw [← hreplies]
      simp [move, hlink, droneBlock, confirm, droneLoop, updatesToPc, modesToDrone]
    rw [hconfirm]
    cases hm : f.msg.mode? with
    | none =>
      rw [hm, Option.toList_none, List.nil_append] at hserver
      simp only [Option.getD_none, Option.toList_none, List.append_nil, ← hserver]
      exact .refl
    | some mode =>
      rw [hm] at hserver
      exact .single (.serve s.confirm mode _ hserver)

/-- An event is a request, if it assigns `mode_requested`, and then steps of the client,
the server and the links. -/
theorem steps_next {s : Joint} (hs : s.pc.modeRequested < 0x0F) (e : JointEvent) :
    ReflTransGen Confirm.Step (s.requesting (s.requests e)) (joint.next s e).confirm := by
  change ReflTransGen _ _ (s.move e).confirm
  cases e with
  | joystick now events => exact steps_pcBlock (e := .joystick now events) hs nofun none
  | keyboard now c => exact steps_pcBlock (e := .keyboard now c) hs nofun (some s.clock)
  | pcReceive => exact s.steps_pcReceive
  | resend now => exact steps_pcBlock (e := .resend now) hs nofun s.requestKey
  | control sensors =>
    have hconfirm : (s.move (.control sensors)).confirm = s.confirm := by
      simp [move, droneBlock, confirm, updatesToPc, droneLoop, Drone.controlTick_replies,
        modesToDrone]
    rw [hconfirm]
    exact .refl
  | droneReceive now => exact s.steps_droneReceive now
  | timer batVolt now =>
    have hconfirm : (s.move (.timer batVolt now)).confirm = s.confirm := by
      simp [move, droneBlock, confirm, updatesToPc, droneLoop, modesToDrone]
    rw [hconfirm]
    exact .refl
  | terminate =>
    have hconfirm : (s.move .terminate).confirm = s.confirm := by
      simp only [move]
      split_ifs <;> simp [confirm, updatesToPc, modesToDrone, Msg.update?]
    rw [hconfirm]
    exact .refl
  | loseToDrone i =>
    exact .single (.lose s.confirm _ _ (s.modesToDrone_eraseIdx i) (List.Sublist.refl _))
  | loseToPc i =>
    exact .single (.lose s.confirm _ _ (List.Sublist.refl _)
      ((List.eraseIdx_sublist s.toPc i).filterMap _))

/-- If the event assigns a mode to `mode_requested`, then the request is clear : a
confirmation of that mode, received last or still on its way, means that the drone has
accepted it and no other mode is on its way; and on the way to the drone it comes only
behind all other modes. -/
def ClearRequest (s : Joint) (e : JointEvent) : Prop :=
  ∀ m ∈ s.requests e, s.confirm.ClearFor m

instance (s : Joint) (e : JointEvent) : Decidable (s.ClearRequest e) :=
  inferInstanceAs (Decidable (∀ m ∈ s.requests e, s.confirm.ClearFor m))

/-- The request in force is clear. -/
structure Agreeing (s : Joint) : Prop where
  requested_lt : s.pc.modeRequested < 0x0F
  clear : s.confirm.ClearFor s.pc.modeRequested

theorem Agreeing.next {s : Joint} (h : s.Agreeing) {e : JointEvent} (he : s.ClearRequest e) :
    (joint.next s e).Agreeing := by
  refine ⟨next_modeRequested_lt h.requested_lt e, ?_⟩
  have hclear : (s.requesting (s.requests e)).ClearFor (s.requesting (s.requests e)).requested := by
    cases hreq : s.requests e with
    | none => exact h.clear
    | some m => exact (he m hreq).request
  exact hclear.steps (steps_next h.requested_lt e)

end Joint

namespace Lossy

/-- The PC will not resend and nothing is on the links. -/
structure Settled (s : Lossy) : Prop where
  toDrone : s.toDrone.items = []
  toPc : s.toPc.items = []
  confirmed : s.terminal.pc.modeRequested = s.terminal.pc.modeReceived

theorem agreeing_start (now tMessageExpect : Timespec) (sendBuffer receiveBuffer : Message)
    (time : ℕ) : (start now tMessageExpect sendBuffer receiveBuffer time).joint.Agreeing := by
  have hlt : (0 : UInt8) < 0x0F := by decide
  exact ⟨hlt, fun _ => ⟨rfl, fun x hx => absurd hx List.not_mem_nil⟩, .nil _⟩

/-- In a run in which each frame arrives as its message or not at all and every request is
clear when it is made, the drone has accepted last the mode that the PC takes for confirmed,
whenever nothing is on the links. -/
theorem agreement (now tMessageExpect : Timespec) (sendBuffer receiveBuffer : Message) (time : ℕ)
    (es : List LossyEvent)
    (hclean : lossy.Along Clean (start now tMessageExpect sendBuffer receiveBuffer time) es)
    (hes : lossy.Along (Each Joint.ClearRequest)
      (start now tMessageExpect sendBuffer receiveBuffer time) es)
    (hsettled : (lossy.run (start now tMessageExpect sendBuffer receiveBuffer time) es).Settled) :
    (lossy.run (start now tMessageExpect sendBuffer receiveBuffer time) es).accepted =
      (lossy.run (start now tMessageExpect sendBuffer receiveBuffer time)
        es).terminal.pc.modeRequested := by
  have hstep (s : Lossy) (e : LossyEvent) (hs : s.Midway ∧ s.joint.Agreeing)
      (he : s.Clean e ∧ s.Each Joint.ClearRequest e) :
      (lossy.next s e).Midway ∧ (lossy.next s e).joint.Agreeing :=
    invariant_next (fun _ _ _ _ h _ => ⟨h.requested_lt, h.clear⟩) hs.1 he.1 hs.2
      fun e' he' => hs.2.next (he.2 e' he')
  obtain ⟨-, hagreeing⟩ := lossy.run_invariant hstep
    ⟨midway_start _ _ _ _ _, agreeing_start now tMessageExpect sendBuffer receiveBuffer time⟩
    ((lossy.along_and _ _ _ _).2 ⟨hclean, hes⟩)
  exact hagreeing.clear.accepted hsettled.confirmed.symm

/-- A calibration that is requested, accepted and confirmed. -/
theorem agreement_calibration :
    let s₀ := start ⟨0, 0⟩ ⟨0, 0⟩ (Vector.replicate sizeofMessage 0)
      (Vector.replicate sizeofMessage 0) 0
    let es : List LossyEvent :=
      .joystick ⟨1, 0⟩ [] :: .keyboard ⟨1, 0⟩ 0x33 :: chars 15 ++ serials 6
    (lossy.run s₀ es).accepted = (lossy.run s₀ es).terminal.pc.modeRequested :=
  agreement ⟨0, 0⟩ ⟨0, 0⟩ (Vector.replicate sizeofMessage 0) (Vector.replicate sizeofMessage 0) 0
    (.joystick ⟨1, 0⟩ [] :: .keyboard ⟨1, 0⟩ 0x33 :: chars 15 ++ serials 6)
    (clean_of_plain (by decide +kernel)) (by decide +kernel)
    ⟨by decide +kernel, by decide +kernel, by decide +kernel⟩

/-- The calibration is accepted but its confirmation is lost, and so is the request for
`SAFE_MODE` that follows at once : that mode the PC takes for confirmed. -/
theorem not_agreement :
    ¬∀ (now tMessageExpect : Timespec) (sendBuffer receiveBuffer : Message) (time : ℕ)
      (es : List LossyEvent),
      (lossy.run (start now tMessageExpect sendBuffer receiveBuffer time) es).Settled →
        (lossy.run (start now tMessageExpect sendBuffer receiveBuffer time) es).accepted =
          (lossy.run (start now tMessageExpect sendBuffer receiveBuffer time)
            es).terminal.pc.modeRequested := by
  intro h
  let es : List LossyEvent :=
    .joystick ⟨1, 0⟩ [] :: .keyboard ⟨1, 0⟩ 0x33 :: chars 15 ++
      [.loseToPc 0, .keyboard ⟨1, 5000000⟩ 0x30, .loseToDrone 0]
  have heq := h ⟨0, 0⟩ ⟨0, 0⟩ (Vector.replicate sizeofMessage 0) (Vector.replicate sizeofMessage 0)
    0 es ⟨by decide +kernel, by decide +kernel, by decide +kernel⟩
  exact absurd heq (by decide +kernel)

end Lossy

end Quadrupel
