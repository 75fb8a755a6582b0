import Mathlib.Data.List.Basic
import Mathlib.Data.List.TakeWhile
import Mathlib.Logic.Relation

/-!
# Requests and confirmations over links that lose frames

A client requests values from a server over a link that keeps the order of its frames
and may lose any of them. It may send its request any number of times. The server
accepts each request that arrives and confirms it with the value alone, over a link of
the same kind. A confirmation has no number, so an old one for the same value passes for
the new one.

`ClearFor m` is the condition under which a request for `m` cannot be mistaken for an
earlier one : a confirmation of `m` that the client holds or may still receive means
that the server has accepted `m` and no other value can reach it, and on the link to the
server `m` comes only behind all other values. It holds on after a request for `m`
whatever is sent again, delivered or lost (`ClearFor.step`), and once nothing is on its
way to the server it says that the confirmed value is the accepted one
(`ClearFor.accepted`).
-/

namespace Quadrupel

/-- The state of the client, the server and the links between them. -/
structure Confirm (α : Type*) where
  requested : α
  received : α
  accepted : α
  toServer : List α
  toClient : List α

namespace Confirm

variable {α : Type*}

/-- The steps between two requests. -/
inductive Step : Confirm α → Confirm α → Prop
  | send (s : Confirm α) : Step s { s with toServer := s.toServer ++ [s.requested] }
  | serve (s : Confirm α) (m : α) (rest : List α) (h : s.toServer = m :: rest) :
    Step s { s with accepted := m, toServer := rest, toClient := s.toClient ++ [m] }
  | confirm (s : Confirm α) (m : α) (rest : List α) (h : s.toClient = m :: rest) :
    Step s { s with received := m, toClient := rest }
  | lose (s : Confirm α) (toServer toClient : List α) (h : toServer.Sublist s.toServer)
    (h' : toClient.Sublist s.toClient) : Step s { s with toServer, toClient }

/-- All values are `m` from the first `m` on. -/
def LastOnly (m : α) (l : List α) : Prop :=
  ∃ as bs, l = as ++ bs ∧ (∀ a ∈ as, a ≠ m) ∧ ∀ b ∈ bs, b = m

/-- A request for `m` cannot be mistaken for an earlier one. -/
structure ClearFor (s : Confirm α) (m : α) : Prop where
  confirmed : m ∈ s.received :: s.toClient → s.accepted = m ∧ ∀ x ∈ s.toServer, x = m
  last : LastOnly m s.toServer

theorem lastOnly_iff [DecidableEq α] {m : α} {l : List α} :
    LastOnly m l ↔ ∀ x ∈ l.dropWhile (· ≠ m), x = m := by
  constructor
  · rintro ⟨as, bs, rfl, has, hbs⟩ x hx
    rw [List.dropWhile_append_of_pos (by simpa using has)] at hx
    exact hbs x ((List.dropWhile_sublist _).subset hx)
  · intro h
    refine ⟨l.takeWhile (· ≠ m), _, List.takeWhile_append_dropWhile.symm, fun a ha => ?_, h⟩
    simpa using List.mem_takeWhile_imp ha

instance [DecidableEq α] (m : α) (l : List α) : Decidable (LastOnly m l) :=
  decidable_of_iff' _ lastOnly_iff

theorem clearFor_iff {s : Confirm α} {m : α} : s.ClearFor m ↔
    (m ∈ s.received :: s.toClient → s.accepted = m ∧ ∀ x ∈ s.toServer, x = m) ∧
      LastOnly m s.toServer :=
  ⟨fun ⟨h, h'⟩ => ⟨h, h'⟩, fun ⟨h, h'⟩ => ⟨h, h'⟩⟩

instance [DecidableEq α] (s : Confirm α) (m : α) : Decidable (s.ClearFor m) :=
  decidable_of_iff' _ clearFor_iff

theorem LastOnly.nil (m : α) : LastOnly m [] :=
  ⟨[], [], rfl, by simp, by simp⟩

theorem LastOnly.sublist {m : α} {l l' : List α} (h : LastOnly m l) (hl : l'.Sublist l) :
    LastOnly m l' := by
  obtain ⟨as, bs, rfl, has, hbs⟩ := h
  obtain ⟨as', bs', rfl, hasub, hbsub⟩ := List.sublist_append_iff.1 hl
  exact ⟨as', bs', rfl, fun a ha => has a (hasub.subset ha), fun b hb => hbs b (hbsub.subset hb)⟩

theorem LastOnly.snoc {m : α} {l : List α} (h : LastOnly m l) : LastOnly m (l ++ [m]) := by
  obtain ⟨as, bs, rfl, has, hbs⟩ := h
  refine ⟨as, bs ++ [m], List.append_assoc _ _ _, has, fun b hb => ?_⟩
  rcases List.mem_append.1 hb with hb | hb
  · exact hbs b hb
  · exact List.mem_singleton.1 hb

/-- Behind an `m` there is nothing else. -/
theorem LastOnly.of_cons {m : α} {l : List α} (h : LastOnly m (m :: l)) : ∀ x ∈ l, x = m := by
  obtain ⟨as, bs, heq, has, hbs⟩ := h
  cases as with
  | nil =>
    rw [List.nil_append] at heq
    exact fun x hx => hbs x (heq ▸ List.mem_cons_of_mem m hx)
  | cons a as =>
    obtain ⟨rfl, -⟩ := List.cons.inj heq
    exact absurd rfl (has m List.mem_cons_self)

theorem ClearFor.send {s : Confirm α} (h : s.ClearFor s.requested) :
    ClearFor { s with toServer := s.toServer ++ [s.requested] } s.requested := by
  refine ⟨fun hmem => ?_, h.last.snoc⟩
  obtain ⟨haccepted, hall⟩ := h.confirmed hmem
  refine ⟨haccepted, fun x hx => ?_⟩
  rcases List.mem_append.1 hx with hx | hx
  · exact hall x hx
  · exact List.mem_singleton.1 hx

theorem ClearFor.lose {s : Confirm α} {m : α} (h : s.ClearFor m) {toServer toClient : List α}
    (hs : toServer.Sublist s.toServer) (hc : toClient.Sublist s.toClient) :
    ClearFor { s with toServer, toClient } m := by
  refine ⟨fun hmem => ?_, h.last.sublist hs⟩
  obtain ⟨haccepted, hall⟩ := h.confirmed ((hc.cons_cons s.received).subset hmem)
  exact ⟨haccepted, fun x hx => hall x (hs.subset hx)⟩

theorem ClearFor.confirm {s : Confirm α} {m x : α} {rest : List α} (h : s.ClearFor m)
    (hx : s.toClient = x :: rest) : ClearFor { s with received := x, toClient := rest } m :=
  ⟨fun hmem => h.confirmed (List.mem_cons_of_mem _ (hx ▸ hmem)), h.last⟩

/-- A confirmation of `m` is sent when the server accepts `m`, behind all other values. -/
theorem ClearFor.serve {s : Confirm α} {m x : α} {rest : List α} (h : s.ClearFor m)
    (hx : s.toServer = x :: rest) :
    ClearFor { s with accepted := x, toServer := rest, toClient := s.toClient ++ [x] } m := by
  have hlast : LastOnly m (x :: rest) := hx ▸ h.last
  refine ⟨fun hmem => ?_, hlast.sublist (List.sublist_cons_self x rest)⟩
  rw [← List.cons_append, List.mem_append, List.mem_singleton] at hmem
  rcases hmem with hmem | rfl
  · obtain ⟨-, hall⟩ := h.confirmed hmem
    rw [hx] at hall
    exact ⟨hall x List.mem_cons_self, fun y hy => hall y (List.mem_cons_of_mem x hy)⟩
  · exact ⟨rfl, hlast.of_cons⟩

/-- No step between two requests makes the request ambiguous. -/
theorem ClearFor.step {s s' : Confirm α} (h : s.ClearFor s.requested) (hstep : Step s s') :
    s'.requested = s.requested ∧ s'.ClearFor s'.requested := by
  cases hstep with
  | send => exact ⟨rfl, h.send⟩
  | serve m rest hx => exact ⟨rfl, h.serve hx⟩
  | confirm m rest hx => exact ⟨rfl, h.confirm hx⟩
  | lose toServer toClient hs hc => exact ⟨rfl, h.lose hs hc⟩

theorem ClearFor.steps {s s' : Confirm α} (h : s.ClearFor s.requested)
    (hsteps : Relation.ReflTransGen Step s s') : s'.ClearFor s'.requested := by
  induction hsteps with
  | refl => exact h
  | tail _ hstep ih => exact (ih.step hstep).2

/-- A new request is clear if its value was. -/
theorem ClearFor.request {s : Confirm α} {m : α} (h : s.ClearFor m) :
    ClearFor { s with requested := m } m :=
  ⟨h.confirmed, h.last⟩

/-- The confirmed value is the accepted one. -/
theorem ClearFor.accepted {s : Confirm α} {m : α} (h : s.ClearFor m) (hm : s.received = m) :
    s.accepted = m :=
  (h.confirmed (hm ▸ List.mem_cons_self)).1

end Confirm

end Quadrupel
