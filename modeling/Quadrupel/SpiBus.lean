import Mathlib.Data.List.Basic
import Mathlib.Tactic.TypeStar

/-!
# A master and a slave on a bus

A slave hears that it is selected, then exchanges one byte for another, any number of
times, and hears that it is deselected. `Bus` is the master's side : bytes that are
written to the data register are sent in order, and `waitReady` waits for the ready event
of the next one. Without such a byte, and with no event pending, it waits forever, which
is `none`. Reading the data register gives the byte that came in last.

`exchangeList` and `transact` say what a slave has gone through, and `received` what it
answered. `sendByte_eq` and the rules for `waitReady` reduce a driver to them. The type of
the bytes and that of the slave's states are arbitrary.
-/

namespace Quadrupel

/-- What a slave does on the bus. -/
structure Slave (α σ : Type*) where
  select : σ → σ
  /-- The byte that goes out for the one that comes in. -/
  exchange : α → σ → α × σ
  deselect : σ → σ

/-- The slave, the bytes in the master's data register that wait to be sent, the ready
event, the byte received last, and all the bytes sent so far. -/
structure Bus (α σ : Type*) where
  device : σ
  sending : List α
  ready : Bool
  rxd : α
  clocked : List α

namespace Bus

variable {α σ : Type*} (S : Slave α σ)

/-- The select line goes low. -/
def select (bus : Bus α σ) : Bus α σ :=
  { bus with device := S.select bus.device }

/-- The select line goes high. -/
def deselect (bus : Bus α σ) : Bus α σ :=
  { bus with device := S.deselect bus.device }

def clearReady (bus : Bus α σ) : Bus α σ :=
  { bus with ready := false }

def writeTxd (b : α) (bus : Bus α σ) : Bus α σ :=
  { bus with sending := bus.sending ++ [b] }

/-- One byte goes over the bus in either direction. -/
def exchangeOne (b : α) (bus : Bus α σ) : Bus α σ :=
  { bus with
    device := (S.exchange b bus.device).2
    rxd := (S.exchange b bus.device).1
    clocked := bus.clocked ++ [b] }

/-- The wait for the ready event. -/
def waitReady (bus : Bus α σ) : Option (Bus α σ) :=
  if bus.ready then some bus
  else
    match bus.sending with
    | [] => none
    | b :: rest => some { bus.exchangeOne S b with sending := rest, ready := true }

/-- A byte is sent and its event waited for. -/
def sendByte (b : α) (bus : Bus α σ) : Option (Bus α σ) := do
  let bus ← (bus.writeTxd b).waitReady S
  return bus.clearReady

/-! ## What goes over the bus -/

/-- Bytes go over the bus one after the other. -/
def exchangeList (bs : List α) (bus : Bus α σ) : Bus α σ :=
  bs.foldl (fun bus b => bus.exchangeOne S b) bus

/-- The bytes that come back for them. -/
def received : List α → Bus α σ → List α
  | [], _ => []
  | b :: bs, bus => (bus.exchangeOne S b).rxd :: received bs (bus.exchangeOne S b)

/-- The slave is selected, exchanges the bytes, and is deselected. -/
def transact (bs : List α) (bus : Bus α σ) : Bus α σ :=
  ((bus.select S).exchangeList S bs).deselect S

@[simp] theorem exchangeList_nil (bus : Bus α σ) : bus.exchangeList S [] = bus :=
  rfl

@[simp] theorem exchangeList_cons (b : α) (bs : List α) (bus : Bus α σ) :
    bus.exchangeList S (b :: bs) = (bus.exchangeOne S b).exchangeList S bs :=
  rfl

theorem exchangeList_append (bs cs : List α) (bus : Bus α σ) :
    bus.exchangeList S (bs ++ cs) = (bus.exchangeList S bs).exchangeList S cs :=
  List.foldl_append

@[simp] theorem length_received (bs : List α) (bus : Bus α σ) :
    (bus.received S bs).length = bs.length := by
  induction bs generalizing bus with
  | nil => rfl
  | cons b bs ih => simp [received, ih]

theorem received_append (bs cs : List α) (bus : Bus α σ) :
    bus.received S (bs ++ cs) =
      bus.received S bs ++ (bus.exchangeList S bs).received S cs := by
  induction bs generalizing bus with
  | nil => rfl
  | cons b bs ih => simp [received, ih]

/-- The register and the event do not matter to what goes over the bus. -/
@[simp] theorem exchangeList_set (bs : List α) (sending : List α) (ready : Bool)
    (bus : Bus α σ) : ({ bus with sending, ready } : Bus α σ).exchangeList S bs =
      { bus.exchangeList S bs with sending, ready } := by
  induction bs generalizing bus with
  | nil => rfl
  | cons b bs ih => exact ih (bus.exchangeOne S b)

@[simp] theorem received_set (bs : List α) (sending : List α) (ready : Bool) (bus : Bus α σ) :
    ({ bus with sending, ready } : Bus α σ).received S bs = bus.received S bs := by
  induction bs generalizing bus with
  | nil => rfl
  | cons b bs ih => exact congrArg (_ :: ·) (ih (bus.exchangeOne S b))

@[simp] theorem exchangeList_clearReady (bs : List α) (bus : Bus α σ) :
    bus.clearReady.exchangeList S bs = (bus.exchangeList S bs).clearReady := by
  induction bs generalizing bus with
  | nil => rfl
  | cons b bs ih => exact ih (bus.exchangeOne S b)

@[simp] theorem received_clearReady (bs : List α) (bus : Bus α σ) :
    bus.clearReady.received S bs = bus.received S bs :=
  received_set S bs bus.sending false bus

/-- What goes over the bus leaves the register and the event. -/
theorem exchangeList_frame (bs : List α) (bus : Bus α σ) :
    (bus.exchangeList S bs).sending = bus.sending ∧ (bus.exchangeList S bs).ready = bus.ready := by
  induction bs generalizing bus with
  | nil => exact ⟨rfl, rfl⟩
  | cons b bs ih => exact ih (bus.exchangeOne S b)

@[simp] theorem clocked_exchangeList (bs : List α) (bus : Bus α σ) :
    (bus.exchangeList S bs).clocked = bus.clocked ++ bs := by
  induction bs generalizing bus with
  | nil => simp
  | cons b bs ih => simp [ih, exchangeOne]

@[simp] theorem clocked_transact (bs : List α) (bus : Bus α σ) :
    (bus.transact S bs).clocked = bus.clocked ++ bs :=
  clocked_exchangeList S bs (bus.select S)

/-- The event of the last byte is still pending. -/
def withReady (bus : Bus α σ) : Bus α σ :=
  { bus with sending := [], ready := true }

/-! ## The master -/

/-- Nothing is sent and no event pending. -/
structure Quiet (bus : Bus α σ) : Prop where
  sending : bus.sending = []
  ready : bus.ready = false

theorem Quiet.select {bus : Bus α σ} (h : bus.Quiet) : (bus.select S).Quiet :=
  ⟨h.sending, h.ready⟩

theorem Quiet.exchangeOne {bus : Bus α σ} (h : bus.Quiet) (b : α) : (bus.exchangeOne S b).Quiet :=
  ⟨h.sending, h.ready⟩

theorem Quiet.exchangeList {bus : Bus α σ} (h : bus.Quiet) (bs : List α) :
    (bus.exchangeList S bs).Quiet :=
  ⟨(exchangeList_frame S bs bus).1.trans h.sending, (exchangeList_frame S bs bus).2.trans h.ready⟩

theorem Quiet.transact {bus : Bus α σ} (h : bus.Quiet) (bs : List α) : (bus.transact S bs).Quiet :=
  ⟨((h.select S).exchangeList S bs).sending, ((h.select S).exchangeList S bs).ready⟩

theorem quiet_transact {bus : Bus α σ} (h : bus.sending = []) (bs : List α) :
    (bus.transact S bs).clearReady.Quiet :=
  ⟨(exchangeList_frame S bs (bus.select S)).1.trans h, rfl⟩

theorem sendByte_eq {bus : Bus α σ} (h : bus.Quiet) (b : α) :
    bus.sendByte S b = some (bus.exchangeOne S b) := by
  obtain ⟨device, sending, ready, rxd, clocked⟩ := bus
  obtain ⟨rfl, rfl⟩ := h
  rfl

/-- The wait for a byte that is being sent. -/
theorem waitReady_eq {b : α} {rest : List α} {bus : Bus α σ} (hsending : bus.sending = b :: rest)
    (hready : bus.ready = false) :
    bus.waitReady S = some { bus.exchangeOne S b with sending := rest, ready := true } := by
  rw [waitReady, hready, if_neg Bool.false_ne_true, hsending]

/-- The wait for the byte before the one that was just written. -/
theorem waitReady_writeTxd {b : α} {bus : Bus α σ} (hsending : bus.sending = [b])
    (hready : bus.ready = false) (c : α) : (bus.writeTxd c).waitReady S =
      some { bus.exchangeOne S b with sending := [c], ready := true } := by
  have hsending' : (bus.writeTxd c).sending = [b, c] := by
    rw [writeTxd, hsending, List.singleton_append]
  exact waitReady_eq S hsending' hready

end Bus

end Quadrupel
