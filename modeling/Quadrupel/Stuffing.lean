import Mathlib.Data.List.Basic
import Mathlib.InformationTheory.Coding.UniquelyDecodable
import Mathlib.Tactic.TypeStar

/-!
# Byte stuffing

A frame format reserves some symbols. `stuff` sends a reserved symbol as the escape
symbol followed by its mask, and `unstuff` undoes it : it drops an escape that no escape
precedes and masks the symbol after it. `unstuff` is defined on a stream cut anywhere,
with `pending` telling whether the last symbol so far is an escape still waiting for
its partner. The alphabet is any type with decidable equality.

A reserved symbol that no mask gives does not occur in stuffed symbols (`notMem_stuff`).
So it can mark where a frame ends, and a stream of frames can be read in one way only
(`uniquelyDecodable_frame`).
-/

namespace Quadrupel

/-- An escape symbol, the symbols it protects, and the involution it announces. -/
structure Stuffing (α : Type*) where
  escape : α
  /-- The symbols that are not sent as they are. -/
  reserved : α → Bool
  mask : α → α
  reserved_escape : reserved escape = true
  mask_mask : ∀ a, mask (mask a) = a

namespace Stuffing

variable {α : Type*} (S : Stuffing α)

/-- One symbol as it is sent. -/
def stuffOne (a : α) : List α :=
  if S.reserved a then [S.escape, S.mask a] else [a]

/-- The symbols as they are sent. -/
def stuff (as : List α) : List α :=
  as.flatMap S.stuffOne

@[simp] theorem stuff_nil : S.stuff [] = [] :=
  rfl

@[simp] theorem stuff_cons (a : α) (as : List α) : S.stuff (a :: as) = S.stuffOne a ++ S.stuff as :=
  rfl

theorem ne_escape_of_not_reserved {a : α} (h : S.reserved a = false) : a ≠ S.escape := by
  rintro rfl
  simp [S.reserved_escape] at h

variable [DecidableEq α]

/-- The symbols that a stream stands for; the flag says that an escape came just before
it. -/
def unstuff : Bool → List α → List α
  | _, [] => []
  | false, a :: as => if a = S.escape then unstuff true as else a :: unstuff false as
  | true, a :: as => S.mask a :: unstuff false as

/-- Whether the stream ends in an escape without its partner. -/
def pending : Bool → List α → Bool
  | p, [] => p
  | false, a :: as => if a = S.escape then pending true as else pending false as
  | true, _ :: as => pending false as

@[simp] theorem unstuff_nil (p : Bool) : S.unstuff p [] = [] := by
  cases p <;> rfl

@[simp] theorem pending_nil (p : Bool) : S.pending p [] = p := by
  cases p <;> rfl

@[simp] theorem unstuff_escape (as : List α) :
    S.unstuff false (S.escape :: as) = S.unstuff true as := by
  simp [unstuff]

@[simp] theorem unstuff_masked (a : α) (as : List α) :
    S.unstuff true (a :: as) = S.mask a :: S.unstuff false as :=
  rfl

theorem unstuff_raw {a : α} (h : a ≠ S.escape) (as : List α) :
    S.unstuff false (a :: as) = a :: S.unstuff false as := by
  simp [unstuff, h]

@[simp] theorem pending_escape (as : List α) :
    S.pending false (S.escape :: as) = S.pending true as := by
  simp [pending]

@[simp] theorem pending_masked (a : α) (as : List α) :
    S.pending true (a :: as) = S.pending false as :=
  rfl

theorem pending_raw {a : α} (h : a ≠ S.escape) (as : List α) :
    S.pending false (a :: as) = S.pending false as := by
  simp [pending, h]

theorem pending_append (p : Bool) (as bs : List α) :
    S.pending p (as ++ bs) = S.pending (S.pending p as) bs := by
  induction as generalizing p with
  | nil => simp
  | cons a as ih =>
    cases p with
    | true => simp [ih]
    | false =>
      by_cases h : a = S.escape
      · simp [h, ih]
      · simp [S.pending_raw h, ih]

theorem unstuff_append (p : Bool) (as bs : List α) :
    S.unstuff p (as ++ bs) = S.unstuff p as ++ S.unstuff (S.pending p as) bs := by
  induction as generalizing p with
  | nil => simp
  | cons a as ih =>
    cases p with
    | true => simp [ih]
    | false =>
      by_cases h : a = S.escape
      · simp [h, ih]
      · simp [S.unstuff_raw h, S.pending_raw h, ih]

theorem unstuff_stuffOne (a : α) : S.unstuff false (S.stuffOne a) = [a] := by
  unfold stuffOne
  cases h : S.reserved a
  · simp [S.unstuff_raw (S.ne_escape_of_not_reserved h)]
  · simp [S.mask_mask]

theorem pending_stuffOne (a : α) : S.pending false (S.stuffOne a) = false := by
  unfold stuffOne
  cases h : S.reserved a
  · simp [S.pending_raw (S.ne_escape_of_not_reserved h)]
  · simp

theorem pending_stuff (as : List α) : S.pending false (S.stuff as) = false := by
  induction as with
  | nil => rfl
  | cons a as ih => rw [stuff_cons, pending_append, pending_stuffOne, ih]

/-- Unstuffing undoes stuffing. -/
theorem unstuff_stuff (as : List α) : S.unstuff false (S.stuff as) = as := by
  induction as with
  | nil => rfl
  | cons a as ih =>
    rw [stuff_cons, unstuff_append, unstuff_stuffOne, pending_stuffOne, ih, List.singleton_append]

theorem stuff_injective : Function.Injective S.stuff :=
  Function.LeftInverse.injective S.unstuff_stuff

end Stuffing

/-! ## Frames -/

/-- Up to a symbol that neither list has, there is one way to read them. -/
theorem append_cons_inj_of_notMem_left {α : Type*} {as bs cs ds : List α} {a : α} (has : a ∉ as)
    (hbs : a ∉ bs) (h : as ++ a :: cs = bs ++ a :: ds) : as = bs ∧ cs = ds := by
  induction as generalizing bs with
  | nil =>
    cases bs with
    | nil => exact ⟨rfl, (List.cons.inj h).2⟩
    | cons b bs => exact absurd (List.mem_cons.2 (Or.inl (List.cons.inj h).1)) hbs
  | cons a' as ih =>
    cases bs with
    | nil => exact absurd (List.mem_cons.2 (Or.inl (List.cons.inj h).1.symm)) has
    | cons b bs =>
      obtain ⟨hhead, htail⟩ := List.cons.inj h
      obtain ⟨hrest, hafter⟩ := ih (List.not_mem_of_not_mem_cons has)
        (List.not_mem_of_not_mem_cons hbs) htail
      exact ⟨by rw [hhead, hrest], hafter⟩

namespace Stuffing

variable {α : Type*} (S : Stuffing α) {a : α}

theorem notMem_stuff (ha : S.reserved a = true) (hescape : a ≠ S.escape)
    (hmask : ∀ b, S.reserved b = true → S.mask b ≠ a) (as : List α) : a ∉ S.stuff as := by
  intro h
  obtain ⟨b, -, hb⟩ := List.mem_flatMap.1 h
  unfold stuffOne at hb
  cases hreserved : S.reserved b with
  | true =>
    rw [hreserved, if_pos rfl] at hb
    rcases List.mem_pair.1 hb with rfl | rfl
    · exact hescape rfl
    · exact hmask b hreserved rfl
  | false =>
    rw [hreserved, if_neg Bool.false_ne_true, List.mem_singleton] at hb
    rw [← hb, ha] at hreserved
    exact Bool.noConfusion hreserved

/-- What follows an escape is the mask of a reserved symbol, if that is never an escape
itself. -/
theorem after_escape (hmask : ∀ b, S.reserved b = true → S.mask b ≠ S.escape) {as : List α}
    {before after : List α} (h : S.stuff as = before ++ S.escape :: after) :
    ∃ b rest, S.reserved b = true ∧ after = S.mask b :: rest := by
  induction as generalizing before with
  | nil => simp at h
  | cons a as ih =>
    rw [stuff_cons, stuffOne] at h
    cases hreserved : S.reserved a with
    | true =>
      rw [hreserved, if_pos rfl] at h
      match before, h with
      | [], h => exact ⟨a, S.stuff as, hreserved, (List.cons.inj h).2.symm⟩
      | [b], h =>
        have hsecond := (List.cons.inj (List.cons.inj h).2).1
        exact absurd hsecond (hmask a hreserved)
      | _ :: _ :: before, h => exact ih (List.cons.inj (List.cons.inj h).2).2
    | false =>
      rw [hreserved, if_neg Bool.false_ne_true] at h
      match before, h with
      | [], h =>
        rw [(List.cons.inj h).1, S.reserved_escape] at hreserved
        exact Bool.noConfusion hreserved
      | _ :: before, h => exact ih (List.cons.inj h).2

/-- Stuffed symbols between two symbols that mark where they start and stop, with the
same symbols behind every frame. -/
def frame (start stop : α) (trailer as : List α) : List α :=
  start :: (S.stuff as ++ stop :: trailer)

variable [DecidableEq α] {start stop : α} {trailer : List α}

theorem frame_append_inj (hstop : ∀ as, stop ∉ S.stuff as) {as bs cs ds : List α}
    (h : S.frame start stop trailer as ++ cs = S.frame start stop trailer bs ++ ds) :
    as = bs ∧ cs = ds := by
  simp only [frame, List.cons_append, List.append_assoc, List.cons.injEq, true_and] at h
  obtain ⟨hstuff, hrest⟩ := append_cons_inj_of_notMem_left (hstop as) (hstop bs) h
  exact ⟨S.stuff_injective hstuff, List.append_cancel_left hrest⟩

theorem uniquelyDecodable_frame (hstop : ∀ as, stop ∉ S.stuff as) :
    InformationTheory.UniquelyDecodable (Set.range (S.frame start stop trailer)) := by
  intro fs gs hfs hgs h
  induction fs generalizing gs with
  | nil =>
    cases gs with
    | nil => rfl
    | cons g gs =>
      obtain ⟨bs, rfl⟩ := hgs g (by simp)
      simp [frame] at h
  | cons f fs ih =>
    obtain ⟨as, rfl⟩ := hfs f (by simp)
    cases gs with
    | nil => simp [frame] at h
    | cons g gs =>
      obtain ⟨bs, rfl⟩ := hgs g (by simp)
      obtain ⟨rfl, hrest⟩ := S.frame_append_inj hstop h
      rw [ih gs (fun w hw => hfs w (by simp [hw])) (fun w hw => hgs w (by simp [hw])) hrest]

/-- Two streams of frames are the same only if all they frame is. -/
theorem flatMap_frame_injective (hstop : ∀ as, stop ∉ S.stuff as) :
    Function.Injective fun ass : List (List α) => ass.flatMap (S.frame start stop trailer) := by
  intro ass bss h
  simp only [List.flatMap_def] at h
  have hframe : Function.Injective (S.frame start stop trailer) := fun as bs h =>
    (S.frame_append_inj hstop (congrArg (· ++ []) h)).1
  have hcode : InformationTheory.UniquelyDecodable (Set.range (S.frame start stop trailer)) :=
    S.uniquelyDecodable_frame hstop
  refine List.map_injective_iff.2 hframe (hcode _ _ ?_ ?_ h)
  · simp
  · simp

end Stuffing

end Quadrupel
