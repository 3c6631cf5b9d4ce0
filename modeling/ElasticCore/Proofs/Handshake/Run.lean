import ElasticCore.Clock
import ElasticCore.Proofs.Handshake.Invariant

/-! # Runs of a line

A line is ticked and flushed in any order. Whatever came before, a flush restores the
line as it was built, so a run since the last flush is a run of a new line.
-/

namespace ElasticCore.Line

variable {α : Type}

structure Input (α : Type) where
  offer : Slot α
  sinkReady : Bool
  deriving DecidableEq, Repr

def acceptedItems (is : List (Input α)) (os : List (Outcome α)) : List α :=
  (is.zip os).filterMap fun (i, o) => if o.accepted then some i.offer.data else none

def deliveredItems (os : List (Outcome α)) : List α := os.filterMap (·.delivered)

@[simp] theorem acceptedItems_cons (i : Input α) (is : List (Input α)) (o : Outcome α)
    (os : List (Outcome α)) :
    acceptedItems (i :: is) (o :: os) =
      (if o.accepted then some i.offer.data else none).toList ++ acceptedItems is os := by
  cases ho : o.accepted <;> simp [acceptedItems, ho]

@[simp] theorem deliveredItems_cons (o : Outcome α) (os : List (Outcome α)) :
    deliveredItems (o :: os) = o.delivered.toList ++ deliveredItems os := by
  cases ho : o.delivered <;> simp [deliveredItems, ho]

variable [Inhabited α]

def run (l : Line α) (is : List (Input α)) : List (Outcome α) × Line α :=
  clock (fun l i => l.tick i.offer i.sinkReady) l is

@[simp] theorem run_nil (l : Line α) : l.run [] = ([], l) := rfl

@[simp] theorem run_cons (l : Line α) (i : Input α) (is : List (Input α)) :
    l.run (i :: is) =
      ((l.tick i.offer i.sinkReady).1 :: ((l.tick i.offer i.sinkReady).2.run is).1,
        ((l.tick i.offer i.sinkReady).2.run is).2) := rfl

@[simp] theorem depth_run (l : Line α) (is : List (Input α)) : (l.run is).2.depth = l.depth := by
  induction is generalizing l with
  | nil => rfl
  | cons i is ih => rw [run_cons, ih, depth_tick]

theorem getElem?_run (l : Line α) (is : List (Input α)) (n : Nat) :
    (l.run is).1[n]? =
      is[n]?.map fun i => ((l.run (is.take n)).2.tick i.offer i.sinkReady).1 :=
  getElem?_clock _ l is n

theorem run_append (l : Line α) (is js : List (Input α)) :
    l.run (is ++ js) =
      ((l.run is).1 ++ ((l.run is).2.run js).1, ((l.run is).2.run js).2) :=
  clock_append _ l is js

/-- The states of a line of the given depth, from its building on. -/
inductive Reachable (depth : Nat) : Line α → Prop where
  | build {l : Line α} : ofDepth depth = .ok l → Reachable depth l
  | tick {l : Line α} (offer : Slot α) (sinkReady : Bool) :
      Reachable depth l → Reachable depth (l.tick offer sinkReady).2
  | flush {l : Line α} : Reachable depth l → Reachable depth l.flush

/-- A line that was just built, or flushed. -/
def AtReset (depth : Nat) (l : Line α) : Prop :=
  ofDepth depth = .ok l ∨ ∃ l', Reachable depth l' ∧ l = l'.flush

variable {depth : Nat} {l : Line α}

theorem ofDepth_eq_ok_iff :
    ofDepth depth = .ok l ↔ 0 < depth ∧ l = ⟨List.replicate depth .reset, default⟩ := by
  unfold ofDepth
  split
  · simp; omega
  · rw [Except.ok.injEq, eq_comm]
    exact ⟨fun h => ⟨by omega, h⟩, fun h => h.2⟩

theorem Reachable.depth_eq (h : Reachable depth l) : 0 < depth ∧ l.depth = depth := by
  induction h with
  | build h =>
    obtain ⟨hd, rfl⟩ := ofDepth_eq_ok_iff.mp h
    exact ⟨hd, by simp [Line.depth]⟩
  | tick _ _ _ ih => simpa using ih
  | flush _ ih => simpa [Line.depth, Line.flush] using ih

theorem Reachable.sound (h : Reachable depth l) : l.Sound := by
  induction h with
  | build h =>
    obtain ⟨-, rfl⟩ := ofDepth_eq_ok_iff.mp h
    intro s hs
    rw [List.eq_of_mem_replicate hs]
    exact Stage.sound_reset
  | tick _ _ _ ih => exact ih.tick _ _
  | flush _ _ =>
    intro s hs
    obtain ⟨_, _, rfl⟩ := List.mem_map.mp hs
    exact Stage.sound_reset

theorem Reachable.run (h : Reachable depth l) (is : List (Input α)) :
    Reachable depth (l.run is).2 := by
  induction is generalizing l with
  | nil => exact h
  | cons i is ih => exact ih (h.tick i.offer i.sinkReady)

theorem Reachable.stages_ne_nil (h : Reachable depth l) : l.stages ≠ [] := by
  obtain ⟨hd, hl⟩ := h.depth_eq
  rw [← hl] at hd
  exact Line.stages_ne_nil hd

theorem AtReset.reachable (h : AtReset depth l) : Reachable depth l := by
  rcases h with h | ⟨l', h, rfl⟩
  · exact .build h
  · exact h.flush

/-- A flush leaves no trace: the line is the one that was built. -/
theorem AtReset.eq (h : AtReset depth l) : l = ⟨List.replicate depth .reset, default⟩ := by
  rcases h with h | ⟨l', h, rfl⟩
  · exact (ofDepth_eq_ok_iff.mp h).2
  · rw [flush, ← h.depth_eq.2, Line.depth, List.map_const']

theorem AtReset.items_eq (h : AtReset depth l) : l.items = [] := by
  rw [h.eq, Line.items]
  simp

end ElasticCore.Line
