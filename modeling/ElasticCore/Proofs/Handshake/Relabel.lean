import ElasticCore.Proofs.Handshake.Run

/-! # Relabelling items

A line moves its items without looking at them. If every item is replaced by another, in the
registers and in what the source offers, the line makes the same movements with the replaced
items. Only the item that stands for an empty register has to be kept.
-/

namespace ElasticCore

variable {α β : Type}

def Slot.map (f : α → β) (s : Slot α) : Slot β := ⟨s.valid, f s.data⟩

namespace Stage

def map (f : α → β) (s : Stage α) : Stage β where
  output := s.output.map f
  ready := s.ready
  buffer := s.buffer.map f

def Outcome.map (f : α → β) (o : Outcome α) : Outcome β where
  accepted := o.accepted
  emitted := o.emitted.map f
  transition := o.transition
  next := o.next.map f

end Stage

namespace Line

def Input.map (f : α → β) (i : Input α) : Input β where
  offer := i.offer.map f
  sinkReady := i.sinkReady

def map (f : α → β) (l : Line α) : Line β where
  stages := l.stages.map (Stage.map f)
  sink := f l.sink

def Outcome.map (f : α → β) (o : Outcome α) : Outcome β where
  accepted := o.accepted
  delivered := o.delivered.map f
  transitions := o.transitions
  stages := o.stages.map (Stage.map f)

end Line

variable (f : α → β)

@[simp] theorem Slot.item?_map (s : Slot α) : (s.map f).item? = s.item?.map f := by
  cases hv : s.valid <;> simp [map, item?, hv]

theorem Line.readiness_map (sinkReady : Bool) (stages : List (Stage α)) :
    readiness sinkReady (stages.map (Stage.map f)) = readiness sinkReady stages := by
  cases stages <;> rfl

theorem Line.ready_map (l : Line α) : (l.map f).ready = l.ready :=
  readiness_map f false l.stages

theorem Line.occupancy_map (l : Line α) : (l.map f).occupancy = l.occupancy := by
  rw [occupancy, map, List.map_map]
  rfl

theorem Line.head_map (l : Line α) : (l.map f).head = l.head.map f := by
  rw [head, head, map, List.getLast?_map]
  cases l.stages.getLast? with
  | none => rfl
  | some s => exact Slot.item?_map f s.output

variable [Inhabited α] [Inhabited β] {f} (hf : f default = default)

include hf

theorem Stage.move_map (s : Stage α) (offer : Slot α) (outReady : Bool) :
    (s.map f).move (offer.map f) outReady =
      ((s.move offer outReady).1, (s.move offer outReady).2.map f) := by
  cases hv : offer.valid <;> cases hr : s.ready <;> cases ho : s.output.valid <;>
    cases outReady <;> simp [move, map, Slot.map, Slot.empty, hf, hv, hr, ho]

theorem Stage.evaluate_map (s : Stage α) (offer : Slot α) (outReady : Bool) :
    (s.map f).evaluate (offer.map f) outReady = (s.evaluate offer outReady).map f := by
  simp only [evaluate, Outcome.map, move_map hf, apply_ite (Option.map f)]
  rw [← Slot.item?_map]
  rfl

namespace Line

theorem outcomes_map (sinkReady : Bool) (offer : Slot α) (stages : List (Stage α)) :
    outcomes sinkReady (offer.map f) (stages.map (Stage.map f)) =
      (outcomes sinkReady offer stages).map (Stage.Outcome.map f) := by
  induction stages generalizing offer with
  | nil => rfl
  | cons s rest ih =>
    rw [List.map_cons, outcomes, outcomes, List.map_cons, readiness_map, Stage.evaluate_map hf]
    exact congrArg _ (ih s.output)

theorem evaluate_map (l : Line α) (offer : Slot α) (sinkReady : Bool) :
    (l.map f).evaluate (offer.map f) sinkReady = (l.evaluate offer sinkReady).map f := by
  simp only [evaluate, map, outcomes_map hf, Outcome.map, List.head?_map, List.getLast?_map,
    List.map_map, Option.any_map, Option.bind_map, Option.map_bind]
  rfl

theorem tick_map (l : Line α) (offer : Slot α) (sinkReady : Bool) :
    (l.map f).tick (offer.map f) sinkReady =
      ((l.tick offer sinkReady).1.map f, (l.tick offer sinkReady).2.map f) := by
  rw [tick, tick, evaluate_map hf, commit, commit]
  exact congrArg (fun a => (_, Line.mk _ a)) (Option.getD_map f l.sink _)

theorem run_map (l : Line α) (is : List (Input α)) :
    (l.map f).run (is.map (Input.map f)) =
      ((l.run is).1.map (Outcome.map f), (l.run is).2.map f) := by
  induction is generalizing l with
  | nil => rfl
  | cons i is ih =>
    have ht : (l.map f).tick (i.map f).offer (i.map f).sinkReady = _ :=
      tick_map hf l i.offer i.sinkReady
    rw [List.map_cons, run_cons, ht, ih, run_cons, List.map_cons]

end Line

end ElasticCore
