import ElasticCore.BuildError
import ElasticCore.Handshake.Stage

/-! # Lines of stages

Stages in a row, each offered what its predecessor shows and seeing whether its
successor is ready. All of them are evaluated on the registers before the tick, so an
item moves at most one stage per tick and the order of evaluation does not matter.
-/

namespace ElasticCore

/-- Stages between a source and a sink, first stage first. -/
structure Line (α : Type) where
  stages : List (Stage α)
  /-- The item delivered last. -/
  sink : α
  deriving DecidableEq, Repr

namespace Line

variable {α : Type}

/-- Whether a row of stages accepts an item, when the consumer behind it does as given. -/
def readiness (sinkReady : Bool) : List (Stage α) → Bool
  | [] => sinkReady
  | s :: _ => s.ready

def outcomes [Inhabited α] (sinkReady : Bool) : Slot α → List (Stage α) → List (Stage.Outcome α)
  | _, [] => []
  | offer, s :: rest =>
    s.evaluate offer (readiness sinkReady rest) :: outcomes sinkReady s.output rest

structure Outcome (α : Type) where
  accepted : Bool
  delivered : Option α
  transitions : List Transition
  stages : List (Stage α)

def Outcome.events (o : Outcome α) : List Event := o.transitions.filterMap Transition.event?

def ofDepth [Inhabited α] (depth : Nat) : Except BuildError (Line α) :=
  if depth = 0 then .error .noStages
  else .ok { stages := List.replicate depth .reset, sink := default }

def depth (l : Line α) : Nat := l.stages.length

def ready (l : Line α) : Bool := readiness false l.stages

def head (l : Line α) : Option α := l.stages.getLast?.bind (·.output.item?)

def occupancy (l : Line α) : Nat := (l.stages.map Stage.occupancy).sum

/-- The items held, the one that leaves first in front. -/
def items (l : Line α) : List α := l.stages.reverse.flatMap Stage.items

/-- The item delivered last; a stall hides it and leaves the handshake alone. -/
def output [Inhabited α] (l : Line α) (stall : Bool) : α := if stall then default else l.sink

def flush [Inhabited α] (l : Line α) : Line α where
  stages := l.stages.map fun _ => .reset
  sink := default

def evaluate [Inhabited α] (l : Line α) (offer : Slot α) (sinkReady : Bool) : Outcome α :=
  let os := outcomes sinkReady offer l.stages
  { accepted := os.head?.any (·.accepted)
    delivered := os.getLast?.bind (·.emitted)
    transitions := os.map (·.transition)
    stages := os.map (·.next) }

def commit (l : Line α) (o : Outcome α) : Line α where
  stages := o.stages
  sink := o.delivered.getD l.sink

def tick [Inhabited α] (l : Line α) (offer : Slot α) (sinkReady : Bool) : Outcome α × Line α :=
  let o := l.evaluate offer sinkReady
  (o, l.commit o)

@[simp] theorem length_outcomes [Inhabited α] (sinkReady : Bool) (offer : Slot α)
    (stages : List (Stage α)) : (outcomes sinkReady offer stages).length = stages.length := by
  induction stages generalizing offer with
  | nil => rfl
  | cons s rest ih => simp [outcomes, ih]

@[simp] theorem depth_tick [Inhabited α] (l : Line α) (offer : Slot α) (sinkReady : Bool) :
    (l.tick offer sinkReady).2.depth = l.depth := by
  simp [tick, commit, evaluate, depth]

theorem length_items (l : Line α) : l.items.length = l.occupancy := by
  simp [items, occupancy, List.length_flatMap, Stage.length_items,
    List.sum_reverse]

end Line

end ElasticCore
