import ElasticCore.Event

/-! # Stages

A stage stands between a producer and a consumer. An item passes an interface exactly
when one side is valid and the other ready. Readiness is registered: a consumer's stall
becomes visible upstream one tick late, and the item accepted meanwhile waits in a
second slot until the first is free.
-/

namespace ElasticCore

/-- A register for one item; without `valid` the data mean nothing. -/
structure Slot (α : Type) where
  valid : Bool
  data : α
  deriving DecidableEq, Repr

namespace Slot

variable {α : Type}

def empty [Inhabited α] : Slot α := ⟨false, default⟩

instance [Inhabited α] : Inhabited (Slot α) := ⟨empty⟩

def holding (a : α) : Slot α := ⟨true, a⟩

def item? (s : Slot α) : Option α := if s.valid then some s.data else none

@[simp] theorem item?_empty [Inhabited α] : (empty : Slot α).item? = none := rfl

@[simp] theorem item?_holding (a : α) : (holding a).item? = some a := rfl

end Slot

/-- What moved within a stage during a tick. -/
inductive Transition
  /-- The output slot took the offered item. -/
  | load
  /-- The output slot was kept, and the offered item went to the buffer. -/
  | overflow
  /-- The buffered item moved to the output slot. -/
  | drain
  /-- The output slot was emptied. -/
  | consume
  | hold
  deriving DecidableEq, Repr

/-- Only movements through the buffer are reported. -/
def Transition.event? : Transition → Option Event
  | overflow => some .overflow
  | drain => some .drain
  | load | consume | hold => none

structure Stage (α : Type) where
  /-- What the consumer sees. -/
  output : Slot α
  /-- Whether the producer's item is accepted in this tick. -/
  ready : Bool
  /-- Where an item waits behind a full output. -/
  buffer : Slot α
  deriving DecidableEq, Repr

namespace Stage

variable {α : Type}

def reset [Inhabited α] : Stage α where
  output := .empty
  ready := true
  buffer := .empty

instance [Inhabited α] : Inhabited (Stage α) := ⟨reset⟩

def occupancy (s : Stage α) : Nat := s.output.valid.toNat + s.buffer.valid.toNat

/-- The items held, the one that leaves first in front. -/
def items (s : Stage α) : List α := s.output.item?.toList ++ s.buffer.item?.toList

structure Outcome (α : Type) where
  accepted : Bool
  emitted : Option α
  transition : Transition
  next : Stage α

/-- The movement of a tick. A free output takes an offer before anything else moves, and
a full one sends it to the buffer. -/
def move [Inhabited α] (s : Stage α) (offer : Slot α) (outReady : Bool) : Transition × Stage α :=
  if offer.valid && s.ready then
    if !s.output.valid || outReady then
      (.load, { s with output := offer })
    else
      (.overflow, { s with ready := false, buffer := offer })
  else if !s.ready && outReady then
    (.drain, { output := s.buffer, ready := true, buffer := .empty })
  else if s.output.valid && outReady then
    (.consume, { s with output.valid := false })
  else
    (.hold, s)

def evaluate [Inhabited α] (s : Stage α) (offer : Slot α) (outReady : Bool) : Outcome α where
  accepted := offer.valid && s.ready
  emitted := if outReady then s.output.item? else none
  transition := (s.move offer outReady).1
  next := (s.move offer outReady).2

@[simp] theorem items_reset [Inhabited α] : (reset : Stage α).items = [] := rfl

theorem length_items (s : Stage α) : s.items.length = s.occupancy := by
  simp only [items, occupancy, Slot.item?]
  cases s.output.valid <;> cases s.buffer.valid <;> rfl

end Stage

end ElasticCore
