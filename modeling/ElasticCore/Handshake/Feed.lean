import ElasticCore.Clock

/-! # Feeds

A source with a queue of items in front of a machine. In a tick that allows an offer
the first item is offered, and it leaves the queue when the machine accepts it.
-/

namespace ElasticCore

/-- A machine and the items still to be offered to it. -/
structure Feed (σ β : Type) where
  machine : σ
  pending : List β

namespace Feed

variable {σ β ο : Type}

def cyclic (bits : List Bool) (k : Nat) : Bool := bits[k % bits.length]?.getD false

/-- A tick of the machine; `mayOffer` is the source's side of it. -/
def tick (machineTick : σ → Option β → Bool → ο × σ) (accepted : ο → Bool) (f : Feed σ β)
    (mayOffer sinkReady : Bool) : ο × Feed σ β :=
  let (o, s) := machineTick f.machine (if mayOffer then f.pending.head? else none) sinkReady
  (o, { machine := s, pending := if accepted o then f.pending.tail else f.pending })

def run (machineTick : σ → Option β → Bool → ο × σ) (accepted : ο → Bool)
    (mayOffer sinkReady : Nat → Bool) (cycles : Nat) (f : Feed σ β) : List ο × Feed σ β :=
  clock (fun f k => f.tick machineTick accepted (mayOffer k) (sinkReady k)) f (List.range cycles)

end Feed

end ElasticCore
