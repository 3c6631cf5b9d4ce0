import ElasticCore.Word
import ElasticCore.Control.AluOp
import ElasticCore.Instruction.Fields

/-! # Events

What the units report while they are evaluated, and how an event reads in a log: its
level, its message and its named values.
-/

namespace ElasticCore

inductive Level
  | debug
  | trace
  deriving DecidableEq, Repr

inductive Event
  | cacheHit (addr : Word) (index : Nat)
  /-- A word was fetched from behind the cache; `data` is the word as it is cached. -/
  | cacheMiss (addr : Word) (index : Nat) (tag data : Word)
  | overflow
  | drain
  /-- An instruction left the core in the given cycle; the first cycle is 1. -/
  | retire (cycle : Nat) (pc : Word) (inst : Instruction) (op : AluOp) (loaded : Option Word)
  deriving DecidableEq, Repr

namespace Event

def level : Event → Level
  | cacheHit .. => .trace
  | cacheMiss .. => .debug
  | overflow => .trace
  | drain => .trace
  | retire .. => .debug

def message : Event → String
  | cacheHit .. => "dcache hit"
  | cacheMiss .. => "dcache miss, filling block"
  | overflow => "skid stage overflow: buffering upstream item"
  | drain => "skid stage drain: releasing buffered item"
  | retire .. => "retire"

/-- The values of an event by name; a retired instruction has loaded data only if it
is a load. -/
def fields : Event → List (String × Nat)
  | cacheHit addr index => [("addr", addr.toNat), ("index", index)]
  | cacheMiss addr index tag data =>
    [("addr", addr.toNat), ("index", index), ("tag", tag.toNat), ("data", data.toNat)]
  | overflow => []
  | drain => []
  | retire cycle pc inst op loaded =>
    [("cycle", cycle), ("pc", pc.toNat), ("inst", inst.toNat), ("alu_op", op.bits.toNat)] ++
      (loaded.map fun w => ("load_data", w.toNat)).toList

end Event

end ElasticCore
