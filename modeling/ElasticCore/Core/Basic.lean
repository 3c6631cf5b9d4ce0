import ElasticCore.Cache.Basic
import ElasticCore.Control.Decode
import ElasticCore.Core.Counters
import ElasticCore.Handshake.Line
import ElasticCore.Settings.Basic

/-! # Cores

Instructions are decoded when they are offered, travel through a line of stages, and
retire at its end. While a load stands at the head, the cache is referred to at its
address. A miss holds the load back for the tick, and the repeated reference retires it
with the cached word. All units are evaluated on the registers before the tick.
-/

namespace ElasticCore

structure Fetched where
  pc : Word
  inst : Instruction
  deriving DecidableEq, Repr, Inhabited

/-- A decoded instruction on its way. The default is what a register holds at power-on. -/
structure Entry where
  pc : Word := 0
  inst : Instruction := 0
  /-- The I-type immediate, extended by its sign. -/
  imm : Word := 0
  ctrl : Bundle := {}
  deriving DecidableEq, Repr

instance : Inhabited Entry := ⟨{}⟩

def Isa.entry (isa : Isa) (f : Fetched) : Entry where
  pc := f.pc
  inst := f.inst
  imm := Word.signExtend f.inst.immI.toUInt64 12
  ctrl := isa.decodeInstruction f.inst

structure Retired where
  entry : Entry
  /-- The word read through the cache, for loads. -/
  loaded : Option Word
  deriving DecidableEq, Repr

structure Core where
  isa : Isa
  line : Line Entry
  cache : Cache
  counters : Counters
  trace : Bool
  deriving DecidableEq, Repr

namespace Core

/-- The core that settings describe, with every unit at reset. The units check their parameters
again. -/
def ofSettings (s : Settings) : Except BuildError Core := do
  s.validate
  let line ← Line.ofDepth s.pipeline.stages.toNat
  let cache ← Cache.ofShape s.cache
  return {
    isa := s.pipeline.isa
    line
    cache
    counters := {}
    trace := s.general.trace }

def ready (c : Core) : Bool := c.line.ready

def reset (c : Core) : Core :=
  { c with line := c.line.flush, cache := c.cache.invalidateAll, counters := {} }

structure Outcome where
  accepted : Bool
  retired : Option Retired
  /-- What the cache showed of the word for a load at the head. -/
  lookup : Option Lookup
  reads : List Word
  /-- In order: the cache, the stages from first to last, the retired instruction. -/
  events : List Event

def headLoad (c : Core) : Option Entry := c.line.head.filter (·.ctrl.memRead)

/-- The reference for a load at the head; its address is the immediate alone. -/
def refer (c : Core) (store : Store) : Option Reference :=
  c.headLoad.map fun e => c.cache.refer store e.imm

/-- What leaves the line is retired, a load with the word that its reference shows. -/
def retire (reference : Option Reference) (e : Entry) : Retired where
  entry := e
  loaded := if e.ctrl.memRead then some (reference.elim 0 (·.lookup.data)) else none

def retireEvent (cycle : Nat) (r : Retired) : Event :=
  .retire cycle r.entry.pc r.entry.inst r.entry.ctrl.aluOp r.loaded

def tick (store : Store) (c : Core) (fetch : Option Fetched) (sinkReady : Bool) :
    Outcome × Core :=
  let offer := fetch.elim .empty fun f => .holding (c.isa.entry f)
  let reference := c.refer store
  let lookup := reference.map (·.lookup)
  let advance := sinkReady && lookup.all (·.hit)
  let moved := c.line.evaluate offer advance
  let retired := moved.delivered.map (retire reference)
  let counters := c.counters + .ofTransitions moved.transitions +
    { cycles := 1
      accepted := moved.accepted.toNat
      retired := retired.isSome.toNat
      loads := (retired.any (·.loaded.isSome)).toNat
      cacheHits := (lookup.any (·.hit)).toNat
      cacheMisses := (lookup.any (!·.hit)).toNat
      sinkStalls := (c.line.head.isSome && !advance).toNat }
  let retireEvents := if c.trace then (retired.map (retireEvent counters.cycles)).toList else []
  ( { accepted := moved.accepted
      retired
      lookup
      reads := reference.elim [] (·.reads)
      events := (reference.map (·.event)).toList ++ moved.events ++ retireEvents },
    { c with
      line := c.line.commit moved
      cache := c.cache.commit (reference.bind (·.fill))
      counters })

end Core

end ElasticCore
