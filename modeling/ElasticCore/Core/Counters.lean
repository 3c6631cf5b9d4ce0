import ElasticCore.Handshake.Stage

/-! # Counters

What is counted during a run. Each tick contributes counters of its own, and these are
added up. The numbers have no limit; registers of 64 bits agree with them while they are
below `2 ^ 64`, which the number of ticks bounds (`Core.AtReset.counters_below`).
-/

namespace ElasticCore

structure Counters where
  cycles : Nat := 0
  accepted : Nat := 0
  retired : Nat := 0
  /-- Loads among the retired instructions. -/
  loads : Nat := 0
  cacheHits : Nat := 0
  cacheMisses : Nat := 0
  /-- Ticks in which an instruction stood at the head and was held back. -/
  sinkStalls : Nat := 0
  overflows : Nat := 0
  drains : Nat := 0
  deriving DecidableEq, Repr, Inhabited

namespace Counters

instance : Add Counters where
  add a b :=
    { cycles := a.cycles + b.cycles
      accepted := a.accepted + b.accepted
      retired := a.retired + b.retired
      loads := a.loads + b.loads
      cacheHits := a.cacheHits + b.cacheHits
      cacheMisses := a.cacheMisses + b.cacheMisses
      sinkStalls := a.sinkStalls + b.sinkStalls
      overflows := a.overflows + b.overflows
      drains := a.drains + b.drains }

/-- The contribution of what the stages did in a tick. -/
def ofTransitions (ts : List Transition) : Counters where
  overflows := ts.count .overflow
  drains := ts.count .drain

/-- A share of a whole; nothing of nothing is zero. -/
def ratio (part whole : Nat) : Float :=
  if whole = 0 then 0.0 else part.toFloat / whole.toFloat

def ipc (c : Counters) : Float := ratio c.retired c.cycles

def hitRate (c : Counters) : Float := ratio c.cacheHits (c.cacheHits + c.cacheMisses)

structure Below (k : Counters) (n : Nat) : Prop where
  cycles : k.cycles ≤ n
  accepted : k.accepted ≤ n
  retired : k.retired ≤ n
  loads : k.loads ≤ n
  cacheHits : k.cacheHits ≤ n
  cacheMisses : k.cacheMisses ≤ n
  sinkStalls : k.sinkStalls ≤ n
  overflows : k.overflows ≤ n
  drains : k.drains ≤ n

@[simp] theorem cycles_add (a b : Counters) : (a + b).cycles = a.cycles + b.cycles := rfl

@[simp] theorem accepted_add (a b : Counters) : (a + b).accepted = a.accepted + b.accepted := rfl

@[simp] theorem retired_add (a b : Counters) : (a + b).retired = a.retired + b.retired := rfl

@[simp] theorem loads_add (a b : Counters) : (a + b).loads = a.loads + b.loads := rfl

@[simp] theorem cacheHits_add (a b : Counters) :
    (a + b).cacheHits = a.cacheHits + b.cacheHits := rfl

@[simp] theorem cacheMisses_add (a b : Counters) :
    (a + b).cacheMisses = a.cacheMisses + b.cacheMisses := rfl

@[simp] theorem sinkStalls_add (a b : Counters) :
    (a + b).sinkStalls = a.sinkStalls + b.sinkStalls := rfl

@[simp] theorem overflows_add (a b : Counters) :
    (a + b).overflows = a.overflows + b.overflows := rfl

@[simp] theorem drains_add (a b : Counters) : (a + b).drains = a.drains + b.drains := rfl

theorem Below.add {a b : Counters} {m n : Nat} (ha : a.Below m) (hb : b.Below n) :
    (a + b).Below (m + n) where
  cycles := Nat.add_le_add ha.cycles hb.cycles
  accepted := Nat.add_le_add ha.accepted hb.accepted
  retired := Nat.add_le_add ha.retired hb.retired
  loads := Nat.add_le_add ha.loads hb.loads
  cacheHits := Nat.add_le_add ha.cacheHits hb.cacheHits
  cacheMisses := Nat.add_le_add ha.cacheMisses hb.cacheMisses
  sinkStalls := Nat.add_le_add ha.sinkStalls hb.sinkStalls
  overflows := Nat.add_le_add ha.overflows hb.overflows
  drains := Nat.add_le_add ha.drains hb.drains

theorem below_zero : ({} : Counters).Below 0 := by
  constructor <;> exact Nat.le_refl 0

theorem below_ofTransitions (ts : List Transition) : (ofTransitions ts).Below ts.length := by
  constructor
  case overflows => exact List.count_le_length
  case drains => exact List.count_le_length
  all_goals exact Nat.zero_le _

end Counters

end ElasticCore
