import ElasticCore.Core.Program
import ElasticCore.Proofs.Core.Order
import ElasticCore.Proofs.Handshake.Flow

/-! # Steady programs

A program is offered without a pause: its next word in every tick, until all words are
accepted. At any time each word has retired, is held or is still to come, and the words
pass the line without a bubble.
-/

namespace ElasticCore.Core

def nextFetch (f : Feed Core Fetched) (mayOffer : Bool) : Option Fetched :=
  if mayOffer then f.pending.head? else none

@[simp] theorem nextFetch_true (f : Feed Core Fetched) : nextFetch f true = f.pending.head? := rfl

/-- A tick of a core and its source. -/
def feedIf (store : Store) (f : Feed Core Fetched) (mayOffer sinkReady : Bool) :
    Outcome × Feed Core Fetched :=
  let t := f.machine.tick store (nextFetch f mayOffer) sinkReady
  (t.1, { machine := t.2, pending := if t.1.accepted then f.pending.tail else f.pending })

/-- The run of a program whose next word is offered in every tick. -/
def stream (store : Store) (c : Core) (words : List Fetched) (sinkReady : Nat → Bool) (n : Nat) :
    List (Outcome × Core) × Feed Core Fetched :=
  c.runProgram store words (fun _ => true) sinkReady n

def streamRetirements (store : Store) (c : Core) (words : List Fetched) (sinkReady : Nat → Bool)
    (n : Nat) : List Retired :=
  retirements ((c.stream store words sinkReady n).1.map (·.1))

/-- What holds after `n` ticks of a steady program. -/
structure Streamed (store : Store) (s : Settings) (words : List Fetched) (n : Nat)
    (f : Feed Core Fetched) : Prop where
  reachable : Reachable store s f.machine
  flowing : Line.Flowing n (f.machine.offer f.pending.head?) f.machine.line.stages
  length_eq : words.length =
    f.machine.counters.retired + f.machine.line.occupancy + f.pending.length
  cycles_eq : f.machine.counters.cycles = n

variable {store : Store} {s : Settings} {c : Core} {words : List Fetched} {n : Nat}
  {f : Feed Core Fetched}

theorem runProgram_succ (store : Store) (c : Core) (words : List Fetched)
    (mayOffer sinkReady : Nat → Bool) (n : Nat) :
    c.runProgram store words mayOffer sinkReady (n + 1) =
      let f := (c.runProgram store words mayOffer sinkReady n).2
      let t := feedIf store f (mayOffer n) (sinkReady n)
      ((c.runProgram store words mayOffer sinkReady n).1 ++ [(t.1, t.2.machine)], t.2) := by
  simp only [runProgram, Feed.run, List.range_succ, clock_append]
  rfl

theorem pending_feedIf (store : Store) (f : Feed Core Fetched) (mayOffer sinkReady : Bool) :
    f.pending = (if (feedIf store f mayOffer sinkReady).1.accepted then nextFetch f mayOffer
      else none).toList ++ (feedIf store f mayOffer sinkReady).2.pending := by
  change f.pending = (if (f.machine.tick store (nextFetch f mayOffer) sinkReady).1.accepted then
    nextFetch f mayOffer else none).toList ++
    (if (f.machine.tick store (nextFetch f mayOffer) sinkReady).1.accepted then f.pending.tail
      else f.pending)
  cases ha : (f.machine.tick store (nextFetch f mayOffer) sinkReady).1.accepted with
  | false => rfl
  | true =>
    have hf := isSome_of_accepted ha
    cases mayOffer with
    | false => cases hf
    | true =>
      cases hp : f.pending with
      | nil => rw [nextFetch, if_pos rfl, hp] at hf; cases hf
      | cons g gs => simp [nextFetch, hp]

theorem length_pending_feedIf (store : Store) (f : Feed Core Fetched) (mayOffer sinkReady : Bool) :
    f.pending.length = (feedIf store f mayOffer sinkReady).1.accepted.toNat +
      (feedIf store f mayOffer sinkReady).2.pending.length := by
  have hp := congrArg List.length (pending_feedIf store f mayOffer sinkReady)
  rw [List.length_append, length_toList] at hp
  rw [hp]
  cases ha : (feedIf store f mayOffer sinkReady).1.accepted with
  | false => rfl
  | true => rw [if_pos rfl, isSome_of_accepted ha]

@[simp] theorem stream_zero (sinkReady : Nat → Bool) :
    c.stream store words sinkReady 0 = ([], { machine := c, pending := words }) := rfl

theorem stream_succ (store : Store) (c : Core) (words : List Fetched) (sinkReady : Nat → Bool)
    (n : Nat) :
    c.stream store words sinkReady (n + 1) =
      let t := feedIf store (c.stream store words sinkReady n).2 true (sinkReady n)
      ((c.stream store words sinkReady n).1 ++ [(t.1, t.2.machine)], t.2) :=
  runProgram_succ store c words (fun _ => true) sinkReady n

theorem streamRetirements_succ (store : Store) (c : Core) (words : List Fetched)
    (sinkReady : Nat → Bool) (n : Nat) :
    streamRetirements store c words sinkReady (n + 1) =
      streamRetirements store c words sinkReady n ++
        (feedIf store (c.stream store words sinkReady n).2 true (sinkReady n)).1.retired.toList := by
  rw [streamRetirements, stream_succ, List.map_append, retirements_append]
  simp [streamRetirements]

theorem AtReset.streamed (h : AtReset store s c) (words : List Fetched) :
    Streamed store s words 0 { machine := c, pending := words } where
  reachable := h.reachable
  flowing := by
    rw [h.line.eq]
    exact Line.flowing_replicate_reset _ _
  length_eq := by
    rw [h.counters_eq, ← Line.length_items, h.line.items_eq]
    simp
  cycles_eq := by rw [h.counters_eq]

theorem Streamed.feedIf (h : Streamed store s words n f) (sinkReady : Bool) :
    Streamed store s words (n + 1) (feedIf store f true sinkReady).2 where
  reachable := h.reachable.tick _ _
  flowing := by
    refine h.flowing.successors h.reachable.sound.line.sound (fun ho => ?_) _
    rw [valid_offer] at ho ⊢
    cases hp : f.pending with
    | nil => simp [Core.feedIf, hp] at ho
    | cons w ws => rfl
  length_eq := by
    have hl := h.reachable.sound.occupancy_tick f.pending.head? sinkReady
    have hp := length_pending_feedIf store f true sinkReady
    have hw := h.length_eq
    simp only [Core.feedIf, nextFetch_true, counters_retired_tick] at hp ⊢
    omega
  cycles_eq := by
    rw [← h.cycles_eq]
    exact cycles_tick store f.machine f.pending.head? sinkReady

/-- Every tick of a steady program keeps the words and makes no bubble. -/
theorem AtReset.streamed_stream (h : AtReset store s c) (words : List Fetched)
    (sinkReady : Nat → Bool) (n : Nat) :
    Streamed store s words n (c.stream store words sinkReady n).2 := by
  induction n with
  | zero => exact h.streamed words
  | succ n ih =>
    rw [stream_succ]
    exact ih.feedIf (sinkReady n)

end ElasticCore.Core
