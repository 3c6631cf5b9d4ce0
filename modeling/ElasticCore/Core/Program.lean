import ElasticCore.Core.Basic
import ElasticCore.Handshake.Feed

/-! # Programs

A core that is fed the words of a program in order, from consecutive addresses.
-/

namespace ElasticCore.Core

/-- The words of a program as they are offered; addresses wrap around. -/
def program (pc : Word) : List Instruction → List Fetched
  | [] => []
  | w :: ws => { pc, inst := w } :: program (pc + 4) ws

/-- Feeds a program to a core for the given number of ticks. Also returns the core after
each tick. -/
def runProgram (store : Store) (c : Core) (words : List Fetched)
    (mayOffer sinkReady : Nat → Bool) (cycles : Nat) :
    List (Outcome × Core) × Feed Core Fetched :=
  Feed.run
    (fun c fetch ready =>
      let (o, c') := c.tick store fetch ready
      ((o, c'), c'))
    (·.1.accepted) mayOffer sinkReady cycles { machine := c, pending := words }

@[simp] theorem length_program (pc : Word) (ws : List Instruction) :
    (program pc ws).length = ws.length := by
  induction ws generalizing pc with
  | nil => rfl
  | cons w ws ih => simp [program, ih]

end ElasticCore.Core
