import ElasticCore.Proofs.Cache.Inclusion
import ElasticCore.Proofs.Core.Balance
import ElasticCore.Proofs.Core.Program

/-! # Workloads

A program is offered with pauses, to a sink that may stall. When the pauses and stalls are
given, so is the run of every core. At any time the words of the program have retired, are
held or are still to come, in their order. The cache has seen the loads among the words that
have reached the head, each of them once or several times in succession, which is the same.
-/

namespace ElasticCore.Core

/-- A program, the ticks in which its next word may be offered, and those in which the sink is
ready. -/
structure Workload where
  words : List Fetched
  mayOffer : Nat → Bool
  sinkReady : Nat → Bool

def requests (es : List Entry) : List Cache.Request :=
  (es.filter (·.ctrl.memRead)).map (.lookup ·.imm)

namespace Workload

variable (w : Workload) (store : Store) (c : Core) (n : Nat)

def entries (isa : Isa) : List Entry := w.words.map isa.entry

def after : Feed Core Fetched := (c.runProgram store w.words w.mayOffer w.sinkReady n).2

def outcomes : List Outcome :=
  (c.runProgram store w.words w.mayOffer w.sinkReady n).1.map (·.1)

/-- The number of instructions that were at the head in one of the first `n` ticks. -/
def reached : Nat → Nat
  | 0 => 0
  | n + 1 => (w.after store c n).machine.counters.retired +
      (w.after store c n).machine.line.head.isSome.toNat

def tickAt : Outcome × Feed Core Fetched :=
  feedIf store (w.after store c n) (w.mayOffer n) (w.sinkReady n)

@[simp] theorem after_zero : w.after store c 0 = { machine := c, pending := w.words } := rfl

@[simp] theorem outcomes_zero : w.outcomes store c 0 = [] := rfl

theorem after_succ : w.after store c (n + 1) = (w.tickAt store c n).2 := by
  rw [after, runProgram_succ]
  rfl

theorem outcomes_succ :
    w.outcomes store c (n + 1) = w.outcomes store c n ++ [(w.tickAt store c n).1] := by
  rw [outcomes, runProgram_succ, List.map_append]
  rfl

@[simp] theorem length_outcomes : (w.outcomes store c n).length = n := by
  induction n with
  | zero => rfl
  | succ n ih => rw [outcomes_succ, List.length_append, ih]; rfl

variable {n} {m : Nat}

theorem take_outcomes (hm : m ≤ n) : (w.outcomes store c n).take m = w.outcomes store c m := by
  induction n, hm using Nat.le_induction with
  | base => rw [List.take_of_length_le (Nat.le_of_eq (w.length_outcomes store c m))]
  | succ n hm ih =>
    rw [outcomes_succ, List.take_append_of_le_length (by rwa [length_outcomes]), ih]

theorem getElem?_outcomes (hm : m < n) :
    (w.outcomes store c n)[m]? = some (w.tickAt store c m).1 := by
  have ht := w.take_outcomes store c hm
  rw [outcomes_succ] at ht
  have hg := congrArg (·[m]?) ht
  simpa [List.getElem?_append_right] using hg

end Workload

/-- What holds of a core and its source during a program of which `k` words have reached the
head. -/
structure Fed (store : Store) (s : Settings) (w : Workload) (k : Nat) (f : Feed Core Fetched) :
    Prop where
  reachable : Reachable store s f.machine
  length_eq : w.words.length =
    f.machine.counters.retired + f.machine.line.occupancy + f.pending.length
  drop_eq : (w.entries s.pipeline.isa).drop f.machine.counters.retired =
    f.machine.line.items ++ f.pending.map s.pipeline.isa.entry
  retired_le : f.machine.counters.retired ≤ k
  le_retired : k ≤ f.machine.counters.retired + f.machine.line.head.isSome.toNat
  cache_eq : f.machine.cache = (Cache.ofGeometry f.machine.cache.geometry).serveAll store
    (requests ((w.entries s.pipeline.isa).take k))

variable {store : Store} {s : Settings} {w : Workload} {c : Core} {k n : Nat}
  {f : Feed Core Fetched} {e : Entry} {es : List Entry}

theorem requests_take_succ (he : es[n]? = some e) :
    requests (es.take (n + 1)) =
      requests (es.take n) ++ if e.ctrl.memRead then [.lookup e.imm] else [] := by
  rw [List.take_add_one, he, requests, requests, List.filter_append, List.map_append]
  cases hm : e.ctrl.memRead <;> simp [hm]

theorem Fed.getElem?_retired (h : Fed store s w k f) (he : f.machine.line.head = some e) :
    (w.entries s.pipeline.isa)[f.machine.counters.retired]? = some e := by
  obtain ⟨es, hi⟩ := Line.exists_items_eq_cons he
  rw [← List.head?_drop, h.drop_eq, hi]
  rfl

theorem Fed.drop_tick (h : Fed store s w k f) (mayOffer sinkReady : Bool) :
    (w.entries s.pipeline.isa).drop (feedIf store f mayOffer sinkReady).2.machine.counters.retired =
      (feedIf store f mayOffer sinkReady).2.machine.line.items ++
        (feedIf store f mayOffer sinkReady).2.pending.map s.pipeline.isa.entry := by
  have hi : f.machine.line.items ++ ((if (feedIf store f mayOffer sinkReady).1.accepted then
        nextFetch f mayOffer else none).map s.pipeline.isa.entry).toList =
      ((feedIf store f mayOffer sinkReady).1.retired.map (·.entry)).toList ++
        (feedIf store f mayOffer sinkReady).2.machine.line.items :=
    h.reachable.sound.toWired.items_tick store (nextFetch f mayOffer) sinkReady
  have hp := congrArg (List.map s.pipeline.isa.entry) (pending_feedIf store f mayOffer sinkReady)
  have hr : ((feedIf store f mayOffer sinkReady).1.retired.map (·.entry)).toList.length =
      (feedIf store f mayOffer sinkReady).1.retired.isSome.toNat := by
    rw [length_toList, Option.isSome_map]
  calc (w.entries s.pipeline.isa).drop _
      = (f.machine.line.items ++ f.pending.map s.pipeline.isa.entry).drop
          (feedIf store f mayOffer sinkReady).1.retired.isSome.toNat := by
        rw [← h.drop_eq, List.drop_drop]
        rfl
    _ = _ := by
        rw [hp, List.map_append, ← Option.toList_map, ← List.append_assoc, hi, List.append_assoc]
        exact List.drop_left' hr

/-- A tick refers to the cache for the load at the head. Until the load retires, it makes no
difference how often. -/
theorem cache_tick_eq_serveAll {base : Cache} (hh : ∀ e, c.line.head = some e → es[n]? = some e)
    (hn : n ≤ k) (hk : k ≤ n + c.line.head.isSome.toNat)
    (hc : c.cache = base.serveAll store (requests (es.take k))) (fetch : Option Fetched)
    (sinkReady : Bool) :
    (c.tick store fetch sinkReady).2.cache =
      base.serveAll store (requests (es.take (n + c.line.head.isSome.toNat))) := by
  cases he : c.line.head with
  | none =>
    rw [he] at hk
    obtain rfl : n = k := Nat.le_antisymm hn hk
    rw [cache_tick_of_no_load (by rw [headLoad, he]; rfl)]
    exact hc
  | some e =>
    rw [he] at hk
    have hs := requests_take_succ (hh e he)
    cases hm : e.ctrl.memRead with
    | false =>
      rw [hm, if_neg Bool.false_ne_true, List.append_nil] at hs
      rw [cache_tick_of_no_load (headLoad_eq_none he hm), hc]
      obtain rfl | rfl : k = n ∨ k = n + 1 := by simp at hk; omega
      · exact (congrArg _ hs).symm
      · rfl
    | true =>
      rw [hm, if_pos rfl] at hs
      rw [cache_tick_of_load (headLoad_eq_some_iff.mpr ⟨he, hm⟩), hc, Option.isSome_some,
        Bool.toNat_true, hs, Cache.serveAll_append_singleton]
      obtain rfl | rfl : k = n ∨ k = n + 1 := by simp at hk; omega
      · rfl
      · rw [hs, Cache.serveAll_append_singleton]
        exact Cache.lookup_lookup ..

theorem Sound.head_tick (h : Sound store s c) (fetch : Option Fetched) (sinkReady : Bool) :
    (c.tick store fetch sinkReady).1.retired.isSome.toNat ≤ c.line.head.isSome.toNat ∧
      c.line.head.isSome.toNat ≤ (c.tick store fetch sinkReady).1.retired.isSome.toNat +
        (c.tick store fetch sinkReady).2.line.head.isSome.toNat := by
  rw [h.isSome_retired_tick]
  cases ha : c.advance store sinkReady with
  | true => rw [Bool.and_true]; exact ⟨Nat.le_refl _, Nat.le_add_right _ _⟩
  | false =>
    cases he : c.line.head with
    | none => exact ⟨Nat.le_refl _, Nat.zero_le _⟩
    | some e =>
      rw [h.head_tick_of_held ha he fetch]
      exact ⟨Nat.zero_le _, Nat.le_refl _⟩

theorem Fed.tick (h : Fed store s w k f) (mayOffer sinkReady : Bool) :
    Fed store s w (f.machine.counters.retired + f.machine.line.head.isSome.toNat)
      (feedIf store f mayOffer sinkReady).2 where
  reachable := h.reachable.tick _ _
  length_eq := by
    have ho := h.reachable.sound.occupancy_tick (nextFetch f mayOffer) sinkReady
    have hp := length_pending_feedIf store f mayOffer sinkReady
    have hl := h.length_eq
    simp only [feedIf, counters_retired_tick] at hp ⊢
    omega
  drop_eq := h.drop_tick mayOffer sinkReady
  retired_le := by
    have hh := (h.reachable.sound.head_tick (nextFetch f mayOffer) sinkReady).1
    exact Nat.add_le_add_left hh _
  le_retired := by
    have hh := (h.reachable.sound.head_tick (nextFetch f mayOffer) sinkReady).2
    exact (Nat.add_le_add_left hh _).trans (Nat.le_of_eq (Nat.add_assoc ..).symm)
  cache_eq := by
    have hg := geometry_tick store f.machine (nextFetch f mayOffer) sinkReady
    change _ = (Cache.ofGeometry (f.machine.tick store (nextFetch f mayOffer)
      sinkReady).2.cache.geometry).serveAll store _
    rw [hg]
    exact cache_tick_eq_serveAll (fun e he => h.getElem?_retired he) h.retired_le h.le_retired
      h.cache_eq _ _

theorem AtReset.fed_zero (h : AtReset store s c) (w : Workload) :
    Fed store s w 0 { machine := c, pending := w.words } where
  reachable := h.reachable
  length_eq := by
    rw [h.counters_eq, ← Line.length_items, h.line.items_eq]
    simp
  drop_eq := by
    rw [h.counters_eq, h.line.items_eq]
    rfl
  retired_le := by rw [h.counters_eq]
  le_retired := Nat.zero_le _
  cache_eq := h.cache_eq

theorem AtReset.fed (h : AtReset store s c) (w : Workload) (n : Nat) :
    Fed store s w (w.reached store c n) (w.after store c n) := by
  induction n with
  | zero => exact h.fed_zero w
  | succ n ih =>
    rw [w.after_succ]
    exact ih.tick _ _

theorem AtReset.counts_eq (h : AtReset store s c) (w : Workload) (n : Nat) :
    (w.outcomes store c n).countP (·.accepted) =
        (w.after store c n).machine.counters.accepted ∧
      (retirements (w.outcomes store c n)).length =
        (w.after store c n).machine.counters.retired := by
  induction n with
  | zero => rw [w.after_zero, h.counters_eq]; exact ⟨rfl, rfl⟩
  | succ n ih =>
    rw [w.outcomes_succ, w.after_succ, countP_concat, retirements_append, List.length_append,
      ih.1, ih.2]
    have hk : (w.tickAt store c n).2.machine.counters.accepted =
        (w.after store c n).machine.counters.accepted + (w.tickAt store c n).1.accepted.toNat :=
      counters_accepted_tick ..
    constructor
    · exact hk.symm
    · rw [retirements_cons, retirements_nil, List.append_nil, length_toList]
      rfl

end ElasticCore.Core
