import ElasticCore.Proofs.Cache.Reads
import ElasticCore.Proofs.Core.Balance

/-! # Reads of a core

A core asks the store for the word of a load at the head whose reference misses, and for nothing
else, whatever is fetched, held back or reset. A tick reads at most one word, and since a reset as
many are read as misses are counted.
-/

namespace ElasticCore.Core

inductive Step
  | tick (i : Input)
  | reset
  deriving DecidableEq, Repr

/-- The ticks among some steps: the core that each begins with, and what it shows. -/
def history (store : Store) : Core → List Step → List (Core × Outcome)
  | _, [] => []
  | c, .tick i :: steps =>
    let t := c.tick store i.fetch i.sinkReady
    (c, t.1) :: history store t.2 steps
  | c, .reset :: steps => history store c.reset steps

def readAddresses (ts : List (Core × Outcome)) : List Word := ts.flatMap (·.2.reads)

def missedAddresses (s : CacheShape) (ts : List (Core × Outcome)) : List Word :=
  (ts.filter (·.2.missed)).filterMap fun t => t.1.headLoad.map fun e => s.masked e.imm

variable {store store' : Store} {s : Settings} {c : Core} {fetch : Option Fetched}
  {sinkReady : Bool}

/-- Of the store, a tick depends on the words that it reads. -/
theorem tick_congr (h : ∀ a ∈ (c.tick store fetch sinkReady).1.reads, store' a = store a) :
    c.tick store' fetch sinkReady = c.tick store fetch sinkReady := by
  have hr : c.refer store' = c.refer store := by
    rw [reads_tick] at h
    cases he : c.headLoad with
    | none => rw [refer_eq_none he, refer_eq_none he]
    | some e =>
      rw [refer_eq_some he, Option.elim_some] at h
      rw [refer_eq_some he, refer_eq_some he, Cache.refer_congr h]
  unfold tick
  rw [hr]

theorem length_reads_tick (store : Store) (c : Core) (fetch : Option Fetched)
    (sinkReady : Bool) : (c.tick store fetch sinkReady).1.reads.length =
      (c.tick store fetch sinkReady).1.missed.toNat := by
  rw [reads_tick, Outcome.missed, lookup_tick]
  cases he : c.headLoad with
  | none => rw [refer_eq_none he]; rfl
  | some e =>
    rw [refer_eq_some he, Option.elim_some, Cache.reads_refer, Option.map_some, Option.any_some,
      Cache.lookup_refer, Probe.lookup]
    cases (c.cache.probe e.imm).hit <;> rfl

theorem missedAddresses_singleton (s : CacheShape) (t : Core × Outcome) :
    missedAddresses s [t] =
      if t.2.missed then (t.1.headLoad.map fun e => s.masked e.imm).toList else [] := by
  cases hm : t.2.missed <;> cases he : t.1.headLoad <;> simp [missedAddresses, hm, he]

theorem Wired.reads_tick_eq (h : Wired s c) (store : Store) (fetch : Option Fetched)
    (sinkReady : Bool) : (c.tick store fetch sinkReady).1.reads =
      missedAddresses s.cache [(c, (c.tick store fetch sinkReady).1)] := by
  rw [missedAddresses_singleton]
  cases hm : (c.tick store fetch sinkReady).1.missed with
  | false =>
    apply List.eq_nil_of_length_eq_zero
    rw [length_reads_tick, hm]
    rfl
  | true =>
    obtain ⟨e, he, hh⟩ := missed_tick_iff.mp hm
    rw [h.reads_tick_of_missed he hh, he]
    rfl

theorem missedAddresses_cons (s : CacheShape) (t : Core × Outcome) (ts : List (Core × Outcome)) :
    missedAddresses s (t :: ts) = missedAddresses s [t] ++ missedAddresses s ts := by
  unfold missedAddresses
  rw [← List.filterMap_append, ← List.filter_append, List.singleton_append]

theorem readAddresses_cons (t : Core × Outcome) (ts : List (Core × Outcome)) :
    readAddresses (t :: ts) = t.2.reads ++ readAddresses ts := List.flatMap_cons

theorem Wired.readAddresses_history (h : Wired s c) (store : Store) (steps : List Step) :
    readAddresses (c.history store steps) = missedAddresses s.cache (c.history store steps) := by
  induction steps generalizing c with
  | nil => rfl
  | cons step steps ih =>
    cases step with
    | tick i =>
      rw [history, readAddresses_cons, missedAddresses_cons, h.reads_tick_eq,
        ih (h.tick store i.fetch i.sinkReady)]
    | reset => exact ih h.reset

theorem length_reads_history (store : Store) (c : Core) (steps : List Step) :
    ∀ t ∈ c.history store steps, t.2.reads.length ≤ 1 := by
  induction steps generalizing c with
  | nil => exact List.forall_mem_nil _
  | cons step steps ih =>
    cases step with
    | tick i =>
      refine List.forall_mem_cons.mpr ⟨?_, ih _⟩
      rw [length_reads_tick]
      exact Bool.toNat_le _
    | reset => exact ih _

theorem history_congr {steps : List Step}
    (h : ∀ a ∈ readAddresses (c.history store steps), store' a = store a) :
    c.history store' steps = c.history store steps := by
  induction steps generalizing c with
  | nil => rfl
  | cons step steps ih =>
    cases step with
    | tick i =>
      rw [history, readAddresses_cons] at h
      obtain ⟨ht, hs⟩ := List.forall_mem_append.mp h
      rw [history, history, tick_congr ht, ih hs]
    | reset => exact ih h

theorem cacheMisses_run (store : Store) (c : Core) (is : List Input) :
    (c.run store is).2.counters.cacheMisses =
      c.counters.cacheMisses + ((c.run store is).1.flatMap (·.reads)).length := by
  induction is generalizing c with
  | nil => rfl
  | cons i is ih =>
    rw [run_cons, ih, cacheMisses_tick_eq, List.flatMap_cons, List.length_append,
      length_reads_tick, Nat.add_assoc]

/-- The addresses read from the store are those of the references that missed, in this order and
modulo the size of the address space, both of a cache whose references are evaluated and committed
at will, and of a core that is ticked and reset. No word of the store that is not read makes a
difference. A tick reads at most once, and the reads since a reset number the misses counted, also
with 64 bits while they are fewer than `2 ^ 64`. -/
theorem store_read_for_misses (store : Store) :
    (∀ (s : CacheShape) (c : Cache), Cache.ofShape s = .ok c → ∀ ps : List Cache.Phase,
      let t : Cache.Session := { cache := c }
      let rs := t.references store ps
      Cache.readAddresses rs = Cache.missedAddresses s rs ∧
        ∀ store' : Store, (∀ a ∈ Cache.readAddresses rs, store' a = store a) →
          t.references store' ps = rs ∧ t.run store' ps = t.run store ps) ∧
    ∀ s : Settings,
      (∀ c, ofSettings s = .ok c → ∀ steps : List Step,
        let ts := c.history store steps
        readAddresses ts = missedAddresses s.cache ts ∧ (∀ t ∈ ts, t.2.reads.length ≤ 1) ∧
          ∀ store' : Store, (∀ a ∈ readAddresses ts, store' a = store a) →
            c.history store' steps = ts) ∧
      ∀ c, AtReset store s c → ∀ is : List Input,
        ((c.run store is).1.flatMap (·.reads)).length =
          (c.run store is).2.counters.cacheMisses := by
  refine ⟨fun s c h ps => ?_, fun s => ⟨fun c h steps => ?_, fun c h is => ?_⟩⟩
  · intro t rs
    exact ⟨Cache.Session.readAddresses_references (Cache.ofShape_eq_ok h).1 store ps,
      fun store' ha => Cache.Session.references_congr ha⟩
  · intro ts
    have hw : Wired s c := (sound_of_ofSettings store h).1.toWired
    exact ⟨hw.readAddresses_history store steps, length_reads_history store c steps,
      fun store' ha => history_congr ha⟩
  · rw [cacheMisses_run, h.counters_eq]
    exact (Nat.zero_add _).symm

/-- The cache reads for 3 again after it was invalidated, but not for 9, which is masked to 1. The
core loads from 31 and from 1, is reset, and reads the word at 1 again. The other store has the
same words at the addresses read and no others. -/
theorem store_read_for_misses_evicting :
    let store : Store := fun a => 5 * a + 3
    let store' : Store := fun a => if a ∈ ([1, 2, 3, 31] : List Word) then 5 * a + 3 else 0
    let shape : CacheShape := { dataWidth := 4, addrWidth := 3, numBlocks := 2 }
    let ps : List Cache.Phase :=
      [.probe 1, .commit (some 0), .serve (.lookup 9), .serve (.lookup 3), .serve .invalidateAll,
        .probe 11, .serve (.lookup 2)]
    let s : Settings := { cache := { numBlocks := 2 }, pipeline := { stages := 2 } }
    let before : List Input :=
      [⟨some ⟨0, 0xFFF02003⟩, true⟩, ⟨some ⟨4, 0x00102003⟩, true⟩, ⟨none, true⟩, ⟨none, false⟩,
        ⟨none, true⟩, ⟨none, true⟩]
    let later : List Input :=
      [⟨some ⟨4, 0x00102003⟩, true⟩, ⟨none, true⟩, ⟨none, true⟩, ⟨none, true⟩]
    (∃ c, Cache.ofShape shape = .ok c ∧
      let t : Cache.Session := { cache := c }
      let rs := t.references store ps
      Cache.readAddresses rs = [1, 3, 3, 2] ∧ Cache.missedAddresses shape rs = [1, 3, 3, 2] ∧
        t.references store' ps = rs) ∧
    ∃ c, ofSettings s = .ok c ∧
      let steps := before.map Step.tick ++ .reset :: later.map .tick
      let ts := c.history store steps
      readAddresses ts = [31, 1, 1] ∧ missedAddresses s.cache ts = [31, 1, 1] ∧
        c.history store' steps = ts ∧
        let r := (c.run store before).2.reset
        AtReset store s r ∧ (r.run store later).2.counters.cacheMisses = 1 := by
  intro store store' shape ps s before later
  obtain ⟨hp, hq⟩ := store_read_for_misses store
  obtain ⟨c, hc, hr⟩ : ∃ c, Cache.ofShape shape = .ok c ∧
      Cache.readAddresses (Cache.Session.references store { cache := c } ps) = [1, 3, 3, 2] := by
    subst shape
    exact ⟨_, rfl, by decide +kernel⟩
  obtain ⟨c', hc', hr', hl⟩ : ∃ c, ofSettings s = .ok c ∧
      readAddresses (c.history store (before.map Step.tick ++ .reset :: later.map .tick)) =
        [31, 1, 1] ∧
      ((c.run store before).2.reset.run store later).1.flatMap (·.reads) = [1] := by
    subst s
    refine ⟨_, rfl, ?_, ?_⟩ <;> decide +kernel
  obtain ⟨hm, hs⟩ := hp shape c hc ps
  obtain ⟨hb, ha⟩ := hq s
  obtain ⟨hm', -, hs'⟩ := hb c' hc' (before.map Step.tick ++ .reset :: later.map .tick)
  have hreset : AtReset store s (c'.run store before).2.reset :=
    .inr ⟨_, (Reachable.build hc').run before, rfl⟩
  refine ⟨⟨c, hc, hr, hm.symm.trans hr, (hs store' ?_).1⟩, c', hc', hr', hm'.symm.trans hr',
    hs' store' ?_, hreset, ?_⟩
  · rw [hr]
    simp only [List.forall_mem_cons]
    exact ⟨rfl, rfl, rfl, rfl, List.forall_mem_nil _⟩
  · rw [hr']
    simp only [List.forall_mem_cons]
    exact ⟨rfl, rfl, rfl, List.forall_mem_nil _⟩
  · rw [← ha _ hreset later, hl]
    rfl

end ElasticCore.Core
