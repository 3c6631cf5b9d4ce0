import ElasticCore.Core.Basic
import ElasticCore.Proofs.Cache.Contents
import ElasticCore.Proofs.Handshake.Run

/-! # Runs of a core

A core is ticked and reset in any order. Its line then goes through ticks and flushes,
its cache stays coherent, and its geometry and variant stay those of its settings. A
reset restores the core as it was built.
-/

namespace ElasticCore.Core

structure Input where
  fetch : Option Fetched
  sinkReady : Bool
  deriving DecidableEq, Repr

def run (store : Store) (c : Core) (is : List Input) : List Outcome × Core :=
  clock (fun c i => c.tick store i.fetch i.sinkReady) c is

def acceptedFetches (is : List Input) (os : List Outcome) : List Fetched :=
  (is.zip os).filterMap fun (i, o) => if o.accepted then i.fetch else none

def retirements (os : List Outcome) : List Retired := os.filterMap (·.retired)

/-- The states of a core with the given settings, from its building on. -/
inductive Reachable (store : Store) (s : Settings) : Core → Prop where
  | build {c : Core} : ofSettings s = .ok c → Reachable store s c
  | tick {c : Core} (fetch : Option Fetched) (sinkReady : Bool) :
      Reachable store s c → Reachable store s (c.tick store fetch sinkReady).2
  | reset {c : Core} : Reachable store s c → Reachable store s c.reset

/-- A core that was just built, or reset. -/
def AtReset (store : Store) (s : Settings) (c : Core) : Prop :=
  ofSettings s = .ok c ∨ ∃ c', Reachable store s c' ∧ c = c'.reset

def offer (c : Core) (fetch : Option Fetched) : Slot Entry :=
  fetch.elim .empty fun f => .holding (c.isa.entry f)

/-- Whether the head may leave: the sink is ready and a load has hit. -/
def advance (c : Core) (store : Store) (sinkReady : Bool) : Bool :=
  sinkReady && ((c.refer store).map (·.lookup)).all (·.hit)

@[simp] theorem valid_offer (c : Core) (fetch : Option Fetched) :
    (c.offer fetch).valid = fetch.isSome := by
  cases fetch <;> rfl

@[simp] theorem acceptedFetches_cons (i : Input) (is : List Input) (o : Outcome)
    (os : List Outcome) :
    acceptedFetches (i :: is) (o :: os) =
      (if o.accepted then i.fetch else none).toList ++ acceptedFetches is os := by
  cases ho : o.accepted <;> cases hf : i.fetch <;> simp [acceptedFetches, ho, hf]

@[simp] theorem retirements_nil : retirements [] = [] := rfl

@[simp] theorem retirements_cons (o : Outcome) (os : List Outcome) :
    retirements (o :: os) = o.retired.toList ++ retirements os := by
  cases ho : o.retired <;> simp [retirements, ho]

theorem retirements_append (os os' : List Outcome) :
    retirements (os ++ os') = retirements os ++ retirements os' := List.filterMap_append

variable {store : Store} {s : Settings} {c : Core}

@[simp] theorem run_nil : c.run store [] = ([], c) := rfl

@[simp] theorem run_cons (i : Input) (is : List Input) :
    c.run store (i :: is) =
      ((c.tick store i.fetch i.sinkReady).1 ::
          ((c.tick store i.fetch i.sinkReady).2.run store is).1,
        ((c.tick store i.fetch i.sinkReady).2.run store is).2) := rfl

section Tick

variable (store : Store) (c : Core) (fetch : Option Fetched) (sinkReady : Bool)

theorem line_tick : (c.tick store fetch sinkReady).2.line =
    (c.line.tick (c.offer fetch) (c.advance store sinkReady)).2 := rfl

theorem accepted_tick : (c.tick store fetch sinkReady).1.accepted =
    (c.line.tick (c.offer fetch) (c.advance store sinkReady)).1.accepted := rfl

theorem retired_tick : (c.tick store fetch sinkReady).1.retired =
    (c.line.tick (c.offer fetch) (c.advance store sinkReady)).1.delivered.map
      (retire (c.refer store)) := rfl

theorem entry_retired_tick : (c.tick store fetch sinkReady).1.retired.map (·.entry) =
    (c.line.tick (c.offer fetch) (c.advance store sinkReady)).1.delivered := by
  rw [retired_tick, Option.map_map]
  exact Option.map_id'

theorem cache_tick : (c.tick store fetch sinkReady).2.cache =
    c.cache.commit ((c.refer store).bind (·.fill)) := rfl

theorem lookup_tick : (c.tick store fetch sinkReady).1.lookup =
    (c.refer store).map (·.lookup) := rfl

theorem reads_tick : (c.tick store fetch sinkReady).1.reads =
    (c.refer store).elim [] (·.reads) := rfl

theorem events_tick : ∃ es, (c.tick store fetch sinkReady).1.events =
    ((c.refer store).map (·.event)).toList ++ es :=
  ⟨_, List.append_assoc ..⟩

theorem cycles_tick :
    (c.tick store fetch sinkReady).2.counters.cycles = c.counters.cycles + 1 := rfl

theorem counters_retired_tick : (c.tick store fetch sinkReady).2.counters.retired =
    c.counters.retired + (c.tick store fetch sinkReady).1.retired.isSome.toNat := rfl

theorem cacheMisses_tick : (c.tick store fetch sinkReady).2.counters.cacheMisses =
    c.counters.cacheMisses + (((c.refer store).map (·.lookup)).any (!·.hit)).toNat := rfl

theorem sinkStalls_tick : (c.tick store fetch sinkReady).2.counters.sinkStalls =
    c.counters.sinkStalls + (c.line.head.isSome && !c.advance store sinkReady).toNat := rfl

@[simp] theorem geometry_tick :
    (c.tick store fetch sinkReady).2.cache.geometry = c.cache.geometry := by
  rw [cache_tick, Cache.geometry_commit]

end Tick

theorem headLoad_eq_some_iff {e : Entry} :
    c.headLoad = some e ↔ c.line.head = some e ∧ e.ctrl.memRead = true :=
  Option.filter_eq_some_iff

theorem refer_eq_none (h : c.headLoad = none) : c.refer store = none := by
  rw [refer, h, Option.map_none]

theorem refer_eq_some {e : Entry} (h : c.headLoad = some e) :
    c.refer store = some (c.cache.refer store e.imm) := by
  rw [refer, h, Option.map_some]

theorem headLoad_eq_none {e : Entry} (hh : c.line.head = some e) (hm : e.ctrl.memRead = false) :
    c.headLoad = none := by
  rw [headLoad, hh, Option.filter_some, hm]
  rfl

theorem cache_tick_of_no_load (he : c.headLoad = none) (fetch : Option Fetched)
    (sinkReady : Bool) : (c.tick store fetch sinkReady).2.cache = c.cache := by
  rw [cache_tick, refer_eq_none he]
  rfl

theorem cache_tick_of_load {e : Entry} (he : c.headLoad = some e) (fetch : Option Fetched)
    (sinkReady : Bool) :
    (c.tick store fetch sinkReady).2.cache = (c.cache.lookup store e.imm).2 := by
  rw [cache_tick, refer_eq_some he]
  rfl

theorem coherent_tick (h : c.cache.Coherent store) (fetch : Option Fetched) (sinkReady : Bool) :
    (c.tick store fetch sinkReady).2.cache.Coherent store := by
  cases he : c.headLoad with
  | none =>
    rw [cache_tick_of_no_load he]
    exact h
  | some e =>
    rw [cache_tick_of_load he]
    exact h.commit_refer e.imm

/-- What settings decide of a core for good, whatever a store answers. -/
structure Wired (s : Settings) (c : Core) : Prop where
  isa_eq : c.isa = s.pipeline.isa
  trace_eq : c.trace = s.general.trace
  ofShape_eq : Geometry.ofShape s.cache = .ok c.cache.geometry
  line : Line.Reachable s.pipeline.stages.toNat c.line

theorem Wired.tick (h : Wired s c) (store : Store) (fetch : Option Fetched) (sinkReady : Bool) :
    Wired s (c.tick store fetch sinkReady).2 :=
  ⟨h.isa_eq, h.trace_eq, by rw [h.ofShape_eq, geometry_tick], h.line.tick _ _⟩

theorem Wired.reset (h : Wired s c) : Wired s c.reset :=
  ⟨h.isa_eq, h.trace_eq, h.ofShape_eq, h.line.flush⟩

/-- What the history of a core leaves as it was, and what it keeps up. -/
structure Sound (store : Store) (s : Settings) (c : Core) : Prop extends Wired s c where
  cache : c.cache.Coherent store

theorem ofSettings_eq_ok (h : ofSettings s = .ok c) :
    Line.ofDepth s.pipeline.stages.toNat = .ok c.line ∧ Cache.ofShape s.cache = .ok c.cache ∧
      c.isa = s.pipeline.isa ∧ c.trace = s.general.trace ∧ c.counters = {} := by
  unfold ofSettings at h
  obtain ⟨_, -, h⟩ := bind_eq_ok_iff.mp h
  obtain ⟨l, hl, h⟩ := bind_eq_ok_iff.mp h
  obtain ⟨k, hk, h⟩ := bind_eq_ok_iff.mp h
  cases h
  exact ⟨hl, hk, rfl, rfl, rfl⟩

theorem sound_of_ofSettings (store : Store) (h : ofSettings s = .ok c) :
    Sound store s c ∧ Line.ofDepth s.pipeline.stages.toNat = .ok c.line ∧
      c.cache = .ofGeometry c.cache.geometry ∧ c.counters = {} := by
  obtain ⟨hl, hc, hi, ht, hk⟩ := ofSettings_eq_ok h
  obtain ⟨hg, hb⟩ := Cache.ofShape_eq_ok hc
  refine ⟨⟨⟨hi, ht, hg, .build hl⟩, ?_⟩, hl, hb, hk⟩
  rw [hb]
  exact Cache.coherent_ofGeometry store _

theorem Reachable.sound (h : Reachable store s c) : Sound store s c := by
  induction h with
  | build h => exact (sound_of_ofSettings store h).1
  | tick fetch sinkReady _ ih =>
    exact ⟨ih.toWired.tick store fetch sinkReady, coherent_tick ih.cache fetch sinkReady⟩
  | reset _ ih => exact ⟨ih.toWired.reset, Cache.coherent_ofGeometry store _⟩

theorem Sound.isSome_retired_tick (h : Sound store s c) (fetch : Option Fetched)
    (sinkReady : Bool) :
    (c.tick store fetch sinkReady).1.retired.isSome =
      (c.line.head.isSome && c.advance store sinkReady) := by
  rw [retired_tick, Option.isSome_map, Line.delivered_tick h.line.stages_ne_nil]
  cases c.advance store sinkReady <;> simp

theorem Sound.retired_add_sinkStalls_tick (h : Sound store s c) (fetch : Option Fetched)
    (sinkReady : Bool) :
    (c.tick store fetch sinkReady).2.counters.retired +
        (c.tick store fetch sinkReady).2.counters.sinkStalls =
      c.counters.retired + c.counters.sinkStalls + c.line.head.isSome.toNat := by
  rw [counters_retired_tick, sinkStalls_tick, h.isSome_retired_tick]
  cases c.line.head.isSome <;> cases c.advance store sinkReady <;> simp <;> omega

theorem Reachable.run (h : Reachable store s c) (is : List Input) :
    Reachable store s (c.run store is).2 := by
  induction is generalizing c with
  | nil => exact h
  | cons i is ih => exact ih (h.tick i.fetch i.sinkReady)

theorem AtReset.reachable (h : AtReset store s c) : Reachable store s c := by
  rcases h with h | ⟨c', h, rfl⟩
  · exact .build h
  · exact h.reset

theorem AtReset.line (h : AtReset store s c) : Line.AtReset s.pipeline.stages.toNat c.line := by
  rcases h with h | ⟨c', h, rfl⟩
  · exact Or.inl (sound_of_ofSettings store h).2.1
  · exact Or.inr ⟨c'.line, h.sound.line, rfl⟩

theorem AtReset.cache_eq (h : AtReset store s c) : c.cache = .ofGeometry c.cache.geometry := by
  rcases h with h | ⟨c', -, rfl⟩
  · exact (sound_of_ofSettings store h).2.2.1
  · rfl

theorem AtReset.counters_eq (h : AtReset store s c) : c.counters = {} := by
  rcases h with h | ⟨c', -, rfl⟩
  · exact (sound_of_ofSettings store h).2.2.2
  · rfl

end ElasticCore.Core
