import ElasticCore.Proofs.Cache.Inclusion
import ElasticCore.Proofs.Core.Retry
import ElasticCore.Proofs.Handshake.Relabel
import Mathlib.Data.List.Forall2

/-! # Timing without data

When a core moves its instructions is decided by the pauses of the source, by the stalls of the
sink, and by which instructions are loads and from which addresses. Two cores that agree in
these hold instructions in the same registers, and their caches hit alike. They stay so, and
nothing else can be told from their handshakes, their hits and misses, and their counters.
-/

namespace ElasticCore

def Instruction.loadAddress? (addrWidth : Nat) (w : Instruction) : Option Word :=
  if w.opcode = Opcode.load.bits then some (w.loadAddress addrWidth) else none

def Geometry.reference? (g : Geometry) (e : Entry) : Option Word :=
  if e.ctrl.memRead then some (g.address e.imm) else none

theorem Geometry.reference?_entry (g : Geometry) (isa : Isa) (f : Fetched) :
    g.reference? (isa.entry f) = f.inst.loadAddress? g.addrWidth := by
  have hm : (isa.entry f).ctrl.memRead = true ↔ f.inst.opcode = Opcode.load.bits :=
    isa.memRead_decodeInstruction_iff f.inst
  rw [reference?, Instruction.loadAddress?, g.address_entry]
  simp only [hm]

theorem Geometry.reference?_default (g : Geometry) : g.reference? default = default := rfl

namespace Core

structure Input.Alike (addrWidth : Nat) (i j : Input) : Prop where
  sinkReady_eq : i.sinkReady = j.sinkReady
  fetch_eq : i.fetch.map (·.inst.loadAddress? addrWidth) =
    j.fetch.map (·.inst.loadAddress? addrWidth)

instance (addrWidth : Nat) (i j : Input) : Decidable (i.Alike addrWidth j) :=
  decidable_of_iff (_ ∧ _) ⟨fun h => ⟨h.1, h.2⟩, fun h => ⟨h.1, h.2⟩⟩

/-- What can be told of a tick without looking at data. -/
structure Timing where
  accepted : Bool
  /-- Of an instruction that retires, whether it carries a loaded word. -/
  retired : Option Bool
  hit : Option Bool
  deriving DecidableEq, Repr

def Outcome.timing (o : Outcome) : Timing where
  accepted := o.accepted
  retired := o.retired.map (·.loaded.isSome)
  hit := o.lookup.map (·.hit)

/-- What a tick adds to the counters, apart from overflows and drains. -/
def Timing.counters (t : Timing) (held : Bool) : Counters where
  cycles := 1
  accepted := t.accepted.toNat
  retired := t.retired.isSome.toNat
  loads := (t.retired.any id).toNat
  cacheHits := (t.hit.any id).toNat
  cacheMisses := (t.hit.any (!·)).toNat
  sinkStalls := held.toNat

/-- Cores that hold loads from the same addresses in the same registers, and whose caches hit
alike. -/
structure Alike (c d : Core) : Prop where
  line_eq : c.line.map c.cache.geometry.reference? = d.line.map d.cache.geometry.reference?
  within : c.cache.Within d.cache
  within' : d.cache.Within c.cache
  counters_eq : c.counters = d.counters

variable {c d : Core} {e e' : Entry} {i j : Input}

theorem Alike.symm (h : Alike c d) : Alike d c :=
  ⟨h.line_eq.symm, h.within', h.within, h.counters_eq.symm⟩

theorem Alike.address_eq (h : Alike c d) (addr : Word) :
    c.cache.geometry.address addr = d.cache.geometry.address addr :=
  h.within.coarser.address_eq addr

theorem Alike.head_eq (h : Alike c d) :
    c.line.head.map c.cache.geometry.reference? = d.line.head.map d.cache.geometry.reference? := by
  rw [← Line.head_map, ← Line.head_map, h.line_eq]

theorem headLoad_map_address (c : Core) :
    c.headLoad.map (fun e => c.cache.geometry.address e.imm) =
      (c.line.head.map c.cache.geometry.reference?).join := by
  unfold headLoad
  cases c.line.head with
  | none => rfl
  | some e => cases hm : e.ctrl.memRead <;> simp [Geometry.reference?, hm]

theorem Alike.headLoad_cases (h : Alike c d) :
    (c.headLoad = none ∧ d.headLoad = none) ∨
    ∃ e e', c.headLoad = some e ∧ d.headLoad = some e' ∧
      c.cache.geometry.address e.imm = c.cache.geometry.address e'.imm := by
  have ha := congrArg Option.join h.head_eq
  rw [← headLoad_map_address, ← headLoad_map_address] at ha
  cases hc : c.headLoad with
  | none =>
    rw [hc] at ha
    exact .inl ⟨rfl, Option.map_eq_none_iff.mp ha.symm⟩
  | some e =>
    rw [hc] at ha
    obtain ⟨e', hd, he⟩ := Option.map_eq_some_iff.mp ha.symm
    exact .inr ⟨e, e', rfl, hd, he.symm.trans (h.address_eq e'.imm).symm⟩

theorem Alike.hit_eq (h : Alike c d)
    (ha : c.cache.geometry.address e.imm = c.cache.geometry.address e'.imm) :
    (c.cache.probe e.imm).hit = (d.cache.probe e'.imm).hit := by
  apply Bool.eq_iff_iff.mpr
  constructor
  · exact h.within.hit_of_hit ha
  · intro hh
    apply h.within'.hit_of_hit _ hh
    rw [← h.address_eq, ← h.address_eq, ha]

theorem Alike.hits_eq (h : Alike c d) (store store' : Store) :
    ((c.refer store).map (·.lookup)).map (·.hit) =
      ((d.refer store').map (·.lookup)).map (·.hit) := by
  rcases h.headLoad_cases with ⟨hc, hd⟩ | ⟨e, e', hc, hd, ha⟩
  · rw [refer_eq_none hc, refer_eq_none hd]
  · rw [refer_eq_some hc, refer_eq_some hd]
    simp only [Option.map_some, Cache.lookup_refer]
    exact congrArg some (h.hit_eq ha)

theorem Alike.advance_eq (h : Alike c d) (store store' : Store)
    (hij : i.Alike c.cache.geometry.addrWidth j) :
    c.advance store i.sinkReady = d.advance store' j.sinkReady := by
  have hh := congrArg (Option.all id) (h.hits_eq store store')
  simp only [Option.all_map] at hh
  simp only [advance, Option.all_map, hij.sinkReady_eq]
  exact congrArg (j.sinkReady && ·) hh

theorem Alike.within_tick (h : Alike c d) (store store' : Store) (i j : Input) :
    (c.tick store i.fetch i.sinkReady).2.cache.Within
      (d.tick store' j.fetch j.sinkReady).2.cache := by
  rcases h.headLoad_cases with ⟨hc, hd⟩ | ⟨e, e', hc, hd, ha⟩
  · rw [cache_tick_of_no_load hc, cache_tick_of_no_load hd]
    exact h.within
  · rw [cache_tick_of_load hc, cache_tick_of_load hd]
    exact h.within.lookup ha

theorem offer_map_reference? (c : Core) (fetch : Option Fetched) :
    (c.offer fetch).map c.cache.geometry.reference? =
      (fetch.map (·.inst.loadAddress? c.cache.geometry.addrWidth)).elim .empty .holding := by
  cases fetch with
  | none => rfl
  | some f => exact congrArg Slot.holding (Geometry.reference?_entry _ c.isa f)

theorem Alike.line_tick (h : Alike c d) (store store' : Store)
    (hij : i.Alike c.cache.geometry.addrWidth j) :
    let t := c.line.tick (c.offer i.fetch) (c.advance store i.sinkReady)
    let t' := d.line.tick (d.offer j.fetch) (d.advance store' j.sinkReady)
    t.1.map c.cache.geometry.reference? = t'.1.map d.cache.geometry.reference? ∧
      t.2.map c.cache.geometry.reference? = t'.2.map d.cache.geometry.reference? := by
  intro t t'
  have ho : (c.offer i.fetch).map c.cache.geometry.reference? =
      (d.offer j.fetch).map d.cache.geometry.reference? := by
    rw [offer_map_reference?, offer_map_reference?, hij.fetch_eq, h.within.coarser.addrWidth_eq]
  have ht : (t.1.map c.cache.geometry.reference?, t.2.map c.cache.geometry.reference?) =
      (t'.1.map d.cache.geometry.reference?, t'.2.map d.cache.geometry.reference?) := calc
    _ = (c.line.map c.cache.geometry.reference?).tick
          ((c.offer i.fetch).map c.cache.geometry.reference?) (c.advance store i.sinkReady) :=
        (Line.tick_map (Geometry.reference?_default _) ..).symm
    _ = (d.line.map d.cache.geometry.reference?).tick
          ((d.offer j.fetch).map d.cache.geometry.reference?) (d.advance store' j.sinkReady) := by
        rw [h.line_eq, ho, h.advance_eq store store' hij]
    _ = (t'.1.map d.cache.geometry.reference?, t'.2.map d.cache.geometry.reference?) :=
        Line.tick_map (Geometry.reference?_default _) ..
  exact Prod.ext_iff.mp ht

theorem isSome_loaded_map (g : Geometry) (r : Option Reference) (delivered : Option Entry) :
    (delivered.map (retire r)).map (·.loaded.isSome) =
      (delivered.map g.reference?).map Option.isSome := by
  cases delivered with
  | none => rfl
  | some e => cases hm : e.ctrl.memRead <;> simp [retire, Geometry.reference?, hm]

theorem Alike.timing_tick (h : Alike c d) (store store' : Store)
    (hij : i.Alike c.cache.geometry.addrWidth j) :
    (c.tick store i.fetch i.sinkReady).1.timing = (d.tick store' j.fetch j.sinkReady).1.timing := by
  have ho := (h.line_tick store store' hij).1
  have ha := congrArg Line.Outcome.accepted ho
  have hr : (c.tick store i.fetch i.sinkReady).1.retired.map (·.loaded.isSome) =
      (d.tick store' j.fetch j.sinkReady).1.retired.map (·.loaded.isSome) := by
    rw [retired_tick, retired_tick, isSome_loaded_map c.cache.geometry,
      isSome_loaded_map d.cache.geometry]
    exact congrArg (fun o => o.delivered.map Option.isSome) ho
  have hh : (c.tick store i.fetch i.sinkReady).1.lookup.map (·.hit) =
      (d.tick store' j.fetch j.sinkReady).1.lookup.map (·.hit) := h.hits_eq store store'
  unfold Outcome.timing
  rw [hr, hh]
  exact congrArg (Timing.mk · _ _) ha

theorem counters_tick (store : Store) (c : Core) (fetch : Option Fetched) (sinkReady : Bool) :
    (c.tick store fetch sinkReady).2.counters =
      c.counters + .ofTransitions (c.line.tick (c.offer fetch)
        (c.advance store sinkReady)).1.transitions +
      (c.tick store fetch sinkReady).1.timing.counters
        (c.line.head.isSome && !c.advance store sinkReady) := by
  simp only [Timing.counters, Outcome.timing, Option.isSome_map, Option.any_map]
  rfl

theorem Alike.tick (h : Alike c d) (store store' : Store)
    (hij : i.Alike c.cache.geometry.addrWidth j) :
    Alike (c.tick store i.fetch i.sinkReady).2 (d.tick store' j.fetch j.sinkReady).2 where
  line_eq := by
    rw [geometry_tick, geometry_tick]
    exact (h.line_tick store store' hij).2
  within := h.within_tick store store' i j
  within' := h.symm.within_tick store' store j i
  counters_eq := by
    have ht : (c.line.tick (c.offer i.fetch) (c.advance store i.sinkReady)).1.transitions =
        (d.line.tick (d.offer j.fetch) (d.advance store' j.sinkReady)).1.transitions := by
      have ho := congrArg Line.Outcome.transitions (h.line_tick store store' hij).1
      exact ho
    have hh : c.line.head.isSome = d.line.head.isSome := by
      simpa only [Option.isSome_map] using congrArg Option.isSome h.head_eq
    rw [counters_tick, counters_tick, ht, h.timing_tick store store' hij, h.counters_eq, hh,
      h.advance_eq store store' hij]

theorem Alike.run {w : Nat} {is js : List Input} (h : Alike c d) (store store' : Store)
    (hw : c.cache.geometry.addrWidth = w) (hij : List.Forall₂ (Input.Alike w) is js) :
    (c.run store is).1.map Outcome.timing = (d.run store' js).1.map Outcome.timing ∧
      Alike (c.run store is).2 (d.run store' js).2 := by
  induction hij generalizing c d with
  | nil => exact ⟨rfl, h⟩
  | cons hi _ ih =>
    subst hw
    have hg := geometry_tick store c
    obtain ⟨ht, ha⟩ := ih (h.tick store store' hi) (congrArg Geometry.addrWidth (hg ..))
    rw [run_cons, run_cons]
    exact ⟨List.cons_eq_cons.mpr ⟨h.timing_tick store store' hi, ht⟩, ha⟩

/-- Settings that agree in the line and in the shape of the cache, but for the width of a word. -/
structure SameTiming (s s' : Settings) : Prop where
  stages_eq : s.pipeline.stages = s'.pipeline.stages
  addrWidth_eq : s.cache.addrWidth = s'.cache.addrWidth
  numBlocks_eq : s.cache.numBlocks = s'.cache.numBlocks

variable {store store' : Store} {s s' : Settings}

theorem AtReset.alike (h : AtReset store s c) (h' : AtReset store' s' d) (hs : SameTiming s s') :
    Alike c d := by
  have hg := h.reachable.sound.ofShape_eq
  have hg' := h'.reachable.sound.ofShape_eq
  constructor
  · rw [h.line.eq, h'.line.eq, hs.stages_eq, Line.map, Line.map, List.map_replicate,
      List.map_replicate]
    rfl
  · rw [h.cache_eq, h'.cache_eq]
    apply Cache.within_ofGeometry
    exact Geometry.coarser_of_ofShape hg hg' hs.addrWidth_eq (UInt64.le_of_eq hs.numBlocks_eq)
  · rw [h.cache_eq, h'.cache_eq]
    apply Cache.within_ofGeometry
    exact Geometry.coarser_of_ofShape hg' hg hs.addrWidth_eq.symm
      (UInt64.le_of_eq hs.numBlocks_eq.symm)
  · rw [h.counters_eq, h'.counters_eq]

/-- From reset, the timing and the counters of a run depend on the line, on the address width and
the blocks of the cache, on the pauses and stalls, and on which instructions are loads from which
addresses. They depend neither on the variant, the width of a word, the trace and the store, nor on
anything else in the instructions. -/
theorem timing_independent_of_data (h : AtReset store s c) (h' : AtReset store' s' d)
    (hs : SameTiming s s') {is js : List Input}
    (hij : List.Forall₂ (Input.Alike s.cache.addrWidth.toNat) is js) :
    (c.run store is).1.map Outcome.timing = (d.run store' js).1.map Outcome.timing ∧
      ∀ n, (c.run store (is.take n)).2.counters = (d.run store' (js.take n)).2.counters := by
  have hw := (Geometry.ofShape_eq_ok h.reachable.sound.ofShape_eq).1
  have ha := h.alike h' hs
  constructor
  · exact (ha.run store store' hw hij).1
  · intro n
    exact (ha.run store store' hw (List.forall₂_take n hij)).2.counters_eq

/-- Both loads miss in both cores, and the sink stalls the first one. The immediates of the second
load differ above the address width, and what follows it is a branch in one core and an addition
in the other. -/
theorem timing_independent_of_data_stalled :
    let s : Settings := { cache := { addrWidth := 8, numBlocks := 2 }, pipeline := { stages := 2 } }
    let s' : Settings :=
      { general := { trace := true }, cache := { addrWidth := 8, dataWidth := 16, numBlocks := 2 },
        pipeline := { stages := 2, isa := .zbkb } }
    let store : Store := fun a => a + 7
    let store' : Store := fun a => 3 * a
    let is : List Input :=
      [⟨some ⟨0, 0x00102003⟩, true⟩, ⟨some ⟨4, 0x10302083⟩, true⟩, ⟨some ⟨8, 0x63⟩, true⟩,
        ⟨none, false⟩, ⟨none, true⟩, ⟨none, true⟩, ⟨none, true⟩]
    let js : List Input :=
      [⟨some ⟨8, 0x00102083⟩, true⟩, ⟨some ⟨4, 0xF0302003⟩, true⟩, ⟨some ⟨0, 0x33⟩, true⟩,
        ⟨none, false⟩, ⟨none, true⟩, ⟨none, true⟩, ⟨none, true⟩]
    ∃ c d, AtReset store s c ∧ AtReset store' s' d ∧ SameTiming s s' ∧
      List.Forall₂ (Input.Alike s.cache.addrWidth.toNat) is js ∧
      (c.run store is).1.map Outcome.timing = (d.run store' js).1.map Outcome.timing ∧
      (c.run store is).2.counters = (d.run store' js).2.counters ∧
      (d.run store' js).2.counters.cacheMisses = 2 ∧
      (d.run store' js).2.counters.retired = 2 ∧
      retirements (c.run store is).1 ≠ retirements (d.run store' js).1 := by
  intro s s' store store' is js
  have hs : SameTiming s s' := ⟨rfl, rfl, rfl⟩
  have hij : List.Forall₂ (Input.Alike s.cache.addrWidth.toNat) is js := by
    decide +kernel
  obtain ⟨c, d, hc, hd, hm, hr, hne⟩ : ∃ c d, ofSettings s = .ok c ∧ ofSettings s' = .ok d ∧
      (d.run store' js).2.counters.cacheMisses = 2 ∧ (d.run store' js).2.counters.retired = 2 ∧
      retirements (c.run store is).1 ≠ retirements (d.run store' js).1 := by
    subst s s'
    refine ⟨_, _, rfl, rfl, ?_, ?_, ?_⟩ <;> decide +kernel
  obtain ⟨ht, hn⟩ := timing_independent_of_data (.inl hc) (.inl hd) hs hij
  exact ⟨c, d, .inl hc, .inl hd, hs, hij, ht, hn 7, hm, hr, hne⟩

end Core

end ElasticCore
