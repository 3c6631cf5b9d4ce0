import ElasticCore.Proofs.Core.Retry
import Mathlib.Data.List.Induction

/-! # Balance of the counters

What the counters add up separately has to agree with the registers: the difference of two
counters is what the line holds, or a number of ticks of one kind. Each tick keeps these
equations, because it changes both sides by the same amount.
-/

namespace ElasticCore.Core

def ticks (store : Store) : Core → List Input → List (Core × Outcome)
  | _, [] => []
  | c, i :: is =>
    let t := c.tick store i.fetch i.sinkReady
    (c, t.1) :: ticks store t.2 is

def idle (t : Core × Outcome) : Bool := t.1.line.head.isNone

def holdsLoad (t : Core × Outcome) : Bool := t.1.headLoad.isSome && t.2.retired.isNone

/-- What the counters have to do with the registers at any time. -/
structure Balanced (c : Core) : Prop where
  accepted_eq : c.counters.accepted = c.counters.retired + c.line.occupancy
  overflows_eq : c.counters.overflows =
    c.counters.drains + c.line.stages.countP (·.buffer.valid)
  loads_le : c.counters.loads ≤ c.counters.cacheHits
  misses_le_stalls : c.counters.cacheMisses ≤ c.counters.sinkStalls
  misses_le_loads : c.counters.cacheMisses ≤ c.counters.loads + c.headServed.toNat

variable {store : Store} {s : Settings} {c : Core}

section Tick

variable (store : Store) (c : Core) (fetch : Option Fetched) (sinkReady : Bool)

theorem counters_accepted_tick : (c.tick store fetch sinkReady).2.counters.accepted =
    c.counters.accepted + (c.tick store fetch sinkReady).1.accepted.toNat := rfl

theorem loads_tick : (c.tick store fetch sinkReady).2.counters.loads =
    c.counters.loads +
      ((c.tick store fetch sinkReady).1.retired.any (·.loaded.isSome)).toNat := rfl

theorem overflows_tick : (c.tick store fetch sinkReady).2.counters.overflows =
    c.counters.overflows + (c.line.tick (c.offer fetch)
      (c.advance store sinkReady)).1.transitions.count .overflow := rfl

theorem drains_tick : (c.tick store fetch sinkReady).2.counters.drains =
    c.counters.drains + (c.line.tick (c.offer fetch)
      (c.advance store sinkReady)).1.transitions.count .drain := rfl

theorem cacheHits_tick : (c.tick store fetch sinkReady).2.counters.cacheHits =
    c.counters.cacheHits + c.headServed.toNat := by
  change c.counters.cacheHits + (((c.refer store).map (·.lookup)).any (·.hit)).toNat = _
  rw [headServed]
  cases he : c.headLoad with
  | none => rw [refer_eq_none he]; rfl
  | some e => rw [refer_eq_some he, Option.map_some, Cache.lookup_refer]; rfl

theorem cacheMisses_tick_eq : (c.tick store fetch sinkReady).2.counters.cacheMisses =
    c.counters.cacheMisses + (c.tick store fetch sinkReady).1.missed.toNat := rfl

end Tick

theorem Sound.any_loaded_tick (h : Sound store s c) (fetch : Option Fetched) (sinkReady : Bool) :
    ((c.tick store fetch sinkReady).1.retired.any (·.loaded.isSome)) =
      (c.headLoad.isSome && (c.tick store fetch sinkReady).1.retired.isSome) := by
  rw [Core.retired_tick, Line.delivered_tick h.line.stages_ne_nil, headLoad]
  cases c.advance store sinkReady with
  | false => simp
  | true =>
    cases c.line.head with
    | none => rfl
    | some e => cases hm : e.ctrl.memRead <;> simp [retire, hm]

theorem Sound.advance_of_retired (h : Sound store s c) {fetch : Option Fetched} {sinkReady : Bool}
    (hr : (c.tick store fetch sinkReady).1.retired.isSome = true) :
    c.advance store sinkReady = true := by
  rw [h.isSome_retired_tick, Bool.and_eq_true] at hr
  exact hr.2

theorem Sound.loaded_le_headServed (h : Sound store s c) (fetch : Option Fetched)
    (sinkReady : Bool) :
    ((c.tick store fetch sinkReady).1.retired.any (·.loaded.isSome)).toNat ≤
      c.headServed.toNat := by
  rw [h.any_loaded_tick]
  apply Bool.toNat_le_toNat
  rw [Bool.le_iff_imp, Bool.and_eq_true]
  rintro ⟨hl, hr⟩
  obtain ⟨e, he⟩ := Option.isSome_iff_exists.mp hl
  have ha := h.advance_of_retired hr
  rw [advance_eq_of_headLoad he, Bool.and_eq_true] at ha
  exact headServed_iff.mpr ⟨e, he, ha.2⟩

theorem Sound.headLoad_le (h : Sound store s c) (fetch : Option Fetched) (sinkReady : Bool) :
    c.headLoad.isSome.toNat ≤
      ((c.tick store fetch sinkReady).1.retired.any (·.loaded.isSome)).toNat +
        (c.tick store fetch sinkReady).2.headServed.toNat := by
  rw [h.any_loaded_tick, h.isSome_retired_tick]
  cases he : c.headLoad with
  | none => exact Nat.zero_le _
  | some e =>
    cases ha : c.advance store sinkReady with
    | true =>
      rw [(headLoad_eq_some_iff.mp he).1]
      exact Nat.le_add_right _ _
    | false =>
      rw [headServed_iff.mpr ⟨e, h.served_tick he ha fetch⟩]
      exact Nat.le_add_left _ _

theorem missed_le_stalled (store : Store) (c : Core) (fetch : Option Fetched) (sinkReady : Bool) :
    (c.tick store fetch sinkReady).1.missed.toNat ≤
      (c.line.head.isSome && !c.advance store sinkReady).toNat := by
  apply Bool.toNat_le_toNat
  rw [Bool.le_iff_imp]
  intro hm
  obtain ⟨e, he, hh⟩ := missed_tick_iff.mp hm
  rw [(headLoad_eq_some_iff.mp he).1, advance_eq_of_headLoad he, hh, Bool.and_false]
  rfl

theorem AtReset.balanced (h : AtReset store s c) : Balanced c where
  accepted_eq := by rw [h.counters_eq, ← Line.length_items, h.line.items_eq]; rfl
  overflows_eq := by
    rw [h.counters_eq, h.line.eq, List.countP_replicate]
    rfl
  loads_le := by rw [h.counters_eq]
  misses_le_stalls := by rw [h.counters_eq]
  misses_le_loads := by rw [h.counters_eq]; exact Nat.zero_le _

theorem Balanced.tick (hb : Balanced c) (h : Sound store s c) (fetch : Option Fetched)
    (sinkReady : Bool) : Balanced (c.tick store fetch sinkReady).2 where
  accepted_eq := by
    have ho := h.occupancy_tick fetch sinkReady
    have ha := hb.accepted_eq
    rw [counters_accepted_tick, counters_retired_tick]
    omega
  overflows_eq := by
    have hc := h.line.sound.countP_buffer_tick (c.offer fetch) (c.advance store sinkReady)
    have ho := hb.overflows_eq
    rw [overflows_tick, drains_tick, line_tick]
    omega
  loads_le := by
    have hl := h.loaded_le_headServed fetch sinkReady
    have ho := hb.loads_le
    rw [loads_tick, cacheHits_tick]
    omega
  misses_le_stalls := by
    have hm := missed_le_stalled store c fetch sinkReady
    have ho := hb.misses_le_stalls
    rw [cacheMisses_tick_eq, sinkStalls_tick]
    omega
  misses_le_loads := by
    have hm := missed_add_headServed store c fetch sinkReady
    have hl := h.headLoad_le fetch sinkReady
    have ho := hb.misses_le_loads
    rw [cacheMisses_tick_eq, loads_tick]
    omega

theorem Reachable.balanced (h : Reachable store s c) : Balanced c := by
  induction h with
  | build h =>
    have hr : AtReset store s _ := .inl h
    exact hr.balanced
  | tick fetch sinkReady h ih => exact ih.tick h.sound fetch sinkReady
  | reset h => exact AtReset.balanced (.inr ⟨_, h, rfl⟩)

theorem idle_toNat (c : Core) (o : Outcome) :
    (idle (c, o)).toNat + c.line.head.isSome.toNat = 1 := by
  rw [idle]
  cases c.line.head <;> rfl

theorem Sound.headLoad_toNat (h : Sound store s c) (fetch : Option Fetched) (sinkReady : Bool) :
    c.headLoad.isSome.toNat =
      ((c.tick store fetch sinkReady).1.retired.any (·.loaded.isSome)).toNat +
        (holdsLoad (c, (c.tick store fetch sinkReady).1)).toNat := by
  rw [h.any_loaded_tick, holdsLoad]
  cases c.headLoad.isSome <;> cases (c.tick store fetch sinkReady).1.retired <;> rfl

section Run

variable (store : Store) (c : Core)

theorem ticks_concat (is : List Input) (i : Input) :
    c.ticks store (is ++ [i]) = c.ticks store is ++
      [((c.run store is).2, ((c.run store is).2.tick store i.fetch i.sinkReady).1)] := by
  induction is generalizing c with
  | nil => rfl
  | cons j is ih => rw [List.cons_append, ticks, ih, ticks]; rfl

theorem run_concat (is : List Input) (i : Input) :
    (c.run store (is ++ [i])).2 = ((c.run store is).2.tick store i.fetch i.sinkReady).2 := by
  rw [run_append]
  rfl

theorem countP_ticks_concat (p : Core × Outcome → Bool) (is : List Input) (i : Input) :
    (c.ticks store (is ++ [i])).countP p = (c.ticks store is).countP p +
      (p ((c.run store is).2, ((c.run store is).2.tick store i.fetch i.sinkReady).1)).toNat := by
  rw [ticks_concat, countP_concat]

end Run

/-! ## The size of the counters -/

theorem below_counters_tick {n : Nat} (h : c.counters.Below n) (store : Store)
    (fetch : Option Fetched) (sinkReady : Bool) :
    (c.tick store fetch sinkReady).2.counters.Below (n + c.line.depth + 1) := by
  have hts := Counters.below_ofTransitions
    (c.line.tick (c.offer fetch) (c.advance store sinkReady)).1.transitions
  have hd : (c.line.tick (c.offer fetch) (c.advance store sinkReady)).1.transitions.length =
      c.line.depth := by
    rw [Line.tick, Line.evaluate, List.length_map, Line.length_outcomes, Line.depth]
  rw [hd] at hts
  refine (h.add hts).add ?_
  constructor
  case cycles => exact Nat.le_refl 1
  case overflows => exact Nat.zero_le 1
  case drains => exact Nat.zero_le 1
  all_goals exact Bool.toNat_le _

/-- A tick adds at most one to a counter, or one for each stage. -/
theorem AtReset.counters_below (h : AtReset store s c) (is : List Input) :
    (c.run store is).2.counters.Below ((s.pipeline.stages.toNat + 1) * is.length) := by
  induction is using List.reverseRecOn with
  | nil =>
    rw [run_nil, h.counters_eq]
    exact Counters.below_zero
  | append_singleton is i ih =>
    have ht := below_counters_tick ih store i.fetch i.sinkReady
    rw [(h.reachable.run is).sound.line.depth_eq.2] at ht
    rw [run_concat, List.length_append, List.length_singleton, Nat.mul_succ, ← Nat.add_assoc]
    exact ht

/-! ## Balance -/

theorem AtReset.cycles_eq (h : AtReset store s c) (is : List Input) :
    (c.run store is).2.counters.cycles =
      (c.run store is).2.counters.retired + (c.run store is).2.counters.sinkStalls +
        (c.ticks store is).countP idle := by
  induction is using List.reverseRecOn with
  | nil => rw [run_nil, h.counters_eq]; rfl
  | append_singleton is i ih =>
    have ht := (h.reachable.run is).sound.retired_add_sinkStalls_tick i.fetch i.sinkReady
    have hn := idle_toNat (c.run store is).2
      ((c.run store is).2.tick store i.fetch i.sinkReady).1
    rw [run_concat, countP_ticks_concat, cycles_tick, ht]
    omega

theorem AtReset.references_eq (h : AtReset store s c) (is : List Input) :
    (c.run store is).2.counters.cacheHits + (c.run store is).2.counters.cacheMisses =
      (c.run store is).2.counters.loads + (c.ticks store is).countP holdsLoad := by
  induction is using List.reverseRecOn with
  | nil => rw [run_nil, h.counters_eq]; rfl
  | append_singleton is i ih =>
    have hm := missed_add_headServed store (c.run store is).2 i.fetch i.sinkReady
    have hl := (h.reachable.run is).sound.headLoad_toNat i.fetch i.sinkReady
    rw [run_concat, countP_ticks_concat, cacheHits_tick, cacheMisses_tick_eq, loads_tick]
    omega

/-- Since a reset, the accepted instructions have retired or are held, the overflows have
drained or fill a buffer, and each tick and each reference is accounted for. A load misses at
most once, so that only one at the head can have missed and not retired. Counters of 64 bits
show the same numbers below `2 ^ 64` (`AtReset.counters_below`). -/
theorem counters_balance (h : AtReset store s c) (is : List Input) :
    let c' := (c.run store is).2
    let k := c'.counters
    k.accepted = k.retired + c'.line.occupancy ∧
      k.overflows = k.drains + c'.line.stages.countP (·.buffer.valid) ∧
      k.cycles = k.retired + k.sinkStalls + (c.ticks store is).countP idle ∧
      k.cacheHits + k.cacheMisses = k.loads + (c.ticks store is).countP holdsLoad ∧
      k.retired ≤ k.cycles ∧ k.loads ≤ k.cacheHits ∧ k.cacheMisses ≤ k.sinkStalls ∧
      k.cacheMisses ≤ k.loads + 1 ∧
      (k.cacheMisses = k.loads + 1 → c'.headLoad.isSome = true) := by
  intro c' k
  have hb : Balanced c' := (h.reachable.run is).balanced
  have hc : k.cycles = k.retired + k.sinkStalls + (c.ticks store is).countP idle := h.cycles_eq is
  have hm : k.cacheMisses ≤ k.loads + c'.headServed.toNat := hb.misses_le_loads
  have hs := Bool.toNat_le c'.headServed
  refine ⟨hb.accepted_eq, hb.overflows_eq, hc, h.references_eq is, by omega, hb.loads_le,
    hb.misses_le_stalls, by omega, fun he => ?_⟩
  have ht : c'.headServed = true := Bool.toNat_eq_one.mp (by omega)
  obtain ⟨e, hs⟩ := headServed_iff.mp ht
  rw [hs.headLoad]
  rfl

/-- Seven ticks in which two loads miss, a sink stalls, and a buffer is left full. The second
load has missed and stands at the head. -/
theorem counters_balance_evicting :
    let s : Settings := { cache := { numBlocks := 2 }, pipeline := { stages := 2 } }
    let store : Store := fun a => a + 7
    let is : List Input :=
      [⟨some ⟨0, 0xFFF02003⟩, true⟩, ⟨some ⟨4, 0x00100093⟩, true⟩, ⟨some ⟨8, 0x00102003⟩, true⟩,
        ⟨some ⟨12, 0x33⟩, false⟩, ⟨some ⟨16, 0x33⟩, true⟩, ⟨none, true⟩, ⟨some ⟨20, 0x33⟩, true⟩]
    ∃ c, AtReset store s c ∧
      let c' := (c.run store is).2
      c'.counters.accepted = 2 + 3 ∧ c'.counters.overflows = 2 + 1 ∧
        c'.counters.cycles = 2 + 3 + 2 ∧ c'.counters.cacheHits + c'.counters.cacheMisses = 1 + 3 ∧
        c'.counters.cacheMisses = 2 ∧ c'.headLoad.isSome = true := by
  intro s store is
  obtain ⟨c, hc, hr, ho, hd, hb, hs, hl, hm, hi, hh⟩ : ∃ c, ofSettings s = .ok c ∧
      (c.run store is).2.counters.retired = 2 ∧ (c.run store is).2.line.occupancy = 3 ∧
      (c.run store is).2.counters.drains = 2 ∧
      (c.run store is).2.line.stages.countP (·.buffer.valid) = 1 ∧
      (c.run store is).2.counters.sinkStalls = 3 ∧ (c.run store is).2.counters.loads = 1 ∧
      (c.run store is).2.counters.cacheMisses = 2 ∧ (c.ticks store is).countP idle = 2 ∧
      (c.ticks store is).countP holdsLoad = 3 := by
    subst s
    refine ⟨_, rfl, ?_, ?_, ?_, ?_, ?_, ?_, ?_, ?_, ?_⟩ <;> decide +kernel
  obtain ⟨hacc, hover, hcycles, hrefs, -, -, -, -, hlast⟩ := counters_balance (.inl hc) is
  rw [hr, ho] at hacc
  rw [hd, hb] at hover
  rw [hr, hs, hi] at hcycles
  rw [hl, hh] at hrefs
  exact ⟨c, .inl hc, hacc, hover, hcycles, hrefs, hm, hlast (by rw [hm, hl])⟩

end ElasticCore.Core
