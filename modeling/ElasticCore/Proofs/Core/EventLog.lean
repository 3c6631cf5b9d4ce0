import ElasticCore.Proofs.Core.Balance

/-! # The log of a run

Every unit reports its own events while it is evaluated, whereas the counters are added up apart
from them, from what the units return. The two accounts agree in every tick, so they agree over a
run: the messages of the log count what the counters count, and the events of the retired
instructions are those instructions in order, each with the number of its tick.
-/

namespace ElasticCore

attribute [ext] Counters

theorem Cache.message_refer (c : Cache) (store : Store) (addr : Word) :
    (c.refer store addr).event.message =
      if (c.probe addr).hit then "dcache hit" else "dcache miss, filling block" := by
  simp only [refer, Probe.demand]
  cases (c.probe addr).hit <;> rfl

namespace Counters

/-- What can be counted in a log by the messages of its events. -/
def ofLog (es : List Event) : Counters where
  retired := es.countP (·.message = "retire")
  cacheHits := es.countP (·.message = "dcache hit")
  cacheMisses := es.countP (·.message = "dcache miss, filling block")
  overflows := es.countP (·.message = "skid stage overflow: buffering upstream item")
  drains := es.countP (·.message = "skid stage drain: releasing buffered item")

/-- The counters that a log shows. Retired instructions are reported on request only. -/
def logged (trace : Bool) (k : Counters) : Counters where
  retired := if trace then k.retired else 0
  cacheHits := k.cacheHits
  cacheMisses := k.cacheMisses
  overflows := k.overflows
  drains := k.drains

theorem ofLog_append (es es' : List Event) : ofLog (es ++ es') = ofLog es + ofLog es' := by
  simp only [ofLog, List.countP_append]
  rfl

theorem ofLog_transitions (ts : List Transition) :
    ofLog (ts.filterMap Transition.event?) = ofTransitions ts := by
  have hp : ∀ p q : Transition → Bool, (∀ t, p t = q t) → ts.countP p = ts.countP q :=
    fun p q h => by rw [funext h]
  have hz : ts.countP (fun _ => false) = 0 := by simp
  simp only [ofLog, ofTransitions, List.countP_filterMap, List.count, mk.injEq, true_and]
  refine ⟨(hp _ _ ?_).trans hz, (hp _ _ ?_).trans hz, (hp _ _ ?_).trans hz, hp _ _ ?_,
    hp _ _ ?_⟩ <;> intro t <;> cases t <;> decide

end Counters

namespace Core

def log (os : List Outcome) : List Event := os.flatMap (·.events)

def retireLog (os : List Outcome) : List Event := (log os).filter (·.message = "retire")

/-- What is to be reported of the retired instructions, when the first tick has number `n`. -/
def retireEvents (n : Nat) : List Outcome → List Event
  | [] => []
  | o :: os => (o.retired.map (retireEvent n)).toList ++ retireEvents (n + 1) os

variable {store : Store} {s : Settings} {c : Core}

section Tick

variable (store : Store) (c : Core) (fetch : Option Fetched) (sinkReady : Bool)

/-- The reference is reported first, then the stages, and last the retired instruction. -/
theorem events_tick_eq : (c.tick store fetch sinkReady).1.events =
    ((c.refer store).map (·.event)).toList ++
      (c.line.tick (c.offer fetch) (c.advance store sinkReady)).1.transitions.filterMap
        Transition.event? ++
      if c.trace then
        ((c.tick store fetch sinkReady).1.retired.map (retireEvent (c.counters.cycles + 1))).toList
      else [] := rfl

theorem ofLog_refer : Counters.ofLog ((c.refer store).map (·.event)).toList =
    { cacheHits := c.headServed.toNat
      cacheMisses := (c.tick store fetch sinkReady).1.missed.toNat } := by
  rw [headServed, Outcome.missed, lookup_tick]
  cases he : c.headLoad with
  | none => rw [refer_eq_none he]; rfl
  | some e =>
    have hm := c.cache.message_refer store e.imm
    rw [refer_eq_some he, Option.map_some, Option.map_some, Cache.lookup_refer]
    cases hh : (c.cache.probe e.imm).hit <;>
      simp [Counters.ofLog, hm, hh, Probe.lookup]

theorem logged_tick : (c.tick store fetch sinkReady).2.counters.logged c.trace =
    c.counters.logged c.trace + .ofLog (c.tick store fetch sinkReady).1.events := by
  have hr : Counters.ofLog (if c.trace then ((c.tick store fetch sinkReady).1.retired.map
      (retireEvent (c.counters.cycles + 1))).toList else []) =
      { retired :=
          if c.trace then (c.tick store fetch sinkReady).1.retired.isSome.toNat else 0 } := by
    cases c.trace <;> cases (c.tick store fetch sinkReady).1.retired <;> rfl
  rw [events_tick_eq, Counters.ofLog_append, Counters.ofLog_append,
    ofLog_refer store c fetch sinkReady, Counters.ofLog_transitions, hr]
  ext <;> simp [Counters.logged, Counters.ofTransitions, counters_retired_tick, cacheHits_tick,
    cacheMisses_tick_eq, overflows_tick, drains_tick]
  cases c.trace <;> simp

theorem retireLog_tick : (c.tick store fetch sinkReady).1.events.filter (·.message = "retire") =
    if c.trace then
      ((c.tick store fetch sinkReady).1.retired.map (retireEvent (c.counters.cycles + 1))).toList
    else [] := by
  have hc : ∀ e ∈ ((c.refer store).map (·.event)).toList, e.message ≠ "retire" := by
    cases he : c.headLoad with
    | none => simp [refer_eq_none he]
    | some e =>
      have hm := c.cache.message_refer store e.imm
      cases hh : (c.cache.probe e.imm).hit <;> simp [refer_eq_some he, hm, hh]
  have hs : ∀ ts : List Transition, ∀ e ∈ ts.filterMap Transition.event?, e.message ≠ "retire" := by
    intro ts e he
    obtain ⟨t, -, ht⟩ := List.mem_filterMap.mp he
    cases t <;> cases ht <;> decide
  rw [events_tick_eq, List.filter_append, List.filter_append,
    List.filter_eq_nil_iff.mpr (by simpa using hc),
    List.filter_eq_nil_iff.mpr (by simpa using hs _)]
  cases c.trace <;> cases (c.tick store fetch sinkReady).1.retired <;> rfl

end Tick

theorem log_run_cons (store : Store) (c : Core) (i : Input) (is : List Input) :
    log (c.run store (i :: is)).1 = (c.tick store i.fetch i.sinkReady).1.events ++
      log ((c.tick store i.fetch i.sinkReady).2.run store is).1 := rfl

theorem logged_run (store : Store) (c : Core) (is : List Input) :
    (c.run store is).2.counters.logged c.trace =
      c.counters.logged c.trace + .ofLog (log (c.run store is).1) := by
  induction is generalizing c with
  | nil => ext <;> simp [log, Counters.ofLog]
  | cons i is ih =>
    have hi := ih (c.tick store i.fetch i.sinkReady).2
    rw [show (c.tick store i.fetch i.sinkReady).2.trace = c.trace from rfl,
      logged_tick store c i.fetch i.sinkReady] at hi
    rw [run_cons, hi, ← run_cons, log_run_cons, Counters.ofLog_append]
    ext <;> simp [Nat.add_assoc]

theorem retireLog_run (store : Store) (c : Core) (is : List Input) :
    retireLog (c.run store is).1 =
      if c.trace then retireEvents (c.counters.cycles + 1) (c.run store is).1 else [] := by
  induction is generalizing c with
  | nil => simp [retireLog, log, retireEvents]
  | cons i is ih =>
    have hi := ih (c.tick store i.fetch i.sinkReady).2
    rw [show (c.tick store i.fetch i.sinkReady).2.trace = c.trace from rfl, cycles_tick] at hi
    rw [retireLog, log_run_cons, List.filter_append, retireLog_tick, ← retireLog, hi]
    cases c.trace <;> rfl

theorem retired_run (store : Store) (c : Core) (is : List Input) :
    (c.run store is).2.counters.retired =
      c.counters.retired + (retirements (c.run store is).1).length := by
  induction is generalizing c with
  | nil => rfl
  | cons i is ih =>
    rw [run_cons, ih, counters_retired_tick, retirements_cons, List.length_append, length_toList,
      Nat.add_assoc]

theorem getElem?_retireEvents {os : List Outcome} {j : Nat} {r : Retired}
    (h : (retirements os)[j]? = some r) (m : Nat) :
    ∃ n o, os[n]? = some o ∧ o.retired = some r ∧ turn os n = j ∧
      (retireEvents m os)[j]? = some (retireEvent (m + n) r) := by
  induction os generalizing j m with
  | nil => simp at h
  | cons o os ih =>
    cases ho : o.retired with
    | none =>
      rw [retirements_cons, ho] at h
      obtain ⟨n, o', hn, hr, ht, he⟩ := ih h (m + 1)
      refine ⟨n + 1, o', hn, hr, ?_, ?_⟩
      · rw [turn, List.take_succ_cons, retirements_cons, ho]
        exact ht
      · rw [retireEvents, ho, Nat.add_right_comm, Nat.add_assoc] at *
        exact he
    | some r' =>
      rw [retirements_cons, ho] at h
      cases j with
      | zero =>
        obtain rfl : r' = r := by simpa using h
        exact ⟨0, o, rfl, ho, rfl, by rw [retireEvents, ho]; rfl⟩
      | succ j =>
        obtain ⟨n, o', hn, hr, ht, he⟩ := ih (by simpa using h) (m + 1)
        refine ⟨n + 1, o', hn, hr, ?_, ?_⟩
        · rw [turn, List.take_succ_cons, retirements_cons, ho]
          simpa [turn] using ht
        · rw [retireEvents, ho]
          simpa [Nat.add_right_comm, Nat.add_assoc] using he

/-- The log of a run since a reset counts what the counters count, as counters of 64 bits do below
`2 ^ 64`. If the retired instructions are reported, the events that do so name them in order, each
with its own fields and the number of the tick in which it retired. -/
theorem log_agrees_with_counters (h : AtReset store s c) (is : List Input) :
    let os := (c.run store is).1
    let k := (c.run store is).2.counters
    Counters.ofLog (log os) = k.logged s.general.trace ∧
      (retirements os).length = k.retired ∧
      (s.general.trace = true → ∀ j r, (retirements os)[j]? = some r →
        ∃ n o e, os[n]? = some o ∧ o.retired = some r ∧ turn os n = j ∧
          (retireLog os)[j]? = some e ∧
          e.fields = [("cycle", n + 1), ("pc", r.entry.pc.toNat), ("inst", r.entry.inst.toNat),
              ("alu_op", r.entry.ctrl.aluOp.bits.toNat)] ++
            (r.loaded.map fun w => ("load_data", w.toNat)).toList) := by
  intro os k
  have ht : c.trace = s.general.trace := h.reachable.sound.trace_eq
  refine ⟨?_, ?_, fun htrace j r hr => ?_⟩
  · have hl := logged_run store c is
    rw [h.counters_eq, ht] at hl
    change Counters.ofLog (log (c.run store is).1) = (c.run store is).2.counters.logged _
    rw [hl]
    ext <;> simp [Counters.logged]
  · have hk := retired_run store c is
    rw [h.counters_eq, Nat.zero_add] at hk
    exact hk.symm
  · obtain ⟨n, o, hn, ho, hj, he⟩ := getElem?_retireEvents hr 1
    refine ⟨n, o, retireEvent (1 + n) r, hn, ho, hj, ?_, ?_⟩
    · rw [retireLog_run, ht, htrace, h.counters_eq]
      exact he
    · rw [Nat.add_comm 1 n]
      rfl

/-- Both loads miss, the sink stalls, and a stage overflows and drains. The addition
behind the first load retires in tick 6. -/
theorem log_agrees_with_counters_evicting :
    let s : Settings :=
      { general := { trace := true }, cache := { numBlocks := 2 }, pipeline := { stages := 2 } }
    let store : Store := fun a => a + 7
    let is : List Input :=
      [⟨some ⟨0, 0xFFF02003⟩, true⟩, ⟨some ⟨4, 0x00100093⟩, true⟩, ⟨some ⟨8, 0x00102003⟩, true⟩,
        ⟨none, true⟩, ⟨none, false⟩, ⟨none, true⟩, ⟨none, true⟩]
    ∃ c, AtReset store s c ∧
      Counters.ofLog (log (c.run store is).1) =
        { retired := 2, cacheHits := 1, cacheMisses := 2, overflows := 2, drains := 2 } ∧
      (retirements (c.run store is).1)[1]?.map (·.entry.pc) = some 4 ∧
      (retireLog (c.run store is).1)[1]?.map Event.fields =
        some [("cycle", 6), ("pc", 4), ("inst", 0x00100093), ("alu_op", 7)] := by
  intro s store is
  obtain ⟨c, hc, hk, hr, hn⟩ : ∃ c, ofSettings s = .ok c ∧
      (c.run store is).2.counters.logged true =
        { retired := 2, cacheHits := 1, cacheMisses := 2, overflows := 2, drains := 2 } ∧
      (retirements (c.run store is).1)[1]? = some ⟨Isa.base.entry ⟨4, 0x00100093⟩, none⟩ ∧
      ∀ n < 7, (c.run store is).1[n]?.any (·.retired.isSome) = true →
        turn (c.run store is).1 n = 1 → n = 5 := by
    subst s
    refine ⟨_, rfl, ?_, ?_, ?_⟩ <;> decide +kernel
  obtain ⟨hl, -, he⟩ := log_agrees_with_counters (.inl hc) is
  obtain ⟨n, o, e, ho, hret, ht, he, hf⟩ := he rfl 1 _ hr
  have h7 : n < 7 := by
    have := (List.getElem?_eq_some_iff.mp ho).1
    rwa [run, length_clock] at this
  obtain rfl : n = 5 := hn n h7 (by rw [ho, Option.any_some, hret]; rfl) ht
  refine ⟨c, .inl hc, hl.trans hk, by rw [hr]; rfl, ?_⟩
  rw [he, Option.map_some, hf]
  decide +kernel

end Core

end ElasticCore
