import ElasticCore.Proofs.Core.Retry
import Mathlib.Data.List.Induction

/-! # Reset

A reset is left to the units: the line, the cache and the counters return, each by itself, to where
they began. No tick changes what the settings decide, so that a core that is reset is the core that
was built, whatever the store answered meanwhile and wherever an instruction was held. What retires
after a reset was thus accepted after it, and what hits was fetched after it.
-/

namespace ElasticCore.Core

/-- A tick, with the store as it answers in that tick, or a reset. -/
inductive Action
  | tick (store : Store) (i : Input)
  | reset

structure View where
  /-- What the action showed, if it was a tick. -/
  outcome : Option Outcome
  ready : Bool
  output : Entry
  counters : Counters

def view (c : Core) (outcome : Option Outcome) : View where
  outcome
  ready := c.ready
  output := c.line.output false
  counters := c.counters

def act (c : Core) : Action → View × Core
  | .tick store i =>
    let t := c.tick store i.fetch i.sinkReady
    (t.2.view (some t.1), t.2)
  | .reset => (c.reset.view none, c.reset)

def session (c : Core) (as : List Action) : List View × Core := clock act c as

/-- A run of ticks in each of which the store answers as given. -/
def runWith (c : Core) (ts : List (Store × Input)) : List Outcome × Core :=
  clock (fun c t => c.tick t.1 t.2.fetch t.2.sinkReady) c ts

variable {s : Settings} {c c' : Core}

theorem Wired.act (h : Wired s c) (a : Action) : Wired s (c.act a).2 := by
  cases a with
  | tick store i => exact h.tick store i.fetch i.sinkReady
  | reset => exact h.reset

theorem Wired.session (h : Wired s c) (as : List Action) : Wired s (c.session as).2 := by
  induction as generalizing c with
  | nil => exact h
  | cons a as ih => exact ih (h.act a)

theorem wired_of_ofSettings (h : ofSettings s = .ok c) : Wired s c :=
  (sound_of_ofSettings (fun _ => 0) h).1.toWired

theorem Wired.reset_eq (h : Wired s c) (hc : ofSettings s = .ok c') : c.reset = c' := by
  obtain ⟨-, hl, hb, hk⟩ := sound_of_ofSettings (fun _ => 0) hc
  have hw := wired_of_ofSettings hc
  have hg : c.cache.geometry = c'.cache.geometry :=
    Except.ok.inj (h.ofShape_eq.symm.trans hw.ofShape_eq)
  have hflush : c.line.flush = c'.line := by
    rw [Line.AtReset.eq (.inr ⟨c.line, h.line, rfl⟩), (Line.ofDepth_eq_ok_iff.mp hl).2]
  have hinv : c.cache.invalidateAll = c'.cache := by
    rw [Cache.invalidateAll, hg, ← hb]
  rw [Core.reset, hflush, hinv, h.isa_eq, h.trace_eq, ← hw.isa_eq, ← hw.trace_eq, ← hk]

section RunWith

variable (c : Core) (ts : List (Store × Input)) (t : Store × Input)

theorem runWith_concat : c.runWith (ts ++ [t]) =
    ((c.runWith ts).1 ++ [((c.runWith ts).2.tick t.1 t.2.fetch t.2.sinkReady).1],
      ((c.runWith ts).2.tick t.1 t.2.fetch t.2.sinkReady).2) :=
  clock_append _ c ts [t]

theorem length_runWith : (c.runWith ts).1.length = ts.length := length_clock _ c ts

theorem getElem?_runWith (n : Nat) : (c.runWith ts).1[n]? =
    ts[n]?.map fun t => ((c.runWith (ts.take n)).2.tick t.1 t.2.fetch t.2.sinkReady).1 :=
  getElem?_clock _ c ts n

theorem take_runWith (n : Nat) : (c.runWith ts).1.take n = (c.runWith (ts.take n)).1 :=
  take_clock _ c ts n

end RunWith

theorem Wired.runWith (h : Wired s c) (ts : List (Store × Input)) : Wired s (c.runWith ts).2 := by
  induction ts generalizing c with
  | nil => exact h
  | cons t ts ih => exact ih (h.tick t.1 t.2.fetch t.2.sinkReady)

theorem Wired.entries_runWith (h : Wired s c) (ts : List (Store × Input)) :
    c.line.items ++ (acceptedFetches (ts.map (·.2)) (c.runWith ts).1).map s.pipeline.isa.entry =
      (retirements (c.runWith ts).1).map (·.entry) ++ (c.runWith ts).2.line.items := by
  induction ts generalizing c with
  | nil => simp [acceptedFetches, retirements, Core.runWith]
  | cons t ts ih =>
    have ht := h.items_tick t.1 t.2.fetch t.2.sinkReady
    have hi := ih (h.tick t.1 t.2.fetch t.2.sinkReady)
    simp only [Core.runWith, clock_cons, List.map_cons, acceptedFetches_cons, retirements_cons,
      List.map_append, Option.toList_map] at ht hi ⊢
    rw [← List.append_assoc, ht, List.append_assoc, hi, List.append_assoc]

theorem sink_runWith (c : Core) (ts : List (Store × Input)) :
    (c.runWith ts).2.line.sink =
      ((retirements (c.runWith ts).1).map (·.entry)).getLast?.getD c.line.sink := by
  induction ts using List.reverseRecOn with
  | nil => rfl
  | append_singleton ts t ih =>
    rw [runWith_concat, line_tick, Line.sink_tick, ← entry_retired_tick, ih, retirements_append,
      List.map_append, List.getLast?_append, retirements_cons, retirements_nil, List.append_nil]
    cases ((c.runWith ts).2.tick t.1 t.2.fetch t.2.sinkReady).1.retired <;> simp

/-- The valid blocks hold words that the store gave in these ticks, when they missed. -/
def Supplied (s : CacheShape) (ts : List ((Store × Input) × Outcome)) (c : Cache) : Prop :=
  ∀ i b, c.block? i = some b → b.valid = true →
    ∃ p ∈ ts, ∃ addr, p.2.reads = [s.masked addr] ∧ s.blockOf addr = i ∧
      b = s.holding p.1.1 (s.masked addr)

theorem supplied_ofGeometry (s : CacheShape) (g : Geometry) : Supplied s [] (.ofGeometry g) := by
  intro i b hb hv
  rw [Cache.valid_of_block?_ofGeometry hb] at hv
  cases hv

theorem Supplied.mono {s : CacheShape} {ts ts' : List ((Store × Input) × Outcome)} {c : Cache}
    (h : Supplied s ts c) (hs : ts ⊆ ts') : Supplied s ts' c := by
  intro i b hb hv
  obtain ⟨p, hp, ha⟩ := h i b hb hv
  exact ⟨p, hs hp, ha⟩

theorem Wired.supplied_tick (h : Wired s c) {ts : List ((Store × Input) × Outcome)}
    (hs : Supplied s.cache ts c.cache) (t : Store × Input) :
    Supplied s.cache (ts ++ [(t, (c.tick t.1 t.2.fetch t.2.sinkReady).1)])
      (c.tick t.1 t.2.fetch t.2.sinkReady).2.cache := by
  have hm := hs.mono (List.subset_append_left ts
    [(t, (c.tick t.1 t.2.fetch t.2.sinkReady).1)])
  cases he : c.headLoad with
  | none => rwa [cache_tick_of_no_load he]
  | some e =>
    rw [cache_tick_of_load he]
    cases hh : (c.cache.probe e.imm).hit with
    | true =>
      rw [Cache.lookup, Cache.fill_refer, hh]
      exact hm
    | false =>
      intro i b hb hv
      have hi : i < c.cache.geometry.numBlocks := by
        have := (Array.getElem?_eq_some_iff.mp hb).1
        simpa [Cache.lookup, Cache.size_blocks] using this
      by_cases hn : c.cache.geometry.index e.imm = i
      · rw [← hn, Cache.block?_lookup_self, hh] at hb
        refine ⟨_, List.mem_append_right _ (List.mem_singleton_self _), e.imm,
          h.reads_tick_of_missed he hh, ?_, ?_⟩
        · rw [← hn, Geometry.index_eq_blockOf h.ofShape_eq]
        · rw [← Option.some.inj hb, Geometry.tag_eq_holding h.ofShape_eq t.1,
            Geometry.read_eq_wordAt h.ofShape_eq]
          rfl
      · rw [Cache.block?_lookup_of_ne hi hn] at hb
        exact hm i b hb hv

theorem Wired.supplied_runWith (h : Wired s c) (hc : c.cache = .ofGeometry c.cache.geometry)
    (ts : List (Store × Input)) :
    Supplied s.cache (ts.zip (c.runWith ts).1) (c.runWith ts).2.cache := by
  induction ts using List.reverseRecOn with
  | nil =>
    change Supplied s.cache [] c.cache
    rw [hc]
    exact supplied_ofGeometry s.cache _
  | append_singleton ts t ih =>
    rw [runWith_concat, List.zip_append (length_runWith c ts).symm]
    exact (h.runWith ts).supplied_tick ih t

theorem Wired.lookup_of_hit (h : Wired s c) {ts : List ((Store × Input) × Outcome)}
    (hs : Supplied s.cache ts c.cache) {store : Store} {fetch : Option Fetched} {sinkReady : Bool}
    {l : Lookup} (hl : (c.tick store fetch sinkReady).1.lookup = some l) (hh : l.hit = true) :
    ∃ e, c.headLoad = some e ∧ ∃ p ∈ ts, p.2.reads = [s.cache.masked e.imm] ∧
      l.data = s.cache.wordAt p.1.1 (s.cache.masked e.imm) := by
  rw [lookup_tick] at hl
  cases he : c.headLoad with
  | none => rw [refer_eq_none he] at hl; cases hl
  | some e =>
    rw [refer_eq_some he, Option.map_some, Cache.lookup_refer] at hl
    obtain rfl := Option.some.inj hl
    obtain ⟨hv, ht⟩ := (Cache.hit_probe_iff c.cache e.imm).mp hh
    obtain ⟨p, hp, addr, hr, hi, hb⟩ := hs _ _ (c.cache.block?_index e.imm) hv
    have ha : s.cache.masked addr = s.cache.masked e.imm := by
      rw [CacheShape.masked_eq_iff h.ofShape_eq, hi, Geometry.index_eq_blockOf h.ofShape_eq, ← ht,
        hb, Geometry.tag_eq_holding h.ofShape_eq p.1.1]
      exact ⟨rfl, rfl⟩
    rw [ha] at hr hb
    exact ⟨e, rfl, p, hp, hr, congrArg Block.data hb⟩

/-- A reset makes a core the one that was built, so that it shows from then on what a new core
would show. What retires, or waits, was accepted after the reset, and a load hits a word that the
store gave for its address after the reset. -/
theorem reset_eq_build (h : ofSettings s = .ok c) (before later : List Action) :
    let r := (c.session before).2.reset
    r = c ∧
      (c.session (before ++ .reset :: later)).1 =
        (c.session before).1 ++ c.view none :: (c.session later).1 ∧
      ∀ ts : List (Store × Input),
        let os := (r.runWith ts).1
        let c' := (r.runWith ts).2
        (acceptedFetches (ts.map (·.2)) os).map s.pipeline.isa.entry =
            (retirements os).map (·.entry) ++ c'.line.items ∧
          c'.line.output false = ((retirements os).map (·.entry)).getLast?.getD default ∧
          ∀ n l, os[n]?.bind (·.lookup) = some l → l.hit = true →
            ∃ e, (r.runWith (ts.take n)).2.headLoad = some e ∧ ∃ p ∈ (ts.zip os).take n,
              p.2.reads = [s.cache.masked e.imm] ∧
                l.data = s.cache.wordAt p.1.1 (s.cache.masked e.imm) := by
  intro r
  have hr : r = c := ((wired_of_ofSettings h).session before).reset_eq h
  have hw : Wired s r := hr ▸ wired_of_ofSettings h
  obtain ⟨-, hl, hb, -⟩ := sound_of_ofSettings (fun _ => 0) h
  refine ⟨hr, ?_, fun ts => ⟨?_, ?_, fun n l ho hh => ?_⟩⟩
  · rw [session, clock_append, clock_cons]
    change (c.session before).1 ++ r.view none :: (r.session later).1 = _
    rw [hr]
  · have he := hw.entries_runWith ts
    rwa [hr, Line.AtReset.items_eq (.inl hl), List.nil_append, ← hr] at he
  · have hs := sink_runWith r ts
    rwa [hr, show c.line.sink = default by rw [(Line.ofDepth_eq_ok_iff.mp hl).2], ← hr] at hs
  · obtain ⟨o, hn, hl⟩ := Option.bind_eq_some_iff.mp ho
    rw [getElem?_runWith] at hn
    obtain ⟨t, -, rfl⟩ := Option.map_eq_some_iff.mp hn
    have hs := hw.supplied_runWith (hr ▸ hb) (ts.take n)
    rw [← take_runWith, List.zip, ← List.take_zipWith] at hs
    exact (hw.runWith (ts.take n)).lookup_of_hit hs hl hh

/-- Before the reset the line holds three instructions and the cache the word 5 for address 1. After
it the load from 1 misses again, although the store has changed, and hits the word 7 that the store
gave for the miss. -/
theorem reset_eq_build_occupied :
    let s : Settings := { cache := { numBlocks := 2 }, pipeline := { stages := 2 } }
    let load : Option Fetched := some ⟨4, 0x00102003⟩
    let before : List Action :=
      [.tick (fun _ => 5) ⟨load, true⟩, .tick (fun _ => 5) ⟨load, true⟩,
        .tick (fun _ => 5) ⟨none, true⟩, .tick (fun _ => 6) ⟨load, false⟩]
    let ts : List (Store × Input) :=
      [(fun _ => 6, ⟨load, true⟩), (fun _ => 6, ⟨none, true⟩), (fun _ => 7, ⟨none, true⟩),
        (fun _ => 8, ⟨none, true⟩)]
    ∃ c, ofSettings s = .ok c ∧
      let c' := (c.session before).2
      c'.line.occupancy = 3 ∧ c'.cache.block? 1 = some { valid := true, tag := 0, data := 5 } ∧
        c'.reset = c ∧
        let os := (c'.reset.runWith ts).1
        os[2]?.map (·.missed) = some true ∧
          os[3]?.bind (·.lookup) = some { data := 7, hit := true } ∧
          ∃ p ∈ (ts.zip os).take 3, p.2.reads = [1] ∧ 7 = s.cache.wordAt p.1.1 1 := by
  intro s load before ts
  obtain ⟨c, hc, ho, hb, hm, hh, he⟩ : ∃ c, ofSettings s = .ok c ∧
      (c.session before).2.line.occupancy = 3 ∧
      (c.session before).2.cache.block? 1 = some { valid := true, tag := 0, data := 5 } ∧
      ((c.session before).2.reset.runWith ts).1[2]?.map (·.missed) = some true ∧
      ((c.session before).2.reset.runWith ts).1[3]?.bind (·.lookup) =
        some { data := 7, hit := true } ∧
      ((c.session before).2.reset.runWith (ts.take 3)).2.headLoad.map (·.imm) = some 1 := by
    subst s
    refine ⟨_, rfl, ?_, ?_, ?_, ?_, ?_⟩ <;> decide +kernel
  obtain ⟨hr, -, hts⟩ := reset_eq_build hc before []
  obtain ⟨e, hhead, p, hp, hreads, hd⟩ := (hts ts).2.2 3 _ hh rfl
  rw [hhead, Option.map_some, Option.some.injEq] at he
  rw [he] at hreads hd
  exact ⟨c, hc, ho, hb, hr, hm, hh, p, hp, hreads, hd⟩

end ElasticCore.Core
