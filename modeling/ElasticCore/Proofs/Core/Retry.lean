import ElasticCore.Proofs.Cache.Contents
import ElasticCore.Proofs.Core.Order
import Mathlib.Data.Set.Function

/-! # Repeated references

A miss holds its load at the head and installs the word of its address. While the load is
held, no other instruction refers to the cache, so that the word stays: every later reference
of the load hits. A load thus misses at most once, and a run has no more misses than loads.
-/

namespace ElasticCore.Core

def Outcome.missed (o : Outcome) : Bool := o.lookup.any (!·.hit)

def missTicks (os : List Outcome) : Set Nat := {n | os[n]?.any (·.missed) = true}

/-- The place, among all that are accepted, of the instruction that is next to retire in a tick. -/
def turn (os : List Outcome) (n : Nat) : Nat := (retirements (os.take n)).length

/-- A load stands at the head, and the cache holds its word. -/
structure Served (c : Core) (e : Entry) : Prop where
  headLoad : c.headLoad = some e
  hit : (c.cache.probe e.imm).hit = true

def headServed (c : Core) : Bool := c.headLoad.any fun e => (c.cache.probe e.imm).hit

variable {store : Store} {s : Settings} {c : Core} {e : Entry} {fetch : Option Fetched}
  {sinkReady : Bool}

theorem advance_eq_of_headLoad (he : c.headLoad = some e) (sinkReady : Bool) :
    c.advance store sinkReady = (sinkReady && (c.cache.probe e.imm).hit) := by
  rw [advance, refer_eq_some he, Option.map_some, Option.all_some, Cache.lookup_refer]
  rfl

theorem missed_tick_iff : (c.tick store fetch sinkReady).1.missed = true ↔
    ∃ e, c.headLoad = some e ∧ (c.cache.probe e.imm).hit = false := by
  rw [Outcome.missed, lookup_tick]
  cases he : c.headLoad with
  | none => simp [refer_eq_none he]
  | some e => simp [refer_eq_some he, Probe.lookup]

theorem advance_eq_of_missed (store : Store) (c : Core) (fetch : Option Fetched)
    (sinkReady : Bool) :
    c.advance store sinkReady = (sinkReady && !(c.tick store fetch sinkReady).1.missed) := by
  rw [advance, Outcome.missed, lookup_tick]
  cases (c.refer store).map (·.lookup) <;> simp

theorem Sound.retired_tick_of_held (h : Sound store s c) (ha : c.advance store sinkReady = false)
    (fetch : Option Fetched) : (c.tick store fetch sinkReady).1.retired = none := by
  rw [← Option.not_isSome_iff_eq_none, h.isSome_retired_tick, ha, Bool.and_false]
  exact Bool.false_ne_true

theorem Sound.head_tick_of_held (h : Sound store s c) (ha : c.advance store sinkReady = false)
    (he : c.line.head = some e) (fetch : Option Fetched) :
    (c.tick store fetch sinkReady).2.line.head = some e := by
  rw [line_tick, ha]
  exact Line.head_tick_of_stalled h.line.stages_ne_nil _ he

/-- A load that is held back has its word in the cache from the next tick on. -/
theorem Sound.served_tick (h : Sound store s c) (he : c.headLoad = some e)
    (ha : c.advance store sinkReady = false) (fetch : Option Fetched) :
    Served (c.tick store fetch sinkReady).2 e where
  headLoad := by
    obtain ⟨hh, hm⟩ := headLoad_eq_some_iff.mp he
    exact headLoad_eq_some_iff.mpr ⟨h.head_tick_of_held ha hh fetch, hm⟩
  hit := by
    rw [cache_tick_of_load he]
    exact Cache.hit_probe_lookup store c.cache e.imm

theorem headServed_iff : c.headServed = true ↔ ∃ e, Served c e := by
  rw [headServed, Option.any_eq_true]
  exact exists_congr fun e => ⟨fun ⟨he, hh⟩ => ⟨he, hh⟩, fun ⟨he, hh⟩ => ⟨he, hh⟩⟩

theorem missed_add_headServed (store : Store) (c : Core) (fetch : Option Fetched)
    (sinkReady : Bool) :
    (c.tick store fetch sinkReady).1.missed.toNat + c.headServed.toNat =
      c.headLoad.isSome.toNat := by
  rw [Outcome.missed, lookup_tick, headServed]
  cases he : c.headLoad with
  | none => simp [refer_eq_none he]
  | some e =>
    cases hh : (c.cache.probe e.imm).hit <;> simp [refer_eq_some he, Probe.lookup, hh]

theorem Served.run (hs : Served c e) (hc : Reachable store s c) {is : List Input}
    (hr : retirements (c.run store is).1 = []) : Served (c.run store is).2 e := by
  induction is generalizing c with
  | nil => exact hs
  | cons i is ih =>
    rw [run_cons, retirements_cons, List.append_eq_nil_iff, Option.toList_eq_nil_iff] at hr
    obtain ⟨hi, hr⟩ := hr
    have hh := (headLoad_eq_some_iff.mp hs.headLoad).1
    have ha : c.advance store i.sinkReady = false := by
      have := hc.sound.isSome_retired_tick i.fetch i.sinkReady
      rw [hi, hh] at this
      exact this.symm
    exact ih (hc.sound.served_tick hs.headLoad ha i.fetch) (hc.tick i.fetch i.sinkReady) hr

theorem Served.not_missed_tick (hs : Served c e) :
    ¬ (c.tick store fetch sinkReady).1.missed = true := by
  intro hm
  obtain ⟨e', he, hh⟩ := missed_tick_iff.mp hm
  obtain rfl := Option.some.inj (hs.headLoad.symm.trans he)
  rw [hs.hit] at hh
  cases hh

theorem Served.lookup_tick (hs : Served c e) (h : Sound store s c) :
    (c.tick store fetch sinkReady).1.lookup =
      some { data := s.cache.wordAt store (s.cache.masked e.imm), hit := true } := by
  rw [Core.lookup_tick, refer_eq_some hs.headLoad, Option.map_some, Cache.lookup_refer,
    ← Geometry.read_eq_wordAt h.ofShape_eq, ← h.cache.data_of_hit hs.hit, ← hs.hit]
  rfl

theorem Served.head?_events_tick (hs : Served c e) (h : Sound store s c) :
    (c.tick store fetch sinkReady).1.events.head? =
      some (.cacheHit (s.cache.masked e.imm) (s.cache.blockOf e.imm)) := by
  obtain ⟨es, hes⟩ := events_tick store c fetch sinkReady
  rw [hes, refer_eq_some hs.headLoad, Option.map_some, Cache.event_refer_of_hit store hs.hit,
    Geometry.address_eq_masked h.ofShape_eq, Geometry.index_eq_blockOf h.ofShape_eq]
  rfl

theorem Wired.reads_tick_of_missed (h : Wired s c) (he : c.headLoad = some e)
    (hh : (c.cache.probe e.imm).hit = false) :
    (c.tick store fetch sinkReady).1.reads = [s.cache.masked e.imm] := by
  rw [reads_tick, refer_eq_some he, Option.elim_some, Cache.reads_refer, hh,
    Geometry.address_eq_masked h.ofShape_eq]
  rfl

section Matching

variable {is : List Input}

theorem getElem?_run (store : Store) (c : Core) (is : List Input) (n : Nat) :
    (c.run store is).1[n]? =
      is[n]?.map fun i => ((c.run store (is.take n)).2.tick store i.fetch i.sinkReady).1 :=
  getElem?_clock _ c is n

theorem mem_missTicks_run_iff {n : Nat} : n ∈ missTicks (c.run store is).1 ↔
    ∃ i, is[n]? = some i ∧
      ((c.run store (is.take n)).2.tick store i.fetch i.sinkReady).1.missed = true := by
  rw [missTicks, Set.mem_ofPred_eq, getElem?_run, Option.any_map]
  exact Option.any_eq_true ..

theorem take_run (store : Store) (c : Core) (is : List Input) (n : Nat) :
    (c.run store is).1.take n = (c.run store (is.take n)).1 :=
  take_clock _ c is n

theorem run_append (store : Store) (c : Core) (is js : List Input) :
    c.run store (is ++ js) =
      ((c.run store is).1 ++ ((c.run store is).2.run store js).1,
        ((c.run store is).2.run store js).2) :=
  clock_append _ c is js

theorem acceptedFetches_take_prefix (is : List Input) (os : List Outcome) (n : Nat) :
    acceptedFetches (is.take n) (os.take n) <+: acceptedFetches is os := by
  rw [acceptedFetches, acceptedFetches, List.zip, ← List.take_zipWith]
  exact (List.take_prefix n _).filterMap _

/-- The instruction at the head is the accepted one whose turn it is. -/
theorem AtReset.getElem?_turn (h : AtReset store s c) (is : List Input) {n : Nat}
    (he : (c.run store (is.take n)).2.line.head = some e) :
    ∃ f, (acceptedFetches is (c.run store is).1)[turn (c.run store is).1 n]? = some f ∧
      s.pipeline.isa.entry f = e := by
  obtain ⟨es, hi⟩ := Line.exists_items_eq_cons he
  have hr := h.reachable.entries_run (is.take n)
  rw [h.line.items_eq, List.nil_append, hi] at hr
  have hn : ((acceptedFetches (is.take n) (c.run store (is.take n)).1).map
      s.pipeline.isa.entry)[turn (c.run store is).1 n]? = some e := by
    rw [hr, turn, take_run, List.getElem?_append_right (by simp)]
    simp
  rw [List.getElem?_map, Option.map_eq_some_iff] at hn
  obtain ⟨f, hf, hfe⟩ := hn
  obtain ⟨fs, hfs⟩ := acceptedFetches_take_prefix is (c.run store is).1 n
  rw [take_run] at hfs
  refine ⟨f, ?_, hfe⟩
  rw [← hfs, List.getElem?_append_left (List.getElem?_eq_some_iff.mp hf).1, hf]

theorem run_take_of_le (store : Store) (c : Core) (is : List Input) {m n : Nat} (hmn : m ≤ n) :
    c.run store (is.take n) =
      let start := c.run store (is.take m)
      let rest := start.2.run store ((is.drop m).take (n - m))
      (start.1 ++ rest.1, rest.2) := by
  rw [← run_append, ← List.take_add, Nat.add_sub_cancel' hmn]

theorem run_take_succ (store : Store) (c : Core) {i : Input} {n : Nat} (hi : is[n]? = some i) :
    c.run store (is.take (n + 1)) =
      let start := c.run store (is.take n)
      let t := start.2.tick store i.fetch i.sinkReady
      (start.1 ++ [t.1], t.2) := by
  rw [List.take_add_one, hi]
  exact run_append store c _ [i]

theorem turn_eq_length (store : Store) (c : Core) (is : List Input) (n : Nat) :
    turn (c.run store is).1 n = (retirements (c.run store (is.take n)).1).length := by
  rw [turn, take_run]

theorem Reachable.turn_ne (h : Reachable store s c) {m n : Nat} (hmn : m < n)
    (hm : m ∈ missTicks (c.run store is).1) (hn : n ∈ missTicks (c.run store is).1) :
    turn (c.run store is).1 m ≠ turn (c.run store is).1 n := by
  intro ht
  obtain ⟨i, hi, hm⟩ := mem_missTicks_run_iff.mp hm
  obtain ⟨i', -, hn⟩ := mem_missTicks_run_iff.mp hn
  obtain ⟨e, he, hh⟩ := missed_tick_iff.mp hm
  have hc := h.run (is.take m)
  have ha : (c.run store (is.take m)).2.advance store i.sinkReady = false := by
    rw [advance_eq_of_headLoad he, hh, Bool.and_false]
  have hs := hc.sound.served_tick he ha i.fetch
  have hr := hc.sound.retired_tick_of_held ha i.fetch
  -- The load is served from the tick after the miss on, and nothing retires before tick `n`.
  rw [turn_eq_length, turn_eq_length, run_take_of_le store c is hmn,
    run_take_succ store c hi] at ht
  rw [run_take_of_le store c is hmn, run_take_succ store c hi] at hn
  refine (hs.run (hc.tick _ _) (List.eq_nil_of_length_eq_zero ?_)).not_missed_tick hn
  simpa [retirements_append, hr] using ht

theorem Reachable.injOn_turn (h : Reachable store s c) (is : List Input) :
    Set.InjOn (turn (c.run store is).1) (missTicks (c.run store is).1) := by
  intro m hm n hn ht
  rcases Nat.lt_trichotomy m n with hlt | rfl | hlt
  · exact absurd ht (h.turn_ne hlt hm hn)
  · rfl
  · exact absurd ht.symm (h.turn_ne hlt hn hm)

theorem AtReset.load_of_missed (h : AtReset store s c) (is : List Input) {n : Nat}
    (hn : n ∈ missTicks (c.run store is).1) :
    ∃ f, (acceptedFetches is (c.run store is).1)[turn (c.run store is).1 n]? = some f ∧
      f.inst.opcode = Opcode.load.bits ∧
      ((c.run store is).1[n]?.map (·.reads)) =
        some [f.inst.loadAddress s.cache.addrWidth.toNat] := by
  obtain ⟨i, hi, hm⟩ := mem_missTicks_run_iff.mp hn
  obtain ⟨e, he, hh⟩ := missed_tick_iff.mp hm
  have hs := (h.reachable.run (is.take n)).sound
  obtain ⟨f, hf, rfl⟩ := h.getElem?_turn is (headLoad_eq_some_iff.mp he).1
  refine ⟨f, hf, ?_, ?_⟩
  · exact (Isa.memRead_decodeInstruction_iff _ _).mp (headLoad_eq_some_iff.mp he).2
  · rw [getElem?_run, hi, Option.map_some, Option.map_some, hs.reads_tick_of_missed he hh,
      ← Geometry.address_eq_masked hs.ofShape_eq, Geometry.address_entry,
      (Geometry.ofShape_eq_ok hs.ofShape_eq).1]

end Matching

/-- In a tick that misses nothing retires, and the load stays at the head. From the next tick
on, up to its retirement, it refers to the same address and hits, with the word of the store.
The misses since a reset are thus misses of different loads. -/
theorem missed_load_hits_until_retired (store : Store) (s : Settings) :
    (∀ c, Reachable store s c → ∀ fetch sinkReady,
      let t := c.tick store fetch sinkReady
      t.1.missed = true →
        ∃ e, c.line.head = some e ∧ e.ctrl.memRead = true ∧ t.1.retired = none ∧
          t.1.reads = [s.cache.masked e.imm] ∧
          ∀ is, retirements (t.2.run store is).1 = [] →
            let c' := (t.2.run store is).2
            c'.line.head = some e ∧ ∀ fetch' sinkReady',
              let o := (c'.tick store fetch' sinkReady').1
              o.events.head? =
                  some (.cacheHit (s.cache.masked e.imm) (s.cache.blockOf e.imm)) ∧
                o.lookup =
                  some { data := s.cache.wordAt store (s.cache.masked e.imm), hit := true }) ∧
    ∀ c, AtReset store s c → ∀ is,
      let os := (c.run store is).1
      Set.InjOn (turn os) (missTicks os) ∧ ∀ n ∈ missTicks os,
        ∃ f, (acceptedFetches is os)[turn os n]? = some f ∧ f.inst.opcode = Opcode.load.bits ∧
          os[n]?.map (·.reads) = some [f.inst.loadAddress s.cache.addrWidth.toNat] := by
  refine ⟨fun c h fetch sinkReady hm => ?_, fun c h is =>
    ⟨h.reachable.injOn_turn is, fun n hn => h.load_of_missed is hn⟩⟩
  obtain ⟨e, he, hh⟩ := missed_tick_iff.mp hm
  obtain ⟨hhead, hload⟩ := headLoad_eq_some_iff.mp he
  have ha : c.advance store sinkReady = false := by
    rw [advance_eq_of_headLoad he, hh, Bool.and_false]
  have ht := h.tick fetch sinkReady
  refine ⟨e, hhead, hload, h.sound.retired_tick_of_held ha fetch, h.sound.reads_tick_of_missed he hh,
    fun is hr => ?_⟩
  have hs := (h.sound.served_tick he ha fetch).run ht hr
  refine ⟨(headLoad_eq_some_iff.mp hs.headLoad).1, fun fetch' sinkReady' => ?_⟩
  exact ⟨hs.head?_events_tick (ht.run is).sound, hs.lookup_tick (ht.run is).sound⟩

/-- The loads from 31 and 1 miss once each, in ticks 2 and 5, and the first one is held back
once more by the sink. -/
theorem missed_load_hits_until_retired_evicting :
    let s : Settings := { cache := { numBlocks := 2 }, pipeline := { stages := 2 } }
    let store : Store := fun a => a + 7
    let is : List Input :=
      [⟨some ⟨0, 0xFFF02003⟩, true⟩, ⟨some ⟨4, 0x00102003⟩, true⟩, ⟨some ⟨8, 0x33⟩, true⟩,
        ⟨none, false⟩, ⟨none, true⟩, ⟨none, true⟩, ⟨none, true⟩]
    ∃ c, AtReset store s c ∧
      let os := (c.run store is).1
      let t := (c.run store (is.take 2)).2.tick store (some ⟨8, 0x33⟩) true
      t.1.missed = true ∧ t.1.retired = none ∧
        (((t.2.run store [⟨none, false⟩]).2.tick store none true).1.lookup.map (·.hit)) =
          some true ∧
        2 ∈ missTicks os ∧ 5 ∈ missTicks os ∧ turn os 2 ≠ turn os 5 ∧
        os[5]?.map (·.reads) = some [1] := by
  intro s store is
  obtain ⟨c, hc, hm, hr, hm₂, hm₅, ha, ht⟩ : ∃ c, ofSettings s = .ok c ∧
      ((c.run store (is.take 2)).2.tick store (some ⟨8, 0x33⟩) true).1.missed = true ∧
      retirements ((((c.run store (is.take 2)).2.tick store (some ⟨8, 0x33⟩) true).2.run store
        [⟨none, false⟩]).1) = [] ∧
      (c.run store is).1[2]?.any (·.missed) = true ∧
      (c.run store is).1[5]?.any (·.missed) = true ∧
      acceptedFetches is (c.run store is).1 = [⟨0, 0xFFF02003⟩, ⟨4, 0x00102003⟩, ⟨8, 0x33⟩] ∧
      turn (c.run store is).1 5 = 1 := by
    subst s
    refine ⟨_, rfl, ?_, ?_, ?_, ?_, ?_, ?_⟩ <;> decide +kernel
  obtain ⟨hp, hq⟩ := missed_load_hits_until_retired store s
  obtain ⟨e, -, -, hn, -, hh⟩ := hp _ ((AtReset.reachable (.inl hc)).run (is.take 2)) _ _ hm
  obtain ⟨-, hl⟩ := hh _ hr
  obtain ⟨hi, hload⟩ := hq c (.inl hc) is
  obtain ⟨f, hf, -, ho⟩ := hload 5 hm₅
  rw [ha, ht] at hf
  obtain rfl := Option.some.inj hf
  refine ⟨c, .inl hc, hm, hn, by rw [(hl none true).2]; rfl, hm₂, hm₅, ?_, ho.trans ?_⟩
  · exact fun ht => absurd (hi hm₂ hm₅ ht) (by decide)
  · decide

end ElasticCore.Core
