import ElasticCore.Proofs.Core.Liveness
import ElasticCore.Proofs.Core.Workload
import ElasticCore.Proofs.Handshake.Ahead

/-! # Larger caches

Two cores work on the same program, with the same pauses of the source and stalls of the sink,
and one of them has the larger cache. That one is never behind. When both have retired equally
many instructions and the same load is at both heads, the larger cache has served it before or
has seen the same loads as the smaller one, and hits if that one does.
-/

namespace ElasticCore.Core

/-- Settings that agree in all that matters but for the blocks of the cache, which are no fewer in
the second ones. -/
structure CacheAtMost (s s' : Settings) : Prop where
  pipeline_eq : s.pipeline = s'.pipeline
  addrWidth_eq : s.cache.addrWidth = s'.cache.addrWidth
  numBlocks_le : s.cache.numBlocks ≤ s'.cache.numBlocks

/-- Tick `n` is the first in which the instruction of turn `k` refers to the cache. -/
structure FirstReference (os : List Outcome) (k n : Nat) : Prop where
  turn_eq : turn os n = k
  refers : os[n]?.any (·.lookup.isSome) = true
  first : ∀ m < n, turn os m = k → os[m]?.any (·.lookup.isSome) = false

/-- The second core is ahead of the first in a workload. Of its words, `k` and `k'` have reached
the heads. -/
structure Trails (store store' : Store) (s s' : Settings) (w : Workload) (k k' : Nat)
    (f f' : Feed Core Fetched) : Prop where
  fed : Fed store s w k f
  fed' : Fed store' s' w k' f'
  ahead : Line.Ahead f.machine.counters.retired f'.machine.counters.retired
    f.machine.line.stages f'.machine.line.stages
  le : k ≤ k'

variable {store store' : Store} {s s' : Settings} {w : Workload} {c c' : Core} {k k' m n : Nat}
  {f f' : Feed Core Fetched} {e : Entry}

theorem isSome_lookup_tick (store : Store) (c : Core) (fetch : Option Fetched) (sinkReady : Bool) :
    (c.tick store fetch sinkReady).1.lookup.isSome = c.headLoad.isSome := by
  rw [lookup_tick, Option.isSome_map, refer, Option.isSome_map]

theorem isSome_nextFetch_iff (f : Feed Core Fetched) (mayOffer : Bool) :
    (nextFetch f mayOffer).isSome = true ↔ mayOffer = true ∧ 0 < f.pending.length := by
  cases mayOffer <;> simp [nextFetch, List.length_pos_iff]

/-- When equally many instructions have reached the heads, the caches have seen the same loads. -/
theorem Fed.within (h : Fed store s w k f) (h' : Fed store' s' w k f') (hs : CacheAtMost s s') :
    f.machine.cache.Within f'.machine.cache := by
  have hc : f.machine.cache.geometry.Coarser f'.machine.cache.geometry :=
    Geometry.coarser_of_ofShape h.reachable.sound.ofShape_eq h'.reachable.sound.ofShape_eq
      hs.addrWidth_eq hs.numBlocks_le
  rw [h.cache_eq, h'.cache_eq, hs.pipeline_eq]
  exact (Cache.within_ofGeometry hc).serveAll ..

theorem Fed.hit_of_reached (h : Fed store s w (f.machine.counters.retired + 1) f)
    (he : f.machine.headLoad = some e) : (f.machine.cache.probe e.imm).hit = true := by
  obtain ⟨hh, hm⟩ := headLoad_eq_some_iff.mp he
  have hs := requests_take_succ (h.getElem?_retired hh)
  rw [hm, if_pos rfl] at hs
  rw [h.cache_eq, hs, Cache.serveAll_append_singleton]
  exact Cache.hit_probe_lookup ..

theorem Trails.head (h : Trails store store' s s' w k k' f f') (hs : CacheAtMost s s')
    (hr : f.machine.counters.retired = f'.machine.counters.retired)
    (he : f.machine.line.head = some e) : f'.machine.line.head = some e := by
  have hl := h.fed.reachable.sound.line
  have hl' := h.fed'.reachable.sound.line
  have hv : (Line.exposed (.empty : Slot Entry) f.machine.line.stages).valid = true :=
    Slot.valid_of_item? ((Line.head_eq hl.stages_ne_nil _).symm.trans he)
  have hv' : (Line.exposed (.empty : Slot Entry) f'.machine.line.stages).valid = true :=
    h.ahead.exposed_of_exposed hl.sound hl'.sound hr (fun _ he => he) hv
  obtain ⟨e', he'⟩ : ∃ e', f'.machine.line.head = some e' := by
    rw [Line.head_eq hl'.stages_ne_nil .empty]
    exact ⟨_, if_pos hv'⟩
  have hg := h.fed.getElem?_retired he
  have hg' := h.fed'.getElem?_retired he'
  rw [hs.pipeline_eq, hr, hg'] at hg
  rw [he', hg]

theorem Trails.advance (h : Trails store store' s s' w k k' f f') (hs : CacheAtMost s s')
    (hr : f.machine.counters.retired = f'.machine.counters.retired)
    (he : f.machine.line.head = some e) {sinkReady : Bool}
    (ha : f.machine.advance store sinkReady = true) :
    f'.machine.advance store' sinkReady = true := by
  have he' := h.head hs hr he
  cases hm : e.ctrl.memRead with
  | false =>
    rw [Core.advance, refer_eq_none (headLoad_eq_none he hm)] at ha
    rw [Core.advance, refer_eq_none (headLoad_eq_none he' hm)]
    exact ha
  | true =>
    have hl' := headLoad_eq_some_iff.mpr ⟨he', hm⟩
    rw [advance_eq_of_headLoad (headLoad_eq_some_iff.mpr ⟨he, hm⟩), Bool.and_eq_true] at ha
    rw [advance_eq_of_headLoad hl', Bool.and_eq_true]
    refine ⟨ha.1, ?_⟩
    have hk := h.fed.retired_le
    have hk' := h.fed'.le_retired
    have hle := h.le
    rw [he', Option.isSome_some, Bool.toNat_true] at hk'
    obtain rfl | rfl : k' = k ∨ k' = f'.machine.counters.retired + 1 := by omega
    · exact (h.fed.within h.fed' hs).hit _ ha.2
    · exact h.fed'.hit_of_reached hl'

theorem Fed.entered_eq (h : Fed store s w k f) :
    Line.entered f.machine.counters.retired f.machine.line.stages + f.pending.length =
      w.words.length := by
  rw [h.length_eq, Line.entered, ← Line.items_eq, Line.length_items]

theorem Trails.offer (h : Trails store store' s s' w k k' f f') (mayOffer : Bool)
    (he : Line.entered f.machine.counters.retired f.machine.line.stages =
      Line.entered f'.machine.counters.retired f'.machine.line.stages)
    (ho : (f.machine.offer (nextFetch f mayOffer)).valid = true) :
    (f'.machine.offer (nextFetch f' mayOffer)).valid = true := by
  have hl := h.fed.entered_eq
  have hl' := h.fed'.entered_eq
  rw [valid_offer, isSome_nextFetch_iff] at ho ⊢
  exact ⟨ho.1, by omega⟩

theorem Trails.tick (h : Trails store store' s s' w k k' f f') (hs : CacheAtMost s s')
    (mayOffer sinkReady : Bool) :
    Trails store store' s s' w
      (f.machine.counters.retired + f.machine.line.head.isSome.toNat)
      (f'.machine.counters.retired + f'.machine.line.head.isSome.toNat)
      (feedIf store f mayOffer sinkReady).2 (feedIf store' f' mayOffer sinkReady).2 where
  fed := h.fed.tick mayOffer sinkReady
  fed' := h.fed'.tick mayOffer sinkReady
  ahead := by
    have hf := h.fed.reachable.sound
    have hf' := h.fed'.reachable.sound
    have hk (hr : f.machine.counters.retired = f'.machine.counters.retired)
        (hv : (Line.exposed (f.machine.offer (nextFetch f mayOffer))
          f.machine.line.stages).valid = true) :
        f.machine.advance store sinkReady = true → f'.machine.advance store' sinkReady = true := by
      have he : f.machine.line.head = some _ :=
        (Line.head_eq hf.line.stages_ne_nil _).trans (if_pos hv)
      exact h.advance hs hr he
    have ha := h.ahead.successors hf.line.sound hf'.line.sound (h.offer mayOffer) hk
    rw [hf.departures_eq, hf'.departures_eq] at ha
    exact ha
  le := by
    apply Line.add_toNat_le_add_toNat h.ahead.gone_le
    intro hr hv
    obtain ⟨e, he⟩ := Option.isSome_iff_exists.mp hv
    rw [h.head hs hr he]
    rfl

theorem AtReset.trails (h : AtReset store s c) (h' : AtReset store' s' c') (hs : CacheAtMost s s')
    (w : Workload) (n : Nat) :
    Trails store store' s s' w (w.reached store c n) (w.reached store' c' n)
      (w.after store c n) (w.after store' c' n) := by
  induction n with
  | zero =>
    refine ⟨h.fed w 0, h'.fed w 0, ?_, Nat.le_refl 0⟩
    rw [w.after_zero, w.after_zero, h.counters_eq, h'.counters_eq, h.line.eq, h'.line.eq,
      hs.pipeline_eq]
    exact Line.ahead_replicate_reset _
  | succ n ih =>
    rw [w.after_succ, w.after_succ]
    exact ih.tick hs _ _

theorem AtReset.turn_outcomes (h : AtReset store s c) (w : Workload) (hm : m ≤ n) :
    turn (w.outcomes store c n) m = (w.after store c m).machine.counters.retired := by
  rw [turn, w.take_outcomes store c hm, (h.counts_eq w m).2]

theorem mem_missTicks_outcomes_iff (hm : m < n)
    (he : (w.after store c m).machine.headLoad = some e) :
    m ∈ missTicks (w.outcomes store c n) ↔
      ((w.after store c m).machine.cache.probe e.imm).hit = false := by
  rw [missTicks, Set.mem_ofPred_eq, w.getElem?_outcomes store c hm, Option.any_some]
  refine missed_tick_iff.trans ⟨?_, fun hh => ⟨e, he, hh⟩⟩
  rintro ⟨e', he', hh⟩
  obtain rfl := Option.some.inj (he.symm.trans he')
  exact hh

theorem any_lookup_outcomes (store : Store) (c : Core) (w : Workload) (hm : m < n) :
    (w.outcomes store c n)[m]?.any (·.lookup.isSome) =
      (w.after store c m).machine.headLoad.isSome := by
  rw [w.getElem?_outcomes store c hm, Option.any_some]
  exact isSome_lookup_tick ..

theorem exists_head_of_lt_reached
    (hk : (w.after store c (n + 1)).machine.counters.retired = k)
    (hlt : k < w.reached store c (n + 1)) :
    (w.after store c n).machine.counters.retired = k ∧
      ∃ e, (w.after store c n).machine.line.head = some e := by
  have hr : (w.after store c n).machine.counters.retired ≤ k := by
    rw [← hk, w.after_succ]
    exact Nat.le_add_right _ _
  have hone := Bool.toNat_le (w.after store c n).machine.line.head.isSome
  rw [Workload.reached] at hlt
  constructor
  · omega
  · apply Option.isSome_iff_exists.mp
    apply Bool.toNat_eq_one.mp
    omega

theorem AtReset.first_reference (h : AtReset store s c)
    (hf : FirstReference (w.outcomes store c n) k m) :
    m < n ∧ w.reached store c m = k ∧ ∃ e, (w.after store c m).machine.headLoad = some e ∧
      (w.entries s.pipeline.isa)[k]? = some e := by
  have hm : m < n := by
    by_contra hm
    have hr := hf.refers
    rw [List.getElem?_eq_none (by rw [w.length_outcomes]; omega)] at hr
    cases hr
  have hk := hf.turn_eq
  have hr := hf.refers
  rw [h.turn_outcomes w hm.le] at hk
  rw [any_lookup_outcomes store c w hm] at hr
  obtain ⟨e, he⟩ := Option.isSome_iff_exists.mp hr
  have hg := (h.fed w m).getElem?_retired (headLoad_eq_some_iff.mp he).1
  rw [hk] at hg
  refine ⟨hm, Nat.le_antisymm ?_ (hk ▸ (h.fed w m).retired_le), e, he, hg⟩
  cases m with
  | zero => exact Nat.zero_le _
  | succ i =>
    -- Had the instruction reached the head before, it would have referred to the cache then.
    by_contra hlt
    have hi : i < n := by omega
    obtain ⟨hki, e', he'⟩ := exists_head_of_lt_reached hk (Nat.lt_of_not_le hlt)
    have hg' := (h.fed w i).getElem?_retired he'
    rw [hki, hg] at hg'
    obtain rfl := Option.some.inj hg'
    have hfirst := hf.first i (Nat.lt_succ_self i) ((h.turn_outcomes w hi.le).trans hki)
    rw [any_lookup_outcomes store c w hi,
      headLoad_eq_some_iff.mpr ⟨he', (headLoad_eq_some_iff.mp he).2⟩] at hfirst
    cases hfirst

/-- On the same workload, a core with a larger cache has after every tick accepted and retired no
fewer instructions. When both have referred to the cache for the same load, its first reference
misses in the larger cache only if it misses in the smaller one. -/
theorem larger_cache_never_behind (h : AtReset store s c) (h' : AtReset store' s' c')
    (hs : CacheAtMost s s') (w : Workload) (n : Nat) :
    let os := w.outcomes store c n
    let os' := w.outcomes store' c' n
    os.countP (·.accepted) ≤ os'.countP (·.accepted) ∧
      (retirements os).length ≤ (retirements os').length ∧
      ∀ k m m', FirstReference os k m → FirstReference os' k m' →
        (∃ f, w.words[k]? = some f ∧ f.inst.opcode = Opcode.load.bits) ∧
          (m' ∈ missTicks os' → m ∈ missTicks os) := by
  intro os os'
  have ht := h.trails h' hs w n
  refine ⟨?_, ?_, ?_⟩
  · rw [(h.counts_eq w n).1, (h'.counts_eq w n).1, ht.fed.reachable.balanced.accepted_eq,
      ht.fed'.reachable.balanced.accepted_eq, ← Line.length_items, ← Line.length_items]
    exact ht.ahead.entered_le
  · rw [(h.counts_eq w n).2, (h'.counts_eq w n).2]
    exact ht.ahead.gone_le
  · intro k m m' hf hf'
    obtain ⟨hm, hk, e, he, hg⟩ := h.first_reference hf
    obtain ⟨hm', hk', e', he', hg'⟩ := h'.first_reference hf'
    rw [hs.pipeline_eq, hg'] at hg
    obtain rfl := Option.some.inj hg
    constructor
    · obtain ⟨f, hf, rfl⟩ := Option.map_eq_some_iff.mp (List.getElem?_map .. ▸ hg')
      exact ⟨f, hf, (Isa.memRead_decodeInstruction_iff _ _).mp (headLoad_eq_some_iff.mp he).2⟩
    · have hw := ((hk ▸ h.fed w m).within (hk' ▸ h'.fed w m') hs).hit e'.imm
      rw [mem_missTicks_outcomes_iff hm he, mem_missTicks_outcomes_iff hm' he', Bool.eq_false_iff,
        Bool.eq_false_iff]
      exact mt hw

/-- Loads from 1 and 2 in turn evict each other from a single block, and not from two. The second
load is new to both caches. The last one hits in the larger cache, before its turn comes with the
smaller one. -/
theorem larger_cache_never_behind_evicting :
    let s : Settings := { cache := { numBlocks := 1 }, pipeline := { stages := 2 } }
    let s' : Settings :=
      { general := { trace := true }, cache := { numBlocks := 2, dataWidth := 8 },
        pipeline := { stages := 2 } }
    let store : Store := fun a => a + 7
    let store' : Store := fun a => 3 * a
    let w : Workload :=
      { words := program 0 [0x00102003, 0x00202003, 0x00102003, 0x00202003]
        mayOffer n := n != 1
        sinkReady n := n % 5 != 4 }
    ∃ c c', AtReset store s c ∧ AtReset store' s' c' ∧ CacheAtMost s s' ∧
      let os := w.outcomes store c 9
      let os' := w.outcomes store' c' 9
      (retirements os).length = 3 ∧ (retirements os').length = 4 ∧
        (retirements os).length ≤ (retirements os').length ∧
        FirstReference os 1 4 ∧ FirstReference os' 1 4 ∧ 4 ∈ missTicks os' ∧ 4 ∈ missTicks os ∧
        FirstReference os 3 8 ∧ FirstReference os' 3 7 ∧ 7 ∉ missTicks os' := by
  intro s s' store store' w
  obtain ⟨c, hc, hr, hf, hf₃⟩ : ∃ c, ofSettings s = .ok c ∧
      (retirements (w.outcomes store c 9)).length = 3 ∧
      FirstReference (w.outcomes store c 9) 1 4 ∧ FirstReference (w.outcomes store c 9) 3 8 := by
    subst s
    refine ⟨_, rfl, ?_, ⟨?_, ?_, ?_⟩, ?_, ?_, ?_⟩ <;> decide +kernel
  obtain ⟨c', hc', hr', hf', hf₃', hm', hm₃'⟩ : ∃ c', ofSettings s' = .ok c' ∧
      (retirements (w.outcomes store' c' 9)).length = 4 ∧
      FirstReference (w.outcomes store' c' 9) 1 4 ∧ FirstReference (w.outcomes store' c' 9) 3 7 ∧
      (w.outcomes store' c' 9)[4]?.any (·.missed) = true ∧
      (w.outcomes store' c' 9)[7]?.any (·.missed) = false := by
    subst s'
    refine ⟨_, rfl, ?_, ⟨?_, ?_, ?_⟩, ⟨?_, ?_, ?_⟩, ?_, ?_⟩ <;> decide +kernel
  have hs : CacheAtMost s s' := ⟨rfl, rfl, by decide⟩
  obtain ⟨-, hl, hk⟩ := larger_cache_never_behind (.inl hc) (.inl hc') hs w 9
  exact ⟨c, c', .inl hc, .inl hc', hs, hr, hr', hl, hf, hf', hm', (hk 1 4 4 hf hf').2 hm', hf₃,
    hf₃', Bool.eq_false_iff.mp hm₃'⟩

end ElasticCore.Core
