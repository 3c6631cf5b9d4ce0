import ElasticCore.Proofs.Core.Program
import Mathlib.Order.Monotone.Basic

/-! # Cycle accounting

A steady program meets an empty head only while its first word crosses the line. In every
later tick, up to the retirement of the last word, an instruction retires or is held back
at the head. When the sink is always ready, each tick lost at the head is a cache miss.
-/

namespace ElasticCore.Core

variable {store : Store} {s : Settings} {c : Core} {words : List Fetched} {n : Nat}
  {f : Feed Core Fetched}

theorem held_eq_missed (store : Store) (c : Core) :
    (c.line.head.isSome && !c.advance store true) =
      ((c.refer store).map (·.lookup)).any (!·.hit) := by
  cases he : c.headLoad with
  | none => simp [advance, refer_eq_none he]
  | some e =>
    have hh : c.line.head = some e := (Option.filter_eq_some_iff.mp he).1
    simp [advance, refer_eq_some he, hh]

theorem Streamed.head_of_lt (h : Streamed store s words n f)
    (hn : n < s.pipeline.stages.toNat) : f.machine.line.head = none :=
  h.flowing.head_of_lt (h.reachable.sound.line.depth_eq.2 ▸ hn)

theorem Streamed.head_of_le (h : Streamed store s words n f)
    (hn : s.pipeline.stages.toNat ≤ n) (hr : f.machine.counters.retired < words.length) :
    f.machine.line.head.isSome = true := by
  have hl := h.reachable.sound.line
  by_contra hh
  obtain ⟨ho, hi⟩ := h.flowing.eq_nil_of_head hl.sound hl.stages_ne_nil (hl.depth_eq.2 ▸ hn)
    (Option.not_isSome_iff_eq_none.mp hh)
  have hw := h.length_eq
  rw [valid_offer, Option.isSome_eq_false_iff, Option.isNone_iff_eq_none,
    List.head?_eq_none_iff] at ho
  rw [← Line.length_items, hi, ho, List.length_nil, List.length_nil] at hw
  omega

theorem AtReset.length_streamRetirements (h : AtReset store s c) (words : List Fetched)
    (sinkReady : Nat → Bool) (n : Nat) :
    (streamRetirements store c words sinkReady n).length =
      (c.stream store words sinkReady n).2.machine.counters.retired := by
  induction n with
  | zero => rw [stream_zero, h.counters_eq]; rfl
  | succ n ih =>
    rw [streamRetirements_succ, List.length_append, ih, stream_succ, length_toList]
    rfl

theorem monotone_retired (store : Store) (c : Core) (words : List Fetched)
    (sinkReady : Nat → Bool) :
    Monotone fun n => (streamRetirements store c words sinkReady n).length := by
  refine monotone_nat_of_le_succ fun n => ?_
  rw [streamRetirements_succ, List.length_append]
  exact Nat.le_add_right _ _

theorem AtReset.retired_add_sinkStalls (h : AtReset store s c) (words : List Fetched)
    (sinkReady : Nat → Bool) (n : Nat)
    (hr : ∀ m < n, (c.stream store words sinkReady m).2.machine.counters.retired < words.length) :
    (c.stream store words sinkReady n).2.machine.counters.retired +
        (c.stream store words sinkReady n).2.machine.counters.sinkStalls =
      n - s.pipeline.stages.toNat := by
  induction n with
  | zero => rw [stream_zero, h.counters_eq]; simp
  | succ n ih =>
    have hi := ih fun m hm => hr m (Nat.lt_succ_of_lt hm)
    have hs := h.streamed_stream words sinkReady n
    have ht := hs.reachable.sound.retired_add_sinkStalls_tick
      (c.stream store words sinkReady n).2.pending.head? (sinkReady n)
    rw [hi] at ht
    rw [stream_succ]
    refine ht.trans ?_
    rcases Nat.lt_or_ge n s.pipeline.stages.toNat with hn | hn
    · rw [hs.head_of_lt hn, Option.isSome_none, Bool.toNat_false]
      omega
    · rw [hs.head_of_le hn (hr n (Nat.lt_succ_self n)), Bool.toNat_true]
      omega

theorem AtReset.sinkStalls_eq_cacheMisses (h : AtReset store s c) (words : List Fetched)
    (sinkReady : Nat → Bool) (n : Nat) (hr : ∀ m < n, sinkReady m = true) :
    (c.stream store words sinkReady n).2.machine.counters.sinkStalls =
      (c.stream store words sinkReady n).2.machine.counters.cacheMisses := by
  induction n with
  | zero => rw [stream_zero, h.counters_eq]
  | succ n ih =>
    rw [stream_succ, hr n (Nat.lt_succ_self n)]
    simp only [feedIf, sinkStalls_tick, cacheMisses_tick, held_eq_missed,
      ih fun m hm => hr m (Nat.lt_succ_of_lt hm)]

/-- The head of a steady program is empty in as many ticks as there are stages, and from
then on full until the last word retires. By then, every tick has filled the line, retired
an instruction or held one back, and a ready sink holds one back only for a miss. Fewer than
`2 ^ 64` ticks are meant where a counter has 64 bits. -/
theorem cycles_eq_stages_add_retired_add_stalls (h : AtReset store s c) (words : List Fetched)
    (sinkReady : Nat → Bool) :
    let core n := (c.stream store words sinkReady n).2.machine
    let retired n := (streamRetirements store c words sinkReady n).length
    let depth := s.pipeline.stages.toNat
    (∀ n < depth, (core n).line.head = none) ∧
      (∀ n ≥ depth, retired n < words.length → (core n).line.head.isSome = true) ∧
      ∀ n, retired n < words.length → retired (n + 1) = words.length →
        (core (n + 1)).counters.retired = words.length ∧
        (core (n + 1)).counters.cycles =
          depth + (core (n + 1)).counters.retired + (core (n + 1)).counters.sinkStalls ∧
        ((∀ m ≤ n, sinkReady m = true) →
          (core (n + 1)).counters.sinkStalls = (core (n + 1)).counters.cacheMisses) := by
  intro core retired depth
  have hc n : retired n = (core n).counters.retired := h.length_streamRetirements words sinkReady n
  refine ⟨fun n hn => (h.streamed_stream words sinkReady n).head_of_lt hn,
    fun n hn hr => (h.streamed_stream words sinkReady n).head_of_le hn (hc n ▸ hr), ?_⟩
  intro n hn hl
  have ha := h.retired_add_sinkStalls words sinkReady (n + 1) fun m hm => by
    rw [← h.length_streamRetirements words sinkReady m]
    exact (monotone_retired store c words sinkReady (Nat.le_of_lt_succ hm)).trans_lt hn
  have hk := (h.streamed_stream words sinkReady (n + 1)).cycles_eq
  have hw := (hc (n + 1)).symm.trans hl
  refine ⟨hw, ?_, fun hr =>
    h.sinkStalls_eq_cacheMisses words sinkReady (n + 1) fun m hm => hr m (Nat.le_of_lt_succ hm)⟩
  simp only [core, depth] at *
  omega

/-- Two loads miss in a program of four words on three stages. A sink that stalls in every
fourth tick delays the second of them once more. -/
theorem cycles_eq_stages_add_retired_add_stalls_evicting :
    let s : Settings := { cache := { numBlocks := 2 }, pipeline := { stages := 3 } }
    let store : Store := fun a => a + 7
    let words := program 0 [0xFFF02003, 0x00100093, 0x00102003, 0x33]
    let stalling n := n % 4 != 3
    let eager := fun _ : Nat => true
    ∃ c, AtReset store s c ∧
      let core sinkReady n := (c.stream store words sinkReady n).2.machine
      (core stalling 2).line.head = none ∧ (core stalling 9).line.head.isSome = true ∧
        (core stalling 10).counters.cycles = 3 + 4 + 3 ∧
        (core eager 9).counters.cycles = 3 + 4 + 2 ∧
        (core eager 9).counters.cacheMisses = 2 := by
  intro s store words stalling eager
  obtain ⟨c, hc, hs, hs', he, he', hk, hk'⟩ : ∃ c, ofSettings s = .ok c ∧
      (streamRetirements store c words stalling 9).length = 3 ∧
      (streamRetirements store c words stalling 10).length = 4 ∧
      (streamRetirements store c words eager 8).length = 3 ∧
      (streamRetirements store c words eager 9).length = 4 ∧
      (c.stream store words stalling 10).2.machine.counters.sinkStalls = 3 ∧
      (c.stream store words eager 9).2.machine.counters.cacheMisses = 2 := by
    subst s
    refine ⟨_, rfl, ?_, ?_, ?_, ?_, ?_, ?_⟩ <;> decide +kernel
  obtain ⟨hn, hf, hl⟩ := cycles_eq_stages_add_retired_add_stalls (.inl hc) words stalling
  obtain ⟨hr, ht, -⟩ := hl 9 (hs.trans_lt (by decide)) hs'
  obtain ⟨-, -, hl'⟩ := cycles_eq_stages_add_retired_add_stalls (.inl hc) words eager
  obtain ⟨hr', ht', hm⟩ := hl' 8 (he.trans_lt (by decide)) he'
  rw [hr, hk] at ht
  rw [hr', hm fun _ _ => rfl, hk'] at ht'
  exact ⟨c, .inl hc, hn 2 (by decide), hf 9 (by decide) (hs.trans_lt (by decide)), ht, ht', hk'⟩

end ElasticCore.Core
