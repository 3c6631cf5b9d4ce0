import ElasticCore.Cache.Memory
import ElasticCore.Proofs.Core.Reads
import ElasticCore.Proofs.Core.Reset

/-! # The memory behind a core

A memory maps every address below its size to a word: the one written last, or else the one that it
was built with. It ignores what is written beyond its end, and reads as zero there. A cache cuts an
address to its width before it asks for a word, so a memory of the same width always has that word.
-/

namespace ElasticCore

namespace Memory

variable {m : Memory} {initial : Word → Word} {w : Nat} {a : Word}

def writeAll (m : Memory) (ws : List (Word × Word)) : Memory :=
  ws.foldl (fun m p => m.write p.1 p.2) m

def latest (ws : List (Word × Word)) (a : Word) : Option Word := ws.reverse.lookup a

theorem writeAll_append_singleton (m : Memory) (ws : List (Word × Word)) (p : Word × Word) :
    m.writeAll (ws ++ [p]) = (m.writeAll ws).write p.1 p.2 := by
  rw [writeAll, List.foldl_append]
  rfl

theorem latest_append_singleton (ws : List (Word × Word)) (p : Word × Word) (a : Word) :
    latest (ws ++ [p]) a = if p.1 = a then some p.2 else latest ws a := by
  rw [latest, List.reverse_append, List.reverse_singleton, List.singleton_append, List.lookup_cons]
  by_cases h : p.1 = a
  · rw [if_pos h, h, beq_self_eq_true]
  · rw [if_neg h, beq_eq_false_iff_ne.mpr (Ne.symm h)]
    rfl

@[simp] theorem size_writeAll (m : Memory) (ws : List (Word × Word)) :
    (m.writeAll ws).size = m.size := by
  induction ws using List.reverseRecOn with
  | nil => rfl
  | append_singleton ws p ih => rw [writeAll_append_singleton, size_write, ih]

theorem read_of_le (h : m.size ≤ a.toNat) : m.read a = 0 := by
  rw [read, Array.getElem?_eq_none h, Option.getD_none]

theorem write_of_le (h : m.size ≤ a.toNat) (v : Word) : m.write a v = m := by
  have ha : ¬ a.toNat < m.words.size := Nat.not_lt.mpr h
  rw [write, Array.setIfInBounds, dif_neg ha]

theorem read_writeAll (ws : List (Word × Word)) (h : a.toNat < m.size) :
    (m.writeAll ws).read a = (latest ws a).getD (m.read a) := by
  induction ws using List.reverseRecOn with
  | nil => rfl
  | append_singleton ws p ih =>
    rw [writeAll_append_singleton, read_write, latest_append_singleton, size_writeAll]
    by_cases hp : p.1 = a
    · rw [if_pos ⟨hp, hp ▸ h⟩, if_pos hp, Option.getD_some]
    · rw [if_neg fun hn => hp hn.1, if_neg hp, ih]

/-- The memories that are built for an address width, with the words that they are built with. -/
inductive Whole (w : Nat) : Memory → (Word → Word) → Prop
  | zeros {m : Memory} : zeros w = .ok m → Whole w m fun _ => 0
  | tabulate {m : Memory} {f : Word → Word} : tabulate w f = .ok m → Whole w m f

inductive Built : Memory → (Word → Word) → Prop
  | whole {w : Nat} {m : Memory} {initial : Word → Word} : Whole w m initial → Built m initial
  | ofWords (words : Array Word) : Built (ofWords words) fun a => words[a.toNat]?.getD 0

theorem build_eq_ok_iff {build : Nat → Memory} :
    (do let size ← sizeFor w; return build size) = .ok m ↔
      w ≤ maxAddrWidth ∧ build ((Word.ones w).toNat + 1) = m := by
  unfold sizeFor
  split
  case isTrue h => exact iff_of_false nofun (by omega)
  case isFalse h => exact ⟨fun hm => ⟨by omega, Except.ok.inj hm⟩, fun hm => congrArg _ hm.2⟩

theorem exists_build_iff {build : Nat → Memory} :
    (∃ m, (do let size ← sizeFor w; return build size) = .ok m) ↔ w ≤ maxAddrWidth :=
  ⟨fun ⟨_, hm⟩ => (build_eq_ok_iff.mp hm).1, fun hw => ⟨_, build_eq_ok_iff.mpr ⟨hw, rfl⟩⟩⟩

theorem Whole.le_maxAddrWidth (h : Whole w m initial) : w ≤ maxAddrWidth := by
  cases h with
  | zeros h => exact (build_eq_ok_iff.mp h).1
  | tabulate h => exact (build_eq_ok_iff.mp h).1

theorem Whole.ones_add_one (h : Whole w m initial) : (Word.ones w).toNat + 1 = m.size := by
  cases h with
  | zeros h =>
    obtain ⟨-, rfl⟩ := build_eq_ok_iff.mp h
    rw [size_ofWords, Array.size_replicate]
  | tabulate h =>
    obtain ⟨-, rfl⟩ := build_eq_ok_iff.mp h
    rw [size_ofWords, Array.size_map, Array.size_range]

theorem Whole.read_eq (h : Whole w m initial) (ha : a.toNat < m.size) : m.read a = initial a := by
  rw [← h.ones_add_one] at ha
  cases h with
  | zeros h =>
    obtain ⟨-, rfl⟩ := build_eq_ok_iff.mp h
    simp [read, ha]
  | tabulate h =>
    obtain ⟨-, rfl⟩ := build_eq_ok_iff.mp h
    simp [read, ha]

theorem Whole.size_eq (h : Whole w m initial) : m.size = 2 ^ w := by
  have hw : w ≤ 64 := Nat.le_trans h.le_maxAddrWidth (by decide)
  rw [← h.ones_add_one, Word.toNat_ones, Nat.min_eq_left hw]
  exact Nat.sub_add_cancel Nat.one_le_two_pow

theorem Built.read_eq (h : Built m initial) (ha : a.toNat < m.size) : m.read a = initial a := by
  cases h with
  | whole h => exact h.read_eq ha
  | ofWords words => rfl

theorem Built.read_writeAll (h : Built m initial) (ws : List (Word × Word))
    (ha : a.toNat < m.size) : (m.writeAll ws).read a = (latest ws a).getD (initial a) := by
  rw [Memory.read_writeAll ws ha, h.read_eq ha]

end Memory

/-! ## Addresses read by a cache -/

theorem CacheShape.toNat_masked_lt (s : CacheShape) (addr : Word) :
    (s.masked addr).toNat < 2 ^ s.addrWidth.toNat := by
  calc (s.masked addr).toNat
      ≤ addr.toNat % 2 ^ s.addrWidth.toNat := by
        rw [masked, UInt64.toNat_ofNat']
        exact Nat.mod_le _ _
    _ < 2 ^ s.addrWidth.toNat := Nat.mod_lt _ (Nat.two_pow_pos _)

theorem Cache.toNat_lt_of_mem_missedAddresses {s : CacheShape} {rs : List (Word × Reference)}
    {a : Word} (h : a ∈ missedAddresses s rs) : a.toNat < 2 ^ s.addrWidth.toNat := by
  obtain ⟨r, -, rfl⟩ := List.mem_map.mp h
  exact s.toNat_masked_lt r.1

theorem Core.toNat_lt_of_mem_missedAddresses {s : CacheShape} {ts : List (Core × Outcome)}
    {a : Word} (h : a ∈ missedAddresses s ts) : a.toNat < 2 ^ s.addrWidth.toNat := by
  obtain ⟨t, -, ht⟩ := List.mem_filterMap.mp h
  obtain ⟨e, -, rfl⟩ := Option.map_eq_some_iff.mp ht
  exact s.toNat_masked_lt e.imm

/-- A memory keeps its size, and has at each address below it the word written last, or else the
one that it was built with; beyond its end it has zeros, whatever is written there. One that is
built for an address width has all words of this width, and is built unless the width exceeds the
limit. No cache of the same width, alone or in a core, ever reads beyond its end. -/
theorem Memory.total_on_address_space :
    (∀ m initial, Built m initial → ∀ ws : List (Word × Word),
      let m' := m.writeAll ws
      m'.size = m.size ∧
        (∀ a, a.toNat < m.size → m'.read a = (latest ws a).getD (initial a)) ∧
        ∀ a, m.size ≤ a.toNat → m'.read a = 0 ∧ ∀ v, m'.write a v = m') ∧
    (∀ words : Array Word, (ofWords words).size = words.size) ∧
    (∀ w, ((∃ m, zeros w = .ok m) ↔ w ≤ maxAddrWidth) ∧
      ∀ f, (∃ m, tabulate w f = .ok m) ↔ w ≤ maxAddrWidth) ∧
    ∀ w m initial, Whole w m initial → m.size = 2 ^ w ∧ (Word.ones w).toNat + 1 = m.size ∧
      ∀ ws : List (Word × Word),
        let m' := m.writeAll ws
        let Present a := a.toNat < m'.size ∧ m'.read a = (latest ws a).getD (initial a)
        (∀ s c, Cache.ofShape s = .ok c → s.addrWidth.toNat = w → ∀ ps : List Cache.Phase,
          ∀ a ∈ Cache.readAddresses (Cache.Session.references m'.read { cache := c } ps),
            Present a) ∧
        ∀ s c, Core.ofSettings s = .ok c → s.cache.addrWidth.toNat = w →
          ∀ steps : List Core.Step, ∀ a ∈ Core.readAddresses (c.history m'.read steps),
            Present a := by
  refine ⟨fun m initial h ws => ⟨size_writeAll m ws, fun a ha => h.read_writeAll ws ha,
    fun a ha => ?_⟩, fun _ => rfl, fun w => ⟨exists_build_iff, fun _ => exists_build_iff⟩,
    fun w m initial h => ?_⟩
  · rw [← size_writeAll m ws] at ha
    exact ⟨read_of_le ha, write_of_le ha⟩
  have hs := h.size_eq
  refine ⟨hs, h.ones_add_one, fun ws => ?_⟩
  intro m' Present
  have hp : ∀ a : Word, a.toNat < 2 ^ w → Present a := by
    intro a ha
    rw [← hs] at ha
    exact ⟨by rwa [size_writeAll], (Built.whole h).read_writeAll ws ha⟩
  refine ⟨fun s c hc hw ps a ha => hp a ?_, fun s c hc hw steps a ha => hp a ?_⟩
  · rw [Cache.Session.readAddresses_references (Cache.ofShape_eq_ok hc).1] at ha
    rw [← hw]
    exact Cache.toNat_lt_of_mem_missedAddresses ha
  · rw [(Core.wired_of_ofSettings hc).readAddresses_history] at ha
    rw [← hw]
    exact Core.toNat_lt_of_mem_missedAddresses ha

/-- Two writes to one address, and one beyond the end. A lookup of 33 reads the word at 1, and a
load from -1 the word at 31. -/
theorem Memory.total_on_address_space_rewritten :
    let f : Word → Word := fun a => 5 * a + 3
    let ws : List (Word × Word) := [(1, 7), (40, 8), (1, 9)]
    let s : Settings := { cache := { numBlocks := 2 }, pipeline := { stages := 1 } }
    let steps : List Core.Step :=
      [.tick ⟨some ⟨0, 0xFFF02003⟩, true⟩, .tick ⟨none, true⟩, .tick ⟨none, true⟩]
    ∃ m, tabulate 5 f = .ok m ∧
      let m' := m.writeAll ws
      (m'.size = 32 ∧ m'.read 1 = 9 ∧ m'.read 2 = 13) ∧ (m'.read 40 = 0 ∧ m'.write 40 1 = m') ∧
        (∃ c, Cache.ofShape s.cache = .ok c ∧
          1 ∈ Cache.readAddresses
            (Cache.Session.references m'.read { cache := c } [.serve (.lookup 33)]) ∧
          (1 < m'.size ∧ m'.read 1 = 9)) ∧
        ∃ c, Core.ofSettings s = .ok c ∧ 31 ∈ Core.readAddresses (c.history m'.read steps) ∧
          31 < m'.size ∧ m'.read 31 = 158 := by
  intro f ws s steps
  obtain ⟨hb, -, -, hw⟩ := Memory.total_on_address_space
  obtain ⟨m, hm, c, hc, hr, c', hc', hr'⟩ : ∃ m, tabulate 5 f = .ok m ∧
      ∃ c, Cache.ofShape s.cache = .ok c ∧
        1 ∈ Cache.readAddresses
          (Cache.Session.references (m.writeAll ws).read { cache := c } [.serve (.lookup 33)]) ∧
        ∃ c', Core.ofSettings s = .ok c' ∧
          31 ∈ Core.readAddresses (c'.history (m.writeAll ws).read steps) := by
    subst s
    refine ⟨_, rfl, _, rfl, ?_, _, rfl, ?_⟩ <;> decide +kernel
  obtain ⟨hlen, hin, hout⟩ := hb m f (.whole (.tabulate hm)) ws
  obtain ⟨hsize, -, hpresent⟩ := hw 5 m f (.tabulate hm)
  obtain ⟨hcache, hcore⟩ := hpresent ws
  rw [hsize] at hlen hin hout
  obtain ⟨hzero, hkept⟩ := hout 40 (by decide)
  refine ⟨m, hm, ⟨hlen, hin 1 (by decide), hin 2 (by decide)⟩, ⟨hzero, hkept 1⟩, ⟨c, hc, hr, ?_⟩,
    c', hc', hr', ?_⟩
  · exact hcache s.cache c hc rfl _ 1 hr
  · exact hcore s c' hc' rfl steps 31 hr'

end ElasticCore
