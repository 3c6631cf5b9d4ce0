import ElasticCore.Proofs.Cache.Coherence
import ElasticCore.Proofs.WordArithmetic
import Mathlib.Data.List.Induction

/-! # Contents of the cache

Which word a block holds is decided by the requests alone: it is the word at the address
that was looked up last among those of the block, since the blocks were last invalidated.
A lookup hits exactly when it repeats that address.
-/

namespace ElasticCore

inductive Cache.Request
  | lookup (addr : Word)
  | invalidateAll
  deriving DecidableEq, Repr

namespace Cache

/-- The cache after a request; a lookup has its replacement installed. -/
def serve (store : Store) (c : Cache) : Request → Cache
  | .lookup addr => (c.lookup store addr).2
  | .invalidateAll => c.invalidateAll

def serveAll (store : Store) (c : Cache) (rs : List Request) : Cache := rs.foldl (serve store) c

def Request.address? : Request → Option Word
  | .lookup addr => some addr
  | .invalidateAll => none

/-- The addresses looked up since the blocks were last invalidated, the latest first. -/
def recent (rs : List Request) : List Word :=
  (rs.reverse.takeWhile (· ≠ .invalidateAll)).filterMap Request.address?

end Cache

namespace CacheShape

variable (s : CacheShape)

/-- The address, modulo the size of the address space. -/
def masked (addr : Word) : Word := .ofNat (addr.toNat % 2 ^ s.addrWidth.toNat)

def blockOf (addr : Word) : Nat := addr.toNat % s.numBlocks.toNat

def wordAt (store : Store) (a : Word) : Word := .ofNat ((store a).toNat % 2 ^ s.dataWidth.toNat)

def holding (store : Store) (a : Word) : Block where
  valid := true
  tag := .ofNat (a.toNat / s.numBlocks.toNat)
  data := s.wordAt store a

/-- The masked address that was looked up last among those of a block. -/
def occupant (i : Nat) (rs : List Cache.Request) : Option Word :=
  ((Cache.recent rs).find? (s.blockOf · = i)).map s.masked

end CacheShape

namespace Geometry

variable (g : Geometry)

theorem index_address (addr : Word) : g.index (g.address addr) = g.index addr := by
  have hd : g.numBlocks ∣ 2 ^ g.addrWidth := Nat.pow_dvd_pow 2 (Nat.le_add_right _ _)
  rw [index_eq, toNat_address, Nat.mod_mod_of_dvd _ hd, index_eq]

theorem toNat_tag_eq_div (addr : Word) : (g.tag addr).toNat = (g.address addr).toNat / g.numBlocks := by
  rw [toNat_tag, toNat_address, addrWidth, Nat.pow_add]
  exact (Nat.mod_mul_right_div_self _ _ _).symm

theorem address_eq_iff {a b : Word} :
    g.address a = g.address b ↔ g.index a = g.index b ∧ g.tag a = g.tag b := by
  constructor
  · intro h
    refine ⟨by rw [← index_address, h, index_address], UInt64.toNat_inj.mp ?_⟩
    rw [toNat_tag_eq_div, toNat_tag_eq_div, h]
  · rintro ⟨hi, ht⟩
    apply UInt64.toNat_inj.mp
    rw [← tag_mul_add_index, ← tag_mul_add_index, hi, ht]

end Geometry

section Shape

variable {s : CacheShape} {g : Geometry}

theorem Geometry.index_eq_blockOf (h : ofShape s = .ok g) (addr : Word) :
    g.index addr = s.blockOf addr := by
  rw [index_eq, (ofShape_eq_ok h).2.2, CacheShape.blockOf]

theorem Geometry.address_eq_masked (h : ofShape s = .ok g) (addr : Word) :
    g.address addr = s.masked addr := by
  rw [CacheShape.masked, ← (ofShape_eq_ok h).1, ← toNat_address, UInt64.ofNat_toNat]

theorem Geometry.read_eq_wordAt (h : ofShape s = .ok g) (store : Store) (addr : Word) :
    g.read store addr = s.wordAt store (s.masked addr) := by
  rw [read, address_eq_masked h, Word.and_ones _ g.dataWidth_le, (ofShape_eq_ok h).2.1,
    CacheShape.wordAt]

theorem Geometry.tag_eq_holding (h : ofShape s = .ok g) (store : Store) (addr : Word) :
    g.tag addr = (s.holding store (s.masked addr)).tag := by
  rw [CacheShape.holding, ← address_eq_masked h, ← (ofShape_eq_ok h).2.2, ← toNat_tag_eq_div,
    UInt64.ofNat_toNat]

theorem CacheShape.masked_eq_iff (h : Geometry.ofShape s = .ok g) {a b : Word} :
    s.masked a = s.masked b ↔ s.blockOf a = s.blockOf b ∧ g.tag a = g.tag b := by
  rw [← Geometry.address_eq_masked h, ← Geometry.address_eq_masked h, Geometry.address_eq_iff,
    Geometry.index_eq_blockOf h, Geometry.index_eq_blockOf h]

end Shape

namespace Cache

variable {s : CacheShape} {c : Cache} {store : Store}

@[simp] theorem recent_append_lookup (rs : List Request) (addr : Word) :
    recent (rs ++ [.lookup addr]) = addr :: recent rs := by
  simp [recent, Request.address?]

@[simp] theorem recent_append_invalidateAll (rs : List Request) :
    recent (rs ++ [.invalidateAll]) = [] := by
  simp [recent]

theorem serveAll_append_singleton (store : Store) (c : Cache) (rs : List Request) (r : Request) :
    c.serveAll store (rs ++ [r]) = (c.serveAll store rs).serve store r := by
  rw [serveAll, List.foldl_append]
  rfl

@[simp] theorem geometry_serve (store : Store) (c : Cache) (r : Request) :
    (c.serve store r).geometry = c.geometry := by
  cases r with
  | lookup addr => exact geometry_commit _ _
  | invalidateAll => rfl

@[simp] theorem geometry_serveAll (store : Store) (c : Cache) (rs : List Request) :
    (c.serveAll store rs).geometry = c.geometry := by
  induction rs using List.reverseRecOn with
  | nil => rfl
  | append_singleton rs r ih => rw [serveAll_append_singleton, geometry_serve, ih]

theorem ofShape_eq_ok (h : ofShape s = .ok c) :
    Geometry.ofShape s = .ok c.geometry ∧ c = ofGeometry c.geometry := by
  unfold ofShape at h
  obtain ⟨g, hg, h⟩ := bind_eq_ok_iff.mp h
  cases h
  exact ⟨hg, rfl⟩

theorem block?_ofGeometry {g : Geometry} {i : Nat} (hi : i < g.numBlocks) :
    (ofGeometry g).block? i = some {} := by
  simp [block?, ofGeometry, hi]

theorem block?_lookup_of_ne {addr : Word} {i : Nat} (hi : i < c.geometry.numBlocks)
    (hne : c.geometry.index addr ≠ i) : (c.lookup store addr).2.block? i = c.block? i := by
  rw [lookup, fill_refer]
  split
  · rfl
  · exact (block?_replace _ _ _ hi).trans (if_neg hne)

theorem block?_lookup_self (store : Store) (c : Cache) (addr : Word) :
    (c.lookup store addr).2.block? (c.geometry.index addr) =
      some (if (c.probe addr).hit then c.blockAt addr else
        { valid := true, tag := c.geometry.tag addr, data := c.geometry.read store addr }) := by
  rw [lookup, fill_refer]
  split
  · exact c.block?_index addr
  · exact (block?_replace _ _ _ (c.geometry.index_lt addr)).trans (if_pos rfl)

theorem hit_probe_iff (c : Cache) (addr : Word) :
    (c.probe addr).hit = true ↔
      (c.blockAt addr).valid = true ∧ (c.blockAt addr).tag = c.geometry.tag addr := by
  simp [Probe.hit, probe]

theorem blockAt_eq_of_block? {addr : Word} {b : Block}
    (h : c.block? (c.geometry.index addr) = some b) : c.blockAt addr = b :=
  Option.some.inj ((c.block?_index addr).symm.trans h)

theorem hit_probe_lookup (store : Store) (c : Cache) (addr : Word) :
    ((c.lookup store addr).2.probe addr).hit = true := by
  have hg : (c.lookup store addr).2.geometry = c.geometry := geometry_commit _ _
  have hb := blockAt_eq_of_block? (by rw [hg]; exact block?_lookup_self store c addr)
  rw [hit_probe_iff, hb, hg]
  split
  case isTrue hh => exact (hit_probe_iff c addr).mp hh
  case isFalse => exact ⟨rfl, rfl⟩

/-- A block with an occupant is hit by the addresses that are masked to it, and a block without
one by none. -/
theorem hit_probe_iff_occupant (hg : Geometry.ofShape s = .ok c.geometry) {addr : Word}
    {rs : List Request}
    (hb : c.blockAt addr = (s.occupant (s.blockOf addr) rs).elim {} (s.holding store)) :
    (c.probe addr).hit = true ↔ s.occupant (s.blockOf addr) rs = some (s.masked addr) := by
  rw [hit_probe_iff, hb, CacheShape.occupant]
  cases hf : (recent rs).find? (s.blockOf · = s.blockOf addr) with
  | none => simp
  | some a =>
    have hi : s.blockOf a = s.blockOf addr := by simpa using List.find?_some hf
    rw [Option.map_some, Option.elim_some, ← Geometry.tag_eq_holding hg, Option.some.injEq,
      CacheShape.masked_eq_iff hg]
    exact ⟨fun h => ⟨hi, h.2⟩, fun h => ⟨rfl, h.2⟩⟩

theorem block?_serveAll (h : ofShape s = .ok c) (store : Store) (rs : List Request) {i : Nat}
    (hi : i < s.numBlocks.toNat) :
    (c.serveAll store rs).block? i = some ((s.occupant i rs).elim {} (s.holding store)) := by
  obtain ⟨hg, hc⟩ := ofShape_eq_ok h
  rw [← (Geometry.ofShape_eq_ok hg).2.2] at hi
  induction rs using List.reverseRecOn with
  | nil => rw [hc]; exact block?_ofGeometry hi
  | append_singleton rs r ih =>
    have hg' : Geometry.ofShape s = .ok (c.serveAll store rs).geometry := by
      rw [geometry_serveAll, hg]
    rw [serveAll_append_singleton]
    cases r with
    | invalidateAll =>
      simp only [serve, invalidateAll, geometry_serveAll, CacheShape.occupant,
        recent_append_invalidateAll]
      exact block?_ofGeometry hi
    | lookup addr =>
      by_cases hn : s.blockOf addr = i
      · subst hn
        have hb := blockAt_eq_of_block? (by rw [Geometry.index_eq_blockOf hg']; exact ih)
        have ho : s.occupant (s.blockOf addr) (rs ++ [.lookup addr]) = some (s.masked addr) := by
          rw [CacheShape.occupant, recent_append_lookup, List.find?_cons_of_pos (by simp),
            Option.map_some]
        rw [serve, ← Geometry.index_eq_blockOf hg', block?_lookup_self,
          Geometry.index_eq_blockOf hg', ho, Option.elim_some]
        split
        case isTrue hh => rw [hb, (hit_probe_iff_occupant hg' hb).mp hh, Option.elim_some]
        case isFalse =>
          rw [Geometry.tag_eq_holding hg' store, Geometry.read_eq_wordAt hg']
          rfl
      · have hn' : (c.serveAll store rs).geometry.index addr ≠ i := by
          rwa [Geometry.index_eq_blockOf hg']
        rw [serve, block?_lookup_of_ne (by rwa [geometry_serveAll]) hn', ih, CacheShape.occupant,
          CacheShape.occupant, recent_append_lookup, List.find?_cons_of_neg (by simpa using hn)]

/-- A block is as at power-on until its first lookup, and from then on holds the word of the
store at the latest address of its index. A lookup hits exactly when it repeats that address;
a hit shows the word of the store, and a miss the word about to be replaced. -/
theorem blocks_hold_latest_lookups (h : ofShape s = .ok c) (store : Store) (rs : List Request) :
    let c' := c.serveAll store rs
    (∀ i < s.numBlocks.toNat,
      c'.block? i = some ((s.occupant i rs).elim {} (s.holding store))) ∧
    ∀ addr,
      let latest := s.occupant (s.blockOf addr) rs
      let shown := (c'.lookup store addr).1.lookup
      (shown.hit = true ↔ latest = some (s.masked addr)) ∧
        (shown.hit = true → shown.data = s.wordAt store (s.masked addr)) ∧
        (shown.hit = false → shown.data = latest.elim 0 (s.wordAt store)) := by
  intro c'
  refine ⟨fun i hi => block?_serveAll h store rs hi, fun addr => ?_⟩
  intro latest shown
  have hg : Geometry.ofShape s = .ok c'.geometry := by
    rw [geometry_serveAll, (ofShape_eq_ok h).1]
  have hi : s.blockOf addr < s.numBlocks.toNat := by
    rw [← Geometry.index_eq_blockOf hg, ← (Geometry.ofShape_eq_ok hg).2.2]
    exact c'.geometry.index_lt addr
  have hb : c'.blockAt addr = latest.elim {} (s.holding store) :=
    blockAt_eq_of_block? (by rw [Geometry.index_eq_blockOf hg]; exact block?_serveAll h store rs hi)
  have hs : shown = (c'.probe addr).lookup := c'.lookup_refer store addr
  have hd : shown.data = latest.elim 0 (s.wordAt store) := by
    rw [hs]
    change (c'.blockAt addr).data = _
    rw [hb]
    cases latest <;> rfl
  have hh : shown.hit = true ↔ latest = some (s.masked addr) := by
    rw [hs]
    exact hit_probe_iff_occupant hg hb
  exact ⟨hh, fun ht => by rw [hd, hh.mp ht, Option.elim_some], fun _ => hd⟩

/-- Three addresses of one index evict each other after the blocks were invalidated. Address 13
is masked to 5. -/
theorem blocks_hold_latest_lookups_evicting :
    let s : CacheShape := { dataWidth := 4, addrWidth := 3, numBlocks := 2 }
    let store : Store := fun a => 5 * a + 3
    let rs : List Request := [.lookup 2, .invalidateAll, .lookup 1, .lookup 7, .lookup 13]
    ∃ c, ofShape s = .ok c ∧
      let c' := c.serveAll store rs
      let shown addr := (c'.lookup store addr).1.lookup
      c'.block? 0 = some {} ∧ c'.block? 1 = some { valid := true, tag := 2, data := 12 } ∧
        ((shown 5).hit = true ∧ (shown 5).data = 12) ∧
        (¬ (shown 7).hit = true ∧ (shown 7).data = 12) ∧
        ¬ (shown 2).hit = true ∧ (shown 2).data = 0 := by
  intro s store rs
  obtain ⟨c, hc⟩ : ∃ c, ofShape s = .ok c := by
    subst s
    exact ⟨_, rfl⟩
  obtain ⟨hb, hl⟩ := blocks_hold_latest_lookups hc store rs
  obtain ⟨h5, hd5, -⟩ := hl 5
  obtain ⟨h7, -, hd7⟩ := hl 7
  obtain ⟨h2, -, hd2⟩ := hl 2
  have hit5 := h5.mpr (by decide)
  have miss7 := mt h7.mp (by decide)
  have miss2 := mt h2.mp (by decide)
  refine ⟨c, hc, (hb 0 (by decide)).trans (by decide), (hb 1 (by decide)).trans (by decide),
    ⟨hit5, (hd5 hit5).trans (by decide)⟩, ⟨miss7, ?_⟩, miss2, ?_⟩
  · exact (hd7 (Bool.eq_false_iff.mpr miss7)).trans (by decide)
  · exact (hd2 (Bool.eq_false_iff.mpr miss2)).trans (by decide)

end Cache

end ElasticCore
