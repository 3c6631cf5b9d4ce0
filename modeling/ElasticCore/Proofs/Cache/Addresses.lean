import Mathlib.Algebra.Group.Nat.Defs
import ElasticCore.Proofs.Cache.Reads

/-! # Addresses

A cache takes an address apart into the index of a block and a tag. Put together again, the two
give the address without the bits beyond its width, and every index and tag in range belong to
one address. The index always names a block, so no reference falls outside the cache.
-/

namespace ElasticCore

namespace Geometry

variable {g : Geometry} {a : Word} {i t : Nat}

theorem address_address (g : Geometry) (addr : Word) :
    g.address (g.address addr) = g.address addr := by
  apply UInt64.toNat_inj.mp
  rw [toNat_address, toNat_address, Nat.mod_mod]

theorem address_of_lt (ha : a.toNat < 2 ^ g.addrWidth) : g.address a = a := by
  apply UInt64.toNat_inj.mp
  rw [toNat_address, Nat.mod_eq_of_lt ha]

theorem tag_address (g : Geometry) (addr : Word) : g.tag (g.address addr) = g.tag addr :=
  (address_eq_iff g).mp (g.address_address addr) |>.2

def join (g : Geometry) (t i : Nat) : Word := .ofNat (t * g.numBlocks + i)

theorem mul_add_lt (hi : i < g.numBlocks) (ht : t < 2 ^ g.tagBits) :
    t * g.numBlocks + i < 2 ^ g.addrWidth := by
  calc t * g.numBlocks + i
      < (t + 1) * g.numBlocks := by rw [Nat.succ_mul]; exact Nat.add_lt_add_left hi _
    _ ≤ 2 ^ g.tagBits * g.numBlocks := Nat.mul_le_mul_right _ ht
    _ = 2 ^ g.addrWidth := by rw [addrWidth, numBlocks, Nat.pow_add, Nat.mul_comm]

theorem toNat_join (hi : i < g.numBlocks) (ht : t < 2 ^ g.tagBits) :
    (g.join t i).toNat = t * g.numBlocks + i := by
  have hw : 2 ^ g.addrWidth ≤ 2 ^ 64 := Nat.pow_le_pow_right (by decide) g.addrWidth_le
  rw [join, UInt64.toNat_ofNat', Nat.mod_eq_of_lt (Nat.lt_of_lt_of_le (mul_add_lt hi ht) hw)]

theorem index_join (hi : i < g.numBlocks) (ht : t < 2 ^ g.tagBits) :
    g.index (g.join t i) = i := by
  rw [index_eq, toNat_join hi ht, Nat.mul_add_mod_of_lt hi]

theorem toNat_tag_join (hi : i < g.numBlocks) (ht : t < 2 ^ g.tagBits) :
    (g.tag (g.join t i)).toNat = t := by
  have hn : 0 < g.numBlocks := Nat.two_pow_pos _
  rw [toNat_tag, toNat_join hi ht, Nat.mul_comm, Nat.mul_add_div hn, Nat.div_eq_of_lt hi,
    Nat.add_zero, Nat.mod_eq_of_lt ht]

theorem join_tag_index (g : Geometry) (addr : Word) :
    g.join (g.tag addr).toNat (g.index addr) = g.address addr := by
  rw [join, tag_mul_add_index, UInt64.ofNat_toNat]

theorem existsUnique_of_index_tag (hi : i < g.numBlocks) (ht : t < 2 ^ g.tagBits) :
    ∃! a : Word, a.toNat < 2 ^ g.addrWidth ∧ g.index a = i ∧ (g.tag a).toNat = t := by
  refine ⟨g.join t i, ⟨?_, index_join hi ht, toNat_tag_join hi ht⟩, ?_⟩
  · rw [toNat_join hi ht]
    exact mul_add_lt hi ht
  · rintro b ⟨hb, rfl, rfl⟩
    rw [join_tag_index, address_of_lt hb]

end Geometry

namespace Cache

theorem Session.geometry_run (store : Store) (t : Session) (ps : List Phase) :
    (t.run store ps).cache.geometry = t.cache.geometry := by
  induction ps generalizing t with
  | nil => rfl
  | cons p ps ih => exact (ih (t.step store p).2).trans (geometry_step store t p)

theorem block?_index_probe {c : Cache} {g : Geometry} (hg : c.geometry = g) (store : Store)
    (ps : List Phase) (addr : Word) :
    let c' := (Session.run store { cache := c } ps).cache
    (c'.probe addr).index = g.index addr ∧ c'.block? (g.index addr) = some (c'.probe addr).block := by
  intro c'
  have hc : c'.geometry = g := (Session.geometry_run store _ ps).trans hg
  subst hc
  exact ⟨rfl, c'.block?_index addr⟩

end Cache

/-- The split of addresses into index and tag is a bijection, for every shape that has a geometry:
the widths and the block count fit together, the index and the tag of an address are in range and
give the masked address back, and each pair in range is the split of one address of the address
space. A cache of the shape can be built, and never refers to a block that it does not have. -/
theorem Geometry.index_tag_bijective {s : CacheShape} {g : Geometry} (h : ofShape s = .ok g) :
    (g.numBlocks = s.numBlocks.toNat ∧ g.addrWidth = s.addrWidth.toNat ∧
      g.indexBits = s.indexBits ∧ g.tagBits = s.tagBits ∧
      s.numBlocks.toNat = 2 ^ s.indexBits ∧ s.indexBits + s.tagBits = s.addrWidth.toNat) ∧
    (∀ addr, g.index addr < s.numBlocks.toNat ∧ (g.tag (g.address addr)).toNat < 2 ^ s.tagBits ∧
      g.index (g.address addr) = g.index addr ∧ g.tag (g.address addr) = g.tag addr ∧
      (g.tag addr).toNat * s.numBlocks.toNat + g.index addr = (g.address addr).toNat ∧
      (g.address addr).toNat = addr.toNat % 2 ^ s.addrWidth.toNat) ∧
    (∀ i t, i < s.numBlocks.toNat → t < 2 ^ s.tagBits →
      ∃! a : Word, a.toNat < 2 ^ s.addrWidth.toNat ∧ g.index a = i ∧ (g.tag a).toNat = t) ∧
    (∀ a b, g.index a = g.index b ∧ g.tag a = g.tag b ↔
      a.toNat % 2 ^ s.addrWidth.toNat = b.toNat % 2 ^ s.addrWidth.toNat) ∧
    ∃ c, Cache.ofShape s = .ok c ∧ ∀ store ps addr,
      let c' := (Cache.Session.run store { cache := c } ps).cache
      (c'.probe addr).index = g.index addr ∧
        c'.block? (g.index addr) = some (c'.probe addr).block := by
  obtain ⟨hw, -, hb⟩ := ofShape_eq_ok h
  obtain ⟨-, hi, ht, hn, hle⟩ := fields_of_ofShape h
  rw [← hw, ← hb, ← ht]
  refine ⟨⟨rfl, rfl, hi, rfl, ?_, ?_⟩, fun addr => ⟨g.index_lt addr, g.tag_lt _, g.index_address addr,
    g.tag_address addr, g.tag_mul_add_index addr, g.toNat_address addr⟩,
    fun i t => existsUnique_of_index_tag, fun a b => ?_, Cache.ofGeometry g, ?_,
    Cache.block?_index_probe rfl⟩
  · rw [hb, hn]
  · rw [← hi, addrWidth]
  · rw [← address_eq_iff, ← UInt64.toNat_inj, toNat_address, toNat_address]
  · rw [Cache.ofShape, h]
    rfl

/-- With 63 index bits, the single tag bit tells the two addresses of a block apart, and no bit of
an address is masked. In a cache of two blocks, 11 is looked for in block 1. -/
theorem Geometry.index_tag_bijective_widest :
    let s : CacheShape := { dataWidth := 64, addrWidth := 64, numBlocks := 0x8000000000000000 }
    let small : CacheShape := { dataWidth := 4, addrWidth := 3, numBlocks := 2 }
    (∃ g, ofShape s = .ok g ∧
      (∃! a : Word, a.toNat < 2 ^ 64 ∧ g.index a = 5 ∧ (g.tag a).toNat = 1) ∧
      ∀ a b, g.index a = g.index b ∧ g.tag a = g.tag b ↔ a.toNat % 2 ^ 64 = b.toNat % 2 ^ 64) ∧
    ∃ g c, ofShape small = .ok g ∧ g.index 11 = 1 ∧ Cache.ofShape small = .ok c ∧
      let c' := (Cache.Session.run (5 * · + 3) { cache := c } [.probe 3, .commit (some 0)]).cache
      (c'.probe 11).index = 1 ∧ c'.block? 1 = some (c'.probe 11).block := by
  intro s small
  obtain ⟨g, hg⟩ : ∃ g, ofShape s = .ok g := by
    subst s
    exact ⟨_, rfl⟩
  obtain ⟨g', hg', hi⟩ : ∃ g, ofShape small = .ok g ∧ g.index 11 = 1 := by
    subst small
    exact ⟨_, rfl, by decide⟩
  obtain ⟨-, -, hu, hm, -⟩ := index_tag_bijective hg
  obtain ⟨-, -, -, -, c, hc, hp⟩ := index_tag_bijective hg'
  have hp' := hp (5 * · + 3) [.probe 3, .commit (some 0)] 11
  rw [hi] at hp'
  exact ⟨⟨g, hg, hu 5 1 (by decide) (by decide), hm⟩, g', c, hg', hi, hc, hp'⟩

end ElasticCore
