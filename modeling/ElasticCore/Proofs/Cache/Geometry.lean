import ElasticCore.Cache.Basic

/-! # The address split

The geometry of a shape has the requested widths and block count. It splits an address
into a tag and an index, from which the address can be put together again.
-/

namespace ElasticCore.Geometry

theorem fields_of_ofShape {shape : CacheShape} {g : Geometry} (h : ofShape shape = .ok g) :
    g.dataWidth = shape.dataWidth.toNat ∧ g.indexBits = shape.indexBits ∧
      g.tagBits = shape.tagBits ∧ shape.numBlocks.toNat = 2 ^ shape.indexBits ∧
      shape.indexBits ≤ shape.addrWidth.toNat := by
  unfold ofShape at h
  split at h
  case h_1 => cases h
  case h_2 hv =>
    obtain ⟨-, -, hn, hi⟩ := CacheShape.validate_eq_ok_iff.mp hv
    cases h
    exact ⟨rfl, rfl, rfl, hn, hi⟩

theorem ofShape_eq_ok {shape : CacheShape} {g : Geometry} (h : ofShape shape = .ok g) :
    g.addrWidth = shape.addrWidth.toNat ∧ g.dataWidth = shape.dataWidth.toNat ∧
      g.numBlocks = shape.numBlocks.toNat := by
  obtain ⟨hd, hi, ht, hn, hle⟩ := fields_of_ofShape h
  refine ⟨?_, hd, ?_⟩
  · rw [addrWidth, hi, ht]
    exact CacheShape.indexBits_add_tagBits hle
  · rw [numBlocks, hi, hn]

theorem tag_mul_add_index (g : Geometry) (addr : Word) :
    (g.tag addr).toNat * g.numBlocks + g.index addr = (g.address addr).toNat := by
  rw [toNat_tag, index_eq, toNat_address, addrWidth, Nat.pow_add, Nat.mod_mul, numBlocks,
    Nat.add_comm, Nat.mul_comm]

theorem tag_lt (g : Geometry) (addr : Word) : (g.tag addr).toNat < 2 ^ g.tagBits := by
  rw [toNat_tag]
  exact Nat.mod_lt _ (Nat.two_pow_pos _)

def read (g : Geometry) (store : Store) (addr : Word) : Word :=
  store (g.address addr) &&& Word.ones g.dataWidth

end ElasticCore.Geometry
