import ElasticCore.Cache.Basic
import ElasticCore.Proofs.Cache.Geometry

/-! # Coherence of the cache

A block that is valid holds the word that the store has at the address of its tag and its
index, cut to the data width. Only references fill blocks, and they keep this, so whatever
the cache went through, a hit shows the word of the store.
-/

namespace ElasticCore

def Fill.Coherent (store : Store) (g : Geometry) (f : Fill) : Prop :=
  f.block.tag.toNat < 2 ^ g.tagBits ∧
    f.block.data = store (.ofNat (f.block.tag.toNat * g.numBlocks + f.index)) &&&
      Word.ones g.dataWidth

namespace Cache

variable {store : Store} {c : Cache}

/-- Valid blocks hold words of the store. -/
def Coherent (store : Store) (c : Cache) : Prop :=
  ∀ i b, c.block? i = some b → b.valid = true →
    b.tag.toNat < 2 ^ c.geometry.tagBits ∧
      b.data = store (.ofNat (b.tag.toNat * c.geometry.numBlocks + i)) &&&
        Word.ones c.geometry.dataWidth

theorem valid_of_block?_ofGeometry {g : Geometry} {i : Nat} {b : Block}
    (h : (ofGeometry g).block? i = some b) : b.valid = false := by
  obtain ⟨-, rfl⟩ : i < g.numBlocks ∧ ({} : Block) = b := by
    simpa [block?, ofGeometry, Array.getElem?_replicate] using h
  rfl

theorem coherent_ofGeometry (store : Store) (g : Geometry) : (ofGeometry g).Coherent store := by
  intro i b hb hv
  rw [valid_of_block?_ofGeometry hb] at hv
  cases hv

theorem block?_index (c : Cache) (addr : Word) :
    c.block? (c.geometry.index addr) = some (c.blockAt addr) := by
  simp [block?, blockAt]

theorem Coherent.data_of_hit (h : c.Coherent store) {addr : Word}
    (hh : (c.probe addr).hit = true) : (c.probe addr).lookup.data = c.geometry.read store addr := by
  obtain ⟨hv, ht⟩ : (c.blockAt addr).valid = true ∧ (c.blockAt addr).tag = c.geometry.tag addr := by
    simpa [Probe.hit, probe] using hh
  have hd := (h _ _ (c.block?_index addr) hv).2
  rw [ht, Geometry.tag_mul_add_index, UInt64.ofNat_toNat] at hd
  exact hd

@[simp] theorem lookup_refer (c : Cache) (store : Store) (addr : Word) :
    (c.refer store addr).lookup = (c.probe addr).lookup := by
  simp only [refer]
  cases (c.probe addr).demand <;> rfl

theorem reads_refer (c : Cache) (store : Store) (addr : Word) :
    (c.refer store addr).reads = if (c.probe addr).hit then [] else [c.geometry.address addr] := by
  simp only [refer, Probe.demand]
  cases (c.probe addr).hit <;> rfl

theorem event_refer_of_hit (store : Store) {addr : Word} (h : (c.probe addr).hit = true) :
    (c.refer store addr).event = .cacheHit (c.geometry.address addr) (c.geometry.index addr) := by
  simp only [refer, Probe.demand, h, if_pos]
  rfl

theorem fill_refer (c : Cache) (store : Store) (addr : Word) :
    (c.refer store addr).fill =
      if (c.probe addr).hit then none
      else some {
        index := c.geometry.index addr
        block := { valid := true, tag := c.geometry.tag addr, data := c.geometry.read store addr } } := by
  simp only [refer, Probe.demand]
  cases (c.probe addr).hit <;> rfl

theorem coherent_of_fill_refer {addr : Word} {f : Fill} (h : (c.refer store addr).fill = some f) :
    f.Coherent store c.geometry := by
  rw [fill_refer] at h
  split at h
  case isTrue => cases h
  case isFalse =>
    obtain rfl := Option.some.inj h
    refine ⟨c.geometry.tag_lt addr, ?_⟩
    change c.geometry.read store addr = store (.ofNat ((c.geometry.tag addr).toNat *
      c.geometry.numBlocks + c.geometry.index addr)) &&& Word.ones c.geometry.dataWidth
    rw [Geometry.tag_mul_add_index, UInt64.ofNat_toNat]
    rfl

/-- It does not matter when a replacement is installed, nor over which block. -/
theorem Coherent.commit (h : c.Coherent store) {fill : Option Fill}
    (hf : ∀ f ∈ fill, f.Coherent store c.geometry) : (c.commit fill).Coherent store := by
  cases fill with
  | none => exact h
  | some f =>
    intro i b hb hv
    have hi : i < c.geometry.numBlocks := by
      have := (Array.getElem?_eq_some_iff.mp hb).1
      simpa [Cache.commit, replace, c.size_blocks] using this
    rw [Cache.commit, block?_replace _ _ _ hi] at hb
    split at hb
    case isTrue he =>
      obtain rfl := Option.some.inj hb
      obtain rfl : f.index = i := he
      exact hf f rfl
    case isFalse => exact h i b hb hv

theorem Coherent.commit_refer (h : c.Coherent store) (addr : Word) :
    (c.commit (c.refer store addr).fill).Coherent store :=
  h.commit fun _ hf => coherent_of_fill_refer hf

end Cache

end ElasticCore
