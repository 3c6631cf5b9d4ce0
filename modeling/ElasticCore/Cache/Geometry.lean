import ElasticCore.BuildError
import ElasticCore.Word

/-! # Cache geometry

A direct-mapped cache splits an address into the index of a block, its low bits, and a
tag, the rest. A requested shape has a geometry when the widths are between 1 and 64
bits, the block count is a power of two, and the index fits in the address.
-/

namespace ElasticCore

/-- The requested size of a cache; the defaults are eight words of 32 bits. -/
structure CacheShape where
  dataWidth : UInt32 := 32
  addrWidth : UInt32 := 5
  numBlocks : UInt64 := 8
  deriving DecidableEq, Repr

namespace CacheShape

/-- The number of index bits, the logarithm of a block count that is a power of two. -/
def indexBits (s : CacheShape) : Nat := Word.lowZeros s.numBlocks

def tagBits (s : CacheShape) : Nat := s.addrWidth.toNat - s.indexBits

/-- The first constraint that a cache of this shape would violate. -/
def validate (s : CacheShape) : Except BuildError Unit :=
  if s.dataWidth.toNat = 0 ∨ 64 < s.dataWidth.toNat then
    .error (.dataWidthOutOfRange s.dataWidth.toNat)
  else if s.addrWidth.toNat = 0 ∨ 64 < s.addrWidth.toNat then
    .error (.addressWidthOutOfRange s.addrWidth.toNat)
  else if s.numBlocks.toNat ≠ 2 ^ s.indexBits then
    .error (.blockCountNotPowerOfTwo s.numBlocks.toNat)
  else if s.addrWidth.toNat < s.indexBits then
    .error (.indexWiderThanAddress s.addrWidth.toNat s.indexBits)
  else .ok ()

theorem validate_eq_ok_iff {s : CacheShape} : s.validate = .ok () ↔
    (0 < s.dataWidth.toNat ∧ s.dataWidth.toNat ≤ 64) ∧
      (0 < s.addrWidth.toNat ∧ s.addrWidth.toNat ≤ 64) ∧
      s.numBlocks.toNat = 2 ^ s.indexBits ∧ s.indexBits ≤ s.addrWidth.toNat := by
  unfold validate
  split
  case isTrue => exact iff_of_false nofun (by omega)
  case isFalse =>
  split
  case isTrue => exact iff_of_false nofun (by omega)
  case isFalse =>
  split
  case isTrue => exact iff_of_false nofun (by omega)
  case isFalse =>
  split
  case isTrue => exact iff_of_false nofun (by omega)
  case isFalse => exact iff_of_true rfl (by omega)

theorem indexBits_add_tagBits {s : CacheShape} (h : s.indexBits ≤ s.addrWidth.toNat) :
    s.indexBits + s.tagBits = s.addrWidth.toNat := Nat.add_sub_cancel' h

end CacheShape

/-- The address split and the word width of a cache. -/
structure Geometry where
  dataWidth : Nat
  indexBits : Nat
  tagBits : Nat
  dataWidth_pos : 0 < dataWidth
  dataWidth_le : dataWidth ≤ 64
  addrWidth_pos : 0 < indexBits + tagBits
  addrWidth_le : indexBits + tagBits ≤ 64
  deriving DecidableEq, Repr

namespace Geometry

def addrWidth (g : Geometry) : Nat := g.indexBits + g.tagBits

def numBlocks (g : Geometry) : Nat := 2 ^ g.indexBits

def ofShape (s : CacheShape) : Except BuildError Geometry :=
  match h : s.validate with
  | .error e => .error e
  | .ok () =>
    have hs := CacheShape.validate_eq_ok_iff.mp h
    have hw := CacheShape.indexBits_add_tagBits hs.2.2.2
    .ok {
      dataWidth := s.dataWidth.toNat
      indexBits := s.indexBits
      tagBits := s.tagBits
      dataWidth_pos := hs.1.1
      dataWidth_le := hs.1.2
      addrWidth_pos := by rw [hw]; exact hs.2.1.1
      addrWidth_le := by rw [hw]; exact hs.2.1.2 }

/-- The address without the bits beyond its width. -/
def address (g : Geometry) (addr : Word) : Word := addr &&& Word.ones g.addrWidth

def index (g : Geometry) (addr : Word) : Nat := (Word.slice addr 0 g.indexBits).toNat

/-- What tells apart the addresses of one index. -/
def tag (g : Geometry) (addr : Word) : Word := Word.slice addr g.indexBits g.tagBits

theorem toNat_address (g : Geometry) (addr : Word) :
    (g.address addr).toNat = addr.toNat % 2 ^ g.addrWidth := by
  rw [address, Word.toNat_and_ones, Nat.min_eq_left (show g.addrWidth ≤ 64 from g.addrWidth_le)]

theorem index_eq (g : Geometry) (addr : Word) : g.index addr = addr.toNat % g.numBlocks := by
  have := g.addrWidth_le
  rw [index, Word.toNat_slice, Nat.min_eq_left (by omega), Nat.pow_zero, Nat.div_one, numBlocks]

theorem toNat_tag (g : Geometry) (addr : Word) :
    (g.tag addr).toNat = addr.toNat / g.numBlocks % 2 ^ g.tagBits := by
  have := g.addrWidth_le
  rw [tag, Word.toNat_slice, Nat.min_eq_left (by omega), numBlocks]

theorem index_lt (g : Geometry) (addr : Word) : g.index addr < g.numBlocks := by
  rw [index_eq]
  exact Nat.mod_lt _ (Nat.two_pow_pos _)

end Geometry

end ElasticCore
