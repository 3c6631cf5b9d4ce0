import ElasticCore.Cache.Geometry
import ElasticCore.Event

/-! # Direct-mapped caches

Every address has one block that may hold its word. A reference shows what that block
holds; on a miss the word is fetched from the store behind the cache, and replaces the
block at the end of the tick. The fetched word is not forwarded: the reference has to be
repeated to see it.
-/

namespace ElasticCore

/-- The memory behind a cache, as the word at each address. -/
abbrev Store := Word → Word

/-- One cached word; the default is the block at power-on. -/
structure Block where
  valid : Bool := false
  tag : Word := 0
  data : Word := 0
  deriving DecidableEq, Repr

/-- What a reference shows. After a miss the data are those about to be replaced. -/
structure Lookup where
  data : Word
  hit : Bool
  deriving DecidableEq, Repr

/-- A block to be replaced at the end of the tick. -/
structure Fill where
  index : Nat
  block : Block
  deriving DecidableEq, Repr

structure Cache where
  geometry : Geometry
  blocks : Array Block
  size_blocks : blocks.size = geometry.numBlocks
  deriving DecidableEq, Repr

/-- A reference as the blocks see it, before the store is asked. -/
structure Probe where
  /-- The referenced address, cut to its width. -/
  address : Word
  index : Nat
  tag : Word
  block : Block
  deriving DecidableEq, Repr

namespace Probe

def hit (p : Probe) : Bool := p.block.valid && p.block.tag == p.tag

def lookup (p : Probe) : Lookup where
  data := p.block.data
  hit := p.hit

/-- The address whose word the store has to supply; a hit needs none. -/
def demand (p : Probe) : Option Word := if p.hit then none else some p.address

end Probe

structure Reference where
  lookup : Lookup
  fill : Option Fill
  reads : List Word
  event : Event

namespace Cache

def ofGeometry (g : Geometry) : Cache where
  geometry := g
  blocks := Array.replicate g.numBlocks {}
  size_blocks := Array.size_replicate

def ofShape (s : CacheShape) : Except BuildError Cache := do
  return ofGeometry (← Geometry.ofShape s)

def invalidateAll (c : Cache) : Cache := ofGeometry c.geometry

def block? (c : Cache) (index : Nat) : Option Block := c.blocks[index]?

def blockAt (c : Cache) (addr : Word) : Block :=
  have : c.geometry.index addr < c.blocks.size := by
    rw [c.size_blocks]
    exact c.geometry.index_lt addr
  c.blocks[c.geometry.index addr]

/-- Looks up an address in the blocks alone. -/
def probe (c : Cache) (addr : Word) : Probe where
  address := c.geometry.address addr
  index := c.geometry.index addr
  tag := c.geometry.tag addr
  block := c.blockAt addr

/-- Evaluates a reference; the blocks stay as they are. -/
def refer (c : Cache) (store : Store) (addr : Word) : Reference :=
  let p := c.probe addr
  match p.demand with
  | none =>
    { lookup := p.lookup, fill := none, reads := [], event := .cacheHit p.address p.index }
  | some a =>
    let data := store a &&& Word.ones c.geometry.dataWidth
    { lookup := p.lookup
      fill := some { index := p.index, block := { valid := true, tag := p.tag, data } }
      reads := [a]
      event := .cacheMiss a p.index p.tag data }

/-- Replaces a block; an index beyond the last block is ignored. -/
def replace (c : Cache) (f : Fill) : Cache where
  geometry := c.geometry
  blocks := c.blocks.setIfInBounds f.index f.block
  size_blocks := by rw [Array.size_setIfInBounds, c.size_blocks]

def commit (c : Cache) : Option Fill → Cache
  | none => c
  | some f => c.replace f

/-- A reference with its replacement installed. -/
def lookup (c : Cache) (store : Store) (addr : Word) : Reference × Cache :=
  let r := c.refer store addr
  (r, c.commit r.fill)

@[simp] theorem geometry_commit (c : Cache) (f : Option Fill) :
    (c.commit f).geometry = c.geometry := by
  cases f <;> rfl

theorem block?_replace (c : Cache) (f : Fill) (i : Nat) (h : i < c.geometry.numBlocks) :
    (c.replace f).block? i = if f.index = i then some f.block else c.block? i := by
  have hs : i < c.blocks.size := by rw [c.size_blocks]; exact h
  simp only [block?, replace, Array.getElem?_setIfInBounds]
  split <;> simp_all

end Cache

end ElasticCore
