import ElasticCore.BuildError
import ElasticCore.Cache.Basic

/-! # Memories

Flat memories of words. A memory built for an address width backs every address of
that width; beyond its end it reads as zero and drops what is written.
-/

namespace ElasticCore

/-- The words of a memory, from address zero on. -/
structure Memory where
  ofWords ::
  words : Array Word

namespace Memory

/-- The widest address for which a whole memory can be built. -/
def maxAddrWidth : Nat := 24

def sizeFor (addrWidth : Nat) : Except BuildError Nat :=
  if maxAddrWidth < addrWidth then .error (.memoryTooWide addrWidth maxAddrWidth)
  else .ok ((Word.ones addrWidth).toNat + 1)

def zeros (addrWidth : Nat) : Except BuildError Memory := do
  let size ← sizeFor addrWidth
  return ofWords (Array.replicate size 0)

/-- The memory with the word `f a` at every address `a` of the given width. -/
def tabulate (addrWidth : Nat) (f : Word → Word) : Except BuildError Memory := do
  let size ← sizeFor addrWidth
  return ofWords ((Array.range size).map fun a => f a.toUInt64)

def size (m : Memory) : Nat := m.words.size

def read (m : Memory) (a : Word) : Word := m.words[a.toNat]?.getD 0

def write (m : Memory) (a v : Word) : Memory := ofWords (m.words.setIfInBounds a.toNat v)

def toList (m : Memory) : List Word := m.words.toList

@[simp] theorem size_ofWords (words : Array Word) : (ofWords words).size = words.size := rfl

@[simp] theorem size_write (m : Memory) (a v : Word) : (m.write a v).size = m.size :=
  Array.size_setIfInBounds

theorem read_write (m : Memory) (a v b : Word) :
    (m.write a v).read b = if a = b ∧ a.toNat < m.size then v else m.read b := by
  rw [read, write, Array.getElem?_setIfInBounds]
  by_cases hb : a = b
  · subst hb
    by_cases ha : a.toNat < m.words.size <;> simp [read, size, ha]
  · simp [read, hb, UInt64.toNat_inj]

end Memory

end ElasticCore
