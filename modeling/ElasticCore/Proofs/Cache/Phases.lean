import ElasticCore.Clock
import ElasticCore.Proofs.Cache.Contents

/-! # The phases of a reference

A reference is evaluated in one phase, and its replacement is installed in another. Between the
two, other references may be evaluated, replacements installed and the blocks invalidated; a
replacement may come late, more than once or never. It still is a word of the store together with
the tag and the index of its address, so it leaves the cache coherent whatever it replaces.
-/

namespace ElasticCore.Cache

inductive Phase
  /-- Evaluates a reference and keeps the replacement that it asks for. -/
  | probe (addr : Word)
  /-- Installs what was kept of a reference, given by its number, or nothing. -/
  | commit (kept : Option Nat)
  | serve (r : Request)
  deriving DecidableEq, Repr

/-- A cache, and what was kept of the references evaluated so far, in order. -/
structure Session where
  cache : Cache
  kept : List (Option Fill) := []
  deriving DecidableEq, Repr

namespace Session

/-- A phase: the reference that is evaluated in it, with its address, and the session after it. -/
def step (store : Store) (s : Session) : Phase → Option (Word × Reference) × Session
  | .probe addr =>
    let r := s.cache.refer store addr
    (some (addr, r), { s with kept := s.kept ++ [r.fill] })
  | .commit n => (none, { s with cache := s.cache.commit (n.bind fun n => s.kept[n]?.join) })
  | .serve (.lookup addr) =>
    let (r, c) := s.cache.lookup store addr
    (some (addr, r), { s with cache := c })
  | .serve .invalidateAll => (none, { s with cache := s.cache.invalidateAll })

def run (store : Store) (s : Session) (ps : List Phase) : Session := (clock (step store) s ps).2

def references (store : Store) (s : Session) (ps : List Phase) : List (Word × Reference) :=
  (clock (step store) s ps).1.flatMap Option.toList

/-- The blocks are coherent, and so are the replacements that may still be installed. -/
structure Coherent (store : Store) (g : Geometry) (s : Session) : Prop where
  geometry_eq : s.cache.geometry = g
  cache : s.cache.Coherent store
  kept : ∀ f, some f ∈ s.kept → f.Coherent store g

variable {store : Store} {g : Geometry} {s : Session}

theorem coherent_of_ofGeometry (store : Store) (g : Geometry) :
    Coherent store g { cache := ofGeometry g } where
  geometry_eq := rfl
  cache := coherent_ofGeometry store g
  kept _ hf := by cases hf

theorem run_cons (store : Store) (s : Session) (p : Phase) (ps : List Phase) :
    s.run store (p :: ps) = (s.step store p).2.run store ps := rfl

theorem references_cons (store : Store) (s : Session) (p : Phase) (ps : List Phase) :
    s.references store (p :: ps) =
      (s.step store p).1.toList ++ (s.step store p).2.references store ps := rfl

theorem Coherent.step (h : s.Coherent store g) (p : Phase) :
    (s.step store p).2.Coherent store g := by
  rcases p with addr | n | (addr | -)
  · refine ⟨h.geometry_eq, h.cache, fun f hf => ?_⟩
    rcases List.mem_append.mp hf with hf | hf
    · exact h.kept f hf
    · rw [← h.geometry_eq]
      exact coherent_of_fill_refer (List.mem_singleton.mp hf).symm
  · refine ⟨(geometry_commit _ _).trans h.geometry_eq, h.cache.commit fun f hf => ?_, h.kept⟩
    obtain ⟨n, -, hn⟩ := Option.bind_eq_some_iff.mp hf
    rw [h.geometry_eq]
    exact h.kept f (List.mem_of_getElem? (Option.join_eq_some_iff.mp hn))
  · exact ⟨(geometry_commit _ _).trans h.geometry_eq, h.cache.commit_refer addr, h.kept⟩
  · exact ⟨h.geometry_eq, coherent_ofGeometry store _, h.kept⟩

theorem Coherent.run (h : s.Coherent store g) (ps : List Phase) :
    (s.run store ps).Coherent store g := by
  induction ps generalizing s with
  | nil => exact h
  | cons p ps ih => exact ih (h.step p)

end Session

variable {s : CacheShape} {c : Cache}

/-- However the phases of references follow each other, a valid block holds the word of the store
at the address of its tag and its index, and a hit shows the word of the store. -/
theorem valid_blocks_hold_store_words (h : ofShape s = .ok c) (store : Store) (ps : List Phase) :
    let c' := (Session.run store { cache := c } ps).cache
    c'.blocks.size = s.numBlocks.toNat ∧
    (∀ i b, c'.block? i = some b → b.valid = true →
      b.tag.toNat < 2 ^ s.tagBits ∧
        b.data = s.wordAt store (.ofNat (b.tag.toNat * s.numBlocks.toNat + i))) ∧
    ∀ addr, (c'.refer store addr).lookup.hit = true →
      (c'.refer store addr).lookup.data = s.wordAt store (s.masked addr) := by
  intro c'
  obtain ⟨hg, hc⟩ := ofShape_eq_ok h
  obtain ⟨-, hw, hn⟩ := Geometry.ofShape_eq_ok hg
  have hs : Session.Coherent store c.geometry (Session.run store { cache := c } ps) := by
    rw [hc]
    exact (Session.coherent_of_ofGeometry store _).run ps
  refine ⟨?_, fun i b hb hv => ?_, fun addr hh => ?_⟩
  · rw [← hn, ← hs.geometry_eq]
    exact c'.size_blocks
  · have hb := hs.cache i b hb hv
    rw [hs.geometry_eq, Word.and_ones _ c.geometry.dataWidth_le, hw, hn] at hb
    rwa [← (Geometry.fields_of_ofShape hg).2.2.1]
  · rw [lookup_refer] at hh ⊢
    rw [hs.cache.data_of_hit hh, hs.geometry_eq, Geometry.read_eq_wordAt hg]

/-- The replacements for 1 and 3, which share a block, are installed in the wrong order, again
after the blocks were invalidated, and once more. Address 11 is masked to 3. -/
theorem valid_blocks_hold_store_words_late :
    let s : CacheShape := { dataWidth := 4, addrWidth := 3, numBlocks := 2 }
    let store : Store := fun a => 5 * a + 3
    let ps : List Phase :=
      [.probe 1, .probe 3, .commit (some 1), .commit (some 0), .serve .invalidateAll,
        .commit (some 1), .serve (.lookup 2), .probe 11, .commit (some 2), .commit (some 1)]
    ∃ c, ofShape s = .ok c ∧
      let c' := (Session.run store { cache := c } ps).cache
      c'.blocks.size = 2 ∧ c'.block? 1 = some { valid := true, tag := 1, data := 2 } ∧
        (1 < 2 ^ s.tagBits ∧ 2 = s.wordAt store 3) ∧
        (c'.refer store 11).lookup.hit = true ∧ (c'.refer store 11).lookup.data = 2 := by
  intro s store ps
  obtain ⟨c, hc, hb, hh⟩ : ∃ c, ofShape s = .ok c ∧
      (Session.run store { cache := c } ps).cache.block? 1 =
        some { valid := true, tag := 1, data := 2 } ∧
      ((Session.run store { cache := c } ps).cache.refer store 11).lookup.hit = true := by
    subst s
    exact ⟨_, rfl, by decide +kernel, by decide +kernel⟩
  obtain ⟨hn, hv, hd⟩ := valid_blocks_hold_store_words hc store ps
  exact ⟨c, hc, hn, hb, hv 1 _ hb rfl, hh, (hd 11 hh).trans (by decide)⟩

end ElasticCore.Cache
