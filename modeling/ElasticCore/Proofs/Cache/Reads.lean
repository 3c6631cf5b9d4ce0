import ElasticCore.Proofs.Cache.Phases

/-! # Reads of the store

The store behind a cache is asked for the word of a reference that misses, once, and for nothing
else. The addresses read in a session are thus those of its misses in order, and the session would
be the same with any other store that has the same words at these addresses.
-/

namespace ElasticCore.Cache

variable {s : CacheShape} {c : Cache} {store store' : Store}

theorem reads_refer_of_ofShape (h : Geometry.ofShape s = .ok c.geometry) (store : Store)
    (addr : Word) : (c.refer store addr).reads =
      if (c.refer store addr).lookup.hit then [] else [s.masked addr] := by
  rw [reads_refer, lookup_refer, Geometry.address_eq_masked h]
  rfl

/-- Nothing in a reference depends on a word of the store that it does not read. -/
theorem refer_congr {addr : Word} (h : ∀ a ∈ (c.refer store addr).reads, store' a = store a) :
    c.refer store' addr = c.refer store addr := by
  simp only [refer] at h ⊢
  cases hd : (c.probe addr).demand with
  | none => rfl
  | some a =>
    rw [hd] at h
    have ha : store' a = store a := h a (List.mem_singleton_self a)
    simp only [ha]

def readAddresses (rs : List (Word × Reference)) : List Word := rs.flatMap (·.2.reads)

/-- The addresses of the references that missed, each modulo the size of the address space. -/
def missedAddresses (s : CacheShape) (rs : List (Word × Reference)) : List Word :=
  (rs.filter (!·.2.lookup.hit)).map (s.masked ·.1)

theorem readAddresses_append (rs rs' : List (Word × Reference)) :
    readAddresses (rs ++ rs') = readAddresses rs ++ readAddresses rs' := List.flatMap_append

theorem missedAddresses_append (s : CacheShape) (rs rs' : List (Word × Reference)) :
    missedAddresses s (rs ++ rs') = missedAddresses s rs ++ missedAddresses s rs' := by
  unfold missedAddresses
  rw [List.filter_append, List.map_append]

theorem missedAddresses_singleton (s : CacheShape) (addr : Word) (r : Reference) :
    missedAddresses s [(addr, r)] = if r.lookup.hit then [] else [s.masked addr] := by
  cases h : r.lookup.hit <;> simp [missedAddresses, h]

namespace Session

variable {t : Session}

theorem geometry_step (store : Store) (t : Session) (p : Phase) :
    (t.step store p).2.cache.geometry = t.cache.geometry := by
  rcases p with addr | n | (addr | -)
  · rfl
  · exact geometry_commit _ _
  · exact geometry_commit _ _
  · rfl

theorem readAddresses_step (h : Geometry.ofShape s = .ok t.cache.geometry) (store : Store)
    (p : Phase) : readAddresses (t.step store p).1.toList =
      missedAddresses s (t.step store p).1.toList := by
  have hr : ∀ addr, readAddresses [(addr, t.cache.refer store addr)] =
      missedAddresses s [(addr, t.cache.refer store addr)] := by
    intro addr
    rw [missedAddresses_singleton, readAddresses, List.flatMap_singleton, reads_refer_of_ofShape h]
  rcases p with addr | n | (addr | -)
  · exact hr addr
  · rfl
  · exact hr addr
  · rfl

theorem readAddresses_references (h : Geometry.ofShape s = .ok t.cache.geometry)
    (store : Store) (ps : List Phase) :
    readAddresses (t.references store ps) = missedAddresses s (t.references store ps) := by
  induction ps generalizing t with
  | nil => rfl
  | cons p ps ih =>
    rw [references_cons, readAddresses_append, missedAddresses_append, readAddresses_step h,
      ih (by rw [geometry_step, h])]

theorem step_congr {p : Phase}
    (h : ∀ a ∈ readAddresses (t.step store p).1.toList, store' a = store a) :
    t.step store' p = t.step store p := by
  have hr : ∀ addr, (∀ a ∈ readAddresses [(addr, t.cache.refer store addr)], store' a = store a) →
      t.cache.refer store' addr = t.cache.refer store addr := by
    intro addr ha
    rw [readAddresses, List.flatMap_singleton] at ha
    exact refer_congr ha
  rcases p with addr | n | (addr | -)
  · simp only [step, hr addr h]
  · rfl
  · simp only [step, lookup, hr addr h]
  · rfl

theorem references_congr {ps : List Phase}
    (h : ∀ a ∈ readAddresses (t.references store ps), store' a = store a) :
    t.references store' ps = t.references store ps ∧ t.run store' ps = t.run store ps := by
  induction ps generalizing t with
  | nil => exact ⟨rfl, rfl⟩
  | cons p ps ih =>
    rw [references_cons, readAddresses_append] at h
    obtain ⟨hp, hps⟩ := List.forall_mem_append.mp h
    rw [references_cons, references_cons, run_cons, run_cons, step_congr hp]
    obtain ⟨hrs, hrun⟩ := ih hps
    exact ⟨by rw [hrs], hrun⟩

end Session

end ElasticCore.Cache
