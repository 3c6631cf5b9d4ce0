import ElasticCore.Proofs.Cache.Contents

/-! # Inclusion of caches

Two caches for the same addresses are compared by what they hit, whatever their stores supply.
If one has at least as many blocks as another and hits wherever that one does, it still does
so when both were asked for the same address. After the same history a larger cache therefore
hits whenever a smaller one does, and caches with equally many blocks hit alike.
-/

namespace ElasticCore

namespace Geometry

/-- The second geometry divides the same addresses among at least as many blocks. -/
structure Coarser (g h : Geometry) : Prop where
  addrWidth_eq : g.addrWidth = h.addrWidth
  indexBits_le : g.indexBits ≤ h.indexBits

variable {g h : Geometry} {a b : Word}

theorem Coarser.address_eq (hc : Coarser g h) (addr : Word) : g.address addr = h.address addr := by
  rw [address, address, hc.addrWidth_eq]

theorem Coarser.index_eq_of_index_eq (hc : Coarser g h) (hi : h.index a = h.index b) :
    g.index a = g.index b := by
  have hd : g.numBlocks ∣ h.numBlocks := Nat.pow_dvd_pow 2 hc.indexBits_le
  rw [index_eq, index_eq] at hi ⊢
  rw [← Nat.mod_mod_of_dvd _ hd, hi, Nat.mod_mod_of_dvd _ hd]

theorem coarser_of_ofShape {s s' : CacheShape} (hg : ofShape s = .ok g) (hh : ofShape s' = .ok h)
    (ha : s.addrWidth = s'.addrWidth) (hn : s.numBlocks ≤ s'.numBlocks) : Coarser g h := by
  obtain ⟨hga, -, hgn⟩ := ofShape_eq_ok hg
  obtain ⟨hha, -, hhn⟩ := ofShape_eq_ok hh
  constructor
  · rw [hga, hha, ha]
  · rw [UInt64.le_iff_toNat_le, ← hgn, ← hhn] at hn
    exact (Nat.pow_le_pow_iff_right (by decide)).mp hn

end Geometry

namespace Cache

/-- The second cache is at least as large as the first one, and hits wherever that one does. -/
structure Within (c d : Cache) : Prop where
  coarser : c.geometry.Coarser d.geometry
  hit : ∀ addr, (c.probe addr).hit = true → (d.probe addr).hit = true

variable {c d : Cache} {store store' : Store} {a b addr : Word}

theorem hit_probe_ofGeometry (g : Geometry) (addr : Word) :
    ((ofGeometry g).probe addr).hit = false := by
  have hb : (ofGeometry g).blockAt addr = {} :=
    blockAt_eq_of_block? (block?_ofGeometry (g.index_lt addr))
  rw [Probe.hit, probe, hb]
  rfl

theorem hit_probe_congr (h : c.geometry.address a = c.geometry.address b) :
    (c.probe a).hit = (c.probe b).hit := by
  obtain ⟨hi, ht⟩ := c.geometry.address_eq_iff.mp h
  have hb : c.blockAt a = c.blockAt b :=
    blockAt_eq_of_block? (by rw [hi]; exact c.block?_index b)
  rw [Bool.eq_iff_iff, hit_probe_iff, hit_probe_iff, hb, ht]

/-- A lookup decides what its own block hits, and leaves the others alone. -/
theorem hit_probe_lookup_iff (store : Store) (c : Cache) (a addr : Word) :
    ((c.lookup store a).2.probe addr).hit = true ↔
      if c.geometry.index addr = c.geometry.index a
      then c.geometry.address addr = c.geometry.address a
      else (c.probe addr).hit = true := by
  have hg : (c.lookup store a).2.geometry = c.geometry := geometry_commit _ _
  split
  case isTrue hi =>
    constructor
    · intro hh
      have hs := hit_probe_lookup store c a
      rw [hit_probe_iff, hg] at hh hs
      have hb : (c.lookup store a).2.blockAt addr = (c.lookup store a).2.blockAt a :=
        blockAt_eq_of_block? (by rw [hg, hi, ← hg]; exact block?_index _ a)
      rw [hb, hs.2] at hh
      exact c.geometry.address_eq_iff.mpr ⟨hi, hh.2.symm⟩
    · intro ha
      rw [← hg] at ha
      rw [hit_probe_congr ha]
      exact hit_probe_lookup store c a
  case isFalse hi =>
    have hb : (c.lookup store a).2.blockAt addr = c.blockAt addr := by
      apply blockAt_eq_of_block?
      rw [hg, block?_lookup_of_ne (c.geometry.index_lt addr) (Ne.symm hi)]
      exact c.block?_index addr
    rw [hit_probe_iff, hit_probe_iff, hb, hg]

theorem lookup_lookup (store : Store) (c : Cache) (a : Word) :
    ((c.lookup store a).2.lookup store a).2 = (c.lookup store a).2 := by
  have hh := hit_probe_lookup store c a
  rw [lookup, fill_refer, if_pos hh]
  rfl

theorem within_ofGeometry {g h : Geometry} (hc : g.Coarser h) :
    Within (ofGeometry g) (ofGeometry h) where
  coarser := hc
  hit addr hh := by
    rw [hit_probe_ofGeometry] at hh
    cases hh

theorem Within.hit_of_hit (h : Within c d) (ha : c.geometry.address a = c.geometry.address b)
    (hh : (c.probe a).hit = true) : (d.probe b).hit = true := by
  rw [hit_probe_congr ha] at hh
  exact h.hit b hh

theorem Within.lookup (h : Within c d) (ha : c.geometry.address a = c.geometry.address b) :
    Within (c.lookup store a).2 (d.lookup store' b).2 := by
  have hd : d.geometry.address a = d.geometry.address b := by
    rwa [← h.coarser.address_eq, ← h.coarser.address_eq]
  have hb := (d.geometry.address_eq_iff.mp hd).1
  constructor
  · have hc : (c.lookup store a).2.geometry = c.geometry := geometry_commit _ _
    have hd : (d.lookup store' b).2.geometry = d.geometry := geometry_commit _ _
    rw [hc, hd]
    exact h.coarser
  · intro addr hh
    rw [hit_probe_lookup_iff] at hh ⊢
    by_cases hi : d.geometry.index addr = d.geometry.index b
    · -- The address shares the block of the one looked up, so the smaller cache hits it only
      -- if it is that one.
      rw [if_pos (h.coarser.index_eq_of_index_eq (hi.trans hb.symm)), h.coarser.address_eq,
        h.coarser.address_eq] at hh
      rw [if_pos hi, hh, hd]
    · rw [if_neg hi]
      split at hh
      case isTrue =>
        rw [h.coarser.address_eq, h.coarser.address_eq, hd] at hh
        exact absurd (d.geometry.address_eq_iff.mp hh).1 hi
      case isFalse => exact h.hit addr hh

theorem Within.serveAll (h : Within c d) (store store' : Store) (rs : List Request) :
    Within (c.serveAll store rs) (d.serveAll store' rs) := by
  induction rs using List.reverseRecOn with
  | nil => exact h
  | append_singleton rs r ih =>
    rw [serveAll_append_singleton, serveAll_append_singleton]
    cases r with
    | lookup addr => exact ih.lookup rfl
    | invalidateAll => exact within_ofGeometry ih.coarser

def shown (store : Store) : Cache → List Request → List Lookup
  | _, [] => []
  | c, .lookup addr :: rs => (c.lookup store addr).1.lookup :: shown store (c.lookup store addr).2 rs
  | c, .invalidateAll :: rs => shown store c.invalidateAll rs

theorem Within.shown (h : Within c d) (store store' : Store) (rs : List Request) :
    List.Forall₂ (fun p q => p.hit = true → q.hit = true) (c.shown store rs)
      (d.shown store' rs) := by
  induction rs generalizing c d with
  | nil => exact .nil
  | cons r rs ih =>
    cases r with
    | lookup addr =>
      refine .cons (fun hh => ?_) (ih (h.lookup rfl))
      rw [Cache.lookup, lookup_refer] at hh ⊢
      exact h.hit addr hh
    | invalidateAll => exact ih (within_ofGeometry h.coarser)

theorem countP_miss_le {ps qs : List Lookup}
    (h : List.Forall₂ (fun p q => p.hit = true → q.hit = true) ps qs) :
    qs.countP (!·.hit) ≤ ps.countP (!·.hit) := by
  induction h with
  | nil => exact Nat.le_refl _
  | @cons p q ps qs hpq _ ih =>
    rw [List.countP_cons, List.countP_cons]
    apply Nat.add_le_add ih
    cases hp : p.hit with
    | true => simp [hpq hp]
    | false => cases q.hit <;> simp

/-- Of two caches for the same addresses, the larger one hits in every lookup in which the smaller
one hits, and so misses no more often. -/
theorem hits_included_in_larger {s s' : CacheShape} (hc : ofShape s = .ok c)
    (hd : ofShape s' = .ok d) (ha : s.addrWidth = s'.addrWidth) (hn : s.numBlocks ≤ s'.numBlocks)
    (store store' : Store) (rs : List Request) :
    List.Forall₂ (fun p q => p.hit = true → q.hit = true) (c.shown store rs) (d.shown store' rs) ∧
      (d.shown store' rs).countP (!·.hit) ≤ (c.shown store rs).countP (!·.hit) := by
  obtain ⟨hg, hc⟩ := ofShape_eq_ok hc
  obtain ⟨hh, hd⟩ := ofShape_eq_ok hd
  have hw : Within c d := by
    rw [hc, hd]
    exact within_ofGeometry (Geometry.coarser_of_ofShape hg hh ha hn)
  have hs := hw.shown store store' rs
  exact ⟨hs, countP_miss_le hs⟩

/-- Addresses 1 and 3 share one of two blocks, but none of four. Addresses 1 and 5 share one in
both caches. -/
theorem hits_included_in_larger_evicting :
    let s : CacheShape := { dataWidth := 4, addrWidth := 3, numBlocks := 2 }
    let s' : CacheShape := { dataWidth := 32, addrWidth := 3, numBlocks := 4 }
    let store : Store := fun a => 5 * a + 3
    let rs : List Request :=
      [.lookup 1, .lookup 3, .lookup 1, .lookup 9, .invalidateAll, .lookup 1, .lookup 5, .lookup 5]
    ∃ c d, ofShape s = .ok c ∧ ofShape s' = .ok d ∧ s.addrWidth = s'.addrWidth ∧
      s.numBlocks ≤ s'.numBlocks ∧
      (c.shown store rs).map (·.hit) = [false, false, false, true, false, false, true] ∧
      (d.shown (fun _ => 0) rs).map (·.hit) = [false, false, true, true, false, false, true] ∧
      List.Forall₂ (fun p q => p.hit = true → q.hit = true) (c.shown store rs)
        (d.shown (fun _ => 0) rs) ∧
      (d.shown (fun _ => 0) rs).countP (!·.hit) ≤ (c.shown store rs).countP (!·.hit) := by
  intro s s' store rs
  obtain ⟨c, hc, hs⟩ : ∃ c, ofShape s = .ok c ∧
      (c.shown store rs).map (·.hit) = [false, false, false, true, false, false, true] := by
    subst s
    exact ⟨_, rfl, by decide +kernel⟩
  obtain ⟨d, hd, hs'⟩ : ∃ d, ofShape s' = .ok d ∧
      (d.shown (fun _ => 0) rs).map (·.hit) = [false, false, true, true, false, false, true] := by
    subst s'
    exact ⟨_, rfl, by decide +kernel⟩
  have hn : s.numBlocks ≤ s'.numBlocks := by decide
  exact ⟨c, d, hc, hd, rfl, hn, hs, hs', hits_included_in_larger hc hd rfl hn store _ rs⟩

end Cache

end ElasticCore
