import ElasticCore.Proofs.Core.Run
import ElasticCore.Proofs.WordArithmetic

/-! # Validation and building

The settings are checked before a unit is built, and every unit checks its own parameters again.
The second check asks for no more than the first: what is built, and which error is reported
otherwise, is decided by the first constraint that the settings violate.
-/

namespace ElasticCore

/-- A constraint on parameters, with the error that reports its violation. -/
structure Constraint where
  Holds : Prop
  error : BuildError

/-- The first constraint of a list that does not hold is reported by this error. -/
inductive FirstViolated : List Constraint → BuildError → Prop
  | here {c : Constraint} {cs : List Constraint} : ¬ c.Holds → FirstViolated (c :: cs) c.error
  | later {c : Constraint} {cs : List Constraint} {e : BuildError} :
      c.Holds → FirstViolated cs e → FirstViolated (c :: cs) e

/-- A result that is an error exactly if a constraint is violated, and then that of the first. -/
def DecidedBy {α : Type} (cs : List Constraint) : Except BuildError α → Prop
  | .error e => FirstViolated cs e
  | .ok _ => ∀ c ∈ cs, c.Holds

def CacheShape.constraints (s : CacheShape) : List Constraint := [
  { Holds := 1 ≤ s.dataWidth.toNat ∧ s.dataWidth.toNat ≤ 64
    error := .dataWidthOutOfRange s.dataWidth.toNat },
  { Holds := 1 ≤ s.addrWidth.toNat ∧ s.addrWidth.toNat ≤ 64
    error := .addressWidthOutOfRange s.addrWidth.toNat },
  { Holds := s.numBlocks.toNat.isPowerOfTwo
    error := .blockCountNotPowerOfTwo s.numBlocks.toNat },
  { Holds := s.numBlocks.toNat.log2 ≤ s.addrWidth.toNat
    error := .indexWiderThanAddress s.addrWidth.toNat s.numBlocks.toNat.log2 }]

def PipelineShape.constraints (s : PipelineShape) : List Constraint :=
  [{ Holds := 1 ≤ s.stages.toNat, error := .noStages }]

/-- The constraints on settings; those on the cache come first. -/
def Settings.constraints (s : Settings) : List Constraint :=
  s.cache.constraints ++ s.pipeline.constraints

section Constraints

variable {α β : Type} {cs cs' : List Constraint} {e e' : BuildError} {r : Except BuildError α}

theorem FirstViolated.not_forall (h : FirstViolated cs e) : ¬ ∀ c ∈ cs, c.Holds := by
  induction h with
  | here hc => exact fun ha => hc (ha _ List.mem_cons_self)
  | later _ _ ih => exact fun ha => ih (List.forall_mem_cons.mp ha).2

theorem FirstViolated.unique (h : FirstViolated cs e) (h' : FirstViolated cs e') : e = e' := by
  induction h with
  | here hc =>
    cases h' with
    | here => rfl
    | later hc' => exact absurd hc' hc
  | later hc _ ih =>
    cases h' with
    | here hc' => exact absurd hc hc'
    | later _ h' => exact ih h'

theorem FirstViolated.append (h : FirstViolated cs e) (cs' : List Constraint) :
    FirstViolated (cs ++ cs') e := by
  induction h with
  | here hc => exact .here hc
  | later hc _ ih => exact .later hc ih

theorem FirstViolated.after (h : FirstViolated cs' e) (hs : ∀ c ∈ cs, c.Holds) :
    FirstViolated (cs ++ cs') e := by
  induction cs with
  | nil => exact h
  | cons c cs ih =>
    obtain ⟨hc, hs⟩ := List.forall_mem_cons.mp hs
    exact .later hc (ih hs)

theorem DecidedBy.eq_error_iff (h : DecidedBy cs r) : r = .error e ↔ FirstViolated cs e := by
  cases r with
  | error e' =>
    constructor
    · rintro ⟨⟩
      exact h
    · intro h'
      rw [FirstViolated.unique h h']
  | ok a => exact iff_of_false nofun fun h' => h'.not_forall h

theorem DecidedBy.exists_eq_ok_iff (h : DecidedBy cs r) :
    (∃ a, r = .ok a) ↔ ∀ c ∈ cs, c.Holds := by
  cases r with
  | error e => exact iff_of_false nofun (FirstViolated.not_forall h)
  | ok a => exact iff_of_true ⟨a, rfl⟩ h

/-- Two checks in a row look for a violation in the constraints of both. -/
theorem DecidedBy.bind (h : DecidedBy cs r) {f : α → Except BuildError β}
    (hf : ∀ a, DecidedBy cs' (f a)) : DecidedBy (cs ++ cs') (r >>= f) := by
  cases r with
  | error e => exact FirstViolated.append h cs'
  | ok a =>
    have ha := hf a
    change DecidedBy (cs ++ cs') (f a)
    cases hr : f a with
    | error e =>
      rw [hr] at ha
      exact FirstViolated.after ha h
    | ok b =>
      rw [hr] at ha
      exact List.forall_mem_append.mpr ⟨h, ha⟩

theorem DecidedBy.bind_of_forall (h : DecidedBy cs r) {f : α → Except BuildError β}
    (hf : (∀ c ∈ cs, c.Holds) → ∀ a, ∃ b, f a = .ok b) : DecidedBy cs (r >>= f) := by
  cases r with
  | error e => exact h
  | ok a =>
    obtain ⟨b, hb⟩ := hf h a
    change DecidedBy cs (f a)
    rw [hb]
    exact h

theorem DecidedBy.eq_error_iff_eq_error {r' : Except BuildError β} (h : DecidedBy cs r)
    (h' : DecidedBy cs r') : r = .error e ↔ r' = .error e :=
  h.eq_error_iff.trans h'.eq_error_iff.symm

end Constraints

namespace CacheShape

variable {s : CacheShape}

theorem isPowerOfTwo_numBlocks_iff :
    s.numBlocks.toNat.isPowerOfTwo ↔ s.numBlocks.toNat = 2 ^ s.indexBits := by
  constructor
  · rintro ⟨k, hk⟩
    rw [indexBits, Word.lowZeros_of_toNat_eq_two_pow hk, hk]
  · exact fun h => ⟨_, h⟩

theorem log2_numBlocks (h : s.numBlocks.toNat = 2 ^ s.indexBits) :
    s.numBlocks.toNat.log2 = s.indexBits := by
  rw [h, Nat.log2_two_pow]

theorem decidedBy_validate (s : CacheShape) : DecidedBy s.constraints s.validate := by
  unfold validate
  split
  case isTrue hd => exact .here (by omega)
  case isFalse hd =>
  have hd : 1 ≤ s.dataWidth.toNat ∧ s.dataWidth.toNat ≤ 64 := by omega
  split
  case isTrue ha => exact .later hd (.here (by omega))
  case isFalse ha =>
  have ha : 1 ≤ s.addrWidth.toNat ∧ s.addrWidth.toNat ≤ 64 := by omega
  split
  case isTrue hn => exact .later hd (.later ha (.here (mt isPowerOfTwo_numBlocks_iff.mp hn)))
  case isFalse hn =>
  have hn : s.numBlocks.toNat = 2 ^ s.indexBits := Decidable.not_not.mp hn
  have hp := isPowerOfTwo_numBlocks_iff.mpr hn
  rw [← log2_numBlocks hn]
  split
  case isTrue hi => exact .later hd (.later ha (.later hp (.here (Nat.not_le_of_lt hi))))
  case isFalse hi =>
    simp only [DecidedBy, constraints, List.forall_mem_cons]
    exact ⟨hd, ha, hp, Nat.le_of_not_lt hi, List.forall_mem_nil _⟩

end CacheShape

theorem PipelineShape.decidedBy_validate (s : PipelineShape) :
    DecidedBy s.constraints s.validate := by
  have hs : s.stages = 0 ↔ ¬ 1 ≤ s.stages.toNat := by
    rw [← UInt64.toNat_inj]
    exact Nat.lt_one_iff.symm.trans Nat.not_le.symm
  unfold validate
  split
  case isTrue h => exact .here (hs.mp h)
  case isFalse h => exact List.forall_mem_singleton.mpr (Decidable.not_not.mp (mt hs.mpr h))

theorem Settings.decidedBy_validate (s : Settings) : DecidedBy s.constraints s.validate :=
  s.cache.decidedBy_validate.bind fun _ => s.pipeline.decidedBy_validate

theorem Geometry.decidedBy_ofShape (s : CacheShape) : DecidedBy s.constraints (ofShape s) := by
  have h := s.decidedBy_validate
  unfold ofShape
  split
  case h_1 he =>
    rw [he] at h
    exact h
  case h_2 ho =>
    rw [ho] at h
    exact h

theorem Cache.decidedBy_ofShape (s : CacheShape) : DecidedBy s.constraints (ofShape s) :=
  (Geometry.decidedBy_ofShape s).bind_of_forall fun _ g => ⟨ofGeometry g, rfl⟩

namespace Core

variable {s : Settings} {c : Core}

theorem decidedBy_ofSettings (s : Settings) : DecidedBy s.constraints (ofSettings s) := by
  refine s.decidedBy_validate.bind_of_forall fun hs _ => ?_
  obtain ⟨hc, hp⟩ := List.forall_mem_append.mp hs
  have hd : 1 ≤ s.pipeline.stages.toNat := hp _ (List.mem_singleton_self _)
  have hl : Line.ofDepth (α := Entry) s.pipeline.stages.toNat = .ok _ :=
    Line.ofDepth_eq_ok_iff.mpr ⟨hd, rfl⟩
  obtain ⟨k, hk⟩ := (Cache.decidedBy_ofShape s.cache).exists_eq_ok_iff.mpr hc
  rw [hl, hk]
  exact ⟨_, rfl⟩

theorem registers_of_ofSettings (h : ofSettings s = .ok c) :
    c.line.stages = List.replicate s.pipeline.stages.toNat .reset ∧
      c.cache.blocks = Array.replicate s.cache.numBlocks.toNat {} ∧ c.ready = true := by
  obtain ⟨hl, hc, -⟩ := ofSettings_eq_ok h
  obtain ⟨hd, hl⟩ := Line.ofDepth_eq_ok_iff.mp hl
  obtain ⟨hg, hb⟩ := Cache.ofShape_eq_ok hc
  refine ⟨by rw [hl], ?_, ?_⟩
  · rw [← (Geometry.ofShape_eq_ok hg).2.2, hb]
    rfl
  · obtain ⟨n, hn⟩ := Nat.exists_eq_add_of_le' hd
    rw [ready, hl, hn]
    rfl

/-- Validation reports the first violated constraint, and building a core fails with the same
error, or succeeds with every stage and every block at reset. A cache and its geometry are refused
for what the validation of their shape reports. -/
theorem validation_decides_building (s : Settings) :
    (∀ e, s.validate = .error e ↔ FirstViolated s.constraints e) ∧
      (∀ e, ofSettings s = .error e ↔ s.validate = .error e) ∧
      (s.validate = .ok () ↔ ∃ c, ofSettings s = .ok c ∧
        c.line.stages = List.replicate s.pipeline.stages.toNat .reset ∧
        c.cache.blocks = Array.replicate s.cache.numBlocks.toNat {} ∧ c.ready = true) ∧
      ∀ e, (Cache.ofShape s.cache = .error e ↔ s.cache.validate = .error e) ∧
        (Geometry.ofShape s.cache = .error e ↔ s.cache.validate = .error e) := by
  have hv := s.decidedBy_validate
  have hc := s.cache.decidedBy_validate
  have hs := decidedBy_ofSettings s
  refine ⟨fun e => hv.eq_error_iff, fun e => hs.eq_error_iff_eq_error hv, ?_, fun e =>
    ⟨(Cache.decidedBy_ofShape s.cache).eq_error_iff_eq_error hc,
      (Geometry.decidedBy_ofShape s.cache).eq_error_iff_eq_error hc⟩⟩
  constructor
  · intro h
    obtain ⟨c, hb⟩ := hs.exists_eq_ok_iff.mpr (hv.exists_eq_ok_iff.mp ⟨(), h⟩)
    exact ⟨c, hb, registers_of_ofSettings hb⟩
  · rintro ⟨c, hb, -⟩
    obtain ⟨u, h⟩ := hv.exists_eq_ok_iff.mpr (hs.exists_eq_ok_iff.mp ⟨c, hb⟩)
    exact h

/-- The address, the block count and the stages violate a constraint; the address comes first. -/
example : ofSettings { cache := { addrWidth := 65, numBlocks := 6 }, pipeline := { stages := 0 } } =
    .error (.addressWidthOutOfRange 65) := by
  rfl

end Core

end ElasticCore
