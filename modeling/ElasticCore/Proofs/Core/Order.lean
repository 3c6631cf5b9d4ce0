import ElasticCore.Proofs.Control.Signals
import ElasticCore.Proofs.Core.Run
import ElasticCore.Proofs.WordArithmetic

/-! # Retirement in order

The instructions that retired in a run from reset are the first of those that were
accepted, decoded and in order, and the line holds the others. A load retires with the
word that the store has at its address. What retires thus depends on the variant, the
widths and the store, and on neither the line, the cache nor the stalls.
-/

namespace ElasticCore

/-- The address of a load: the signed immediate, modulo the size of the address space. -/
def Instruction.loadAddress (addrWidth : Nat) (w : Instruction) : Word :=
  .ofNat (w.signedImm % 2 ^ addrWidth).toNat

theorem Isa.toNat_imm_entry (isa : Isa) (f : Fetched) :
    ((isa.entry f).imm.toNat : Int) = f.inst.signedImm % 2 ^ 64 := by
  have h := Word.toNat_signExtend f.inst.immI.toUInt64 12
  rw [Instruction.toNat_immI] at h
  exact h

theorem Geometry.address_entry (g : Geometry) (isa : Isa) (f : Fetched) :
    g.address (isa.entry f).imm = f.inst.loadAddress g.addrWidth := by
  have hw : g.addrWidth ≤ 64 := g.addrWidth_le
  have hz : 0 ≤ f.inst.signedImm % 2 ^ g.addrWidth :=
    Int.emod_nonneg _ (Int.ne_of_gt (Int.pow_pos (by decide)))
  have ha : ((g.address (isa.entry f).imm).toNat : Int) = f.inst.signedImm % 2 ^ g.addrWidth := by
    rw [toNat_address, Int.natCast_emod, Isa.toNat_imm_entry, Int.natCast_pow]
    exact Int.emod_emod_of_dvd _ (by exact_mod_cast Nat.pow_dvd_pow 2 hw)
  apply UInt64.toNat_inj.mp
  rw [Instruction.loadAddress, ← ha, Int.toNat_natCast, UInt64.ofNat_toNat]

namespace Core

/-- What an accepted instruction retires as. -/
def retirement (isa : Isa) (addrWidth dataWidth : Nat) (store : Store) (f : Fetched) : Retired where
  entry := isa.entry f
  loaded :=
    if f.inst.opcode = Opcode.load.bits then
      some (.ofNat ((store (f.inst.loadAddress addrWidth)).toNat % 2 ^ dataWidth))
    else none

/-- What an entry retires as, given that its reference hits. -/
def completion (g : Geometry) (store : Store) (e : Entry) : Retired where
  entry := e
  loaded := if e.ctrl.memRead then some (g.read store e.imm) else none

theorem completion_entry (g : Geometry) (isa : Isa) (store : Store) (f : Fetched) :
    completion g store (isa.entry f) = retirement isa g.addrWidth g.dataWidth store f := by
  have hr : g.read store (isa.entry f).imm =
      .ofNat ((store (f.inst.loadAddress g.addrWidth)).toNat % 2 ^ g.dataWidth) := by
    rw [Geometry.read, g.address_entry, Word.and_ones _ g.dataWidth_le]
  have hm : (isa.entry f).ctrl.memRead = true ↔ f.inst.opcode = Opcode.load.bits :=
    isa.memRead_decodeInstruction_iff f.inst
  simp only [completion, retirement, hm, hr]

variable {store : Store} {s : Settings} {c : Core}

theorem retire_of_advance (h : c.cache.Coherent store) {e : Entry} (he : c.line.head = some e)
    {sinkReady : Bool} (ha : c.advance store sinkReady = true) :
    retire (c.refer store) e = completion c.cache.geometry store e := by
  unfold retire completion
  cases hm : e.ctrl.memRead with
  | false => rfl
  | true =>
    have hl : c.headLoad = some e := by rw [headLoad, he, Option.filter_some, hm, if_pos rfl]
    rw [advance, refer_eq_some hl] at ha
    have hh : (c.cache.probe e.imm).hit = true := by
      simpa [Probe.lookup] using (Bool.and_eq_true_iff.mp ha).2
    rw [refer_eq_some hl, Option.elim_some, Cache.lookup_refer, h.data_of_hit hh]

theorem Sound.retired_tick (h : Sound store s c) (fetch : Option Fetched) (sinkReady : Bool) :
    (c.tick store fetch sinkReady).1.retired =
      (c.line.tick (c.offer fetch) (c.advance store sinkReady)).1.delivered.map
        (completion c.cache.geometry store) := by
  rw [Core.retired_tick, Line.delivered_tick h.line.stages_ne_nil]
  cases ha : c.advance store sinkReady with
  | false => rfl
  | true =>
    rw [if_pos rfl]
    cases he : c.line.head with
    | none => rfl
    | some e => rw [Option.map_some, Option.map_some, retire_of_advance h.cache he ha]

theorem Wired.items_tick (h : Wired s c) (store : Store) (fetch : Option Fetched)
    (sinkReady : Bool) :
    c.line.items ++
        ((if (c.tick store fetch sinkReady).1.accepted then fetch else none).map
          s.pipeline.isa.entry).toList =
      ((c.tick store fetch sinkReady).1.retired.map (·.entry)).toList ++
        (c.tick store fetch sinkReady).2.line.items := by
  have hc := h.line.sound.items_tick h.line.stages_ne_nil (c.offer fetch) (c.advance store sinkReady)
  rw [entry_retired_tick, line_tick, ← hc, Line.transfer_ready _ _ (c.advance store sinkReady), ← accepted_tick]
  congr 2
  cases hf : fetch with
  | none => rw [accepted_tick, Line.accepted_tick]; simp [offer, Slot.empty]
  | some f => split <;> simp [offer, Slot.holding, h.isa_eq]

theorem isSome_of_accepted {fetch : Option Fetched} {sinkReady : Bool}
    (h : (c.tick store fetch sinkReady).1.accepted = true) : fetch.isSome = true := by
  rw [accepted_tick, Line.accepted_tick, valid_offer, Bool.and_eq_true] at h
  exact h.1

theorem Sound.occupancy_tick (h : Sound store s c) (fetch : Option Fetched) (sinkReady : Bool) :
    c.line.occupancy + (c.tick store fetch sinkReady).1.accepted.toNat =
      (c.tick store fetch sinkReady).1.retired.isSome.toNat +
        (c.tick store fetch sinkReady).2.line.occupancy := by
  have hi := congrArg List.length (h.toWired.items_tick store fetch sinkReady)
  have hr : (c.tick store fetch sinkReady).1.retired.isSome.toNat =
      ((c.tick store fetch sinkReady).1.retired.map (·.entry)).toList.length := by
    rw [length_toList, Option.isSome_map]
  rw [List.length_append, List.length_append, Line.length_items, Line.length_items, ← hr] at hi
  rw [← hi]
  cases ha : (c.tick store fetch sinkReady).1.accepted with
  | false => rfl
  | true =>
    obtain ⟨f, rfl⟩ := Option.isSome_iff_exists.mp (isSome_of_accepted ha)
    rfl

theorem Reachable.entries_run (h : Reachable store s c) (is : List Input) :
    c.line.items ++ (acceptedFetches is (c.run store is).1).map s.pipeline.isa.entry =
      (retirements (c.run store is).1).map (·.entry) ++ (c.run store is).2.line.items := by
  induction is generalizing c with
  | nil => simp [acceptedFetches, retirements]
  | cons i is ih =>
    have ht := h.sound.toWired.items_tick store i.fetch i.sinkReady
    simp only [run_cons, acceptedFetches_cons, retirements_cons, List.map_append,
      Option.toList_map] at ht ⊢
    rw [← List.append_assoc, ht, List.append_assoc, ih (h.tick i.fetch i.sinkReady),
      List.append_assoc]

theorem Reachable.retirements_run (h : Reachable store s c) (is : List Input) :
    retirements (c.run store is).1 =
      ((retirements (c.run store is).1).map (·.entry)).map (completion c.cache.geometry store) := by
  induction is generalizing c with
  | nil => rfl
  | cons i is ih =>
    have hi := ih (h.tick i.fetch i.sinkReady)
    rw [geometry_tick] at hi
    rw [run_cons, retirements_cons, List.map_append, List.map_append, ← hi,
      h.sound.retired_tick]
    congr 1
    cases (c.line.tick (c.offer i.fetch) (c.advance store i.sinkReady)).1.delivered <;> rfl

/-- Since a reset, the first of the accepted instructions have retired, in order and each
with the word of the store at the address of a load, and the others are held in order. -/
theorem retirements_eq_map_take (h : AtReset store s c) (is : List Input) :
    let r := c.run store is
    let fetched := acceptedFetches is r.1
    let k := fetched.length - r.2.line.occupancy
    retirements r.1 = (fetched.take k).map (retirement s.pipeline.isa s.cache.addrWidth.toNat
        s.cache.dataWidth.toNat store) ∧
      r.2.line.items = (fetched.drop k).map s.pipeline.isa.entry := by
  intro r fetched k
  have he : fetched.map s.pipeline.isa.entry = (retirements r.1).map (·.entry) ++ r.2.line.items := by
    simpa [h.line.items_eq] using h.reachable.entries_run is
  have hk : k = ((retirements r.1).map (·.entry)).length := by
    have hl := congrArg List.length he
    rw [List.length_map, List.length_append, Line.length_items] at hl
    omega
  obtain ⟨ha, hd, -⟩ := Geometry.ofShape_eq_ok h.reachable.sound.ofShape_eq
  constructor
  · calc retirements r.1
        = ((fetched.map s.pipeline.isa.entry).take k).map (completion c.cache.geometry store) := by
          rw [he, hk, List.take_left]
          exact h.reachable.retirements_run is
      _ = _ := by
          rw [← List.map_take, List.map_map, ← ha, ← hd]
          exact List.map_congr_left fun f _ => completion_entry _ _ _ f
  · rw [List.map_drop, he, hk, List.drop_left]

/-- Loads from the addresses 31 and 1 evict each other in a cache of two blocks. -/
theorem retirements_eq_map_take_evicting :
    let s : Settings := { cache := { numBlocks := 2 }, pipeline := { stages := 2 } }
    let store : Store := fun a => a + 7
    let is : List Input :=
      [⟨some ⟨0, 0xFFF02003⟩, true⟩, ⟨some ⟨4, 0x00100093⟩, false⟩, ⟨some ⟨8, 0x00102003⟩, true⟩,
        ⟨some ⟨12, 0x33⟩, true⟩, ⟨none, true⟩, ⟨none, true⟩, ⟨none, true⟩]
    let shown (e : Entry) := (e.pc, e.inst, e.imm, e.ctrl.memRead, e.ctrl.aluOp)
    ∃ c, AtReset store s c ∧ (c.run store is).2.counters.cacheMisses = 2 ∧
      (retirements (c.run store is).1).map (fun r => (shown r.entry, r.loaded)) =
        [((0, 0xFFF02003, 0xFFFFFFFFFFFFFFFF, true, .add), some 38),
          ((4, 0x00100093, 1, false, .add), none),
          ((8, 0x00102003, 1, true, .add), some 8)] ∧
      (c.run store is).2.line.items.map shown = [(12, 0x33, 0, false, .add)] := by
  intro s store is shown
  obtain ⟨c, hc, hm, hf, ho⟩ : ∃ c, ofSettings s = .ok c ∧
      (c.run store is).2.counters.cacheMisses = 2 ∧
      acceptedFetches is (c.run store is).1 =
        [⟨0, 0xFFF02003⟩, ⟨4, 0x00100093⟩, ⟨8, 0x00102003⟩, ⟨12, 0x33⟩] ∧
      (c.run store is).2.line.occupancy = 1 := by
    subst s
    refine ⟨_, rfl, ?_, ?_, ?_⟩ <;> decide +kernel
  obtain ⟨hr, hi⟩ := retirements_eq_map_take (.inl hc) is
  rw [hf, ho] at hr hi
  refine ⟨c, .inl hc, hm, ?_, ?_⟩
  · rw [hr]
    decide +kernel
  · rw [hi]
    decide +kernel

end Core

end ElasticCore
