import ElasticCore.Proofs.Core.Balance
import ElasticCore.Proofs.Handshake.Drain

/-! # Liveness

What the line holds retires if the sink is ready often enough. A ready tick takes one off the
delays in the line, or it is a miss, and each load ahead costs one miss at most. The sum of the
two bounds is a measure that a ready tick decreases and that no tick increases, neither by a
stall nor by what it accepts.
-/

namespace ElasticCore.Core

/-- The loads among the first `m` instructions held that can still miss. -/
def missesAhead (m : Nat) (c : Core) : Nat :=
  (c.line.items.take m).countP (·.ctrl.memRead) - c.headServed.toNat

/-- A number of ready ticks after which the first `m` instructions held have retired. -/
def wait (m : Nat) (c : Core) : Nat := Line.delay m c.line.stages + c.missesAhead m

variable {store : Store} {s : Settings} {c : Core} {m : Nat}

theorem sinkReady_le (store : Store) (c : Core) (fetch : Option Fetched) (sinkReady : Bool) :
    sinkReady.toNat ≤ (c.advance store sinkReady).toNat +
      (c.tick store fetch sinkReady).1.missed.toNat := by
  rw [advance_eq_of_missed store c fetch]
  cases sinkReady <;> cases (c.tick store fetch _).1.missed <;> decide

theorem Sound.take_items (h : Sound store s c) (fetch : Option Fetched) (sinkReady : Bool)
    (hp : 0 < m) (hm : m ≤ c.line.occupancy) :
    c.line.items.take m =
      ((c.tick store fetch sinkReady).1.retired.map (·.entry)).toList ++
        (c.tick store fetch sinkReady).2.line.items.take
          (m - (c.tick store fetch sinkReady).1.retired.isSome.toNat) := by
  have hi := congrArg (List.take m) (h.toWired.items_tick store fetch sinkReady)
  rw [List.take_append_of_le_length (Line.length_items _ ▸ hm)] at hi
  rw [hi]
  cases (c.tick store fetch sinkReady).1.retired with
  | none => rfl
  | some r => exact List.take_cons hp

theorem countP_retired_tick (store : Store) (c : Core) (fetch : Option Fetched) (sinkReady : Bool) :
    ((c.tick store fetch sinkReady).1.retired.map (·.entry)).toList.countP (·.ctrl.memRead) =
      ((c.tick store fetch sinkReady).1.retired.any (·.loaded.isSome)).toNat := by
  rw [Core.retired_tick]
  cases (c.line.tick (c.offer fetch) (c.advance store sinkReady)).1.delivered with
  | none => rfl
  | some e => cases he : e.ctrl.memRead <;> simp [retire, he]

theorem headLoad_le_countP (hp : 0 < m) :
    c.headLoad.isSome.toNat ≤ (c.line.items.take m).countP (·.ctrl.memRead) := by
  cases he : c.headLoad with
  | none => exact Nat.zero_le _
  | some e =>
    obtain ⟨hh, hl⟩ := headLoad_eq_some_iff.mp he
    obtain ⟨es, hi⟩ := Line.exists_items_eq_cons hh
    refine List.countP_pos_iff.mpr ⟨e, ?_, hl⟩
    rw [hi, List.take_cons hp]
    exact List.mem_cons_self

theorem Sound.missesAhead_tick (h : Sound store s c) (fetch : Option Fetched) (sinkReady : Bool)
    (hp : 0 < m) (hm : m ≤ c.line.occupancy) :
    (c.tick store fetch sinkReady).2.missesAhead
          (m - (c.tick store fetch sinkReady).1.retired.isSome.toNat) +
        (c.tick store fetch sinkReady).1.missed.toNat ≤ c.missesAhead m := by
  have hc := congrArg (List.countP (·.ctrl.memRead)) (h.take_items fetch sinkReady hp hm)
  rw [List.countP_append, countP_retired_tick] at hc
  have hf := headLoad_le_countP (c := c) hp
  have hl := h.headLoad_le fetch sinkReady
  have hr := h.loaded_le_headServed fetch sinkReady
  have hs := missed_add_headServed store c fetch sinkReady
  rw [missesAhead, missesAhead]
  omega

theorem length_delivered_tick (store : Store) (c : Core) (fetch : Option Fetched)
    (sinkReady : Bool) :
    (c.line.tick (c.offer fetch) (c.advance store sinkReady)).1.delivered.toList.length =
      (c.tick store fetch sinkReady).1.retired.isSome.toNat := by
  rw [length_toList, retired_tick, Option.isSome_map]

theorem Sound.departures_eq (h : Sound store s c) (fetch : Option Fetched) (sinkReady : Bool) :
    Line.departures (c.advance store sinkReady) (c.offer fetch) c.line.stages =
      (c.tick store fetch sinkReady).1.retired.isSome.toNat := by
  rw [h.line.departures_eq, length_delivered_tick]

theorem Sound.delay_tick (h : Sound store s c) (fetch : Option Fetched) (sinkReady : Bool)
    (hp : 0 < m) (hm : m ≤ c.line.occupancy) :
    Line.delay (m - (c.tick store fetch sinkReady).1.retired.isSome.toNat)
          (c.tick store fetch sinkReady).2.line.stages +
        (c.advance store sinkReady).toNat ≤ Line.delay m c.line.stages := by
  rw [← length_delivered_tick]
  exact h.line.delay_tick (c.offer fetch) (c.advance store sinkReady) hp hm

/-- A ready tick brings every retirement nearer, and no tick puts one off. -/
theorem Sound.wait_tick (h : Sound store s c) (fetch : Option Fetched) (sinkReady : Bool)
    (hp : 0 < m) (hm : m ≤ c.line.occupancy) :
    (c.tick store fetch sinkReady).2.wait
          (m - (c.tick store fetch sinkReady).1.retired.isSome.toNat) +
        sinkReady.toNat ≤ c.wait m := by
  have hd := h.delay_tick fetch sinkReady hp hm
  have hl := h.missesAhead_tick fetch sinkReady hp hm
  have hs := sinkReady_le store c fetch sinkReady
  rw [wait, wait]
  omega

theorem Reachable.le_length_retirements (h : Reachable store s c) (hm : m ≤ c.line.occupancy)
    {is : List Input} (hw : c.wait m ≤ is.countP (·.sinkReady)) :
    m ≤ (retirements (c.run store is).1).length := by
  induction is generalizing c m with
  | nil =>
    calc m ≤ Line.delay m c.line.stages := Line.le_delay (Line.length_items _ ▸ hm)
      _ ≤ c.wait m := Nat.le_add_right _ _
      _ ≤ 0 := hw
  | cons i is ih =>
    rcases Nat.eq_zero_or_pos m with rfl | hp
    · exact Nat.zero_le _
    · have ht := h.sound.wait_tick i.fetch i.sinkReady hp hm
      have ho := h.sound.occupancy_tick i.fetch i.sinkReady
      rw [countP_cons_toNat] at hw
      have hr := ih (h.tick i.fetch i.sinkReady)
        (m := m - (c.tick store i.fetch i.sinkReady).1.retired.isSome.toNat) (by omega) (by omega)
      rw [run_cons, retirements_cons, List.length_append, length_toList]
      omega

theorem Sound.wait_lt (h : Sound store s c) (hp : 0 < m) (hm : m ≤ c.line.occupancy) :
    c.wait m < s.pipeline.stages.toNat + m + (c.line.items.take m).countP (·.ctrl.memRead) := by
  have hd := Line.delay_lt hp (Line.length_items _ ▸ hm)
  have hl : c.line.stages.length = s.pipeline.stages.toNat := h.line.depth_eq.2
  rw [wait, missesAhead]
  omega

/-- All instructions held have retired, in order, once the number of ticks with a ready sink
is that of the stages, of the instructions held and of the loads among them, less one. It does
not matter what is fetched meanwhile or when the sink stalls. -/
theorem held_instructions_retire (h : Reachable store s c) {is : List Input}
    (hi : s.pipeline.stages.toNat + c.line.occupancy - 1 +
      c.line.items.countP (·.ctrl.memRead) ≤ is.countP (·.sinkReady)) :
    c.line.items <+: (retirements (c.run store is).1).map (·.entry) := by
  have hn : c.line.items.length ≤ ((retirements (c.run store is).1).map (·.entry)).length := by
    rw [List.length_map, Line.length_items]
    rcases Nat.eq_zero_or_pos c.line.occupancy with h0 | hp
    · rw [h0]
      exact Nat.zero_le _
    · have hw := h.sound.wait_lt hp (Nat.le_refl _)
      rw [← Line.length_items, List.take_length, Line.length_items] at hw
      exact h.le_length_retirements (Nat.le_refl _) (by omega)
  have hc := h.entries_run is
  exact List.prefix_of_prefix_length_le (hc ▸ List.prefix_append _ _) (List.prefix_append _ _) hn

/-- Two stages are full with four instructions, two of them loads that evict each other. The
sink is ready for the seventh time in the last tick. -/
theorem held_instructions_retire_evicting :
    let s : Settings := { cache := { numBlocks := 2 }, pipeline := { stages := 2 } }
    let store : Store := fun a => a + 7
    let fill : List Input :=
      [⟨some ⟨0, 0x00100093⟩, false⟩, ⟨some ⟨4, 0xFFF02003⟩, false⟩,
        ⟨some ⟨8, 0x00102003⟩, false⟩, ⟨some ⟨12, 0x33⟩, false⟩]
    let is : List Input :=
      [⟨some ⟨16, 0x33⟩, true⟩, ⟨none, false⟩, ⟨none, true⟩, ⟨some ⟨16, 0x33⟩, true⟩,
        ⟨some ⟨20, 0x00102003⟩, true⟩, ⟨none, false⟩, ⟨none, true⟩, ⟨none, true⟩, ⟨none, true⟩]
    ∃ c, AtReset store s c ∧
      let c' := (c.run store fill).2
      c'.ready = false ∧
        c'.line.items =
          [⟨0, 0x00100093⟩, ⟨4, 0xFFF02003⟩, ⟨8, 0x00102003⟩, ⟨12, 0x33⟩].map Isa.base.entry ∧
        is.countP (·.sinkReady) = 2 + 4 - 1 + 2 ∧
        c'.line.items <+: (retirements (c'.run store is).1).map (·.entry) := by
  intro s store fill is
  obtain ⟨c, hc, hr, hi, ho, hl⟩ : ∃ c, ofSettings s = .ok c ∧
      (c.run store fill).2.ready = false ∧
      (c.run store fill).2.line.items =
        [⟨0, 0x00100093⟩, ⟨4, 0xFFF02003⟩, ⟨8, 0x00102003⟩, ⟨12, 0x33⟩].map Isa.base.entry ∧
      (c.run store fill).2.line.occupancy = 4 ∧
      (c.run store fill).2.line.items.countP (·.ctrl.memRead) = 2 := by
    subst s
    refine ⟨_, rfl, ?_, ?_, ?_, ?_⟩ <;> decide +kernel
  have h : Reachable store s (c.run store fill).2 := (Reachable.build hc).run fill
  exact ⟨c, .inl hc, hr, hi, rfl, held_instructions_retire h (by rw [ho, hl]; decide)⟩

end ElasticCore.Core
