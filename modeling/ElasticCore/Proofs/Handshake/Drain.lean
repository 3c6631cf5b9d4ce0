import ElasticCore.Proofs.Handshake.Conservation
import ElasticCore.Proofs.Handshake.Delay

/-! # Draining a line

What a line holds reaches the sink once the sink was ready often enough. The delay of an
item bounds the number of ready ticks; a stalled tick leaves it as it was, and what the
source offers meanwhile queues up behind.
-/

namespace ElasticCore.Line

variable {α : Type} [Inhabited α] {depth m : Nat} {l : Line α}

theorem Reachable.departures_eq (h : Reachable depth l) (offer : Slot α) (sinkReady : Bool) :
    departures sinkReady offer l.stages =
      (l.tick offer sinkReady).1.delivered.toList.length := by
  rw [departures, Slot.transfer, delivered_tick h.stages_ne_nil, head_eq h.stages_ne_nil offer]

theorem Reachable.delay_tick (h : Reachable depth l) (offer : Slot α) (sinkReady : Bool)
    (hp : 0 < m) (hm : m ≤ l.occupancy) :
    delay (m - (l.tick offer sinkReady).1.delivered.toList.length)
        (l.tick offer sinkReady).2.stages + sinkReady.toNat ≤ delay m l.stages := by
  have hd : (l.tick offer sinkReady).1.delivered.toList.length ≤ m := by
    rw [length_toList]
    exact (Bool.toNat_le _).trans hp
  have hs := delay_successors (m := m - (l.tick offer sinkReady).1.delivered.toList.length)
    h.sound sinkReady offer
  rw [h.departures_eq, Nat.sub_add_cancel hd] at hs
  exact hs hp (length_items l ▸ hm)

theorem Reachable.le_length_delivered (h : Reachable depth l) (hm : m ≤ l.occupancy)
    {is : List (Input α)} (hw : delay m l.stages ≤ is.countP (·.sinkReady)) :
    m ≤ (deliveredItems (l.run is).1).length := by
  induction is generalizing l m with
  | nil => exact (le_delay (length_items l ▸ hm)).trans hw
  | cons i is ih =>
    rcases Nat.eq_zero_or_pos m with rfl | hp
    · exact Nat.zero_le _
    have ht := h.delay_tick i.offer i.sinkReady hp hm
    rw [countP_cons_toNat] at hw
    have hi := congrArg List.length
      (h.sound.items_tick h.stages_ne_nil i.offer i.sinkReady)
    simp only [List.length_append, length_items] at hi
    have hr := ih (h.tick i.offer i.sinkReady)
      (m := m - (l.tick i.offer i.sinkReady).1.delivered.toList.length) (by omega) (by omega)
    rw [run_cons, deliveredItems_cons, List.length_append]
    omega

/-- All items held have been delivered, in order, once the number of ticks with a ready sink
is that of the stages and of the items, less one. A stall costs the tick in which it occurs. -/
theorem held_items_delivered (h : Reachable depth l) {is : List (Input α)}
    (hi : depth + l.occupancy - 1 ≤ is.countP (·.sinkReady)) :
    l.items <+: deliveredItems (l.run is).1 := by
  have hn : l.items.length ≤ (deliveredItems (l.run is).1).length := by
    rw [length_items]
    rcases Nat.eq_zero_or_pos l.occupancy with h0 | hp
    · exact h0 ▸ Nat.zero_le _
    have hd := delay_lt hp (Nat.le_of_eq (length_items l).symm)
    have hl : l.stages.length = depth := h.depth_eq.2
    exact h.le_length_delivered (Nat.le_refl _) (by omega)
  have hc := h.items_run is
  exact List.prefix_of_prefix_length_le (hc ▸ List.prefix_append _ _) (List.prefix_append _ _) hn

/-- Two items on three stages, with a bubble between them: the sink is ready for the fourth time
in the last tick, and stalls twice before. -/
theorem held_items_delivered_stalled :
    let l : Line Nat := ⟨List.replicate 3 .reset, default⟩
    let fill : List (Input Nat) := [⟨.holding 1, true⟩, ⟨.empty, true⟩, ⟨.holding 2, true⟩]
    let is : List (Input Nat) :=
      [⟨.holding 3, false⟩, ⟨.empty, true⟩, ⟨.holding 4, true⟩, ⟨.holding 5, false⟩,
        ⟨.empty, true⟩, ⟨.empty, true⟩]
    let l' := (l.run fill).2
    Reachable 3 l' ∧ l'.items = [1, 2] ∧ is.countP (·.sinkReady) = 3 + 2 - 1 ∧
      [1, 2] <+: deliveredItems (l'.run is).1 := by
  intro l fill is l'
  have hl : Reachable 3 l' := (Reachable.build rfl).run fill
  have hi : l'.items = [1, 2] := by decide +kernel
  have ho : l'.occupancy = 2 := by rw [← length_items, hi]; rfl
  exact ⟨hl, hi, rfl, hi ▸ held_items_delivered hl (by rw [ho]; decide)⟩

end ElasticCore.Line
