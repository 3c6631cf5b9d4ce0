import ElasticCore.Proofs.Handshake.Run
import Mathlib.Algebra.Order.BigOperators.Group.List
import Mathlib.Algebra.Order.Group.Nat

/-! # Conservation of items

In a run of a line from reset, the items taken from the source are those handed to the
sink followed by those held. No item is lost, doubled or overtaken, whatever the source
and the sink do, and the line shows the item it delivered last.
-/

namespace ElasticCore.Line

variable {α : Type} {depth : Nat} {l : Line α}

theorem occupancy_le (l : Line α) : l.occupancy ≤ 2 * l.depth := by
  have h := List.sum_le_card_nsmul (l.stages.map Stage.occupancy) 2 (by
    intro n hn
    obtain ⟨s, -, rfl⟩ := List.mem_map.mp hn
    exact s.occupancy_le)
  simpa [occupancy, Line.depth, Nat.mul_comm] using h

variable [Inhabited α]

theorem Reachable.items_run (h : Reachable depth l) (is : List (Input α)) :
    l.items ++ acceptedItems is (l.run is).1 =
      deliveredItems (l.run is).1 ++ (l.run is).2.items := by
  induction is generalizing l with
  | nil => simp [acceptedItems, deliveredItems]
  | cons i is ih =>
    have ht := h.sound.items_tick h.stages_ne_nil i.offer i.sinkReady
    rw [transfer_ready l i.offer i.sinkReady] at ht
    rw [run_cons, acceptedItems_cons, deliveredItems_cons, ← List.append_assoc, ht,
      List.append_assoc, List.append_assoc, ih (h.tick i.offer i.sinkReady)]

theorem sink_run (l : Line α) (is : List (Input α)) :
    (l.run is).2.sink = (deliveredItems (l.run is).1).getLast?.getD l.sink := by
  induction is generalizing l with
  | nil => rfl
  | cons i is ih =>
    rw [run_cons, ih, sink_tick, deliveredItems_cons, List.getLast?_append]
    cases (deliveredItems ((l.tick i.offer i.sinkReady).2.run is).1).getLast? <;>
      cases (l.tick i.offer i.sinkReady).1.delivered <;> rfl

/-- The accepted items are the delivered ones followed by the held ones. -/
theorem accepted_eq_delivered_append_held (h : AtReset depth l) (is : List (Input α)) :
    let r := l.run is
    let accepted := acceptedItems is r.1
    let delivered := deliveredItems r.1
    accepted = delivered ++ r.2.items ∧
      delivered.length + r.2.occupancy = accepted.length ∧
      r.2.occupancy ≤ 2 * depth ∧
      r.2.output false = delivered.getLast?.getD default := by
  intro r accepted delivered
  have hr := h.reachable
  have hc : accepted = delivered ++ r.2.items := by
    simpa [h.items_eq] using hr.items_run is
  refine ⟨hc, ?_, ?_, ?_⟩
  · rw [hc, List.length_append, length_items]
  · rw [← (hr.run is).depth_eq.2]
    exact occupancy_le r.2
  · change r.2.sink = _
    rw [sink_run, show l.sink = default by rw [h.eq]]

/-- Two stages under a stalling sink: both buffers fill and drain, and offers are refused. -/
theorem accepted_eq_delivered_append_held_stalled :
    let l : Line Nat := ⟨List.replicate 2 .reset, default⟩
    let is : List (Input Nat) :=
      [⟨.holding 1, true⟩, ⟨.holding 2, false⟩, ⟨.holding 3, false⟩, ⟨.holding 4, false⟩,
        ⟨.holding 5, false⟩, ⟨.holding 6, true⟩, ⟨.empty, true⟩, ⟨.holding 7, true⟩]
    AtReset 2 l ∧ acceptedItems is (l.run is).1 = [1, 2, 3, 4, 7] ∧
      deliveredItems (l.run is).1 ++ (l.run is).2.items = [1, 2, 3, 4, 7] ∧
      (l.run is).2.occupancy = 2 ∧ (l.run is).2.output false = 3 := by
  intro l is
  have hl : AtReset 2 l := Or.inl rfl
  have ha : acceptedItems is (l.run is).1 = [1, 2, 3, 4, 7] := by decide +kernel
  have hd : deliveredItems (l.run is).1 = [1, 2, 3] := by decide +kernel
  obtain ⟨hi, hn, -, ho⟩ := accepted_eq_delivered_append_held hl is
  rw [ha, hd] at hn
  rw [hd] at ho
  exact ⟨hl, ha, hi.symm.trans ha, Nat.add_left_cancel hn, ho⟩

end ElasticCore.Line
