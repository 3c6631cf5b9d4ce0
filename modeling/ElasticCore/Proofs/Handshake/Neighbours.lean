import ElasticCore.Proofs.Handshake.Steady
import Mathlib.Data.List.Chain

/-! # Neighbouring stages

A stage knows of its neighbours only what their registers showed before the tick. Still the
registers of neighbours agree: a buffer is full after a tick only if the next stage refused in it,
and a stage that refuses has two items, of which it keeps one. So no full buffer is behind an empty
stage, and a drain finds an item in the buffer.
-/

namespace ElasticCore

variable {α : Type}

namespace Stage

/-- An item in the buffer of `s` waits for one in the output of the next stage, `t`. -/
def Waits (s t : Stage α) : Prop := s.buffer.valid = true → t.output.valid = true

theorem Waits.buffer_of_empty {s t : Stage α} (h : Waits s t) (ht : t.occupancy = 0) :
    s.buffer.valid = false := by
  rw [← Bool.not_eq_true]
  intro hb
  simp [occupancy, h hb] at ht

variable [Inhabited α] {s t : Stage α} {offer : Slot α} {outReady : Bool}

theorem Sound.outReady_of_buffer_valid (h : s.Sound)
    (hb : (s.move offer outReady).2.buffer.valid = true) : outReady = false := by
  cases outReady with
  | false => rfl
  | true =>
    have hr := (h.move offer true).ready_eq
    rw [ready_move, hb] at hr
    cases hr

theorem Sound.output_valid_move_of_not_ready (h : s.Sound) (hr : s.ready = false)
    (offer : Slot α) (outReady : Bool) : (s.move offer outReady).2.output.valid = true := by
  have hb : s.buffer.valid = true := by simpa [hr] using h.ready_eq
  rw [h.output_valid_move, hb, Bool.or_true, Bool.true_or]

/-- The registers before the tick decide: whatever waits after it was refused in it. -/
theorem Sound.waits_move (hs : s.Sound) (ht : t.Sound) (offer offer' : Slot α) (outReady : Bool) :
    Waits (s.move offer t.ready).2 (t.move offer' outReady).2 :=
  fun hb => ht.output_valid_move_of_not_ready (hs.outReady_of_buffer_valid hb) offer' outReady

theorem Sound.exists_item_of_drain (h : s.Sound) (hd : (s.move offer outReady).1 = .drain) :
    ∃ a, s.buffer.item? = some a ∧ (s.move offer outReady).2.output.item? = some a := by
  rcases h.cases with ⟨hv, hr, hb⟩ | ⟨hv, hr, hb⟩ | ⟨hv, hr, hb⟩
  case inr.inr =>
    refine ⟨s.buffer.data, by simp [Slot.item?, hb], ?_⟩
    cases outReady with
    | true => simp [Stage.move, Slot.item?, hr, hb]
    | false => simp [Stage.move, hv, hr] at hd
  all_goals
    -- a ready stage loads, overflows, is emptied or holds
    cases ho : offer.valid <;> cases outReady <;> simp [Stage.move, hv, hr, ho] at hd

end Stage

namespace Line

variable [Inhabited α] {depth : Nat} {l : Line α} {stages : List (Stage α)}

theorem isChain_waits_replicate_reset (n : Nat) :
    (List.replicate n (.reset : Stage α)).IsChain Stage.Waits := by
  apply List.isChain_replicate_of_rel
  intro hb
  cases hb

theorem isChain_waits_successors (h : ∀ s ∈ stages, s.Sound) (sinkReady : Bool) (offer : Slot α) :
    (successors sinkReady offer stages).IsChain Stage.Waits := by
  induction stages generalizing offer with
  | nil => exact .nil
  | cons s rest ih =>
    obtain ⟨hs, hr⟩ := List.forall_mem_cons.mp h
    cases rest with
    | nil => exact .singleton _
    | cons t rest =>
      have ht : t.Sound := hr t List.mem_cons_self
      exact .cons_cons (hs.waits_move ht offer s.output _) (ih hr s.output)

theorem Reachable.isChain_waits (h : Reachable depth l) : l.stages.IsChain Stage.Waits := by
  cases h with
  | build h =>
    obtain ⟨-, rfl⟩ := ofDepth_eq_ok_iff.mp h
    exact isChain_waits_replicate_reset _
  | tick offer sinkReady h => exact isChain_waits_successors h.sound sinkReady offer
  | @flush l h =>
    rw [Line.flush, List.map_const']
    exact isChain_waits_replicate_reset _

theorem exists_evaluate_of_getElem?_outcomes {sinkReady : Bool} {offer : Slot α} {i : Nat}
    {o : Stage.Outcome α} (h : (outcomes sinkReady offer stages)[i]? = some o) :
    ∃ s offer' outReady, stages[i]? = some s ∧ o = s.evaluate offer' outReady := by
  induction stages generalizing offer i with
  | nil => cases h
  | cons s rest ih =>
    cases i with
    | zero => exact ⟨s, offer, readiness sinkReady rest, rfl, (Option.some.inj h).symm⟩
    | succ i => exact ih h

theorem Sound.exists_item_of_drain (h : l.Sound) {offer : Slot α} {sinkReady : Bool} {i : Nat}
    (hd : (l.tick offer sinkReady).1.transitions[i]? = some .drain) :
    ∃ s s' a, l.stages[i]? = some s ∧ (l.tick offer sinkReady).2.stages[i]? = some s' ∧
      s.buffer.item? = some a ∧ s'.output.item? = some a := by
  change ((outcomes sinkReady offer l.stages).map (·.transition))[i]? = some .drain at hd
  rw [List.getElem?_map, Option.map_eq_some_iff] at hd
  obtain ⟨o, ho, hd⟩ := hd
  obtain ⟨s, offer', outReady, hs, rfl⟩ := exists_evaluate_of_getElem?_outcomes ho
  obtain ⟨a, hb, ha⟩ := (h s (List.mem_of_getElem? hs)).exists_item_of_drain hd
  refine ⟨s, (s.move offer' outReady).2, a, hs, ?_, hb, ha⟩
  change ((outcomes sinkReady offer l.stages).map (·.next))[i]? = _
  rw [List.getElem?_map, ho]
  rfl

/-- In every line that ticks and flushes lead to, a stage is ready exactly when its buffer is empty,
a full buffer is behind a full output of its own stage and behind one of the next stage, and thus
never behind an empty stage. What a drain moves to the output is an item. -/
theorem registers_of_neighbours_agree (h : Reachable depth l) :
    (∀ s ∈ l.stages, (s.ready = true ↔ s.buffer.valid = false) ∧
      (s.buffer.valid = true → s.output.valid = true)) ∧
    (∀ (i : Nat) (s t : Stage α), l.stages[i]? = some s → l.stages[i + 1]? = some t →
      (s.buffer.valid = true → t.output.valid = true) ∧
        (t.occupancy = 0 → s.buffer.valid = false)) ∧
    ∀ (offer : Slot α) (sinkReady : Bool) (i : Nat),
      (l.tick offer sinkReady).1.transitions[i]? = some .drain →
      ∃ s s' a, l.stages[i]? = some s ∧ (l.tick offer sinkReady).2.stages[i]? = some s' ∧
        s.buffer.item? = some a ∧ s'.output.item? = some a := by
  refine ⟨fun s hs => ?_, fun i s t hs ht => ?_, fun offer sinkReady i => ?_⟩
  · have hr := (h.sound s hs).ready_eq
    exact ⟨by rw [hr, Bool.not_eq_true'], (h.sound s hs).output_of_buffer⟩
  · obtain ⟨_, rfl⟩ := List.getElem?_eq_some_iff.mp hs
    obtain ⟨hi, rfl⟩ := List.getElem?_eq_some_iff.mp ht
    have hw := h.isChain_waits.getElem i hi
    exact ⟨hw, hw.buffer_of_empty⟩
  · exact h.sound.exists_item_of_drain

/-- Four items fill two stages while the sink stalls; then the last stage drains. -/
theorem registers_of_neighbours_agree_full :
    let l : Line Nat := ⟨List.replicate 2 .reset, default⟩
    let l' := (l.run ([1, 2, 3, 4].map fun a => ⟨.holding a, false⟩)).2
    Reachable 2 l' ∧
      (∃ s t, l'.stages[0]? = some s ∧ l'.stages[1]? = some t ∧
        s.ready = false ∧ s.buffer.valid = true ∧ t.output.valid = true) ∧
      (l'.tick .empty true).1.transitions[1]? = some .drain ∧
      ∃ s s' a, l'.stages[1]? = some s ∧ (l'.tick .empty true).2.stages[1]? = some s' ∧
        s.buffer.item? = some a ∧ s'.output.item? = some a := by
  intro l l'
  have h : Reachable 2 l' := (Reachable.build rfl).run _
  obtain ⟨hr, hw, hd⟩ := registers_of_neighbours_agree h
  have hs : l'.stages[0]? = some ⟨.holding 3, false, .holding 4⟩ := by decide +kernel
  have ht : l'.stages[1]? = some ⟨.holding 1, false, .holding 2⟩ := by decide +kernel
  have hd' : (l'.tick .empty true).1.transitions[1]? = some .drain := by decide +kernel
  have hb := (hw 0 _ _ hs ht).1 rfl
  exact ⟨h, ⟨_, _, hs, ht, rfl, rfl, hb⟩, hd', hd .empty true 1 hd'⟩

end Line

end ElasticCore
