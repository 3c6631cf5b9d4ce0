import ElasticCore.Proofs.Handshake.Conservation

/-! # Stable interfaces

Both ends of a line keep what they show until the other side acts on it. The head stays until the
sink takes it, even if a stage overflows or drains behind it. A line that is ready stays ready until
it accepts an item: only an overflow withdraws the readiness of a stage, and nothing overflows
without an offer.
-/

namespace ElasticCore

variable {α : Type} [Inhabited α]

theorem Stage.ready_move_of_no_offer {s : Stage α} {offer : Slot α} (hr : s.ready = true)
    (ho : offer.valid = false) (outReady : Bool) : (s.move offer outReady).2.ready = true := by
  cases hv : s.output.valid <;> cases outReady <;> simp [move, hr, ho, hv]

namespace Line

variable {l : Line α} {offer : Slot α} {sinkReady : Bool}

theorem ready_tick_of_no_offer (hr : l.ready = true) (ho : offer.valid = false)
    (sinkReady : Bool) : (l.tick offer sinkReady).2.ready = true := by
  obtain ⟨stages, sink⟩ := l
  cases stages with
  | nil => exact hr
  | cons s rest => exact Stage.ready_move_of_no_offer hr ho _

theorem ready_tick_of_not_accepted (hr : l.ready = true)
    (ha : (l.tick offer sinkReady).1.accepted = false) :
    (l.tick offer sinkReady).2.ready = true := by
  rw [accepted_tick, hr, Bool.and_true] at ha
  exact ready_tick_of_no_offer hr ha sinkReady

theorem ready_run_of_not_accepted {is : List (Input α)} (hr : l.ready = true)
    (ha : acceptedItems is (l.run is).1 = []) : (l.run is).2.ready = true := by
  induction is generalizing l with
  | nil => exact hr
  | cons i is ih =>
    rw [run_cons, acceptedItems_cons, List.append_eq_nil_iff] at ha
    obtain ⟨hi, ha⟩ := ha
    refine ih (ready_tick_of_not_accepted hr ?_) ha
    cases hb : (l.tick i.offer i.sinkReady).1.accepted with
    | false => rfl
    | true => simp [hb] at hi

theorem Reachable.head_run {depth : Nat} (h : Reachable depth l) {a : α} (hh : l.head = some a)
    (is : List (Input α)) :
    deliveredItems (l.run is).1 = [] ∧ (l.run is).2.head = some a ∨
      (deliveredItems (l.run is).1).head? = some a := by
  induction is generalizing l with
  | nil => exact Or.inl ⟨rfl, hh⟩
  | cons i is ih =>
    have hd := delivered_tick h.stages_ne_nil i.offer i.sinkReady
    rw [run_cons, deliveredItems_cons, hd]
    cases hk : i.sinkReady with
    | true => exact Or.inr (by simp [hh])
    | false => exact ih (h.tick i.offer false) (head_tick_of_stalled h.stages_ne_nil i.offer hh)

/-- An item that the sink is offered is neither withdrawn nor changed before the sink takes it, and
a line that is ready ceases to be so only by accepting an item. This holds of a tick and of any
number of ticks. -/
theorem head_and_readiness_persist {depth : Nat} (h : Reachable depth l) :
    (∀ (offer : Slot α) (sinkReady : Bool),
      (∀ a, l.head = some a → sinkReady = false →
        (l.tick offer sinkReady).2.head = some a) ∧
      (l.ready = true → offer.valid = false → (l.tick offer sinkReady).2.ready = true)) ∧
    ∀ is : List (Input α),
      (∀ a, l.head = some a →
        deliveredItems (l.run is).1 = [] ∧ (l.run is).2.head = some a ∨
          (deliveredItems (l.run is).1).head? = some a) ∧
      (l.ready = true → acceptedItems is (l.run is).1 = [] → (l.run is).2.ready = true) := by
  constructor
  · intro offer sinkReady
    constructor
    · rintro a hh rfl
      exact head_tick_of_stalled h.stages_ne_nil offer hh
    · intro hr ho
      exact ready_tick_of_no_offer hr ho sinkReady
  · intro is
    exact ⟨fun a hh => h.head_run hh is, ready_run_of_not_accepted⟩

/-- The last of two stages overflows while the sink stalls, and drains when it is ready again. The
head stays and leaves first, and the line is ready throughout. -/
theorem head_and_readiness_persist_overflowing :
    let l : Line Nat := ⟨List.replicate 2 .reset, default⟩
    let fill : List (Input Nat) := [⟨.holding 1, false⟩, ⟨.holding 2, false⟩]
    let is : List (Input Nat) := [⟨.empty, false⟩, ⟨.empty, true⟩, ⟨.empty, true⟩]
    let l' := (l.run fill).2
    let os := (l'.run is).1
    Reachable 2 l' ∧ l'.head = some 1 ∧ l'.ready = true ∧
      os.map (·.transitions) = [[.consume, .overflow], [.hold, .drain], [.hold, .consume]] ∧
      (l'.tick .empty false).2.head = some 1 ∧ (l'.tick .empty false).2.ready = true ∧
      (deliveredItems os).head? = some 1 ∧ (l'.run is).2.ready = true := by
  intro l fill is l' os
  have hl : Reachable 2 l' := (Reachable.build rfl).run fill
  have hh : l'.head = some 1 := by decide +kernel
  have hr : l'.ready = true := by decide +kernel
  obtain ⟨ht, hruns⟩ := head_and_readiness_persist hl
  obtain ⟨hrun, hrr⟩ := hruns is
  refine ⟨hl, hh, hr, by decide +kernel, (ht .empty false).1 1 hh rfl,
    (ht .empty false).2 hr rfl, ?_, hrr hr (by decide +kernel)⟩
  rcases hrun 1 hh with ⟨hd, -⟩ | hd
  · exact absurd hd (by decide +kernel)
  · exact hd

end Line

end ElasticCore
