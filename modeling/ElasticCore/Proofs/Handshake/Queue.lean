import ElasticCore.Proofs.Handshake.Invariant

/-! # Stages as queues

A stage is a queue with two places. What its registers hold after any ticks from reset is read
as a list, the output first. A tick takes the front off this list and puts the offered item
behind its end, and the movement tells how the length of the list has changed.
-/

namespace ElasticCore

variable {α : Type}

theorem Slot.transfer_eq_ite (s : Slot α) (ready : Bool) :
    s.transfer ready = if s.valid && ready then some s.data else none := by
  cases hv : s.valid <;> cases ready <;> simp [transfer, item?, hv]

namespace Stage

/-- A tick of a queue with two places: what it holds, the item that is put in, the item that is
taken out, the movement, and what it holds afterwards. -/
inductive QueueTick : List α → Option α → Option α → Transition → List α → Prop
  | enter (a : α) : QueueTick [] (some a) none .load [a]
  | replace (a b : α) : QueueTick [a] (some b) (some a) .load [b]
  | append (a b : α) : QueueTick [a] (some b) none .overflow [a, b]
  | advance (a b : α) : QueueTick [a, b] none (some a) .drain [b]
  | leave (a : α) : QueueTick [a] none (some a) .consume []
  | rest (q : List α) : QueueTick q none none .hold q

variable {q q' : List α} {put taken : Option α} {t : Transition}

namespace QueueTick

theorem items_eq (h : QueueTick q put taken t q') :
    q' = (if taken.isSome then q.tail else q) ++ put.toList := by
  cases h <;> simp

theorem overflow_iff (h : QueueTick q put taken t q') :
    t = .overflow ↔ q.length = 1 ∧ q'.length = 2 := by
  cases h with
  | rest q => exact iff_of_false nofun (by omega)
  | _ => simp

theorem drain_iff (h : QueueTick q put taken t q') :
    t = .drain ↔ q.length = 2 ∧ q'.length = 1 := by
  cases h with
  | rest q => exact iff_of_false nofun (by omega)
  | _ => simp

theorem consume_iff (h : QueueTick q put taken t q') :
    t = .consume ↔ q.length = 1 ∧ q'.length = 0 := by
  cases h with
  | rest q => exact iff_of_false nofun (by omega)
  | _ => simp

theorem load_iff (h : QueueTick q put taken t q') :
    t = .load ↔ put.isSome = true ∧ q'.length = 1 := by
  cases h <;> simp

theorem hold_iff (h : QueueTick q put taken t q') :
    t = .hold ↔ put.isSome = false ∧ taken = none := by
  cases h <;> simp

end QueueTick

variable {s : Stage α}

theorem Sound.head?_items (h : s.Sound) : s.items.head? = s.output.item? := by
  rcases h.cases with ⟨hv, -, hb⟩ | ⟨hv, -, hb⟩ | ⟨hv, -, hb⟩ <;>
    simp [items, Slot.item?, hv, hb]

variable [Inhabited α]

theorem Sound.queueTick (h : s.Sound) (offer : Slot α) (outReady : Bool) :
    QueueTick s.items (offer.transfer s.ready) (s.output.transfer outReady)
      (s.move offer outReady).1 (s.move offer outReady).2.items := by
  obtain ⟨valid, b⟩ := offer
  -- What the stage holds, whether something is offered and whether the consumer is ready pick
  -- one way for the queue.
  rcases h.cases with ⟨hv, hr, hb⟩ | ⟨hv, hr, hb⟩ | ⟨hv, hr, hb⟩ <;>
    cases valid <;> cases outReady <;>
    simp [Stage.move, items, Slot.transfer, Slot.item?, Slot.empty, hv, hr, hb] <;> constructor

inductive Reachable : Stage α → Prop
  | reset : Reachable .reset
  | tick {s : Stage α} (offer : Slot α) (outReady : Bool) :
      Reachable s → Reachable (s.evaluate offer outReady).next

theorem Reachable.sound (h : Reachable s) : s.Sound := by
  induction h with
  | reset => exact sound_reset
  | tick offer outReady _ ih => exact ih.move offer outReady

/-- A stage behaves as a queue with two places. It is ready while a place is free, and it shows
the front of the queue. A tick takes the front off when the consumer is ready, puts an accepted
item behind the others, and reports how the length has changed. -/
theorem behaves_as_queue_of_two (h : Reachable s) (offer : Slot α) (outReady : Bool) :
    let q := s.items
    let o := s.evaluate offer outReady
    let q' := o.next.items
    (s.ready = true ↔ q.length < 2) ∧
    (s.output.valid = true ↔ q ≠ []) ∧
    (s.output.valid = true → q.head? = some s.output.data) ∧
    (o.accepted = true ↔ offer.valid = true ∧ q.length < 2) ∧
    o.emitted = (if outReady then q.head? else none) ∧
    q' = (if o.emitted.isSome then q.tail else q) ++ (if o.accepted then [offer.data] else []) ∧
    (o.transition = .overflow ↔ q.length = 1 ∧ q'.length = 2) ∧
    (o.transition = .drain ↔ q.length = 2 ∧ q'.length = 1) ∧
    (o.transition = .consume ↔ q.length = 1 ∧ q'.length = 0) ∧
    (o.transition = .load ↔ o.accepted = true ∧ q'.length = 1) ∧
    (o.transition = .hold ↔ o.accepted = false ∧ o.emitted = none) := by
  intro q o q'
  have hs := h.sound
  have hm : QueueTick q (offer.transfer s.ready) o.emitted o.transition q' :=
    hs.queueTick offer outReady
  have hr : s.ready = true ↔ q.length < 2 := by
    rw [hs.ready_iff, ← length_items]
    exact Nat.lt_succ_iff.symm
  have hp : offer.transfer s.ready = if o.accepted then some offer.data else none :=
    offer.transfer_eq_ite s.ready
  have ha : (offer.transfer s.ready).isSome = o.accepted := by
    rw [hp]
    cases o.accepted <;> rfl
  refine ⟨hr, ?_, ?_, ?_, ?_, ?_, hm.overflow_iff, hm.drain_iff, hm.consume_iff, ?_, ?_⟩
  · rw [hs.valid_iff, ← length_items]
    exact List.length_pos_iff
  · intro hv
    rw [hs.head?_items, Slot.item?, if_pos hv]
  · rw [← hr]
    exact Bool.and_eq_true_iff
  · rw [hs.head?_items]
    rfl
  · rw [hm.items_eq, hp]
    cases o.accepted <;> rfl
  · rw [← ha]
    exact hm.load_iff
  · rw [← ha]
    exact hm.hold_iff

/-- A full stage refuses a third item and hands on the first. -/
theorem behaves_as_queue_of_two_full :
    let s : Stage Nat :=
      ((reset.evaluate (.holding 1) false).next.evaluate (.holding 2) false).next
    let o := s.evaluate (.holding 3) true
    Reachable s ∧ s.items = [1, 2] ∧ s.ready = false ∧ o.accepted = false ∧
      o.emitted = some 1 ∧ o.next.items = [2] ∧ o.transition = .drain := by
  intro s o
  have hs : Reachable s := (Reachable.reset.tick (.holding 1) false).tick (.holding 2) false
  have hi : s.items = [1, 2] := by decide
  obtain ⟨hr, -, -, ha, he, hn, -, hd, -⟩ := behaves_as_queue_of_two hs (.holding 3) true
  have hr : s.ready = false := by simpa [hi] using hr
  have ha : o.accepted = false := by simpa [hi] using ha
  have he : o.emitted = some 1 := by simpa [hi] using he
  have hn : o.next.items = [2] := by simpa [hi, ha, he, o] using hn
  exact ⟨hs, hi, hr, ha, he, hn, hd.mpr ⟨by rw [hi]; rfl, by rw [hn]; rfl⟩⟩

end Stage

end ElasticCore
