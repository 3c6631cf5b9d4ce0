import ElasticCore.Proofs.Handshake.Run

/-! # Lines in series

The stages of two lines in a row make one line. It moves its items as the two lines do, if each
of them is ticked on its own: the first one sees whether the second is ready, and the second is
offered the head of the first, both as they are before the tick.
-/

namespace ElasticCore

variable {α : Type}

theorem Stage.evaluate_congr [Inhabited α] (s : Stage α) {offer offer' : Slot α}
    (h : offer.item? = offer'.item?) (outReady : Bool) :
    s.evaluate offer outReady = s.evaluate offer' outReady := by
  obtain ⟨v, a⟩ := offer
  obtain ⟨v', a'⟩ := offer'
  cases v <;> cases v' <;> simp [Slot.item?] at h
  case false.false => simp [evaluate, move]
  case true.true => rw [h]

namespace Line

section Rows

theorem readiness_append (sinkReady : Bool) (xs ys : List (Stage α)) :
    readiness sinkReady (xs ++ ys) = readiness (readiness sinkReady ys) xs := by
  cases xs <;> rfl

variable [Inhabited α]

theorem outcomes_congr {offer offer' : Slot α} (h : offer.item? = offer'.item?)
    (sinkReady : Bool) (stages : List (Stage α)) :
    outcomes sinkReady offer stages = outcomes sinkReady offer' stages := by
  cases stages with
  | nil => rfl
  | cons s rest => rw [outcomes, outcomes, s.evaluate_congr h]

/-- The stages behind a row are its sink, and are offered what the row exposes. -/
theorem outcomes_append (sinkReady : Bool) (offer : Slot α) (xs ys : List (Stage α)) :
    outcomes sinkReady offer (xs ++ ys) =
      outcomes (readiness sinkReady ys) offer xs ++ outcomes sinkReady (exposed offer xs) ys := by
  induction xs generalizing offer with
  | nil => rfl
  | cons s xs ih =>
    rw [List.cons_append, outcomes, outcomes, readiness_append, ih, exposed, List.cons_append]

end Rows

/-- Two lines, the second of which takes what the first delivers. -/
structure Series (α : Type) where
  front : Line α
  back : Line α
  deriving DecidableEq, Repr

namespace Series

def line (p : Series α) : Line α := ⟨p.front.stages ++ p.back.stages, p.back.sink⟩

/-- What the second line is offered. While the first one has no head, the data are arbitrary. -/
def link (p : Series α) (idle : α) : Slot α := ⟨p.front.head.isSome, p.front.head.getD idle⟩

structure Outcome (α : Type) where
  front : Line.Outcome α
  back : Line.Outcome α

def Outcome.join (o : Outcome α) : Line.Outcome α where
  accepted := o.front.accepted
  delivered := o.back.delivered
  transitions := o.front.transitions ++ o.back.transitions
  stages := o.front.stages ++ o.back.stages

variable {p : Series α}

theorem item?_link (p : Series α) (idle : α) : (p.link idle).item? = p.front.head := by
  cases h : p.front.head <;> simp [link, Slot.item?, h]

theorem ready_line (hf : p.front.stages ≠ []) : p.line.ready = p.front.ready := by
  unfold ready line
  rw [readiness_append]
  exact readiness_of_ne_nil hf _ _

theorem head_line (hb : p.back.stages ≠ []) : p.line.head = p.back.head := by
  unfold head line
  rw [List.getLast?_append, List.getLast?_eq_some_getLast hb, Option.some_or]

theorem line_stages_ne_nil (hb : p.back.stages ≠ []) : p.line.stages ≠ [] :=
  List.append_ne_nil_of_right_ne_nil _ hb

variable [Inhabited α]

/-- A tick of both lines, each of which sees the other as it was before. -/
def tick (p : Series α) (idle : α) (i : Input α) : Outcome α × Series α :=
  let f := p.front.tick i.offer p.back.ready
  let b := p.back.tick (p.link idle) i.sinkReady
  (⟨f.1, b.1⟩, ⟨f.2, b.2⟩)

/-- A run of both lines; each tick also fixes the data on the link while it is idle. -/
def run (p : Series α) (is : List (α × Input α)) : List (Outcome α) × Series α :=
  clock (fun p (idle, i) => p.tick idle i) p is

@[simp] theorem run_cons (p : Series α) (i : α × Input α) (is : List (α × Input α)) :
    p.run (i :: is) =
      ((p.tick i.1 i.2).1 :: ((p.tick i.1 i.2).2.run is).1, ((p.tick i.1 i.2).2.run is).2) := rfl

theorem outcomes_line (hf : p.front.stages ≠ []) (hb : p.back.stages ≠ []) (idle : α)
    (offer : Slot α) (sinkReady : Bool) :
    outcomes sinkReady offer p.line.stages =
      outcomes p.back.ready offer p.front.stages ++
        outcomes sinkReady (p.link idle) p.back.stages := by
  -- Within the row, the slot between the two lines keeps its data while it is invalid.
  have hl : (exposed offer p.front.stages).item? = (p.link idle).item? := by
    rw [item?_link, head_eq hf offer]
  rw [line, outcomes_append, outcomes_congr hl, readiness_of_ne_nil hb sinkReady false]
  rfl

theorem evaluate_line (hf : p.front.stages ≠ []) (hb : p.back.stages ≠ []) (idle : α)
    (i : Input α) : (p.line.tick i.offer i.sinkReady).1 = (p.tick idle i).1.join := by
  have ha : (p.line.tick i.offer i.sinkReady).1.accepted = (p.tick idle i).1.front.accepted := by
    simp only [tick, accepted_tick, ready_line hf]
  have hd : (p.line.tick i.offer i.sinkReady).1.delivered = (p.tick idle i).1.back.delivered := by
    simp only [tick, delivered_tick (line_stages_ne_nil hb), delivered_tick hb, head_line hb]
  have ho := outcomes_line hf hb idle i.offer i.sinkReady
  calc (p.line.tick i.offer i.sinkReady).1
      = ⟨(p.line.tick i.offer i.sinkReady).1.accepted, (p.line.tick i.offer i.sinkReady).1.delivered,
          (outcomes i.sinkReady i.offer p.line.stages).map (·.transition),
          (outcomes i.sinkReady i.offer p.line.stages).map (·.next)⟩ := rfl
    _ = (p.tick idle i).1.join := by
        rw [ha, hd, ho, List.map_append, List.map_append]
        rfl

theorem tick_line (hf : p.front.stages ≠ []) (hb : p.back.stages ≠ []) (idle : α) (i : Input α) :
    p.line.tick i.offer i.sinkReady = ((p.tick idle i).1.join, (p.tick idle i).2.line) := by
  have he := evaluate_line hf hb idle i
  refine Prod.ext he ?_
  change p.line.commit (p.line.tick i.offer i.sinkReady).1 = _
  rw [he]
  rfl

theorem stages_tick_ne_nil (hf : p.front.stages ≠ []) (hb : p.back.stages ≠ []) (idle : α)
    (i : Input α) :
    (p.tick idle i).2.front.stages ≠ [] ∧ (p.tick idle i).2.back.stages ≠ [] :=
  ⟨successors_ne_nil hf _ _, successors_ne_nil hb _ _⟩

theorem run_line (hf : p.front.stages ≠ []) (hb : p.back.stages ≠ [])
    (is : List (α × Input α)) :
    p.line.run (is.map (·.2)) = ((p.run is).1.map Outcome.join, (p.run is).2.line) := by
  induction is generalizing p with
  | nil => rfl
  | cons i is ih =>
    obtain ⟨hf', hb'⟩ := stages_tick_ne_nil hf hb i.1 i.2
    rw [List.map_cons, Line.run_cons, tick_line hf hb i.1, ih hf' hb', run_cons, List.map_cons]

theorem delivered_front (hf : p.front.stages ≠ []) (idle : α) (i : Input α) :
    (p.tick idle i).1.front.delivered =
      if (p.tick idle i).1.back.accepted then some (p.link idle).data else none := by
  have ht : (p.link idle).transfer p.back.ready = _ := transfer_ready p.back _ i.sinkReady
  rw [Slot.transfer, item?_link] at ht
  exact (delivered_tick hf _ _).trans ht

end Series

open Series

/-- Two lines in a row are one line. In every tick, whatever the registers hold, it accepts what
the first line accepts, delivers what the second one delivers, and makes the movements of both; an
item that leaves the first line enters the second one in the same tick. So it is in runs of any
length. -/
theorem lines_in_series_are_one_line [Inhabited α] (p : Series α) (hf : 0 < p.front.depth)
    (hb : 0 < p.back.depth) :
    (∀ (idle : α) (i : Input α),
      let front := p.front.tick i.offer p.back.ready
      let back := p.back.tick (p.link idle) i.sinkReady
      let row := p.line.tick i.offer i.sinkReady
      row.1.accepted = front.1.accepted ∧ row.1.delivered = back.1.delivered ∧
        row.1.transitions = front.1.transitions ++ back.1.transitions ∧
        row.2 = (Series.mk front.2 back.2).line ∧
        front.1.delivered = if back.1.accepted then some (p.link idle).data else none) ∧
    ∀ is : List (α × Input α),
      p.line.run (is.map (·.2)) = ((p.run is).1.map Outcome.join, (p.run is).2.line) := by
  have hf' := stages_ne_nil hf
  have hb' := stages_ne_nil hb
  constructor
  · intro idle i front back row
    have ht : row = _ := tick_line hf' hb' idle i
    rw [ht]
    exact ⟨rfl, rfl, rfl, rfl, delivered_front hf' idle i⟩
  · exact run_line hf' hb'

/-- The second stage of the first line is full and drains into the second line, while the stage
before it overflows. In the last tick the link is idle. -/
theorem lines_in_series_are_one_line_draining :
    let front : Line Nat := ⟨[⟨.holding 4, true, .empty⟩, ⟨.holding 2, false, .holding 3⟩], 0⟩
    let back : Line Nat := ⟨[⟨.holding 1, true, .empty⟩], 0⟩
    let p : Series Nat := ⟨front, back⟩
    let is : List (Nat × Input Nat) :=
      [(0, ⟨.holding 5, true⟩), (0, ⟨.empty, true⟩), (0, ⟨.holding 6, false⟩),
        (0, ⟨.empty, true⟩), (0, ⟨.empty, true⟩), (0, ⟨.empty, true⟩), (9, ⟨.empty, true⟩)]
    let row := p.line.tick (.holding 5) true
    0 < p.front.depth ∧ 0 < p.back.depth ∧
      row.1.accepted = true ∧ row.1.delivered = some 1 ∧
      row.1.transitions = [.overflow, .drain, .load] ∧
      (p.front.tick (.holding 5) p.back.ready).1.delivered = some 2 ∧
      deliveredItems (p.line.run (is.map (·.2))).1 = [1, 2, 3, 4, 5, 6] ∧
      p.line.run (is.map (·.2)) = ((p.run is).1.map Outcome.join, (p.run is).2.line) := by
  intro front back p is row
  obtain ⟨ht, hr⟩ := lines_in_series_are_one_line p (by decide) (by decide)
  obtain ⟨ha, hd, hm, -, hl⟩ := ht 0 ⟨.holding 5, true⟩
  refine ⟨by decide, by decide, ha.trans ?_, hd.trans ?_, hm.trans ?_, hl.trans ?_, ?_, hr is⟩
  all_goals decide +kernel

end Line

end ElasticCore
