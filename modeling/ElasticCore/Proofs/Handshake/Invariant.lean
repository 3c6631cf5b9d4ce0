import ElasticCore.Handshake.Line

/-! # The invariant of stages

A stage withdraws its readiness exactly while its buffer is full, and the buffer is full
only behind a full output. Under this invariant a tick moves items and neither loses nor
doubles one: what a row of stages holds, followed by what it takes, is what it hands on,
followed by what it holds afterwards.
-/

namespace ElasticCore

variable {α : Type}

/-- The item that passes an interface in a tick, if both sides agree. -/
def Slot.transfer (s : Slot α) (ready : Bool) : Option α := if ready then s.item? else none

theorem Slot.item?_eq_none_iff {s : Slot α} : s.item? = none ↔ s.valid = false := by
  cases hv : s.valid <;> simp [item?, hv]

theorem Slot.length_transfer (s : Slot α) (ready : Bool) :
    (s.transfer ready).toList.length = (s.valid && ready).toNat := by
  cases hv : s.valid <;> cases ready <;> simp [transfer, item?, hv]

theorem Slot.valid_of_item? {s : Slot α} {a : α} (h : s.item? = some a) : s.valid = true := by
  cases hv : s.valid with
  | true => rfl
  | false => rw [item?_eq_none_iff.mpr hv] at h; cases h

theorem length_toList (o : Option α) : o.toList.length = o.isSome.toNat := by
  cases o <;> rfl

theorem countP_cons_toNat (p : α → Bool) (a : α) (as : List α) :
    (a :: as).countP p = as.countP p + (p a).toNat := by
  rw [List.countP_cons]
  cases p a <;> rfl

theorem countP_concat (p : α → Bool) (as : List α) (a : α) :
    (as ++ [a]).countP p = as.countP p + (p a).toNat := by
  rw [List.countP_append, countP_cons_toNat, List.countP_nil, Nat.zero_add]

namespace Stage

/-- The registers agree on whether the buffer holds an item. -/
structure Sound (s : Stage α) : Prop where
  ready_eq : s.ready = !s.buffer.valid
  output_of_buffer : s.buffer.valid = true → s.output.valid = true

variable {s : Stage α}

theorem Sound.cases (h : s.Sound) :
    (s.output.valid = false ∧ s.ready = true ∧ s.buffer.valid = false) ∨
    (s.output.valid = true ∧ s.ready = true ∧ s.buffer.valid = false) ∨
    (s.output.valid = true ∧ s.ready = false ∧ s.buffer.valid = true) := by
  have hr := h.ready_eq
  cases hb : s.buffer.valid with
  | true => exact Or.inr (Or.inr ⟨h.output_of_buffer hb, by simp [hr, hb], rfl⟩)
  | false =>
    rw [hb] at hr
    cases hv : s.output.valid with
    | true => exact Or.inr (Or.inl ⟨rfl, hr, rfl⟩)
    | false => exact Or.inl ⟨rfl, hr, rfl⟩

theorem Sound.items_of_invalid (h : s.Sound) (hv : s.output.valid = false) : s.items = [] := by
  have hb : s.buffer.valid = false := Bool.eq_false_iff.mpr fun hb => by
    simp [h.output_of_buffer hb] at hv
  simp [items, Slot.item?, hv, hb]

theorem Sound.valid_of_occupied (h : s.Sound) (hp : 0 < s.items.length) :
    s.output.valid = true := by
  cases hv : s.output.valid with
  | true => rfl
  | false => rw [h.items_of_invalid hv] at hp; cases hp

theorem Sound.ready_iff (h : s.Sound) : s.ready = true ↔ s.occupancy ≤ 1 := by
  rcases h.cases with ⟨hv, hr, hb⟩ | ⟨hv, hr, hb⟩ | ⟨hv, hr, hb⟩ <;> simp [occupancy, hv, hr, hb]

theorem Sound.valid_iff (h : s.Sound) : s.output.valid = true ↔ 0 < s.occupancy := by
  rcases h.cases with ⟨hv, -, hb⟩ | ⟨hv, -, hb⟩ | ⟨hv, -, hb⟩ <;> simp [occupancy, hv, hb]

theorem occupancy_le (s : Stage α) : s.occupancy ≤ 2 := by
  simp only [occupancy]
  have h₁ := Bool.toNat_le s.output.valid
  have h₂ := Bool.toNat_le s.buffer.valid
  omega

variable [Inhabited α]

theorem sound_reset : (reset : Stage α).Sound := ⟨rfl, by simp [reset, Slot.empty]⟩

theorem Sound.move (h : s.Sound) (offer : Slot α) (outReady : Bool) :
    (s.move offer outReady).2.Sound := by
  rcases h.cases with ⟨hv, hr, hb⟩ | ⟨hv, hr, hb⟩ | ⟨hv, hr, hb⟩ <;>
    cases ho : offer.valid <;> cases outReady <;> constructor <;>
    simp [Stage.move, Slot.empty, hv, hr, hb, ho]

theorem Sound.output_valid_move (h : s.Sound) (offer : Slot α) (outReady : Bool) :
    (s.move offer outReady).2.output.valid =
      (offer.valid || s.buffer.valid || (s.output.valid && !outReady)) := by
  rcases h.cases with ⟨hv, hr, hb⟩ | ⟨hv, hr, hb⟩ | ⟨hv, hr, hb⟩ <;>
    cases ho : offer.valid <;> cases outReady <;> simp [Stage.move, hv, hr, hb, ho]

theorem output_move_of_stalled (offer : Slot α) (hv : s.output.valid = true) :
    (s.move offer false).2.output = s.output := by
  simp only [move, hv]
  cases offer.valid <;> cases s.ready <;> rfl

theorem Sound.buffer_valid_move (h : s.Sound) (offer : Slot α) (outReady : Bool) :
    ((if s.buffer.valid then 1 else 0) + if (s.move offer outReady).1 = .overflow then 1 else 0) =
      (if (s.move offer outReady).1 = .drain then 1 else 0) +
        if (s.move offer outReady).2.buffer.valid then 1 else 0 := by
  rcases h.cases with ⟨hv, hr, hb⟩ | ⟨hv, hr, hb⟩ | ⟨hv, hr, hb⟩ <;>
    cases ho : offer.valid <;> cases outReady <;> simp [Stage.move, Slot.empty, hv, hr, hb, ho]

theorem Sound.items_move (h : s.Sound) (offer : Slot α) (outReady : Bool) :
    s.items ++ (offer.transfer s.ready).toList =
      (s.output.transfer outReady).toList ++ (s.move offer outReady).2.items := by
  rcases h.cases with ⟨hv, hr, hb⟩ | ⟨hv, hr, hb⟩ | ⟨hv, hr, hb⟩ <;>
    cases ho : offer.valid <;> cases outReady <;>
    simp [Stage.move, items, Slot.transfer, Slot.item?, Slot.empty, hv, hr, hb, ho]

end Stage

namespace Line

def successors [Inhabited α] (sinkReady : Bool) (offer : Slot α) (stages : List (Stage α)) :
    List (Stage α) :=
  (outcomes sinkReady offer stages).map (·.next)

theorem readiness_of_ne_nil {stages : List (Stage α)} (h : stages ≠ []) (r r' : Bool) :
    readiness r stages = readiness r' stages := by
  cases stages with
  | nil => exact absurd rfl h
  | cons => rfl

theorem stages_ne_nil {l : Line α} (h : 0 < l.depth) : l.stages ≠ [] :=
  List.ne_nil_of_length_pos h

/-- What the consumer behind a row of stages is offered. -/
def exposed : Slot α → List (Stage α) → Slot α
  | offer, [] => offer
  | _, s :: rest => exposed s.output rest

def rowItems (stages : List (Stage α)) : List α := stages.reverse.flatMap Stage.items

theorem items_eq (l : Line α) : l.items = rowItems l.stages := rfl

@[simp] theorem rowItems_nil : rowItems ([] : List (Stage α)) = [] := rfl

@[simp] theorem rowItems_cons (s : Stage α) (rest : List (Stage α)) :
    rowItems (s :: rest) = rowItems rest ++ s.items := by
  simp [rowItems]

theorem exposed_of_ne_nil (offer : Slot α) {stages : List (Stage α)} (h : stages ≠ []) :
    exposed offer stages = (stages.getLast h).output := by
  induction stages generalizing offer with
  | nil => exact absurd rfl h
  | cons s rest ih =>
    cases rest with
    | nil => rfl
    | cons t rest => exact ih s.output (by simp)

theorem head_eq {l : Line α} (h : l.stages ≠ []) (offer : Slot α) :
    l.head = (exposed offer l.stages).item? := by
  rw [exposed_of_ne_nil offer h, head, List.getLast?_eq_some_getLast h]
  rfl

theorem exists_items_eq_cons {l : Line α} {a : α} (h : l.head = some a) :
    ∃ as, l.items = a :: as := by
  obtain ⟨s, hs, ha⟩ := Option.bind_eq_some_iff.mp h
  obtain ⟨stages, hl⟩ := List.getLast?_eq_some_iff.mp hs
  refine ⟨s.buffer.item?.toList ++ rowItems stages, ?_⟩
  simp [items, rowItems, hl, Stage.items, ha]

def Sound (l : Line α) : Prop := ∀ s ∈ l.stages, s.Sound

variable [Inhabited α]

@[simp] theorem successors_nil (sinkReady : Bool) (offer : Slot α) :
    successors sinkReady offer [] = [] := rfl

@[simp] theorem length_successors (sinkReady : Bool) (offer : Slot α) (stages : List (Stage α)) :
    (successors sinkReady offer stages).length = stages.length := by
  rw [successors, List.length_map, length_outcomes]

@[simp] theorem successors_cons (sinkReady : Bool) (offer : Slot α) (s : Stage α)
    (rest : List (Stage α)) :
    successors sinkReady offer (s :: rest) =
      (s.move offer (readiness sinkReady rest)).2 :: successors sinkReady s.output rest := rfl

theorem successors_ne_nil {stages : List (Stage α)} (h : stages ≠ []) (sinkReady : Bool)
    (offer : Slot α) : successors sinkReady offer stages ≠ [] := by
  apply List.ne_nil_of_length_pos
  rw [length_successors]
  exact List.length_pos_iff.mpr h

theorem sound_successors {stages : List (Stage α)} (h : ∀ s ∈ stages, s.Sound)
    (sinkReady : Bool) (offer : Slot α) : ∀ s ∈ successors sinkReady offer stages, s.Sound := by
  induction stages generalizing offer with
  | nil => simp
  | cons s rest ih =>
    obtain ⟨hs, hr⟩ := List.forall_mem_cons.mp h
    rw [successors_cons]
    exact List.forall_mem_cons.mpr ⟨hs.move _ _, ih hr s.output⟩

-- The induction takes a stage off the front, so that its output becomes the offer to the
-- others and one interface joins the two equations.
theorem rowItems_successors {stages : List (Stage α)} (h : ∀ s ∈ stages, s.Sound)
    (sinkReady : Bool) (offer : Slot α) :
    rowItems stages ++ (offer.transfer (readiness sinkReady stages)).toList =
      ((exposed offer stages).transfer sinkReady).toList ++
        rowItems (successors sinkReady offer stages) := by
  induction stages generalizing offer with
  | nil => simp [exposed, readiness]
  | cons s rest ih =>
    obtain ⟨hs, hr⟩ := List.forall_mem_cons.mp h
    have hm := hs.items_move offer (readiness sinkReady rest)
    calc rowItems (s :: rest) ++ (offer.transfer s.ready).toList
        = rowItems rest ++ (s.items ++ (offer.transfer s.ready).toList) := by simp
      _ = rowItems rest ++ (s.output.transfer (readiness sinkReady rest)).toList ++
            (s.move offer (readiness sinkReady rest)).2.items := by rw [hm, List.append_assoc]
      _ = ((exposed s.output rest).transfer sinkReady).toList ++
            rowItems (successors sinkReady s.output rest) ++
            (s.move offer (readiness sinkReady rest)).2.items := by rw [ih hr]
      _ = _ := by simp [exposed]

theorem exposed_successors_of_stalled {stages : List (Stage α)} (hne : stages ≠ [])
    (offer offer' : Slot α) (hv : (exposed offer stages).valid = true) :
    exposed offer' (successors false offer stages) = exposed offer stages := by
  induction stages generalizing offer offer' with
  | nil => exact absurd rfl hne
  | cons s rest ih =>
    cases rest with
    | nil => exact s.output_move_of_stalled offer hv
    | cons t rest =>
      rw [successors_cons]
      exact ih (by simp) s.output (s.move offer t.ready).2.output hv

theorem countP_buffer_successors {stages : List (Stage α)} (h : ∀ s ∈ stages, s.Sound)
    (sinkReady : Bool) (offer : Slot α) :
    stages.countP (·.buffer.valid) +
        ((outcomes sinkReady offer stages).map (·.transition)).count .overflow =
      ((outcomes sinkReady offer stages).map (·.transition)).count .drain +
        (successors sinkReady offer stages).countP (·.buffer.valid) := by
  induction stages generalizing offer with
  | nil => rfl
  | cons s rest ih =>
    obtain ⟨hs, hr⟩ := List.forall_mem_cons.mp h
    have hm := hs.buffer_valid_move offer (readiness sinkReady rest)
    have hi := ih hr s.output
    simp only [outcomes, List.map_cons, List.count_cons, List.countP_cons, successors_cons,
      Stage.evaluate, beq_iff_eq]
    omega

theorem Sound.countP_buffer_tick {l : Line α} (h : l.Sound) (offer : Slot α) (sinkReady : Bool) :
    l.stages.countP (·.buffer.valid) +
        (l.tick offer sinkReady).1.transitions.count .overflow =
      (l.tick offer sinkReady).1.transitions.count .drain +
        (l.tick offer sinkReady).2.stages.countP (·.buffer.valid) :=
  countP_buffer_successors h sinkReady offer

@[simp] theorem sink_tick (l : Line α) (offer : Slot α) (sinkReady : Bool) :
    (l.tick offer sinkReady).2.sink = (l.tick offer sinkReady).1.delivered.getD l.sink := rfl

theorem accepted_tick (l : Line α) (offer : Slot α) (sinkReady : Bool) :
    (l.tick offer sinkReady).1.accepted = (offer.valid && l.ready) := by
  cases hs : l.stages with
  | nil => simp [tick, evaluate, outcomes, ready, readiness, hs]
  | cons s rest => simp [tick, evaluate, outcomes, ready, readiness, Stage.evaluate, hs]

theorem getLast?_outcomes (sinkReady : Bool) (offer : Slot α) {stages : List (Stage α)}
    (h : stages ≠ []) :
    (outcomes sinkReady offer stages).getLast?.bind (·.emitted) =
      (exposed offer stages).transfer sinkReady := by
  induction stages generalizing offer with
  | nil => exact absurd rfl h
  | cons s rest ih =>
    cases rest with
    | nil => rfl
    | cons t rest =>
      rw [outcomes, exposed, ← ih s.output (by simp)]
      simp [outcomes]

theorem delivered_tick {l : Line α} (h : l.stages ≠ []) (offer : Slot α) (sinkReady : Bool) :
    (l.tick offer sinkReady).1.delivered = if sinkReady then l.head else none := by
  rw [head_eq h offer]
  exact getLast?_outcomes sinkReady offer h

theorem head_tick_of_stalled {l : Line α} (hne : l.stages ≠ []) (offer : Slot α) {a : α}
    (h : l.head = some a) : (l.tick offer false).2.head = some a := by
  have hv : (exposed offer l.stages).valid = true :=
    Slot.valid_of_item? ((head_eq hne offer).symm.trans h)
  have hs : (l.tick offer false).2.stages = successors false offer l.stages := rfl
  have hne' : (l.tick offer false).2.stages ≠ [] := successors_ne_nil hne false offer
  rw [head_eq hne' offer, hs, exposed_successors_of_stalled hne offer offer hv,
    ← head_eq hne offer, h]

theorem transfer_ready (l : Line α) (offer : Slot α) (sinkReady : Bool) :
    offer.transfer l.ready =
      if (l.tick offer sinkReady).1.accepted then some offer.data else none := by
  rw [accepted_tick]
  cases hv : offer.valid <;> cases hr : l.ready <;> simp [Slot.transfer, Slot.item?, hv]

/-- A tick conserves the items of a line. -/
theorem Sound.items_tick {l : Line α} (h : l.Sound) (hne : l.stages ≠ []) (offer : Slot α)
    (sinkReady : Bool) :
    l.items ++ (offer.transfer l.ready).toList =
      (l.tick offer sinkReady).1.delivered.toList ++ (l.tick offer sinkReady).2.items := by
  have hc := rowItems_successors h sinkReady offer
  rw [readiness_of_ne_nil hne sinkReady false] at hc
  rw [delivered_tick hne, head_eq hne offer]
  exact hc

theorem Sound.tick {l : Line α} (h : l.Sound) (offer : Slot α) (sinkReady : Bool) :
    (l.tick offer sinkReady).2.Sound :=
  sound_successors h sinkReady offer

end Line

end ElasticCore
