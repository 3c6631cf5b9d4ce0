import ElasticCore.Proofs.Handshake.Conservation
import ElasticCore.Proofs.Handshake.Drain

/-! # Lines ahead of each other

Two lines are compared by the numbers of items that have entered their stages. A stage takes
an item if more have entered the stage before it, and if it holds one at most. When the numbers
of one line are not below those of another, a tick keeps them so: where two numbers are equal,
the line ahead has an item to take if the other one has, and room for it.
-/

namespace ElasticCore.Line

variable {α β : Type}

/-- The number of items that have entered a row of stages, when `gone` have left it. -/
def entered (gone : Nat) (stages : List (Stage α)) : Nat := gone + (rowItems stages).length

/-- As many items or more have entered each stage of the second row, and have left it. -/
inductive Ahead (gone gone' : Nat) : List (Stage α) → List (Stage β) → Prop
  | sink : gone ≤ gone' → Ahead gone gone' [] []
  | stage {s : Stage α} {t : Stage β} {rest : List (Stage α)} {rest' : List (Stage β)} :
      Ahead gone gone' rest rest' → entered gone (s :: rest) ≤ entered gone' (t :: rest') →
      Ahead gone gone' (s :: rest) (t :: rest')

variable {gone gone' : Nat} {offer : Slot α} {offer' : Slot β} {s : Stage α} {t : Stage β}
  {stages rest : List (Stage α)} {stages' rest' : List (Stage β)} {sinkReady sinkReady' : Bool}

theorem entered_cons (gone : Nat) (s : Stage α) (rest : List (Stage α)) :
    entered gone (s :: rest) = entered gone rest + s.occupancy := by
  rw [entered, rowItems_cons, List.length_append, Stage.length_items, entered, Nat.add_assoc]

theorem Ahead.entered_le (h : Ahead gone gone' stages stages') :
    entered gone stages ≤ entered gone' stages' := by
  cases h with
  | sink h => exact h
  | stage _ h => exact h

theorem Ahead.gone_le (h : Ahead gone gone' stages stages') : gone ≤ gone' := by
  induction h with
  | sink h => exact h
  | stage _ _ ih => exact ih

theorem Ahead.valid_of_valid (h : Ahead gone gone' (s :: rest) (t :: rest')) (hs : s.Sound)
    (ht : t.Sound) (he : entered gone rest = entered gone' rest')
    (hv : s.output.valid = true) : t.output.valid = true := by
  have hle := h.entered_le
  rw [entered_cons, entered_cons] at hle
  rw [hs.valid_iff] at hv
  rw [ht.valid_iff]
  omega

theorem Ahead.ready_of_ready (h : Ahead gone gone' rest rest') (hs : s.Sound) (ht : t.Sound)
    (he : entered gone (s :: rest) = entered gone' (t :: rest')) (hr : s.ready = true) :
    t.ready = true := by
  have hle := h.entered_le
  rw [entered_cons, entered_cons] at he
  rw [hs.ready_iff] at hr
  rw [ht.ready_iff]
  omega

theorem add_toNat_le_add_toNat {m n : Nat} {p q : Bool} (h : m ≤ n)
    (hpq : m = n → p = true → q = true) : m + p.toNat ≤ n + q.toNat := by
  have hp := Bool.toNat_le p
  rcases Nat.eq_or_lt_of_le h with rfl | hlt
  · exact Nat.add_le_add_left (Bool.toNat_le_toNat (Bool.le_iff_imp.mpr (hpq rfl))) m
  · omega

theorem ahead_replicate_reset [Inhabited α] [Inhabited β] (depth : Nat) :
    Ahead 0 0 (List.replicate depth (.reset : Stage α))
      (List.replicate depth (.reset : Stage β)) := by
  induction depth with
  | zero => exact .sink (Nat.le_refl 0)
  | succ depth ih => exact .stage ih (by simp [entered, rowItems])

theorem Ahead.exposed_of_exposed (h : Ahead gone gone' stages stages')
    (hs : ∀ s ∈ stages, s.Sound) (ht : ∀ t ∈ stages', t.Sound) (hg : gone = gone')
    (ho : entered gone stages = entered gone' stages' → offer.valid = true → offer'.valid = true)
    (he : (exposed offer stages).valid = true) : (exposed offer' stages').valid = true := by
  induction h generalizing offer offer' with
  | sink _ => exact ho hg he
  | @stage s t rest rest' hrest hle ih =>
    obtain ⟨hs, hr⟩ := List.forall_mem_cons.mp hs
    obtain ⟨ht, hr'⟩ := List.forall_mem_cons.mp ht
    exact ih hr hr' (fun h => (Ahead.stage hrest hle).valid_of_valid hs ht h) he

variable [Inhabited α] [Inhabited β]

theorem entered_successors (h : ∀ s ∈ stages, s.Sound) (gone : Nat) (sinkReady : Bool)
    (offer : Slot α) :
    entered (gone + departures sinkReady offer stages) (successors sinkReady offer stages) =
      entered gone stages + (offer.valid && readiness sinkReady stages).toNat := by
  have hc := length_rowItems_successors h sinkReady offer
  unfold entered
  omega

/-- A tick keeps a row ahead, if neither its source nor its sink is what holds it up. -/
theorem Ahead.successors (h : Ahead gone gone' stages stages') (hs : ∀ s ∈ stages, s.Sound)
    (ht : ∀ t ∈ stages', t.Sound)
    (ho : entered gone stages = entered gone' stages' → offer.valid = true → offer'.valid = true)
    (hk : gone = gone' → (exposed offer stages).valid = true → sinkReady = true →
      sinkReady' = true) :
    Ahead (gone + departures sinkReady offer stages) (gone' + departures sinkReady' offer' stages')
      (successors sinkReady offer stages) (successors sinkReady' offer' stages') := by
  induction h generalizing offer offer' with
  | sink hg =>
    apply Ahead.sink
    unfold departures
    rw [Slot.length_transfer, Slot.length_transfer]
    apply add_toNat_le_add_toNat hg
    intro he hp
    rw [Bool.and_eq_true] at hp ⊢
    exact ⟨ho he hp.1, hk he hp.1 hp.2⟩
  | @stage s t rest rest' hrest hle ih =>
    obtain ⟨hs₁, hr⟩ := List.forall_mem_cons.mp hs
    obtain ⟨ht₁, hr'⟩ := List.forall_mem_cons.mp ht
    have hv := fun he => (Ahead.stage hrest hle).valid_of_valid hs₁ ht₁ he
    have hcount : entered (gone + departures sinkReady offer (s :: rest))
          (Line.successors sinkReady offer (s :: rest)) ≤
        entered (gone' + departures sinkReady' offer' (t :: rest'))
          (Line.successors sinkReady' offer' (t :: rest')) := by
      rw [entered_successors hs, entered_successors ht]
      apply add_toNat_le_add_toNat hle
      intro he hp
      rw [Bool.and_eq_true] at hp ⊢
      exact ⟨ho he hp.1, hrest.ready_of_ready hs₁ ht₁ he hp.2⟩
    exact .stage (ih hr hr' hv hk) hcount

/-- What the source and the sink do in one tick, they do in the other, too. -/
structure Input.AtMost (i : Input α) (j : Input β) : Prop where
  offers : i.offer.valid = true → j.offer.valid = true
  takes : i.sinkReady = true → j.sinkReady = true

instance (i : Input α) (j : Input β) : Decidable (i.AtMost j) :=
  decidable_of_iff ((i.offer.valid = true → j.offer.valid = true) ∧
    (i.sinkReady = true → j.sinkReady = true)) ⟨fun ⟨ho, ht⟩ => ⟨ho, ht⟩, fun ⟨ho, ht⟩ => ⟨ho, ht⟩⟩

variable {depth : Nat} {l : Line α} {l' : Line β}

theorem Ahead.tick (h : Ahead gone gone' l.stages l'.stages) (hl : Reachable depth l)
    (hl' : Reachable depth l') {i : Input α} {j : Input β} (hij : i.AtMost j) :
    Ahead (gone + (l.tick i.offer i.sinkReady).1.delivered.toList.length)
      (gone' + (l'.tick j.offer j.sinkReady).1.delivered.toList.length)
      (l.tick i.offer i.sinkReady).2.stages (l'.tick j.offer j.sinkReady).2.stages := by
  rw [← hl.departures_eq, ← hl'.departures_eq]
  exact h.successors hl.sound hl'.sound (fun _ => hij.offers) (fun _ _ => hij.takes)

theorem Ahead.run (h : Ahead gone gone' l.stages l'.stages) (hl : Reachable depth l)
    (hl' : Reachable depth l') {is : List (Input α)} {js : List (Input β)}
    (hij : List.Forall₂ Input.AtMost is js) :
    Ahead (gone + (deliveredItems (l.run is).1).length)
      (gone' + (deliveredItems (l'.run js).1).length) (l.run is).2.stages (l'.run js).2.stages := by
  induction hij generalizing l l' gone gone' with
  | nil => exact h
  | cons hi _ ih =>
    rw [run_cons, run_cons, deliveredItems_cons, deliveredItems_cons, List.length_append,
      List.length_append, ← Nat.add_assoc, ← Nat.add_assoc]
    exact ih (h.tick hl hl' hi) (hl.tick _ _) (hl'.tick _ _)

theorem AtReset.length_acceptedItems (h : AtReset depth l) (is : List (Input α)) :
    (acceptedItems is (l.run is).1).length =
      entered (deliveredItems (l.run is).1).length (l.run is).2.stages := by
  have hc := congrArg List.length (h.reachable.items_run is)
  rwa [h.items_eq, List.nil_append, List.length_append] at hc

/-- A source that offers more often and a sink that is ready more often never make a line slower:
after every tick, no fewer items were accepted, and no fewer were delivered. -/
theorem accepted_delivered_monotone (h : AtReset depth l) (h' : AtReset depth l')
    {is : List (Input α)} {js : List (Input β)} (hij : List.Forall₂ Input.AtMost is js) (n : Nat) :
    let os := (l.run (is.take n)).1
    let os' := (l'.run (js.take n)).1
    (acceptedItems (is.take n) os).length ≤ (acceptedItems (js.take n) os').length ∧
      (deliveredItems os).length ≤ (deliveredItems os').length := by
  intro os os'
  have hr : Ahead 0 0 l.stages l'.stages := by
    rw [h.eq, h'.eq]
    exact ahead_replicate_reset depth
  have ha := hr.run h.reachable h'.reachable (List.forall₂_take n hij)
  rw [Nat.zero_add, Nat.zero_add] at ha
  constructor
  · rw [h.length_acceptedItems, h'.length_acceptedItems]
    exact ha.entered_le
  · exact ha.gone_le

/-- Two stages under sinks that stall for long. The source that offers more often has filled its
line when the other one begins, and is refused in the tick in which the other is not. -/
theorem accepted_delivered_monotone_stalled :
    let l : Line Nat := ⟨List.replicate 2 .reset, default⟩
    let is : List (Input Nat) :=
      [⟨.empty, false⟩, ⟨.empty, false⟩, ⟨.holding 1, false⟩, ⟨.empty, false⟩,
        ⟨.holding 2, false⟩, ⟨.holding 3, true⟩, ⟨.holding 4, false⟩]
    let js : List (Input Nat) :=
      [⟨.holding 1, false⟩, ⟨.holding 2, false⟩, ⟨.holding 3, false⟩, ⟨.holding 4, false⟩,
        ⟨.holding 5, false⟩, ⟨.holding 5, true⟩, ⟨.holding 5, true⟩]
    let os := (l.run is).1
    let os' := (l.run js).1
    AtReset 2 l ∧ List.Forall₂ Input.AtMost is js ∧
      os[4]?.map (·.accepted) = some true ∧ os'[4]?.map (·.accepted) = some false ∧
      (acceptedItems is os).length ≤ (acceptedItems js os').length ∧
      (deliveredItems os).length ≤ (deliveredItems os').length := by
  intro l is js os os'
  have hl : AtReset 2 l := Or.inl rfl
  have hij : List.Forall₂ Input.AtMost is js := by decide
  obtain ⟨ha, hd⟩ := accepted_delivered_monotone hl hl hij 7
  exact ⟨hl, hij, by decide +kernel, by decide +kernel, ha, hd⟩

end ElasticCore.Line
