import ElasticCore.Proofs.Handshake.Propagation

/-! # Steady ends

A source that offers an item in every tick and a sink that is ready in every tick are steady. A
steady source fills the outputs of the stages, the first of them first, and a steady sink makes
the stages ready, the last of them first: one more stage in each tick, whatever the other end
does. After as many ticks as there are stages, the one never leaves the sink waiting, and the
other makes the line a mere delay.
-/

namespace ElasticCore

variable {α : Type}

namespace Stage

variable [Inhabited α] {s : Stage α}

theorem ready_move (s : Stage α) (offer : Slot α) : (s.move offer true).2.ready = true := by
  cases hr : s.ready <;> cases ho : offer.valid <;> cases hv : s.output.valid <;>
    simp [move, hr, ho, hv]

theorem output_move_of_ready (hr : s.ready = true) (offer : Slot α) :
    (s.move offer true).2.output.item? = offer.item? := by
  cases ho : offer.valid <;> cases hv : s.output.valid <;>
    simp [move, Slot.item?, hr, ho, hv]

theorem unbuffered_move_of_ready (hr : s.ready = true) (offer : Slot α) :
    (s.move offer true).1 ≠ .overflow ∧ (s.move offer true).1 ≠ .drain := by
  cases ho : offer.valid <;> cases hv : s.output.valid <;> simp [move, hr, ho, hv]

end Stage

namespace Line

variable {l : Line α} {stages : List (Stage α)}

theorem isSome_head (hne : l.stages ≠ []) (hv : ∀ s ∈ l.stages, s.output.valid = true) :
    l.head.isSome = true := by
  rw [head, List.getLast?_eq_some_getLast hne, Option.bind_some, Slot.item?,
    hv _ (List.getLast_mem hne)]
  rfl

theorem readiness_of_forall (h : ∀ s ∈ stages, s.ready = true) : readiness true stages = true := by
  cases stages with
  | nil => rfl
  | cons s rest => exact h s List.mem_cons_self

theorem ready_of_forall (hne : l.stages ≠ []) (h : ∀ s ∈ l.stages, s.ready = true) :
    l.ready = true := by
  rw [ready, readiness_of_ne_nil hne false true]
  exact readiness_of_forall h

/-- What the outputs of a row of stages hold, the one next to the sink in front. -/
def inFlight (stages : List (Stage α)) : List (Option α) :=
  (stages.map (·.output.item?)).reverse

@[simp] theorem length_inFlight (stages : List (Stage α)) :
    (inFlight stages).length = stages.length := by
  simp [inFlight]

@[simp] theorem inFlight_cons (s : Stage α) (rest : List (Stage α)) :
    inFlight (s :: rest) = inFlight rest ++ [s.output.item?] := by
  simp [inFlight]

variable [Inhabited α] {depth : Nat} {is : List (Input α)}

section Source

theorem valid_take_successors (h : ∀ s ∈ stages, s.Sound) {offer : Slot α}
    (ho : offer.valid = true) (sinkReady : Bool) {n : Nat}
    (hv : ∀ s ∈ stages.take n, s.output.valid = true) :
    ∀ s ∈ (successors sinkReady offer stages).take (n + 1), s.output.valid = true := by
  induction stages generalizing offer n with
  | nil => simp
  | cons s rest ih =>
    obtain ⟨hs, hr⟩ := List.forall_mem_cons.mp h
    rw [successors_cons, List.take_succ_cons]
    refine List.forall_mem_cons.mpr ⟨?_, ?_⟩
    · rw [hs.output_valid_move, ho]
      rfl
    · cases n with
      | zero => simp
      | succ n =>
        obtain ⟨hsv, hrv⟩ := List.forall_mem_cons.mp hv
        exact ih hr hsv hrv

theorem Sound.valid_take_run (h : l.Sound) (ho : ∀ i ∈ is, i.offer.valid = true) {n : Nat}
    (hv : ∀ s ∈ l.stages.take n, s.output.valid = true) :
    ∀ s ∈ (l.run is).2.stages.take (n + is.length), s.output.valid = true := by
  induction is generalizing l n with
  | nil => exact hv
  | cons i is ih =>
    obtain ⟨hi, ho⟩ := List.forall_mem_cons.mp ho
    have ht := valid_take_successors h hi i.sinkReady hv
    rw [run_cons, List.length_cons, ← Nat.succ_add_eq_add_succ]
    exact ih (h.tick i.offer i.sinkReady) ho ht

theorem Reachable.valid_run (h : Reachable depth l) (ho : ∀ i ∈ is, i.offer.valid = true)
    {n : Nat} (hd : depth ≤ n) (hn : n ≤ is.length) :
    ∀ s ∈ (l.run (is.take n)).2.stages, s.output.valid = true := by
  have ho' : ∀ i ∈ is.take n, i.offer.valid = true := fun i hi => ho i (List.mem_of_mem_take hi)
  have hv := h.sound.valid_take_run ho' (n := 0) (by simp)
  have hl : (l.run (is.take n)).2.stages.length = depth := (h.run (is.take n)).depth_eq.2
  rwa [List.length_take_of_le hn, List.take_of_length_le (by omega)] at hv

/-- A source that offers in every tick keeps up with any sink. After as many ticks as there are
stages all outputs are full and stay so, and from then on an item is delivered in exactly the
ticks in which the sink is ready. -/
theorem delivers_whenever_sink_ready (h : Reachable depth l)
    (ho : ∀ i ∈ is, i.offer.valid = true) :
    (∀ n, depth ≤ n → n ≤ is.length →
      ∀ s ∈ (l.run (is.take n)).2.stages, s.output.valid = true) ∧
    ∀ n, depth ≤ n →
      (l.run is).1[n]?.map (·.delivered.isSome) = is[n]?.map (·.sinkReady) := by
  constructor
  · intro n hd hn
    exact h.valid_run ho hd hn
  · intro n hd
    rw [getElem?_run]
    cases hi : is[n]? with
    | none => rfl
    | some i =>
      obtain ⟨hn, -⟩ := List.getElem?_eq_some_iff.mp hi
      have hne := (h.run (is.take n)).stages_ne_nil
      have hh := isSome_head hne (h.valid_run ho hd (Nat.le_of_lt hn))
      simp only [Option.map_some, delivered_tick hne]
      cases i.sinkReady
      · rfl
      · exact congrArg some hh

/-- Two empty stages in front of a full one, and a sink that stalls twice: after three offers no
output is empty. -/
theorem delivers_whenever_sink_ready_stalled :
    let l : Line Nat := ⟨List.replicate 3 .reset, default⟩
    let fill : List (Input Nat) :=
      [⟨.holding 1, false⟩, ⟨.empty, false⟩, ⟨.empty, false⟩, ⟨.holding 2, false⟩,
        ⟨.empty, false⟩, ⟨.empty, false⟩]
    let is : List (Input Nat) :=
      [⟨.holding 3, true⟩, ⟨.holding 4, false⟩, ⟨.holding 5, true⟩, ⟨.holding 6, true⟩,
        ⟨.holding 7, false⟩, ⟨.holding 8, true⟩]
    let l' := (l.run fill).2
    Reachable 3 l' ∧ l'.stages.map Stage.occupancy = [0, 0, 2] ∧
      (∀ i ∈ is, i.offer.valid = true) ∧
      (∀ s ∈ (l'.run (is.take 3)).2.stages, s.output.valid = true) ∧
      (l'.run is).1[3]?.map (·.delivered.isSome) = some true ∧
      (l'.run is).1[4]?.map (·.delivered.isSome) = some false ∧
      (l'.run is).1[5]?.map (·.delivered.isSome) = some true := by
  intro l fill is l'
  have hl : Reachable 3 l' := (Reachable.build rfl).run fill
  have ho : ∀ i ∈ is, i.offer.valid = true := by decide
  obtain ⟨hv, hd⟩ := delivers_whenever_sink_ready hl ho
  refine ⟨hl, by decide +kernel, ho, hv 3 (by decide) (by decide), ?_, ?_, ?_⟩
  · exact hd 3 (by decide)
  · exact hd 4 (by decide)
  · exact hd 5 (by decide)

end Source

section Sink

theorem ready_drop_successors (offer : Slot α) {k : Nat}
    (h : ∀ s ∈ stages.drop (k + 1), s.ready = true) :
    ∀ s ∈ (successors true offer stages).drop k, s.ready = true := by
  induction stages generalizing offer k with
  | nil => simp
  | cons s rest ih =>
    cases k with
    | zero =>
      have hr : ∀ t ∈ rest, t.ready = true := h
      rw [List.drop_zero, successors_cons, readiness_of_forall hr]
      refine List.forall_mem_cons.mpr ⟨s.ready_move offer, ?_⟩
      exact ih s.output (k := 0) fun t ht => hr t (List.mem_of_mem_drop ht)
    | succ k => exact ih s.output h

theorem ready_drop_run (hk : ∀ i ∈ is, i.sinkReady = true) {k : Nat}
    (h : ∀ s ∈ l.stages.drop (k + is.length), s.ready = true) :
    ∀ s ∈ (l.run is).2.stages.drop k, s.ready = true := by
  induction is generalizing l with
  | nil => exact h
  | cons i is ih =>
    obtain ⟨hi, hk⟩ := List.forall_mem_cons.mp hk
    apply ih hk
    rw [hi]
    exact ready_drop_successors i.offer h

theorem ready_run (hk : ∀ i ∈ is, i.sinkReady = true) (h : ∀ s ∈ l.stages, s.ready = true) :
    ∀ s ∈ (l.run is).2.stages, s.ready = true :=
  ready_drop_run (k := 0) hk fun s hs => h s (List.mem_of_mem_drop hs)

theorem inFlight_successors (h : ∀ s ∈ stages, s.ready = true) (offer : Slot α) :
    inFlight stages ++ [offer.item?] =
      (exposed offer stages).item? :: inFlight (successors true offer stages) := by
  induction stages generalizing offer with
  | nil => rfl
  | cons s rest ih =>
    obtain ⟨hs, hr⟩ := List.forall_mem_cons.mp h
    calc inFlight (s :: rest) ++ [offer.item?]
        = (inFlight rest ++ [s.output.item?]) ++ [offer.item?] := by rw [inFlight_cons]
      _ = (exposed s.output rest).item? :: (inFlight (successors true s.output rest) ++
            [offer.item?]) := by rw [ih hr s.output, List.cons_append]
      _ = _ := by
        rw [successors_cons, inFlight_cons, readiness_of_forall hr, s.output_move_of_ready hs]
        rfl

theorem unbuffered_outcomes (h : ∀ s ∈ stages, s.ready = true) (offer : Slot α) :
    ∀ t ∈ (outcomes true offer stages).map (·.transition), t ≠ .overflow ∧ t ≠ .drain := by
  induction stages generalizing offer with
  | nil => simp [outcomes]
  | cons s rest ih =>
    obtain ⟨hs, hr⟩ := List.forall_mem_cons.mp h
    rw [outcomes, readiness_of_forall hr]
    refine List.forall_mem_cons.mpr ⟨?_, ih hr s.output⟩
    exact s.unbuffered_move_of_ready hs offer

theorem inFlight_tick (hne : l.stages ≠ []) (h : ∀ s ∈ l.stages, s.ready = true)
    (offer : Slot α) :
    inFlight l.stages ++ [offer.item?] =
      (l.tick offer true).1.delivered :: inFlight (l.tick offer true).2.stages := by
  rw [delivered_tick hne, if_pos rfl, head_eq hne offer]
  exact inFlight_successors h offer

/-- The line as a delay: what was in flight is delivered first, then what was offered. -/
theorem inFlight_run (hne : l.stages ≠ []) (h : ∀ s ∈ l.stages, s.ready = true)
    (hk : ∀ i ∈ is, i.sinkReady = true) :
    inFlight l.stages ++ is.map (·.offer.item?) =
      (l.run is).1.map (·.delivered) ++ inFlight (l.run is).2.stages := by
  induction is generalizing l with
  | nil => simp
  | cons i is ih =>
    obtain ⟨hi, hk⟩ := List.forall_mem_cons.mp hk
    have hr : ∀ s ∈ (l.tick i.offer true).2.stages, s.ready = true :=
      ready_drop_successors (k := 0) i.offer fun s hs => h s (List.mem_of_mem_drop hs)
    rw [List.map_cons, List.append_cons, inFlight_tick hne h i.offer, run_cons, hi, List.map_cons,
      List.cons_append, List.cons_append, ih (successors_ne_nil hne true i.offer) hr hk]

theorem getElem?_delivered_run (hne : l.stages ≠ []) (h : ∀ s ∈ l.stages, s.ready = true)
    (hk : ∀ i ∈ is, i.sinkReady = true) {n : Nat} (hn : n < is.length) :
    (l.run is).1[n]?.map (·.delivered) =
      (inFlight l.stages ++ is.map (·.offer.item?))[n]? := by
  have hl : n < ((l.run is).1.map (·.delivered)).length := by
    rwa [List.length_map, run, length_clock]
  rw [inFlight_run hne h hk, List.getElem?_append_left hl, List.getElem?_map]

/-- A sink that is ready in every tick makes every stage ready, in as many ticks as there are
stages. A line whose stages are ready is a delay for as long as the sink is: it accepts every
offer and uses no buffer, it delivers what was in flight, and an item that is offered is
delivered as many ticks later as there are stages. -/
theorem recovers_to_delay (hd : 0 < l.depth) :
    (∀ is : List (Input α), is.length = l.depth → (∀ i ∈ is, i.sinkReady = true) →
      ∀ s ∈ (l.run is).2.stages, s.ready = true) ∧
    ((∀ s ∈ l.stages, s.ready = true) →
      ∀ is : List (Input α), (∀ i ∈ is, i.sinkReady = true) →
        (∀ n : Nat, (l.run is).1[n]?.map (·.accepted) = is[n]?.map (·.offer.valid)) ∧
        (∀ o ∈ (l.run is).1, .overflow ∉ o.transitions ∧ .drain ∉ o.transitions) ∧
        (∀ n, ∀ s ∈ (l.run (is.take n)).2.stages, s.ready = true) ∧
        (∀ n < l.depth, n < is.length →
          (l.run is).1[n]?.map (·.delivered) = (inFlight l.stages)[n]?) ∧
        ∀ n, n + l.depth < is.length →
          (l.run is).1[n + l.depth]?.map (·.delivered) = is[n]?.map (·.offer.item?)) := by
  have hne := stages_ne_nil hd
  constructor
  · intro is hl hk
    apply ready_drop_run (k := 0) hk
    intro s hs
    rw [Nat.zero_add, hl, Line.depth, List.drop_length] at hs
    cases hs
  · intro h is hk
    have hr : ∀ n, ∀ s ∈ (l.run (is.take n)).2.stages, s.ready = true := fun n =>
      ready_run (fun i hi => hk i (List.mem_of_mem_take hi)) h
    have hne' : ∀ n, (l.run (is.take n)).2.stages ≠ [] := by
      intro n
      apply stages_ne_nil
      rwa [depth_run]
    refine ⟨?_, ?_, hr, ?_, ?_⟩
    · intro n
      rw [accepted_run, List.getElem?_map, Option.map_map, ready_of_forall (hne' n) (hr n)]
      simp only [Function.comp_def, Bool.and_true]
    · intro o ho
      obtain ⟨n, hn⟩ := List.mem_iff_getElem?.mp ho
      rw [getElem?_run] at hn
      obtain ⟨i, hi, rfl⟩ := Option.map_eq_some_iff.mp hn
      have hu := unbuffered_outcomes (hr n) i.offer
      rw [hk i (List.mem_of_getElem? hi)]
      exact ⟨fun hm => (hu _ hm).1 rfl, fun hm => (hu _ hm).2 rfl⟩
    · intro n hn hl
      rw [getElem?_delivered_run hne h hk hl, List.getElem?_append_left]
      rwa [length_inFlight]
    · intro n hn
      have hl : l.depth = (inFlight l.stages).length := (length_inFlight l.stages).symm
      rw [getElem?_delivered_run hne h hk hn, hl, List.getElem?_append_right (by omega),
        Nat.add_sub_cancel, List.getElem?_map]

/-- Two full stages recover in two ticks. Then the bubbles between three offers are delivered as
they were offered, two ticks later. -/
theorem recovers_to_delay_full :
    let l : Line Nat := ⟨List.replicate 2 .reset, default⟩
    let fill : List (Input Nat) :=
      [⟨.holding 1, false⟩, ⟨.holding 2, false⟩, ⟨.holding 3, false⟩, ⟨.holding 4, false⟩]
    let takes : List (Input Nat) := [⟨.holding 5, true⟩, ⟨.holding 5, true⟩]
    let is : List (Input Nat) :=
      [⟨.holding 6, true⟩, ⟨.empty, true⟩, ⟨.holding 7, true⟩, ⟨.empty, true⟩]
    let full := (l.run fill).2
    let clear := (full.run takes).2
    Reachable 2 full ∧ 0 < full.depth ∧ takes.length = full.depth ∧
      (∀ i ∈ takes ++ is, i.sinkReady = true) ∧ (∀ s ∈ full.stages, s.ready = false) ∧
      (∀ s ∈ clear.stages, s.ready = true) ∧
      (clear.run is).1[0]?.map (·.accepted) = some true ∧
      (clear.run is).1[1]?.map (·.delivered) = some (some 4) ∧
      (clear.run is).1[2]?.map (·.delivered) = some (some 6) ∧
      (clear.run is).1[3]?.map (·.delivered) = some none := by
  intro l fill takes is full clear
  have hf : Reachable 2 full := (Reachable.build rfl).run fill
  have hc : clear.depth = 2 := by decide +kernel
  have ht : ∀ i ∈ takes, i.sinkReady = true := by decide
  have hi : ∀ i ∈ is, i.sinkReady = true := by decide
  have hr : ∀ s ∈ clear.stages, s.ready = true :=
    (recovers_to_delay (l := full) (by decide +kernel)).1 takes (by decide +kernel) ht
  obtain ⟨ha, -, -, hw, hd⟩ := (recovers_to_delay (by rw [hc]; decide)).2 hr is hi
  rw [hc] at hw hd
  refine ⟨hf, by decide +kernel, by decide +kernel, by decide, by decide +kernel, hr, ha 0,
    ?_, ?_, ?_⟩
  · exact (hw 1 (by decide) (by decide)).trans (by decide +kernel)
  · exact hd 0 (by decide)
  · exact hd 1 (by decide)

end Sink

end Line

end ElasticCore
