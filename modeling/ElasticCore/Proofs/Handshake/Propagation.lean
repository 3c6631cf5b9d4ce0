import ElasticCore.Proofs.Handshake.Run

/-! # Propagation along a line

What a stage holds after a tick is decided by what it and its two neighbours held before. Whatever
the sink does thus becomes visible to the source after as many ticks as there are stages and not
earlier, and whatever the source offers takes as long to become visible to the sink.
-/

namespace ElasticCore.Line

variable {α : Type} {l l' : Line α}

theorem readiness_take_succ (sinkReady : Bool) (stages : List (Stage α)) (k : Nat) :
    readiness sinkReady (stages.take (k + 1)) = readiness sinkReady stages := by
  cases stages <;> rfl

theorem ready_eq_of_take {k : Nat} (h : l.stages.take (k + 1) = l'.stages.take (k + 1)) :
    l.ready = l'.ready := by
  unfold ready
  rw [← readiness_take_succ false l.stages k, h, readiness_take_succ]

theorem head_eq_of_drop {k : Nat} (hk : k < l.depth) (h : l.stages.drop k = l'.stages.drop k) :
    l.head = l'.head := by
  have hk' : k < l'.depth := by
    have hl := congrArg List.length h
    simp only [List.length_drop] at hl
    unfold Line.depth at hk ⊢
    omega
  unfold Line.depth at hk hk'
  have hl := congrArg List.getLast? h
  rw [List.getLast?_drop, List.getLast?_drop, if_neg (by omega), if_neg (by omega)] at hl
  rw [head, head, hl]

variable [Inhabited α]

/-- The first stages after a tick depend on these and one more. -/
theorem take_successors (sinkReady sinkReady' : Bool) (offer : Slot α) {k : Nat}
    {stages : List (Stage α)} (hk : k < stages.length) :
    (successors sinkReady offer stages).take k =
      (successors sinkReady' offer (stages.take (k + 1))).take k := by
  induction stages generalizing k offer with
  | nil => exact absurd hk (Nat.not_lt_zero k)
  | cons s rest ih =>
    cases k with
    | zero => rfl
    | succ k =>
      have hk' : k < rest.length := Nat.lt_of_succ_lt_succ hk
      have hr : rest ≠ [] := List.ne_nil_of_length_pos (Nat.zero_lt_of_lt hk')
      rw [List.take_succ_cons, successors_cons, successors_cons, List.take_succ_cons,
        List.take_succ_cons, readiness_take_succ, readiness_of_ne_nil hr sinkReady sinkReady',
        ih s.output hk']

theorem drop_successors (sinkReady : Bool) (offer offer' : Slot α) (k : Nat)
    (stages : List (Stage α)) :
    (successors sinkReady offer stages).drop (k + 1) =
      (successors sinkReady offer' (stages.drop k)).drop 1 := by
  induction stages generalizing k offer with
  | nil => simp
  | cons s rest ih =>
    cases k with
    | zero => rfl
    | succ k => exact ih s.output k

theorem take_stages_tick {k : Nat} (hk : k < l.depth) (hk' : k < l'.depth)
    (h : l.stages.take (k + 1) = l'.stages.take (k + 1)) (offer : Slot α)
    (sinkReady sinkReady' : Bool) :
    (l.tick offer sinkReady).2.stages.take k = (l'.tick offer sinkReady').2.stages.take k :=
  calc (successors sinkReady offer l.stages).take k
      = (successors false offer (l.stages.take (k + 1))).take k := take_successors _ _ _ hk
    _ = (successors false offer (l'.stages.take (k + 1))).take k := by rw [h]
    _ = (successors sinkReady' offer l'.stages).take k := (take_successors _ _ _ hk').symm

theorem drop_stages_tick {k : Nat} (h : l.stages.drop k = l'.stages.drop k)
    (offer offer' : Slot α) (sinkReady : Bool) :
    (l.tick offer sinkReady).2.stages.drop (k + 1) =
      (l'.tick offer' sinkReady).2.stages.drop (k + 1) :=
  calc (successors sinkReady offer l.stages).drop (k + 1)
      = (successors sinkReady .empty (l.stages.drop k)).drop 1 := drop_successors _ _ _ _ _
    _ = (successors sinkReady .empty (l'.stages.drop k)).drop 1 := by rw [h]
    _ = (successors sinkReady offer' l'.stages).drop (k + 1) := (drop_successors _ _ _ _ _).symm

-- The stages that agree are fewer by one after each tick, those next to the sink first.
theorem take_stages_run {is js : List (Input α)} (hd : l.depth = l'.depth)
    (ho : is.map (·.offer) = js.map (·.offer)) {k : Nat} (hk : k + is.length ≤ l.depth)
    (h : l.stages.take (k + is.length) = l'.stages.take (k + is.length)) :
    (l.run is).2.stages.take k = (l'.run js).2.stages.take k := by
  induction is generalizing l l' js with
  | nil =>
    obtain rfl := List.map_eq_nil_iff.mp ho.symm
    exact h
  | cons i is ih =>
    obtain ⟨j, js, rfl, hj, hjs⟩ := List.map_eq_cons_iff.mp ho.symm
    rw [run_cons, run_cons, hj]
    apply ih
    · rw [depth_tick, depth_tick, hd]
    · exact hjs.symm
    · rw [depth_tick]
      exact Nat.le_of_succ_le hk
    · exact take_stages_tick hk (hd ▸ hk) h i.offer i.sinkReady j.sinkReady

-- Here those next to the source are the first to differ.
theorem drop_stages_run {is js : List (Input α)}
    (hr : is.map (·.sinkReady) = js.map (·.sinkReady)) {k : Nat}
    (h : l.stages.drop k = l'.stages.drop k) :
    (l.run is).2.stages.drop (k + is.length) = (l'.run js).2.stages.drop (k + is.length) := by
  induction is generalizing l l' js k with
  | nil =>
    obtain rfl := List.map_eq_nil_iff.mp hr.symm
    exact h
  | cons i is ih =>
    obtain ⟨j, js, rfl, hj, hjs⟩ := List.map_eq_cons_iff.mp hr.symm
    rw [run_cons, run_cons, hj, List.length_cons, ← Nat.succ_add_eq_add_succ]
    exact ih hjs.symm (drop_stages_tick h i.offer j.offer i.sinkReady)

theorem ready_run_congr {is js : List (Input α)} (ho : is.map (·.offer) = js.map (·.offer))
    (hn : is.length < l.depth) : (l.run is).2.ready = (l.run js).2.ready := by
  obtain ⟨k, hk⟩ := Nat.exists_eq_add_of_lt hn
  apply ready_eq_of_take (k := k)
  exact take_stages_run rfl ho (by omega) rfl

theorem head_run_congr {is js : List (Input α)}
    (hr : is.map (·.sinkReady) = js.map (·.sinkReady)) (hn : is.length < l.depth) :
    (l.run is).2.head = (l.run js).2.head := by
  apply head_eq_of_drop (k := 0 + is.length)
  · rwa [depth_run, Nat.zero_add]
  · exact drop_stages_run hr rfl

/-- A view of the line that does not tell inputs with the same `key` apart in fewer ticks than
there are stages takes as long from the tick in which they part. -/
theorem run_take_congr {β γ : Type} {key : Input α → β} {view : Line α → γ}
    (hv : ∀ (l : Line α) (is js : List (Input α)), is.map key = js.map key →
      is.length < l.depth → view (l.run is).2 = view (l.run js).2)
    {is js : List (Input α)} (hk : is.map key = js.map key) {t n : Nat}
    (ht : is.take t = js.take t) (hn : n < t + l.depth) :
    view (l.run (is.take n)).2 = view (l.run (js.take n)).2 := by
  rcases Nat.le_total n t with hle | hle
  · have hp := congrArg (List.take n) ht
    rw [List.take_take, List.take_take, Nat.min_eq_left hle] at hp
    rw [hp]
  · obtain ⟨m, rfl⟩ := Nat.exists_eq_add_of_le hle
    rw [List.take_add, List.take_add, run_append, run_append, ht]
    apply hv
    · rw [List.map_take, List.map_take, List.map_drop, List.map_drop, hk]
    · rw [depth_run]
      exact Nat.lt_of_le_of_lt (List.length_take_le _ _) (Nat.lt_of_add_lt_add_left hn)

theorem accepted_run (l : Line α) (is : List (Input α)) (n : Nat) :
    (l.run is).1[n]?.map (·.accepted) =
      (is.map (·.offer))[n]?.map fun o => o.valid && (l.run (is.take n)).2.ready := by
  simp only [getElem?_run, List.getElem?_map, Option.map_map, Function.comp_def, accepted_tick]

theorem delivered_run (hd : 0 < l.depth) (is : List (Input α)) (n : Nat) :
    (l.run is).1[n]?.map (·.delivered) =
      (is.map (·.sinkReady))[n]?.map fun r => if r then (l.run (is.take n)).2.head else none := by
  have hne : (l.run (is.take n)).2.stages ≠ [] := by
    apply stages_ne_nil
    rwa [depth_run]
  simp only [getElem?_run, List.getElem?_map, Option.map_map, Function.comp_def,
    delivered_tick hne]

/-- A signal crosses one stage in a tick. If two runs differ only in what the sink does from some
tick on, the source sees no difference for as many ticks as there are stages; and if they differ
only in what the source does, the sink sees none. -/
theorem signals_cross_one_stage_per_tick (hd : 0 < l.depth) :
    (∀ (is js : List (Input α)) (t : Nat),
      is.map (·.offer) = js.map (·.offer) → is.take t = js.take t → ∀ n < t + l.depth,
        (l.run is).1[n]?.map (·.accepted) = (l.run js).1[n]?.map (·.accepted) ∧
          (l.run (is.take n)).2.ready = (l.run (js.take n)).2.ready) ∧
    ∀ (is js : List (Input α)) (t : Nat),
      is.map (·.sinkReady) = js.map (·.sinkReady) → is.take t = js.take t → ∀ n < t + l.depth,
        (l.run is).1[n]?.map (·.delivered) = (l.run js).1[n]?.map (·.delivered) ∧
          (l.run (is.take n)).2.head = (l.run (js.take n)).2.head := by
  constructor
  · intro is js t ho ht n hn
    have hr : (l.run (is.take n)).2.ready = (l.run (js.take n)).2.ready :=
      run_take_congr (fun _ _ _ => ready_run_congr) ho ht hn
    exact ⟨by rw [accepted_run, accepted_run, ho, hr], hr⟩
  · intro is js t hr ht n hn
    have hh : (l.run (is.take n)).2.head = (l.run (js.take n)).2.head :=
      run_take_congr (fun _ _ _ => head_run_congr) hr ht hn
    exact ⟨by rw [delivered_run hd, delivered_run hd, hr, hh], hh⟩

/-- The runs of two stages part in tick 1. The source learns in tick 3 whether the sink was ready,
and the sink sees an item in tick 3 if there was an offer. -/
theorem signals_cross_one_stage_per_tick_full :
    let l : Line Nat :=
      ((⟨List.replicate 2 .reset, 0⟩ : Line Nat).run [⟨.holding 1, true⟩, ⟨.holding 2, true⟩]).2
    let stalls : List (Input Nat) := List.replicate 4 ⟨.holding 3, false⟩
    let takes : List (Input Nat) := ⟨.holding 3, false⟩ :: List.replicate 3 ⟨.holding 3, true⟩
    let idles : List (Input Nat) := List.replicate 4 ⟨.empty, true⟩
    let offers : List (Input Nat) := ⟨.empty, true⟩ :: List.replicate 3 ⟨.holding 3, true⟩
    0 < l.depth ∧
      (stalls.map (·.offer) = takes.map (·.offer) ∧ stalls.take 1 = takes.take 1 ∧
        (∀ n < 3, (l.run stalls).1[n]?.map (·.accepted) = (l.run takes).1[n]?.map (·.accepted)) ∧
        (l.run (stalls.take 3)).2.ready ≠ (l.run (takes.take 3)).2.ready) ∧
      idles.map (·.sinkReady) = offers.map (·.sinkReady) ∧ idles.take 1 = offers.take 1 ∧
        (∀ n < 3, (l.run idles).1[n]?.map (·.delivered) = (l.run offers).1[n]?.map (·.delivered)) ∧
        (l.run (idles.take 3)).2.head ≠ (l.run (offers.take 3)).2.head := by
  intro l stalls takes idles offers
  have hd : 0 < l.depth := by decide
  have ho : stalls.map (·.offer) = takes.map (·.offer) := by decide
  have hr : idles.map (·.sinkReady) = offers.map (·.sinkReady) := by decide
  obtain ⟨hs, hk⟩ := signals_cross_one_stage_per_tick hd
  refine ⟨hd, ⟨ho, rfl, fun n hn => ?_, by decide +kernel⟩, hr, rfl, fun n hn => ?_, by decide +kernel⟩
  · exact (hs stalls takes 1 ho rfl n hn).1
  · exact (hk idles offers 1 hr rfl n hn).1

end ElasticCore.Line
