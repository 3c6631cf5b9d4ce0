import ElasticCore.Proofs.Handshake.Conservation
import ElasticCore.Proofs.Handshake.Steady

/-! # The capacity of a line

While its sink stalls, a line keeps all that it accepts. A stage with room is ready, and makes the
stage before it ready in the next tick, so that wherever there is room, an offer is accepted before
as many ticks have passed as there are stages. A source that does not tire thus fills both slots of
every stage, and is then refused until the sink is ready again.
-/

namespace ElasticCore.Line

variable {α : Type} {l : Line α} {stages : List (Stage α)}

/-- The number of stages that refuse an item, in front of the first one that is ready. -/
def refusing : List (Stage α) → Nat
  | [] => 0
  | s :: rest => if s.ready then 0 else refusing rest + 1

theorem refusing_of_readiness (h : readiness false stages = true) : refusing stages = 0 := by
  cases stages with
  | nil => rfl
  | cons s rest => exact if_pos h

theorem refusing_lt (h : ∃ s ∈ stages, s.ready = true) : refusing stages < stages.length := by
  induction stages with
  | nil => simp at h
  | cons s rest ih =>
    unfold refusing
    split
    case isTrue => exact Nat.zero_lt_succ _
    case isFalse hs =>
      rcases h with ⟨t, ht, hr⟩
      rcases List.mem_cons.mp ht with rfl | ht
      · exact absurd hr hs
      · exact Nat.succ_lt_succ (ih ⟨t, ht, hr⟩)

theorem occupancy_eq_iff (l : Line α) :
    l.occupancy = 2 * l.depth ↔ ∀ s ∈ l.stages, s.occupancy = 2 := by
  obtain ⟨stages, sink⟩ := l
  induction stages with
  | nil => simp [occupancy, Line.depth]
  | cons s rest ih =>
    have hs := s.occupancy_le
    have hr := occupancy_le ⟨rest, sink⟩
    simp only [occupancy, Line.depth, List.map_cons, List.sum_cons, List.length_cons,
      List.forall_mem_cons] at hr ih ⊢
    rw [← ih]
    omega

theorem Sound.exists_ready (h : l.Sound) (ho : l.occupancy < 2 * l.depth) :
    ∃ s ∈ l.stages, s.ready = true := by
  by_contra hn
  push Not at hn
  apply Nat.ne_of_lt ho
  rw [occupancy_eq_iff]
  intro s hs
  have hr := mt (h s hs).ready_iff.mpr (hn s hs)
  have hle := s.occupancy_le
  omega

theorem Sound.not_ready_of_full (h : l.Sound) (hne : l.stages ≠ [])
    (ho : l.occupancy = 2 * l.depth) : l.ready = false := by
  rw [occupancy_eq_iff] at ho
  obtain ⟨stages, sink⟩ := l
  cases stages with
  | nil => exact absurd rfl hne
  | cons s rest =>
    have hs := ho s List.mem_cons_self
    have hr := (h s List.mem_cons_self).ready_iff
    cases hb : s.ready with
    | false => exact hb
    | true => rw [hb, hs] at hr; simp at hr

variable [Inhabited α] {depth : Nat} {is : List (Input α)}

/-- Room that the source does not see comes one stage nearer in a tick. -/
theorem refusing_successors (hr : readiness false stages = false)
    (hx : ∃ s ∈ stages, s.ready = true) (offer : Slot α) :
    refusing (successors false offer stages) + 1 = refusing stages := by
  induction stages generalizing offer with
  | nil => simp at hx
  | cons s rest ih =>
    have hs : s.ready = false := hr
    have hx : ∃ t ∈ rest, t.ready = true := by
      obtain ⟨t, ht, htr⟩ := hx
      rcases List.mem_cons.mp ht with rfl | ht
      · simp [hs] at htr
      · exact ⟨t, ht, htr⟩
    rw [successors_cons]
    cases hb : readiness false rest with
    | true => simp [refusing, s.ready_move offer, hs, refusing_of_readiness hb]
    | false =>
      have hm : (s.move offer false).2.ready = false := by simp [Stage.move, hs]
      simp [refusing, hm, hs, ih hb hx s.output]

section Stalled

variable (h : Reachable depth l)

include h

theorem Reachable.delivered_run_of_stalled (hk : ∀ i ∈ is, i.sinkReady = false) :
    ∀ o ∈ (l.run is).1, o.delivered = none := by
  intro o ho
  obtain ⟨n, hn⟩ := List.mem_iff_getElem?.mp ho
  rw [getElem?_run] at hn
  obtain ⟨i, hi, rfl⟩ := Option.map_eq_some_iff.mp hn
  rw [delivered_tick (h.run _).stages_ne_nil, hk i (List.mem_of_getElem? hi)]
  rfl

theorem Reachable.items_run_of_stalled (hk : ∀ i ∈ is, i.sinkReady = false) :
    (l.run is).2.items = l.items ++ acceptedItems is (l.run is).1 := by
  have hd : deliveredItems (l.run is).1 = [] :=
    List.filterMap_eq_nil_iff.mpr (h.delivered_run_of_stalled hk)
  rw [h.items_run is, hd, List.nil_append]

theorem Reachable.occupancy_run_of_stalled (hk : ∀ i ∈ is, i.sinkReady = false) :
    (l.run is).2.occupancy = l.occupancy + (acceptedItems is (l.run is).1).length := by
  rw [← length_items, h.items_run_of_stalled hk, List.length_append, length_items]

theorem Reachable.occupancy_tick_of_stalled (offer : Slot α) :
    (l.tick offer false).2.occupancy = l.occupancy + (offer.valid && l.ready).toNat := by
  have ht := congrArg List.length (h.sound.items_tick h.stages_ne_nil offer false)
  rw [delivered_tick h.stages_ne_nil, List.length_append, List.length_append, Slot.length_transfer,
    length_items, length_items] at ht
  simpa using ht.symm

theorem Reachable.occupancy_lt_run (hk : ∀ i ∈ is, i.offer.valid = true ∧ i.sinkReady = false)
    (ho : l.occupancy < 2 * depth) (hn : refusing l.stages < is.length) :
    l.occupancy < (l.run is).2.occupancy := by
  induction is generalizing l with
  | nil => exact absurd hn (Nat.not_lt_zero _)
  | cons i is ih =>
    obtain ⟨⟨hv, hi⟩, hk⟩ := List.forall_mem_cons.mp hk
    have ht := h.tick i.offer false
    have hstep := h.occupancy_tick_of_stalled i.offer
    rw [hv, Bool.true_and] at hstep
    rw [run_cons, hi]
    cases hr : l.ready with
    | true =>
      have hrest := ht.occupancy_run_of_stalled fun j hj => (hk j hj).2
      rw [hr, Bool.toNat_true] at hstep
      dsimp only
      omega
    | false =>
      have hx := h.sound.exists_ready (h.depth_eq.2.symm ▸ ho)
      have hnear : refusing (l.tick i.offer false).2.stages + 1 = refusing l.stages :=
        refusing_successors hr hx i.offer
      rw [hr, Bool.toNat_false, Nat.add_zero] at hstep
      rw [← hstep]
      apply ih ht hk
      · rwa [hstep]
      · rw [List.length_cons] at hn
        omega

theorem Reachable.le_occupancy_run (hk : ∀ i ∈ is, i.offer.valid = true ∧ i.sinkReady = false)
    {m : Nat} (hn : depth * m ≤ is.length) :
    min (l.occupancy + m) (2 * depth) ≤ (l.run is).2.occupancy := by
  induction m generalizing l is with
  | zero =>
    have := h.occupancy_run_of_stalled fun i hi => (hk i hi).2
    omega
  | succ m ih =>
    rw [Nat.mul_succ] at hn
    have hfirst : ∀ i ∈ is.take depth, i.offer.valid = true ∧ i.sinkReady = false :=
      fun i hi => hk i (List.mem_of_mem_take hi)
    have hlast : ∀ i ∈ is.drop depth, i.offer.valid = true ∧ i.sinkReady = false :=
      fun i hi => hk i (List.mem_of_mem_drop hi)
    have hrest := ih (h.run (is.take depth)) hlast (by rw [List.length_drop]; omega)
    have hle := h.occupancy_run_of_stalled fun i hi => (hfirst i hi).2
    have hlt : l.occupancy < 2 * depth → l.occupancy < (l.run (is.take depth)).2.occupancy := by
      intro ho
      apply h.occupancy_lt_run hfirst ho
      have hx := refusing_lt (h.sound.exists_ready (h.depth_eq.2.symm ▸ ho))
      have hd : l.stages.length = depth := h.depth_eq.2
      rw [List.length_take]
      omega
    rw [← List.take_append_drop depth is, run_append]
    dsimp only
    omega

end Stalled

theorem Reachable.not_ready_run_of_full (h : Reachable depth l) (ho : l.occupancy = 2 * depth)
    (hk : ∀ i ∈ is, i.sinkReady = false) : (l.run is).2.ready = false := by
  have hr := h.run is
  apply hr.sound.not_ready_of_full hr.stages_ne_nil
  have hle := occupancy_le (l.run is).2
  have hs := h.occupancy_run_of_stalled hk
  rw [hr.depth_eq.2] at hle ⊢
  omega

/-- Every slot of a line can be used. Under a stalled sink, a source that offers an item in every
tick fills a line in as many ticks for each free slot as there are stages, and the line delivers
nothing meanwhile. It then holds what it held before and behind that the items that it accepted,
and accepts no other before a tick in which the sink is ready is over. -/
theorem fills_to_capacity (h : Reachable depth l)
    (hk : ∀ i ∈ is, i.offer.valid = true ∧ i.sinkReady = false)
    (hn : depth * (2 * depth - l.occupancy) ≤ is.length) :
    let os := (l.run is).1
    let l' := (l.run is).2
    (acceptedItems is os).length = 2 * depth - l.occupancy ∧
      (∀ o ∈ os, o.delivered = none) ∧
      l'.occupancy = 2 * depth ∧ (∀ s ∈ l'.stages, s.occupancy = 2) ∧ l'.ready = false ∧
      l'.items = l.items ++ acceptedItems is os ∧
      ∀ (js : List (Input α)) (n : Nat), (∀ j ∈ js.take n, j.sinkReady = false) →
        (l'.run js).1[n]?.map (·.accepted) = js[n]?.map fun _ => false := by
  intro os l'
  have hstall : ∀ i ∈ is, i.sinkReady = false := fun i hi => (hk i hi).2
  have hr := h.run is
  have hd : l'.depth = depth := hr.depth_eq.2
  have hfull : l'.occupancy = 2 * depth := by
    have hle : min _ _ ≤ l'.occupancy := h.le_occupancy_run hk hn
    have hcap := occupancy_le l'
    rw [hd] at hcap
    omega
  have hsum : l'.occupancy = l.occupancy + (acceptedItems is os).length :=
    h.occupancy_run_of_stalled hstall
  refine ⟨by omega, h.delivered_run_of_stalled hstall, hfull, ?_,
    hr.not_ready_run_of_full hfull (List.forall_mem_nil _), h.items_run_of_stalled hstall,
    fun js n hjs => ?_⟩
  · rwa [← occupancy_eq_iff, hd]
  · rw [accepted_run, List.getElem?_map, Option.map_map, hr.not_ready_run_of_full hfull hjs]
    simp only [Function.comp_def, Bool.and_false]

/-- A full stage in front of one with room. The first offer is refused, although there is room for
one more item, and the second is accepted; the next ones are refused, also in the tick in which the
sink is ready again. -/
theorem fills_to_capacity_behind_full_stage :
    let l : Line Nat := ⟨List.replicate 2 .reset, default⟩
    let fill : List (Input Nat) :=
      [⟨.holding 1, false⟩, ⟨.holding 2, false⟩, ⟨.holding 3, false⟩, ⟨.holding 4, false⟩,
        ⟨.holding 5, false⟩, ⟨.empty, true⟩]
    let is : List (Input Nat) := [⟨.holding 6, false⟩, ⟨.holding 7, false⟩]
    let js : List (Input Nat) := [⟨.holding 8, false⟩, ⟨.holding 9, true⟩]
    let l' := (l.run fill).2
    Reachable 2 l' ∧ l'.stages.map Stage.occupancy = [2, 1] ∧
      (∀ i ∈ is, i.offer.valid = true ∧ i.sinkReady = false) ∧
      2 * (2 * 2 - l'.occupancy) ≤ is.length ∧ (l'.run is).2.items = [2, 3, 4, 7] ∧
      (l'.run is).2.ready = false ∧
      ((l'.run is).2.run js).1[1]?.map (·.accepted) = some false := by
  intro l fill is js l'
  have hl : Reachable 2 l' := (Reachable.build rfl).run fill
  have hk : ∀ i ∈ is, i.offer.valid = true ∧ i.sinkReady = false := by decide
  have hn : 2 * (2 * 2 - l'.occupancy) ≤ is.length := by decide +kernel
  obtain ⟨-, -, -, -, hr, hi, hj⟩ := fills_to_capacity hl hk hn
  refine ⟨hl, by decide +kernel, hk, hn, hi.trans (by decide +kernel), hr, ?_⟩
  exact hj js 1 (by decide)

end ElasticCore.Line
