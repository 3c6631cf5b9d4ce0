import ElasticCore.Proofs.Handshake.Invariant

/-! # Delays

An item needs a tick of the sink for every stage up to the last, and one more than the item
before it. The larger of the two bounds is its delay. A tick in which the sink is ready takes
one off the delay of every item, and a tick in which it is not adds nothing: an item that
cannot move is behind two items in the next stage, and is late for their sake already.
-/

namespace ElasticCore.Line

variable {α : Type}

/-- A number of ready ticks after which the first `m` items of a row have left it. -/
def delay (m : Nat) : List (Stage α) → Nat
  | [] => 0
  | _ :: rest =>
    let ahead := (rowItems rest).length
    if m ≤ ahead then delay m rest else max (delay ahead rest) rest.length + (m - ahead)

/-- The delay that a row causes to the item behind it. -/
def backlog (stages : List (Stage α)) : Nat :=
  max (delay (rowItems stages).length stages) stages.length

variable {m : Nat} {s : Stage α} {stages rest : List (Stage α)}

theorem delay_cons_of_le (hm : m ≤ (rowItems rest).length) : delay m (s :: rest) = delay m rest :=
  if_pos hm

theorem delay_cons_of_lt (hm : (rowItems rest).length < m) :
    delay m (s :: rest) = backlog rest + (m - (rowItems rest).length) :=
  if_neg (Nat.not_le.mpr hm)

theorem delay_le_backlog (stages : List (Stage α)) :
    delay (rowItems stages).length stages ≤ backlog stages :=
  Nat.le_max_left _ _

theorem length_le_backlog (stages : List (Stage α)) : stages.length ≤ backlog stages :=
  Nat.le_max_right _ _

theorem delay_cons_le (hm : (rowItems rest).length ≤ m) :
    delay m (s :: rest) ≤ backlog rest + (m - (rowItems rest).length) := by
  rcases Nat.eq_or_lt_of_le hm with rfl | hl
  · rw [delay_cons_of_le (Nat.le_refl _), Nat.sub_self]
    exact delay_le_backlog rest
  · exact Nat.le_of_eq (delay_cons_of_lt hl)

@[simp] theorem delay_zero (stages : List (Stage α)) : delay 0 stages = 0 := by
  induction stages with
  | nil => rfl
  | cons s rest ih => rw [delay_cons_of_le (Nat.zero_le _), ih]

theorem le_delay (hm : m ≤ (rowItems stages).length) : m ≤ delay m stages := by
  induction stages generalizing m with
  | nil => exact hm
  | cons s rest ih =>
    rcases Nat.lt_or_ge (rowItems rest).length m with hl | hl
    · have hi := ih (Nat.le_refl _)
      have hb := delay_le_backlog rest
      rw [delay_cons_of_lt hl]
      omega
    · rw [delay_cons_of_le hl]
      exact ih hl

/-- At worst all items are in the first stages and follow each other out. -/
theorem delay_lt (hp : 0 < m) (hm : m ≤ (rowItems stages).length) :
    delay m stages < stages.length + m := by
  induction stages generalizing m with
  | nil => exact absurd hm (Nat.not_le.mpr hp)
  | cons s rest ih =>
    rw [List.length_cons]
    rcases Nat.lt_or_ge (rowItems rest).length m with hl | hl
    · rw [delay_cons_of_lt hl, backlog]
      rcases Nat.eq_zero_or_pos (rowItems rest).length with h0 | hpos
      · rw [h0, delay_zero]
        omega
      · have hi := ih hpos (Nat.le_refl _)
        omega
    · have hi := ih hp hl
      rw [delay_cons_of_le hl]
      omega

theorem length_lt_delay_of_not_ready (hs : s.Sound) (hr : s.ready = false)
    (rest : List (Stage α)) :
    (s :: rest).length < delay (rowItems (s :: rest)).length (s :: rest) := by
  have h2 : s.items.length = 2 := by
    have hn := mt hs.ready_iff.mpr (Bool.eq_false_iff.mp hr)
    have hle := s.occupancy_le
    rw [Stage.length_items]
    omega
  have hb := length_le_backlog rest
  rw [rowItems_cons, List.length_append, h2, delay_cons_of_lt (by omega), List.length_cons]
  omega

def departures (sinkReady : Bool) (offer : Slot α) (stages : List (Stage α)) : Nat :=
  ((exposed offer stages).transfer sinkReady).toList.length

@[simp] theorem departures_cons (sinkReady : Bool) (offer : Slot α) (s : Stage α)
    (rest : List (Stage α)) :
    departures sinkReady offer (s :: rest) = departures sinkReady s.output rest := rfl

theorem departures_le (hne : stages ≠ []) (sinkReady : Bool) (offer : Slot α) :
    departures sinkReady offer stages ≤ (rowItems stages).length := by
  induction stages generalizing offer with
  | nil => exact absurd rfl hne
  | cons s rest ih =>
    rw [departures_cons, rowItems_cons, List.length_append]
    cases rest with
    | nil =>
      rw [departures, Slot.length_transfer, Stage.length_items, Stage.occupancy]
      change (s.output.valid && sinkReady).toNat ≤ _
      cases s.output.valid <;> cases sinkReady <;> simp
    | cons t rest => exact Nat.le_add_right_of_le (ih (by simp) s.output)

variable [Inhabited α] {offer : Slot α} {sinkReady : Bool}

theorem length_rowItems_successors (h : ∀ s ∈ stages, s.Sound) (sinkReady : Bool)
    (offer : Slot α) :
    (rowItems stages).length + (offer.valid && readiness sinkReady stages).toNat =
      departures sinkReady offer stages + (rowItems (successors sinkReady offer stages)).length := by
  have hc := congrArg List.length (rowItems_successors h sinkReady offer)
  rwa [List.length_append, List.length_append, Slot.length_transfer] at hc

theorem backlog_successors_taken (hs : s.Sound) (ho : offer.valid = true) {n : Nat}
    (hn : (rowItems (successors sinkReady offer (s :: rest))).length = n + 1) :
    backlog (successors sinkReady offer (s :: rest)) ≤
      max (delay n (successors sinkReady offer (s :: rest))) rest.length + 1 := by
  have hv : (s.move offer (readiness sinkReady rest)).2.output.valid = true := by
    rw [hs.output_valid_move, ho]
    rfl
  rw [backlog, hn, length_successors, List.length_cons]
  rw [successors_cons, rowItems_cons, List.length_append, Stage.length_items, Stage.occupancy, hv,
    Bool.toNat_true] at hn
  rw [successors_cons, delay_cons_of_lt (by omega)]
  rcases Nat.eq_or_lt_of_le (show (rowItems (successors sinkReady s.output rest)).length ≤ n by
    omega) with rfl | hl
  · rw [delay_cons_of_le (Nat.le_refl _), backlog, length_successors]
    omega
  · rw [delay_cons_of_lt hl]
    have hb := length_le_backlog (successors sinkReady s.output rest)
    rw [length_successors] at hb
    omega

/-- A tick takes one off a backlog if the sink is ready, and adds one if the row is ready for
the item behind it. -/
theorem backlog_successors (h : ∀ s ∈ stages, s.Sound) (sinkReady : Bool) (ho : offer.valid = true)
    (hd : 0 < (rowItems stages).length →
      delay ((rowItems stages).length - departures sinkReady offer stages)
          (successors sinkReady offer stages) + sinkReady.toNat ≤
        delay (rowItems stages).length stages) :
    backlog (successors sinkReady offer stages) + sinkReady.toNat ≤
      backlog stages + (readiness sinkReady stages).toNat := by
  cases stages with
  | nil => exact Nat.le_refl _
  | cons s rest =>
    have hc := length_rowItems_successors h sinkReady offer
    have hle := departures_le (List.cons_ne_nil s rest) sinkReady offer
    have hr1 := Bool.toNat_le sinkReady
    have hb := length_le_backlog (s :: rest)
    -- What was in the row and still is.
    have hold : delay ((rowItems (s :: rest)).length - departures sinkReady offer (s :: rest))
          (successors sinkReady offer (s :: rest)) + sinkReady.toNat ≤ backlog (s :: rest) := by
      rcases Nat.eq_zero_or_pos (rowItems (s :: rest)).length with h0 | hp
      · rw [h0, Nat.zero_sub, delay_zero]
        rw [List.length_cons] at hb
        omega
      · exact Nat.le_trans (hd hp) (delay_le_backlog _)
    rw [ho, Bool.true_and] at hc
    change _ ≤ _ + s.ready.toNat
    change _ + s.ready.toNat = _ at hc
    cases hr : s.ready with
    | true =>
      rw [hr, Bool.toNat_true] at hc
      have hn : (rowItems (successors sinkReady offer (s :: rest))).length =
          (rowItems (s :: rest)).length - departures sinkReady offer (s :: rest) + 1 := by omega
      have ht := backlog_successors_taken (List.forall_mem_cons.mp h).1 ho hn
      rw [List.length_cons] at hb
      rw [Bool.toNat_true]
      omega
    | false =>
      -- Nothing enters, and the two items of the first stage outweigh the length of the row.
      rw [hr, Bool.toNat_false] at hc
      have hn : (rowItems (successors sinkReady offer (s :: rest))).length =
          (rowItems (s :: rest)).length - departures sinkReady offer (s :: rest) := by omega
      have hlt := length_lt_delay_of_not_ready (List.forall_mem_cons.mp h).1 hr rest
      have hdb := delay_le_backlog (s :: rest)
      rw [backlog, hn, length_successors, Bool.toNat_false]
      omega

/-- A tick takes one off the delay of an item if the sink is ready, and nothing else adds to it. -/
theorem delay_successors (h : ∀ s ∈ stages, s.Sound) (sinkReady : Bool) (offer : Slot α)
    (hp : 0 < m + departures sinkReady offer stages)
    (hm : m + departures sinkReady offer stages ≤ (rowItems stages).length) :
    delay m (successors sinkReady offer stages) + sinkReady.toNat ≤
      delay (m + departures sinkReady offer stages) stages := by
  induction stages generalizing m offer with
  | nil => exact absurd hm (Nat.not_le.mpr hp)
  | cons s rest ih =>
    obtain ⟨hs, hr⟩ := List.forall_mem_cons.mp h
    have hc := length_rowItems_successors hr sinkReady s.output
    rw [departures_cons] at hp hm ⊢
    rw [rowItems_cons, List.length_append] at hm
    rw [successors_cons]
    rcases Nat.lt_or_ge (rowItems rest).length (m + departures sinkReady s.output rest) with hl | hl
    · -- The item is in the first stage, behind all others.
      have hv : s.output.valid = true := hs.valid_of_occupied (by omega)
      rw [hv, Bool.true_and] at hc
      have hb := backlog_successors hr sinkReady hv fun hpos => by
        have hi := ih hr s.output
          (m := (rowItems rest).length - departures sinkReady s.output rest)
        rw [Nat.sub_add_cancel (departures_le (by rintro rfl; cases hpos) sinkReady s.output)] at hi
        exact hi hpos (Nat.le_refl _)
      have hr1 := Bool.toNat_le (readiness sinkReady rest)
      have hle := delay_cons_le (s := (s.move offer (readiness sinkReady rest)).2)
        (show (rowItems (successors sinkReady s.output rest)).length ≤ m by omega)
      rw [delay_cons_of_lt hl]
      omega
    · rw [delay_cons_of_le hl, delay_cons_of_le (by omega)]
      exact ih hr s.output hp hl

end ElasticCore.Line
