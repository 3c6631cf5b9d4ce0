import ElasticCore.Proofs.Handshake.Invariant

/-! # Flow without bubbles

A steady source offers an item in every tick until it has none left. Its items then pass
a row of stages as a wave without a gap: one more stage is reached in each tick, and a
reached stage is empty only when everything before it is. What the sink does is free.
-/

namespace ElasticCore.Line

variable {α : Type}

/-- The wave has reached `n` stages. An item before a reached stage implies one in its
output, and the stages that were not reached are empty. -/
def Flowing : Nat → Slot α → List (Stage α) → Prop
  | _, _, [] => True
  | 0, _, s :: rest => s.output.valid = false ∧ Flowing 0 s.output rest
  | n + 1, offer, s :: rest =>
    (offer.valid = true → s.output.valid = true) ∧ Flowing n s.output rest

variable {n : Nat} {offer : Slot α} {stages : List (Stage α)}

theorem flowing_replicate_reset [Inhabited α] (offer : Slot α) (depth : Nat) :
    Flowing 0 offer (List.replicate depth .reset) := by
  induction depth generalizing offer with
  | zero => trivial
  | succ depth ih => exact ⟨rfl, ih _⟩

theorem Flowing.exposed_of_lt (h : Flowing n offer stages) (hn : n < stages.length) :
    (exposed offer stages).valid = false := by
  induction stages generalizing n offer with
  | nil => exact absurd hn (Nat.not_lt_zero n)
  | cons s rest ih =>
    cases n with
    | zero =>
      cases rest with
      | nil => exact h.1
      | cons t rest => exact ih h.2 (Nat.zero_lt_succ _)
    | succ n => exact ih h.2 (Nat.lt_of_succ_lt_succ hn)

theorem Flowing.eq_nil_of_exposed (h : Flowing n offer stages) (hs : ∀ s ∈ stages, s.Sound)
    (hn : stages.length ≤ n) (he : (exposed offer stages).valid = false) :
    offer.valid = false ∧ rowItems stages = [] := by
  induction stages generalizing n offer with
  | nil => exact ⟨he, rfl⟩
  | cons s rest ih =>
    obtain ⟨hs, hr⟩ := List.forall_mem_cons.mp hs
    cases n with
    | zero => exact absurd hn (Nat.not_succ_le_zero _)
    | succ n =>
      obtain ⟨hv, hi⟩ := ih h.2 hr (Nat.le_of_succ_le_succ hn) he
      have ho : offer.valid = false := Bool.eq_false_iff.mpr fun ho => by simp [h.1 ho] at hv
      exact ⟨ho, by rw [rowItems_cons, hi, hs.items_of_invalid hv]; rfl⟩

theorem Flowing.head_of_lt {l : Line α} (h : Flowing n offer l.stages) (hn : n < l.depth) :
    l.head = none := by
  rw [head_eq (stages_ne_nil (Nat.zero_lt_of_lt hn)) offer, Slot.item?_eq_none_iff]
  exact h.exposed_of_lt hn

theorem Flowing.eq_nil_of_head {l : Line α} (h : Flowing n offer l.stages) (hs : l.Sound)
    (hne : l.stages ≠ []) (hn : l.depth ≤ n) (hh : l.head = none) :
    offer.valid = false ∧ l.items = [] := by
  rw [head_eq hne offer, Slot.item?_eq_none_iff] at hh
  exact h.eq_nil_of_exposed hs hn hh

variable [Inhabited α]

theorem Flowing.successors_zero (h : Flowing 0 offer stages) (hs : ∀ s ∈ stages, s.Sound)
    (ho : offer.valid = false) (sinkReady : Bool) (offer' : Slot α) :
    Flowing 0 offer' (successors sinkReady offer stages) := by
  induction stages generalizing offer offer' with
  | nil => trivial
  | cons s rest ih =>
    obtain ⟨hs, hr⟩ := List.forall_mem_cons.mp hs
    obtain ⟨hv, hf⟩ := h
    have hb : s.buffer.valid = false :=
      Bool.eq_false_iff.mpr fun hb => by simp [hs.output_of_buffer hb] at hv
    rw [successors_cons]
    refine ⟨?_, ih hf hr hv _⟩
    rw [hs.output_valid_move, ho, hb, hv]
    rfl

theorem Flowing.successors (h : Flowing n offer stages) (hs : ∀ s ∈ stages, s.Sound)
    {offer' : Slot α} (ho : offer'.valid = true → offer.valid = true) (sinkReady : Bool) :
    Flowing (n + 1) offer' (successors sinkReady offer stages) := by
  induction stages generalizing n offer offer' with
  | nil => trivial
  | cons s rest ih =>
    obtain ⟨hs, hr⟩ := List.forall_mem_cons.mp hs
    have hv := hs.output_valid_move offer (readiness sinkReady rest)
    rw [successors_cons]
    refine ⟨fun h' => by rw [hv, ho h']; rfl, ?_⟩
    cases n with
    | zero => exact h.2.successors_zero hr h.1 sinkReady _
    | succ n =>
      refine ih h.2 hr fun h' => ?_
      -- Neither an overflow nor a drain leaves a stage without an output.
      rw [hv, Bool.or_eq_true, Bool.or_eq_true, Bool.and_eq_true] at h'
      rcases h' with (h' | h') | ⟨h', -⟩
      · exact h.1 h'
      · exact hs.output_of_buffer h'
      · exact h'

end ElasticCore.Line
