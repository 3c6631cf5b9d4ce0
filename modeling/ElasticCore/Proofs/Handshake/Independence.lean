import ElasticCore.Proofs.Handshake.Conservation
import ElasticCore.Proofs.Handshake.Relabel
import Mathlib.Data.List.Forall2

/-! # Handshakes without items

When a line moves its items is decided by when the source offers and when the sink is ready. Two
lines that are driven alike hold items in the same registers, whatever the items are. As no item
is lost, doubled or overtaken, the items that were accepted decide those that are shown: an item
that was refused, or that stood on the wires while nothing was offered, is never seen.
-/

namespace ElasticCore.Line

variable {α β : Type}

structure Input.Alike (i : Input α) (j : Input β) : Prop where
  valid_eq : i.offer.valid = j.offer.valid
  sinkReady_eq : i.sinkReady = j.sinkReady

instance (i : Input α) (j : Input β) : Decidable (i.Alike j) :=
  decidable_of_iff (_ ∧ _) ⟨fun h => ⟨h.1, h.2⟩, fun h => ⟨h.1, h.2⟩⟩

/-- What can be told of a tick without looking at items. -/
structure Signals where
  accepted : Bool
  delivered : Bool
  transitions : List Transition
  deriving DecidableEq

def Outcome.signals (o : Outcome α) : Signals where
  accepted := o.accepted
  delivered := o.delivered.isSome
  transitions := o.transitions

/-- Lines that hold items in the same registers. -/
def Alike (l : Line α) (l' : Line β) : Prop := l.map (fun _ => ()) = l'.map (fun _ => ())

variable {depth : Nat} {l : Line α} {l' : Line β} {is : List (Input α)} {js : List (Input β)}
  {R : α → β → Prop}

theorem Outcome.signals_map {γ : Type} (f : α → γ) (o : Outcome α) :
    (o.map f).signals = o.signals := by
  simp [signals, map]

theorem Input.Alike.map_eq {i : Input α} {j : Input β} (h : i.Alike j) :
    i.map (fun _ => ()) = j.map (fun _ => ()) := by
  simp only [Input.map, Slot.map, h.valid_eq, h.sinkReady_eq]

theorem alike_of_getElem? (hij : List.Forall₂ Input.Alike is js) {n : Nat} {i : Input α}
    {j : Input β} (hi : is[n]? = some i) (hj : js[n]? = some j) : i.Alike j := by
  obtain ⟨hn, rfl⟩ := List.getElem?_eq_some_iff.mp hi
  obtain ⟨hn', rfl⟩ := List.getElem?_eq_some_iff.mp hj
  exact hij.get hn hn'

theorem Alike.ready_eq (h : Alike l l') : l.ready = l'.ready := by
  rw [← ready_map (fun _ => ()) l, h, ready_map]

theorem Alike.occupancy_eq (h : Alike l l') : l.occupancy = l'.occupancy := by
  rw [← occupancy_map (fun _ => ()) l, h, occupancy_map]

theorem Alike.isSome_head (h : Alike l l') : l.head.isSome = l'.head.isSome := by
  have hh := congrArg (fun l => l.head.isSome) h
  simpa only [head_map, Option.isSome_map] using hh

theorem length_deliveredItems (os : List (Outcome α)) :
    (deliveredItems os).length = (os.map Outcome.signals).countP (·.delivered) := by
  rw [deliveredItems, List.length_filterMap_eq_countP, List.countP_map]
  rfl

theorem Alike.head_rel (h : Alike l l') (hi : List.Forall₂ R l.items l'.items) :
    Option.Rel R l.head l'.head := by
  have hs := h.isSome_head
  cases hl : l.head with
  | none =>
    cases hl' : l'.head with
    | none => exact .none
    | some b => simp [hl, hl'] at hs
  | some a =>
    cases hl' : l'.head with
    | none => simp [hl, hl'] at hs
    | some b =>
      obtain ⟨as, ha⟩ := exists_items_eq_cons hl
      obtain ⟨bs, hb⟩ := exists_items_eq_cons hl'
      rw [ha, hb] at hi
      cases hi with
      | cons hab _ => exact .some hab

theorem forall₂_getLast? {as : List α} {bs : List β} (h : List.Forall₂ R as bs) {a : α} {b : β}
    (hab : R a b) : R (as.getLast?.getD a) (bs.getLast?.getD b) := by
  induction h generalizing a b with
  | nil => exact hab
  | cons hr _ ih =>
    rw [List.getLast?_cons, List.getLast?_cons]
    exact ih hr

variable [Inhabited α]

/-- In every tick in which the line accepts an offer, the items on the wires are related. -/
def AcceptsRelated (R : α → β → Prop) (l : Line α) (is : List (Input α)) (js : List (Input β)) :
    Prop :=
  ∀ (n : Nat) (i : Input α) (j : Input β), is[n]? = some i → js[n]? = some j →
    (l.run is).1[n]?.any (·.accepted) = true → R i.offer.data j.offer.data

theorem AcceptsRelated.take (h : AcceptsRelated R l is js) (n : Nat) :
    AcceptsRelated R l (is.take n) (js.take n) := by
  intro k i j hi hj ha
  have hk : k < n := by
    obtain ⟨hl, -⟩ := List.getElem?_eq_some_iff.mp hi
    exact Nat.lt_of_lt_of_le hl (List.length_take_le n is)
  rw [run, ← take_clock] at ha
  rw [List.getElem?_take_of_lt hk] at hi hj ha
  exact h k i j hi hj ha

variable [Inhabited β]

theorem AtReset.alike (h : AtReset depth l) (h' : AtReset depth l') : Alike l l' := by
  rw [Alike, h.eq, h'.eq, map, map, List.map_replicate, List.map_replicate]
  rfl

theorem Alike.run (h : Alike l l') (hij : List.Forall₂ Input.Alike is js) :
    (l.run is).1.map Outcome.signals = (l'.run js).1.map Outcome.signals ∧
      Alike (l.run is).2 (l'.run js).2 := by
  have hm : is.map (Input.map fun _ => ()) = js.map (Input.map fun _ => ()) := by
    induction hij with
    | nil => rfl
    | cons hi _ ih => rw [List.map_cons, List.map_cons, hi.map_eq, ih]
  have hr := run_map (f := fun _ => ()) rfl l is
  rw [h, hm, run_map (f := fun _ => ()) rfl l' js] at hr
  obtain ⟨ho, hl⟩ := Prod.ext_iff.mp hr
  have hs := congrArg (List.map Outcome.signals) ho.symm
  simp only [List.map_map, Function.comp_def, Outcome.signals_map] at hs
  exact ⟨hs, hl.symm⟩

theorem Alike.acceptedItems_rel (h : Alike l l') (hij : List.Forall₂ Input.Alike is js)
    (hR : AcceptsRelated R l is js) :
    List.Forall₂ R (acceptedItems is (l.run is).1) (acceptedItems js (l'.run js).1) := by
  induction hij generalizing l l' with
  | nil => exact .nil
  | @cons i j is js hi _ ih =>
    obtain ⟨hs, ht⟩ := h.run (.cons hi .nil)
    have ha : (l.tick i.offer i.sinkReady).1.accepted = (l'.tick j.offer j.sinkReady).1.accepted :=
      congrArg Signals.accepted (List.head_eq_of_cons_eq hs)
    rw [run_cons, run_cons, acceptedItems_cons, acceptedItems_cons, ← ha]
    apply List.rel_append
    · cases hc : (l.tick i.offer i.sinkReady).1.accepted with
      | false => exact .nil
      | true => exact .cons (hR 0 i j rfl rfl hc) .nil
    · exact ih ht fun n => hR (n + 1)

/-- The items accepted are those delivered and those held, so these are related in turn. -/
theorem AtReset.items_rel (h : AtReset depth l) (h' : AtReset depth l')
    (hij : List.Forall₂ Input.Alike is js) (hR : AcceptsRelated R l is js) :
    List.Forall₂ R (deliveredItems (l.run is).1) (deliveredItems (l'.run js).1) ∧
      List.Forall₂ R (l.run is).2.items (l'.run js).2.items := by
  have hc := h.reachable.items_run is
  have hc' := h'.reachable.items_run js
  rw [h.items_eq, List.nil_append] at hc
  rw [h'.items_eq, List.nil_append] at hc'
  have hn : (deliveredItems (l.run is).1).length = (deliveredItems (l'.run js).1).length := by
    rw [length_deliveredItems, length_deliveredItems, ((h.alike h').run hij).1]
  have ha := (h.alike h').acceptedItems_rel hij hR
  rw [hc, hc'] at ha
  constructor
  · have ht := List.forall₂_take (deliveredItems (l.run is).1).length ha
    rwa [List.take_left' rfl, List.take_left' hn.symm] at ht
  · have hd := List.forall₂_drop (deliveredItems (l.run is).1).length ha
    rwa [List.drop_left' rfl, List.drop_left' hn.symm] at hd

theorem AtReset.head_rel (h : AtReset depth l) (h' : AtReset depth l')
    (hij : List.Forall₂ Input.Alike is js) (hR : AcceptsRelated R l is js) :
    Option.Rel R (l.run is).2.head (l'.run js).2.head :=
  ((h.alike h').run hij).2.head_rel (h.items_rel h' hij hR).2

theorem AtReset.output_rel (h : AtReset depth l) (h' : AtReset depth l')
    (hij : List.Forall₂ Input.Alike is js) (hR : AcceptsRelated R l is js)
    (hd : R default default) : R ((l.run is).2.output false) ((l'.run js).2.output false) := by
  change R (l.run is).2.sink (l'.run js).2.sink
  rw [sink_run, sink_run]
  apply forall₂_getLast? (h.items_rel h' hij hR).1
  rwa [h.eq, h'.eq]

/-- Two runs from reset in which the source offers alike and the sink is ready alike cannot be
told apart by their handshakes, whatever the items are. If moreover the items are related that
are offered when an offer is accepted, for instance by equality, so are the items delivered, the
heads, and the items delivered last, whatever else was on the wires. -/
theorem handshakes_independent_of_items (h : AtReset depth l) (h' : AtReset depth l')
    (hij : List.Forall₂ Input.Alike is js) :
    ((l.run is).1.map Outcome.signals = (l'.run js).1.map Outcome.signals ∧
      ∀ n, (l.run (is.take n)).2.ready = (l'.run (js.take n)).2.ready ∧
        (l.run (is.take n)).2.occupancy = (l'.run (js.take n)).2.occupancy) ∧
    ∀ R : α → β → Prop, R default default → AcceptsRelated R l is js →
      ∀ n, (∀ o ∈ (l.run is).1[n]?, ∀ o' ∈ (l'.run js).1[n]?,
          Option.Rel R o.delivered o'.delivered) ∧
        Option.Rel R (l.run (is.take n)).2.head (l'.run (js.take n)).2.head ∧
        R ((l.run (is.take n)).2.output false) ((l'.run (js.take n)).2.output false) := by
  have ht := fun n => List.forall₂_take n hij
  constructor
  · constructor
    · exact ((h.alike h').run hij).1
    · intro n
      have hr := ((h.alike h').run (ht n)).2
      exact ⟨hr.ready_eq, hr.occupancy_eq⟩
  · intro R hd hR n
    have hh := h.head_rel h' (ht n) (hR.take n)
    refine ⟨?_, hh, h.output_rel h' (ht n) (hR.take n) hd⟩
    intro o ho o' ho'
    rw [getElem?_run] at ho ho'
    obtain ⟨i, hi, rfl⟩ := Option.map_eq_some_iff.mp ho
    obtain ⟨j, hj, rfl⟩ := Option.map_eq_some_iff.mp ho'
    have hs : i.sinkReady = j.sinkReady := (alike_of_getElem? hij hi hj).sinkReady_eq
    rw [delivered_tick (h.reachable.run _).stages_ne_nil,
      delivered_tick (h'.reachable.run _).stages_ne_nil, hs]
    -- The head is what is delivered, or nothing is.
    cases j.sinkReady
    · exact .none
    · exact hh

/-- Two stages fill up and stall. The runs differ in the item of an idle tick and in two items
that are refused, and in nothing that is shown. -/
theorem handshakes_independent_of_items_refused :
    let l : Line Nat := ⟨List.replicate 2 .reset, default⟩
    let is : List (Input Nat) :=
      [⟨.holding 1, false⟩, ⟨⟨false, 10⟩, false⟩, ⟨.holding 2, false⟩, ⟨.holding 3, false⟩,
        ⟨.holding 4, false⟩, ⟨.holding 11, true⟩, ⟨.holding 5, true⟩]
    let js : List (Input Nat) :=
      [⟨.holding 1, false⟩, ⟨⟨false, 20⟩, false⟩, ⟨.holding 2, false⟩, ⟨.holding 3, false⟩,
        ⟨.holding 4, false⟩, ⟨.holding 21, true⟩, ⟨.holding 22, true⟩]
    AtReset 2 l ∧ List.Forall₂ Input.Alike is js ∧
      AcceptsRelated (· = ·) l is js ∧
      (l.run is).1.map (·.accepted) = [true, false, true, true, true, false, false] ∧
      (l.run is).1.map Outcome.signals = (l.run js).1.map Outcome.signals ∧
      (l.run is).2.occupancy = (l.run js).2.occupancy ∧
      Option.Rel (· = ·) (l.run is).2.head (l.run js).2.head ∧ (l.run is).2.head = some 3 ∧
      (l.run is).2.output false = (l.run js).2.output false := by
  intro l is js
  have hl : AtReset 2 l := Or.inl rfl
  have hij : List.Forall₂ Input.Alike is js := by decide
  have hd : AcceptsRelated (· = ·) l is js := by
    intro n i j hi hj ha
    have hn : ∀ n < 7, (l.run is).1[n]?.any (·.accepted) = true →
        is[n]?.map (·.offer.data) = js[n]?.map (·.offer.data) := by decide +kernel
    have he := hn n (List.getElem?_eq_some_iff.mp hi).1 ha
    rw [hi, hj] at he
    exact Option.some.inj he
  obtain ⟨⟨hs, hr⟩, hR⟩ := handshakes_independent_of_items hl hl hij
  obtain ⟨-, hh, ho⟩ := hR (· = ·) rfl hd 7
  exact ⟨hl, hij, hd, by decide +kernel, hs, (hr 7).2, hh, by decide +kernel, ho⟩

end ElasticCore.Line
