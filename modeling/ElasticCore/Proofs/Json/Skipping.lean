import Mathlib.Data.List.DropRight
import Mathlib.Logic.Relation
import ElasticCore.Proofs.Json.Literals

/-! # Passing over values

A value that nobody asked for is passed over to its end, at every depth. The passage is a
run of steps, each of which takes something off the text, so it ends before its bound.
-/

namespace ElasticCore.Json

open Grammar Relation

variable {b rest t : List Char}

/-! ## Repetition -/

section Repetition

variable {σ α : Type} {step : σ → Reader (Step σ α)} {p q : σ × List Char}

/-- One step of a repeated reader that asks for more, between what was reached and left
before it and after it. -/
structure Advances (step : σ → Reader (Step σ α)) (p q : σ × List Char) : Prop where
  step_eq : step p.1 p.2 = .ok (.more q.1, q.2)
  length_lt : q.2.length < p.2.length

theorem iterate_of_advances {a : α} (h : ReflTransGen (Advances step) p q)
    (hd : step q.1 q.2 = .ok (.done a, rest)) :
    ∀ fuel, p.2.length < fuel → iterate step fuel p.1 p.2 = .ok (a, rest) := by
  induction h using ReflTransGen.head_induction_on with
  | refl =>
    rintro (_ | fuel) hf
    · exact absurd hf (Nat.not_lt_zero _)
    · rw [iterate, hd]
      rfl
  | @head p p' h _ ih =>
    rintro (_ | fuel) hf
    · exact absurd hf (Nat.not_lt_zero _)
    · rw [iterate, h.step_eq]
      exact ih fuel (Nat.lt_of_lt_of_le h.length_lt (Nat.le_of_lt_succ hf))

theorem exhaust_of_advances {a : α} (h : ReflTransGen (Advances step) p q)
    (hd : step q.1 q.2 = .ok (.done a, rest)) : exhaust step p.1 p.2 = .ok (a, rest) :=
  iterate_of_advances h hd _ (Nat.lt_succ_self _)

end Repetition

/-! ## Values without parts -/

theorem startsNumber_of_numberText (h : NumberText t) :
    ∃ c cs, t = c :: cs ∧ startsNumber c = true := by
  cases h with
  | @parts sign whole fraction exponent hs hw =>
    simp only [List.mem_cons, List.not_mem_nil, or_false] at hs
    rcases hs with rfl | rfl
    · cases hw with
      | zero => exact ⟨'0', _, rfl, by decide⟩
      | @digits c ds h hc =>
        refine ⟨c, _, rfl, ?_⟩
        rw [startsNumber, h.isDigit c (List.mem_cons_self ..), Bool.or_true]
    · exact ⟨'-', _, rfl, by decide⟩

theorem not_mem_of_startsNumber {c : Char} {cs : List Char} (hc : startsNumber c = true)
    (h : ∀ d ∈ cs, startsNumber d = false) : c ∉ cs := fun hm => by
  rw [h c hm] at hc
  cases hc

theorem skipScalar_append (h : Scalar t) (hr : Closes rest) :
    ∃ c cs, t = c :: cs ∧ c ∉ [' ', '\t', '\n', '\r', ']', '}', '[', '{'] ∧
      skipScalar c (cs ++ rest) = .ok rest := by
  cases h with
  | word h =>
    simp only [List.mem_cons, List.not_mem_nil, or_false] at h
    rcases h with rfl | rfl | rfl
    · exact ⟨_, _, rfl, by decide, expect_append ['u', 'l', 'l'] rest⟩
    · exact ⟨_, _, rfl, by decide, expect_append ['r', 'u', 'e'] rest⟩
    · exact ⟨_, _, rfl, by decide, expect_append ['a', 'l', 's', 'e'] rest⟩
  | number h =>
    obtain ⟨c, cs, rfl, hc⟩ := startsNumber_of_numberText h
    refine ⟨c, cs, rfl, not_mem_of_startsNumber hc (by decide), ?_⟩
    have hn : c ∉ ['n', 't', 'f', '"'] := not_mem_of_startsNumber hc (by decide)
    simp only [List.mem_cons, List.not_mem_nil, or_false, not_or] at hn
    obtain ⟨hn, ht, hf, hq⟩ := hn
    rw [skipScalar, if_neg hn, if_neg ht, if_neg hf, if_neg hq, if_pos hc,
      ← List.cons_append]
    exact Numeral.skip_numberText h hr
  | string h =>
    obtain ⟨_, @⟨text, cs, h⟩⟩ := h
    refine ⟨'"', _, rfl, by decide, ?_⟩
    rw [List.append_assoc]
    exact StringLiteral.skip_spells h rest

theorem value_head (h : Value t) :
    ∃ c cs, t = c :: cs ∧ c ∉ [' ', '\t', '\n', '\r', ']', '}'] := by
  cases h with
  | scalar h =>
    obtain ⟨c, cs, ht, hc, -⟩ := skipScalar_append h closes_nil
    exact ⟨c, cs, ht, fun hm => hc (List.mem_append_left ['[', '{'] hm)⟩
  | empty k h => exact ⟨k.opening, _, rfl, by cases k <;> decide⟩
  | items k => exact ⟨k.opening, _, rfl, by cases k <;> decide⟩

/-! ## Items -/

theorem skipBlank_key {string : List Char → Prop} (hs : ∀ t, string t → StringText t)
    (h : Key string t) :
    ∃ text b b', string ('"' :: (text ++ ['"'])) ∧ Blank b ∧ Blank b' ∧ b' <:+ t ∧
      ∀ rest, skipBlank (t ++ rest) = '"' :: (text ++ '"' :: (b ++ ':' :: (b' ++ rest))) := by
  cases h with
  | @colon b t b' b'' hb ht hb' hb'' =>
    obtain ⟨_, @⟨text, cs, -⟩⟩ := hs t ht
    refine ⟨text, b', b'', ht, hb', hb'',
      ⟨b ++ ('"' :: (text ++ ['"']) ++ (b' ++ [':'])), by simp⟩, fun rest => ?_⟩
    rw [List.append_assoc, skipBlank_blank hb, List.cons_append, List.cons_append,
      skipBlank_cons (by decide)]
    simp

theorem skip_stringText {text : List Char} (h : StringText ('"' :: (text ++ ['"'])))
    (rest : List Char) : StringLiteral.skip (text ++ '"' :: rest) = .ok rest := by
  obtain ⟨s, h⟩ := h
  generalize ht : '"' :: (text ++ ['"']) = t at h
  obtain @⟨text', cs, h⟩ := h
  obtain rfl : text = text' := by simpa using ht
  exact StringLiteral.skip_spells h rest

theorem skipItemStart_skipBlank (k : Container) (cs : List Char) :
    skipItemStart k (skipBlank cs) = skipItemStart k cs := by
  have h : skipBlank (skipBlank cs) = skipBlank cs := List.dropWhile_idempotent _ cs
  unfold skipItemStart
  rw [h]

theorem skipBlank_item {k : Container} {start v : List Char} (h : ItemStart k start)
    (hv : Value v) (rest : List Char) :
    ∃ c cs, skipBlank (start ++ (v ++ rest)) = c :: cs ∧ c ≠ k.close := by
  cases h with
  | array h =>
    obtain ⟨c, cs, rfl, hc⟩ := value_head hv
    refine ⟨c, cs ++ rest, ?_, fun hm => hc (hm ▸ by decide)⟩
    rw [skipBlank_blank h]
    exact skipBlank_cons (fun hm => hc (List.mem_append_left [']', '}'] hm)) _
  | object h =>
    obtain ⟨text, b, b', -, -, -, -, hk⟩ := skipBlank_key (fun _ => id) h
    exact ⟨'"', _, hk _, by decide⟩

theorem skipItemStart_append {k : Container} {start v : List Char} (h : ItemStart k start)
    (hv : Value v) (rest : List Char) :
    ∃ b, Blank b ∧ b <:+ start ∧
      skipItemStart k (start ++ (v ++ rest)) = .ok (b ++ (v ++ rest)) := by
  cases h with
  | array h =>
    obtain ⟨c, cs, rfl, hc⟩ := value_head hv
    refine ⟨[], by simp [Blank], List.nil_suffix, ?_⟩
    change Except.ok (skipBlank _) = _
    rw [skipBlank_blank h]
    exact congrArg Except.ok (skipBlank_cons (fun hm => hc (List.mem_append_left [']', '}'] hm)) _)
  | object h =>
    obtain ⟨text, b, b', hs, hb, hb', hsuf, hk⟩ := skipBlank_key (fun _ => id) h
    refine ⟨b', hb', hsuf, ?_⟩
    unfold skipItemStart
    rw [hk]
    simp only [↓reduceIte, skip_stringText hs]
    exact punctuation_blank hb (by decide) _

/-! ## Nested values -/

variable {k : Container} {within : List Container}

theorem advances_scalar (h : Scalar t) (hb : Blank b) (hr : Closes rest) :
    Advances skipStep (.value within, b ++ (t ++ rest)) (.behind within, rest) := by
  obtain ⟨c, cs, rfl, hc, hs⟩ := skipScalar_append h hr
  have hblank : c ∉ [' ', '\t', '\n', '\r'] := fun hm =>
    hc (List.mem_append_left [']', '}', '[', '{'] hm)
  have hopen : c ∉ ['[', '{'] := fun hm =>
    hc (List.mem_append_right [' ', '\t', '\n', '\r', ']', '}'] hm)
  simp only [List.mem_cons, List.not_mem_nil, or_false, not_or] at hopen
  constructor
  · simp only [skipStep, List.cons_append, skipBlank_blank hb, skipBlank_cons hblank, hopen,
      ↓reduceIte, hs]
    rfl
  · simp only [List.length_append, List.length_cons]
    omega

theorem skipStep_opening (hb : Blank b) (cs : List Char) :
    skipStep (.value within) (b ++ k.opening :: cs) = skipOpened k within cs := by
  cases k
  all_goals
    simp only [skipStep, skipBlank_blank hb, Container.opening]
    rw [skipBlank_cons (by decide)]
    rfl

theorem advances_empty (hb : Blank b) {b' : List Char} (hb' : Blank b') :
    Advances skipStep (.value within, b ++ (k.opening :: (b' ++ [k.close]) ++ rest))
      (.behind within, rest) := by
  have hk : k.close ∉ [' ', '\t', '\n', '\r'] := by cases k <;> decide
  constructor
  · simp only [List.cons_append, List.append_assoc, List.nil_append, skipStep_opening hb,
      skipOpened, skipBlank_blank hb', skipBlank_cons hk, ↓reduceIte]
  · simp only [List.length_append, List.length_cons]
    omega

theorem advances_close (hb : Blank b) :
    Advances skipStep (.behind (k :: within), b ++ k.close :: rest) (.behind within, rest) := by
  have hk : k.close ∉ [' ', '\t', '\n', '\r'] := by cases k <;> decide
  constructor
  · simp only [skipStep, skipBlank_blank hb, skipBlank_cons hk, ↓reduceIte]
  · simp only [List.length_append, List.length_cons]
    omega

theorem advances_open {i : Item} (hs : ItemStart k i.start) (hv : Value i.value) (hb : Blank b) :
    ∃ b', Blank b' ∧ Advances skipStep (.value within, b ++ k.opening :: (i.text ++ rest))
      (.value (k :: within), b' ++ (i.value ++ (i.after ++ rest))) := by
  obtain ⟨b', hb', hsuf, hi⟩ := skipItemStart_append hs hv (i.after ++ rest)
  obtain ⟨c, cs, hc, hne⟩ := skipBlank_item hs hv (i.after ++ rest)
  have hlen := hsuf.length_le
  refine ⟨b', hb', ?_, ?_⟩
  · simp only [skipStep_opening hb, Item.text, List.append_assoc, skipOpened, hc, hne, ↓reduceIte]
    rw [← hc, skipItemStart_skipBlank, hi]
    rfl
  · simp only [Item.text, List.length_append, List.length_cons]
    omega

theorem advances_comma {i : Item} (hs : ItemStart k i.start) (hv : Value i.value) (hb : Blank b) :
    ∃ b', Blank b' ∧ Advances skipStep (.behind (k :: within), b ++ ',' :: (i.text ++ rest))
      (.value (k :: within), b' ++ (i.value ++ (i.after ++ rest))) := by
  obtain ⟨b', hb', hsuf, hi⟩ := skipItemStart_append hs hv (i.after ++ rest)
  have hlen := hsuf.length_le
  have hne : ',' ≠ k.close := by cases k <;> decide
  refine ⟨b', hb', ?_, ?_⟩
  · simp only [skipStep, skipBlank_blank hb, Item.text, List.append_assoc]
    rw [skipBlank_cons (by decide)]
    simp only [hne, ↓reduceIte, hi]
    rfl
  · simp only [Item.text, List.length_append, List.length_cons]
    omega

/-- Wherever a value is due, the text is passed over as one. -/
def Passed (t : List Char) : Prop :=
  ∀ (within : List Container) (b rest : List Char), Blank b → Closes rest →
    ReflTransGen (Advances skipStep) (.value within, b ++ (t ++ rest)) (.behind within, rest)

theorem closes_items (k : Container) (items : List Item) (rest : List Char) :
    Closes ((items.map Item.text).flatMap (',' :: ·) ++ k.close :: rest) := by
  cases items with
  | nil => exact closes_cons (by cases k <;> decide) _
  | cons i items => exact closes_cons (by decide) _

theorem advances_items (items : List Item) (hs : ∀ i ∈ items, ItemStart k i.start)
    (hv : ∀ i ∈ items, Value i.value) (hp : ∀ i ∈ items, Passed i.value)
    (ha : ∀ i ∈ items, Blank i.after) (hb : Blank b) :
    ReflTransGen (Advances skipStep)
      (.behind (k :: within), b ++ ((items.map Item.text).flatMap (',' :: ·) ++ k.close :: rest))
      (.behind within, rest) := by
  induction items generalizing b with
  | nil => exact .single (advances_close hb)
  | cons i items ih =>
    rw [List.forall_mem_cons] at hs hv hp ha
    simp only [List.map_cons, List.flatMap_cons, List.cons_append, List.append_assoc]
    obtain ⟨b', hb', hcomma⟩ := advances_comma hs.1 hv.1 hb
    have hclose := closes_blank_append ha.1 (closes_items k items rest)
    exact .head hcomma ((hp.1 _ b' _ hb' hclose).trans (ih hs.2 hv.2 hp.2 ha.2 ha.1))

theorem passed_of_value (h : Value t) : Passed t := by
  induction h with
  | scalar h => exact fun within b rest hb hr => .single (advances_scalar h hb hr)
  | empty k h => exact fun within b rest hb hr => .single (advances_empty hb h)
  | @items k items hne hs hv ha ih =>
    intro within b rest hb hr
    -- the first item follows the bracket, every other one a comma
    cases items with
    | nil => exact absurd rfl hne
    | cons i items =>
      rw [List.forall_mem_cons] at hs hv ha ih
      simp only [List.map_cons, commaSeparated, List.cons_append, List.append_assoc,
        List.nil_append]
      obtain ⟨b', hb', hopen⟩ := advances_open hs.1 hv.1 hb
      have hclose := closes_blank_append ha.1 (closes_items k items rest)
      exact .head hopen ((ih.1 _ b' _ hb' hclose).trans
        (advances_items items hs.2 hv.2 ih.2 ha.2 ha.1))

/-- A value of any depth in front of a text is passed over. -/
theorem skipValue_append (h : Value t) (hb : Blank b) (hr : Closes rest) :
    skipValue (b ++ (t ++ rest)) = .ok rest := by
  have he := exhaust_of_advances (passed_of_value h [] b rest hb hr) rfl
  rw [skipValue, he]
  rfl

end ElasticCore.Json
