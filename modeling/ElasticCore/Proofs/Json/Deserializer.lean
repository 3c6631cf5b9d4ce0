import Mathlib.Data.List.Forall2
import ElasticCore.Json.Deserializer
import ElasticCore.Proofs.Json.Grammar

/-! # What a deserializer reads

The behaviour of a deserializer as one law for each kind of value, and what follows for
objects that describe a record: every field is given once, with a text for its value, or
is missing while it holds its default, and whatever other members there are hold values of
any kind. While the members are read, a field holds its value once its key has been seen
and its default before.
-/

namespace ElasticCore.Json

open Grammar

variable {σ α : Type}

/-- Wherever `t` stands, with white space in front and something behind that does not
continue it, it is read as `a`. -/
def Reader.Reads (reader : Reader α) (t : List Char) (a : α) : Prop :=
  ∀ ⦃b rest⦄, Blank b → Closes rest → reader (b ++ (t ++ rest)) = .ok (a, rest)

namespace Grammar

/-- A string of the grammar that a reader takes for `s`. Every one that stands for characters
is valid if the reader behaves as documented (`Deserializer.Documented.validString`). The
grammar also admits escaped surrogates on their own, which are no characters; whether a string
with one is valid is left to the reader, and `streaming` refuses it (`validString_iff`). -/
structure ValidString (string : Reader String) (s : String) (t : List Char) : Prop where
  text : StringText t
  reads : string.Reads t s

/-- A member of an object whose keys matter. -/
structure Member extends Item where
  key : String

/-- The texts of an object with the given members, which say nothing of their values. All
keys are compared with the names of fields, so those that name none have to be valid, too;
strings within a value that is passed over need not be. -/
inductive ObjectText (string : Reader String) : List Member → List Char → Prop
  | empty {b : List Char} (h : Blank b) : ObjectText string [] ('{' :: (b ++ ['}']))
  | members {ms : List Member} (hne : ms ≠ [])
      (hk : ∀ m ∈ ms, Key (ValidString string m.key) m.start) (ha : ∀ m ∈ ms, Blank m.after) :
      ObjectText string ms ('{' :: (commaSeparated (ms.map fun m => m.text) ++ ['}']))

end Grammar

/-- How the members of an object fill a record, from one state of it to another: each
field at most once, and any value under a key that names no field is ignored. -/
inductive Record.Fills (r : Record σ) : List Member → σ → σ → Prop
  | done {s : σ} : Fills r [] s s
  | field {m : Member} {ms : List Member} {f : Field σ} {s s' s'' : σ}
      (hf : r.field? m.key = some f) (hv : (f.read s).Reads m.value s')
      (hn : ∀ m' ∈ ms, m'.key ≠ m.key) (h : Fills r ms s' s'') : Fills r (m :: ms) s s''
  | ignored {m : Member} {ms : List Member} {s s' : σ} (hf : r.field? m.key = none)
      (hv : Value m.value) (h : Fills r ms s s') : Fills r (m :: ms) s s'

/-- The documented behaviour: what each kind of value is read from. -/
structure Deserializer.Documented (d : Deserializer) : Prop where
  /-- A string stands for its characters. -/
  string {t : List Char} {s : String} : Literal Escaped t s → d.string.Reads t s
  boolean (v : Bool) :
    d.boolean.Reads (if v then ['t', 'r', 'u', 'e'] else ['f', 'a', 'l', 's', 'e']) v
  word32 (n : UInt32) : d.word32.Reads (Nat.toDigits 10 n.toNat) n
  word64 (n : UInt64) : d.word64.Reads (Nat.toDigits 10 n.toNat) n
  /-- A choice is given by a string that is one of its names. -/
  choice {α : Type} {ofName? : String → Option α} {known : List String} {a : α} {name : String}
    {t : List Char} : ofName? name = some a → ValidString d.string name t →
    (d.choice ofName? known).Reads t a
  /-- A record starts from its defaults and is filled by the members of an object. -/
  record {σ : Type} {r : Record σ} {s : σ} {ms : List Member} {t : List Char} :
    ObjectText d.string ms t → r.Fills ms r.defaults s → (d.record r).Reads t s
  /-- A text may have white space around its value. -/
  whole {α : Type} {value : Reader α} {a : α} {b t b' : List Char} :
    value.Reads t a → Blank b → Blank b' →
    d.whole value (String.ofList (b ++ (t ++ b'))) = .ok a

namespace Grammar

/-- What an object has to say about one field. -/
structure Clause where
  key : String
  Gives : List Char → Prop
  Omissible : Prop

/-- The members give a field once, or not at all if it may be missing. -/
def Clause.GivenBy (e : Clause) (ms : List Member) : Prop :=
  match ms.filter (·.key = e.key) with
  | [] => e.Omissible
  | [m] => e.Gives m.value
  | _ => False

/-- The objects that give every field and hold any values besides. -/
def Describes (string : Reader String) (clauses : List Clause) (text : List Char) : Prop :=
  ∃ ms, ObjectText string ms text ∧ (∀ e ∈ clauses, e.GivenBy ms) ∧
    ∀ m ∈ ms, m.key ∉ clauses.map Clause.key → Value m.value

/-- The field has been given and the members do not repeat it, or they still give it. -/
def Clause.Awaits (e : Clause) (seen : List String) (ms : List Member) : Prop :=
  if e.key ∈ seen then ∀ m ∈ ms, m.key ≠ e.key else e.GivenBy ms

variable {e : Clause} {m : Member} {ms : List Member} {seen : List String}

theorem Clause.givenBy_cons_of_ne (h : m.key ≠ e.key) :
    e.GivenBy (m :: ms) ↔ e.GivenBy ms := by
  rw [GivenBy, GivenBy, List.filter_cons_of_neg (by simpa using h)]

theorem Clause.givenBy_cons_of_eq (h : m.key = e.key) (hg : e.GivenBy (m :: ms)) :
    e.Gives m.value ∧ ∀ m' ∈ ms, m'.key ≠ e.key := by
  rw [GivenBy, List.filter_cons_of_pos (by simpa using h)] at hg
  cases hf : ms.filter (·.key = e.key) with
  | nil =>
    rw [hf] at hg
    exact ⟨hg, fun m' hm' => by simpa using List.filter_eq_nil_iff.mp hf m' hm'⟩
  | cons m' ms' =>
    rw [hf] at hg
    exact hg.elim

theorem Clause.Awaits.next (ha : e.Awaits seen (m :: ms)) (h : m.key ≠ e.key) :
    e.Awaits seen ms := by
  unfold Awaits at ha ⊢
  split at ha
  · next hs =>
    rw [if_pos hs]
    exact fun m' hm' => ha m' (List.mem_cons_of_mem _ hm')
  · next hs =>
    rw [if_neg hs]
    exact (givenBy_cons_of_ne h).mp ha

theorem Clause.awaits_cons_of_ne {key : String} (h : key ≠ e.key) :
    e.Awaits (key :: seen) ms ↔ e.Awaits seen ms := by
  simp only [Awaits, List.mem_cons, Ne.symm h, false_or]

theorem Clause.Awaits.given (ha : e.Awaits seen (m :: ms)) (h : m.key = e.key) :
    e.Gives m.value ∧ (∀ m' ∈ ms, m'.key ≠ m.key) ∧ e.Awaits (m.key :: seen) ms := by
  unfold Awaits at ha ⊢
  split at ha
  · exact absurd h (ha m (List.mem_cons_self ..))
  · obtain ⟨hv, hms⟩ := givenBy_cons_of_eq h ha
    rw [if_pos (h ▸ List.mem_cons_self ..), h]
    exact ⟨hv, hms, hms⟩

end Grammar

namespace Record

/-- A record whose fields are read from the texts of `clauses` as those of `s`. Once the
keys `seen` have been read, the record is `mix seen`. -/
structure DescribedBy (r : Record σ) (clauses : List Clause) (s : σ) (mix : List String → σ) :
    Prop where
  fields : List.Forall₂ (fun f e => f.key = e.key ∧
    ∀ seen t, e.Gives t → (f.read (mix seen)).Reads t (mix (e.key :: seen))) r.fields clauses
  defaults : mix [] = r.defaults
  complete : ∀ seen, (∀ e ∈ clauses, e.key ∉ seen → e.Omissible) → mix seen = s

variable {r : Record σ} {clauses : List Clause} {s : σ} {mix : List String → σ}
  {ms : List Member} {seen : List String}

theorem find?_of_forall₂ {R : Field σ → Clause → Prop} {fields : List (Field σ)}
    (h : List.Forall₂ (fun f e => f.key = e.key ∧ R f e) fields clauses) (key : String) :
    fields.find? (·.key == key) = none ∧ key ∉ clauses.map Clause.key ∨
      ∃ f e, fields.find? (·.key == key) = some f ∧ e ∈ clauses ∧ key = e.key ∧ R f e := by
  induction h with
  | nil => exact Or.inl ⟨rfl, List.not_mem_nil⟩
  | @cons f e fields clauses hfe _ ih =>
    by_cases hk : f.key = key
    · refine Or.inr ⟨f, e, ?_, List.mem_cons_self .., hk ▸ hfe.1, hfe.2⟩
      rw [List.find?_cons_of_pos (by simpa using hk)]
    · rw [List.find?_cons_of_neg (by simpa using hk), List.map_cons, List.mem_cons, ← hfe.1, not_or]
      rcases ih with ⟨hn, hm⟩ | ⟨f', e', hf, he, hr⟩
      · exact Or.inl ⟨hn, Ne.symm hk, hm⟩
      · exact Or.inr ⟨f', e', hf, List.mem_cons_of_mem _ he, hr⟩

theorem fills_of_awaits (h : r.DescribedBy clauses s mix)
    (hw : ∀ e ∈ clauses, e.Awaits seen ms)
    (hv : ∀ m ∈ ms, m.key ∉ clauses.map Clause.key → Value m.value) :
    r.Fills ms (mix seen) s := by
  induction ms generalizing seen with
  | nil =>
    have hs : mix seen = s := h.complete seen fun e he hs => by
      have ha := hw e he
      rwa [Clause.Awaits, if_neg hs] at ha
    rw [hs]
    exact .done
  | cons m ms ih =>
    obtain ⟨hm, hms⟩ := List.forall_mem_cons.mp hv
    rcases find?_of_forall₂ h.fields m.key with ⟨hf, hnone⟩ | ⟨f, e, hf, he, hke, hread⟩
    · refine .ignored hf (hm hnone) (ih (fun e he => (hw e he).next fun hk => ?_) hms)
      exact hnone (List.mem_map.mpr ⟨e, he, hk.symm⟩)
    · obtain ⟨hgives, hn, -⟩ := (hw e he).given hke
      refine .field hf (hread seen m.value hgives) hn (hke ▸ ih (fun e' he' => ?_) hms)
      by_cases hk : m.key = e'.key
      · exact ((hw e' he').given hk).2.2
      · exact (Clause.awaits_cons_of_ne hk).mpr ((hw e' he').next hk)

end Record

namespace Deserializer.Documented

variable {d : Deserializer} {t : List Char}

theorem validString (hd : d.Documented) {s : String} (h : Literal Escaped t s) :
    ValidString d.string s t :=
  ⟨stringText_of_literal h, hd.string h⟩

theorem key_plain (hd : d.Documented) (cs : List Char)
    (h : ∀ c ∈ cs, ' ' ≤ c ∧ c ≠ '"' ∧ c ≠ '\\') :
    Key (ValidString d.string (String.ofList cs)) ('"' :: (cs ++ ['"', ':'])) := by
  have hs := hd.validString (.quoted (spells_plain cs h))
  simpa using Key.colon blank_nil hs blank_nil blank_nil

/-- A record is read from every object that describes it. -/
theorem reads_of_describes (hd : d.Documented) {r : Record σ} {clauses : List Clause} {s : σ}
    {mix : List String → σ} (h : r.DescribedBy clauses s mix)
    (ht : Describes d.string clauses t) : (d.record r).Reads t s := by
  obtain ⟨ms, ht, hgiven, hv⟩ := ht
  refine hd.record ht (h.defaults ▸ Record.fills_of_awaits h (fun e he => ?_) hv)
  rw [Clause.Awaits, if_neg List.not_mem_nil]
  exact hgiven e he

end Deserializer.Documented

theorem Field.reads_of {reader : Reader α} {t : List Char} {a : α} {key : String}
    {put : α → σ → σ} {s s' : σ} (h : reader.Reads t a) (hp : put a s = s') :
    ((Field.of key reader put).read s).Reads t s' := by
  intro b rest hb hr
  simp only [Field.of, h hb hr, bind, Except.bind, hp]
  rfl

end ElasticCore.Json
