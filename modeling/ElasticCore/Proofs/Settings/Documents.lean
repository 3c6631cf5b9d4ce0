import ElasticCore.Proofs.Json.Streaming
import ElasticCore.Settings.Document

/-! # Documents of settings

Which texts describe settings, and that valid settings are loaded from every one of them,
whatever deserializer reads it. A field may be missing where it holds its default, and so
may a section; members may come in any order, and those that name no field may hold
anything.
-/

namespace ElasticCore

open Json Json.Grammar

variable {d : Deserializer}

/-! ## Descriptions -/

def General.clauses (s : General) : List Clause := [
  { key := "trace"
    Gives := (· = (if s.trace then ['t', 'r', 'u', 'e'] else ['f', 'a', 'l', 's', 'e']))
    Omissible := s.trace = false }]

def CacheShape.clauses (s : CacheShape) : List Clause := [
  { key := "data_width"
    Gives := (· = Nat.toDigits 10 s.dataWidth.toNat)
    Omissible := s.dataWidth = 32 },
  { key := "addr_width"
    Gives := (· = Nat.toDigits 10 s.addrWidth.toNat)
    Omissible := s.addrWidth = 5 },
  { key := "num_blocks"
    Gives := (· = Nat.toDigits 10 s.numBlocks.toNat)
    Omissible := s.numBlocks = 8 }]

def PipelineShape.clauses (d : Deserializer) (s : PipelineShape) : List Clause := [
  { key := "stages"
    Gives := (· = Nat.toDigits 10 s.stages.toNat)
    Omissible := s.stages = 1 },
  { key := "isa"
    Gives := fun t => ∃ name ∈ s.isa.names, ValidString d.string name t
    Omissible := s.isa = .base }]

def Settings.clauses (d : Deserializer) (s : Settings) : List Clause := [
  { key := "general"
    Gives := Describes d.string s.general.clauses
    Omissible := s.general = { trace := false } },
  { key := "cache"
    Gives := Describes d.string s.cache.clauses
    Omissible := s.cache = { dataWidth := 32, addrWidth := 5, numBlocks := 8 } },
  { key := "pipeline"
    Gives := Describes d.string (s.pipeline.clauses d)
    Omissible := s.pipeline = { stages := 1, isa := .base } }]

/-- The texts that describe settings: an object that gives them, with white space around. -/
inductive Settings.Document (d : Deserializer) (s : Settings) : List Char → Prop
  | object {b t b' : List Char} (hb : Blank b) (ht : Describes d.string (s.clauses d) t)
      (hb' : Blank b') : Document d s (b ++ (t ++ b'))

/-! ## Sections -/

theorem ite_of_default {α : Type} {a default : α} {p : Prop} [Decidable p]
    (h : ¬ p → a = default) : (if p then a else default) = a := by
  split
  · rfl
  · next hp => exact (h hp).symm

namespace General

variable (s : General)

def reading (seen : List String) : General where
  trace := if "trace" ∈ seen then s.trace else false

theorem describedBy (hd : d.Documented) :
    (record d).DescribedBy s.clauses s s.reading where
  fields := .cons ⟨rfl, fun seen t ht => by
    subst ht
    exact Field.reads_of (hd.boolean s.trace) (by simp [reading])⟩ .nil
  defaults := rfl
  complete seen h := by
    simp only [clauses, List.forall_mem_cons] at h
    obtain ⟨ht, -⟩ := h
    rw [reading, ite_of_default ht]

end General

namespace CacheShape

variable (s : CacheShape)

def reading (seen : List String) : CacheShape where
  dataWidth := if "data_width" ∈ seen then s.dataWidth else 32
  addrWidth := if "addr_width" ∈ seen then s.addrWidth else 5
  numBlocks := if "num_blocks" ∈ seen then s.numBlocks else 8

theorem describedBy (hd : d.Documented) :
    (record d).DescribedBy s.clauses s s.reading where
  fields := by
    refine .cons ⟨rfl, fun seen t ht => ?_⟩ <| .cons ⟨rfl, fun seen t ht => ?_⟩ <|
      .cons ⟨rfl, fun seen t ht => ?_⟩ .nil
    all_goals subst ht
    · exact Field.reads_of (hd.word32 s.dataWidth) (by simp [reading])
    · exact Field.reads_of (hd.word32 s.addrWidth) (by simp [reading])
    · exact Field.reads_of (hd.word64 s.numBlocks) (by simp [reading])
  defaults := rfl
  complete seen h := by
    simp only [clauses, List.forall_mem_cons] at h
    obtain ⟨hd, ha, hn, -⟩ := h
    rw [reading, ite_of_default hd, ite_of_default ha, ite_of_default hn]

end CacheShape

namespace PipelineShape

variable (s : PipelineShape)

def reading (seen : List String) : PipelineShape where
  stages := if "stages" ∈ seen then s.stages else 1
  isa := if "isa" ∈ seen then s.isa else .base

theorem describedBy (hd : d.Documented) :
    (record d).DescribedBy (s.clauses d) s s.reading where
  fields := by
    refine .cons ⟨rfl, fun seen t ht => ?_⟩ <| .cons ⟨rfl, fun seen t ht => ?_⟩ .nil
    · subst ht
      exact Field.reads_of (hd.word64 s.stages) (by simp [reading])
    · obtain ⟨name, hname, ht⟩ := ht
      exact Field.reads_of (hd.choice (Isa.ofName?_of_mem hname) ht) (by simp [reading])
  defaults := rfl
  complete seen h := by
    simp only [clauses, List.forall_mem_cons] at h
    obtain ⟨hs, hi, -⟩ := h
    rw [reading, ite_of_default hs, ite_of_default hi]

end PipelineShape

namespace Settings

variable (s : Settings)

def reading (seen : List String) : Settings where
  general := if "general" ∈ seen then s.general else { trace := false }
  cache := if "cache" ∈ seen then s.cache else { dataWidth := 32, addrWidth := 5, numBlocks := 8 }
  pipeline := if "pipeline" ∈ seen then s.pipeline else { stages := 1, isa := .base }

theorem describedBy (hd : d.Documented) :
    (record d).DescribedBy (s.clauses d) s s.reading where
  fields := by
    refine .cons ⟨rfl, fun seen t ht => ?_⟩ <| .cons ⟨rfl, fun seen t ht => ?_⟩ <|
      .cons ⟨rfl, fun seen t ht => ?_⟩ .nil
    · exact Field.reads_of (hd.reads_of_describes (s.general.describedBy hd) ht) (by simp [reading])
    · exact Field.reads_of (hd.reads_of_describes (s.cache.describedBy hd) ht) (by simp [reading])
    · exact Field.reads_of (hd.reads_of_describes (s.pipeline.describedBy hd) ht)
        (by simp [reading])
  defaults := rfl
  complete seen h := by
    simp only [clauses, List.forall_mem_cons] at h
    obtain ⟨hg, hc, hp, -⟩ := h
    rw [reading, ite_of_default hg, ite_of_default hc, ite_of_default hp]

/-! ## Documents -/

variable {s}

theorem whole_of_document (hd : d.Documented) {text : String} (h : s.Document d text.toList) :
    d.whole (d.record (record d)) text = .ok s := by
  rw [← String.ofList_toList (s := text)]
  generalize text.toList = cs at h
  cases h with
  | object hb ht hb' => exact hd.whole (hd.reads_of_describes (s.describedBy hd) ht) hb hb'

theorem validate_of_load {text : String} (h : load d text = .ok s) : s.validate = .ok () := by
  rw [load] at h
  split at h
  · cases h
  · split at h
    · cases h
    · cases h
      assumption

/-- A deserializer that behaves as documented gives valid settings from every document of
theirs, and any one gives only valid settings from any text. -/
theorem load_of_document (d : Deserializer) :
    (d.Documented → ∀ (s : Settings) (text : String), s.validate = .ok () →
      s.Document d text.toList → load d text = .ok s) ∧
    ∀ (s : Settings) (text : String), load d text = .ok s → s.validate = .ok () := by
  refine ⟨fun hd s text hv ht => ?_, fun s text => validate_of_load⟩
  rw [load, whole_of_document hd ht]
  simp only [hv]

/-- A surrogate on its own is no valid key, not even of a member that names no field. -/
example : ofText "\x7b\"\\uDEAD\":0\x7d" = .error (.document .malformed) := rfl

/-- In the value of such a member it is passed over. -/
example : ofText "\x7b\"x\":\"\\uDEAD\"\x7d" = .ok {} := rfl

/-! ## A document with members out of order -/

def sample : Settings where
  cache := { addrWidth := 10 }
  pipeline := { stages := 3, isa := .zbkb }

/-- A document without a general section and with an unknown member, in which a key is
written with an escape. -/
def sampleText : String :=
  "\x7b\"x\":[\x7b\x7d],\"pipeline\":\x7b\"isa\":\"b\",\"stages\":3\x7d , \"c\\u0061che\":" ++
    "\x7b\"addr_width\":10\x7d\x7d"

def sampleMembers : List Member := [
  ⟨⟨"\"x\":".toList, "[\x7b\x7d]".toList, []⟩, "x"⟩,
  ⟨⟨"\"pipeline\":".toList, "\x7b\"isa\":\"b\",\"stages\":3\x7d".toList, [' ']⟩, "pipeline"⟩,
  ⟨⟨" \"c\\u0061che\":".toList, "\x7b\"addr_width\":10\x7d".toList, []⟩, "cache"⟩]

theorem sample_cache (hd : d.Documented) :
    Describes d.string sample.cache.clauses "\x7b\"addr_width\":10\x7d".toList := by
  refine ⟨[⟨⟨"\"addr_width\":".toList, ['1', '0'], []⟩, "addr_width"⟩],
    .members (by simp) ?_ ?_, ?_, ?_⟩
  · simp only [List.forall_mem_singleton]
    exact hd.key_plain "addr_width".toList (by decide)
  · decide
  · simp only [CacheShape.clauses, List.forall_mem_cons]
    exact ⟨rfl, rfl, rfl, List.forall_mem_nil _⟩
  · simp [CacheShape.clauses]

theorem sample_pipeline (hd : d.Documented) :
    Describes d.string (sample.pipeline.clauses d) "\x7b\"isa\":\"b\",\"stages\":3\x7d".toList := by
  refine ⟨[⟨⟨"\"isa\":".toList, "\"b\"".toList, []⟩, "isa"⟩,
    ⟨⟨"\"stages\":".toList, ['3'], []⟩, "stages"⟩], .members (by simp) ?_ ?_, ?_, ?_⟩
  · simp only [List.forall_mem_cons]
    exact ⟨hd.key_plain "isa".toList (by decide),
      hd.key_plain "stages".toList (by decide), List.forall_mem_nil _⟩
  · decide
  · have hb := hd.validString (.quoted (spells_plain ['b'] (by decide)))
    simp only [PipelineShape.clauses, List.forall_mem_cons]
    exact ⟨rfl, ⟨"b", by decide, hb⟩, List.forall_mem_nil _⟩
  · simp [PipelineShape.clauses]

theorem sample_key (hd : d.Documented) :
    Key (ValidString d.string "cache") " \"c\\u0061che\":".toList := by
  have hu : CodeUnit ['0', '0', '6', '1'] 0x61 :=
    .digits (w := 0) (x := 0) (y := 6) (z := 1) (by decide) (by decide) (by decide) (by decide)
  have ha : Escaped ['0', '0', '6', '1'] 'a' := .basic hu (by decide)
  have hs : Spells Escaped "c\\u0061che".toList "cache".toList :=
    .plain (by decide) (by decide) (by decide)
      (.unicode ha (spells_plain "che".toList (by decide)))
  exact .colon (b := [' ']) (by decide) (hd.validString (.quoted hs)) blank_nil blank_nil

theorem sample_describes (hd : d.Documented) :
    Describes d.string (sample.clauses d) sampleText.toList := by
  have ht : sampleText.toList =
      '{' :: (commaSeparated (sampleMembers.map fun m => m.text) ++ ['}']) := by decide +kernel
  rw [ht]
  refine ⟨sampleMembers, .members (List.cons_ne_nil _ _) ?_ ?_, ?_, ?_⟩
  · simp only [sampleMembers, List.forall_mem_cons]
    exact ⟨hd.key_plain ['x'] (by decide), hd.key_plain "pipeline".toList (by decide),
      sample_key hd, List.forall_mem_nil _⟩
  · decide
  · simp only [clauses, List.forall_mem_cons]
    exact ⟨rfl, sample_cache hd, sample_pipeline hd, List.forall_mem_nil _⟩
  · simp only [sampleMembers, List.forall_mem_cons]
    refine ⟨fun _ => ?_, fun h => absurd (by simp [clauses]) h,
      fun h => absurd (by simp [clauses]) h, List.forall_mem_nil _⟩
    have hi : Value
        ('[' :: (commaSeparated ([⟨[], "\x7b\x7d".toList, []⟩].map Item.text) ++ [']'])) :=
      .items .array (by simp) (by simpa using .array blank_nil)
        (by simpa using .empty .object blank_nil) (by decide)
    exact hi

theorem sample_document (hd : d.Documented) : sample.Document d sampleText.toList := by
  have h := Document.object blank_nil (sample_describes hd) blank_nil
  rwa [List.nil_append, List.append_nil] at h

theorem load_of_document_sample :
    streaming.Documented ∧ sample.Document streaming sampleText.toList ∧
      ofText sampleText = .ok sample ∧ sample.validate = .ok () :=
  have hd := streaming_documented
  have h := (load_of_document streaming).1 hd sample sampleText rfl (sample_document hd)
  ⟨hd, sample_document hd, h, (load_of_document streaming).2 sample sampleText h⟩

end Settings

end ElasticCore
