import ElasticCore.Json.Streaming
import ElasticCore.Proofs.Json.Deserializer
import ElasticCore.Proofs.Json.Skipping

/-! # Reading from left to right

The streaming deserializer has the documented behaviour. An object is read member by
member; the fields that have been seen are none of those still to come.
-/

namespace ElasticCore.Json

open Grammar Relation

variable {σ α : Type} {b rest t : List Char}

/-! ## Values of known kinds -/

theorem string_reads {s : String} (h : Literal Escaped t s) : string.Reads t s := by
  intro b rest hb hr
  obtain @⟨text, cs, h⟩ := h
  unfold string
  rw [skipBlank_blank hb, List.cons_append, skipBlank_cons (by decide), List.append_assoc]
  exact StringLiteral.read_spells h rest

theorem read_of_validString {s : String} {text : List Char}
    (h : ValidString string s ('"' :: (text ++ ['"']))) (hr : Closes rest) :
    StringLiteral.read (text ++ '"' :: rest) = .ok (s, rest) := by
  have hread := h.reads blank_nil hr
  unfold string at hread
  rwa [List.nil_append, List.cons_append, skipBlank_cons (by decide), List.append_assoc] at hread

/-- The strings that are read are those whose surrogates come in pairs; every other one is
refused. -/
theorem validString_iff {s : String} : ValidString string s t ↔ Literal Escaped t s := by
  constructor
  · intro h
    obtain ⟨_, @⟨text, cs, -⟩⟩ := h.text
    obtain ⟨text', ds, htext, hs, rfl⟩ :=
      StringLiteral.spells_of_read (read_of_validString h closes_nil)
    obtain rfl : text = text' := by simpa using htext
    exact .quoted hs
  · intro h
    exact ⟨stringText_of_literal h, string_reads h⟩

theorem boolean_reads (v : Bool) :
    boolean.Reads (if v then ['t', 'r', 'u', 'e'] else ['f', 'a', 'l', 's', 'e']) v := by
  intro b rest hb hr
  unfold boolean
  cases v
  all_goals
    simp only [skipBlank_blank hb, Bool.false_eq_true, ↓reduceIte, List.cons_append]
    rw [skipBlank_cons (by decide)]
    rfl

theorem natural_reads {n limit : Nat} (hn : n < limit) (hl : limit ≤ UInt64.size)
    (expected : String) : (natural limit expected).Reads (Nat.toDigits 10 n) n := by
  intro b rest hb hr
  have hread := Number.read_toDigits (Nat.lt_of_lt_of_le hn hl) hr
  have hdigits := Numeral.digits_toDigits n
  cases hd : Nat.toDigits 10 n with
  | nil => exact absurd hd Nat.toDigits_ne_nil
  | cons c ds =>
    rw [hd] at hread hdigits
    have hc : startsNumber c = true := by
      rw [startsNumber, hdigits.isDigit c (List.mem_cons_self ..), Bool.or_true]
    have hblank : c ∉ [' ', '\t', '\n', '\r'] := not_mem_of_startsNumber hc (by decide)
    have hbound : (0 : Int) ≤ n ∧ (n : Int) < limit := by omega
    rw [List.cons_append] at hread
    unfold natural
    simp only [skipBlank_blank hb, List.cons_append, skipBlank_cons hblank, hc, ↓reduceIte, hread,
      bind, Except.bind]
    rw [if_pos hbound]
    rfl

theorem word32_reads (n : UInt32) : word32.Reads (Nat.toDigits 10 n.toNat) n := by
  intro b rest hb hr
  rw [word32, natural_reads n.toNat_lt (by decide) "u32" hb hr]
  simp [bind, Except.bind, pure, Except.pure]

theorem word64_reads (n : UInt64) : word64.Reads (Nat.toDigits 10 n.toNat) n := by
  intro b rest hb hr
  rw [word64, natural_reads n.toNat_lt (Nat.le_refl _) "usize" hb hr]
  simp [bind, Except.bind, pure, Except.pure]

theorem choice_reads {ofName? : String → Option α} {known : List String} {a : α} {name : String}
    (hname : ofName? name = some a) (ht : ValidString string name t) :
    (choice ofName? known).Reads t a := by
  intro b rest hb hr
  obtain ⟨_, @⟨text, cs, -⟩⟩ := ht.text
  have hread := read_of_validString ht hr
  unfold choice
  rw [skipBlank_blank hb, List.cons_append, skipBlank_cons (by decide), List.append_assoc]
  simp only [choiceName, bind, Except.bind, List.singleton_append, hread, hname]
  rfl

/-! ## Records -/

namespace Record

variable {r : Record σ} {p p' : Progress σ} {s s' : σ} {m : Member} {ms : List Member}
  {seen : List String}

/-- Behind the opening quotation mark of its key, the member takes the reading of an object
from `p` to `p'`. -/
def Takes (r : Record σ) (m : Member) (p p' : Progress σ) : Prop :=
  ∀ ⦃cs b b' rest⦄, Blank b → Blank b' → Closes rest →
    StringLiteral.read cs = .ok (m.key, b ++ ':' :: (b' ++ (m.value ++ rest))) →
    r.member p cs = .ok (p', rest)

theorem takes_field {f : Field σ} (hf : r.field? m.key = some f)
    (hv : (f.read p.value).Reads m.value s') (hs : m.key ∉ p.seen) :
    r.Takes m p ⟨s', m.key :: p.seen, true⟩ := by
  intro cs b b' rest hb hb' hr hread
  have hcolon := punctuation_blank hb (by decide : ':' ∉ _) (b' ++ (m.value ++ rest))
  simp only [member, hread, bind, Except.bind, hf, hs, ↓reduceIte, hcolon, hv hb' hr]
  rfl

theorem takes_ignored (hf : r.field? m.key = none) (hv : Value m.value) :
    r.Takes m p { p with started := true } := by
  intro cs b b' rest hb hb' hr hread
  have hcolon := punctuation_blank hb (by decide : ':' ∉ _) (b' ++ (m.value ++ rest))
  simp only [member, hread, bind, Except.bind, hf, hcolon, skipValue_append hv hb' hr]
  rfl

/-- The first member that fills a record is taken, and the others fill what comes of it. -/
theorem Fills.takes (h : r.Fills (m :: ms) s s') (hs : ∀ m' ∈ m :: ms, m'.key ∉ seen)
    (started : Bool) :
    ∃ s'' seen', r.Takes m ⟨s, seen, started⟩ ⟨s'', seen', true⟩ ∧ r.Fills ms s'' s' ∧
      ∀ m' ∈ ms, m'.key ∉ seen' := by
  obtain ⟨hm, hms⟩ := List.forall_mem_cons.mp hs
  cases h with
  | field hf hv hn h =>
    refine ⟨_, _, takes_field hf hv hm, h, fun m' hm' => ?_⟩
    rw [List.mem_cons, not_or]
    exact ⟨hn m' hm', hms m' hm'⟩
  | ignored hf hv h => exact ⟨_, _, takes_ignored hf hv, h, hms⟩

theorem memberStep_close (p : Progress σ) (hb : Blank b) :
    r.memberStep p (b ++ '}' :: rest) = .ok (.done p.value, rest) := by
  simp only [memberStep, skipBlank_blank hb]
  rw [skipBlank_cons (by decide)]
  rfl

theorem closes_members (ms : List Member) (rest : List Char) :
    Closes ((ms.map fun m => m.text).flatMap (',' :: ·) ++ '}' :: rest) := by
  cases ms with
  | nil => exact closes_cons (by decide) _
  | cons m ms => exact closes_cons (by decide) _

theorem length_pos_of_key {string : List Char → Prop} (h : Key string t) : 0 < t.length := by
  cases h
  simp only [List.length_append, List.length_cons]
  omega

/-- What stands in front of a member: nothing if it is the first, else a comma. -/
inductive Lead : Bool → List Char → Prop
  | first : Lead false []
  | comma {b : List Char} (hb : Blank b) : Lead true (b ++ [','])

theorem advances_member {lead : List Char} (hl : Lead p.started lead)
    (hk : Key (ValidString string m.key) m.start) (ha : Blank m.after) (ht : r.Takes m p p')
    (hr : Closes rest) :
    Advances r.memberStep (p, lead ++ (m.text ++ rest)) (p', m.after ++ rest) := by
  obtain ⟨text, b, b', hs, hb, hb', -, hkey⟩ := skipBlank_key (fun _ => ValidString.text) hk
  have hquote := hkey (m.value ++ (m.after ++ rest))
  have hclose : Closes (b ++ ':' :: (b' ++ (m.value ++ (m.after ++ rest)))) :=
    closes_blank_append hb (closes_cons (by decide) _)
  have hmember := ht hb hb' (closes_blank_append ha hr) (read_of_validString hs hclose)
  have htext : m.start ++ (m.value ++ (m.after ++ rest)) = m.text ++ rest := by
    rw [Item.text, List.append_assoc, List.append_assoc]
  rw [htext] at hquote
  generalize text ++ '"' :: (b ++ ':' :: (b' ++ (m.value ++ (m.after ++ rest)))) = behind
    at hmember hquote
  constructor
  · generalize hst : p.started = started at hl
    cases hl with
    | first =>
      have hstart : keyStart ('"' :: behind) = .ok behind := by
        rw [keyStart, punctuation, skipBlank_cons (by decide)]
        exact expect_append ['"'] behind
      simp only [List.nil_append, memberStep, hquote]
      simp only [hst, bind, Except.bind, hstart, hmember]
      rfl
    | @comma b hb =>
      have hstart : keyStart (m.text ++ rest) = .ok behind := by
        rw [keyStart, punctuation, hquote]
        exact expect_append ['"'] behind
      have hcomma : expect [','] (',' :: (m.text ++ rest)) = .ok (m.text ++ rest) :=
        expect_append [','] _
      simp only [List.append_assoc, List.singleton_append, memberStep, skipBlank_blank hb]
      rw [skipBlank_cons (by decide)]
      simp only [hst, bind, Except.bind, ↓reduceIte, hcomma, hstart, hmember]
      rfl
  · have hpos := length_pos_of_key hk
    simp only [Item.text, List.length_append]
    omega

theorem reaches_end (hk : ∀ m ∈ ms, Key (ValidString string m.key) m.start)
    (ha : ∀ m ∈ ms, Blank m.after) (h : r.Fills ms s s') (hs : ∀ m ∈ ms, m.key ∉ seen)
    (hb : Blank b) :
    ∃ seen' b', Blank b' ∧
      ReflTransGen (Advances r.memberStep)
        (⟨s, seen, true⟩, b ++ ((ms.map fun m => m.text).flatMap (',' :: ·) ++ '}' :: rest))
        (⟨s', seen', true⟩, b' ++ '}' :: rest) := by
  induction ms generalizing s seen b with
  | nil =>
    cases h
    exact ⟨seen, b, hb, .refl⟩
  | cons m ms ih =>
    obtain ⟨s'', seen', ht, h', hs'⟩ := h.takes hs true
    rw [List.forall_mem_cons] at hk ha
    obtain ⟨seen'', b'', hb'', hrun⟩ := ih hk.2 ha.2 h' hs' ha.1
    have hstep := advances_member (.comma hb) hk.1 ha.1 ht (closes_members ms rest)
    refine ⟨seen'', b'', hb'', .head ?_ hrun⟩
    simpa using hstep

theorem read_brace (hb : Blank b) (cs : List Char) :
    r.read (b ++ ('{' :: cs ++ rest)) =
      exhaust r.memberStep ⟨r.defaults, [], false⟩ (cs ++ rest) := by
  unfold read
  rw [skipBlank_blank hb, List.cons_append, skipBlank_cons (by decide)]
  rfl

theorem reads_of_fills (ht : ObjectText string ms t) (h : r.Fills ms r.defaults s) :
    r.read.Reads t s := by
  intro b rest hb hr
  cases ht with
  | @empty b' hb' =>
    generalize hs : r.defaults = s₀ at h
    cases h
    rw [read_brace hb, List.append_assoc, hs]
    exact exhaust_of_advances (p := (⟨s, [], false⟩, b' ++ ('}' :: rest))) .refl
      (memberStep_close _ hb')
  | members hne hk ha =>
    cases ms with
    | nil => exact absurd rfl hne
    | cons m ms =>
      obtain ⟨s'', seen, htakes, h', hs⟩ := h.takes (fun _ _ => List.not_mem_nil) false
      rw [List.forall_mem_cons] at hk ha
      have hfirst := advances_member .first hk.1 ha.1 htakes (closes_members ms rest)
      obtain ⟨seen', b', hb', hrun⟩ := reaches_end hk.2 ha.2 h' hs ha.1
      rw [read_brace hb]
      simpa [commaSeparated] using
        exhaust_of_advances (.head hfirst hrun) (memberStep_close _ hb')

end Record

theorem whole_of_reads {value : Reader α} {a : α} {b' : List Char} (h : value.Reads t a)
    (hb : Blank b) (hb' : Blank b') :
    whole value (String.ofList (b ++ (t ++ b'))) = .ok a := by
  have hclose := closes_blank_append hb' closes_nil
  have hblank := skipBlank_blank hb' []
  rw [List.append_nil] at hclose hblank
  rw [whole, String.toList_ofList, h hb hclose]
  change (if (skipBlank b').isEmpty then Except.ok a else Except.error Fault.malformed) = .ok a
  rw [hblank]
  rfl

theorem streaming_documented : streaming.Documented where
  string := string_reads
  boolean := boolean_reads
  word32 := word32_reads
  word64 := word64_reads
  choice := choice_reads
  record := Record.reads_of_fills
  whole := whole_of_reads

end ElasticCore.Json
