import ElasticCore.BuildError
import ElasticCore.Proofs.Json.Grammar

/-! # Reading literals

A string or a number in front of a text is read as what it stands for, and what follows it
is left. A number ends where the text behind it could not continue it.
-/

namespace ElasticCore.Json

open Grammar

variable {b rest : List Char}

/-! ## White space -/

theorem isBlank_iff {c : Char} : isBlank c = true ↔ c ∈ [' ', '\t', '\n', '\r'] := by
  simp [isBlank, or_assoc]

theorem skipBlank_blank (hb : Blank b) (cs : List Char) : skipBlank (b ++ cs) = skipBlank cs :=
  skipBlank_append (fun c hc => isBlank_iff.mpr (hb c hc)) cs

theorem skipBlank_cons {c : Char} (hc : c ∉ [' ', '\t', '\n', '\r']) (cs : List Char) :
    skipBlank (c :: cs) = c :: cs :=
  List.dropWhile_cons_of_neg (fun h => hc (isBlank_iff.mp h))

theorem punctuation_blank (hb : Blank b) {c : Char} (hc : c ∉ [' ', '\t', '\n', '\r'])
    (cs : List Char) : punctuation c (b ++ c :: cs) = .ok cs := by
  rw [punctuation, skipBlank_blank hb, skipBlank_cons hc]
  exact expect_append [c] cs

/-! ## Strings -/

namespace StringLiteral

theorem hexDigit?_of_mem : ∀ d ∈ hexDigits, hexDigit? d.1 = some d.2 := by
  decide

theorem length_of_codeUnit {u : List Char} {n : Nat} (h : CodeUnit u n) : u.length = 4 := by
  cases h
  rfl

theorem codeUnit_append {u : List Char} {n : Nat} (h : CodeUnit u n) (rest : List Char) :
    codeUnit (u ++ rest) = .ok n := by
  cases h with
  | @digits a b c d w x y z ha hb hc hd =>
    -- the reader asks for four bytes, and every character takes at least one
    have hsize : ¬ (([a, b, c, d].map Char.utf8Size).sum < 4) := by
      have := a.utf8Size_pos
      have := b.utf8Size_pos
      have := c.utf8Size_pos
      have := d.utf8Size_pos
      simp only [List.map_cons, List.map_nil, List.sum_cons, List.sum_nil]
      omega
    have hfront : ([a, b, c, d] ++ rest).take 4 = [a, b, c, d] := rfl
    simp only [codeUnit, hfront]
    rw [if_neg hsize]
    simp only [List.map_cons, List.map_nil, hexDigit?_of_mem _ ha, hexDigit?_of_mem _ hb,
      hexDigit?_of_mem _ hc, hexDigit?_of_mem _ hd]
    congr 1
    omega

theorem anyUnicodeEscape_append {e : List Char} {c : Char} (h : AnyUnit e c) (rest : List Char) :
    anyUnicodeEscape (e ++ rest) = .ok (c, e.length) := by
  cases h with
  | digits h =>
    rw [anyUnicodeEscape, codeUnit_append h, length_of_codeUnit h]
    rfl

theorem unicodeEscape_append {e : List Char} {c : Char} (h : Escaped e c) (rest : List Char) :
    unicodeEscape (e ++ rest) = .ok (c, e.length) := by
  cases h with
  | @basic u n h hn =>
    have ht : isTrailing n = false := by simp [isTrailing]; omega
    have hl : isLeading n = false := by simp [isLeading]; omega
    rw [unicodeEscape, codeUnit_append h, length_of_codeUnit h]
    simp only [bind, Except.bind, ht, hl, Bool.false_eq_true, ↓reduceIte]
    rfl
  | @surrogates u v m n hu hm hv hn =>
    have ht : isTrailing (0xD800 + m) = false := by simp [isTrailing]; omega
    have hl : isLeading (0xD800 + m) = true := by simp [isLeading]; omega
    have ht' : isTrailing (0xDC00 + n) = true := by simp [isTrailing]; omega
    have hdrop : (u ++ '\\' :: 'u' :: v ++ rest).drop 4 = ['\\', 'u'] ++ (v ++ rest) := by
      rw [← length_of_codeUnit hu, List.append_assoc, List.drop_left]
      rfl
    have hlen : (u ++ '\\' :: 'u' :: v).length = 10 := by
      simp [length_of_codeUnit hu, length_of_codeUnit hv]
    have hpoint : (0xD800 + m - 0xD800) * 0x400 + (0xDC00 + n - 0xDC00) + 0x10000 =
        0x10000 + m * 0x400 + n := by omega
    rw [unicodeEscape, hdrop, hlen, expect_append, List.append_assoc, codeUnit_append hu]
    simp only [bind, Except.bind, ht, hl, Bool.false_eq_true, ↓reduceIte, codeUnit_append hv, ht',
      hpoint]
    rfl

variable {unicode : List Char → Char → Prop} {readUnicode : List Char → Except Fault (Char × Nat)}
  {text cs ds : List Char}

theorem body_taken (e cs : List Char) :
    body readUnicode e.length (e ++ cs) = body readUnicode 0 cs := by
  induction e with
  | nil => rfl
  | cons c e ih => rw [List.length_cons, List.cons_append, body, ih]

theorem letterEscapes_lookup :
    ∀ p ∈ letterEscapes, p.1 ≠ 'u' ∧ letterEscapes.lookup p.1 = some p.2 := by
  decide

theorem body_backslash {e : List Char} {c : Char} {rest : List Char}
    (h : escape readUnicode (e ++ rest) = .ok (c, e.length)) :
    body readUnicode 0 ('\\' :: (e ++ rest)) = do
      let (cs, rest) ← body readUnicode 0 rest
      return (c :: cs, rest) := by
  rw [body, if_neg (by decide), if_pos rfl, h]
  change (do let (cs, rest) ← body readUnicode e.length (e ++ rest); return (c :: cs, rest)) = _
  rw [body_taken]

/-- A string is read to its end if every escape is. -/
theorem body_spells
    (hu : ∀ {e c}, unicode e c → ∀ rest, readUnicode (e ++ rest) = .ok (c, e.length))
    (h : Spells unicode text cs) (rest : List Char) :
    body readUnicode 0 (text ++ '"' :: rest) = .ok (cs, rest) := by
  induction h with
  | nil => rfl
  | plain hc hq hb h ih =>
    have hc' : ¬ (_ < ' ') := Char.not_lt.mpr hc
    simp only [List.cons_append, body, hq, hb, hc', ↓reduceIte, ih]
    rfl
  | @letter l c text cs hl h ih =>
    have hread : escape readUnicode ([l] ++ (text ++ '"' :: rest)) = .ok (c, 1) := by
      rw [List.singleton_append, escape, if_neg (letterEscapes_lookup _ hl).1,
        (letterEscapes_lookup _ hl).2]
    refine (body_backslash hread).trans ?_
    rw [ih]
    rfl
  | @unicode e c text cs he h ih =>
    have hread :
        escape readUnicode ('u' :: e ++ (text ++ '"' :: rest)) = .ok (c, e.length + 1) := by
      rw [List.cons_append, escape, if_pos rfl, hu he]
      rfl
    rw [List.cons_append, List.cons_append, List.append_assoc]
    refine (body_backslash hread).trans ?_
    rw [ih]
    rfl

theorem read_spells (h : Spells Escaped text cs) (rest : List Char) :
    read (text ++ '"' :: rest) = .ok (String.ofList cs, rest) := by
  rw [read, body_spells unicodeEscape_append h]
  rfl

theorem skip_spells (h : Spells AnyUnit text cs) (rest : List Char) :
    skip (text ++ '"' :: rest) = .ok rest := by
  rw [skip, body_spells anyUnicodeEscape_append h]
  rfl

/-! Conversely, whatever is read as a string spells it. -/

theorem mem_of_hexDigit? {c : Char} {n : Nat} (h : hexDigit? c = some n) : (c, n) ∈ hexDigits := by
  have hall : ∀ k < 103, ∀ n ∈ hexDigit? (Char.ofNat k), (Char.ofNat k, n) ∈ hexDigits := by
    decide
  have hc : c.toNat < 103 := by
    unfold hexDigit? at h
    split at h
    · next hd =>
      exact Nat.lt_of_le_of_lt (Char.isDigit_iff_toNat.mp hd).2 (by decide)
    · split at h
      · next hd => exact Nat.lt_succ_of_le (Char.le_def.mp hd.2)
      · split at h
        · next hd => exact Nat.lt_of_le_of_lt (Char.le_def.mp hd.2) (by decide)
        · cases h
  have hn := hall c.toNat hc n
  rw [Char.ofNat_toNat] at hn
  exact hn h

theorem isLeading_iff {n : Nat} : isLeading n = true ↔ 0xD800 ≤ n ∧ n < 0xDC00 := by
  simp [isLeading]

theorem isTrailing_iff {n : Nat} : isTrailing n = true ↔ 0xDC00 ≤ n ∧ n < 0xE000 := by
  simp [isTrailing]

theorem codeUnit_eq_ok {cs : List Char} {n : Nat} (h : codeUnit cs = .ok n) :
    CodeUnit (cs.take 4) n := by
  simp only [codeUnit] at h
  split at h
  · cases h
  · split at h
    · next w x y z hf =>
      simp only [List.map_eq_cons_iff, List.map_eq_nil_iff] at hf
      obtain ⟨a, _, ht, ha, b, _, rfl, hb, c, _, rfl, hc, d, _, rfl, hd, rfl⟩ := hf
      cases h
      have hn : ((w * 16 + x) * 16 + y) * 16 + z = 4096 * w + 256 * x + 16 * y + z := by omega
      rw [ht, hn]
      exact .digits (mem_of_hexDigit? ha) (mem_of_hexDigit? hb) (mem_of_hexDigit? hc)
        (mem_of_hexDigit? hd)
    · cases h

theorem expect_eq_ok {word cs rest : List Char} (h : expect word cs = .ok rest) :
    cs = word ++ rest := by
  induction word generalizing cs with
  | nil => exact Except.ok.inj h
  | cons w word ih =>
    cases cs with
    | nil => cases h
    | cons c cs =>
      rw [expect] at h
      split at h
      · next hc => rw [hc, ih h, List.cons_append]
      · cases h

theorem unicodeEscape_eq_ok {cs : List Char} {c : Char} {n : Nat}
    (h : unicodeEscape cs = .ok (c, n)) : Escaped (cs.take n) c := by
  obtain ⟨unit, hu, h⟩ := bind_eq_ok_iff.mp h
  have hunit := codeUnit_eq_ok hu
  split at h
  · cases h
  next ht =>
  split at h
  · next hl =>
    obtain ⟨behind, he, h⟩ := bind_eq_ok_iff.mp h
    obtain ⟨low, hv, h⟩ := bind_eq_ok_iff.mp h
    have hlow := codeUnit_eq_ok hv
    split at h
    · next hlt =>
      obtain ⟨rfl, rfl⟩ := Prod.mk.inj (Except.ok.inj h)
      rw [isLeading_iff] at hl
      rw [isTrailing_iff] at hlt
      obtain ⟨x, rfl⟩ := Nat.exists_eq_add_of_le hl.1
      obtain ⟨y, rfl⟩ := Nat.exists_eq_add_of_le hlt.1
      have hcs : cs.take 10 = cs.take 4 ++ '\\' :: 'u' :: behind.take 4 := by
        rw [List.take_add (i := 4) (j := 6), expect_eq_ok he]
        rfl
      have hpoint : (0xD800 + x - 0xD800) * 0x400 + (0xDC00 + y - 0xDC00) + 0x10000 =
          0x10000 + x * 0x400 + y := by omega
      rw [hcs, hpoint]
      exact .surrogates hunit (by omega) hlow (by omega)
    · cases h
  · next hl =>
    cases h
    rw [isTrailing_iff] at ht
    rw [isLeading_iff] at hl
    exact .basic hunit (by omega)

theorem letterEscapes_of_lookup {l c : Char} (h : letterEscapes.lookup l = some c) :
    (l, c) ∈ letterEscapes := by
  obtain ⟨l₁, l₂, hl, -⟩ := List.lookup_eq_some_iff.mp h
  rw [hl]
  exact List.mem_append_right _ (List.mem_cons_self ..)

theorem spells_of_escape {d : Char} {n : Nat} (h : escape unicodeEscape cs = .ok (d, n))
    (ht : Spells Escaped text ds) : Spells Escaped ('\\' :: (cs.take n ++ text)) (d :: ds) := by
  cases cs with
  | nil => cases h
  | cons l cs =>
    rw [escape] at h
    split at h
    · next hl =>
      obtain ⟨r, hr, h⟩ := bind_eq_ok_iff.mp h
      obtain ⟨rfl, rfl⟩ := Prod.mk.inj (Except.ok.inj h)
      rw [hl, List.take_succ_cons]
      exact .unicode (unicodeEscape_eq_ok hr) ht
    · split at h
      · next hl =>
        obtain ⟨rfl, rfl⟩ := Prod.mk.inj (Except.ok.inj h)
        exact .letter (letterEscapes_of_lookup hl) ht
      · cases h

theorem spells_of_body {n : Nat} {rest : List Char}
    (h : body unicodeEscape n cs = .ok (ds, rest)) :
    ∃ text, cs.drop n = text ++ '"' :: rest ∧ Spells Escaped text ds := by
  induction cs generalizing n ds with
  | nil => cases n <;> cases h
  | cons c cs ih =>
    cases n with
    | succ n => exact ih h
    | zero =>
      rw [body] at h
      split at h
      · next hc =>
        cases h
        exact ⟨[], by rw [hc]; rfl, .nil⟩
      next hc =>
      split at h
      · next hb =>
        obtain ⟨r, he, h⟩ := bind_eq_ok_iff.mp h
        obtain ⟨q, hr, h⟩ := bind_eq_ok_iff.mp h
        cases h
        obtain ⟨text, hd, ht⟩ := ih hr
        refine ⟨_, ?_, spells_of_escape he ht⟩
        rw [hb, List.drop_zero, List.cons_append, List.append_assoc, ← hd, List.take_append_drop]
      next hb =>
      split at h
      · cases h
      next hs =>
      obtain ⟨q, hr, h⟩ := bind_eq_ok_iff.mp h
      cases h
      obtain ⟨text, hd, ht⟩ := ih hr
      refine ⟨c :: text, ?_, .plain (Char.not_lt.mp hs) hc hb ht⟩
      rw [List.drop_zero, List.cons_append, ← hd, List.drop_zero]

/-- What is read as a string has the surrogates among its escapes in pairs. -/
theorem spells_of_read {s : String} {rest : List Char} (h : read cs = .ok (s, rest)) :
    ∃ text ds, cs = text ++ '"' :: rest ∧ Spells Escaped text ds ∧ s = String.ofList ds := by
  obtain ⟨q, hr, h⟩ := bind_eq_ok_iff.mp h
  cases h
  obtain ⟨text, hd, ht⟩ := spells_of_body hr
  exact ⟨text, q.1, hd, ht, rfl⟩

end StringLiteral

/-! ## Numbers -/

def NoDigit (cs : List Char) : Prop := ∀ c ∈ cs.head?, c.isDigit = false

namespace Numeral

def digitValue (c : Char) : Nat := c.toNat - '0'.toNat

variable {ds : List Char}

theorem isDigit_head {c : Char} {cs : List Char} (hd : Digits ds) (h : ds ++ rest = c :: cs) :
    c.isDigit = true := by
  cases ds with
  | nil => exact absurd rfl hd.ne_nil
  | cons d ds =>
    cases h
    exact hd.isDigit c (List.mem_cons_self ..)

theorem digits_append (hd : ∀ c ∈ ds, c.isDigit = true) (hr : NoDigit rest) :
    digits (ds ++ rest) = (ds.map digitValue, rest) := by
  have ht : (ds ++ rest).takeWhile Char.isDigit = ds := by
    rw [List.takeWhile_append_of_pos hd]
    cases rest with
    | nil => simp
    | cons c rest => simp [hr c rfl]
  have hw : (ds ++ rest).dropWhile Char.isDigit = rest := by
    rw [List.dropWhile_append_of_pos hd]
    cases rest with
    | nil => rfl
    | cons c rest => simp [hr c rfl]
  rw [digits, ht, hw]
  rfl

theorem someDigits_append (hd : Digits ds) (hr : NoDigit rest) :
    someDigits (ds ++ rest) = .ok (ds.map digitValue, rest) := by
  rw [someDigits, digits_append hd.isDigit hr]
  cases ds with
  | nil => exact absurd rfl hd.ne_nil
  | cons d ds => rfl

theorem digitValue_ne_zero {c : Char} (hc : c.isDigit = true) (h : c ≠ '0') :
    digitValue c ≠ 0 := by
  have hb : 48 ≤ c.toNat := (Char.isDigit_iff_toNat.mp hc).1
  intro h0
  have : c.toNat = '0'.toNat := by
    rw [digitValue] at h0
    exact Nat.le_antisymm (Nat.le_of_sub_eq_zero h0) hb
  exact h (Char.toNat_inj.mp this)

theorem digits_of_whole (h : Whole ds) : Digits ds := by
  cases h with
  | zero => exact ⟨by decide, by decide⟩
  | digits h hc => exact h

theorem readWhole_append (h : Whole ds) (hr : NoDigit rest) :
    readWhole (ds ++ rest) = .ok (ds.map digitValue, rest) := by
  rw [readWhole, someDigits_append (digits_of_whole h) hr]
  cases h with
  | zero => rfl
  | @digits c ds h hc =>
    have h0 := digitValue_ne_zero (h.isDigit c (List.mem_cons_self ..)) hc
    obtain ⟨k, hk⟩ := Nat.exists_eq_succ_of_ne_zero h0
    rw [List.map_cons, hk]
    rfl

theorem readFraction_absent (hp : '.' ∉ rest.head?) : readFraction rest = .ok (none, rest) := by
  unfold readFraction
  split
  · exact absurd rfl hp
  · rfl

theorem readFraction_append {t : List Char} (h : Fraction t) (hr : NoDigit rest)
    (hp : '.' ∉ rest.head?) : ∃ f, readFraction (t ++ rest) = .ok (f, rest) := by
  cases h with
  | absent => exact ⟨none, readFraction_absent hp⟩
  | @point ds h =>
    refine ⟨some (ds.map digitValue), ?_⟩
    rw [List.cons_append, readFraction, someDigits_append h hr]
    rfl

theorem readExponent_absent (hp : ∀ c ∈ rest.head?, c ∉ ['e', 'E']) :
    readExponent rest = .ok (none, rest) := by
  cases rest with
  | nil => rfl
  | cons c rest =>
    have hc := hp c rfl
    rw [List.mem_cons, List.mem_singleton] at hc
    rw [readExponent, if_neg hc]

theorem exponentSign_append {sign : List Char} (hs : sign ∈ [[], ['+'], ['-']]) (hd : Digits ds)
    (rest : List Char) :
    ∃ negative, exponentSign (sign ++ (ds ++ rest)) = (negative, ds ++ rest) := by
  simp only [List.mem_cons, List.not_mem_nil, or_false] at hs
  rcases hs with rfl | rfl | rfl
  · refine ⟨false, ?_⟩
    rw [List.nil_append]
    unfold exponentSign
    split
    case h_1 h => exact absurd (isDigit_head hd h) (by decide)
    case h_2 h => exact absurd (isDigit_head hd h) (by decide)
    case h_3 => rfl
  · exact ⟨false, rfl⟩
  · exact ⟨true, rfl⟩

theorem readExponent_append {t : List Char} (h : Exponent t) (hr : NoDigit rest)
    (hp : ∀ c ∈ rest.head?, c ∉ ['e', 'E']) : ∃ e, readExponent (t ++ rest) = .ok (e, rest) := by
  cases h with
  | absent => exact ⟨none, readExponent_absent hp⟩
  | @power c sign ds hc hs h =>
    obtain ⟨negative, hsign⟩ := exponentSign_append hs h rest
    rw [List.mem_cons, List.mem_singleton] at hc
    let n := decimal (ds.map digitValue)
    refine ⟨some (if negative then -(n : Int) else n), ?_⟩
    rw [List.cons_append, List.append_assoc, readExponent, if_pos hc, hsign]
    simp only [bind, Except.bind, someDigits_append h hr]
    rfl

theorem read_append {sign whole after after' : List Char} {f : Option (List Nat)} {e : Option Int}
    (hs : sign ∈ [[], ['-']]) (hw : Whole whole) (hr : NoDigit after)
    (hf : readFraction after = .ok (f, after')) (he : readExponent after' = .ok (e, rest)) :
    read (sign ++ (whole ++ after)) = .ok (⟨!sign.isEmpty, whole.map digitValue, f, e⟩, rest) := by
  simp only [List.mem_cons, List.not_mem_nil, or_false] at hs
  rcases hs with rfl | rfl
  · rw [List.nil_append]
    unfold read
    split
    next h =>
      split at h
      next h' => exact absurd (isDigit_head (digits_of_whole hw) h') (by decide)
      next =>
        cases h
        simp only [bind, Except.bind, readWhole_append hw hr, hf, he]
        rfl
  · rw [List.cons_append, List.nil_append, read]
    simp only [bind, Except.bind, readWhole_append hw hr, hf, he]
    rfl

end Numeral

/-! ## The end of a value -/

theorem closes_nil : Closes [] := fun _ h => nomatch h

theorem closes_cons {c : Char} (hc : c ∈ [' ', '\t', '\n', '\r', ',', ':', ']', '}'])
    (rest : List Char) : Closes (c :: rest) := by
  rintro d hd
  cases hd
  exact hc

theorem closes_blank_append (hb : Blank b) (hr : Closes rest) : Closes (b ++ rest) := by
  cases b with
  | nil => exact hr
  | cons c b =>
    have hc : c ∈ [' ', '\t', '\n', '\r'] ++ [',', ':', ']', '}'] :=
      List.mem_append_left _ (hb c (List.mem_cons_self ..))
    exact closes_cons hc _

variable {P : Char → Prop}

theorem Grammar.Closes.head (h : Closes rest)
    (hP : ∀ c ∈ [' ', '\t', '\n', '\r', ',', ':', ']', '}'], P c) : ∀ c ∈ rest.head?, P c :=
  fun c hc => hP c (h c hc)

namespace Numeral

variable {t : List Char}

theorem head_exponent_append (h : Exponent t) (hP : ∀ c ∈ ['e', 'E'], P c)
    (hr : ∀ c ∈ rest.head?, P c) : ∀ c ∈ (t ++ rest).head?, P c := by
  cases h with
  | absent => exact hr
  | power hc =>
    rintro d hd
    cases hd
    exact hP _ hc

theorem head_fraction_append (h : Fraction t) (hP : P '.')
    (hr : ∀ c ∈ rest.head?, P c) : ∀ c ∈ (t ++ rest).head?, P c := by
  cases h with
  | absent => exact hr
  | point h =>
    rintro d hd
    cases hd
    exact hP

theorem skip_numberText (h : NumberText t) (hr : Closes rest) : skip (t ++ rest) = .ok rest := by
  cases h with
  | @parts sign whole fraction exponent hs hw hf he =>
    have hd : NoDigit (exponent ++ rest) :=
      head_exponent_append he (by decide) (hr.head (by decide))
    have hd' : NoDigit (fraction ++ (exponent ++ rest)) := head_fraction_append hf (by decide) hd
    have hp : ∀ c ∈ (exponent ++ rest).head?, c ≠ '.' :=
      head_exponent_append he (by decide) (hr.head (by decide))
    obtain ⟨f, hf⟩ := readFraction_append hf hd (fun h => hp _ h rfl)
    obtain ⟨e, he⟩ := readExponent_append he (hr.head (by decide)) (hr.head (by decide))
    rw [skip, List.append_assoc, List.append_assoc, List.append_assoc, read_append hs hw hd' hf he]

/-! ## Integers -/

-- the digits taken so far are bounded by the whole number, so none of them is dropped
theorem le_foldl : ∀ (ds : List Nat) (s : Nat), s ≤ ds.foldl (fun n d => n * 10 + d) s
  | [], s => Nat.le_refl s
  | d :: ds, s => Nat.le_trans (by omega) (le_foldl ds (s * 10 + d))

theorem absorb_of_lt : ∀ (ds : List Nat) (s : Nat), ds.foldl (fun n d => n * 10 + d) s < UInt64.size →
    absorb s ds = (ds.foldl (fun n d => n * 10 + d) s, ds.length)
  | [], s, _ => rfl
  | d :: ds, s, h => by
    rw [List.foldl_cons] at h ⊢
    have hs : s * 10 + d < UInt64.size := Nat.lt_of_le_of_lt (le_foldl ds _) h
    simp only [absorb, hs, ↓reduceIte, absorb_of_lt ds _ h, List.length_cons]

theorem decimal_toDigits (n : Nat) : decimal ((Nat.toDigits 10 n).map digitValue) = n := by
  rw [decimal, List.foldl_map]
  simpa only [Nat.ofDigitChars_eq_foldl, Nat.mul_comm 10, digitValue] using
    Nat.ofDigitChars_ten_toDigits (n := n)

theorem head_toDigits {n : Nat} (hn : 0 < n) : '0' ∉ (Nat.toDigits 10 n).head? := by
  induction n using Nat.strongRecOn with
  | ind n ih =>
    rcases Nat.lt_or_ge n 10 with h | h
    · rw [Nat.toDigits_of_lt_base h]
      simpa using Nat.ne_of_gt hn
    · have hd := ih (n / 10) (by omega) (by omega)
      rw [Nat.toDigits_of_base_le (by decide) h]
      cases hq : Nat.toDigits 10 (n / 10) with
      | nil => exact absurd hq Nat.toDigits_ne_nil
      | cons c ds => rwa [hq] at hd

theorem digits_toDigits (n : Nat) : Digits (Nat.toDigits 10 n) :=
  ⟨Nat.toDigits_ne_nil, fun _ hc => Nat.isDigit_of_mem_toDigits (by decide) (by decide) hc⟩

theorem whole_toDigits (n : Nat) : Whole (Nat.toDigits 10 n) := by
  rcases Nat.eq_zero_or_pos n with rfl | hn
  · exact .zero
  · have h := digits_toDigits n
    have h0 := head_toDigits hn
    cases hd : Nat.toDigits 10 n with
    | nil => exact absurd hd Nat.toDigits_ne_nil
    | cons c ds =>
      rw [hd] at h h0
      exact .digits h fun hc => h0 (by rw [hc]; rfl)

theorem value_toDigits {n : Nat} (hn : n < UInt64.size) :
    value ⟨false, (Nat.toDigits 10 n).map digitValue, none, none⟩ = .ok (.integer n) := by
  have hd := decimal_toDigits n
  rw [decimal] at hd
  simp only [value, absorb_of_lt _ 0 (hd.symm ▸ hn), hd]
  simp

end Numeral

theorem Number.read_toDigits {n : Nat} (hn : n < UInt64.size) (hr : Closes rest) :
    Number.read (Nat.toDigits 10 n ++ rest) = .ok (.integer n, rest) := by
  have hp : '.' ∉ rest.head? := fun h => absurd rfl (hr.head (P := (· ≠ '.')) (by decide) _ h)
  have h := Numeral.read_append (List.mem_cons_self ..) (Numeral.whole_toDigits n)
    (hr.head (by decide)) (Numeral.readFraction_absent hp)
    (Numeral.readExponent_absent (hr.head (by decide)))
  rw [List.nil_append] at h
  rw [read, h]
  change (do let a ← Numeral.value ⟨false, _, none, none⟩; return (a, rest)) = _
  rw [Numeral.value_toDigits hn]
  rfl

end ElasticCore.Json
