import ElasticCore.Json.Value

/-! # The grammar of documents

Which texts are JSON, apart from any way of reading them. White space may stand around
every token. A string that stands for characters has the surrogates among its escapes in
pairs, but the grammar lets them stand alone.
-/

namespace ElasticCore.Json

def Container.opening : Container → Char
  | array => '['
  | object => '{'

/-- What holds of every element of a list is decided along the list, also where the type of
the elements could be searched as a whole. -/
scoped instance (priority := 2000) decidableForallMem {α : Type} {P : α → Prop} [DecidablePred P]
    (l : List α) : Decidable (∀ x ∈ l, P x) :=
  List.decidableBAll P l

namespace Grammar

def Blank (cs : List Char) : Prop := ∀ c ∈ cs, c ∈ [' ', '\t', '\n', '\r']

instance (cs : List Char) : Decidable (Blank cs) :=
  inferInstanceAs (Decidable (∀ c ∈ cs, c ∈ [' ', '\t', '\n', '\r']))

/-! ## Strings -/

def hexDigits : List (Char × Nat) :=
  [('0', 0), ('1', 1), ('2', 2), ('3', 3), ('4', 4), ('5', 5), ('6', 6), ('7', 7), ('8', 8),
    ('9', 9), ('a', 10), ('b', 11), ('c', 12), ('d', 13), ('e', 14), ('f', 15), ('A', 10),
    ('B', 11), ('C', 12), ('D', 13), ('E', 14), ('F', 15)]

/-- Four hexadecimal digits and their number. -/
inductive CodeUnit : List Char → Nat → Prop
  | digits {a b c d : Char} {w x y z : Nat} (ha : (a, w) ∈ hexDigits) (hb : (b, x) ∈ hexDigits)
      (hc : (c, y) ∈ hexDigits) (hd : (d, z) ∈ hexDigits) :
      CodeUnit [a, b, c, d] (4096 * w + 256 * x + 16 * y + z)

/-- What follows the `u` of an escape, and the character that it stands for. -/
inductive Escaped : List Char → Char → Prop
  | basic {u : List Char} {n : Nat} (h : CodeUnit u n) (hn : n < 0xD800 ∨ 0xDFFF < n) :
      Escaped u (Char.ofNat n)
  | surrogates {u v : List Char} {m n : Nat} (hu : CodeUnit u (0xD800 + m)) (hm : m < 0x400)
      (hv : CodeUnit v (0xDC00 + n)) (hn : n < 0x400) :
      Escaped (u ++ '\\' :: 'u' :: v) (Char.ofNat (0x10000 + m * 0x400 + n))

/-- What follows the `u` of an escape that stands for no character in particular. -/
inductive AnyUnit : List Char → Char → Prop
  | digits {u : List Char} {n : Nat} (h : CodeUnit u n) : AnyUnit u '\x00'

/-- A text between quotation marks, and the characters that it stands for. -/
inductive Spells (unicode : List Char → Char → Prop) : List Char → List Char → Prop
  | nil : Spells unicode [] []
  | plain {c : Char} {text cs : List Char} (hc : ' ' ≤ c) (hq : c ≠ '"') (hb : c ≠ '\\')
      (h : Spells unicode text cs) : Spells unicode (c :: text) (c :: cs)
  | letter {l c : Char} {text cs : List Char} (hl : (l, c) ∈ StringLiteral.letterEscapes)
      (h : Spells unicode text cs) : Spells unicode ('\\' :: l :: text) (c :: cs)
  | unicode {e : List Char} {c : Char} {text cs : List Char} (he : unicode e c)
      (h : Spells unicode text cs) : Spells unicode ('\\' :: 'u' :: (e ++ text)) (c :: cs)

inductive Literal (unicode : List Char → Char → Prop) : List Char → String → Prop
  | quoted {text cs : List Char} (h : Spells unicode text cs) :
      Literal unicode ('"' :: (text ++ ['"'])) (String.ofList cs)

/-- A string, whatever it stands for. -/
def StringText (t : List Char) : Prop := ∃ s, Literal AnyUnit t s

/-! ## Numbers -/

structure Digits (ds : List Char) : Prop where
  ne_nil : ds ≠ []
  isDigit : ∀ c ∈ ds, c.isDigit = true

/-- The digits before the point: zero, or digits that do not begin with it. -/
inductive Whole : List Char → Prop
  | zero : Whole ['0']
  | digits {c : Char} {ds : List Char} (h : Digits (c :: ds)) (hc : c ≠ '0') : Whole (c :: ds)

inductive Fraction : List Char → Prop
  | absent : Fraction []
  | point {ds : List Char} (h : Digits ds) : Fraction ('.' :: ds)

inductive Exponent : List Char → Prop
  | absent : Exponent []
  | power {c : Char} {sign ds : List Char} (hc : c ∈ ['e', 'E']) (hs : sign ∈ [[], ['+'], ['-']])
      (h : Digits ds) : Exponent (c :: (sign ++ ds))

inductive NumberText : List Char → Prop
  | parts {sign whole fraction exponent : List Char} (hs : sign ∈ [[], ['-']]) (hw : Whole whole)
      (hf : Fraction fraction) (he : Exponent exponent) :
      NumberText (sign ++ (whole ++ (fraction ++ exponent)))

/-! ## Values -/

inductive Scalar : List Char → Prop
  | word {w : List Char}
      (h : w ∈ [['n', 'u', 'l', 'l'], ['t', 'r', 'u', 'e'], ['f', 'a', 'l', 's', 'e']]) : Scalar w
  | number {t : List Char} (h : NumberText t) : Scalar t
  | string {t : List Char} (h : StringText t) : Scalar t

/-- A key with its colon; the key itself is one of the given strings. -/
inductive Key (string : List Char → Prop) : List Char → Prop
  | colon {b t b' b'' : List Char} (hb : Blank b) (ht : string t) (hb' : Blank b')
      (hb'' : Blank b'') : Key string (b ++ (t ++ (b' ++ ':' :: b'')))

/-- What stands in front of the value of an item: in an object, its key. -/
inductive ItemStart : Container → List Char → Prop
  | array {b : List Char} (h : Blank b) : ItemStart .array b
  | object {t : List Char} (h : Key StringText t) : ItemStart .object t

structure Item where
  start : List Char
  value : List Char
  after : List Char

def Item.text (i : Item) : List Char := i.start ++ (i.value ++ i.after)

def commaSeparated : List (List Char) → List Char
  | [] => []
  | t :: ts => t ++ ts.flatMap (',' :: ·)

/-- Every value, however deeply it is nested. -/
inductive Value : List Char → Prop
  | scalar {t : List Char} (h : Scalar t) : Value t
  | empty (c : Container) {b : List Char} (h : Blank b) : Value (c.opening :: (b ++ [c.close]))
  | items (c : Container) {items : List Item} (hne : items ≠ [])
      (hs : ∀ i ∈ items, ItemStart c i.start) (hv : ∀ i ∈ items, Value i.value)
      (ha : ∀ i ∈ items, Blank i.after) :
      Value (c.opening :: (commaSeparated (items.map Item.text) ++ [c.close]))

theorem blank_nil : Blank [] := by decide

theorem spells_plain {unicode : List Char → Char → Prop} :
    ∀ cs : List Char, (∀ c ∈ cs, ' ' ≤ c ∧ c ≠ '"' ∧ c ≠ '\\') → Spells unicode cs cs
  | [], _ => .nil
  | _ :: cs, h => by
    obtain ⟨⟨hc, hq, hb⟩, hcs⟩ := List.forall_mem_cons.mp h
    exact .plain hc hq hb (spells_plain cs hcs)

theorem stringText_of_literal {t : List Char} {s : String} (h : Literal Escaped t s) :
    StringText t := by
  obtain @⟨text, cs, h⟩ := h
  suffices ∃ cs', Spells AnyUnit text cs' from
    let ⟨_, h'⟩ := this
    ⟨_, .quoted h'⟩
  induction h with
  | nil => exact ⟨[], .nil⟩
  | plain hc hq hb _ ih =>
    obtain ⟨cs', h'⟩ := ih
    exact ⟨_, .plain hc hq hb h'⟩
  | letter hl _ ih =>
    obtain ⟨cs', h'⟩ := ih
    exact ⟨_, .letter hl h'⟩
  | unicode he _ ih =>
    obtain ⟨cs', h'⟩ := ih
    cases he with
    | basic hu => exact ⟨_, .unicode (.digits hu) h'⟩
    | surrogates hu _ hv =>
      refine ⟨'\x00' :: '\x00' :: cs', ?_⟩
      rw [List.append_assoc]
      exact .unicode (.digits hu) (.unicode (.digits hv) h')

/-- What may follow a value or a key: white space, punctuation or nothing. -/
def Closes (rest : List Char) : Prop :=
  ∀ c ∈ rest.head?, c ∈ [' ', '\t', '\n', '\r', ',', ':', ']', '}']

end Grammar

end ElasticCore.Json
