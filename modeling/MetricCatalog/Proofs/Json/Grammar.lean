import MetricCatalog.Proofs.Text.Lexeme

/-!
# The grammar of JSON

Each part of the grammar is a relation between a text, what the front of the text stands for, and
the rest; no reader is mentioned. Blanks belong to the part they stand before. Two kinds of string
are told apart: `Spells` says which characters a string spells, escapes resolved and surrogate
pairs joined, whereas `Quoted` says only that something is a string, lone surrogates included.
-/

namespace MetricCatalog.Json

/-- Nothing but blanks stands before the rest. -/
abbrev Blanks (s rest : List Char) : Prop := Text.Blanks [' ', '\n', '\t', '\r'] s rest

/-- Four hexadecimal digits of the value `n`. -/
def FourHex (s : List Char) (n : Nat) (rest : List Char) : Prop :=
  ∃ digits : List Char, digits.length = 4 ∧ (∀ d ∈ digits, (Text.hexValue? d).isSome) ∧
    n = Text.digitsValue 16 digits ∧ s = digits ++ rest

/-- The escapes of one letter and what they stand for. -/
def shortEscapes : List (Char × Char) :=
  [('"', '"'), ('\\', '\\'), ('/', '/'), ('b', '\x08'), ('f', '\x0c'), ('n', '\n'), ('r', '\r'),
    ('t', '\t')]

/-- Characters that stand for themselves in a string. -/
def Plain (c : Char) : Prop := c ≠ '"' ∧ c ≠ '\\' ∧ 0x20 ≤ c.toNat

/-- The two halves that a character outside the basic plane is cut into. -/
def Halves (c : Char) (lead trail : Nat) : Prop :=
  0x10000 ≤ c.toNat ∧ lead = 0xD800 + (c.toNat - 0x10000) / 0x400 ∧
    trail = 0xDC00 + (c.toNat - 0x10000) % 0x400

/-- The characters of a string, from after its opening quote to its closing one. -/
inductive Spells : List Char → List Char → List Char → Prop
  | close {rest : List Char} : Spells ('"' :: rest) [] rest
  | plain {c : Char} {s text rest : List Char} (self : Plain c) (more : Spells s text rest) :
      Spells (c :: s) (c :: text) rest
  | short {letter c : Char} {s text rest : List Char} (escape : (letter, c) ∈ shortEscapes)
      (more : Spells s text rest) : Spells ('\\' :: letter :: s) (c :: text) rest
  | code {c : Char} {digits s text rest : List Char} (value : FourHex digits c.toNat s)
      (more : Spells s text rest) : Spells ('\\' :: 'u' :: digits) (c :: text) rest
  | pair {c : Char} {lead trail : Nat} {first second s text rest : List Char}
      (halves : Halves c lead trail) (leading : FourHex first lead ('\\' :: 'u' :: second))
      (trailing : FourHex second trail s) (more : Spells s text rest) :
      Spells ('\\' :: 'u' :: first) (c :: text) rest

/-- Any string, from after its opening quote, whatever its escapes stand for. -/
inductive Quoted : List Char → List Char → Prop
  | close {rest : List Char} : Quoted ('"' :: rest) rest
  | plain {c : Char} {s rest : List Char} (self : Plain c) (more : Quoted s rest) :
      Quoted (c :: s) rest
  | short {letter c : Char} {s rest : List Char} (escape : (letter, c) ∈ shortEscapes)
      (more : Quoted s rest) : Quoted ('\\' :: letter :: s) rest
  | code {n : Nat} {digits s rest : List Char} (value : FourHex digits n s)
      (more : Quoted s rest) : Quoted ('\\' :: 'u' :: digits) rest

/-- A field's name, whatever it spells, and the colon after it. -/
def Named (s rest : List Char) : Prop :=
  ∃ t u, Blanks s ('"' :: t) ∧ Quoted t u ∧ Blanks u (':' :: rest)

def Digits (digits : List Char) : Prop := digits ≠ [] ∧ ∀ d ∈ digits, d.isDigit

/-- Digits without a needless zero in front. -/
def Whole (digits : List Char) : Prop :=
  Digits digits ∧ (digits.head? = some '0' → digits = ['0'])

def Fraction (s : List Char) : Prop := s = [] ∨ ∃ digits, Digits digits ∧ s = '.' :: digits

def Exponent (s : List Char) : Prop :=
  s = [] ∨ ∃ e ∈ ['e', 'E'], ∃ sign ∈ [[], ['+'], ['-']], ∃ digits,
    Digits digits ∧ s = e :: sign ++ digits

/-- Any number. -/
def Numeric (s rest : List Char) : Prop :=
  ∃ minus ∈ [[], ['-']], ∃ whole fraction exponent,
    Whole whole ∧ Fraction fraction ∧ Exponent exponent ∧
      s = minus ++ whole ++ fraction ++ exponent ++ rest

/-- An integer of 64 bits with a sign. Zero has none. -/
def Integer (s : List Char) (n : Int64) (rest : List Char) : Prop :=
  ∃ digits, Whole digits ∧
    ((s = digits ++ rest ∧ n.toInt = Text.digitsValue 10 digits) ∨
      (s = '-' :: digits ++ rest ∧ digits ≠ ['0'] ∧ n.toInt = -Text.digitsValue 10 digits))

/-- The words that are values. -/
def words : List (List Char) :=
  [['n', 'u', 'l', 'l'], ['t', 'r', 'u', 'e'], ['f', 'a', 'l', 's', 'e']]

/-- A value of any kind, and what follows an opened bracket or brace that is not closed at once. -/
inductive Phrase where
  | value
  | elements
  | fields

/-- Any value, nested to any depth. -/
inductive Spans : Phrase → List Char → List Char → Prop
  | word {word s rest : List Char} (known : word ∈ words)
      (blanks : Blanks s (word ++ rest)) : Spans .value s rest
  | string {s t rest : List Char} (blanks : Blanks s ('"' :: t)) (quoted : Quoted t rest) :
      Spans .value s rest
  | number {s t rest : List Char} (blanks : Blanks s t) (numeric : Numeric t rest) :
      Spans .value s rest
  | emptyList {s t rest : List Char} (blanks : Blanks s ('[' :: t))
      (close : Blanks t (']' :: rest)) : Spans .value s rest
  | list {s t rest : List Char} (blanks : Blanks s ('[' :: t)) (inside : Spans .elements t rest) :
      Spans .value s rest
  | emptyObject {s t rest : List Char} (blanks : Blanks s ('{' :: t))
      (close : Blanks t ('}' :: rest)) : Spans .value s rest
  | object {s t rest : List Char} (blanks : Blanks s ('{' :: t)) (inside : Spans .fields t rest) :
      Spans .value s rest
  | lastElement {s t rest : List Char} (element : Spans .value s t)
      (close : Blanks t (']' :: rest)) : Spans .elements s rest
  | element {s t u rest : List Char} (element : Spans .value s t) (comma : Blanks t (',' :: u))
      (others : Spans .elements u rest) : Spans .elements s rest
  | lastField {s t u rest : List Char} (name : Named s t) (value : Spans .value t u)
      (close : Blanks u ('}' :: rest)) : Spans .fields s rest
  | field {s t u v rest : List Char} (name : Named s t) (value : Spans .value t u)
      (comma : Blanks u (',' :: v)) (others : Spans .fields v rest) : Spans .fields s rest

section Items

variable {α : Type}

/-- Commas stand between items, not before the first. -/
def Separated : Bool → List Char → List Char → Prop
  | true, s, t => s = t
  | false, s, t => Blanks s (',' :: t)

/-- Items and the bracket or brace that closes them. -/
def Items (close : Char) (item : List Char → α → List Char → Prop) :
    Bool → List Char → List α → List Char → Prop
  | _, s, [], rest => Blanks s (close :: rest)
  | first, s, a :: others, rest =>
    ∃ t u, Separated first s t ∧ item t a u ∧ Items close item false u others rest

/-- A field: its name, a colon, and what the name calls for. -/
def Field (value : String → List Char → α → List Char → Prop) (s : List Char) (a : α)
    (rest : List Char) : Prop :=
  ∃ t name u v, Blanks s ('"' :: t) ∧ Spells t name u ∧ Blanks u (':' :: v) ∧
    value (String.ofList name) v a rest

end Items

/-- Where a value may end: at the end of the text, a blank, a comma, a bracket or a brace. -/
def Delimited (rest : List Char) : Prop :=
  ∀ c t, rest = c :: t → c ∈ [' ', '\n', '\t', '\r', ',', ']', '}']

end MetricCatalog.Json
