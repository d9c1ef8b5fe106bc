import MetricCatalog.Proofs.Text.Lexeme

/-!
# The grammar of TOML

Each part of the grammar is a relation between a text, what its front stands for, and the rest; no
reader is mentioned. Blanks belong to the part they stand before. Of the values there are those that
a configuration may hold: truth values, integers of 64 bits, basic strings, and tables between
braces.
-/

namespace MetricCatalog.Toml

/-- Nothing but blanks within a line stands before the rest. -/
abbrev Blanks (s rest : List Char) : Prop := Text.Blanks [' ', '\t'] s rest

/-- All characters but control characters, of which only the tab is one of these. -/
def Visible (c : Char) : Prop := c = '\t' ∨ 0x20 ≤ c.toNat ∧ c.toNat ≠ 0x7F

/-- A comment up to the end of its line, or nothing. -/
def Comment (s rest : List Char) : Prop :=
  s = rest ∨ ∃ text : List Char, (∀ c ∈ text, Visible c) ∧ s = '#' :: text ++ rest

/-- A line feed, alone or after a carriage return. The last line may end with the text. -/
def Newline (s rest : List Char) : Prop :=
  s = '\n' :: rest ∨ s = '\r' :: '\n' :: rest ∨ s = [] ∧ rest = []

/-- What may stand after a statement, and on a line without one. -/
def LineEnd (s rest : List Char) : Prop :=
  ∃ t u, Blanks s t ∧ Comment t u ∧ Newline u rest

section Strings

/-- The escapes of one letter and what they stand for. -/
def shortEscapes : List (Char × Char) :=
  [('b', '\x08'), ('t', '\t'), ('n', '\n'), ('f', '\x0c'), ('r', '\r'), ('"', '"'), ('\\', '\\')]

/-- So many hexadecimal digits that spell the code point of a character. -/
def CodePoint (count : Nat) (s : List Char) (c : Char) (rest : List Char) : Prop :=
  ∃ digits : List Char, digits.length = count ∧ (∀ d ∈ digits, (Text.hexValue? d).isSome) ∧
    c.toNat = Text.digitsValue 16 digits ∧ s = digits ++ rest

/-- The characters of a basic string on one line, from after its opening quote to its closing
one. -/
inductive Spells : List Char → List Char → List Char → Prop
  | close {rest : List Char} : Spells ('"' :: rest) [] rest
  | plain {c : Char} {s text rest : List Char} (self : Visible c) (noQuote : c ≠ '"')
      (noEscape : c ≠ '\\') (more : Spells s text rest) : Spells (c :: s) (c :: text) rest
  | short {letter c : Char} {s text rest : List Char} (escape : (letter, c) ∈ shortEscapes)
      (more : Spells s text rest) : Spells ('\\' :: letter :: s) (c :: text) rest
  | code {mark c : Char} {count : Nat} {digits s text rest : List Char}
      (known : (mark, count) ∈ [('u', 4), ('U', 8)]) (value : CodePoint count digits c s)
      (more : Spells s text rest) : Spells ('\\' :: mark :: digits) (c :: text) rest

/-- A string of a given value. -/
def StringText (s : List Char) (value : String) (rest : List Char) : Prop :=
  ∃ t, Blanks s ('"' :: t) ∧ Spells t value.toList rest

end Strings

section Integers

/-- Digits, at least one, with single underscores between them at will. -/
inductive Grouped (isDigit : Char → Bool) : List Char → List Char → List Char → Prop
  | last {d : Char} {rest : List Char} (digit : isDigit d) : Grouped isDigit (d :: rest) [d] rest
  | next {d : Char} {s digits rest : List Char} (digit : isDigit d)
      (more : Grouped isDigit s digits rest) : Grouped isDigit (d :: s) (d :: digits) rest
  | apart {d : Char} {s digits rest : List Char} (digit : isDigit d)
      (more : Grouped isDigit s digits rest) :
      Grouped isDigit (d :: '_' :: s) (d :: digits) rest

/-- A natural number in decimal digits. Only zero itself begins with a zero. -/
def Whole (s : List Char) (n : Nat) (rest : List Char) : Prop :=
  s = '0' :: rest ∧ n = 0 ∨
    ∃ digits, Grouped Char.isDigit s digits rest ∧ s.head? ≠ some '0' ∧
      n = Text.digitsValue 10 digits

/-- The digits of a base, in either case. -/
def isDigitOf (base : Nat) (d : Char) : Bool := (Text.hexValue? d).any (· < base)

/-- An integer: decimal, with or without a sign, or in another base, with the letter of the base and
no sign. -/
inductive Integer : List Char → Int → List Char → Prop
  | unsigned {s rest : List Char} {n : Nat} (whole : Whole s n rest) : Integer s n rest
  | plus {s rest : List Char} {n : Nat} (whole : Whole s n rest) : Integer ('+' :: s) n rest
  | minus {s rest : List Char} {n : Nat} (whole : Whole s n rest) : Integer ('-' :: s) (-n) rest
  | based {letter : Char} {base : Nat} {s digits rest : List Char}
      (known : (letter, base) ∈ [('x', 16), ('o', 8), ('b', 2)])
      (grouped : Grouped (isDigitOf base) s digits rest) :
      Integer ('0' :: letter :: s) (Text.digitsValue base digits) rest

end Integers

/-- A value without parts. -/
inductive Scalar where
  | boolean (value : Bool)
  | integer (value : Int64)
  | string (value : String)
  deriving DecidableEq

inductive ScalarText : List Char → Scalar → List Char → Prop
  | yes {s rest : List Char} (blanks : Blanks s ('t' :: 'r' :: 'u' :: 'e' :: rest)) :
      ScalarText s (.boolean true) rest
  | no {s rest : List Char} (blanks : Blanks s ('f' :: 'a' :: 'l' :: 's' :: 'e' :: rest)) :
      ScalarText s (.boolean false) rest
  | integer {s t rest : List Char} {n : Int64} (blanks : Blanks s t)
      (integer : Integer t n.toInt rest) : ScalarText s (.integer n) rest
  | string {s rest : List Char} {value : String} (text : StringText s value rest) :
      ScalarText s (.string value) rest

section Keys

/-- One name of a key: a bare one, or a string. -/
inductive NameText : List Char → String → List Char → Prop
  | bare {s name rest : List Char} (blanks : Blanks s (name ++ rest)) (some : name ≠ [])
      (all : ∀ c ∈ name, c.isAlphanum ∨ c = '_' ∨ c = '-') : NameText s (String.ofList name) rest
  | quoted {s rest : List Char} {name : String} (text : StringText s name rest) :
      NameText s name rest

/-- A key: names with points between them. -/
inductive KeyText : List Char → List String → List Char → Prop
  | last {s rest : List Char} {name : String} (text : NameText s name rest) : KeyText s [name] rest
  | dotted {s t u rest : List Char} {name : String} {names : List String}
      (text : NameText s name t) (point : Blanks t ('.' :: u)) (others : KeyText u names rest) :
      KeyText s (name :: names) rest

/-- The header of a table. -/
def HeaderText (s : List Char) (names : List String) (rest : List Char) : Prop :=
  ∃ t u, Blanks s ('[' :: t) ∧ KeyText t names u ∧ Blanks u (']' :: rest)

end Keys

section Statements

variable {α : Type}

/-- A key and what is assigned to it. -/
def AssignmentText (value : List Char → α → List Char → Prop) (s : List Char) (names : List String)
    (a : α) (rest : List Char) : Prop :=
  ∃ t u, KeyText s names t ∧ Blanks t ('=' :: u) ∧ value u a rest

/-- Assignments with commas between them, up to the closing brace. -/
inductive Enclosed (assignment : List Char → α → List Char → Prop) :
    List Char → List α → List Char → Prop
  | last {s t rest : List Char} {a : α} (first : assignment s a t)
      (close : Blanks t ('}' :: rest)) : Enclosed assignment s [a] rest
  | next {s t u rest : List Char} {a : α} {others : List α} (first : assignment s a t)
      (comma : Blanks t (',' :: u)) (more : Enclosed assignment u others rest) :
      Enclosed assignment s (a :: others) rest

/-- A table between braces. -/
def TableText (assignment : List Char → α → List Char → Prop) (s : List Char) (values : List α)
    (rest : List Char) : Prop :=
  ∃ t, Blanks s ('{' :: t) ∧
    (values = [] ∧ Blanks t ('}' :: rest) ∨ Enclosed assignment t values rest)

/-- Lines with a statement each, and any number of lines without one. -/
inductive Lines (statement : List Char → α → List Char → Prop) :
    List Char → List α → List Char → Prop
  | done {rest : List Char} : Lines statement rest [] rest
  | empty {s t rest : List Char} {values : List α} (ending : LineEnd s t)
      (more : Lines statement t values rest) : Lines statement s values rest
  | line {s t u rest : List Char} {a : α} {values : List α} (first : statement s a t)
      (ending : LineEnd t u) (more : Lines statement u values rest) :
      Lines statement s (a :: values) rest

end Statements

end MetricCatalog.Toml
