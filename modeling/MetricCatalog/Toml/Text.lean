import MetricCatalog.Toml.Lexeme

/-!
# Strings of a TOML text

A string is basic, with escapes, between double quotes, or literal, without them, between single
quotes. Either kind may stand between three quotes; it may then run over several lines, and a line
end right after the opening quotes does not belong to it.
-/

namespace MetricCatalog.Toml

open Text (skipBlanks length_skipBlanks_le)

/-- Escapes of one letter. -/
def shortEscape? : Char → Option Char
  | 'b' => some '\x08'
  | 't' => some '\t'
  | 'n' => some '\n'
  | 'f' => some '\x0c'
  | 'r' => some '\r'
  | '"' => some '"'
  | '\\' => some '\\'
  | _ => none

/-- Reads a character given by a fixed number of hexadecimal digits. -/
def readCodePoint (digits : Nat) (s : List Char) : Option (Char × List Char) :=
  match readFixed Text.hexValue? 16 digits 0 s with
  | some (n, rest) => if n.isValidChar then some (Char.ofNat n, rest) else none
  | none => none

/-- Reads what follows a backslash. -/
def readEscape : List Char → Option (Char × List Char)
  | 'u' :: rest => readCodePoint 4 rest
  | 'U' :: rest => readCodePoint 8 rest
  | c :: rest => (shortEscape? c).map (·, rest)
  | [] => none

theorem length_readCodePoint_le {digits : Nat} {s rest : List Char} {c : Char}
    (h : readCodePoint digits s = some (c, rest)) : rest.length ≤ s.length := by
  unfold readCodePoint at h
  split at h
  · next n more hn =>
    have := length_readFixed_le hn
    split at h <;> simp_all
  · contradiction

theorem length_readEscape_lt {s rest : List Char} {c : Char}
    (h : readEscape s = some (c, rest)) : rest.length < s.length := by
  unfold readEscape at h
  split at h
  · exact Nat.lt_succ_of_le (length_readCodePoint_le h)
  · exact Nat.lt_succ_of_le (length_readCodePoint_le h)
  · obtain ⟨d, -, hpair⟩ := Option.map_eq_some_iff.1 h
    obtain ⟨-, rfl⟩ := Prod.mk.inj hpair
    simp
  · contradiction

/-- Puts a character before the text of a string. -/
def prepend (c : Char) : List Char × List Char → List Char × List Char
  | (text, rest) => (c :: text, rest)

/-- Reads a basic string on one line, after its opening quote. -/
def readBasic (s : List Char) : Option (List Char × List Char) :=
  match s with
  | [] => none
  | '"' :: rest => some ([], rest)
  | '\\' :: rest =>
    match h : readEscape rest with
    | none => none
    | some (c, more) =>
      have := length_readEscape_lt h
      (readBasic more).map (prepend c)
  | c :: rest => if isPlain c then (readBasic rest).map (prepend c) else none
termination_by s.length
decreasing_by all_goals (simp only [List.length_cons]; omega)

/-- Reads a literal string on one line, after its opening quote. -/
def readLiteral : List Char → Option (List Char × List Char)
  | [] => none
  | '\'' :: rest => some ([], rest)
  | c :: rest => if isPlain c then (readLiteral rest).map (prepend c) else none

/-- What a run of quotes that starts with three closes a string with: up to two quotes of the run
still belong to the string. -/
def closing (quote : Char) : List Char → List Char × List Char
  | c :: d :: rest =>
    if c = quote then if d = quote then ([quote, quote], rest) else ([quote], d :: rest)
    else ([], c :: d :: rest)
  | c :: rest => if c = quote then ([quote], rest) else ([], c :: rest)
  | [] => ([], [])

/-- The text after a backslash that ends a line: it goes on at the next character that is neither
blank nor a line end. -/
def continuation? (s : List Char) : Option (List Char) :=
  (takeNewline (skipBlanks whitespace s)).map skipLines

theorem length_takeNewline_lt {s rest : List Char} (h : takeNewline s = some rest) :
    rest.length < s.length := by
  unfold takeNewline at h
  split at h
  · simp_all
  · simp_all only [Option.some.injEq, List.length_cons]
    omega
  · contradiction

theorem length_continuation_lt {s rest : List Char} (h : continuation? s = some rest) :
    rest.length < s.length := by
  obtain ⟨more, hmore, rfl⟩ := Option.map_eq_some_iff.1 h
  have := length_takeNewline_lt hmore
  have := length_skipBlanks_le whitespace s
  have := length_skipLines_le more
  omega

/-- Reads the lines of a basic string up to its three closing quotes. -/
def readBasicLines (s : List Char) : Option (List Char × List Char) :=
  match s with
  | [] => none
  | '"' :: '"' :: '"' :: rest => some (closing '"' rest)
  | '"' :: rest => (readBasicLines rest).map (prepend '"')
  | '\\' :: rest =>
    match h : continuation? rest with
    | some more =>
      have := length_continuation_lt h
      readBasicLines more
    | none =>
      match h' : readEscape rest with
      | none => none
      | some (c, more) =>
        have := length_readEscape_lt h'
        (readBasicLines more).map (prepend c)
  | '\n' :: rest => (readBasicLines rest).map (prepend '\n')
  | '\r' :: '\n' :: rest => (readBasicLines rest).map (prepend '\n')
  | c :: rest => if isPlain c then (readBasicLines rest).map (prepend c) else none
termination_by s.length
decreasing_by all_goals (simp only [List.length_cons]; omega)

/-- Reads the lines of a literal string up to its three closing quotes. -/
def readLiteralLines : List Char → Option (List Char × List Char)
  | [] => none
  | '\'' :: '\'' :: '\'' :: rest => some (closing '\'' rest)
  | '\n' :: rest => (readLiteralLines rest).map (prepend '\n')
  | '\r' :: '\n' :: rest => (readLiteralLines rest).map (prepend '\n')
  | c :: rest => if isPlain c then (readLiteralLines rest).map (prepend c) else none

/-- Reads a string of any kind. -/
def readText (s : List Char) : Option (List Char × List Char) :=
  match s with
  | '"' :: '"' :: '"' :: rest => readBasicLines ((takeNewline rest).getD rest)
  | '"' :: rest => readBasic rest
  | '\'' :: '\'' :: '\'' :: rest => readLiteralLines ((takeNewline rest).getD rest)
  | '\'' :: rest => readLiteral rest
  | _ => none

end MetricCatalog.Toml
