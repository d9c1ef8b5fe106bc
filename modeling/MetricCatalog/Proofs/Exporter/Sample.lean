import Mathlib.Data.List.Chain
import MetricCatalog.Exporter.Exposition
import MetricCatalog.Proofs.Text.Lexeme

/-!
# Samples read off exposed text

Who collects metrics sees lines of text and takes each for a sample: a metric, labels between
braces, and a number. `Sample.ofLine?` reads a line in this way and refuses what is no sample.
Every line that is exposed is read as the sample it was written for. Only a label's value may not
be as it was: a backslash before a quote, a line feed or another backslash is not told from an
escape.
-/

namespace MetricCatalog.Exporter

/-- What one line of exposed text states. -/
structure Sample where
  metric : String
  labels : Labels
  value : Nat
  deriving DecidableEq, Repr

namespace Labels

/-- A label name as collectors accept it; two underscores in front are reserved. -/
def IsName (name : String) : Prop :=
  name.toList.head?.any startsName = true ∧ name.toList.all continuesName = true ∧
    ¬ ['_', '_'] <+: name.toList

instance (name : String) : Decidable (IsName name) :=
  inferInstanceAs (Decidable (_ ∧ _ ∧ _))

/-- The text that an escaped one stands for. -/
def unescape : List Char → List Char
  | '\\' :: 'n' :: rest => '\n' :: unescape rest
  | '\\' :: c :: rest => c :: unescape rest
  | c :: rest => c :: unescape rest
  | [] => []

/-- A label as it is read back from what is written for it. -/
def shown (label : String × String) : String × String :=
  (label.1, String.ofList (unescape (escapeValue false label.2.toList)))

/-- A backslash stands apart from what may be taken for the rest of an escape. -/
def Apart (c next : Char) : Prop := c = '\\' → next ∉ ['\\', '"', '\n']

instance (c next : Char) : Decidable (Apart c next) :=
  inferInstanceAs (Decidable (_ → _))

/-- No backslash of the value may be taken for a part of an escape; a value with one that may is
written as another value is. -/
def IsPlain (value : String) : Prop := value.toList.IsChain Apart

instance (value : String) : Decidable (IsPlain value) :=
  inferInstanceAs (Decidable (List.IsChain ..))

/-- The text up to the quote that ends a value. A backslash keeps the character after it. -/
def readValue : List Char → Option (List Char × List Char)
  | '"' :: rest => some ([], rest)
  | '\n' :: _ => none
  | '\\' :: c :: rest => (readValue rest).map fun (value, rest) => ('\\' :: c :: value, rest)
  | c :: rest => (readValue rest).map fun (value, rest) => (c :: value, rest)
  | [] => none

def readOne (s : List Char) : Option ((String × String) × List Char) :=
  match s.dropWhile continuesName with
  | '=' :: '"' :: rest =>
    (readValue rest).map fun (value, rest) =>
      ((String.ofList (s.takeWhile continuesName), String.ofList (unescape value)), rest)
  | _ => none

theorem length_readValue {s value rest : List Char} (read : readValue s = some (value, rest)) :
    rest.length < s.length := by
  fun_induction readValue s generalizing value with
  | case1 rest' =>
    cases read
    exact Nat.lt_succ_self _
  | case2 => cases read
  | case3 c rest' ih | case4 c rest' _ _ _ ih =>
    obtain ⟨⟨value', last⟩, found, same⟩ := Option.map_eq_some_iff.mp read
    cases same
    have shorter := ih found
    simp only [List.length_cons]
    omega
  | case5 => cases read

theorem length_readOne {s rest : List Char} {label : String × String}
    (read : readOne s = some (label, rest)) : rest.length < s.length := by
  rw [readOne] at read
  split at read
  · next more dropped =>
    obtain ⟨⟨value, last⟩, found, same⟩ := Option.map_eq_some_iff.mp read
    cases same
    have shorter := length_readValue found
    have suffix := (List.dropWhile_suffix (l := s) continuesName).length_le
    rw [dropped] at suffix
    simp only [List.length_cons] at suffix
    omega
  · cases read

/-- Labels from after the opening brace to the closing one. -/
def read (s : List Char) : Option (Labels × List Char) :=
  match _found : readOne s with
  | some (label, '}' :: rest) => some ([label], rest)
  | some (label, ',' :: rest) => (read rest).map fun (labels, rest) => (label :: labels, rest)
  | _ => none
termination_by s.length
decreasing_by
  have shorter := length_readOne _found
  simp only [List.length_cons] at shorter
  omega

theorem cleanName_of_isName {name : String} (ok : IsName name) :
    cleanName name.toList = name.toList := by
  obtain ⟨starts, continues, -⟩ := ok
  cases spelled : name.toList with
  | nil => rfl
  | cons first rest =>
    rw [spelled] at starts continues
    have head : startsName first = true := by simpa using starts
    rw [cleanName, if_pos head]
    refine congrArg _ (List.map_congr_left fun c here => ?_) |>.trans (by rw [List.map_id'])
    exact if_pos (List.all_eq_true.mp continues c (List.mem_cons_of_mem _ here))

theorem readValue_escapeValue (pending : Bool) (value rest : List Char) :
    readValue (escapeValue pending value ++ '"' :: rest) =
      some (escapeValue pending value, rest) := by
  fun_induction escapeValue pending value <;> simp_all [readValue]

theorem unescape_cons {c : Char} (other : c ≠ '\\') (rest : List Char) :
    unescape (c :: rest) = c :: unescape rest := by
  rw [unescape]
  · exact fun _ same => absurd same other
  · exact fun _ _ same => absurd same other

theorem unescape_escape {c : Char} (other : c ≠ 'n') (rest : List Char) :
    unescape ('\\' :: c :: rest) = c :: unescape rest := by
  rw [unescape]
  exact fun same => absurd same other

/-- No more is read back than was written. -/
theorem length_unescape_escapeValue (pending : Bool) (value : List Char) :
    (unescape (escapeValue pending value)).length ≤ value.length + pending.toNat := by
  fun_induction escapeValue pending value with
  | case1 | case2 => simp_all [unescape]
  | case3 pending rest ih =>
    simp only [unescape, List.length_cons]
    omega
  | case4 pending rest ih | case5 rest ih =>
    rw [unescape_escape (by decide), List.length_cons, List.length_cons]
    rw [Bool.toNat_false] at ih
    omega
  | case6 pending rest no ih =>
    simp only [List.length_cons, Bool.toNat_true] at ih ⊢
    omega
  | case7 c rest _ _ other ih => simp_all [unescape, unescape_cons]
  | case8 pending c rest _ _ other no ih => simp_all [unescape_cons]

/-- By induction on the value. A backslash that does not stand apart is lost, or comes after the
line feed that it stood before. -/
theorem unescape_escapeValue_eq_iff (pending : Bool) (value : List Char) :
    unescape (escapeValue pending value) = (if pending then '\\' :: value else value) ↔
      (if pending then '\\' :: value else value).IsChain Apart := by
  have apart {c : Char} {rest : List Char} (other : c ≠ '\\') :
      (c :: rest).IsChain Apart ↔ rest.IsChain Apart := by
    refine ⟨List.isChain_of_isChain_cons, fun chain => ?_⟩
    exact List.isChain_cons.mpr ⟨fun _ _ same => absurd same other, chain⟩
  fun_induction escapeValue pending value with
  | case1 | case2 => simp_all [unescape]
  | case3 pending rest ih | case4 pending rest ih =>
    cases pending with
    | true => simp [unescape, Apart]
    | false => simpa [unescape, apart] using ih
  | case5 rest ih =>
    have shorter := length_unescape_escapeValue false rest
    have differs : unescape (escapeValue false rest) ≠ '\\' :: rest := by
      intro same
      simp only [same, List.length_cons, Bool.toNat_false] at shorter
      omega
    simp [unescape, differs, Apart]
  | case6 pending rest no ih => simpa [no] using ih
  | case7 c rest _ _ other ih => simp_all [unescape, unescape_cons, Apart]
  | case8 pending c rest _ _ other no ih => simp_all [unescape_cons]

theorem shown_eq_iff {label : String × String} : shown label = label ↔ IsPlain label.2 := by
  have restored := unescape_escapeValue_eq_iff false label.2.toList
  rw [IsPlain, shown, Prod.ext_iff]
  simpa [← String.toList_inj] using restored

theorem readOne_writeOne {label : String × String} (ok : IsName label.1) (rest : List Char) :
    readOne (writeOne label ++ rest) = some (shown label, rest) := by
  have written : writeOne label ++ rest =
      label.1.toList ++ '=' :: '"' :: (escapeValue false label.2.toList ++ '"' :: rest) := by
    simp [writeOne, cleanName_of_isName ok]
  have ends : continuesName '=' = false := by decide
  have continues := List.all_eq_true.mp ok.2.1
  rw [readOne, written, List.dropWhile_append_of_pos continues,
    List.takeWhile_append_of_pos continues, List.dropWhile_cons_of_neg (by simp [ends]),
    List.takeWhile_cons_of_neg (by simp [ends])]
  simp [readValue_escapeValue, shown]

theorem read_last {s rest : List Char} {label : String × String}
    (last : readOne s = some (label, '}' :: rest)) : read s = some ([label], rest) := by
  rw [read]
  split
  · next found =>
    cases last.symm.trans found
    rfl
  · next found => cases last.symm.trans found
  · next none _ => exact absurd last (none _ _)

theorem read_comma {s rest : List Char} {label : String × String}
    (more : readOne s = some (label, ',' :: rest)) :
    read s = (read rest).map fun (labels, rest) => (label :: labels, rest) := by
  rw [read]
  split
  · next found => cases more.symm.trans found
  · next found =>
    cases more.symm.trans found
    rfl
  · next none => exact absurd more (none _ _)

theorem read_written {label : String × String} {others : Labels}
    (ok : ∀ l ∈ label :: others, IsName l.1) (rest : List Char) :
    read (writeOne label ++ ((others.map writeOne).flatMap (',' :: ·) ++ '}' :: rest)) =
      some ((label :: others).map shown, rest) := by
  induction others generalizing label with
  | nil => exact read_last (readOne_writeOne (ok label List.mem_cons_self) _)
  | cons next others ih =>
    have first := readOne_writeOne (ok label List.mem_cons_self)
      (',' :: (writeOne next ++ ((others.map writeOne).flatMap (',' :: ·) ++ '}' :: rest)))
    have following := ih fun l here => ok l (List.mem_cons_of_mem label here)
    simp only [List.map_cons, List.flatMap_cons, List.append_assoc, List.cons_append]
    rw [read_comma first, following]
    rfl

end Labels

namespace Sample

def isMetricChar (c : Char) : Bool := c.isAlphanum || c = '_' || c = ':'

/-- A number, alone at the end of a line. -/
def readNumber (s : List Char) : Option Nat :=
  if s ≠ [] ∧ s.all Char.isDigit then some (Text.digitsValue 10 s) else none

/-- The sample that a line states. -/
def ofLine? (line : String) : Option Sample :=
  let metric := String.ofList (line.toList.takeWhile isMetricChar)
  match line.toList.dropWhile isMetricChar with
  | '{' :: rest =>
    match Labels.read rest with
    | some (labels, ' ' :: number) => (readNumber number).map fun value => ⟨metric, labels, value⟩
    | _ => none
  | ' ' :: number => (readNumber number).map fun value => ⟨metric, [], value⟩
  | _ => none

theorem readNumber_toDigits (n : Nat) : readNumber (Nat.toDigits 10 n) = some n := by
  have digits : (Nat.toDigits 10 n).all Char.isDigit = true :=
    List.all_eq_true.mpr fun d => Nat.isDigit_of_mem_toDigits (by decide) (by decide)
  rw [readNumber, if_pos ⟨Nat.toDigits_ne_nil, digits⟩, Text.digitsValue_toDigits]

/-- A line is read as the sample it was written for. -/
theorem ofLine?_sampleLine {metric : String} {labels : Labels} (value : Nat)
    (plain : metric.toList.all isMetricChar = true) (ok : ∀ l ∈ labels, Labels.IsName l.1) :
    ofLine? (sampleLine metric (labels.map Labels.writeOne) value) =
      some ⟨metric, labels.map Labels.shown, value⟩ := by
  have line : (sampleLine metric (labels.map Labels.writeOne) value).toList =
      metric.toList ++
        (Labels.braced (labels.map Labels.writeOne) ++ ' ' :: Nat.toDigits 10 value) := by
    simp [sampleLine, Nat.repr_eq_ofList_toDigits]
  have space : isMetricChar ' ' = false := by decide
  have brace : isMetricChar '{' = false := by decide
  have known := List.all_eq_true.mp plain
  rw [ofLine?, line, List.takeWhile_append_of_pos known, List.dropWhile_append_of_pos known]
  cases labels with
  | nil => simp [Labels.braced, space, readNumber_toDigits]
  | cons label others =>
    have read := Labels.read_written ok (' ' :: Nat.toDigits 10 value)
    simp [Labels.braced, brace, read, readNumber_toDigits]

end Sample

/-- All samples of exposed blocks, line by line; lines that begin with `#` say nothing of values. -/
def scrape (blocks : List Block) : Option (List Sample) :=
  (blocks.flatten.filter fun line => line.toList.head? ≠ some '#').mapM Sample.ofLine?

end MetricCatalog.Exporter
