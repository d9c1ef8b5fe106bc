import MetricCatalog.Proofs.Toml.Value
import MetricCatalog.Toml.Document

/-!
# Lines and headers are read as the grammar says

A document is read statement by statement, with more steps at hand than its text has characters.
Each step is settled by itself: an empty line, a line with an assignment, a line with a header. From
the steps follows what a stretch of lines adds to the document that comes after it.
-/

namespace MetricCatalog.Toml

open Text

variable {s t u rest : List Char} {c : Char} {n : Nat}

theorem takeLineEnd_skipBlanks (s : List Char) :
    takeLineEnd (skipBlanks whitespace s) = takeLineEnd s := by
  rw [takeLineEnd, skipBlanks_skipBlanks, takeLineEnd]

section Steps

theorem readStatements_end (found : skipBlanks whitespace s = []) :
    readStatements (n + 1) s = some ⟨[], []⟩ := by
  rw [readStatements, found]

theorem readStatements_empty (ending : LineEnd s rest) (found : skipBlanks whitespace s = c :: t)
    (mark : c ∈ ['#', '\n', '\r']) : readStatements (n + 1) s = readStatements n rest := by
  have mark : c = '#' ∨ c = '\n' ∨ c = '\r' := by simpa using mark
  have took := takeLineEnd_skipBlanks s
  rw [takeLineEnd_eq ending, found] at took
  rw [readStatements.eq_def]
  simp only [found]
  split
  · next same => cases same
  · next same =>
    cases same
    simp at mark
  · next same =>
    cases same
    rw [if_pos mark, took]
    rfl

theorem readStatements_assignment {made : Assignment} (found : skipBlanks whitespace s = c :: u)
    (first : isBare c = true ∨ c = '"')
    (read : readAssignment (readValue depthLimit) s = some (made, t)) (ending : LineEnd t rest) :
    readStatements (n + 1) s = (readStatements n rest).map (Document.addAssignment made) := by
  have other {d : Char} (mark : d ∈ ['[', '#', '\n', '\r']) : c ≠ d := by
    rintro rfl
    simp only [List.mem_cons, List.not_mem_nil, or_false] at mark
    rcases mark with rfl | rfl | rfl | rfl <;> simp [isBare] at first
  have read' := readAssignment_skipBlanks (readValue depthLimit) s
  rw [read, found] at read'
  rw [readStatements.eq_def]
  simp only [found]
  split
  · next same => cases same
  · next same => exact absurd (List.cons.inj same).1 (other (by simp))
  · next same =>
    cases same
    have assignment : ¬ (c = '#' ∨ c = '\n' ∨ c = '\r') := by
      simp [other]
    rw [if_neg assignment, read', Option.map_eq_bind]
    simp only [bind, Option.bind, takeLineEnd_eq ending]
    rfl

theorem readHeader_eq {names : List String} (text : KeyText s names t)
    (few : names.length ≤ depthLimit) (close : Blanks t (']' :: rest)) :
    ∃ header, readHeader ('[' :: s) = some (header, rest) ∧ header.isElement = false ∧
      keyNames header.path header.key = names := by
  obtain ⟨path, key, read, named⟩ := readPath_eq text few close (by simp)
  have single : ∀ u, s ≠ '[' :: u := by
    rintro u rfl
    obtain ⟨c, v, found, first⟩ := text.opens
    rw [skipBlanks_cons rfl] at found
    cases found
    simp [isBare] at first
  refine ⟨⟨path, key, false, .between ('[' :: s) rest⟩, ?_, rfl, named⟩
  rw [readHeader]
  · simp only [read, bind, Option.bind, takeChar, if_true]
    rfl
  · exact single

theorem readStatements_header {names : List String} (text : HeaderText s names t)
    (few : names.length ≤ depthLimit) (ending : LineEnd t rest) :
    ∃ header, readStatements (n + 1) s = (readStatements n rest).map (Document.addHeader header) ∧
      header.isElement = false ∧ keyNames header.path header.key = names := by
  obtain ⟨u, v, bracket, key, close⟩ := text
  obtain ⟨header, read, single, named⟩ := readHeader_eq key few close
  refine ⟨header, ?_, single, named⟩
  rw [readStatements, bracket.skip_cons rfl, Option.map_eq_bind]
  simp only [read, bind, Option.bind, takeLineEnd_eq ending]
  rfl

end Steps

variable {α : Type} {statement : List Char → α → List Char → Prop} {gives : Assignment → α → Prop}

/-- Lines add their assignments to the top of the document that follows them. -/
theorem readStatements_lines (keyed : Keyed statement) {values : List α}
    (reads : ∀ a ∈ values, Readable (readValue depthLimit) statement gives a)
    (lines : Lines statement s values rest) (enough : s.length < n) :
    ∃ m made, rest.length < m ∧ List.Forall₂ gives made values ∧
      readStatements n s = (readStatements m rest).map fun d => ⟨made ++ d.top, d.sections⟩ := by
  obtain ⟨k, rfl⟩ := Nat.exists_eq_succ_of_ne_zero (Nat.ne_of_gt (Nat.zero_lt_of_lt enough))
  induction lines generalizing k with
  | done => exact ⟨k + 1, [], enough, .nil, by simp⟩
  | empty ending more ih =>
    rcases ending.head with ⟨found, rfl⟩ | ⟨c, u, found, mark, shorter⟩
    · have nothing : skipBlanks whitespace [] = [] := rfl
      rw [readStatements_end found, ← readStatements_end (n := 0) nothing]
      exact ih reads 0 Nat.one_pos
    · have further : _ < k := Nat.lt_of_lt_of_le shorter (Nat.le_of_lt_succ enough)
      obtain ⟨j, rfl⟩ := Nat.exists_eq_succ_of_ne_zero (Nat.ne_of_gt (Nat.zero_lt_of_lt further))
      rw [readStatements_empty ending found mark]
      exact ih reads j further
  | line first ending more ih =>
    obtain ⟨readsFirst, readsOthers⟩ := List.forall_mem_cons.mp reads
    obtain ⟨made, read, given⟩ := readsFirst _ _ first ending.ends
    obtain ⟨c, u, found, opens⟩ := keyed.opens first
    have shorter := keyed.length_lt first
    have further := ending.length_le
    obtain ⟨j, rfl⟩ := Nat.exists_eq_succ_of_ne_zero (show k ≠ 0 by omega)
    obtain ⟨m, others, left, givenOthers, readOthers⟩ := ih readsOthers j (by omega)
    refine ⟨m, made :: others, left, .cons given givenOthers, ?_⟩
    rw [readStatements_assignment found opens read ending, readOthers, Option.map_map]
    rfl

/-- Lines up to the end of the text are a document without headers. -/
theorem readStatements_whole (keyed : Keyed statement) {values : List α}
    (reads : ∀ a ∈ values, Readable (readValue depthLimit) statement gives a)
    (lines : Lines statement s values []) (enough : s.length < n) :
    ∃ made, List.Forall₂ gives made values ∧ readStatements n s = some ⟨made, []⟩ := by
  obtain ⟨m, made, positive, given, read⟩ := readStatements_lines keyed reads lines enough
  obtain ⟨m, rfl⟩ := Nat.exists_eq_succ_of_ne_zero (Nat.ne_of_gt positive)
  refine ⟨made, given, ?_⟩
  rw [read, readStatements_end rfl, Option.map_some, List.append_nil]

/-- No line begins with a mark for the order of bytes. -/
theorem skipByteOrderMark_lines (keyed : Keyed statement) {values : List α}
    (lines : Lines statement s values rest) (unmarked : skipByteOrderMark rest = rest) :
    skipByteOrderMark s = s := by
  have other (noMark : ∀ t, skipBlanks whitespace s ≠ '\ufeff' :: t) : skipByteOrderMark s = s := by
    rw [skipByteOrderMark]
    rintro t rfl
    exact noMark t (skipBlanks_cons rfl)
  cases lines with
  | done => exact unmarked
  | empty ending =>
    apply other
    intro t same
    rcases ending.head with ⟨found, -⟩ | ⟨c, u, found, mark, -⟩
    · rw [found] at same
      cases same
    · rw [found] at same
      cases same
      simp at mark
  | line first =>
    apply other
    intro t same
    obtain ⟨c, u, found, opens⟩ := keyed.opens first
    rw [found] at same
    cases same
    simp [isBare] at opens

theorem skipByteOrderMark_header {names : List String} (text : HeaderText s names rest) :
    skipByteOrderMark s = s := by
  obtain ⟨t, u, bracket, -, -⟩ := text
  obtain ⟨d, v, rfl, here⟩ := bracket.head
  rw [skipByteOrderMark]
  rintro w same
  cases same
  simp at here

theorem parse_eq {text : String} {d : Document}
    (unmarked : skipByteOrderMark text.toList = text.toList)
    (read : readStatements (text.toList.length + 1) text.toList = some d) :
    parse text = d.table := by
  rw [parse, unmarked, read]
  rfl

end MetricCatalog.Toml
