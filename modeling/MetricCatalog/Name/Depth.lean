/-!
# Depth of a dotted name

A metric name is a sequence of segments joined by separators. Its depth is its number of
separators, so a single segment has depth zero. Names are split at their first or their last
separator; both splits are exact: the two parts and the separator give the name back.
-/

namespace MetricCatalog

/-- Joins the segments of a metric name. -/
def separator : Char := '.'

namespace Name

/-- The number of separators in a name. -/
def depth (name : String) : Nat :=
  name.toList.count separator

/-- The text before the first separator, and the text after it. -/
def splitFirst? : List Char → Option (List Char × List Char)
  | [] => none
  | c :: rest =>
    if c = separator then some ([], rest)
    else (splitFirst? rest).map fun (lead, trail) => (c :: lead, trail)

/-- The text before the last separator, and the text after it. -/
def splitLast? : List Char → Option (List Char × List Char)
  | [] => none
  | c :: rest =>
    match splitLast? rest with
    | some (lead, trail) => some (c :: lead, trail)
    | none => if c = separator then some ([], rest) else none

theorem splitLast?_eq_none_iff {name : List Char} :
    splitLast? name = none ↔ separator ∉ name := by
  induction name with
  | nil => simp [splitLast?]
  | cons c rest ih =>
    cases hr : splitLast? rest with
    | none =>
      have hnot := ih.1 hr
      by_cases hc : c = separator
      · simp [splitLast?, hr, hc]
      · simp [splitLast?, hr, hc, hnot, Ne.symm hc]
    | some parts =>
      have hmem : separator ∈ rest :=
        Decidable.byContradiction fun hnot => by simp [ih.2 hnot] at hr
      simp [splitLast?, hr, hmem]

theorem splitFirst?_eq_some_iff {name lead trail : List Char} :
    splitFirst? name = some (lead, trail) ↔
      name = lead ++ separator :: trail ∧ separator ∉ lead := by
  induction name generalizing lead with
  | nil => simp [splitFirst?]
  | cons c rest ih =>
    by_cases hc : c = separator
    · cases lead with
      | nil => simp [splitFirst?, hc]
      | cons d lead => simp [splitFirst?, hc]; grind
    · cases lead with
      | nil => simp [splitFirst?, hc]
      | cons d lead => simp [splitFirst?, hc, ih]; grind

theorem splitLast?_eq_some_iff {name lead trail : List Char} :
    splitLast? name = some (lead, trail) ↔
      name = lead ++ separator :: trail ∧ separator ∉ trail := by
  induction name generalizing lead trail with
  | nil => simp [splitLast?]
  | cons c rest ih =>
    cases hr : splitLast? rest with
    | none =>
      have hnot := splitLast?_eq_none_iff.1 hr
      by_cases hc : c = separator <;> cases lead <;> simp [splitLast?, hr, hc] <;> grind
    | some parts =>
      obtain ⟨p, t⟩ := parts
      have hp := ih.1 hr
      cases lead with
      | nil => simp [splitLast?, hr]; grind
      | cons d lead =>
        have := @ih lead trail
        simp only [hr] at this
        simp [splitLast?, hr]; grind

end Name

end MetricCatalog
