import MetricCatalog.Proofs.Json.Writer

/-!
# Written JSON tells where it ends

Two values written alike are the same value, even if different texts follow: a string shows its end
since no quote stands unescaped inside it, and a list shows after each element whether another one
comes. So nothing is lost when strings are put in lists, and lists in objects.
-/

namespace MetricCatalog.Json

variable {α : Type} {write : α → List Char}

/-- A value can be told from the front of a text that begins with it, and so can the rest. -/
def SelfDelimiting (write : α → List Char) : Prop :=
  ∀ a b s t, write a ++ s = write b ++ t → a = b ∧ s = t

/-- What stands at the front of a text is spelled in one way only. -/
theorem Spells.unique {u v s t r : List Char} (left : Spells r u s) (right : Spells r v t) :
    u = v ∧ s = t := by
  have read := readText_iff.mpr left
  rw [readText_iff.mpr right] at read
  cases read
  exact ⟨rfl, rfl⟩

theorem selfDelimiting_writeText : SelfDelimiting writeText := by
  intro a b s t same
  rw [writeText_append, writeText_append] at same
  have left := spells_write a.toList s
  rw [(List.cons.inj same).2] at left
  obtain ⟨chars, rest⟩ := left.unique (spells_write b.toList t)
  exact ⟨String.toList_inj.mp chars, rest⟩

theorem commaSeparated_cons (part : List Char) (parts : List (List Char)) :
    commaSeparated (part :: parts) = part ++ parts.flatMap fun other => ',' :: other := by
  induction parts generalizing part with
  | nil => simp [commaSeparated]
  | cons next parts ih =>
    have others := ih next
    rw [commaSeparated, others]
    · simp
    · simp

/-- After an element a comma says that another one comes, and a bracket that none does. -/
theorem unique_more (element : SelfDelimiting write) {xs ys : List α} {s t : List Char}
    (same : (xs.map write).flatMap (fun other => ',' :: other) ++ ']' :: s =
      (ys.map write).flatMap (fun other => ',' :: other) ++ ']' :: t) : xs = ys ∧ s = t := by
  induction xs generalizing ys with
  | nil =>
    cases ys with
    | nil => simpa using same
    | cons y ys => simp at same
  | cons x xs ih =>
    cases ys with
    | nil => simp at same
    | cons y ys =>
      simp only [List.map_cons, List.flatMap_cons, List.cons_append, List.append_assoc,
        List.cons.injEq, true_and] at same
      obtain ⟨rfl, others⟩ := element x y _ _ same
      obtain ⟨rfl, rest⟩ := ih others
      exact ⟨rfl, rest⟩

/-- A list of values that never begin like its end. -/
theorem selfDelimiting_writeList (element : SelfDelimiting write)
    (opens : ∀ a s t, write a ++ s ≠ ']' :: t) :
    SelfDelimiting fun xs : List α => writeList (xs.map write) := by
  intro xs ys s t same
  simp only [writeList_append, List.cons.injEq, true_and] at same
  cases xs with
  | nil =>
    cases ys with
    | nil => simpa [commaSeparated] using same
    | cons y ys =>
      rw [List.map_cons, commaSeparated_cons, List.append_assoc] at same
      exact absurd same.symm (opens y _ _)
  | cons x xs =>
    rw [List.map_cons, commaSeparated_cons, List.append_assoc] at same
    cases ys with
    | nil => exact absurd same (opens x _ _)
    | cons y ys =>
      rw [List.map_cons, commaSeparated_cons, List.append_assoc] at same
      obtain ⟨rfl, others⟩ := element x y _ _ same
      obtain ⟨rfl, rest⟩ := unique_more element others
      exact ⟨rfl, rest⟩

theorem selfDelimiting_writeTexts :
    SelfDelimiting fun texts : List String => writeList (texts.map writeText) := by
  apply selfDelimiting_writeList selfDelimiting_writeText
  intro text s t same
  rw [writeText_append] at same
  simp at same

end MetricCatalog.Json
