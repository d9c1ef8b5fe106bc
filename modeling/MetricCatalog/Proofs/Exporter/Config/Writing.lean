import MetricCatalog.Proofs.Exporter.Config.Reading
import MetricCatalog.Proofs.Toml.Writer

/-!
# Written configurations are read back

A configuration can be written in three forms, which differ in where its labels stand. Each states
the configuration by the grammar, in whatever order its lines and its labels come and whatever else
stands among them; so all of them are read as that configuration.
-/

namespace MetricCatalog.Exporter.Config

open Toml

section Writer

def writeLabel (label : String × String) : List Char :=
  writeAssignment (writeText label.1) (writeText label.2)

def writeBraces (labels : List (String × String)) : List Char :=
  ['{', ' '] ++ ", ".toList.intercalate (labels.map writeLabel) ++ [' ', '}']

def Entry.write : Entry → List Char
  | enabled value => writeAssignment "enabled".toList (Scalar.boolean value).write
  | labels list => writeAssignment "global_labels".toList (writeBraces list)
  | label pair =>
    writeAssignment (writeDotted "global_labels".toList (writeText pair.1)) (writeText pair.2)
  | other name value => writeAssignment (writeText name) value.write

/-- Where the labels stand. -/
inductive Form where
  /-- In a table of their own. -/
  | table
  /-- All on one line, between braces. -/
  | braces
  /-- Each on a line, under a dotted key. With no labels there are no such lines. -/
  | dotted
  deriving DecidableEq

/-- The lines before any header that are there for labels. -/
def Form.lines (labels : List (String × String)) : Form → List Entry
  | table => []
  | braces => [.labels labels]
  | dotted => labels.map .label

/-- What comes after all lines. -/
def Form.ending (labels : List (String × String)) : Form → List Char
  | table => "[global_labels]\n".toList ++ writeLines writeLabel labels
  | _ => []

def write (form : Form) (lines : List Entry) (labels : List (String × String)) : List Char :=
  writeLines Entry.write lines ++ form.ending labels

/-- The lines that state whether metrics are collected, unless that is left out, and the labels,
with further ones that are not looked at. -/
def statements (form : Form) (enabled : Option Bool) (others : List (String × Scalar))
    (labels : List (String × String)) : List Entry :=
  enabled.toList.map .enabled ++ (others.map (fun o => .other o.1 o.2) ++ form.lines labels)

end Writer

section Texts

variable {s rest : List Char}

theorem labelText_write {pair : String × String} (blanks : Blanks s (writeLabel pair ++ rest)) :
    LabelText [] s pair rest := by
  rw [writeLabel, writeAssignment_append] at blanks
  exact assignmentText_write (keyText_quoted blanks) (stringText_write (blanks_space _))

theorem enclosed_write (first : String × String) (others : List (String × String)) :
    Enclosed (LabelText [])
      (' ' :: (", ".toList.intercalate ((first :: others).map writeLabel) ++ ([' ', '}'] ++ rest)))
      (first :: others) rest := by
  induction others generalizing first with
  | nil =>
    rw [List.map_singleton, List.intercalate_singleton]
    exact .last (labelText_write (blanks_space _)) (blanks_space _)
  | cons next others ih =>
    rw [List.map_cons, List.map_cons, List.intercalate_cons_cons, ← List.map_cons,
      List.append_assoc, List.append_assoc]
    exact .next (labelText_write (blanks_space _)) (.refl _) (ih next)

theorem tableText_write {labels : List (String × String)}
    (blanks : Blanks s (writeBraces labels ++ rest)) : TableText (LabelText []) s labels rest := by
  rw [writeBraces, List.append_assoc, List.append_assoc] at blanks
  refine ⟨_, blanks, ?_⟩
  cases labels with
  | nil => exact .inl ⟨rfl, ((blanks_space _).trans (blanks_space _))⟩
  | cons first others => exact .inr (enclosed_write first others)

theorem nameText_enabled (rest : List Char) : NameText ("enabled".toList ++ rest) "enabled" rest :=
  nameText_bare (by decide) (by simp) rest

theorem nameText_labels (rest : List Char) :
    NameText ("global_labels".toList ++ rest) "global_labels" rest :=
  nameText_bare (by decide) (by simp) rest

theorem entryText_write {e : Entry}
    (unlike : ∀ name value, e = .other name value → name ≠ enabledKey ∧ name ≠ labelsKey) :
    Entry.Text (e.write ++ rest) e rest := by
  cases e with
  | enabled value =>
    rw [Entry.write, writeAssignment_append]
    exact assignmentText_write (.last (nameText_enabled _)) (scalarText_write (blanks_space _))
  | labels list =>
    rw [Entry.write, writeAssignment_append]
    exact assignmentText_write (.last (nameText_labels _)) (tableText_write (blanks_space _))
  | label pair =>
    rw [Entry.write, writeAssignment_append]
    exact assignmentText_write (keyText_dotted nameText_labels (keyText_quoted (.refl _)))
      (stringText_write (blanks_space _))
  | other name value =>
    obtain ⟨noFlag, noLabels⟩ := unlike name value rfl
    rw [Entry.write, writeAssignment_append]
    exact ⟨noFlag, noLabels, assignmentText_write (keyText_quoted (.refl _))
      (scalarText_write (blanks_space _))⟩

end Texts

section Statements

variable {form : Form} {enabled : Option Bool} {others : List (String × Scalar)}
  {list : List (String × String)} {lines : List Entry}

theorem name_of_formLine {e : Entry} (here : e ∈ form.lines list) : e.name = labelsKey := by
  cases form with
  | table => cases here
  | braces =>
    rw [List.mem_singleton.mp here]
    rfl
  | dotted =>
    obtain ⟨pair, -, rfl⟩ := List.mem_map.mp here
    rfl

theorem Entry.Compatible.of_ne {e f : Entry} (different : e.name ≠ f.name) : e.Compatible f :=
  fun same => absurd same different

theorem Entry.Compatible.symm {e f : Entry} (compatible : e.Compatible f) : f.Compatible e := by
  intro same
  obtain ⟨l, m, first, second, different⟩ := compatible same.symm
  exact ⟨m, l, second, first, different.symm⟩

theorem compatible_formLines (distinct : (list.map Prod.fst).Nodup) :
    (form.lines list).Pairwise Entry.Compatible := by
  cases form with
  | table => exact .nil
  | braces => exact List.pairwise_singleton ..
  | dotted =>
    refine List.pairwise_map.mpr ((List.pairwise_map.mp distinct).imp ?_)
    exact fun different _ => ⟨_, _, rfl, rfl, different⟩

theorem compatible_statements (distinct : (list.map Prod.fst).Nodup)
    (apart : (others.map Prod.fst).Nodup)
    (unlike : ∀ o ∈ others, o.1 ≠ enabledKey ∧ o.1 ≠ labelsKey) :
    (statements form enabled others list).Pairwise Entry.Compatible := by
  have ofOthers : (others.map fun o => Entry.other o.1 o.2).Pairwise Entry.Compatible :=
    List.pairwise_map.mpr ((List.pairwise_map.mp apart).imp fun different => .of_ne different)
  refine List.pairwise_append.mpr ⟨?_, List.pairwise_append.mpr ⟨ofOthers, ?_, ?_⟩, ?_⟩
  · cases enabled with
    | none => exact .nil
    | some => exact List.pairwise_singleton ..
  · exact compatible_formLines distinct
  · intro e here f there
    obtain ⟨o, given, rfl⟩ := List.mem_map.mp here
    apply Entry.Compatible.of_ne
    rw [name_of_formLine there]
    exact (unlike o given).2
  · intro e here f there
    obtain ⟨value, -, rfl⟩ := List.mem_map.mp here
    apply Entry.Compatible.of_ne
    rcases List.mem_append.mp there with there | there
    · obtain ⟨o, given, rfl⟩ := List.mem_map.mp there
      exact (unlike o given).1.symm
    · rw [name_of_formLine there]
      exact (by decide : enabledKey ≠ labelsKey)

theorem findSome?_enabled (order : lines.Perm (statements form enabled others list)) :
    lines.findSome? Entry.enabled? = enabled := by
  have noOthers : (others.map fun o => Entry.other o.1 o.2).filterMap Entry.enabled? = [] := by
    rw [List.filterMap_map]
    exact List.filterMap_eq_nil_iff.mpr fun _ _ => rfl
  have noLabels : (form.lines list).filterMap Entry.enabled? = [] := by
    refine List.filterMap_eq_nil_iff.mpr fun e here => ?_
    cases e with
    | enabled => exact absurd (name_of_formLine here) (by decide : enabledKey ≠ labelsKey)
    | _ => rfl
  -- No more than one line says it, so that a permutation of what the lines say is no change.
  have told := order.filterMap Entry.enabled?
  rw [statements, List.filterMap_append, List.filterMap_append, noOthers, noLabels] at told
  rw [← List.head?_filterMap]
  cases enabled with
  | none => rw [told.eq_nil]; rfl
  | some value => rw [List.perm_singleton.mp told]; rfl

theorem stated_statements (order : lines.Perm (statements form enabled others list)) :
    (lines.flatMap Entry.stated).Perm ((form.lines list).flatMap Entry.stated) := by
  have noFlag : (enabled.toList.map Entry.enabled).flatMap Entry.stated = [] := by
    cases enabled <;> rfl
  have noOthers : (others.map fun o => Entry.other o.1 o.2).flatMap Entry.stated = [] := by
    rw [List.flatMap_map]
    exact List.flatMap_eq_nil_iff.mpr fun _ _ => rfl
  have told := order.flatMap_right Entry.stated
  rwa [statements, List.flatMap_append, List.flatMap_append, noFlag, noOthers] at told

theorem stated_formLines (lined : form ≠ .table) :
    (form.lines list).flatMap Entry.stated = list := by
  cases form with
  | table => exact absurd rfl lined
  | braces => exact List.append_nil list
  | dotted =>
    rw [Form.lines, List.flatMap_map]
    exact List.flatMap_singleton' list

theorem mem_statements {e : Entry} (here : e ∈ statements form enabled others list) :
    (∃ value, e = .enabled value) ∨ (∃ o ∈ others, e = .other o.1 o.2) ∨ e ∈ form.lines list := by
  rcases List.mem_append.mp here with here | here
  · obtain ⟨value, -, rfl⟩ := List.mem_map.mp here
    exact .inl ⟨value, rfl⟩
  · rcases List.mem_append.mp here with here | here
    · obtain ⟨o, given, rfl⟩ := List.mem_map.mp here
      exact .inr (.inl ⟨o, given, rfl⟩)
    · exact .inr (.inr here)

theorem unlike_of_statements (unlike : ∀ o ∈ others, o.1 ≠ enabledKey ∧ o.1 ≠ labelsKey)
    {name : String} {value : Scalar}
    (here : .other name value ∈ statements form enabled others list) :
    name ≠ enabledKey ∧ name ≠ labelsKey := by
  rcases mem_statements here with ⟨_, same⟩ | ⟨o, given, same⟩ | here
  · cases same
  · cases same
    exact unlike o given
  · cases form with
    | table => cases here
    | braces => cases List.mem_singleton.mp here
    | dotted =>
      obtain ⟨_, _, same⟩ := List.mem_map.mp here
      cases same

end Statements

section Spellings

variable {form : Form} {enabled : Option Bool} {others : List (String × Scalar)}
  {list : List (String × String)} {lines : List Entry} {labels : NameMap String}

theorem headerText_write (rest : List Char) :
    HeaderText ("[global_labels]\n".toList ++ rest) ["global_labels"] ('\n' :: rest) :=
  ⟨_, ']' :: '\n' :: rest, .refl _, .last (nameText_labels _), .refl _⟩

/-- A written configuration states it by the grammar, whatever its form. -/
theorem states_write (all : list.Perm labels.entries) (apart : (others.map Prod.fst).Nodup)
    (unlike : ∀ o ∈ others, o.1 ≠ enabledKey ∧ o.1 ≠ labelsKey)
    (order : lines.Perm (statements form enabled others list)) :
    States (write form lines list) ⟨enabled.getD true, labels⟩ := by
  have compatible : lines.Pairwise Entry.Compatible :=
    (order.pairwise_iff Entry.Compatible.symm).mpr
      (compatible_statements (distinct_of_perm all) apart unlike)
  have texts : ∀ e ∈ lines, ∀ rest, Entry.Text (e.write ++ rest) e rest := by
    intro e here rest
    apply entryText_write
    rintro name value rfl
    exact unlike_of_statements unlike (order.mem_iff.mp here)
  have stated := stated_statements order
  rw [← findSome?_enabled order]
  cases form with
  | table =>
    have none : ∀ e ∈ lines, e.name ≠ labelsKey := by
      intro e here
      rcases mem_statements (order.mem_iff.mp here) with ⟨value, rfl⟩ | ⟨o, given, rfl⟩ | here
      · exact (by decide : enabledKey ≠ labelsKey)
      · exact (unlike o given).2
      · cases here
    have body : Lines (LabelText []) (writeLines writeLabel list ++ []) list [] :=
      lines_write fun pair _ rest => labelText_write (.refl (writeLabel pair ++ rest))
    rw [List.append_nil] at body
    exact .table (lines_write texts) compatible none (headerText_write _) (lineEnd_newline _) body
      all
  | braces =>
    rw [stated_formLines (by decide)] at stated
    exact .lines (lines_write texts) compatible (stated.trans all)
  | dotted =>
    rw [stated_formLines (by decide)] at stated
    exact .lines (lines_write texts) compatible (stated.trans all)

/-- Every text that states a configuration is read as it. So is each of the three forms: with the
labels in any order, the lines in any order, further lines of other names among them, and without
the line that states whether metrics are collected. -/
theorem ofText_every_spelling :
    (∀ (text : String) (config : Config), States text.toList config → ofText text = .ok config) ∧
      ∀ (form : Form) (enabled : Option Bool) (others : List (String × Scalar))
        (list : List (String × String)) (labels : NameMap String) (lines : List Entry),
        list.Perm labels.entries →
        (others.map Prod.fst).Nodup →
        (∀ o ∈ others, o.1 ≠ enabledKey ∧ o.1 ≠ labelsKey) →
        lines.Perm (statements form enabled others list) →
        ofText (String.ofList (write form lines list)) = .ok ⟨enabled.getD true, labels⟩ := by
  refine ⟨fun _ _ => ofText_of_states, ?_⟩
  intro form enabled others list labels lines all apart unlike order
  apply ofText_of_states
  rw [String.toList_ofList]
  exact states_write all apart unlike order

theorem ofText_every_spelling_escaped :
    ofText "n=0b1#\r\n\"\\u0065nabled\"=false" = .ok ⟨false, .empty⟩ ∧
      ofText (String.ofList (write .table
        [.other "rate" (.integer (-7)), .enabled false] [("b\n", "\""), ("a", "\x7F")])) =
        .ok ⟨false, (NameMap.empty.insert "a" "\x7F").insert "b\n" "\""⟩ := by
  have name (rest : List Char) : NameText ("n".toList ++ rest) "n" rest :=
    nameText_bare (by decide) (by simp) rest
  have digit (rest : List Char) : Integer ("0b1".toList ++ rest) 1 rest :=
    .based (by decide : ('b', 2) ∈ [('x', 16), ('o', 8), ('b', 2)]) (.last (by decide))
  have first (rest : List Char) :
      Entry.Text ("n=0b1".toList ++ rest) (.other "n" (.integer 1)) rest :=
    ⟨by decide, by decide, _, _, .last (name _), .refl _,
      .integer (.refl _) (digit rest)⟩
  have code (rest : List Char) : CodePoint 4 ("0065".toList ++ rest) 'e' rest :=
    ⟨['0', '0', '6', '5'], rfl, List.all_eq_true.mp rfl, by decide, rfl⟩
  have letters (rest : List Char) :
      Spells ("\\u0065nabled\"".toList ++ rest) "enabled".toList rest :=
    .code (by decide : ('u', 4) ∈ [('u', 4), ('U', 8)]) (code _) (spells_write "nabled".toList rest)
  have second : Entry.Text "\"\\u0065nabled\"=false".toList (.enabled false) [] :=
    ⟨_, _, .last (.quoted ⟨_, .refl _, letters _⟩), .refl _, .no (.refl _)⟩
  have ending (rest : List Char) : LineEnd ("#\r\n".toList ++ rest) rest :=
    ⟨_, _, .refl _, .inr ⟨[], List.forall_mem_nil _, rfl⟩, .inr (.inl rfl)⟩
  have last : LineEnd [] [] := ⟨_, _, .refl _, .inl rfl, .inr (.inr ⟨rfl, rfl⟩)⟩
  have states : States "n=0b1#\r\n\"\\u0065nabled\"=false".toList ⟨false, .empty⟩ :=
    .lines (.line (first _) (ending _) (.line second last .done))
      (List.pairwise_pair.mpr (.of_ne (by decide))) (List.Perm.refl [])
  exact ⟨ofText_every_spelling.1 _ _ states, ofText_every_spelling.2 .table (some false)
    [("rate", .integer (-7))] [("b\n", "\""), ("a", "\x7F")] _ _ (by decide) (by decide)
    (by decide) (List.Perm.swap ..)⟩

end Spellings

end MetricCatalog.Exporter.Config
