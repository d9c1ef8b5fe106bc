import MetricCatalog.Proofs.Exporter.Config.Grammar
import MetricCatalog.Proofs.NameMap
import MetricCatalog.Proofs.Toml.Document
import MetricCatalog.Proofs.Toml.Item

/-!
# Configurations are read by the grammar

The lines of a document are taken up into its table one after another; what the table shows of the
lines so far is kept by each step. A configuration depends on no more than what is found in the
table under two names.
-/

namespace MetricCatalog.Exporter.Config

open Toml

section Lines

/-- The assignment that a line is read as. -/
def Entry.Given (a : Assignment) : Entry → Prop
  | .enabled value => a.Gives ["enabled"] (· = .boolean value)
  | .labels list =>
    a.Gives ["global_labels"] fun item =>
      ∃ inner, item = .table .closed inner ∧ Entries.Hold inner list
  | .label pair => a.Gives ["global_labels", pair.1] (· = .string pair.2)
  | .other name value =>
    name ≠ "enabled" ∧ name ≠ "global_labels" ∧ a.Gives [name] (· = value.item)

theorem keyed_label (path : List String) : Keyed (LabelText path) where
  opens := AssignmentText.opens
  length_lt := AssignmentText.length_lt shortens_string

theorem readable_label (path : List String) (few : path.length < depthLimit) (depth : Nat)
    (pair : String × String) :
    Readable (readValue depth) (LabelText path)
      (fun a pair => a.Gives (path ++ [pair.1]) (· = .string pair.2)) pair := by
  intro s rest text ends
  have few : (path ++ [pair.1]).length ≤ depthLimit := by
    rw [List.length_append]
    exact few
  exact readAssignment_eq (reads_string depth) text few ends

/-- Labels between braces, all of different names, are read as the entries of a table. -/
theorem reads_labels (depth : Nat) :
    Reads (readValue (depth + 1))
      (fun s list rest => (list.map Prod.fst).Nodup ∧ TableText (LabelText []) s list rest)
      fun item list => ∃ inner, item = .table .closed inner ∧ Entries.Hold inner list := by
  refine ⟨fun {s list rest} text _ => ?_⟩
  obtain ⟨distinct, text⟩ := text
  obtain ⟨made, given, read⟩ :=
    readTable_eq (readable_label [] (by decide) depth) (keyed_label []) text
  obtain ⟨inner, applied, hold⟩ := applyAll_strings given distinct
  exact ⟨_, read inner applied, inner, rfl, hold⟩

theorem keyed_entry : Keyed Entry.Text where
  opens {s e rest} text := by
    cases e with
    | enabled => exact AssignmentText.opens text
    | labels => exact AssignmentText.opens text
    | label => exact AssignmentText.opens text
    | other => exact AssignmentText.opens text.2.2
  length_lt {s e rest} text := by
    cases e with
    | enabled => exact AssignmentText.length_lt shortens_scalar text
    | labels => exact AssignmentText.length_lt (shortens_table (keyed_label [])) text
    | label => exact (keyed_label ["global_labels"]).length_lt text
    | other => exact AssignmentText.length_lt shortens_scalar text.2.2

theorem readable_entry {e : Entry} (distinct : (e.stated.map Prod.fst).Nodup) :
    Readable (readValue depthLimit) Entry.Text (fun a e => e.Given a) e := by
  intro s rest text ends
  cases e with
  | enabled value =>
    obtain ⟨made, read, names, item⟩ :=
      readAssignment_eq (reads_scalar depthLimit) text (by decide) ends
    exact ⟨made, read, names, item⟩
  | labels list =>
    obtain ⟨t, u, key, sign, table⟩ := text
    exact readAssignment_eq (reads_labels (depthLimit - 1)) ⟨t, u, key, sign, distinct, table⟩
      (by decide) ends
  | label pair =>
    exact readable_label ["global_labels"] (by decide) depthLimit pair s rest text ends
  | other name value =>
    obtain ⟨noFlag, noLabels, text⟩ := text
    obtain ⟨made, read, gives⟩ :=
      readAssignment_eq (reads_scalar depthLimit) text (by simp [depthLimit]) ends
    exact ⟨made, read, noFlag, noLabels, gives⟩

end Lines

section Table

variable {entries : Entries} {done : List Entry} {e : Entry} {a : Assignment}

/-- What a table shows of the lines that have been taken up into it. -/
structure Shows (entries : Entries) (done : List Entry) : Prop where
  distinct : entries.names.Nodup
  names : ∀ name, name ∈ entries.names ↔ name ∈ done.map Entry.name
  enabled : entries.find? enabledKey = (done.findSome? Entry.enabled?).map Item.boolean
  /-- The table of the labels can take up more of them if none have been stated between braces. -/
  labels : labelsKey ∈ done.map Entry.name → ∃ kind inner,
    entries.find? labelsKey = some (.table kind inner) ∧
      Entries.Hold inner (done.flatMap Entry.stated) ∧
      ((∀ d ∈ done, Entry.name d = labelsKey → ∃ pair, d = .label pair) → kind = .dotted)

theorem shows_nil : Shows [] [] where
  distinct := .nil
  names _ := Iff.rfl
  enabled := rfl
  labels none := by cases none

theorem stated_of_name (other : e.name ≠ labelsKey) : e.stated = [] := by
  cases e with
  | labels => exact absurd rfl other
  | label => exact absurd rfl other
  | _ => rfl

theorem flatMap_stated (other : labelsKey ∉ done.map Entry.name) :
    done.flatMap Entry.stated = [] :=
  List.flatMap_eq_nil_iff.mpr fun _ here =>
    stated_of_name fun named => other (named ▸ List.mem_map_of_mem here)

/-- A line of a new name is shown by an entry at the end. -/
theorem Shows.concat (shows : Shows entries done) {label : Label} {item : Item}
    (fresh : e.name ∉ entries.names) (named : label.name = e.name)
    (enabled : (if e.name = enabledKey then some item else none) = e.enabled?.map Item.boolean)
    (labels : e.name = labelsKey → ∃ kind inner, item = .table kind inner ∧
      Entries.Hold inner e.stated ∧ ((∃ pair, e = .label pair) → kind = .dotted)) :
    Shows (entries ++ [(label, item)]) (done ++ [e]) where
  distinct := Entries.nodup_concat shows.distinct (by rwa [named])
  names name := by
    rw [Entries.names, List.map_append, List.map_append, List.mem_append, List.mem_append]
    refine or_congr (shows.names name) ?_
    rw [List.map_singleton, List.map_singleton, named]
  enabled := by
    rw [Entries.find?_concat, named, enabled, shows.enabled, List.findSome?_append,
      List.findSome?_singleton, Option.map_or]
  labels here := by
    rw [Entries.find?_concat, named, List.flatMap_append, List.flatMap_singleton]
    by_cases new : e.name = labelsKey
    · obtain ⟨kind, inner, rfl, hold, dotted⟩ := labels new
      rw [new] at fresh
      have absent : labelsKey ∉ done.map Entry.name := fun old => fresh ((shows.names _).mpr old)
      refine ⟨kind, inner, ?_, ?_, fun all => ?_⟩
      · rw [Entries.find?_eq_none_iff.mpr fresh, if_pos new]
        rfl
      · rwa [flatMap_stated absent, List.nil_append]
      · exact dotted (all e (List.mem_append_right done List.mem_cons_self) new)
    · rw [List.map_append, List.mem_append] at here
      have old := here.resolve_right fun here => new (List.mem_singleton.mp here).symm
      obtain ⟨kind, inner, found, hold, dotted⟩ := shows.labels old
      refine ⟨kind, inner, ?_, ?_, fun all => ?_⟩
      · rw [found]
        rfl
      · rwa [stated_of_name new, List.append_nil]
      · exact dotted fun d here => all d (List.mem_append_left [e] here)

/-- A further label under a dotted key goes into the table that is there for the labels. -/
theorem Shows.replace (shows : Shows entries done) {after inner : Entries}
    {pair : String × String} (old : labelsKey ∈ done.map Entry.name)
    (kept : after.names = entries.names)
    (known : ∀ other, after.find? other =
      if other = labelsKey then some (.table .dotted inner) else entries.find? other)
    (hold : Entries.Hold inner (done.flatMap Entry.stated ++ [pair])) :
    Shows after (done ++ [.label pair]) where
  distinct := by rw [kept]; exact shows.distinct
  names name := by
    rw [kept, List.map_append, List.mem_append, shows.names]
    refine ⟨Or.inl, fun here => here.elim id fun new => ?_⟩
    rw [List.mem_singleton.mp new]
    exact old
  enabled := by
    rw [known, if_neg (by decide), shows.enabled, List.findSome?_append, List.findSome?_singleton]
    exact congrArg _ (Option.or_none).symm
  labels _ := by
    refine ⟨.dotted, inner, by rw [known, if_pos rfl], ?_, fun _ => rfl⟩
    rwa [List.flatMap_append, List.flatMap_singleton]

theorem label_of_compatible {pair : String × String} (compatible : e.Compatible (.label pair))
    (same : e.name = labelsKey) : ∃ other, e = .label other ∧ other.1 ≠ pair.1 := by
  obtain ⟨other, _, rfl, last, different⟩ := compatible same
  cases last
  exact ⟨other, rfl, different⟩

/-- The labels stated so far have other names than one that is compatible with them. -/
theorem fresh_of_compatible {pair : String × String}
    (compatible : ∀ d ∈ done, Entry.Compatible d (.label pair)) :
    pair.1 ∉ (done.flatMap Entry.stated).map Prod.fst := by
  rw [List.mem_map]
  rintro ⟨other, stated, same⟩
  obtain ⟨d, here, stated⟩ := List.mem_flatMap.mp stated
  by_cases named : d.name = labelsKey
  · obtain ⟨_, rfl, different⟩ := label_of_compatible (compatible d here) named
    cases List.mem_singleton.mp stated
    exact different same
  · rw [stated_of_name named] at stated
    cases stated

/-- A line under a dotted key is the first to state a label, or those before it are of its kind. -/
theorem Shows.take_label (shows : Shows entries done) {pair : String × String}
    (given : (Entry.label pair).Given a)
    (compatible : ∀ d ∈ done, Entry.Compatible d (.label pair)) :
    ∃ after, a.apply entries = some after ∧ Shows after (done ++ [.label pair]) := by
  obtain ⟨names, item⟩ := given
  obtain ⟨way, path, first, named⟩ := keyNames_eq_pair names
  have apply : a.apply entries = Entries.assign [way] a.label (.string pair.2) entries := by
    rw [Assignment.apply, path, item]
  have label : a.label.name = pair.1 := named
  by_cases old : labelsKey ∈ done.map Entry.name
  · obtain ⟨kind, inner, found, hold, dotted⟩ := shows.labels old
    obtain rfl := dotted fun d here same =>
      (label_of_compatible (compatible d here) same).imp fun _ => And.left
    have fresh : a.label.name ∉ Entries.names inner := by
      rw [hold.names, label]
      exact fresh_of_compatible compatible
    have found : entries.find? way.name = some (.table .dotted inner) := by rwa [first]
    obtain ⟨after, assigned, kept, known⟩ :=
      Entries.assign_of_found found fresh (.string pair.2)
    refine ⟨after, apply.trans assigned, shows.replace old kept (by rwa [first] at known) ?_⟩
    have added := hold.concat a.label pair.2
    rwa [label] at added
  · have fresh : labelsKey ∉ entries.names := fun here => old ((shows.names _).mp here)
    refine ⟨_, apply.trans (Entries.assign_of_fresh (by rwa [first])), ?_⟩
    refine shows.concat fresh first rfl fun _ => ⟨.dotted, _, rfl, ?_, fun _ => rfl⟩
    have added := @Entries.Hold.concat [] [] rfl a.label pair.2
    rwa [label] at added

/-- A line that is compatible with those before it is taken up. -/
theorem Shows.take (shows : Shows entries done) (given : e.Given a)
    (compatible : ∀ d ∈ done, Entry.Compatible d e) :
    ∃ after, a.apply entries = some after ∧ Shows after (done ++ [e]) := by
  have fresh (plain : ∀ pair, e ≠ .label pair) : e.name ∉ entries.names := by
    intro here
    obtain ⟨d, old, same⟩ := List.mem_map.mp ((shows.names _).mp here)
    obtain ⟨_, pair, -, last, -⟩ := compatible d old same
    exact plain pair last
  cases e with
  | enabled value =>
    have given : a.Gives ["enabled"] (· = .boolean value) := given
    have fresh := fresh fun _ same => nomatch same
    refine ⟨_, given.apply fresh, shows.concat fresh given.label ?_ fun same => ?_⟩
    · rw [given.2]
      rfl
    · exact absurd (show "enabled" = "global_labels" from same) (by decide)
  | labels list =>
    have given : a.Gives ["global_labels"] fun item =>
      ∃ inner, item = .table .closed inner ∧ Entries.Hold inner list := given
    have fresh := fresh fun _ same => nomatch same
    obtain ⟨inner, item, hold⟩ := given.2
    refine ⟨_, given.apply fresh, shows.concat fresh given.label rfl fun _ => ?_⟩
    exact ⟨.closed, inner, item, hold, fun ⟨_, same⟩ => nomatch same⟩
  | label pair => exact shows.take_label given compatible
  | other name value =>
    obtain ⟨noFlag, noLabels, given⟩ := given
    have fresh := fresh fun _ same => nomatch same
    refine ⟨_, given.apply fresh, shows.concat fresh given.label (if_neg noFlag) fun same => ?_⟩
    exact absurd same noLabels

/-- All lines of a document are taken up, if they are compatible. -/
theorem Shows.takeAll {made : List Assignment} {lines : List Entry}
    (given : List.Forall₂ (fun a e => Entry.Given a e) made lines) (shows : Shows entries done)
    (compatible : (done ++ lines).Pairwise Entry.Compatible) :
    ∃ after, applyAll made entries = some after ∧ Shows after (done ++ lines) := by
  induction given generalizing entries done with
  | nil => exact ⟨entries, rfl, by rwa [List.append_nil]⟩
  | @cons a e made lines first _ ih =>
    have before : ∀ d ∈ done, Entry.Compatible d e := fun d here =>
      (List.pairwise_append.mp compatible).2.2 d here e List.mem_cons_self
    obtain ⟨next, applied, shows⟩ := shows.take first before
    obtain ⟨after, rest, shows⟩ := ih shows (by rwa [List.append_assoc])
    refine ⟨after, ?_, by rwa [List.append_assoc] at shows⟩
    rw [applyAll, List.foldlM_cons, applied]
    exact rest

end Table

section Outcome

variable {entries inner : Entries} {labels : NameMap String} {pairs : List (String × String)}

theorem foldlM_readLabel (hold : Entries.Hold inner pairs) (before : NameMap String) :
    inner.foldlM readLabel before =
      .ok (pairs.foldl (fun m pair => m.insert pair.1 pair.2) before) := by
  induction pairs generalizing inner before with
  | nil =>
    rw [List.map_eq_nil_iff.mp hold]
    rfl
  | cons pair pairs ih =>
    obtain ⟨entry, others, rfl, first, hold⟩ := List.map_eq_cons_iff.mp hold
    obtain ⟨named, value⟩ := Prod.mk.inj first
    have read : readLabel before entry = .ok (before.insert pair.1 pair.2) := by
      rw [readLabel, value, named]
    rw [List.foldlM_cons, read, List.foldl_cons]
    exact ih hold _

/-- Strings under the names of the labels are read as the labels, whatever their order. -/
theorem readLabels_of_hold (place : Span) (kind : TableKind) (hold : Entries.Hold inner pairs)
    (all : pairs.Perm labels.entries) : readLabels place (.table kind inner) = .ok labels := by
  rw [readLabels, foldlM_readLabel hold, NameMap.foldl_insert_of_perm all]

/-- A configuration is told by what is found under two names. -/
theorem foldlM_readEntry {config : Config} (enabled : Option Bool)
    (labels : Option (NameMap String)) (distinct : entries.names.Nodup)
    (foundEnabled : entries.find? enabledKey = enabled.map Item.boolean)
    (foundLabels : ∀ place,
      (entries.find? labelsKey).map (readLabels place) = labels.map Except.ok) :
    entries.foldlM readEntry config =
      .ok ⟨enabled.getD config.enabled, labels.getD config.labels⟩ := by
  induction entries generalizing config enabled labels with
  | nil =>
    cases enabled with
    | some => cases foundEnabled
    | none =>
      cases labels with
      | some => cases foundLabels ⟨0, 0⟩
      | none => rfl
  | cons entry entries ih =>
    obtain ⟨fresh, distinct⟩ := List.nodup_cons.mp distinct
    have fresh : Entries.find? entry.1.name entries = none := Entries.find?_eq_none_iff.mpr fresh
    rw [Entries.find?_cons] at foundEnabled
    simp only [Entries.find?_cons] at foundLabels
    rw [List.foldlM_cons]
    by_cases flag : entry.1.name = enabledKey
    · rw [flag] at fresh foundLabels
      rw [if_pos flag] at foundEnabled
      obtain ⟨value, rfl, same⟩ := Option.map_eq_some_iff.mp foundEnabled.symm
      have read : readEntry config entry = .ok { config with enabled := value } := by
        rw [readEntry, if_pos flag, ← same]
      rw [read]
      exact ih none labels distinct fresh foundLabels
    · rw [if_neg flag] at foundEnabled
      by_cases table : entry.1.name = labelsKey
      · rw [table] at fresh
        simp only [table, if_true, Option.map_some] at foundLabels
        obtain ⟨value, rfl, -⟩ := Option.map_eq_some_iff.mp (foundLabels ⟨0, 0⟩).symm
        have read : readEntry config entry = .ok { config with labels := value } := by
          rw [readEntry, if_neg flag, if_pos table, Option.some.inj (foundLabels entry.1.place)]
          rfl
        rw [read]
        exact ih enabled none distinct foundEnabled fun _ => by rw [fresh]; rfl
      · simp only [table, if_false] at foundLabels
        have read : readEntry config entry = .ok config := by
          rw [readEntry, if_neg flag, if_neg table]
        rw [read]
        exact ih enabled labels distinct foundEnabled foundLabels

/-- Lines that state labels, or none, are a configuration by themselves. -/
theorem ofEntries_of_shows {lines : List Entry} (shows : Shows entries lines)
    (all : (lines.flatMap Entry.stated).Perm labels.entries) :
    ofEntries entries = .ok ⟨(lines.findSome? Entry.enabled?).getD true, labels⟩ := by
  by_cases old : labelsKey ∈ lines.map Entry.name
  · obtain ⟨kind, inner, found, hold, -⟩ := shows.labels old
    refine foldlM_readEntry _ (some labels) shows.distinct shows.enabled fun place => ?_
    rw [found, Option.map_some, readLabels_of_hold place kind hold all]
    rfl
  · have absent : labelsKey ∉ entries.names := fun here => old ((shows.names _).mp here)
    have none : labels = NameMap.empty := by
      rw [flatMap_stated old] at all
      exact NameMap.ext_entries all.symm.eq_nil
    rw [none]
    refine foldlM_readEntry _ .none shows.distinct shows.enabled fun place => ?_
    rw [Entries.find?_eq_none_iff.mpr absent]
    rfl

/-- Lines that state no labels are a configuration with a table of them at the end. -/
theorem ofEntries_of_table {lines : List Entry} (shows : Shows entries lines)
    (none : ∀ e ∈ lines, e.name ≠ labelsKey) {label : Label} (named : label.name = labelsKey)
    (hold : Entries.Hold inner pairs) (all : pairs.Perm labels.entries) :
    ofEntries (entries ++ [(label, .table .header inner)]) =
      .ok ⟨(lines.findSome? Entry.enabled?).getD true, labels⟩ := by
  have absent : labelsKey ∉ entries.names := by
    rw [shows.names, List.mem_map]
    rintro ⟨e, here, same⟩
    exact none e here same
  refine foldlM_readEntry _ (some labels) ?_ ?_ fun place => ?_
  · exact Entries.nodup_concat shows.distinct (by rwa [named])
  · rw [Entries.find?_concat, named, if_neg (by decide), Option.or_none, shows.enabled]
  · rw [Entries.find?_concat, named, if_pos rfl, Entries.find?_eq_none_iff.mpr absent,
      Option.none_or, Option.map_some, readLabels_of_hold place .header hold all]
    rfl

end Outcome

section Documents

variable {lines : List Entry} {labels : NameMap String}

theorem distinct_of_perm {pairs : List (String × String)} (all : pairs.Perm labels.entries) :
    (pairs.map Prod.fst).Nodup :=
  (all.map Prod.fst).nodup_iff.mpr labels.names_nodup

theorem distinct_stated (all : (lines.flatMap Entry.stated).Perm labels.entries) :
    ∀ e ∈ lines, (e.stated.map Prod.fst).Nodup := by
  intro e here
  have part : e.stated.Sublist (lines.flatMap Entry.stated) :=
    List.sublist_flatten_of_mem (List.mem_map_of_mem here)
  exact (distinct_of_perm all).sublist (part.map Prod.fst)

theorem ofText_of_parse {text : String} {entries : Entries} {config : Config}
    (parsed : parse text = some entries) (read : ofEntries entries = .ok config) :
    ofText text = .ok config := by
  rw [ofText, parsed]
  simp only [read]
  rfl

/-- A document of lines alone shows what they state. -/
theorem parse_of_lines {text : String} (stating : Lines Entry.Text text.toList lines [])
    (compatible : lines.Pairwise Entry.Compatible)
    (distinct : ∀ e ∈ lines, (e.stated.map Prod.fst).Nodup) :
    ∃ entries, parse text = some entries ∧ Shows entries lines := by
  obtain ⟨made, given, read⟩ := readStatements_whole keyed_entry
    (fun e here => readable_entry (distinct e here)) stating (Nat.lt_succ_self _)
  obtain ⟨entries, applied, shows⟩ := Shows.takeAll given shows_nil compatible
  refine ⟨entries, ?_, shows⟩
  rw [parse_eq (skipByteOrderMark_lines keyed_entry stating rfl) read, Document.table, applied]
  rfl

/-- A table of labels after the lines is the last entry of the document's table. -/
theorem parse_of_table {text : String} {t u v : List Char} {pairs : List (String × String)}
    (stating : Lines Entry.Text text.toList lines t) (compatible : lines.Pairwise Entry.Compatible)
    (none : ∀ e ∈ lines, e.name ≠ labelsKey) (header : HeaderText t ["global_labels"] u)
    (ending : LineEnd u v) (body : Lines (LabelText []) v pairs [])
    (distinct : (pairs.map Prod.fst).Nodup) :
    ∃ top label inner, parse text = some (top ++ [(label, .table .header inner)]) ∧
      Shows top lines ∧ label.name = labelsKey ∧ Entries.Hold inner pairs := by
  have readable : ∀ e ∈ lines,
      Readable (readValue depthLimit) Entry.Text (fun a e => e.Given a) e := by
    intro e here
    apply readable_entry
    rw [stated_of_name (none e here)]
    exact .nil
  obtain ⟨m, made, enough, given, read⟩ :=
    readStatements_lines keyed_entry readable stating (Nat.lt_succ_self _)
  obtain ⟨m, rfl⟩ := Nat.exists_eq_succ_of_ne_zero (Nat.ne_of_gt (Nat.zero_lt_of_lt enough))
  obtain ⟨opened, readHeader, single, named⟩ :=
    readStatements_header (n := m) header (by decide) ending
  have shorter := header.length_lt
  have further := ending.length_le
  obtain ⟨filling, givenInner, readInner⟩ := readStatements_whole (n := m) (keyed_label [])
    (fun pair _ => readable_label [] (by decide) depthLimit pair) body (by omega)
  rw [readHeader, readInner, Option.map_some, Option.map_some, Document.addHeader,
    List.append_nil] at read
  obtain ⟨top, applied, shows⟩ := Shows.takeAll given shows_nil compatible
  obtain ⟨inner, filled, hold⟩ := applyAll_strings givenInner distinct
  have fresh : labelsKey ∉ top.names := by
    rw [shows.names, List.mem_map]
    rintro ⟨e, here, same⟩
    exact none e here same
  have taken : Section.apply ⟨opened, filling⟩ top = _ :=
    Section.apply_of_fresh single named fresh filled
  refine ⟨top, Section.label ⟨opened, filling⟩, inner, ?_, shows,
    (keyNames_eq_singleton named).2, hold⟩
  rw [parse_eq (skipByteOrderMark_lines keyed_entry stating (skipByteOrderMark_header header)) read,
    Document.table, applied]
  simp [taken]

/-- A text that states a configuration is read as it. -/
theorem ofText_of_states {text : String} {config : Config} (states : States text.toList config) :
    ofText text = .ok config := by
  generalize same : text.toList = s at states
  subst same
  cases states with
  | lines lines compatible all =>
    obtain ⟨entries, parsed, shows⟩ := parse_of_lines lines compatible (distinct_stated all)
    exact ofText_of_parse parsed (ofEntries_of_shows shows all)
  | table lines compatible none header ending body all =>
    obtain ⟨top, label, inner, parsed, shows, named, hold⟩ :=
      parse_of_table lines compatible none header ending body (distinct_of_perm all)
    exact ofText_of_parse parsed (ofEntries_of_table shows none named hold all)

end Documents

end MetricCatalog.Exporter.Config
