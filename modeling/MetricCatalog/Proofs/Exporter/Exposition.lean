import MetricCatalog.Proofs.Exporter.Sample
import MetricCatalog.Proofs.Exporter.Totals
import MetricCatalog.Proofs.NameMap

/-!
# What an exporter shows

Read off its text, an exporter shows the totals of all runs it has taken up and nothing else, at
any time and whatever labels it is configured with: these stand before the labels of every sample,
each once, and without them the samples are those of an exporter without labels.
-/

namespace MetricCatalog

open Exporter

/-- The samples of a histogram that was given some sizes. -/
def Histogram.rows (h : Histogram) (sizes : List Nat) : List Sample :=
  (Metric.sizeLimits.map fun limit =>
    ⟨h.metric ++ "_bucket", [("le", toString limit)], sizes.countP fun size => size ≤ limit⟩) ++
  [⟨h.metric ++ "_bucket", [("le", "+Inf")], sizes.length⟩,
    ⟨h.metric ++ "_sum", [], (sizes : Multiset Nat).sum⟩,
    ⟨h.metric ++ "_count", [], sizes.length⟩]

/-- The samples of a histogram, which has none before it is given a size. -/
def Histogram.due (h : Histogram) (sizes : List Nat) : List Sample :=
  if sizes = [] then [] else h.rows sizes

/-- The sample of a counter. -/
def Counter.row (c : Counter) (n : Nat) : Sample := ⟨c.metric, [c.label], n⟩

/-- The samples of counters, which have none before they are incremented. -/
def Counter.due (counters : List Counter) (totals : Counter → Nat) : List Sample :=
  (counters.filter fun c => 0 < totals c).map fun c => c.row (totals c)

namespace Exporter

open Telemetry Catalog

/-- The names of labels that samples have of themselves. -/
def ownNames : List String := [Metric.outcomeLabel, Metric.reasonLabel, "le"]

namespace Sample

/-- The line of a sample whose labels are yet to be escaped. -/
def line (s : Sample) : String := sampleLine s.metric (s.labels.map Labels.writeOne) s.value

/-- The sample as its line shows it. -/
def shown (s : Sample) : Sample := { s with labels := s.labels.map Labels.shown }

/-- The sample with labels before its own. -/
def under (labels : Labels) (s : Sample) : Sample := { s with labels := labels ++ s.labels }

/-- The sample without the labels of some names. -/
def without (names : List String) (s : Sample) : Sample :=
  { s with labels := s.labels.filter fun label => label.1 ∉ names }

/-- What tells a sample from all others. -/
def key (s : Sample) : String × Labels := (s.metric, s.labels)

/-- The sample has one label of this name, the one given. -/
def Carries (s : Sample) (label : String × String) : Prop :=
  label ∈ s.labels ∧ (s.labels.map Prod.fst).count label.1 = 1

/-- The sample can be written in a line and read back. -/
structure Legible (s : Sample) : Prop where
  metric : s.metric.toList.all isMetricChar = true
  labels : ∀ label ∈ s.labels, Labels.IsName label.1

/-- The sample has no labels but its own, and these come back as they are. -/
structure Bare (s : Sample) : Prop extends Legible s where
  own : ∀ label ∈ s.labels, label.1 ∈ ownNames ∧ Labels.IsPlain label.2

/-- A label that is carried is the only one of its name. -/
theorem Carries.unique {s : Sample} {label other : String × String} (one : s.Carries label)
    (two : s.Carries other) (same : label.1 = other.1) : label = other := by
  have single : (s.labels.filter fun l => l.1 == label.1).length = 1 := by
    have counted := one.2
    rwa [List.count, List.countP_map, List.countP_eq_length_filter] at counted
  obtain ⟨only, filtered⟩ := List.length_eq_one_iff.mp single
  have alone {l : String × String} (here : l ∈ s.labels) (named : l.1 = label.1) : l = only := by
    have kept : l ∈ s.labels.filter fun l => l.1 == label.1 :=
      List.mem_filter.mpr ⟨here, beq_iff_eq.mpr named⟩
    rwa [filtered, List.mem_singleton] at kept
  exact (alone one.1 rfl).trans (alone two.1 same.symm).symm

theorem ofLine?_line {s : Sample} (ok : s.Legible) : ofLine? s.line = some s.shown :=
  ofLine?_sampleLine s.value ok.metric ok.labels

theorem ofLine?_comment {line : String} (comment : line.toList.head? = some '#') :
    ofLine? line = none := by
  obtain ⟨rest, spelled⟩ := List.head?_eq_some_iff.mp comment
  rw [ofLine?, spelled]
  rfl

end Sample

theorem scrape_append {xs ys : List Block} {ss ts : List Sample} (first : scrape xs = some ss)
    (second : scrape ys = some ts) : scrape (xs ++ ys) = some (ss ++ ts) := by
  rw [scrape] at first second ⊢
  rw [List.flatten_append, List.filter_append, List.mapM_append, first, second]
  rfl

/-- Lines are read one by one, each as its sample. -/
theorem mapM_line {rows : List Sample} (ok : ∀ s ∈ rows, s.Legible) :
    (rows.map Sample.line).mapM Sample.ofLine? = some (rows.map Sample.shown) := by
  induction rows with
  | nil => rfl
  | cons s rows ih =>
    rw [List.map_cons, List.mapM_cons, Sample.ofLine?_line (ok s List.mem_cons_self),
      ih fun s here => ok s (List.mem_cons_of_mem _ here)]
    rfl

theorem scrape_block {metric kind : String} {rows : List Sample} (ok : ∀ s ∈ rows, s.Legible) :
    scrape [typeLine metric kind :: rows.map Sample.line] = some (rows.map Sample.shown) := by
  have comment : (typeLine metric kind).toList.head? = some '#' := by simp [typeLine]
  have kept : (rows.map Sample.line).filter (fun line => line.toList.head? ≠ some '#') =
      rows.map Sample.line := by
    refine List.filter_eq_self.mpr fun line here => decide_eq_true fun comment => ?_
    obtain ⟨s, given, rfl⟩ := List.mem_map.mp here
    have read := Sample.ofLine?_line (ok s given)
    rw [Sample.ofLine?_comment comment] at read
    cases read
  rw [scrape, List.flatten_singleton, List.filter_cons_of_neg (by simp [comment]), kept,
    mapM_line ok]

/-- What all samples that may ever be shown are told apart by. -/
def keys : List (String × Labels) :=
  (Histogram.rows .completeNames [] ++ Histogram.rows .nextLevelNames []).map Sample.key ++
    (rejectionCounters ++ observationCounters).map fun c => (c.row 0).key

theorem nodup_keys : keys.Nodup := by decide +kernel

theorem bare_of_mem_rows {h : Histogram} {sizes : List Nat} {s : Sample} (row : s ∈ h.rows sizes) :
    s.Bare := by
  have metric {suffix : String} (plain : suffix.toList.all Sample.isMetricChar = true) :
      (h.metric ++ suffix).toList.all Sample.isMetricChar = true := by
    rw [String.toList_append, List.all_append, plain, Bool.and_true]
    cases h <;> decide +kernel
  have limits : ∀ limit ∈ Metric.sizeLimits, Labels.IsPlain (toString limit) := by decide +kernel
  have name : Labels.IsName "le" ∧ "le" ∈ ownNames := by decide +kernel
  rcases List.mem_append.mp row with bucket | row
  · obtain ⟨limit, known, rfl⟩ := List.mem_map.mp bucket
    exact ⟨⟨metric (by decide +kernel), List.forall_mem_singleton.mpr name.1⟩,
      List.forall_mem_singleton.mpr ⟨name.2, limits limit known⟩⟩
  · rw [List.mem_cons, List.mem_cons, List.mem_singleton] at row
    rcases row with rfl | rfl | rfl
    · exact ⟨⟨metric (by decide +kernel), List.forall_mem_singleton.mpr name.1⟩,
        List.forall_mem_singleton.mpr ⟨name.2, by decide +kernel⟩⟩
    · exact ⟨⟨metric (by decide +kernel), List.forall_mem_nil _⟩, List.forall_mem_nil _⟩
    · exact ⟨⟨metric (by decide +kernel), List.forall_mem_nil _⟩, List.forall_mem_nil _⟩

theorem bare_row (c : Counter) (n : Nat) : (c.row n).Bare := by
  have own : c.metric.toList.all Sample.isMetricChar = true ∧
      Labels.IsName c.label.1 ∧ c.label.1 ∈ ownNames ∧ Labels.IsPlain c.label.2 := by
    rcases c with (_ | _ | _) | (_ | _ | _ | _) <;> decide +kernel
  exact ⟨⟨own.1, List.forall_mem_singleton.mpr own.2.1⟩, List.forall_mem_singleton.mpr own.2.2⟩

theorem mem_counters (c : Counter) : c ∈ rejectionCounters ++ observationCounters := by
  rcases c with (_ | _ | _) | (_ | _ | _ | _) <;> decide

/-- The samples of an exporter without labels that has taken up some signals. -/
def samplesOf (signals : List Signal) : List Sample :=
  Histogram.due .completeNames (samples signals .completeNames) ++
    Histogram.due .nextLevelNames (samples signals .nextLevelNames) ++
    Counter.due (rejectionCounters ++ observationCounters) (total signals)

theorem keys_samplesOf (signals : List Signal) :
    ((samplesOf signals).map Sample.key).Sublist keys := by
  have rows (h : Histogram) :
      ((h.due (samples signals h)).map Sample.key).Sublist ((h.rows []).map Sample.key) := by
    rw [Histogram.due]
    split
    · exact List.nil_sublist _
    · exact List.Sublist.refl _
  rw [samplesOf, keys, List.map_append, List.map_append, List.map_append, Counter.due, List.map_map]
  exact ((rows _).append (rows _)).append (List.filter_sublist.map _)

theorem bare_of_mem_due {h : Histogram} {sizes : List Nat} {s : Sample} (due : s ∈ h.due sizes) :
    s.Bare := by
  rw [Histogram.due] at due
  split at due
  · cases due
  · exact bare_of_mem_rows due

theorem bare_of_mem_counters {counters : List Counter} {totals : Counter → Nat} {s : Sample}
    (due : s ∈ Counter.due counters totals) : s.Bare := by
  obtain ⟨c, -, rfl⟩ := List.mem_map.mp due
  exact bare_row c _

theorem bare_of_mem_samplesOf {signals : List Signal} {s : Sample} (here : s ∈ samplesOf signals) :
    s.Bare := by
  rcases List.mem_append.mp here with sizes | counts
  · rcases List.mem_append.mp sizes with complete | next
    · exact bare_of_mem_due complete
    · exact bare_of_mem_due next
  · exact bare_of_mem_counters counts

section Configured

variable {labels : Labels}

theorem Labels.set_of_absent {name : String} (absent : ∀ label ∈ labels, label.1 ≠ name)
    (value : String) : labels.set name value = labels ++ [(name, value)] := by
  induction labels with
  | nil => rfl
  | cons label labels ih =>
    rw [set, if_neg (absent label List.mem_cons_self),
      ih fun other here => absent other (List.mem_cons_of_mem _ here)]
    rfl

theorem legible_under (named : ∀ label ∈ labels, Labels.IsName label.1) {s : Sample}
    (bare : s.Bare) : (s.under labels).Legible := by
  refine ⟨bare.metric, fun label here => ?_⟩
  rcases List.mem_append.mp here with configured | here
  · exact named label configured
  · exact bare.labels label here

theorem shown_under {s : Sample} (bare : s.Bare) :
    (s.under labels).shown = s.under (labels.map Labels.shown) := by
  have same : s.labels.map Labels.shown = s.labels := by
    refine (List.map_congr_left fun label here => ?_).trans (List.map_id s.labels)
    exact Labels.shown_eq_iff.mpr (bare.own label here).2
  rw [Sample.shown, Sample.under, List.map_append, same]
  rfl

/-- A block of samples under the configured labels. -/
theorem scrape_rows (named : ∀ label ∈ labels, Labels.IsName label.1) {metric kind : String}
    {rows : List Sample} (bare : ∀ s ∈ rows, s.Bare) :
    scrape [typeLine metric kind :: (rows.map (Sample.under labels)).map Sample.line] =
      some (rows.map (Sample.under (labels.map Labels.shown))) := by
  have legible : ∀ s ∈ rows.map (Sample.under labels), s.Legible := by
    intro s here
    obtain ⟨row, given, rfl⟩ := List.mem_map.mp here
    exact legible_under named (bare row given)
  rw [scrape_block legible, List.map_map]
  exact congrArg some (List.map_congr_left fun s here => shown_under (bare s here))

theorem scrape_histogramBlock (named : ∀ label ∈ labels, Labels.IsName label.1)
    (signals : List Signal) (h : Histogram) :
    scrape (histogramBlock labels (.of signals) h).toList =
      some ((h.due (samples signals h)).map (Sample.under (labels.map Labels.shown))) := by
  have lines : histogramBlock labels (.of signals) h =
      if samples signals h = [] then none
      else some (typeLine h.metric "histogram" ::
        ((h.rows (samples signals h)).map (Sample.under labels)).map Sample.line) := by
    simp [histogramBlock, Registry.of, Distribution.of, Histogram.rows, List.zipWith_map_right,
      List.zipWith_self, Sample.line, Sample.under, limitLabel, Function.comp_def]
  rw [lines, Histogram.due]
  split
  · rfl
  · exact scrape_rows named fun s => bare_of_mem_rows

theorem line_under (absent : ∀ label ∈ labels, label.1 ∉ ownNames) (c : Counter) (n : Nat) :
    ((c.row n).under labels).line =
      sampleLine c.metric ((labels.set c.label.1 c.label.2).map Labels.writeOne) n := by
  have own : c.label.1 ∈ ownNames := ((bare_row c n).own c.label List.mem_cons_self).1
  have other : ∀ label ∈ labels, label.1 ≠ c.label.1 :=
    fun label here same => absent label here (same ▸ own)
  rw [Labels.set_of_absent other]
  rfl

theorem scrape_counterBlock
    (named : ∀ label ∈ labels, Labels.IsName label.1 ∧ label.1 ∉ ownNames)
    (signals : List Signal) {metric : String} {counters : List Counter}
    (same : ∀ c ∈ counters, c.metric = metric) :
    scrape (counterBlock labels (.of signals) metric counters).toList =
      some ((Counter.due counters (total signals)).map
        (Sample.under (labels.map Labels.shown))) := by
  have rows : ((Counter.due counters (total signals)).map (Sample.under labels)).map Sample.line =
      (counters.filter fun c => 0 < total signals c).map fun c =>
        sampleLine metric ((labels.set c.label.1 c.label.2).map Labels.writeOne)
          (total signals c) := by
    rw [Counter.due, List.map_map, List.map_map]
    refine List.map_congr_left fun c here => ?_
    rw [← same c (List.mem_filter.mp here).1]
    exact line_under (fun label here => (named label here).2) c _
  have block : scrape [typeLine metric "counter" ::
      ((Counter.due counters (total signals)).map (Sample.under labels)).map Sample.line] = _ :=
    scrape_rows (fun label here => (named label here).1) fun s => bare_of_mem_counters
  rw [rows] at block
  rw [counterBlock]
  split
  · next none =>
    change (counters.filter fun c => 0 < total signals c) = [] at none
    rw [Counter.due, none]
    rfl
  · exact block

theorem scrape_exposition
    (named : ∀ label ∈ labels, Labels.IsName label.1 ∧ label.1 ∉ ownNames)
    (signals : List Signal) :
    scrape (exposition labels (.of signals)) =
      some ((samplesOf signals).map (Sample.under (labels.map Labels.shown))) := by
  have histogram := scrape_histogramBlock (fun label here => (named label here).1) signals
  have rejections : ∀ c ∈ rejectionCounters, c.metric = Metric.rejections := by decide
  have observations : ∀ c ∈ observationCounters, c.metric = Metric.observations := by decide
  have counters := scrape_append (scrape_counterBlock named signals rejections)
    (scrape_counterBlock named signals observations)
  have all := scrape_append (scrape_append (histogram .completeNames) (histogram .nextLevelNames))
    counters
  rw [exposition, List.filterMap_eq_flatMap_toList]
  simpa [samplesOf, Counter.due] using all

end Configured

/-- The catalogs listed in some runs. -/
def listings (runs : List (Opening × List Step)) : List Catalog :=
  runs.flatMap fun run => listed run.1 run.2

/-- What is to be shown of some runs: the counters that one of them incremented, and both
histograms if one of them listed its catalog. -/
inductive Due (runs : List (Opening × List Step)) : Sample → Prop where
  | counter (c : Counter) {run : Opening × List Step} (ran : run ∈ runs)
      (counted : 0 < total (Run.of run.1 run.2).signals c) :
    Due runs ⟨c.metric, [c.label],
      ((runs.map fun run => total (Run.of run.1 run.2).signals c : List Nat) : Multiset Nat).sum⟩
  | within (h : Histogram) {limit : Nat} (known : limit ∈ Metric.sizeLimits)
      (measured : listings runs ≠ []) :
    Due runs ⟨h.metric ++ "_bucket", [("le", toString limit)],
      (listings runs).countP fun c => h.measure c ≤ limit⟩
  | unlimited (h : Histogram) (measured : listings runs ≠ []) :
    Due runs ⟨h.metric ++ "_bucket", [("le", "+Inf")], (listings runs).length⟩
  | sum (h : Histogram) (measured : listings runs ≠ []) :
    Due runs ⟨h.metric ++ "_sum", [],
      (((listings runs).map h.measure : List Nat) : Multiset Nat).sum⟩
  | count (h : Histogram) (measured : listings runs ≠ []) :
    Due runs ⟨h.metric ++ "_count", [], (listings runs).length⟩

section Runs

variable (runs : List (Opening × List Step))

/-- All that some runs tell. -/
def toldBy : List Signal := (runs.map fun run => Run.of run.1 run.2).flatMap Run.signals

theorem samples_toldBy (h : Histogram) :
    samples (toldBy runs) h = (listings runs).map h.measure := by
  rw [toldBy, samples_flatMap, List.flatMap_map, listings, List.map_flatMap]
  exact List.flatMap_congr fun run _ => samples_run run.1 run.2 h

theorem total_toldBy (c : Counter) : total (toldBy runs) c =
    ((runs.map fun run => total (Run.of run.1 run.2).signals c : List Nat) : Multiset Nat).sum := by
  rw [toldBy, total_flatMap, List.map_map]
  rfl

theorem total_toldBy_pos_iff {c : Counter} :
    0 < total (toldBy runs) c ↔ ∃ run ∈ runs, 0 < total (Run.of run.1 run.2).signals c := by
  simp only [total, List.count_pos_iff, toldBy, List.mem_flatMap, List.mem_map,
    exists_exists_and_eq_and]

end Runs

section Due

variable {runs : List (Opening × List Step)} {s : Sample}

theorem due_of_mem_rows {h : Histogram} (measured : listings runs ≠ [])
    (row : s ∈ h.rows ((listings runs).map h.measure)) : Due runs s := by
  rcases List.mem_append.mp row with bucket | row
  · obtain ⟨limit, known, rfl⟩ := List.mem_map.mp bucket
    rw [List.countP_map]
    exact .within h known measured
  · rw [List.length_map, List.mem_cons, List.mem_cons, List.mem_singleton] at row
    rcases row with rfl | rfl | rfl
    · exact .unlimited h measured
    · exact .sum h measured
    · exact .count h measured

theorem mem_due_iff {h : Histogram} : s ∈ h.due (samples (toldBy runs) h) ↔
    listings runs ≠ [] ∧ s ∈ h.rows ((listings runs).map h.measure) := by
  rw [Histogram.due, samples_toldBy]
  split
  · next none => simp [List.map_eq_nil_iff.mp none]
  · next some => simp [mt List.map_eq_nil_iff.mpr some]

theorem mem_samplesOf_of_mem_rows {h : Histogram} (measured : listings runs ≠ [])
    (row : s ∈ h.rows ((listings runs).map h.measure)) : s ∈ samplesOf (toldBy runs) := by
  have due := mem_due_iff.mpr ⟨measured, row⟩
  cases h with
  | completeNames => exact List.mem_append_left _ (List.mem_append_left _ due)
  | nextLevelNames => exact List.mem_append_left _ (List.mem_append_right _ due)

theorem mem_samplesOf_iff : s ∈ samplesOf (toldBy runs) ↔ Due runs s := by
  constructor
  · intro shown
    rw [samplesOf, List.mem_append, List.mem_append, mem_due_iff, mem_due_iff] at shown
    rcases shown with (⟨measured, row⟩ | ⟨measured, row⟩) | counted
    · exact due_of_mem_rows measured row
    · exact due_of_mem_rows measured row
    · obtain ⟨c, passed, rfl⟩ := List.mem_map.mp counted
      obtain ⟨run, ran, counted⟩ :=
        (total_toldBy_pos_iff runs).mp (of_decide_eq_true (List.mem_filter.mp passed).2)
      rw [Counter.row, total_toldBy]
      exact .counter c ran counted
  · intro due
    cases due with
    | counter c ran counted =>
      have positive := (total_toldBy_pos_iff runs).mpr ⟨_, ran, counted⟩
      rw [← total_toldBy]
      refine List.mem_append_right _ (List.mem_map.mpr ⟨c, List.mem_filter.mpr ?_, rfl⟩)
      exact ⟨mem_counters c, decide_eq_true positive⟩
    | within h known measured =>
      refine mem_samplesOf_of_mem_rows (h := h) measured (List.mem_append_left _ ?_)
      exact List.mem_map.mpr ⟨_, known, by rw [List.countP_map]; rfl⟩
    | unlimited h measured =>
      exact mem_samplesOf_of_mem_rows (h := h) measured (List.mem_append_right _ (by simp))
    | sum h measured =>
      exact mem_samplesOf_of_mem_rows (h := h) measured (List.mem_append_right _ (by simp))
    | count h measured =>
      exact mem_samplesOf_of_mem_rows (h := h) measured (List.mem_append_right _ (by simp))

end Due

/-- The text of an exporter that was started as configured and has taken up some runs. -/
def rendered (config : Config) (runs : List (Opening × List Step)) : List Block :=
  ((Exporter.absent.start config).exporter.takeRuns (runs.map fun run => .of run.1 run.2)).render

/-- What is read off exporters with and without labels that have taken up the same runs. A label
is carried with its value as shown, which is the configured one just if that is plain. -/
structure Shows (labels : NameMap String) (runs : List (Opening × List Step))
    (plain samples : List Sample) : Prop where
  distinct : (plain.map Sample.key).Nodup
  due : ∀ s, s ∈ plain ↔ Due runs s
  dropped : samples.map (Sample.without labels.names) = plain
  carried : ∀ s ∈ samples, ∀ label ∈ labels.entries, s.Carries (Labels.shown label) ∧
    (s.Carries label ↔ Labels.IsPlain label.2)

section Configured

variable {labels : NameMap String}

theorem without_under (other : ∀ name ∈ labels.names, name ∉ ownNames) {s : Sample}
    (bare : s.Bare) :
    (s.under (labels.entries.map Labels.shown)).without labels.names = s := by
  have dropped : (labels.entries.map Labels.shown).filter (fun label => label.1 ∉ labels.names) =
      [] := by
    refine List.filter_eq_nil_iff.mpr fun label here absent => ?_
    obtain ⟨entry, stored, rfl⟩ := List.mem_map.mp here
    have named : entry.1 ∈ labels.names := List.mem_map_of_mem stored
    exact of_decide_eq_true absent named
  have kept : s.labels.filter (fun label => label.1 ∉ labels.names) = s.labels := by
    refine List.filter_eq_self.mpr fun label here => decide_eq_true fun configured => ?_
    exact other label.1 configured (bare.own label here).1
  rw [Sample.without, Sample.under, List.filter_append, dropped, kept, List.nil_append]

theorem carries_under (other : ∀ name ∈ labels.names, name ∉ ownNames) {s : Sample}
    (bare : s.Bare) {label : String × String} (configured : label ∈ labels.entries) :
    (s.under (labels.entries.map Labels.shown)).Carries (Labels.shown label) := by
  have stored : label.1 ∈ labels.names := List.mem_map_of_mem configured
  have names : (labels.entries.map Labels.shown).map Prod.fst = labels.names := by
    rw [List.map_map]
    rfl
  have absent : (s.labels.map Prod.fst).count label.1 = 0 := by
    refine List.count_eq_zero.mpr fun here => other label.1 stored ?_
    obtain ⟨mine, given, same⟩ := List.mem_map.mp here
    exact same ▸ (bare.own mine given).1
  refine ⟨List.mem_append_left _ (List.mem_map_of_mem configured), ?_⟩
  change ((labels.entries.map Labels.shown ++ s.labels).map Prod.fst).count label.1 = 1
  rw [List.map_append, List.count_append, names, absent,
    List.count_eq_one_of_mem labels.names_nodup stored]

/-- A label is carried as it is configured if it is shown so. -/
theorem carries_under_iff (other : ∀ name ∈ labels.names, name ∉ ownNames) {s : Sample}
    (bare : s.Bare) {label : String × String} (configured : label ∈ labels.entries) :
    (s.under (labels.entries.map Labels.shown)).Carries label ↔ Labels.IsPlain label.2 := by
  have carried := carries_under other bare configured
  rw [← Labels.shown_eq_iff]
  exact ⟨fun also => carried.unique also rfl, fun same => same ▸ carried⟩

end Configured

/-- What is read off an exporter's text. -/
theorem scrape_rendered {config : Config} (enabled : config.enabled = true)
    (named : ∀ name ∈ config.labels.names, Labels.IsName name ∧ name ∉ ownNames)
    (runs : List (Opening × List Step)) :
    scrape (rendered config runs) = some ((samplesOf (toldBy runs)).map
      (Sample.under (config.labels.entries.map Labels.shown))) := by
  rw [rendered, render_takeRuns enabled]
  exact scrape_exposition (fun label here => named label.1 (List.mem_map_of_mem here)) _

/-- Whatever labels are configured, an exporter shows the totals of the runs so far. -/
theorem exposition_totals {config : Config} (enabled : config.enabled = true)
    (named : ∀ name ∈ config.labels.names, Labels.IsName name ∧ name ∉ ownNames)
    (requests : List (Opening × List Step)) (k : Nat) :
    ∃ plain samples, scrape (rendered .standard (requests.take k)) = some plain ∧
      scrape (rendered config (requests.take k)) = some samples ∧
      Shows config.labels (requests.take k) plain samples := by
  have other : ∀ name ∈ config.labels.names, name ∉ ownNames := fun name here => (named name here).2
  let plain := samplesOf (toldBy (requests.take k))
  refine ⟨plain, plain.map (Sample.under (config.labels.entries.map Labels.shown)), ?_,
    scrape_rendered enabled named _, nodup_keys.sublist (keys_samplesOf _),
    fun s => mem_samplesOf_iff, ?_, ?_⟩
  · have read := @scrape_rendered .standard rfl (List.forall_mem_nil _) (requests.take k)
    exact read.trans (congrArg some (List.map_id plain))
  · rw [List.map_map]
    refine (List.map_congr_left fun s here => ?_).trans (List.map_id plain)
    exact without_under other (bare_of_mem_samplesOf here)
  · intro s here label stored
    obtain ⟨row, given, rfl⟩ := List.mem_map.mp here
    have bare := bare_of_mem_samplesOf given
    exact ⟨carries_under other bare stored, carries_under_iff other bare stored⟩

def shareConfig : Config := ⟨true, NameMap.empty.insert "path" "\\\\host\\share"⟩

/-- Of two backslashes side by side the first is taken for an escape of the second, and the label
is shown with one. -/
theorem exposition_loses_backslash :
    shareConfig.enabled = true ∧
      (∀ name ∈ shareConfig.labels.names, Labels.IsName name ∧ name ∉ ownNames) ∧
      ∃ samples, scrape (rendered shareConfig [(.standard, [.add "a" 1])]) = some samples ∧
        ∃ s ∈ samples, ∃ label ∈ shareConfig.labels.entries, ¬ s.Carries label := by
  have named : ∀ name ∈ shareConfig.labels.names, Labels.IsName name ∧ name ∉ ownNames := by
    decide +kernel
  have counted : Due [(.standard, [.add "a" 1])] ⟨Metric.observations, [("outcome", "base")], _⟩ :=
    .counter (.observations .base) List.mem_cons_self (by decide +kernel)
  have due := mem_samplesOf_iff.mpr counted
  refine ⟨rfl, named, _, scrape_rendered rfl named _, _, List.mem_map_of_mem due,
    ("path", "\\\\host\\share"), by decide +kernel, ?_⟩
  rw [carries_under_iff (fun name here => (named name here).2) (bare_of_mem_samplesOf due)
    (by decide +kernel)]
  decide +kernel

def labelledConfig : Config := ⟨true, (NameMap.empty.insert "region" "eu").insert "cell" "\"c\""⟩

def shownRuns : List (Opening × List Step) :=
  [(.response ⟨0⟩ (.buckets [⟨some "a", 1⟩, ⟨some "", 1⟩]), [.listing]),
    (.unsigned ⟨0⟩, [.add "a" 3, .add "b" 1, .listing]), (.standard, [.add "c" 1])]

/-- A catalog that could not be made is counted, one made later is not yet. -/
theorem exposition_totals_of_two :
    ∃ plain samples, scrape (rendered .standard (shownRuns.take 2)) = some plain ∧
      scrape (rendered labelledConfig (shownRuns.take 2)) = some samples ∧
      ⟨Metric.observations, [("outcome", "base")], 3⟩ ∈ plain ∧
      ⟨"strata_discovery_complete_names_bucket", [("le", "1")], 0⟩ ∈ plain ∧
      ∀ s ∈ samples, s.Carries ("cell", "\"c\"") := by
  obtain ⟨plain, samples, first, second, shows⟩ :=
    @exposition_totals labelledConfig rfl (by decide +kernel) shownRuns 2
  have counted : ((shownRuns.take 2).map fun run =>
      total (Run.of run.1 run.2).signals (.observations .base) : Multiset Nat).sum = 3 := by
    decide +kernel
  have small : (listings (shownRuns.take 2)).countP
      (fun c => Histogram.completeNames.measure c ≤ 1) = 0 := by decide +kernel
  refine ⟨plain, samples, first, second, (shows.due _).mpr ?_, (shows.due _).mpr ?_,
    fun s here => ?_⟩
  · rw [← counted]
    exact .counter (.observations .base) List.mem_cons_self (by decide +kernel)
  · rw [← small]
    exact .within .completeNames (by decide : 1 ∈ Metric.sizeLimits) (by decide +kernel)
  · exact (shows.carried s here ("cell", "\"c\"") (by decide +kernel)).2.mpr (by decide +kernel)

end Exporter

end MetricCatalog
