import MetricCatalog.Catalog
import MetricCatalog.Proofs.Name.Family
import MetricCatalog.Proofs.Tally.Report

/-!
# What a catalog knows of its observations

Each view of a catalog is told from the observations it has accepted: a name's own count is the
last one observed for it, its children's count is the exact sum over all observations one segment
below it, cut off at 64 bits, and a name is tracked, or can be drilled into, because of some
observation.

An observation is a report to the catalog's tally, or none, by its placement. `Reflects` says that
the tally tells of these reports; `Reflects.add` is the step and `reflects_observe` the run, and
each view follows from the tally's.
-/

namespace MetricCatalog

/-- An index term and the number of documents reported for it. -/
abbrev Observation := String × Int64

namespace Observation

/-- The count as a natural number; acceptable observations have no other. -/
def documents (o : Observation) : Nat := o.2.toNatClampNeg

/-- What a catalog takes up: the index is not empty and the count not negative. -/
def Acceptable (o : Observation) : Prop := o.1 ≠ "" ∧ 0 ≤ o.2

instance (o : Observation) : Decidable o.Acceptable :=
  inferInstanceAs (Decidable (o.1 ≠ "" ∧ 0 ≤ o.2))

/-- Why an observation is refused, if it is. An empty index is noticed before a negative count. -/
def failure? (o : Observation) : Option Failure :=
  if o.1 = "" then some .emptyIndex
  else if o.2 < 0 then some (.negativeCount o.1 o.2)
  else none

theorem failure?_eq_none_iff {o : Observation} : o.failure? = none ↔ o.Acceptable := by
  rw [failure?, Acceptable, ← Int64.not_lt]
  by_cases unnamed : o.1 = ""
  · simp [unnamed]
  · by_cases negative : o.2 < 0
    · simp [unnamed, negative]
    · simp [unnamed, negative]

theorem documents_lt (o : Observation) : o.documents < 2 ^ 63 := o.2.toNatClampNeg_lt

/-- The count in the last observation of a name itself, or zero. -/
def lastOwn (name : String) (xs : List Observation) : Nat :=
  (((xs.filter fun o => o.1 = name).map documents).getLast?).getD 0

/-- The exact sum of the counts in all observations one segment below a name. -/
def childTotal (name : String) (xs : Multiset Observation) : Nat :=
  ((xs.filter fun o => Name.IsChild name o.1).map documents).sum

theorem lastOwn_concat (name : String) (xs : List Observation) (o : Observation) :
    lastOwn name (xs ++ [o]) = if o.1 = name then o.documents else lastOwn name xs := by
  by_cases same : o.1 = name
  · simp [lastOwn, same]
  · simp [lastOwn, same]

theorem childTotal_add (name : String) (m n : Multiset Observation) :
    childTotal name (m + n) = childTotal name m + childTotal name n := by
  rw [childTotal, Multiset.filter_add, Multiset.map_add, Multiset.sum_add, childTotal, childTotal]

theorem childTotal_concat (name : String) (xs : List Observation) (o : Observation) :
    childTotal name ↑(xs ++ [o]) =
      childTotal name ↑xs + if Name.IsChild name o.1 then o.documents else 0 := by
  rw [← Multiset.coe_add, childTotal_add]
  by_cases child : Name.IsChild name o.1
  · simp [childTotal, child, Multiset.filter_singleton]
  · simp [childTotal, child, Multiset.filter_singleton]

theorem lastOwn_eq_zero {name : String} {xs : List Observation} (none : ∀ o ∈ xs, o.1 ≠ name) :
    lastOwn name xs = 0 := by
  have empty : (xs.filter fun o => o.1 = name) = [] := by simpa using none
  rw [lastOwn, empty]
  rfl

theorem exists_of_lastOwn_pos {name : String} {xs : List Observation}
    (some : 0 < lastOwn name xs) : ∃ o ∈ xs, o.1 = name := by
  by_contra none
  rw [lastOwn_eq_zero fun o here equal => none ⟨o, here, equal⟩] at some
  omega

theorem childTotal_eq_zero {name : String} {xs : Multiset Observation}
    (none : ∀ o ∈ xs, ¬ Name.IsChild name o.1) : childTotal name xs = 0 := by
  rw [childTotal, Multiset.filter_eq_nil.mpr none]
  rfl

theorem lastOwn_lt (name : String) (xs : List Observation) : lastOwn name xs < 2 ^ 63 := by
  induction xs using List.reverseRecOn with
  | nil => simp [lastOwn]
  | append_singleton xs o ih =>
    rw [lastOwn_concat]
    split
    · exact o.documents_lt
    · exact ih

section Reports

variable (level : BaseLevel)

/-- What a tally is told of an observation. -/
def report? (o : Observation) : Option Tally.Report :=
  match level.place o.1 with
  | .base => some (.own o.1 (.ofNat o.documents))
  | .next parent => some (.child parent (.ofNat o.documents))
  | .ignored => none

/-- What a tally is told of observations one after the other. -/
def reports (xs : List Observation) : List Tally.Report := xs.filterMap (report? level)

variable {level} {name : String}

theorem reports_concat (xs : List Observation) (o : Observation) :
    reports level (xs ++ [o]) = reports level xs ++ (o.report? level).toList := by
  cases told : o.report? level with
  | none => simp [reports, told]
  | some r => simp [reports, told]

theorem report?_eq_none_iff {o : Observation} : o.report? level = none ↔
    Name.depth o.1 ≠ level.depth ∧ Name.depth o.1 ≠ level.depth + 1 := by
  rw [← level.place_eq_ignored_iff, report?]
  cases level.place o.1 with
  | base | next | ignored => simp

theorem report?_eq_own_iff {o : Observation} {count : UInt64} :
    o.report? level = some (.own name count) ↔
      (Name.depth name = level.depth ∧ o.1 = name) ∧ .ofNat o.documents = count := by
  rw [← level.place_eq_base_iff, report?]
  constructor
  · intro told
    cases placed : level.place o.1 with
    | base =>
      rw [placed] at told
      cases told
      exact ⟨⟨placed, rfl⟩, rfl⟩
    | next | ignored =>
      rw [placed] at told
      cases told
  · rintro ⟨⟨placed, rfl⟩, rfl⟩
    rw [placed]

theorem report?_eq_child_iff {o : Observation} {count : UInt64} :
    o.report? level = some (.child name count) ↔
      (Name.depth name = level.depth ∧ Name.IsChild name o.1) ∧ .ofNat o.documents = count := by
  rw [and_comm (a := Name.depth name = level.depth), ← level.place_eq_next_iff, report?]
  constructor
  · intro told
    cases placed : level.place o.1 with
    | next parent =>
      rw [placed] at told
      cases told
      exact ⟨rfl, rfl⟩
    | base | ignored =>
      rw [placed] at told
      cases told
  · rintro ⟨placed, rfl⟩
    rw [placed]

theorem mem_names_reports_iff {xs : List Observation} :
    name ∈ (reports level xs).map Tally.Report.name ↔
      Name.depth name = level.depth ∧ ∃ o ∈ xs, o.1 = name ∨ Name.IsChild name o.1 := by
  simp only [reports, List.mem_map, List.mem_filterMap]
  constructor
  · rintro ⟨r, ⟨o, here, told⟩, rfl⟩
    cases r with
    | own name count =>
      obtain ⟨⟨same, own⟩, -⟩ := report?_eq_own_iff.mp told
      exact ⟨same, o, here, Or.inl own⟩
    | child name count =>
      obtain ⟨⟨same, child⟩, -⟩ := report?_eq_child_iff.mp told
      exact ⟨same, o, here, Or.inr child⟩
  · rintro ⟨same, o, here, own | child⟩
    · exact ⟨_, ⟨o, here, report?_eq_own_iff.mpr ⟨⟨same, own⟩, rfl⟩⟩, rfl⟩
    · exact ⟨_, ⟨o, here, report?_eq_child_iff.mpr ⟨⟨same, child⟩, rfl⟩⟩, rfl⟩

theorem exists_child_mem_reports_iff {xs : List Observation} :
    (∃ count, .child name count ∈ reports level xs) ↔
      Name.depth name = level.depth ∧ ∃ o ∈ xs, Name.IsChild name o.1 := by
  simp only [reports, List.mem_filterMap, report?_eq_child_iff]
  constructor
  · rintro ⟨_, o, here, ⟨same, child⟩, -⟩
    exact ⟨same, o, here, child⟩
  · rintro ⟨same, o, here, child⟩
    exact ⟨_, o, here, ⟨same, child⟩, rfl⟩

/-- Counts picked from the reports are those of the observations that are reported so. -/
theorem filterMap_reports {pick : Tally.Report → Option UInt64} {P : Observation → Prop}
    [DecidablePred P] (picked : ∀ (o : Observation) count,
      (o.report? level).bind pick = some count ↔ P o ∧ .ofNat o.documents = count)
    (xs : List Observation) :
    (reports level xs).filterMap pick = (xs.filter P).map fun o => .ofNat o.documents := by
  rw [← List.filterMap_eq_map, List.filterMap_filter, reports, List.filterMap_filterMap]
  refine List.filterMap_congr fun o _ => Option.ext fun count => ?_
  simp [picked o count]

theorem toNat_documents (o : Observation) : (UInt64.ofNat o.documents).toNat = o.documents := by
  have small := o.documents_lt
  rw [UInt64.toNat_ofNat']
  omega

theorem toNat_lastOwn_reports (same : Name.depth name = level.depth) (xs : List Observation) :
    (Tally.lastOwn name (reports level xs)).toNat = lastOwn name xs := by
  have told (o : Observation) (count : UInt64) :
      (o.report? level).bind (Tally.Report.ownOf? name) = some count ↔
        o.1 = name ∧ .ofNat o.documents = count := by
    simp [Option.bind_eq_some_iff, Tally.Report.ownOf?_eq_some_iff, report?_eq_own_iff, same]
  rw [Tally.lastOwn, lastOwn, filterMap_reports told, List.getLast?_map, List.getLast?_map]
  cases (xs.filter fun o => o.1 = name).getLast? with
  | none => rfl
  | some o => exact toNat_documents o

theorem childTotal_reports (same : Name.depth name = level.depth) (xs : List Observation) :
    Tally.childTotal name (reports level xs) = childTotal name xs := by
  have told (o : Observation) (count : UInt64) :
      (o.report? level).bind (Tally.Report.childOf? name) = some count ↔
        Name.IsChild name o.1 ∧ .ofNat o.documents = count := by
    simp [Option.bind_eq_some_iff, Tally.Report.childOf?_eq_some_iff, report?_eq_child_iff, same]
  have counted : (UInt64.toNat ∘ fun o : Observation => .ofNat o.documents) = documents :=
    funext toNat_documents
  rw [Tally.childTotal, childTotal, filterMap_reports told, List.map_map, counted,
    Multiset.filter_coe, Multiset.map_coe]

end Reports

end Observation

namespace Catalog

open Observation

/-- The catalog after one observation after the other. A refused one leaves it as it is. -/
def observe (c : Catalog) (xs : List Observation) : Catalog :=
  xs.foldl (fun c o => (c.add o.1 o.2).catalog) c

/-- The counts of a name; a name never referred to counts as zero. -/
def countsOrZero (c : Catalog) (name : String) : Record := (c.counts? name).getD .zero

theorem observe_concat (c : Catalog) (xs : List Observation) (o : Observation) :
    c.observe (xs ++ [o]) = ((c.observe xs).add o.1 o.2).catalog := by
  simp [observe]

theorem validate_of_acceptable {o : Observation} (ok : o.Acceptable) :
    validate o.1 o.2 = .ok o.2.toUInt64 := by
  rw [validate, if_neg ok.1, if_neg (Int64.not_lt.mpr ok.2)]

theorem validate_of_failure {o : Observation} {failure : Failure}
    (refused : o.failure? = some failure) : validate o.1 o.2 = .error failure := by
  rw [failure?] at refused
  rw [validate]
  split at refused
  · next unnamed =>
    cases refused
    exact if_pos unnamed
  · next named =>
    split at refused
    · next negative =>
      cases refused
      rw [if_neg named, if_pos negative]
    · cases refused

theorem add_of_acceptable (c : Catalog) {o : Observation} (ok : o.Acceptable) :
    (c.add o.1 o.2).result = .ok () ∧
      (c.add o.1 o.2).catalog = c.record o.1 o.2.toUInt64 (c.level.place o.1) := by
  rw [add, validate_of_acceptable ok]
  exact ⟨rfl, rfl⟩

theorem add_of_failure (c : Catalog) {o : Observation} {failure : Failure}
    (refused : o.failure? = some failure) :
    (c.add o.1 o.2).result = .error failure ∧ (c.add o.1 o.2).catalog = c := by
  rw [add, validate_of_failure refused]
  exact ⟨rfl, rfl⟩

theorem add_of_not_acceptable (c : Catalog) {o : Observation} (refused : ¬ o.Acceptable) :
    (∃ failure, (c.add o.1 o.2).result = .error failure) ∧ (c.add o.1 o.2).catalog = c := by
  obtain ⟨failure, because⟩ := Option.ne_none_iff_exists'.mp (mt failure?_eq_none_iff.mp refused)
  exact ⟨⟨failure, (c.add_of_failure because).1⟩, (c.add_of_failure because).2⟩

theorem nextLevelNames_eq_iff {c d : Catalog} :
    c.nextLevelNames = d.nextLevelNames ↔
      ∀ name, name ∈ c.nextLevelNames ↔ name ∈ d.nextLevelNames :=
  NameMap.names_eq_iff

theorem completeNames_eq_iff {c d : Catalog} :
    c.completeNames = d.completeNames ↔ ∀ name, name ∈ c.completeNames ↔ name ∈ d.completeNames :=
  NameMap.namesWhere_eq_iff

/-- The catalog holds exactly what the observations `xs`, all of them taken up, tell. -/
structure Reflects (c : Catalog) (level : BaseLevel) (xs : List Observation) : Prop where
  level_eq : c.level = level
  tells : Tally.Tells c.tally (reports level xs)
  drilled_iff : ∀ name, name ∈ c.nextLevelNames ↔ ∃ count, .child name count ∈ reports level xs

theorem reflects_empty (level : BaseLevel) : Reflects (empty level) level [] where
  level_eq := rfl
  tells := Tally.tells_empty
  drilled_iff name := by simp [nextLevelNames, NameMap.mem_names_iff, empty, reports]

theorem mem_nextLevelNames_record {c : Catalog} {index name parent : String} {count : UInt64} :
    name ∈ (c.record index count (.next parent)).nextLevelNames ↔
      name = parent ∨ name ∈ c.nextLevelNames :=
  NameMap.mem_names_add

namespace Reflects

variable {c : Catalog} {level : BaseLevel} {xs : List Observation}

/-- One more observation that is taken up: the tally is told of it as the catalog records it. -/
theorem record (h : Reflects c level xs) {o : Observation} (ok : o.Acceptable) :
    Reflects (c.record o.1 o.2.toUInt64 (level.place o.1)) level (xs ++ [o]) := by
  have count : o.2.toUInt64 = .ofNat o.documents := by
    rw [← UInt64.toNat_inj, toNat_documents]
    exact Int64.toNat_toUInt64_of_le ok.2
  have told : reports level (xs ++ [o]) = _ := reports_concat xs o
  rw [report?] at told
  cases placed : level.place o.1 with
  | base =>
    rw [placed, Option.toList_some] at told
    refine ⟨h.level_eq, ?_, fun name => ?_⟩
    · rw [told, count]
      exact h.tells.setOwn ..
    · rw [told]
      exact (h.drilled_iff name).trans (by simp)
  | next parent =>
    rw [placed, Option.toList_some] at told
    refine ⟨h.level_eq, ?_, fun name => ?_⟩
    · rw [told, count]
      exact h.tells.addChildren ..
    · rw [told, mem_nextLevelNames_record, h.drilled_iff name]
      simp [exists_or, or_comm]
  | ignored =>
    rw [placed, Option.toList_none, List.append_nil] at told
    exact ⟨h.level_eq, told ▸ h.tells, told ▸ h.drilled_iff⟩

/-- One more observation: told to the tally by its placement, or refused and forgotten. -/
theorem add (h : Reflects c level xs) (o : Observation) :
    Reflects (c.add o.1 o.2).catalog level (xs ++ [o].filter Acceptable) := by
  by_cases ok : o.Acceptable
  · have kept : [o].filter Acceptable = [o] := by simp [ok]
    rw [kept, (c.add_of_acceptable ok).2, h.level_eq]
    exact h.record ok
  · have dropped : [o].filter Acceptable = [] := by simp [ok]
    rw [dropped, List.append_nil, (c.add_of_not_acceptable ok).2]
    exact h

theorem tracked_iff (h : Reflects c level xs) (name : String) : (c.counts? name).isSome ↔
    Name.depth name = level.depth ∧ ∃ o ∈ xs, o.1 = name ∨ Name.IsChild name o.1 :=
  (h.tells.known_iff name).trans mem_names_reports_iff

theorem own_eq (h : Reflects c level xs) (name : String) (same : Name.depth name = level.depth) :
    (c.countsOrZero name).own.toNat = lastOwn name xs := by
  rw [← toNat_lastOwn_reports same, ← h.tells.own_eq name]
  rfl

theorem children_eq (h : Reflects c level xs) (name : String)
    (same : Name.depth name = level.depth) :
    (c.countsOrZero name).children.toNat = min (childTotal name xs) (UInt64.size - 1) := by
  rw [← childTotal_reports same, ← h.tells.children_eq name]
  rfl

theorem next_iff (h : Reflects c level xs) (name : String) : name ∈ c.nextLevelNames ↔
    Name.depth name = level.depth ∧ ∃ o ∈ xs, Name.IsChild name o.1 :=
  (h.drilled_iff name).trans exists_child_mem_reports_iff

theorem countsOrZero_eq_zero (h : Reflects c level xs) {name : String}
    (other : Name.depth name ≠ level.depth) : c.countsOrZero name = .zero := by
  have untracked : c.counts? name = none := by
    apply Option.not_isSome_iff_eq_none.mp
    intro tracked
    exact other ((h.tracked_iff name).mp tracked).1
  rw [countsOrZero, untracked]
  rfl

theorem depth_eq (h : Reflects c level xs) {name : String} {r : Record}
    (found : c.counts? name = some r) : Name.depth name = level.depth :=
  ((h.tracked_iff name).mp (Option.isSome_iff_exists.mpr ⟨r, found⟩)).1

theorem own_of_counts (h : Reflects c level xs) {name : String} {r : Record}
    (found : c.counts? name = some r) : r.own.toNat = lastOwn name xs := by
  have own := h.own_eq name (h.depth_eq found)
  rwa [countsOrZero, found] at own

theorem children_of_counts (h : Reflects c level xs) {name : String} {r : Record}
    (found : c.counts? name = some r) :
    r.children.toNat = min (childTotal name xs) (UInt64.size - 1) := by
  have children := h.children_eq name (h.depth_eq found)
  rwa [countsOrZero, found] at children

/-- Completeness compares the exact numbers, whether or not the sum was cut off. -/
theorem complete_iff (h : Reflects c level xs) (name : String) :
    name ∈ c.completeNames ↔
      Name.depth name = level.depth ∧ childTotal name xs < lastOwn name xs := by
  have told := h.tells.complete_iff name
  by_cases same : Name.depth name = level.depth
  · rw [childTotal_reports same, toNat_lastOwn_reports same] at told
    rw [completeNames, told, and_iff_right same]
  · refine iff_of_false (fun complete => ?_) fun claimed => same claimed.1
    obtain ⟨r, found, -⟩ := NameMap.mem_namesWhere_iff.mp complete
    exact same (h.depth_eq found)

theorem isEmpty_iff (h : Reflects c level xs) :
    c.isEmpty = true ↔
      ∀ o ∈ xs, Name.depth o.1 ≠ level.depth ∧ Name.depth o.1 ≠ level.depth + 1 := by
  rw [isEmpty, h.tells.isEmpty_iff, reports, List.filterMap_eq_nil_iff]
  exact forall₂_congr fun o _ => report?_eq_none_iff

end Reflects

theorem reflects_observe (level : BaseLevel) (xs : List Observation) :
    Reflects ((empty level).observe xs) level (xs.filter Acceptable) := by
  induction xs using List.reverseRecOn with
  | nil => exact reflects_empty level
  | append_singleton xs o ih =>
    rw [observe_concat, List.filter_append]
    exact ih.add o

theorem reflects_observe_acceptable (level : BaseLevel) {xs : List Observation}
    (ok : ∀ o ∈ xs, o.Acceptable) : Reflects ((empty level).observe xs) level xs := by
  have kept : xs.filter Acceptable = xs := List.filter_eq_self.mpr (by simpa using ok)
  have run := reflects_observe level xs
  rwa [kept] at run

end Catalog

end MetricCatalog
