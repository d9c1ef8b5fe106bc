import Mathlib.Data.Finset.Card
import Mathlib.Data.Finset.Union
import MetricCatalog.Proofs.Name.Family

/-!
# Names as paths

The names that metrics really have are paths of segments. Writing a path as a name loses nothing,
and a path goes on from another by whole segments exactly as their names tell: the path one segment
longer is the child. `leading` lists the paths that lead to one, itself included.
-/

namespace MetricCatalog

/-- At least one segment; none of them is empty or holds a separator. -/
structure Path where
  segments : List String
  ne_nil : segments ≠ []
  proper : ∀ segment ∈ segments, segment ≠ "" ∧ separator ∉ segment.toList
  deriving DecidableEq

namespace Path

/-- The segments joined by separators. -/
def name (p : Path) : String := (String.singleton separator).intercalate p.segments

/-- A path leads to itself and to every path that goes on from it. -/
def Leads (p q : Path) : Prop := p.segments <+: q.segments

instance (p q : Path) : Decidable (p.Leads q) :=
  inferInstanceAs (Decidable (p.segments <+: q.segments))

theorem ext_segments {p q : Path} (same : p.segments = q.segments) : p = q := by
  cases p
  cases q
  cases same
  rfl

theorem toList_join_cons (s t : String) (l : List String) :
    ((String.singleton separator).intercalate (s :: t :: l)).toList =
      s.toList ++ separator :: ((String.singleton separator).intercalate (t :: l)).toList := by
  rw [String.intercalate_cons_cons]
  simp

theorem depth_join {l : List String} (ne_nil : l ≠ [])
    (plain : ∀ s ∈ l, separator ∉ s.toList) :
    Name.depth ((String.singleton separator).intercalate l) + 1 = l.length := by
  induction l with
  | nil => exact absurd rfl ne_nil
  | cons s l ih =>
    have first := List.count_eq_zero_of_not_mem (plain s List.mem_cons_self)
    cases l with
    | nil => rw [String.intercalate_singleton, Name.depth, first, List.length_singleton]
    | cons t l =>
      have rest := ih (by simp) fun u here => plain u (List.mem_cons_of_mem s here)
      rw [Name.depth] at rest ⊢
      rw [toList_join_cons, List.count_append, List.count_cons_self, first, List.length_cons]
      omega

theorem depth_name (p : Path) : Name.depth p.name + 1 = p.segments.length :=
  depth_join p.ne_nil fun s here => (p.proper s here).2

theorem join_inj {l m : List String} (hl : l ≠ []) (hm : m ≠ [])
    (plainL : ∀ s ∈ l, separator ∉ s.toList) (plainM : ∀ s ∈ m, separator ∉ s.toList)
    (same : (String.singleton separator).intercalate l =
      (String.singleton separator).intercalate m) : l = m := by
  have lengths : l.length = m.length := by
    have left := depth_join hl plainL
    have right := depth_join hm plainM
    rw [same] at left
    omega
  induction l generalizing m with
  | nil => exact absurd rfl hl
  | cons s l ih =>
    cases m with
    | nil => exact absurd rfl hm
    | cons t m =>
      cases l with
      | nil =>
        cases m with
        | nil => simpa using same
        | cons u m => simp at lengths
      | cons s' l =>
        cases m with
        | nil => simp at lengths
        | cons t' m =>
          -- the first separator cuts both texts at the same place
          have left := Name.splitFirst?_eq_some_iff.mpr
            ⟨toList_join_cons s s' l, plainL s List.mem_cons_self⟩
          have right := Name.splitFirst?_eq_some_iff.mpr
            ⟨toList_join_cons t t' m, plainM t List.mem_cons_self⟩
          rw [same, right] at left
          obtain ⟨first, others⟩ := Prod.mk.inj (Option.some.inj left)
          have tails := ih (by simp) (by simp)
            (fun u here => plainL u (List.mem_cons_of_mem s here))
            (fun u here => plainM u (List.mem_cons_of_mem t here))
            (String.toList_inj.mp others.symm) (by simpa using lengths)
          rw [tails, String.toList_inj.mp first.symm]

theorem name_inj {p q : Path} (same : p.name = q.name) : p = q :=
  ext_segments (join_inj p.ne_nil q.ne_nil (fun s here => (p.proper s here).2)
    (fun s here => (q.proper s here).2) same)

theorem name_ne_empty (p : Path) : p.name ≠ "" := by
  intro empty
  cases h : p.segments with
  | nil => exact p.ne_nil h
  | cons s l =>
    have filled := (p.proper s (h ▸ List.mem_cons_self)).1
    apply filled
    apply String.toList_inj.mp
    have chars := congrArg String.toList empty
    rw [name, h] at chars
    cases l with
    | nil => simpa using chars
    | cons t l =>
      rw [toList_join_cons] at chars
      simp at chars

/-- Names are children of one another exactly when the path is one segment longer. -/
theorem isChild_name_iff {p q : Path} :
    Name.IsChild p.name q.name ↔ ∃ s, q.segments = p.segments ++ [s] := by
  constructor
  · rintro ⟨s, plain, spelled⟩
    refine ⟨s, join_inj q.ne_nil (by simp) (fun t here => (q.proper t here).2) ?_ ?_⟩
    · intro t here
      rcases List.mem_append.mp here with old | new
      · exact (p.proper t old).2
      · rwa [List.mem_singleton.mp new]
    · rw [String.intercalate_append_of_ne_nil p.ne_nil (by simp), String.intercalate_singleton]
      exact spelled
  · rintro ⟨s, longer⟩
    refine ⟨s, (q.proper s (by simp [longer])).2, ?_⟩
    rw [name, longer, String.intercalate_append_of_ne_nil p.ne_nil (by simp),
      String.intercalate_singleton, name]

/-- Leading on in names: the same name, or one that goes on with a separator and another path. -/
theorem leads_iff_name {p q : Path} :
    p.Leads q ↔ q.name = p.name ∨
      ∃ rest : Path, q.name = p.name ++ String.singleton separator ++ rest.name := by
  constructor
  · rintro ⟨rest, split⟩
    by_cases none : rest = []
    · rw [none, List.append_nil] at split
      exact Or.inl (congrArg name (ext_segments split.symm))
    · have proper := fun s here => q.proper s (split ▸ List.mem_append_right _ here)
      refine Or.inr ⟨⟨rest, none, proper⟩, ?_⟩
      rw [name, ← split, String.intercalate_append_of_ne_nil p.ne_nil none]
      rfl
  · rintro (same | ⟨rest, same⟩)
    · rw [name_inj same]
      exact List.prefix_refl p.segments
    · refine ⟨rest.segments, (join_inj q.ne_nil ?_ (fun s here => (q.proper s here).2) ?_ ?_).symm⟩
      · exact List.append_ne_nil_of_left_ne_nil p.ne_nil _
      · intro s here
        rcases List.mem_append.mp here with own | further
        · exact (p.proper s own).2
        · exact (rest.proper s further).2
      · rw [String.intercalate_append_of_ne_nil p.ne_nil rest.ne_nil]
        exact same

/-- The path of the first segments of another, one more than `k` of them or all. -/
def first (q : Path) (k : Nat) : Path where
  segments := q.segments.take (k + 1)
  ne_nil := by
    intro none
    rcases List.take_eq_nil_iff.mp none with zero | empty
    · cases zero
    · exact q.ne_nil empty
  proper := fun s here => q.proper s (List.mem_of_mem_take here)

@[simp] theorem segments_first (q : Path) (k : Nat) :
    (q.first k).segments = q.segments.take (k + 1) := rfl

/-- The parent of a path's name, if it has one, is a path again. -/
theorem exists_path_of_isChild {parent : String} {q : Path} (child : Name.IsChild parent q.name) :
    ∃ p : Path, p.name = parent := by
  have deep : 2 ≤ q.segments.length := by
    have above := child.depth_eq
    have length := q.depth_name
    omega
  refine ⟨q.first (q.segments.length - 2), Name.IsChild.parent_unique ?_ child⟩
  refine isChild_name_iff.mpr ⟨q.segments.getLast q.ne_nil, ?_⟩
  have shorter : q.segments.length - 2 + 1 = q.segments.length - 1 := by omega
  rw [segments_first, shorter, ← List.dropLast_eq_take, List.dropLast_append_getLast]

theorem Leads.refl (p : Path) : p.Leads p := List.prefix_refl p.segments

theorem Leads.length_le {p q : Path} (leads : p.Leads q) :
    p.segments.length ≤ q.segments.length :=
  List.IsPrefix.length_le leads

theorem first_leads (q : Path) (k : Nat) : (q.first k).Leads q := List.take_prefix ..

theorem Leads.eq_first {p q : Path} (leads : p.Leads q) :
    p = q.first (p.segments.length - 1) := by
  apply ext_segments
  have filled := List.length_pos_of_ne_nil p.ne_nil
  have whole : p.segments.length - 1 + 1 = p.segments.length := by omega
  rw [segments_first, whole]
  exact List.prefix_iff_eq_take.mp leads

/-- Where a path goes on from another, its first segments spell a child on the way. -/
theorem Leads.isChild_first {p q : Path} (leads : p.Leads q) (other : p ≠ q) :
    Name.IsChild p.name (q.first p.segments.length).name := by
  obtain ⟨rest, split⟩ := leads
  cases rest with
  | nil => exact absurd (ext_segments (by simpa using split)) other
  | cons s rest =>
    refine isChild_name_iff.mpr ⟨s, ?_⟩
    rw [segments_first, ← split]
    simp [List.take_append]

/-- A child of a path leads only where the path leads too, and ends before it does. -/
theorem Leads.of_isChild {p q m : Path} (child : Name.IsChild p.name q.name) (leads : q.Leads m) :
    p.Leads m ∧ p ≠ m ∧ m.first p.segments.length = q := by
  obtain ⟨s, longer⟩ := isChild_name_iff.mp child
  have length : q.segments.length = p.segments.length + 1 := by simp [longer]
  have short := leads.length_le
  refine ⟨List.IsPrefix.trans ⟨[s], longer.symm⟩ leads, ?_, ?_⟩
  · rintro rfl
    omega
  · rw [leads.eq_first, length, Nat.add_sub_cancel]

/-- The paths that lead to a path, itself included. -/
def leading (q : Path) : Finset Path := (Finset.range q.segments.length).image q.first

theorem mem_leading {p q : Path} : p ∈ q.leading ↔ p.Leads q := by
  rw [leading, Finset.mem_image]
  constructor
  · rintro ⟨k, -, rfl⟩
    exact q.first_leads k
  · intro leads
    have filled := List.length_pos_of_ne_nil p.ne_nil
    have short := leads.length_le
    exact ⟨p.segments.length - 1, Finset.mem_range.mpr (by omega), leads.eq_first.symm⟩

end Path

end MetricCatalog
