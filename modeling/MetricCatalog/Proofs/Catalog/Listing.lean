import MetricCatalog.Proofs.Catalog.Observation
import MetricCatalog.Proofs.Json.SelfDelimiting

/-!
# Listings are canonical

A listing holds the two result sets of a catalog as lists without choice: each name once, and in the
order of code points. Its text tells both lists again, whatever stands in the names. So the texts of
two listings are the same exactly when the catalogs agree about both sets, whatever else they hold
and however they came to it.
-/

namespace MetricCatalog

open Json

/-- The code points of a name. -/
def Name.codePoints (name : String) : List Nat := name.toList.map Char.toNat

theorem Name.codePoints_lt {a b : String} (less : a < b) :
    Name.codePoints a < Name.codePoints b := by
  apply List.map_lt
  · intro c d below
    exact UInt32.lt_iff_toNat_lt.mp (Char.lt_def.mp below)
  · exact String.lt_iff.mp less

theorem NameSet.mem_names_iff_contains {s : NameSet} {name : String} :
    name ∈ NameMap.names s ↔ s.contains name = true :=
  NameMap.mem_names_iff

/-- The two lists are told apart by what stands between them. -/
theorem Listing.write_inj {l m : Listing} (same : l.write = m.write) : l = m := by
  simp only [Listing.write, writeObject, commaSeparated, List.map_cons, List.map_nil,
    List.append_assoc, List.cons_append, List.cons.injEq, true_and,
    List.append_cancel_left_eq] at same
  obtain ⟨next, others⟩ := selfDelimiting_writeTexts _ _ _ _ same
  simp only [List.cons.injEq, true_and, List.append_cancel_left_eq] at others
  obtain ⟨complete, -⟩ := selfDelimiting_writeTexts _ _ _ _ others
  cases l
  cases m
  cases next
  cases complete
  rfl

theorem Listing.text_inj_iff {l m : Listing} : l.text = m.text ↔ l = m := by
  constructor
  · intro same
    exact Listing.write_inj (String.ofList_injective same)
  · rintro rfl
    rfl

/-- Quotes and commas inside a name do not make two names of it. -/
example : (⟨["a\",\"b"], []⟩ : Listing).text ≠ (⟨["a", "b"], []⟩ : Listing).text := by
  decide +kernel

namespace Catalog

theorem ascending_of_pairwise {names : List String} (ordered : names.Pairwise (· < ·)) :
    names.Pairwise fun a b => Name.codePoints a < Name.codePoints b :=
  ordered.imp Name.codePoints_lt

theorem mem_completeNames_iff {c : Catalog} {name : String} :
    name ∈ c.completeNames ↔ ∃ r, c.counts? name = some r ∧ r.children < r.own := by
  apply NameMap.mem_namesWhere_iff.trans
  refine exists_congr fun r => and_congr_right fun _ => ?_
  exact (Record.isComplete_iff r).trans UInt64.lt_iff_toNat_lt.symm

theorem listing_eq_iff {c d : Catalog} :
    c.listing.1 = d.listing.1 ↔ (∀ name, name ∈ c.nextLevelNames ↔ name ∈ d.nextLevelNames) ∧
      ∀ name, name ∈ c.completeNames ↔ name ∈ d.completeNames := by
  rw [← nextLevelNames_eq_iff, ← completeNames_eq_iff]
  exact iff_of_eq (Listing.mk.injEq _ _ _ _)

/-- Every listing is in strictly ascending order of code points and holds exactly the names that
lead on and those with more documents of their own than their children have. Two catalogs, of
whatever base levels, are listed by the same text exactly when they agree about both. -/
theorem listing_canonical :
    (∀ c : Catalog,
      (c.listing.1.nextLevel.Pairwise fun a b => Name.codePoints a < Name.codePoints b) ∧
      (c.listing.1.complete.Pairwise fun a b => Name.codePoints a < Name.codePoints b) ∧
      (∀ name, name ∈ c.listing.1.nextLevel ↔ c.nextLevel.contains name = true) ∧
      ∀ name, name ∈ c.listing.1.complete ↔
        ∃ r, c.counts? name = some r ∧ r.children < r.own) ∧
    ∀ c d : Catalog, c.listing.1.text = d.listing.1.text ↔
      (∀ name, name ∈ c.nextLevelNames ↔ name ∈ d.nextLevelNames) ∧
        ∀ name, name ∈ c.completeNames ↔ name ∈ d.completeNames := by
  constructor
  · intro c
    exact ⟨ascending_of_pairwise (NameMap.names_ascending _),
      ascending_of_pairwise (NameMap.namesWhere_ascending _ _),
      fun name => NameSet.mem_names_iff_contains, fun name => mem_completeNames_iff⟩
  · intro c d
    exact Listing.text_inj_iff.trans listing_eq_iff

end Catalog

end MetricCatalog
