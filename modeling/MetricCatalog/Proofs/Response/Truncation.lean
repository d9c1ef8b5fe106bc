import MetricCatalog.Proofs.Json.Continuation
import MetricCatalog.Proofs.Response.Writing

/-!
# A part of a response is no response

A response begins with a bracket or a brace and ends with the one that belongs to it. So a text that
presents a response presents it still when more is added, but with the addition left over; and since
nothing but blanks may be left over, neither a beginning that lacks more than blanks nor a text with
anything but blanks after it holds a response.
-/

namespace MetricCatalog.Response

open Json
open Text (skipBlanks_eq_nil_iff)

theorem continues_key : Continues KeyText := by
  intro s key rest text more
  cases key with
  | none => exact Text.Blanks.append text more
  | some key =>
    obtain ⟨t, quote, spells⟩ := text
    exact ⟨t ++ more, quote.append more, spells.append more⟩

theorem continues_count : Continues CountText := by
  rintro s count rest ⟨t, blanks, integer⟩ more
  exact ⟨t ++ more, blanks.append more, integer.append more⟩

theorem continues_bucketEntry (name : String) : Continues (BucketEntry.Text name) := by
  intro s entry rest text more
  cases entry with
  | key key => exact ⟨text.1, continues_key text.2 more⟩
  | count count => exact ⟨text.1, continues_count text.2 more⟩
  | other => exact ⟨text.1, text.2.1, text.2.2.append more⟩

theorem continues_bucket : Continues BucketText := by
  intro s bucket rest text more
  cases text with
  | object brace fields keys counts =>
    have fields := continues_items (continues_field continues_bucketEntry) '}' true fields more
    exact .object (brace.append more) fields keys counts
  | list bracket first comma second close =>
    exact .list (bracket.append more) (continues_key first more) (comma.append more)
      (continues_count second more) (close.append more)

theorem continues_buckets : Continues BucketsText := by
  rintro s buckets rest ⟨t, bracket, items⟩ more
  exact ⟨t ++ more, bracket.append more, continues_items continues_bucket ']' true items more⟩

theorem continues_entry (name : String) : Continues (Entry.Text name) := by
  intro s entry rest text more
  cases entry with
  | buckets list => exact ⟨text.1, continues_buckets text.2 more⟩
  | other => exact ⟨text.1, text.2.append more⟩

theorem continues_response : Continues ResponseText := by
  intro s response rest text more
  cases text with
  | object brace fields once =>
    have fields := continues_items (continues_field continues_entry) '}' true fields more
    exact .object (brace.append more) fields once
  | list bracket elements =>
    exact .list (bracket.append more) (continues_items continues_buckets ']' true elements more)

/-- There is one way to take a response off the front of a text. -/
theorem ResponseText.unique {s left right : List Char} {one other : Response}
    (first : ResponseText s one left) (second : ResponseText s other right) :
    one = other ∧ left = right := by
  have read := readResponse_iff.mpr first
  rw [readResponse_iff.mpr second] at read
  cases read
  exact ⟨rfl, rfl⟩

/-- What follows a whole response is left over, and only blanks may be. -/
theorem presents_append_iff {text more : List Char} {response other : Response}
    (presents : Presents text response) :
    Presents (text ++ more) other ↔ Blanks more [] ∧ other = response := by
  obtain ⟨rest, found, ⟨blanks, all, rfl⟩⟩ := presents
  rw [List.append_nil] at found
  have continued := continues_response found more
  constructor
  · rintro ⟨last, again, ⟨tail, allTail, rfl⟩⟩
    rw [List.append_nil] at again
    obtain ⟨rfl, same⟩ := again.unique continued
    refine ⟨⟨more, fun c here => allTail c ?_, (List.append_nil more).symm⟩, rfl⟩
    rw [same]
    exact List.mem_append_right blanks here
  · rintro ⟨skipped, rfl⟩
    have between : Blanks (blanks ++ more) more := ⟨blanks, all, rfl⟩
    exact ⟨blanks ++ more, continued, between.trans skipped⟩

theorem presents_of_ofText {body : String} {response : Response}
    (read : ofText body = .ok response) : Presents body.toList response := by
  cases whole : readWhole body.toList with
  | ok found =>
    rw [ofText_of_presents (readWhole_iff.mp whole)] at read
    cases read
    exact readWhole_iff.mp whole
  | error fault =>
    rw [ofText, whole] at read
    cases read

/-- Where a text holds a response, no beginning of it holds any that leaves out more than blanks,
and with a text added it holds one only if that text is blank, and then the same. -/
theorem ofText_whole_only (body : String) (response : Response)
    (read : ofText body = .ok response) :
    (∀ front back : String, body = front ++ back → ¬ Blanks back.toList [] →
        ∃ failure, ofText front = .error failure) ∧
      ∀ more : String,
        ((∃ other, ofText (body ++ more) = .ok other) ↔ Blanks more.toList []) ∧
          ∀ other, ofText (body ++ more) = .ok other → other = response := by
  have presents := presents_of_ofText read
  refine ⟨fun front back split cut => ?_, fun more => ⟨⟨?_, fun blanks => ?_⟩, ?_⟩⟩
  · cases whole : ofText front with
    | error failure => exact ⟨failure, rfl⟩
    | ok found =>
      rw [split, String.toList_append] at presents
      exact absurd ((presents_append_iff (presents_of_ofText whole)).mp presents).1 cut
  · rintro ⟨other, again⟩
    have again := presents_of_ofText again
    rw [String.toList_append] at again
    exact ((presents_append_iff presents).mp again).1
  · refine ⟨response, ofText_of_presents ?_⟩
    rw [String.toList_append]
    exact (presents_append_iff presents).mpr ⟨blanks, rfl⟩
  · intro other again
    have again := presents_of_ofText again
    rw [String.toList_append] at again
    exact ((presents_append_iff presents).mp again).2

/-- A response with brackets in a string that is passed over, all but its last two characters. -/
def unclosed : String := "\x7b\"took\":[\"]\x7d\"],\"buckets\":[[\"a.b\",2]"

theorem ofText_whole_only_unclosed :
    ofText (unclosed ++ "]\x7d") = .ok ⟨[⟨some "a.b", 2⟩]⟩ ∧ ¬ Blanks "]\x7d".toList [] ∧
      (∃ failure, ofText unclosed = .error failure) ∧
        ∃ other, ofText (unclosed ++ "]\x7d" ++ "\r\n") = .ok other := by
  have read : ofText (unclosed ++ "]\x7d") = .ok ⟨[⟨some "a.b", 2⟩]⟩ := by decide +kernel
  have cut : ¬ Blanks "]\x7d".toList [] := skipBlanks_eq_nil_iff.not.mp (by decide)
  have blank : Blanks "\r\n".toList [] := skipBlanks_eq_nil_iff.mp (by decide)
  obtain ⟨front, back⟩ := ofText_whole_only _ _ read
  exact ⟨read, cut, front unclosed "]\x7d" rfl cut, (back "\r\n").1.mpr blank⟩

end MetricCatalog.Response
