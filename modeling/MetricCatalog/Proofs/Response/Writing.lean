import MetricCatalog.Proofs.Json.Writer
import MetricCatalog.Proofs.Response.Reading

/-!
# Written responses are read back

The text of a response presents it by the grammar, part by part: the term and the count of each
bucket, the list of buckets, the response. As reading goes by the same grammar, a response survives
being written and read, whatever its terms hold and however large its counts are; what has been
read from any text stays the same from then on.
-/

namespace MetricCatalog.Response

open Json

theorem written_key (key : Option String) :
    Written KeyText (key.elim ['n', 'u', 'l', 'l'] writeText) key := by
  intro rest
  cases key with
  | none => exact .refl _
  | some key =>
    rw [Option.elim_some, writeText_append]
    exact ⟨_, .refl _, spells_write _ _⟩

theorem written_count (count : Int64) : Written CountText (toString count.toInt).toList count :=
  fun rest => ⟨_, .refl _, written_integer count rest⟩

theorem written_bucket (bucket : Bucket) : Written BucketText bucket.write bucket := by
  intro rest
  have key : Written (Field BucketEntry.Text)
      (writeText keyField ++ ':' :: bucket.key.elim ['n', 'u', 'l', 'l'] writeText)
      (.key bucket.key) :=
    written_field fun rest => ⟨rfl, written_key bucket.key rest⟩
  have count : Written (Field BucketEntry.Text)
      (writeText countField ++ ':' :: (toString bucket.count.toInt).toList)
      (.count bucket.count) :=
    written_field fun rest => ⟨rfl, written_count bucket.count rest⟩
  have fields : Items '}' _ true _ _ rest :=
    items_commaSeparated (.cons key (.cons count .nil)) rest
  rw [Bucket.write, writeObject_append]
  exact @BucketText.object _ _ rest _ (some bucket.key) bucket.count (.refl _) fields rfl rfl

theorem written_buckets (buckets : List Bucket) :
    Written BucketsText (writeList (buckets.map Bucket.write)) buckets := by
  intro rest
  rw [writeList_append]
  exact ⟨_, .refl _, items_writeList written_bucket buckets rest⟩

theorem written_response (response : Response) : Written ResponseText response.write response := by
  intro rest
  have buckets : Written (Field Entry.Text)
      (writeText bucketsField ++ ':' :: writeList (response.buckets.map Bucket.write))
      (.buckets response.buckets) :=
    written_field fun rest => ⟨rfl, written_buckets response.buckets rest⟩
  have fields : Items '}' _ true _ _ rest := items_commaSeparated (.cons buckets .nil) rest
  rw [write, writeObject_append]
  exact @ResponseText.object _ _ rest _ (some response.buckets) (.refl _) fields rfl

theorem presents_write (response : Response) : Presents response.write response := by
  have written := written_response response []
  rw [List.append_nil] at written
  exact ⟨[], written, .refl []⟩

theorem ofText_of_presents {body : String} {response : Response}
    (presents : Presents body.toList response) : ofText body = .ok response := by
  rw [ofText, readWhole_iff.mpr presents]
  rfl

/-- A response that is written and read is the same again, and so is one that was read from any
text; a text that holds none stays the same failure. -/
theorem ofText_text :
    (∀ response : Response, ofText response.text = .ok response) ∧
      ∀ body : String, ((ofText body).bind fun read => ofText read.text) = ofText body := by
  have again (response : Response) : ofText response.text = .ok response := by
    apply ofText_of_presents
    rw [text, String.toList_ofList]
    exact presents_write response
  refine ⟨again, fun body => ?_⟩
  cases read : ofText body with
  | error failure => rfl
  | ok response => exact again response

end MetricCatalog.Response
