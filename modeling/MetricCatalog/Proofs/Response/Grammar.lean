import MetricCatalog.Proofs.Json.Grammar
import MetricCatalog.Response

/-!
# The grammar of responses

Which texts present a response. Every record may be written as an object or as the list of its
fields' values. An object's fields come in any order among unknown ones; what they say of a record
is told by the entries of each kind, in order.
-/

namespace MetricCatalog.Response

open Json

/-- A term: null, or a string that spells it. -/
def KeyText (s : List Char) : Option String → List Char → Prop
  | none, rest => Blanks s (['n', 'u', 'l', 'l'] ++ rest)
  | some key, rest => ∃ t, Blanks s ('"' :: t) ∧ Spells t key.toList rest

def CountText (s : List Char) (count : Int64) (rest : List Char) : Prop :=
  ∃ t, Blanks s t ∧ Integer t count rest

/-- What a field of a bucket says. -/
inductive BucketEntry where
  | key (key : Option String)
  | count (count : Int64)
  | other

namespace BucketEntry

/-- The value that a field's name calls for. -/
def Text (name : String) (s : List Char) : BucketEntry → List Char → Prop
  | key k, rest => name = "key" ∧ KeyText s k rest
  | count n, rest => name = "doc_count" ∧ CountText s n rest
  | other, rest => name ≠ "key" ∧ name ≠ "doc_count" ∧ Spans .value s rest

def key? : BucketEntry → Option (Option String)
  | key k => some k
  | _ => none

def count? : BucketEntry → Option Int64
  | count n => some n
  | _ => none

end BucketEntry

/-- A bucket: one count and at most one term in an object, or a list of both. -/
inductive BucketText : List Char → Bucket → List Char → Prop
  | object {s t rest : List Char} {entries : List BucketEntry} {key : Option (Option String)}
      {count : Int64} (brace : Blanks s ('{' :: t))
      (fields : Items '}' (Field BucketEntry.Text) true t entries rest)
      (keys : entries.filterMap BucketEntry.key? = key.toList)
      (counts : entries.filterMap BucketEntry.count? = [count]) :
      BucketText s ⟨key.join, count⟩ rest
  | list {s t u v w rest : List Char} {key : Option String} {count : Int64}
      (bracket : Blanks s ('[' :: t)) (first : KeyText t key u) (comma : Blanks u (',' :: v))
      (second : CountText v count w) (close : Blanks w (']' :: rest)) :
      BucketText s ⟨key, count⟩ rest

def BucketsText (s : List Char) (buckets : List Bucket) (rest : List Char) : Prop :=
  ∃ t, Blanks s ('[' :: t) ∧ Items ']' BucketText true t buckets rest

/-- What a field of a response says. -/
inductive Entry where
  | buckets (buckets : List Bucket)
  | other

namespace Entry

def Text (name : String) (s : List Char) : Entry → List Char → Prop
  | buckets list, rest => name = "buckets" ∧ BucketsText s list rest
  | other, rest => name ≠ "buckets" ∧ Spans .value s rest

def buckets? : Entry → Option (List Bucket)
  | buckets list => some list
  | other => none

end Entry

/-- A response: at most one list of buckets, as a field or as the only element of a list. -/
inductive ResponseText : List Char → Response → List Char → Prop
  | object {s t rest : List Char} {entries : List Entry} {buckets : Option (List Bucket)}
      (brace : Blanks s ('{' :: t)) (fields : Items '}' (Field Entry.Text) true t entries rest)
      (once : entries.filterMap Entry.buckets? = buckets.toList) :
      ResponseText s ⟨buckets.getD []⟩ rest
  | list {s t rest : List Char} {buckets : Option (List Bucket)} (bracket : Blanks s ('[' :: t))
      (elements : Items ']' BucketsText true t buckets.toList rest) :
      ResponseText s ⟨buckets.getD []⟩ rest

/-- The text presents the response and holds nothing else. -/
def Presents (text : List Char) (response : Response) : Prop :=
  ∃ rest, ResponseText text response rest ∧ Blanks rest []

end MetricCatalog.Response
