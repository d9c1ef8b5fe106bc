import MetricCatalog.Json.Writer

/-!
# Responses and listings

A response lists index terms with the number of documents that hold each: one bucket for a term.
A bucket's term may be missing.

A listing is what a browsing request is answered with: the names that can be drilled into, and the
names that are metrics of their own, both in ascending order. Both are written as JSON objects.
-/

namespace MetricCatalog

/-- One term of a response and its number of documents. -/
structure Bucket where
  key : Option String
  count : Int64
  deriving DecidableEq, Repr

/-- The buckets of one response, in the order received. -/
structure Response where
  buckets : List Bucket
  deriving DecidableEq, Repr

namespace Response

def bucketsField : String := "buckets"

def keyField : String := "key"

def countField : String := "doc_count"

end Response

def Bucket.write (bucket : Bucket) : List Char :=
  Json.writeObject
    [(Response.keyField, bucket.key.elim ['n', 'u', 'l', 'l'] Json.writeText),
      (Response.countField, (toString bucket.count.toInt).toList)]

namespace Response

def write (response : Response) : List Char :=
  Json.writeObject [(bucketsField, Json.writeList (response.buckets.map Bucket.write))]

/-- The response's text. -/
def text (response : Response) : String :=
  String.ofList response.write

end Response

/-- The two result sets of a catalog as sorted lists. -/
structure Listing where
  nextLevel : List String
  complete : List String
  deriving DecidableEq, Repr

namespace Listing

def write (listing : Listing) : List Char :=
  let names (list : List String) := Json.writeList (list.map Json.writeText)
  Json.writeObject [("next_level", names listing.nextLevel), ("complete", names listing.complete)]

/-- The listing's text. -/
def text (listing : Listing) : String :=
  String.ofList listing.write

end Listing

end MetricCatalog
