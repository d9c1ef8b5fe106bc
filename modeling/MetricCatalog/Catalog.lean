import MetricCatalog.Response
import MetricCatalog.Tally
import MetricCatalog.Telemetry

/-!
# Catalogs

A catalog gathers observations (a name and its number of documents) around one base level. It
knows which base-level names have names one segment below them, and tallies the documents of each
base-level name and of its children. Observations at other depths leave no trace but a signal.

An update that fails leaves the catalog as it was before the observation that failed; observations
taken up before it stay.
-/

namespace MetricCatalog

/-- The state of one browsing request. -/
structure Catalog where
  level : BaseLevel
  nextLevel : NameSet
  tally : Tally

namespace Catalog

/-- The catalog that has seen no observation. -/
def empty (level : BaseLevel) : Catalog := ⟨level, .empty, .empty⟩

instance : Inhabited Catalog := ⟨empty default⟩

/-- An empty catalog at a signed base level, which must not be negative. -/
def ofSigned (level : Int64) : Except Failure Catalog :=
  (BaseLevel.ofSigned level).map empty

/-- Whether no base-level name has been referred to. -/
def isEmpty (c : Catalog) : Bool := c.tally.isEmpty

/-- Base-level names with a name one segment below them, in ascending order. -/
def nextLevelNames (c : Catalog) : List String := c.nextLevel.names

/-- Base-level names that are metrics of their own, in ascending order. -/
def completeNames (c : Catalog) : List String := c.tally.completeNames

/-- The counts of a base-level name that has been referred to. -/
def counts? (c : Catalog) (name : String) : Option Record := c.tally.find? name

/-- What an operation leaves: the catalog, whether all went well, and the signals. -/
structure Update where
  catalog : Catalog
  result : Except Failure Unit
  signals : List Signal

/-- Goes on with a further operation if the first went well. -/
def Update.andThen (first : Update) (next : Catalog → Update) : Update :=
  match first.result with
  | .error _ => first
  | .ok () =>
    let second := next first.catalog
    { second with signals := first.signals ++ second.signals }

/-- The count of an acceptable observation. An empty name is refused first, then a negative
count. -/
def validate (index : String) (count : Int64) : Except Failure UInt64 :=
  if index = "" then .error .emptyIndex
  else if count < 0 then .error (.negativeCount index count)
  else .ok count.toUInt64

/-- Takes up an acceptable observation: a base name's count is its own, a deeper name's count goes
to its parent. -/
def record (c : Catalog) (index : String) (count : UInt64) : Placement → Catalog
  | .base => { c with tally := c.tally.setOwn index count }
  | .next parent =>
    { c with
      nextLevel := c.nextLevel.add parent
      tally := c.tally.addChildren parent count }
  | .ignored => c

/-- Observes one name. -/
def add (c : Catalog) (index : String) (count : Int64) : Update :=
  match validate index count with
  | .error failure =>
    ⟨c, .error failure,
      [.event (.rejected index count failure), .count (.rejections failure.reason)]⟩
  | .ok valid =>
    let placement := c.level.place index
    ⟨c.record index valid placement, .ok (),
      [.event (.placed index count c.level placement.outcome),
        .count (.observations placement.outcome)]⟩

/-- Observes names in order, up to the first that is refused. -/
def addAll (c : Catalog) : List (String × Int64) → Update
  | [] => ⟨c, .ok (), []⟩
  | (index, count) :: rest => (c.add index count).andThen fun next => next.addAll rest

/-- Observes a bucket. One without a term is refused before it counts as an observation. -/
def addBucket (c : Catalog) (bucket : Bucket) : Update :=
  match bucket.key with
  | none => ⟨c, .error .emptyIndex, []⟩
  | some key => c.add key bucket.count

/-- Observes buckets in order, up to the first that is refused. -/
def feed (c : Catalog) : List Bucket → Update
  | [] => ⟨c, .ok (), []⟩
  | bucket :: rest => (c.addBucket bucket).andThen fun next => next.feed rest

/-- The complete names, with a word about them in the log. -/
def deriveComplete (c : Catalog) : List String × List Signal :=
  let names := c.completeNames
  (names, [.event (.completeNamesDerived c.level c.tally.size names.length)])

/-- Both result sets. Their sizes are sampled here and nowhere else. -/
def listing (c : Catalog) : Listing × List Signal :=
  let (complete, told) := c.deriveComplete
  let listing : Listing := ⟨c.nextLevelNames, complete⟩
  (listing, told ++
    [.sample .nextLevelNames listing.nextLevel.length,
      .sample .completeNames listing.complete.length])

/-- The catalog of a whole response, with its signals. -/
def ofResponse (level : BaseLevel) (response : Response) : Except Failure Catalog × List Signal :=
  let fed := (empty level).feed response.buckets
  match fed.result with
  | .error failure => (.error failure, fed.signals)
  | .ok () =>
    (.ok fed.catalog,
      fed.signals ++ [.event (.responseCataloged level response.buckets.length)])

end Catalog

end MetricCatalog
