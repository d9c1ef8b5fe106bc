import MetricCatalog.Catalog
import MetricCatalog.Response.Reader
import MetricCatalog.Tally.Session

/-!
# Sessions on a catalog

A session makes a catalog and applies steps to it in order. Each step is answered, and leaves its
signals and the state after it. Rolling back restores the catalog and nothing else: what has been
told stays told.
-/

namespace MetricCatalog.Catalog

/-- Where buckets come from: the text of a response, or the buckets themselves. -/
inductive Source where
  | text (body : String)
  | buckets (list : List Bucket)
  deriving Repr

def Source.response : Source → Except Failure Response
  | .text body => Response.ofText body
  | .buckets list => .ok ⟨list⟩

/-- How the catalog of a session is made. -/
inductive Opening where
  | standard
  | signed (level : Int64)
  | unsigned (level : BaseLevel)
  | response (level : BaseLevel) (source : Source)
  deriving Repr

/-- Makes the catalog, with the signals of making it. -/
def Opening.catalog : Opening → Except Failure Catalog × List Signal
  | .standard => (.ok default, [])
  | .signed level => (ofSigned level, [])
  | .unsigned level => (.ok (empty level), [])
  | .response level source =>
    match source.response with
    | .error failure => (.error failure, [])
    | .ok received => ofResponse level received

/-- One request to a catalog. -/
inductive Step where
  | add (index : String) (count : Int64)
  | addAll (observations : List (String × Int64))
  | feed (source : Source)
  | nextLevelNames
  | completeNames
  | listing
  | counts (name : String)
  | baseLevel
  | save
  | restore
  deriving Repr

/-- What a step answers. -/
inductive Answer where
  | done
  | failed (failure : Failure)
  | names (list : List String)
  | listing (listing : Listing)
  | record (record : Option Record)
  | baseLevel (level : BaseLevel)
  deriving Repr

/-- A step's answer, the signals it gave, and the catalog it leaves. -/
structure Reply where
  answer : Answer
  signals : List Signal
  catalog : Catalog

/-- A catalog and its saved copy, which at the start is the catalog as it was made. -/
abbrev Session := Checkpoint Catalog

def Update.answer (u : Update) : Answer :=
  match u.result with
  | .ok () => .done
  | .error failure => .failed failure

namespace Session

/-- Takes over what an update leaves. -/
def take (s : Session) (u : Update) : Session × Answer × List Signal :=
  (s.advance u.catalog, u.answer, u.signals)

/-- Applies one step. -/
def step (s : Session) : Step → Session × Answer × List Signal
  | .add index count => s.take (s.current.add index count)
  | .addAll observations => s.take (s.current.addAll observations)
  | .feed source =>
    match source.response with
    | .error failure => (s, .failed failure, [])
    | .ok response => s.take (s.current.feed response.buckets)
  | .nextLevelNames => (s, .names s.current.nextLevelNames, [])
  | .completeNames =>
    let (names, signals) := s.current.deriveComplete
    (s, .names names, signals)
  | .listing =>
    let (listing, signals) := s.current.listing
    (s, .listing listing, signals)
  | .counts name => (s, .record (s.current.counts? name), [])
  | .baseLevel => (s, .baseLevel s.current.level, [])
  | .save => (s.save, .done, [])
  | .restore => (s.restore, .done, [])

/-- The replies to steps in order. -/
def replies (s : Session) : List Step → List Reply
  | [] => []
  | request :: rest =>
    let (next, answer, signals) := s.step request
    ⟨answer, signals, next.current⟩ :: replies next rest

end Session

/-- What came of a whole session. -/
structure Run where
  /-- The replies, or why no catalog could be made. -/
  outcome : Except Failure (List Reply)
  /-- The signals of making the catalog. -/
  opening : List Signal

namespace Run

/-- Makes a catalog and applies steps to it. -/
def of (opening : Opening) (steps : List Step) : Run :=
  let (made, signals) := opening.catalog
  ⟨made.map fun catalog => Session.replies (.start catalog) steps, signals⟩

/-- All signals of the session, in order. -/
def signals (run : Run) : List Signal :=
  run.opening ++
    match run.outcome with
    | .error _ => []
    | .ok replies => replies.flatMap Reply.signals

end Run

end MetricCatalog.Catalog
