import MetricCatalog.Exporter.Registry
import MetricCatalog.NameMap

/-!
# Prometheus text

Totals are exposed as blocks of lines, one block for each metric that was ever recorded: first the
metric's type, then a line for each sample, with the sample's labels in braces before its value.
Configured labels come first, in the order of their names; a metric's own label takes the place of
a configured one of the same name.
-/

namespace MetricCatalog.Exporter

/-- Labels with their values, in the order they are written in. -/
abbrev Labels := List (String × String)

namespace Labels

/-- Sets a label in its place, or adds it at the end. -/
def set (labels : Labels) (name value : String) : Labels :=
  match labels with
  | [] => [(name, value)]
  | (other, old) :: rest =>
    if other = name then (name, value) :: rest else (other, old) :: set rest name value

def startsName (c : Char) : Bool := c.isAlpha || c = '_'

def continuesName (c : Char) : Bool := c.isAlphanum || c = '_'

/-- A label's name with an underscore for every character that may not stand where it stands. -/
def cleanName : List Char → List Char
  | [] => []
  | c :: rest =>
    (if startsName c then c else '_') :: rest.map fun c => if continuesName c then c else '_'

/-- A label's value with line feeds and quotes escaped. A backslash is escaped too, unless it
already stands before a backslash or a quote and so escapes it; `pending` says that one has been
read and not yet written. -/
def escapeValue (pending : Bool) : List Char → List Char
  | [] => if pending then ['\\', '\\'] else []
  | '\n' :: rest => '\\' :: 'n' :: escapeValue pending rest
  | '"' :: rest => '\\' :: '"' :: escapeValue false rest
  | '\\' :: rest =>
    if pending then '\\' :: '\\' :: escapeValue false rest else escapeValue true rest
  | c :: rest =>
    if pending then '\\' :: '\\' :: c :: escapeValue false rest else c :: escapeValue false rest

def writeOne (label : String × String) : List Char :=
  cleanName label.1.toList ++ ['=', '"'] ++ escapeValue false label.2.toList ++ ['"']

/-- Labels already written, between braces; nothing if there are none. -/
def braced : List (List Char) → List Char
  | [] => []
  | first :: rest => '{' :: first ++ rest.flatMap (',' :: ·) ++ ['}']

end Labels

/-- One line: the metric, its labels, and a value. -/
def sampleLine (metric : String) (labels : List (List Char)) (value : Nat) : String :=
  metric ++ String.ofList (Labels.braced labels) ++ " " ++ toString value

/-- The lines of one metric, the first of which says its type. -/
abbrev Block := List String

def typeLine (metric kind : String) : String :=
  "# TYPE " ++ metric ++ " " ++ kind

/-- The label of a size class. -/
def limitLabel (limit : String) : List Char :=
  Labels.writeOne ("le", limit)

/-- The block of a histogram: the number of sizes within each limit, and in all, their sum and
their number. -/
def histogramBlock (labels : Labels) (r : Registry) (h : Histogram) : Option Block :=
  let d := r.sizes h
  let written := labels.map Labels.writeOne
  let bucket (limit : String) (n : Nat) : String :=
    sampleLine (h.metric ++ "_bucket") (written ++ [limitLabel limit]) n
  if d.count = 0 then none
  else some (
    typeLine h.metric "histogram" ::
      List.zipWith (fun limit n => bucket (toString limit) n) Metric.sizeLimits d.within ++
      [bucket "+Inf" d.count, sampleLine (h.metric ++ "_sum") written d.sum,
        sampleLine (h.metric ++ "_count") written d.count])

/-- The block of the counters of one metric: those ever incremented, each with its own label. -/
def counterBlock (labels : Labels) (r : Registry) (metric : String) (counters : List Counter) :
    Option Block :=
  let recorded := counters.filter fun c => 0 < r.counts c
  let line (c : Counter) : String :=
    sampleLine metric ((labels.set c.label.1 c.label.2).map Labels.writeOne) (r.counts c)
  if recorded = [] then none
  else some (typeLine metric "counter" :: recorded.map line)

/-- The counters of rejections, in the order of their labels. -/
def rejectionCounters : List Counter :=
  [.rejections .emptyIndex, .rejections .described, .rejections .negativeBaseLevel,
    .rejections .negativeCount]

/-- The counters of observations, in the order of their labels. -/
def observationCounters : List Counter :=
  [.observations .base, .observations .ignored, .observations .nextLevel]

/-- All blocks, in the order of their metrics' names. -/
def exposition (labels : Labels) (r : Registry) : List Block :=
  [histogramBlock labels r .completeNames, histogramBlock labels r .nextLevelNames,
    counterBlock labels r Metric.rejections rejectionCounters,
    counterBlock labels r Metric.observations observationCounters].filterMap id

end MetricCatalog.Exporter
