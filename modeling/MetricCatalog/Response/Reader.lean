import MetricCatalog.Failure.Heading
import MetricCatalog.Json.Layout
import MetricCatalog.Json.Message
import MetricCatalog.Response

/-!
# Responses read from text

A response is an object with a list of buckets, each an object with a term and a count. Either
object may also be written as a list of its fields' values in order. Fields may come in any order;
a field that is not known is passed over; the term and the list of buckets may be missing. The
fault in any other text is told in words, under a heading.
-/

namespace MetricCatalog.Response

open Json
open Text (skipBlanks length_skipBlanks_le length_lt_of_skipBlanks)

/-- What each part is called in complaints. -/
def responseKind : String := "struct TermsAggregation"

def bucketsKind : String := "a sequence"

def bucketKind : String := "struct AggregationBucket"

def keyKind : String := "a string"

def countKind : String := "i64"

/-- Reads a term, which may be null. -/
def readKey (s : List Char) : Except Fault (Option String × List Char) :=
  match skipBlanks whitespace s with
  | 'n' :: rest => (readLetters ['u', 'l', 'l'] rest).map (none, ·)
  | '"' :: rest => (readText rest).map fun (text, rest) => (some (String.ofList text), rest)
  | rest => .error (wrongKind keyKind rest)

/-- Reads a count: an integer of 64 bits with a sign. -/
def readCount (s : List Char) : Except Fault (Int64 × List Char) :=
  let s := skipBlanks whitespace s
  if s.head?.any fun c => c = '-' ∨ c.isDigit then
    match readNumber s with
    | .error fault => .error fault
    | .ok (.decimal x, rest) => .error (.here (.wrongKind (.decimal x) countKind) rest)
    | .ok (.integer n, rest) =>
      if n ≤ Int64.maxValue.toInt then .ok (.ofInt n, rest)
      else .error (.here (.wrongInteger n countKind) rest)
  else .error (wrongKind countKind s)

/-- The fields of a bucket that have been read so far. -/
structure BucketFields where
  key : Option (Option String)
  count : Option Int64

def readBucketField (fields : BucketFields) (name : String) (s : List Char) :
    Except Fault (BucketFields × List Char) :=
  if name = keyField then
    if fields.key.isSome then .error (duplicateField keyField s)
    else do
      let (key, rest) ← readKey (← takeColon s)
      return (⟨some key, fields.count⟩, rest)
  else if name = countField then
    if fields.count.isSome then .error (duplicateField countField s)
    else do
      let (count, rest) ← readCount (← takeColon s)
      return (⟨fields.key, some count⟩, rest)
  else do
    let rest ← skipValue (← takeColon s)
    return (fields, rest)

theorem length_readKey {s rest : List Char} {key : Option String}
    (h : readKey s = .ok (key, rest)) : rest.length < s.length := by
  unfold readKey at h
  split at h
  · next tail heq =>
    obtain ⟨last, hl, hpair⟩ := exists_of_map_ok h
    obtain ⟨-, rfl⟩ := Prod.mk.inj hpair
    have := length_lt_of_skipBlanks heq
    have := length_readLetters hl
    omega
  · next tail heq =>
    obtain ⟨last, ht, hpair⟩ := exists_of_map_ok h
    obtain ⟨-, rfl⟩ := Prod.mk.inj hpair
    have := length_lt_of_skipBlanks heq
    have := length_readText ht
    omega
  · contradiction

theorem length_readCount {s rest : List Char} {count : Int64}
    (h : readCount s = .ok (count, rest)) : rest.length < s.length := by
  have h0 := length_skipBlanks_le whitespace s
  simp only [readCount] at h
  split at h
  · split at h
    · contradiction
    · contradiction
    · next n last hn =>
      have := length_readNumber hn
      split at h
      · obtain ⟨-, rfl⟩ := Prod.mk.inj (Except.ok.inj h)
        omega
      · contradiction
  · contradiction

theorem length_readBucketField {fields next : BucketFields} {name : String} {s rest : List Char}
    (h : readBucketField fields name s = .ok (next, rest)) : rest.length < s.length := by
  unfold readBucketField at h
  split at h
  · split at h
    · contradiction
    · obtain ⟨more, hc, h⟩ := exists_of_bind_ok h
      obtain ⟨⟨key, last⟩, hk, h⟩ := exists_of_bind_ok h
      obtain ⟨-, rfl⟩ := Prod.mk.inj (Except.ok.inj h)
      exact Nat.lt_trans (length_readKey hk) (length_takeColon hc)
  split at h
  · split at h
    · contradiction
    · obtain ⟨more, hc, h⟩ := exists_of_bind_ok h
      obtain ⟨⟨count, last⟩, hk, h⟩ := exists_of_bind_ok h
      obtain ⟨-, rfl⟩ := Prod.mk.inj (Except.ok.inj h)
      exact Nat.lt_trans (length_readCount hk) (length_takeColon hc)
  · obtain ⟨more, hc, h⟩ := exists_of_bind_ok h
    obtain ⟨last, hk, h⟩ := exists_of_bind_ok h
    obtain ⟨-, rfl⟩ := Prod.mk.inj (Except.ok.inj h)
    exact Nat.lt_trans (length_skipWithin hk) (length_takeColon hc)

def bucketFields : FieldReader BucketFields := ⟨readBucketField, length_readBucketField⟩

/-- Reads a bucket written as the list of its term and its count, after the opening bracket. -/
def readBucketList (s : List Char) : Except Fault (Bucket × List Char) := do
  let tooShort (rest : List Char) : Fault :=
    .here (.wrongLength 1 (bucketKind ++ " with 2 elements")) rest
  let (more, s) ← nextElement true s
  if more then
    let (key, s) ← readKey s
    let (more, s) ← nextElement false s
    if more then
      let (count, s) ← readCount s
      return (⟨key, count⟩, ← endList s)
    else .error (tooShort s)
  else .error (tooShort s)

/-- Reads a bucket. -/
def readBucket (s : List Char) : Except Fault (Bucket × List Char) :=
  match skipBlanks whitespace s with
  | '[' :: rest => readBucketList rest
  | '{' :: rest => do
    let (fields, rest) ← bucketFields.readAll true ⟨none, none⟩ rest
    match fields.count with
    | some count => return (⟨fields.key.join, count⟩, rest)
    | none => .error (.here (.missingField countField) rest)
  | rest => .error (wrongKind bucketKind rest)

theorem length_readBucketList {s rest : List Char} {bucket : Bucket}
    (h : readBucketList s = .ok (bucket, rest)) : rest.length < s.length := by
  obtain ⟨⟨more, s₁⟩, h1, h⟩ := exists_of_bind_ok h
  have := length_nextElement h1
  cases more with
  | false => contradiction
  | true =>
    obtain ⟨⟨key, s₂⟩, h2, h⟩ := exists_of_bind_ok h
    obtain ⟨⟨more, s₃⟩, h3, h⟩ := exists_of_bind_ok h
    have := length_readKey h2
    have := length_nextElement h3
    cases more with
    | false => contradiction
    | true =>
      obtain ⟨⟨count, s₄⟩, h4, h⟩ := exists_of_bind_ok h
      obtain ⟨s₅, h5, h⟩ := exists_of_bind_ok h
      have := length_readCount h4
      have := length_endList h5
      obtain ⟨-, rfl⟩ := Prod.mk.inj (Except.ok.inj h)
      omega

theorem length_readBucket {s rest : List Char} {bucket : Bucket}
    (h : readBucket s = .ok (bucket, rest)) : rest.length < s.length := by
  unfold readBucket at h
  split at h
  · next tail heq =>
    exact Nat.lt_trans (length_readBucketList h) (length_lt_of_skipBlanks heq)
  · next tail heq =>
    obtain ⟨⟨fields, last⟩, hf, h⟩ := exists_of_bind_ok h
    have h1 := FieldReader.length_readAll hf
    have h2 := length_lt_of_skipBlanks heq
    simp only at h
    split at h
    · obtain ⟨-, rfl⟩ := Prod.mk.inj (Except.ok.inj h)
      omega
    · contradiction
  · contradiction

def bucketElements : ElementReader Bucket := ⟨readBucket, length_readBucket⟩

/-- Reads a list of buckets. -/
def readBuckets (s : List Char) : Except Fault (List Bucket × List Char) :=
  match skipBlanks whitespace s with
  | '[' :: rest => bucketElements.readAll true rest
  | rest => .error (wrongKind bucketsKind rest)

/-- Reads a field of a response; the state is the list of buckets once it has been read. -/
def readResponseField (buckets : Option (List Bucket)) (name : String) (s : List Char) :
    Except Fault (Option (List Bucket) × List Char) :=
  if name = bucketsField then
    if buckets.isSome then .error (duplicateField bucketsField s)
    else do
      let (read, rest) ← readBuckets (← takeColon s)
      return (some read, rest)
  else do
    let rest ← skipValue (← takeColon s)
    return (buckets, rest)

theorem length_readBuckets {s rest : List Char} {buckets : List Bucket}
    (h : readBuckets s = .ok (buckets, rest)) : rest.length < s.length := by
  unfold readBuckets at h
  split at h
  · next tail heq =>
    have := ElementReader.length_readAll h
    have := length_lt_of_skipBlanks heq
    omega
  · contradiction

theorem length_readResponseField {buckets next : Option (List Bucket)} {name : String}
    {s rest : List Char} (h : readResponseField buckets name s = .ok (next, rest)) :
    rest.length < s.length := by
  unfold readResponseField at h
  split at h
  · split at h
    · contradiction
    · obtain ⟨more, hc, h⟩ := exists_of_bind_ok h
      obtain ⟨⟨read, last⟩, hk, h⟩ := exists_of_bind_ok h
      obtain ⟨-, rfl⟩ := Prod.mk.inj (Except.ok.inj h)
      exact Nat.lt_trans (length_readBuckets hk) (length_takeColon hc)
  · obtain ⟨more, hc, h⟩ := exists_of_bind_ok h
    obtain ⟨last, hk, h⟩ := exists_of_bind_ok h
    obtain ⟨-, rfl⟩ := Prod.mk.inj (Except.ok.inj h)
    exact Nat.lt_trans (length_skipWithin hk) (length_takeColon hc)

def responseFields : FieldReader (Option (List Bucket)) :=
  ⟨readResponseField, length_readResponseField⟩

/-- Reads a response off the front of a text. -/
def readResponse (s : List Char) : Except Fault (Response × List Char) :=
  match skipBlanks whitespace s with
  | '[' :: rest => do
    let (more, rest) ← nextElement true rest
    if more then
      let (buckets, rest) ← readBuckets rest
      return (⟨buckets⟩, ← endList rest)
    else return (⟨[]⟩, rest)
  | '{' :: rest => do
    let (buckets, rest) ← responseFields.readAll true none rest
    return (⟨buckets.getD []⟩, rest)
  | rest => .error (wrongKind responseKind rest)

/-- Reads a text that holds one response and nothing else. -/
def readWhole (text : List Char) : Except Fault Response := do
  let (response, rest) ← readResponse text
  endText rest
  return response

/-- The response a text holds. -/
def ofText (body : String) : Except Failure Response :=
  let read := (readWhole body.toList).mapError fun fault => fault.message body.toList
  Id.run (Heading.attach (pure "failed to parse terms aggregation") read)

end MetricCatalog.Response
