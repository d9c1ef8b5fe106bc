import MetricCatalog.Proofs.Json.Layout
import MetricCatalog.Proofs.Response.Grammar
import MetricCatalog.Response.Reader

/-!
# Responses are read by the grammar

Each reader of a response is settled by one equivalence with its part of the grammar, from terms
and counts up to whole texts. Field by field, a reader remembers what it has seen and refuses to
see it twice; the grammar counts the entries of a kind at the end.
-/

namespace MetricCatalog.Response

open Json
open Text (skipBlanks skipBlanks_eq_cons_iff skipBlanks_skipBlanks blanks_skipBlanks)

variable {s t rest : List Char}

theorem KeyText.of_blanks {key : Option String} (blanks : Blanks s t) (text : KeyText t key rest) :
    KeyText s key rest := by
  cases key with
  | none => exact blanks.trans text
  | some key =>
    obtain ⟨u, quote, spells⟩ := text
    exact ⟨u, blanks.trans quote, spells⟩

theorem KeyText.head {key : Option String} (text : KeyText s key rest) :
    ∃ c t, skipBlanks whitespace s = c :: t ∧ c ≠ ']' := by
  cases key with
  | none => exact ⟨_, _, (skipBlanks_eq_cons_iff rfl).mpr text, by decide⟩
  | some key =>
    obtain ⟨u, quote, -⟩ := text
    exact ⟨_, _, (skipBlanks_eq_cons_iff rfl).mpr quote, by decide⟩

theorem readKey_iff {key : Option String} : readKey s = .ok (key, rest) ↔ KeyText s key rest := by
  constructor
  · intro read
    rw [readKey.eq_def] at read
    split at read
    · next null =>
      obtain ⟨last, letters, same⟩ := exists_of_map_ok read
      cases same
      rw [readLetters_iff.mp letters] at null
      exact (skipBlanks_eq_cons_iff rfl).mp null
    · next quote =>
      obtain ⟨⟨text, last⟩, read, same⟩ := exists_of_map_ok read
      cases same
      refine ⟨_, (skipBlanks_eq_cons_iff rfl).mp quote, ?_⟩
      rw [String.toList_ofList]
      exact readText_iff.mp read
    · cases read
  · intro text
    cases key with
    | none =>
      have letters : readLetters ['u', 'l', 'l'] (['u', 'l', 'l'] ++ rest) = .ok rest :=
        readLetters_iff.mpr rfl
      rw [readKey, (skipBlanks_eq_cons_iff rfl).mpr text]
      change (readLetters ['u', 'l', 'l'] (['u', 'l', 'l'] ++ rest)).map _ = _
      rw [letters]
      rfl
    | some key =>
      obtain ⟨u, quote, spells⟩ := text
      rw [readKey, (skipBlanks_eq_cons_iff rfl).mpr quote]
      simp only [readText_iff.mpr spells, Except.map, String.ofList_toList]

theorem readKey_skipBlanks (s : List Char) : readKey (skipBlanks whitespace s) = readKey s := by
  rw [readKey, skipBlanks_skipBlanks, readKey]

theorem CountText.of_blanks {count : Int64} (blanks : Blanks s t) (text : CountText t count rest) :
    CountText s count rest := by
  obtain ⟨u, more, integer⟩ := text
  exact ⟨u, blanks.trans more, integer⟩

theorem CountText.head {count : Int64} (text : CountText s count rest) :
    ∃ c t, skipBlanks whitespace s = c :: t ∧ (c = '-' ∨ c.isDigit = true) ∧
      Integer (c :: t) count rest := by
  obtain ⟨t, blanks, integer⟩ := text
  obtain ⟨c, u, rfl, first⟩ := integer.numeric.head
  exact ⟨c, u, (skipBlanks_eq_cons_iff (not_blank_of_number first)).mpr blanks, first, integer⟩

theorem readCount_iff {count : Int64} (delimited : Delimited rest) :
    readCount s = .ok (count, rest) ↔ CountText s count rest := by
  constructor
  · intro read
    rw [readCount] at read
    split at read
    · split at read
      · cases read
      · cases read
      · next v last number =>
        split at read
        · next small =>
          cases read
          have large := minValue_le_of_readNumber number
          rw [← Int64.toInt_ofInt_of_le large (Int.lt_add_one_of_le small)] at number
          exact ⟨_, blanks_skipBlanks s, (readNumber_integer_iff delimited).mp number⟩
        · cases read
    · cases read
  · intro text
    obtain ⟨c, t, found, first, integer⟩ := text.head
    have number := (readNumber_integer_iff delimited).mpr integer
    rw [readCount, found, if_pos (by simpa using first), number]
    dsimp only
    rw [if_pos count.toInt_le, Int64.ofInt_toInt]

theorem readCount_skipBlanks (s : List Char) :
    readCount (skipBlanks whitespace s) = readCount s := by
  rw [readCount, skipBlanks_skipBlanks, readCount]

namespace BucketFields

def withKey (fields : BucketFields) (key : Option String) : BucketFields :=
  ⟨some key, fields.count⟩

def withCount (fields : BucketFields) (count : Int64) : BucketFields := ⟨fields.key, some count⟩

/-- Takes up what a field says, unless it has been said. -/
def take (fields : BucketFields) : BucketEntry → Option BucketFields
  | .key key => if fields.key.isSome then none else some (fields.withKey key)
  | .count count => if fields.count.isSome then none else some (fields.withCount count)
  | .other => some fields

end BucketFields

theorem bucketFields_takes : bucketFields.Takes BucketEntry.Text BucketFields.take := by
  intro fields next name s rest delimited
  change readBucketField fields name s = _ ↔ _
  constructor
  · intro read
    rw [readBucketField] at read
    split at read
    · next named =>
      split at read
      · cases read
      · next unseen =>
        obtain ⟨key, t, colon, value, rfl⟩ := (afterColon_iff fields.withKey).mp read
        exact ⟨.key key, t, colon, ⟨named, readKey_iff.mp value⟩, if_neg unseen⟩
    · next notKey =>
      split at read
      · next named =>
        split at read
        · cases read
        · next unseen =>
          obtain ⟨count, t, colon, value, rfl⟩ := (afterColon_iff fields.withCount).mp read
          exact ⟨.count count, t, colon, ⟨named, (readCount_iff delimited).mp value⟩, if_neg unseen⟩
      · next notCount =>
        obtain ⟨t, colon, value, rfl⟩ := (skipAfterColon_iff delimited).mp read
        exact ⟨.other, t, colon, ⟨notKey, notCount, value⟩, rfl⟩
  · rintro ⟨entry, t, colon, text, took⟩
    cases entry with
    | key key =>
      obtain ⟨named, text⟩ := text
      have named : name = keyField := named
      rw [BucketFields.take] at took
      split at took
      · cases took
      · next unseen =>
        cases took
        rw [readBucketField, if_pos named, if_neg unseen]
        exact (afterColon_iff fields.withKey).mpr ⟨key, t, colon, readKey_iff.mpr text, rfl⟩
    | count count =>
      obtain ⟨named, text⟩ := text
      have named : name = countField := named
      have notKey : name ≠ keyField := by rw [named]; decide
      rw [BucketFields.take] at took
      split at took
      · cases took
      · next unseen =>
        cases took
        rw [readBucketField, if_neg notKey, if_pos named, if_neg unseen]
        exact (afterColon_iff fields.withCount).mpr
          ⟨count, t, colon, (readCount_iff delimited).mpr text, rfl⟩
    | other =>
      obtain ⟨notKey, notCount, text⟩ := text
      have notKey : name ≠ keyField := notKey
      have notCount : name ≠ countField := notCount
      cases took
      rw [readBucketField, if_neg notKey, if_neg notCount]
      exact (skipAfterColon_iff delimited).mpr ⟨t, colon, text, rfl⟩

theorem toList_eq_iff {α : Type} {x y : Option α} : x.toList = y.toList ↔ x = y := by
  cases x <;> cases y <;> simp

/-- A slot is filled by what was in it and what came, if that is one thing at most. -/
theorem append_cons_eq_toList_iff {α : Type} {slot final : Option α} {a : α} {more : List α} :
    slot.toList ++ a :: more = final.toList ↔
      slot.isSome = false ∧ (some a).toList ++ more = final.toList := by
  cases slot with
  | none => simp
  | some b =>
    cases final with
    | none => simp
    | some c => simp

/-- What has been taken up in the end is what was there and what the fields said. -/
theorem foldlM_take_iff {entries : List BucketEntry} {fields final : BucketFields} :
    entries.foldlM BucketFields.take fields = some final ↔
      fields.key.toList ++ entries.filterMap BucketEntry.key? = final.key.toList ∧
        fields.count.toList ++ entries.filterMap BucketEntry.count? = final.count.toList := by
  induction entries generalizing fields with
  | nil =>
    rw [List.foldlM_nil, List.filterMap_nil, List.filterMap_nil, List.append_nil, List.append_nil,
      toList_eq_iff, toList_eq_iff]
    cases fields
    cases final
    simp
  | cons entry entries ih =>
    rw [List.foldlM_cons, List.filterMap_cons, List.filterMap_cons]
    cases entry with
    | key key =>
      simp only [BucketFields.take, BucketEntry.key?, BucketEntry.count?,
        append_cons_eq_toList_iff]
      cases fields.key with
      | none => exact ih.trans (and_congr_left fun _ => by simp [BucketFields.withKey])
      | some seen =>
        constructor
        · intro folded
          cases folded
        · rintro ⟨⟨free, -⟩, -⟩
          cases free
    | count count =>
      simp only [BucketFields.take, BucketEntry.key?, BucketEntry.count?,
        append_cons_eq_toList_iff]
      cases fields.count with
      | none => exact ih.trans (and_congr_right fun _ => by simp [BucketFields.withCount])
      | some seen =>
        constructor
        · intro folded
          cases folded
        · rintro ⟨-, free, -⟩
          cases free
    | other => exact ih

theorem readBucketList_iff {bucket : Bucket} :
    readBucketList s = .ok (bucket, rest) ↔
      ∃ u v w, KeyText s bucket.key u ∧ Blanks u (',' :: v) ∧ CountText v bucket.count w ∧
        Blanks w (']' :: rest) := by
  constructor
  · intro read
    obtain ⟨⟨more, s₁⟩, start, read⟩ := exists_of_bind_ok read
    cases more with
    | false => cases read
    | true =>
      obtain ⟨t, c, u, rfl, rfl, -⟩ := nextElement_item_iff.mp start
      obtain ⟨⟨key, s₂⟩, readKey, read⟩ := exists_of_bind_ok read
      obtain ⟨⟨more, s₃⟩, comma, read⟩ := exists_of_bind_ok read
      cases more with
      | false => cases read
      | true =>
        obtain ⟨v, c, u, separated, rfl, -⟩ := nextElement_item_iff.mp comma
        obtain ⟨⟨count, s₄⟩, readCount, read⟩ := exists_of_bind_ok read
        obtain ⟨s₅, close, read⟩ := exists_of_bind_ok read
        cases read
        have close := endList_iff.mp close
        have delimited := Delimited.of_blanks close (by simp)
        exact ⟨s₂, v, s₄, (readKey_iff.mp readKey).of_blanks (blanks_skipBlanks s), separated,
          ((readCount_iff delimited).mp readCount).of_blanks (blanks_skipBlanks v), close⟩
  · rintro ⟨u, v, w, key, comma, count, close⟩
    have delimited := Delimited.of_blanks close (by simp)
    obtain ⟨c, t, startK, otherK⟩ := key.head
    obtain ⟨d, x, startC, firstC, -⟩ := count.head
    have otherC : d ≠ ']' := by
      rintro rfl
      simp at firstC
    have firstElement : nextElement true s = .ok (true, skipBlanks whitespace s) :=
      nextElement_item_iff.mpr ⟨s, c, t, rfl, rfl, startK, otherK⟩
    have secondElement : nextElement false u = .ok (true, skipBlanks whitespace v) :=
      nextElement_item_iff.mpr ⟨v, d, x, comma, rfl, startC, otherC⟩
    have readCount : readCount (skipBlanks whitespace v) = .ok (bucket.count, w) := by
      rw [readCount_skipBlanks]
      exact (readCount_iff delimited).mpr count
    rw [readBucketList]
    simp only [firstElement, bind, Except.bind, if_true, readKey_skipBlanks, readKey_iff.mpr key,
      secondElement, readCount, endList_iff.mpr close]
    rfl

theorem readBucket_iff {bucket : Bucket} :
    readBucket s = .ok (bucket, rest) ↔ BucketText s bucket rest := by
  constructor
  · intro read
    rw [readBucket.eq_def] at read
    split at read
    · next bracket =>
      obtain ⟨u, v, w, key, comma, count, close⟩ := readBucketList_iff.mp read
      exact .list ((skipBlanks_eq_cons_iff rfl).mp bracket) key comma count close
    · next brace =>
      obtain ⟨⟨fields, last⟩, readFields, read⟩ := exists_of_bind_ok read
      obtain ⟨entries, items, folded⟩ :=
        (FieldReader.readAll_iff bucketFields_takes).mp readFields
      obtain ⟨keys, counts⟩ := foldlM_take_iff.mp folded
      dsimp only at read
      split at read
      · next count counted =>
        cases read
        rw [counted] at counts
        exact .object ((skipBlanks_eq_cons_iff rfl).mp brace) items keys counts
      · cases read
    · cases read
  · intro text
    cases text with
    | object brace fields keys counts =>
      have folded := (@foldlM_take_iff _ ⟨none, none⟩ ⟨_, some _⟩).mpr ⟨keys, counts⟩
      have readFields := (FieldReader.readAll_iff bucketFields_takes).mpr ⟨_, fields, folded⟩
      rw [readBucket, (skipBlanks_eq_cons_iff rfl).mpr brace]
      simp only [readFields, bind, Except.bind]
      rfl
    | list bracket first comma second close =>
      rw [readBucket, (skipBlanks_eq_cons_iff rfl).mpr bracket]
      exact readBucketList_iff.mpr ⟨_, _, _, first, comma, second, close⟩

theorem BucketText.head {bucket : Bucket} (text : BucketText s bucket rest) :
    ∃ c t, skipBlanks whitespace s = c :: t ∧ c ≠ ']' := by
  cases text with
  | object brace => exact ⟨_, _, (skipBlanks_eq_cons_iff rfl).mpr brace, by decide⟩
  | list bracket => exact ⟨_, _, (skipBlanks_eq_cons_iff rfl).mpr bracket, by decide⟩

theorem bucketElements_reads : Reads bucketElements.read BucketText where
  iff _ := readBucket_iff
  blanks s := by
    change readBucket (skipBlanks whitespace s) = readBucket s
    rw [readBucket, skipBlanks_skipBlanks, readBucket]
  head := BucketText.head

theorem readBuckets_iff {buckets : List Bucket} :
    readBuckets s = .ok (buckets, rest) ↔ BucketsText s buckets rest := by
  constructor
  · intro read
    rw [readBuckets.eq_def] at read
    split at read
    · next bracket =>
      exact ⟨_, (skipBlanks_eq_cons_iff rfl).mp bracket,
        (ElementReader.readAll_iff bucketElements_reads).mp read⟩
    · cases read
  · rintro ⟨t, bracket, items⟩
    rw [readBuckets, (skipBlanks_eq_cons_iff rfl).mpr bracket]
    exact (ElementReader.readAll_iff bucketElements_reads).mpr items

theorem readBuckets_skipBlanks (s : List Char) :
    readBuckets (skipBlanks whitespace s) = readBuckets s := by
  rw [readBuckets, skipBlanks_skipBlanks, readBuckets]

theorem BucketsText.of_blanks {buckets : List Bucket} (blanks : Blanks s t)
    (text : BucketsText t buckets rest) : BucketsText s buckets rest := by
  obtain ⟨u, bracket, items⟩ := text
  exact ⟨u, blanks.trans bracket, items⟩

/-- Takes up the buckets, unless they have been given. -/
def takeBuckets (buckets : Option (List Bucket)) : Entry → Option (Option (List Bucket))
  | .buckets list => if buckets.isSome then none else some (some list)
  | .other => some buckets

theorem responseFields_takes : responseFields.Takes Entry.Text takeBuckets := by
  intro buckets next name s rest delimited
  change readResponseField buckets name s = _ ↔ _
  constructor
  · intro read
    rw [readResponseField] at read
    split at read
    · next named =>
      split at read
      · cases read
      · next unseen =>
        obtain ⟨list, t, colon, value, rfl⟩ := (afterColon_iff some).mp read
        exact ⟨.buckets list, t, colon, ⟨named, readBuckets_iff.mp value⟩, if_neg unseen⟩
    · next other =>
      obtain ⟨t, colon, value, rfl⟩ := (skipAfterColon_iff delimited).mp read
      exact ⟨.other, t, colon, ⟨other, value⟩, rfl⟩
  · rintro ⟨entry, t, colon, text, took⟩
    cases entry with
    | buckets list =>
      obtain ⟨named, text⟩ := text
      have named : name = bucketsField := named
      rw [takeBuckets] at took
      split at took
      · cases took
      · next unseen =>
        cases took
        rw [readResponseField, if_pos named, if_neg unseen]
        exact (afterColon_iff some).mpr ⟨list, t, colon, readBuckets_iff.mpr text, rfl⟩
    | other =>
      obtain ⟨other, text⟩ := text
      have other : name ≠ bucketsField := other
      cases took
      rw [readResponseField, if_neg other]
      exact (skipAfterColon_iff delimited).mpr ⟨t, colon, text, rfl⟩

theorem foldlM_takeBuckets_iff {entries : List Entry} {buckets final : Option (List Bucket)} :
    entries.foldlM takeBuckets buckets = some final ↔
      buckets.toList ++ entries.filterMap Entry.buckets? = final.toList := by
  induction entries generalizing buckets with
  | nil =>
    rw [List.foldlM_nil, List.filterMap_nil, List.append_nil, toList_eq_iff]
    exact Option.some_inj
  | cons entry entries ih =>
    rw [List.foldlM_cons, List.filterMap_cons]
    cases entry with
    | buckets list =>
      simp only [takeBuckets, Entry.buckets?, append_cons_eq_toList_iff]
      cases buckets with
      | none => exact ih.trans (by simp)
      | some seen =>
        constructor
        · intro folded
          cases folded
        · rintro ⟨free, -⟩
          cases free
    | other => exact ih

theorem readResponse_iff {response : Response} :
    readResponse s = .ok (response, rest) ↔ ResponseText s response rest := by
  constructor
  · intro read
    rw [readResponse.eq_def] at read
    split at read
    · next tail bracket =>
      have bracket := (skipBlanks_eq_cons_iff rfl).mp bracket
      obtain ⟨⟨more, s₁⟩, start, read⟩ := exists_of_bind_ok read
      cases more with
      | false =>
        cases read
        exact @ResponseText.list s tail _ none bracket (nextElement_close_iff.mp start)
      | true =>
        obtain ⟨t, c, u, rfl, rfl, -⟩ := nextElement_item_iff.mp start
        obtain ⟨⟨list, s₂⟩, read', read⟩ := exists_of_bind_ok read
        obtain ⟨s₃, close, read⟩ := exists_of_bind_ok read
        cases read
        have text := (readBuckets_iff.mp read').of_blanks (blanks_skipBlanks _)
        exact @ResponseText.list s _ _ (some list) bracket ⟨_, s₂, rfl, text, endList_iff.mp close⟩
    · next brace =>
      obtain ⟨⟨found, last⟩, readFields, read⟩ := exists_of_bind_ok read
      cases read
      obtain ⟨entries, items, folded⟩ :=
        (FieldReader.readAll_iff responseFields_takes).mp readFields
      exact .object ((skipBlanks_eq_cons_iff rfl).mp brace) items
        (foldlM_takeBuckets_iff.mp folded)
    · cases read
  · intro text
    cases text with
    | object brace fields once =>
      have folded := (@foldlM_takeBuckets_iff _ none _).mpr once
      have readFields := (FieldReader.readAll_iff responseFields_takes).mpr ⟨_, fields, folded⟩
      rw [readResponse, (skipBlanks_eq_cons_iff rfl).mpr brace]
      simp only [readFields, bind, Except.bind]
      rfl
    | @list t _ buckets bracket elements =>
      rw [readResponse, (skipBlanks_eq_cons_iff rfl).mpr bracket]
      cases buckets with
      | none =>
        simp only [nextElement_close_iff.mpr elements, bind, Except.bind]
        rfl
      | some list =>
        obtain ⟨_, u, rfl, text, close⟩ := elements
        obtain ⟨v, opening, -⟩ := id text
        have start : nextElement true t = .ok (true, skipBlanks whitespace t) :=
          nextElement_item_iff.mpr
            ⟨t, '[', v, rfl, rfl, (skipBlanks_eq_cons_iff rfl).mpr opening, by decide⟩
        simp only [start, bind, Except.bind, if_true, readBuckets_skipBlanks,
          readBuckets_iff.mpr text, endList_iff.mpr close]
        rfl

/-- A text is read as a response exactly when it presents it. -/
theorem readWhole_iff {text : List Char} {response : Response} :
    readWhole text = .ok response ↔ Presents text response := by
  constructor
  · intro read
    obtain ⟨⟨found, rest⟩, presented, read⟩ := exists_of_bind_ok read
    obtain ⟨done, ended, same⟩ := exists_of_bind_ok read
    cases same
    exact ⟨rest, readResponse_iff.mp presented, endText_iff.mp ended⟩
  · rintro ⟨rest, presented, ended⟩
    rw [readWhole, readResponse_iff.mpr presented]
    simp only [bind, Except.bind, endText_iff.mpr ended]
    rfl

/-- A text holds a response exactly when it presents it. Any other text is refused, and the failure
is described by the fault in it under one heading. -/
theorem ofText_eq_ok_iff (body : String) :
    (∀ response, ofText body = .ok response ↔ Presents body.toList response) ∧
      ((∃ response, Presents body.toList response) ∨
        ∃ fault : Fault, ofText body = .error
          (.described ("failed to parse terms aggregation: " ++ fault.message body.toList))) := by
  cases read : readWhole body.toList with
  | ok found =>
    have text : ofText body = .ok found := by
      rw [ofText, read]
      rfl
    have presents := readWhole_iff.mp read
    refine ⟨fun response => ?_, Or.inl ⟨found, presents⟩⟩
    rw [text, ← readWhole_iff, read, Except.ok.injEq, Except.ok.injEq]
  | error fault =>
    have text : ofText body = .error
        (.described ("failed to parse terms aggregation: " ++ fault.message body.toList)) := by
      rw [ofText, read]
      rfl
    refine ⟨fun response => ?_, Or.inr ⟨fault, text⟩⟩
    rw [text, ← readWhole_iff, read]
    constructor
    · intro same
      cases same
    · intro same
      cases same

end MetricCatalog.Response
