import MetricCatalog.Json.Fault
import MetricCatalog.Text.Lexeme

/-!
# Strings in a JSON text

A string is read after its opening quote. A string that is wanted must spell characters: escapes
that name half a surrogate pair need the other half. A string that is only skipped may name lone
halves, as nobody asks what it spells.
-/

namespace MetricCatalog.Json

/-- The number four hexadecimal digits spell. -/
def hexNumber? (a b c d : Char) : Option Nat :=
  if [a, b, c, d].all fun digit => (Text.hexValue? digit).isSome then
    some (Text.digitsValue 16 [a, b, c, d])
  else none

/-- The fault of four bytes that are no hexadecimal digits. Fewer than four are an unfinished
string. -/
def hexFault (s : List Char) : Fault :=
  if Text.byteSize s < 4 then ⟨.endInString, 0⟩ else ⟨.badEscape, Text.byteSize s - 4⟩

/-- Reads four hexadecimal digits. -/
def readHex (s : List Char) : Except Fault (Nat × List Char) :=
  match s with
  | a :: b :: c :: d :: rest =>
    match hexNumber? a b c d with
    | some n => .ok (n, rest)
    | none => .error (hexFault s)
  | _ => .error (hexFault s)

def isLeadingSurrogate (n : Nat) : Bool := 0xD800 ≤ n && n ≤ 0xDBFF

def isTrailingSurrogate (n : Nat) : Bool := 0xDC00 ≤ n && n ≤ 0xDFFF

/-- The character a surrogate pair stands for. -/
def joinSurrogates (lead trail : Nat) : Char :=
  Char.ofNat (0x10000 + (lead - 0xD800) * 0x400 + (trail - 0xDC00))

/-- Reads the second half of a surrogate pair, an escape of its own. -/
def readTrailingSurrogate (lead : Nat) (s : List Char) : Except Fault (Char × List Char) :=
  match s with
  | [] => .error (.here .endInString [])
  | '\\' :: [] => .error (.here .endInString [])
  | '\\' :: 'u' :: digits => do
    let (trail, rest) ← readHex digits
    if isTrailingSurrogate trail then .ok (joinSurrogates lead trail, rest)
    else .error (.here .loneSurrogate rest)
  | '\\' :: rest => .error (.next .brokenSurrogatePair rest)
  | _ => .error (.next .brokenSurrogatePair s)

/-- Escapes of one letter. -/
def shortEscape? : Char → Option Char
  | '"' => some '"'
  | '\\' => some '\\'
  | '/' => some '/'
  | 'b' => some '\x08'
  | 'f' => some '\x0c'
  | 'n' => some '\n'
  | 'r' => some '\r'
  | 't' => some '\t'
  | _ => none

/-- Reads what follows a backslash and must spell a character. -/
def readEscape (s : List Char) : Except Fault (Char × List Char) :=
  match s with
  | [] => .error (.here .endInString [])
  | c :: rest =>
    match shortEscape? c with
    | some plain => .ok (plain, rest)
    | none =>
      if c = 'u' then do
        let (n, rest) ← readHex rest
        if isTrailingSurrogate n then .error (.here .loneSurrogate rest)
        else if isLeadingSurrogate n then readTrailingSurrogate n rest
        else .ok (Char.ofNat n, rest)
      else .error (.next .badEscape s)

/-- Passes over what follows a backslash. -/
def skipEscape (s : List Char) : Except Fault (List Char) :=
  match s with
  | [] => .error (.here .endInString [])
  | c :: rest =>
    match shortEscape? c with
    | some _ => .ok rest
    | none =>
      if c = 'u' then (readHex rest).map Prod.snd else .error (.next .badEscape s)

theorem length_readHex {s rest : List Char} {n : Nat} (h : readHex s = .ok (n, rest)) :
    rest.length < s.length := by
  unfold readHex at h
  grind

theorem length_readTrailingSurrogate {lead : Nat} {s rest : List Char} {c : Char}
    (h : readTrailingSurrogate lead s = .ok (c, rest)) : rest.length < s.length := by
  unfold readTrailingSurrogate at h
  split at h <;> try contradiction
  obtain ⟨⟨trail, more⟩, hx, hrest⟩ := exists_of_bind_ok h
  have := length_readHex hx
  simp only at hrest
  split at hrest
  · simp only [Except.ok.injEq, Prod.mk.injEq] at hrest
    obtain ⟨-, rfl⟩ := hrest
    simp only [List.length_cons]
    omega
  · contradiction

theorem length_readEscape {s rest : List Char} {c : Char}
    (h : readEscape s = .ok (c, rest)) : rest.length < s.length := by
  unfold readEscape at h
  split at h
  · contradiction
  split at h
  · simp_all
  split at h
  · obtain ⟨⟨n, more⟩, hx, hrest⟩ := exists_of_bind_ok h
    have hlen := length_readHex hx
    simp only [List.length_cons]
    simp only at hrest
    split at hrest
    · contradiction
    · split at hrest
      · have := length_readTrailingSurrogate hrest
        omega
      · simp only [Except.ok.injEq, Prod.mk.injEq] at hrest
        obtain ⟨-, rfl⟩ := hrest
        omega
  · contradiction

theorem length_skipEscape {s rest : List Char} (h : skipEscape s = .ok rest) :
    rest.length < s.length := by
  unfold skipEscape at h
  split at h
  · contradiction
  split at h
  · simp_all
  split at h
  · obtain ⟨⟨n, more⟩, hx, rfl⟩ := exists_of_map_ok h
    have := length_readHex hx
    simp only [List.length_cons]
    omega
  · contradiction

/-- Control characters stand in a string only by escapes. -/
def isControl (c : Char) : Bool := c.toNat < 0x20

/-- Reads the characters of a string up to and including its closing quote. -/
def readText (s : List Char) : Except Fault (List Char × List Char) :=
  match s with
  | [] => .error (.here .endInString [])
  | '"' :: rest => .ok ([], rest)
  | '\\' :: rest =>
    match h : readEscape rest with
    | .error fault => .error fault
    | .ok (c, more) =>
      have := length_readEscape h
      (readText more).map fun (text, last) => (c :: text, last)
  | c :: rest =>
    if isControl c then .error (.next .controlCharacter s)
    else (readText rest).map fun (text, last) => (c :: text, last)
termination_by s.length
decreasing_by all_goals (simp only [List.length_cons]; omega)

/-- Passes over a string up to and including its closing quote. -/
def skipText (s : List Char) : Except Fault (List Char) :=
  match s with
  | [] => .error (.here .endInString [])
  | '"' :: rest => .ok rest
  | '\\' :: rest =>
    match h : skipEscape rest with
    | .error fault => .error fault
    | .ok more =>
      have := length_skipEscape h
      skipText more
  | c :: rest => if isControl c then .error (.here .controlCharacter s) else skipText rest
termination_by s.length
decreasing_by all_goals (simp only [List.length_cons]; omega)

theorem length_readText {s text rest : List Char} (h : readText s = .ok (text, rest)) :
    rest.length < s.length := by
  fun_induction readText s generalizing text with
  | case1 => contradiction
  | case2 => simp_all
  | case3 => contradiction
  | case4 tail c more hx _ ih =>
    obtain ⟨⟨inner, last⟩, hr, hpair⟩ := exists_of_map_ok h
    obtain ⟨-, rfl⟩ := Prod.mk.inj hpair
    have := ih hr
    have := length_readEscape hx
    simp only [List.length_cons]
    omega
  | case5 => contradiction
  | case6 c tail _ _ _ ih =>
    obtain ⟨⟨inner, last⟩, hr, hpair⟩ := exists_of_map_ok h
    obtain ⟨-, rfl⟩ := Prod.mk.inj hpair
    have := ih hr
    simp only [List.length_cons]
    omega

theorem length_skipText {s rest : List Char} (h : skipText s = .ok rest) :
    rest.length < s.length := by
  fun_induction skipText s with
  | case1 => contradiction
  | case2 => simp_all
  | case3 => contradiction
  | case4 tail more hx _ ih =>
    have h1 := ih h
    have h2 := length_skipEscape hx
    simp only [List.length_cons]
    omega
  | case5 => contradiction
  | case6 c tail _ _ _ ih =>
    have := ih h
    simp only [List.length_cons]
    omega

end MetricCatalog.Json
