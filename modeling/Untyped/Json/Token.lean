import Untyped.Decimal.Reader
import Untyped.Json.Numeral
import Untyped.Json.Parsed

/-!
The tokens of JSON: blanks, words, strings and number literals.
-/
namespace Untyped

theorem Digit.length_span (text : List Char) : (Digit.span text).2.length ≤ text.length := by
  induction text with
  | nil => simp [Digit.span]
  | cons c cs ih =>
    rw [Digit.span]
    split
    · exact Nat.le_succ_of_le ih
    · exact Nat.le_refl _

namespace Json

def isBlank (c : Char) : Bool := c = ' ' || c = '\n' || c = '\t' || c = '\r'

def skipBlank (text : List Char) : List Char := text.dropWhile isBlank

theorem length_skipBlank (text : List Char) : (skipBlank text).length ≤ text.length :=
  (List.dropWhile_suffix isBlank).length_le

theorem length_le_of_skipBlank {text next : List Char} (h : skipBlank text = next) :
    next.length ≤ text.length :=
  h ▸ length_skipBlank text

def readWord : List Char → List Char → Except Failure (List Char)
  | [], text => .ok text
  | _ :: _, [] => .error (.atEnd .endInValue)
  | letter :: letters, c :: rest =>
    if c = letter then readWord letters rest
    else .error (.after 1 .expectedWord (c :: rest))

theorem length_readWord {letters text rest : List Char} (h : readWord letters text = .ok rest) :
    rest.length ≤ text.length := by
  induction letters generalizing text with
  | nil => cases h; exact Nat.le_refl _
  | cons letter letters ih =>
    cases text with
    | nil => cases h
    | cons c text =>
      rw [readWord] at h
      split at h
      · exact Nat.le_succ_of_le (ih h)
      · cases h

/-! ### Strings -/

def hexValue? (c : Char) : Option Nat :=
  if '0' ≤ c ∧ c ≤ '9' then some (c.toNat - '0'.toNat)
  else if 'a' ≤ c ∧ c ≤ 'f' then some (c.toNat - 'a'.toNat + 10)
  else if 'A' ≤ c ∧ c ≤ 'F' then some (c.toNat - 'A'.toNat + 10)
  else none

def hexNumber? (a b c d : Char) : Option Nat :=
  match hexValue? a, hexValue? b, hexValue? c, hexValue? d with
  | some a, some b, some c, some d => some (((a * 16 + b) * 16 + c) * 16 + d)
  | _, _, _, _ => none

/-- Four hexadecimal digits. The four bytes are taken before any of them is looked at. -/
def readHex (text : List Char) : Reading Nat text :=
  match text with
  | a :: b :: c :: d :: rest =>
    match hexNumber? a b c d with
    | some n => .ok ((((Parsed.one n d rest).cons c).cons b).cons a)
    | none => .error (.after 4 .invalidEscape (a :: b :: c :: d :: rest))
  | few =>
    if Text.byteLength few < 4 then .error (.atEnd .endInString)
    else .error (.after 4 .invalidEscape few)

def isHighSurrogate (n : Nat) : Bool := 0xD800 ≤ n && n ≤ 0xDBFF

def isLowSurrogate (n : Nat) : Bool := 0xDC00 ≤ n && n ≤ 0xDFFF

def pairedChar (high low : Nat) : Char :=
  Char.ofNat (0x10000 + (high - 0xD800) * 0x400 + (low - 0xDC00))

def readPairing (expected : Char) (text : List Char) : Reading Unit text :=
  match text with
  | [] => .error (.atEnd .endInString)
  | c :: rest =>
    if c = expected then .ok (.one () c rest)
    else .error (.after 1 .unpairedSurrogate (c :: rest))

def readLowSurrogate (text : List Char) : Reading Nat text := do
  let backslash ← readPairing '\\' text
  let letter ← readPairing 'u' backslash.rest
  let low ← readHex letter.rest
  if isLowSurrogate low.value then
    return backslash.andThen (letter.andThen low fun _ n => n) fun _ n => n
  else throw (.after 0 .loneSurrogate low.rest)

/-- The character of a `u` escape, whose letter is already read; a character beyond four digits
takes two escapes. -/
def readUnicode (text : List Char) : Reading Char text := do
  let first ← readHex text
  if isLowSurrogate first.value then throw (.after 0 .loneSurrogate first.rest)
  else if isHighSurrogate first.value then
    let low ← readLowSurrogate first.rest
    return first.andThen low pairedChar
  else return first.map Char.ofNat

def escaped? : Char → Option Char
  | '"' => some '"'
  | '\\' => some '\\'
  | '/' => some '/'
  | 'b' => some '\x08'
  | 'f' => some '\x0c'
  | 'n' => some '\n'
  | 'r' => some '\r'
  | 't' => some '\t'
  | _ => none

def readEscape (text : List Char) : Reading Char text :=
  match text with
  | [] => .error (.atEnd .endInString)
  | c :: rest =>
    if c = 'u' then (readUnicode rest).map (Parsed.cons c)
    else
      match escaped? c with
      | some e => .ok (.one e c rest)
      | none => .error (.after 1 .invalidEscape (c :: rest))

/-- The characters of a string up to its closing quote; the opening one is already read. -/
def readString (text : List Char) : Reading (List Char) text :=
  match text with
  | [] => .error (.atEnd .endInString)
  | c :: rest =>
    if c = '"' then .ok (.one [] c rest)
    else if c.toNat < 0x20 then .error (.after 1 .controlCharacter (c :: rest))
    else if c = '\\' then
      match readEscape rest with
      | .error e => .error e
      | .ok p => (readString p.rest).map fun q => (p.andThen q List.cons).cons c
    else (readString rest).map fun q => (q.map (List.cons c)).cons c
termination_by text.length
decreasing_by
  · exact Nat.lt_succ_of_lt p.shorter
  · exact Nat.lt_succ_self _

/-! ### Number literals -/

/-- The digits of a number literal before the point: a zero alone, or a run without a leading
zero. -/
def readWhole (text : List Char) : Reading (List Digit) text :=
  match text with
  | [] => .error (.atEnd .endInValue)
  | c :: rest =>
    match Digit.ofChar? c with
    | none => .error (.after 1 .invalidNumber (c :: rest))
    | some first =>
      if first = Digit.zero then
        match Digit.span rest with
        | ([], _) => .ok (.one [first] c rest)
        | (_ :: _, _) => .error (.after 1 .invalidNumber rest)
      else
        .ok ((Parsed.one (first :: (Digit.span rest).1) c rest).drop (Digit.length_span rest))

def readFraction : List Char → Except Failure (List Digit × List Char)
  | '.' :: text =>
    match Digit.span text with
    | ([], []) => .error (.atEnd .endInValue)
    | ([], c :: rest) => .error (.after 1 .invalidNumber (c :: rest))
    | (d :: ds, rest) => .ok (d :: ds, rest)
  | text => .ok ([], text)

theorem length_readFraction {text rest : List Char} {digits : List Digit}
    (h : readFraction text = .ok (digits, rest)) : rest.length ≤ text.length := by
  unfold readFraction at h
  split at h
  next text =>
    have := Digit.length_span text
    split at h
    next => cases h
    next => cases h
    next hs =>
      cases h
      rw [hs] at this
      exact Nat.le_succ_of_le this
  next =>
    cases h
    exact Nat.le_refl _

def readSign : List Char → Bool × List Char
  | '+' :: text => (false, text)
  | '-' :: text => (true, text)
  | text => (false, text)

theorem length_readSign (text : List Char) : (readSign text).2.length ≤ text.length := by
  unfold readSign
  split
  · exact Nat.le_succ _
  · exact Nat.le_succ _
  · exact Nat.le_refl _

def readExponent (text : List Char) : Except Failure (Option (Bool × List Digit) × List Char) :=
  match text with
  | [] => .ok (none, [])
  | c :: rest =>
    if c = 'e' ∨ c = 'E' then
      match Digit.span (readSign rest).2 with
      | ([], []) => .error (.atEnd .endInValue)
      | ([], c :: rest) => .error (.after 1 .invalidNumber (c :: rest))
      | (d :: ds, after) => .ok (some ((readSign rest).1, d :: ds), after)
    else .ok (none, c :: rest)

theorem length_readExponent {text rest : List Char} {exponent : Option (Bool × List Digit)}
    (h : readExponent text = .ok (exponent, rest)) : rest.length ≤ text.length := by
  unfold readExponent at h
  split at h
  next =>
    cases h
    exact Nat.le_refl _
  next c text =>
    split at h
    next =>
      have hsign := length_readSign text
      have hspan := Digit.length_span (readSign text).2
      split at h
      next => cases h
      next => cases h
      next hs =>
        cases h
        rw [hs] at hspan
        exact Nat.le_succ_of_le (Nat.le_trans hspan hsign)
    next =>
      cases h
      exact Nat.le_refl _

/-- A number literal; its minus sign, if it has one, is already read. -/
def readNumeral (negative : Bool) (text : List Char) : Reading Numeral text :=
  match readWhole text with
  | .error e => .error e
  | .ok whole =>
    match hf : readFraction whole.rest with
    | .error e => .error e
    | .ok (fraction, afterFraction) =>
      match he : readExponent afterFraction with
      | .error e => .error e
      | .ok (exponent, _) =>
        .ok (((whole.map fun digits => Numeral.mk negative digits fraction exponent).drop
          (length_readFraction hf)).drop (length_readExponent he))

/-- The number of a literal. A literal out of range fails after the digit that tells. -/
def readNumber (negative : Bool) (text : List Char) : Reading Number text :=
  match readNumeral negative text with
  | .error e => .error e
  | .ok p =>
    match p.value.toNumber with
    | .ok n => .ok (p.map fun _ => n)
    | .error unread => .error ⟨.numberOutOfRange, Text.byteLength p.rest + unread⟩

end Json

end Untyped
